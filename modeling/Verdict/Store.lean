import Std.Data.TreeMap
import Verdict.Event
import Verdict.Formula.Evidence
import Verdict.Formula.Reading

/-!
# The store of formulas

The store keeps every formula that was fetched from its text until it is cleared. A text that is
fetched again is not read again: the same shared formula is handed out. Texts that cannot be read
are not kept.

## Implementation notes

A shared formula carries a serial number that no other one has, also not one from before the store
was cleared. So two shared formulas are the same object exactly when their numbers agree, and equal
formulas from different texts are told apart.
-/

namespace Verdict

/-- A formula that is handed out to many. -/
structure Shared where
  serial : Nat
  formula : Formula

/-- The formulas fetched so far, by their texts, and the events not yet reported. -/
structure Store where
  entries : Std.TreeMap String Shared := ∅
  /-- The serial number of the next shared formula. -/
  nextSerial : Nat := 0
  /-- The events not yet reported, latest first. -/
  events : List Event := []

namespace Store

/-- Note an event. -/
def note (s : Store) (event : Event) : Store := { s with events := event :: s.events }

/-- Keep a formula under its text. -/
def keep (s : Store) (source : String) (formula : Formula) : Shared × Store :=
  let shared : Shared := ⟨s.nextSerial, formula⟩
  (shared,
    { s with
      entries := s.entries.insert source shared
      nextSerial := s.nextSerial + 1
      events := .cached source formula :: s.events })

/-- The formula of a text, from the store if it is there. -/
def fetch (s : Store) (source : String) : Except ParseError Shared × Store :=
  match s.entries[source]? with
  | some shared => (.ok shared, s)
  | none =>
      match Formula.parse source with
      | .ok formula =>
          let (shared, s) := s.keep source formula
          (.ok shared, s)
      | .error e => (.error e, s)

/-- The evidence for the formula of a text. -/
def evaluate (s : Store) (source : String) (held : FactSet) :
    Except ParseError (Option FactSet) × Store :=
  match s.fetch source with
  | (.ok shared, s) => (.ok (shared.formula.findEvidence held), s)
  | (.error e, s) => (.error e, s)

/-- Forget all formulas. -/
def clear (s : Store) : Store := { s with entries := ∅ }

/-- The number of formulas in the store. -/
def size (s : Store) : Nat := s.entries.size

/-- The events not yet reported, in the order in which they happened, and the store without them. -/
def report (s : Store) : List Event × Store := (s.events.reverse, { s with events := [] })

end Store

end Verdict
