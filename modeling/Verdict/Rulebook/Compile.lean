import Verdict.Rule.Document
import Verdict.Rulebook.Basic

/-!
# Compiling rules

Rules are compiled one after the other: a rule whose number was given before is refused, and so is
one whose text cannot be read. The first rule that is refused ends the work. Formulas come from the
store, so rules with the same text share one formula, and what was read before a refusal stays in
the store.
-/

namespace Verdict

/-- Why rules cannot be made into a rulebook. -/
inductive RulebookError where
  /-- The document is no rule document. -/
  | malformed
  /-- The number of a rule was given before. -/
  | duplicate (id : UInt32)
  /-- The text of a rule cannot be read. -/
  | invalid (name : String) (cause : ParseError)
  deriving DecidableEq, Repr

/-- The wording of an error. What follows `Deserialization error` after a colon, the wording of the
reader of documents, is left out. -/
def RulebookError.message : RulebookError → String
  | malformed => "Deserialization error"
  | duplicate id => "Duplicate rule id: " ++ toString id.toNat
  | invalid name cause => "Invalid rule '" ++ name ++ "': " ++ cause.message

namespace Rulebook

/-- Compile rules at the end of a rulebook. -/
def extend (book : Rulebook) : List Rule → Store → Except RulebookError Rulebook × Store
  | [], store => (.ok book, store)
  | rule :: rest, store =>
      if book.index.contains rule.id then (.error (.duplicate rule.id), store)
      else
        match store.fetch rule.expression with
        | (.ok shared, store) => extend (book.add ⟨rule, shared⟩) rest store
        | (.error cause, store) =>
            (.error (.invalid rule.name cause),
              store.note (.rejected rule.id rule.name cause))

/-- The rulebook of a list of rules. -/
def compile (rules : List Rule) (store : Store) : Except RulebookError Rulebook × Store :=
  match extend {} rules store with
  | (.ok book, store) => (.ok book, store.note (.compiled book.size))
  | (.error e, store) => (.error e, store)

/-- The rulebook of a rule document. -/
def ofDocument (document : String) (store : Store) : Except RulebookError Rulebook × Store :=
  match Rule.ofDocument? document with
  | some rules => compile rules store
  | none => (.error .malformed, store)

end Rulebook

end Verdict
