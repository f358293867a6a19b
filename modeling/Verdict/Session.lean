import Verdict.Rulebook.Compile

/-!
# Sessions

A session holds one store and rulebooks under names, and answers commands one after the other.
A command that fails changes no rulebook; what it fetched before it failed stays in the store. An
answer tells the size of the store and the events of its command besides the reply.
-/

namespace Verdict

/-- A question to a rulebook. -/
inductive Query where
  | allMatches (held : FactSet)
  | firstMatch (held : FactSet)
  | justification (held : FactSet)
  | rule (id : UInt32)
  | evidence (id : UInt32) (held : FactSet)
  | rules

/-- What a session can be told to do. -/
inductive Command where
  /-- Fetch the formula of a text. -/
  | fetch (source : String)
  /-- Find the evidence for the formula of a text. -/
  | evaluate (source : String) (held : FactSet)
  /-- Clear the store. -/
  | clear
  /-- Do nothing. -/
  | look
  /-- Keep the rulebook of a document under a name. -/
  | load (name document : String)
  /-- Keep the rulebook of a list of rules under a name. -/
  | compile (name : String) (rules : List Rule)
  /-- Keep a rulebook without rules under a name. -/
  | reset (name : String)
  /-- Keep the rulebook of one name under another name too. -/
  | copy (name target : String)
  /-- Forget the rulebook of a name. -/
  | drop (name : String)
  /-- Ask the rulebook of a name. -/
  | ask (name : String) (query : Query)

/-- What a session replies. -/
inductive Reply where
  | done
  | unknownBook
  | unreadable (e : ParseError)
  | refused (e : RulebookError)
  | shared (s : Shared)
  | evidence (found : Option FactSet)
  | book (book : Rulebook)
  | dropped (existed : Bool)
  | allMatches (found : List Match)
  | firstMatch (found : Option Match)
  | justification (used : FactSet)
  | rule (clause : Option Clause)
  | ruleEvidence (found : Option (Option FactSet))
  | rules (clauses : List Clause)

/-- A reply, and the state of the store after it. -/
structure Answer where
  reply : Reply
  /-- The number of formulas in the store. -/
  size : Nat
  /-- The events of the command, in order. -/
  events : List Event

/-- What a rulebook replies to a question. -/
def Rulebook.reply (book : Rulebook) : Query → Reply
  | .allMatches held => .allMatches (book.allMatches held)
  | .firstMatch held => .firstMatch (book.firstMatch? held)
  | .justification held => .justification (book.justification held)
  | .rule id => .rule (book.get? id)
  | .evidence id held => .ruleEvidence ((book.get? id).map (Clause.evidence held))
  | .rules => .rules book.toList

/-- A store, and rulebooks under names. -/
structure Session where
  store : Store := {}
  books : Std.TreeMap String Rulebook := ∅

namespace Session

/-- Keep a rulebook under a name. -/
def install (s : Session) (name : String) (book : Rulebook) : Reply × Session :=
  (.book book, { s with books := s.books.insert name book })

/-- Keep what was compiled under a name, if it was. -/
def installCompiled (s : Session) (name : String) :
    Except RulebookError Rulebook × Store → Reply × Session
  | (.ok book, store) => { s with store }.install name book
  | (.error e, store) => (.refused e, { s with store })

/-- Carry out a command. -/
def perform (s : Session) : Command → Reply × Session
  | .fetch source =>
      match s.store.fetch source with
      | (.ok shared, store) => (.shared shared, { s with store })
      | (.error e, store) => (.unreadable e, { s with store })
  | .evaluate source held =>
      match s.store.evaluate source held with
      | (.ok found, store) => (.evidence found, { s with store })
      | (.error e, store) => (.unreadable e, { s with store })
  | .clear => (.done, { s with store := s.store.clear })
  | .look => (.done, s)
  | .load name document => s.installCompiled name (Rulebook.ofDocument document s.store)
  | .compile name rules => s.installCompiled name (Rulebook.compile rules s.store)
  | .reset name => s.install name {}
  | .copy name target =>
      match s.books[name]? with
      | some book => s.install target book
      | none => (.unknownBook, s)
  | .drop name => (.dropped (s.books.contains name), { s with books := s.books.erase name })
  | .ask name query =>
      match s.books[name]? with
      | some book => (book.reply query, s)
      | none => (.unknownBook, s)

/-- Carry out a command and report its events. -/
def step (s : Session) (command : Command) : Answer × Session :=
  let (reply, s) := s.perform command
  let (events, store) := s.store.report
  (⟨reply, store.size, events⟩, { s with store })

/-- The answers to commands one after the other. -/
def run (s : Session) : List Command → List Answer
  | [] => []
  | command :: rest =>
      let (answer, s) := s.step command
      answer :: run s rest

end Session

end Verdict
