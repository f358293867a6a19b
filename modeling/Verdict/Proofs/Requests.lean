import Mathlib.Data.List.Induction
import Verdict.Proofs.Compilation

/-!
# The texts that commands ask the store for

Every command but one that clears the store does nothing to it but fetch texts, one after the other,
and note what came of it. `Command.Requests` says which texts a command fetches, without looking at
the store: fetching and evaluating ask for their text, and compiling asks for the texts of the rules
up to the first one that is refused, that one included unless its number was given before. So what
holds of every fetch holds of every command, by induction over `Store.Fetches`.
-/

namespace Verdict

/-- The text whose formula entered the store. -/
def Event.cachedText? : Event → Option String
  | cached source _ => some source
  | compiled _ | rejected _ _ _ => none

namespace Store

/-- What fetching a text comes to. -/
inductive Fetched (s : Store) (source : String) : Except ParseError Shared × Store → Prop where
  | known {shared : Shared} (h : s.entries[source]? = some shared) :
      Fetched s source (.ok shared, s)
  | new {formula : Formula} (h : s.entries[source]? = none)
      (hparse : Formula.parse source = .ok formula) :
      Fetched s source (.ok (s.keep source formula).1, (s.keep source formula).2)
  | unreadable {cause : ParseError} (h : s.entries[source]? = none)
      (hparse : Formula.parse source = .error cause) : Fetched s source (.error cause, s)

theorem fetched (s : Store) (source : String) : s.Fetched source (s.fetch source) := by
  unfold fetch
  split
  · next h => exact .known h
  · next h =>
      split
      · next hparse => exact .new h hparse
      · next hparse => exact .unreadable h hparse

/-- Fetching the texts in order leads from the one store to the other. In between, other events may
be noted. -/
inductive Fetches : Store → List String → Store → Prop where
  | done (s : Store) : Fetches s [] s
  | fetch {s s' : Store} {source : String} {texts : List String}
      (tail : Fetches (s.fetch source).2 texts s') : Fetches s (source :: texts) s'
  | note {s s' : Store} {event : Event} {texts : List String} (h : event.cachedText? = none)
      (tail : Fetches (s.note event) texts s') : Fetches s texts s'

variable {s s' : Store} {texts : List String}

theorem Fetches.single (s : Store) (source : String) : Fetches s [source] (s.fetch source).2 :=
  .fetch (.done _)

theorem Fetches.then_note (h : Fetches s texts s') {event : Event}
    (hevent : event.cachedText? = none) : Fetches s texts (s'.note event) := by
  induction h with
  | done s => exact .note hevent (.done _)
  | fetch _ ih => exact .fetch ih
  | note hother _ ih => exact .note hother ih

/-- What a new entry and a note keep, fetching texts keeps. -/
theorem Fetches.preserve {P : Store → Prop} (h : s.Fetches texts s')
    (hkeep : ∀ s source formula, P s → s.entries[source]? = none →
      Formula.parse source = .ok formula → P (s.keep source formula).2)
    (hnote : ∀ s event, P s → event.cachedText? = none → P (s.note event)) (hs : P s) : P s' := by
  induction h with
  | done s => exact hs
  | @fetch s s' source texts _ ih =>
      have hfetched := s.fetched source
      generalize s.fetch source = result at hfetched ih
      cases hfetched with
      | known => exact ih hs
      | new h hparse => exact ih (hkeep s source _ hs h hparse)
      | unreadable => exact ih hs
  | note hevent _ ih => exact ih (hnote _ _ hs hevent)

end Store

namespace Rule

/-- Compiling the rules after those that are done asks for this text: it is the text of a rule with
a new number, and all rules before that one can be compiled. -/
def Requests (done rules : List Rule) (source : String) : Prop :=
  ∃ before rule after, rules = before ++ rule :: after ∧ Compilable (done ++ before) ∧
    rule.id ∉ (done ++ before).map Rule.id ∧ rule.expression = source

variable {done rest : List Rule} {rule : Rule} {source : String}

theorem not_requests_nil : ¬ Requests done [] source := by
  rintro ⟨before, rule, after, hrules, -⟩
  exact List.cons_ne_nil _ _ (List.append_eq_nil_iff.mp hrules.symm).2

theorem requests_cons :
    Requests done (rule :: rest) source ↔
      (Compilable done ∧ rule.id ∉ done.map Rule.id ∧ rule.expression = source) ∨
        Requests (done ++ [rule]) rest source := by
  constructor
  · rintro ⟨before, other, after, hrules, hbefore, hid, rfl⟩
    rcases List.cons_eq_append_iff.mp hrules with ⟨rfl, hother⟩ | ⟨tail, rfl, hrest⟩
    · cases hother
      rw [List.append_nil] at hbefore hid
      exact .inl ⟨hbefore, hid, rfl⟩
    · rw [List.append_cons] at hbefore hid
      exact .inr ⟨tail, other, after, hrest, hbefore, hid, rfl⟩
  · rintro (⟨hdone, hid, rfl⟩ | ⟨before, other, after, rfl, hbefore, hid, rfl⟩)
    · refine ⟨[], rule, rest, rfl, ?_, ?_, rfl⟩
      · rwa [List.append_nil]
      · rwa [List.append_nil]
    · refine ⟨rule :: before, other, after, rfl, ?_, ?_, rfl⟩
      · rwa [List.append_cons]
      · rwa [List.append_cons]

theorem Compilable.of_append {before after : List Rule} (h : Compilable (before ++ after)) :
    Compilable before where
  nodup := by
    have hnodup := h.nodup
    rw [List.map_append] at hnodup
    exact (List.nodup_append.mp hnodup).1
  readable rule hrule := h.readable rule (List.mem_append_left _ hrule)

/-- Rules that can be compiled stay so without the last one, which has a new number and a text that
can be read. -/
theorem Compilable.of_concat {rules : List Rule} {rule : Rule} (h : Compilable (rules ++ [rule])) :
    Compilable rules ∧ rule.id ∉ rules.map Rule.id ∧
      ∃ e, Formula.parse rule.expression = .ok e := by
  have hnodup := h.nodup
  rw [List.map_append, List.map_singleton, ← List.concat_eq_append, List.nodup_concat] at hnodup
  exact ⟨h.of_append, hnodup.1, h.readable rule (by simp)⟩

/-- After rules that cannot be compiled nothing is asked for. -/
theorem Requests.compilable (h : Requests done rest source) : Compilable done := by
  obtain ⟨before, -, -, -, hbefore, -, -⟩ := h
  exact hbefore.of_append

end Rule

namespace Rulebook

variable {store : Store} {book : Rulebook} {done : List Rule}

/-- Rules that are compiled fetch their texts up to the first rule that is refused. -/
theorem exists_fetches_extend (hstore : store.Sound) (hbook : book.Holds done) (rules : List Rule) :
    ∃ texts, store.Fetches texts (extend book rules store).2 ∧
      ∀ source, source ∈ texts ↔ Rule.Requests done rules source := by
  induction rules generalizing book done store with
  | nil => exact ⟨[], .done _, fun _ => by simp [Rule.not_requests_nil]⟩
  | cons rule rest ih =>
      have hparse := hstore.map_fetch rule.expression
      have hsound := hstore.fetch rule.expression
      simp only [Rule.requests_cons]
      unfold extend
      split
      · next hknown =>
          -- A number that was given before is refused without a look at the text.
          have hid : rule.id ∈ done.map Rule.id := (hbook.index _).mp hknown
          refine ⟨[], .done _, fun source => ?_⟩
          have hrest : ¬ Rule.Requests (done ++ [rule]) rest source := by
            intro h
            obtain ⟨-, hnew, -⟩ := h.compilable.of_concat
            exact hnew hid
          simp [hid, hrest]
      · next hnew =>
          have hid : rule.id ∉ done.map Rule.id := fun hmem => hnew ((hbook.index _).mpr hmem)
          split
          · next shared store' hfetch =>
              rw [hfetch] at hparse hsound
              obtain ⟨texts, hfetches, htexts⟩ := ih hsound (hbook.add hid hparse.symm)
              refine ⟨rule.expression :: texts, .fetch ?_, fun source => ?_⟩
              · rwa [hfetch]
              · rw [List.mem_cons, htexts]
                simp [hbook.compilable, hid, eq_comm]
          · next cause store' hfetch =>
              -- The text is asked for, and no other one after it.
              rw [hfetch] at hparse
              have hfetched := Store.Fetches.single store rule.expression
              rw [hfetch] at hfetched
              refine ⟨[rule.expression], hfetched.then_note rfl, fun source => ?_⟩
              have hrest : ¬ Rule.Requests (done ++ [rule]) rest source := by
                intro h
                obtain ⟨-, -, e, hok⟩ := h.compilable.of_concat
                rw [hok] at hparse
                contradiction
              simp [hbook.compilable, hid, hrest, eq_comm]

theorem exists_fetches_compile (hstore : store.Sound) (rules : List Rule) :
    ∃ texts, store.Fetches texts (compile rules store).2 ∧
      ∀ source, source ∈ texts ↔ Rule.Requests [] rules source := by
  obtain ⟨texts, hfetches, htexts⟩ := exists_fetches_extend hstore holds_nil rules
  refine ⟨texts, ?_, htexts⟩
  unfold compile
  split
  · next hok =>
      rw [hok] at hfetches
      exact hfetches.then_note rfl
  · next herror => rwa [herror] at hfetches

end Rulebook

/-- The command fetches this text. -/
def Command.Requests (source : String) : Command → Prop
  | .fetch text | .evaluate text _ => text = source
  | .load _ document => ∃ rules, Rule.ofDocument? document = some rules ∧
      Rule.Requests [] rules source
  | .compile _ rules => Rule.Requests [] rules source
  | .clear | .look | .reset _ | .copy _ _ | .drop _ | .ask _ _ => False

/-- Whether a command clears the store. -/
def Command.clears : Command → Bool
  | .clear => true
  | .fetch _ | .evaluate _ _ | .look | .load _ _ | .compile _ _ | .reset _ | .copy _ _ | .drop _
  | .ask _ _ => false

namespace Session

variable {s : Session}

/-- A command that asks for nothing and does not clear the store leaves it alone. -/
theorem store_perform_of_books (s : Session) {command : Command}
    (h : command matches .look | .reset _ | .copy _ _ | .drop _ | .ask _ _) :
    (s.perform command).2.store = s.store := by
  cases command with
  | look | reset | drop => rfl
  | copy name target =>
      simp only [perform]
      split <;> rfl
  | ask name query =>
      simp only [perform]
      split <;> rfl
  | _ => contradiction

/-- A command that does not clear the store fetches the texts it asks for. -/
theorem exists_fetches_perform (hs : s.store.Sound) {command : Command}
    (hclears : command.clears = false) :
    ∃ texts, s.store.Fetches texts (s.perform command).2.store ∧
      ∀ source, source ∈ texts ↔ command.Requests source := by
  cases command with
  | fetch source =>
      rw [store_perform_fetch]
      exact ⟨[source], .single .., fun other => by simp [Command.Requests, eq_comm]⟩
  | evaluate source held =>
      rw [store_perform_evaluate]
      exact ⟨[source], .single .., fun other => by simp [Command.Requests, eq_comm]⟩
  | clear => contradiction
  | load name document =>
      simp only [perform, store_installCompiled, Rulebook.ofDocument, Command.Requests]
      cases Rule.ofDocument? document with
      | none => exact ⟨[], .done _, by simp⟩
      | some rules =>
          obtain ⟨texts, hfetches, htexts⟩ := Rulebook.exists_fetches_compile hs rules
          exact ⟨texts, hfetches, by simpa using htexts⟩
  | compile name rules =>
      simp only [perform, store_installCompiled]
      exact Rulebook.exists_fetches_compile hs rules
  | _ =>
      rw [store_perform_of_books s rfl]
      exact ⟨[], .done _, by simp [Command.Requests]⟩

/-! ### Runs, seen from their last command -/

theorem after_append (s : Session) (before rest : List Command) :
    s.after (before ++ rest) = (s.after before).after rest :=
  List.foldl_append

theorem after_concat (s : Session) (commands : List Command) (command : Command) :
    s.after (commands ++ [command]) = ((s.after commands).step command).2 :=
  after_append s commands [command]

theorem run_append (s : Session) (before rest : List Command) :
    s.run (before ++ rest) = s.run before ++ (s.after before).run rest := by
  induction before generalizing s with
  | nil => rfl
  | cons command before ih => exact congrArg (List.cons _) (ih _)

theorem run_concat (s : Session) (commands : List Command) (command : Command) :
    s.run (commands ++ [command]) = s.run commands ++ [((s.after commands).step command).1] :=
  run_append s commands [command]

theorem length_run (s : Session) (commands : List Command) :
    (s.run commands).length = commands.length := by
  induction commands generalizing s with
  | nil => rfl
  | cons command rest ih => exact congrArg Nat.succ (ih _)

/-- Every answer is the answer to a command of the run. -/
theorem exists_step_of_mem_run {s : Session} {commands : List Command} {answer : Answer}
    (h : answer ∈ s.run commands) :
    ∃ before command after, commands = before ++ command :: after ∧
      answer = ((s.after before).step command).1 := by
  induction commands generalizing s with
  | nil => exact absurd h List.not_mem_nil
  | cons command rest ih =>
      rcases List.mem_cons.mp h with rfl | hrest
      · exact ⟨[], command, rest, rfl, rfl⟩
      · obtain ⟨before, other, after, rfl, hanswer⟩ := ih hrest
        exact ⟨command :: before, other, after, rfl, hanswer⟩

theorem sound_after_empty (commands : List Command) : (after {} commands).store.Sound :=
  sound_after (Store.sound_of_entries_eq_empty rfl) commands

theorem store_step (s : Session) (command : Command) :
    (s.step command).2.store = (s.perform command).2.store.report.2 := rfl

/-- No event waits to be reported between two commands. -/
theorem events_after (commands : List Command) : (after {} commands).store.events = [] := by
  induction commands using List.reverseRecOn with
  | nil => rfl
  | append_singleton commands command _ =>
      rw [after_concat]
      rfl

end Session

end Verdict
