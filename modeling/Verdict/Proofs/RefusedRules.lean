import Verdict.Proofs.StoreAccounts
import Verdict.Proofs.StoreGrowth

/-!
# What is left when a rule is refused

Compiling stops at the first rule that is refused. By then the texts of the rules before it were
fetched, and nothing else was: `Rulebook.compile_of_refused` gives the whole outcome, with the store
in which just these texts were fetched and a warning where a text could not be read. So neither the
text of a rule whose number was given before nor any later rule matters, and no rulebook changes.
-/

namespace Verdict

namespace Store

/-- Fetch texts one after the other. -/
def fetchAll (s : Store) (texts : List String) : Store :=
  texts.foldl (fun s source => (s.fetch source).2) s

theorem fetchAll_cons (s : Store) (source : String) (texts : List String) :
    s.fetchAll (source :: texts) = (s.fetch source).2.fetchAll texts := rfl

variable {s : Store} {source : String}

theorem fetches_fetchAll (s : Store) (texts : List String) :
    s.Fetches texts (s.fetchAll texts) := by
  induction texts generalizing s with
  | nil => exact .done s
  | cons source rest ih => exact .fetch (ih _)

theorem contains_fetchAll_iff {texts : List String}
    (h : ∀ source ∈ texts, ∃ e, Formula.parse source = .ok e) (source : String) :
    (s.fetchAll texts).entries.contains source = true ↔
      s.entries.contains source = true ∨ source ∈ texts := by
  rw [(s.fetches_fetchAll texts).contains_iff, and_iff_left_of_imp (h source)]

theorem Sound.fetchAll (h : s.Sound) (texts : List String) : (s.fetchAll texts).Sound := by
  induction texts generalizing s with
  | nil => exact h
  | cons source rest ih => exact ih (h.fetch source)

/-- Fetching texts reports formulas of these texts and nothing else. -/
theorem exists_events_fetchAll (s : Store) (texts : List String) :
    ∃ fresh, (s.fetchAll texts).events = fresh ++ s.events ∧
      ∀ event ∈ fresh, ∃ source ∈ texts, ∃ formula, event = .cached source formula := by
  induction texts generalizing s with
  | nil => exact ⟨[], rfl, by simp⟩
  | cons source rest ih =>
      obtain ⟨fresh, hevents, hfresh⟩ := ih (s.fetch source).2
      have hrest : ∀ event ∈ fresh, ∃ other ∈ source :: rest, ∃ formula,
          event = .cached other formula := by
        intro event hevent
        obtain ⟨other, hother, hcached⟩ := hfresh event hevent
        exact ⟨other, List.mem_cons_of_mem _ hother, hcached⟩
      rw [fetchAll_cons, hevents]
      have hfetched := s.fetched source
      generalize s.fetch source = result at hfetched
      cases hfetched with
      | known | unreadable => exact ⟨fresh, rfl, hrest⟩
      | @new formula =>
          refine ⟨fresh ++ [.cached source formula], by simp [keep], ?_⟩
          intro event hevent
          rcases List.mem_append.mp hevent with hevent | hevent
          · exact hrest event hevent
          · exact ⟨source, List.mem_cons_self .., formula, List.mem_singleton.mp hevent⟩

/-- A text that stands for no formula leaves a sound store as it is. -/
theorem Sound.fetch_eq_error (h : s.Sound) {cause : ParseError}
    (hparse : Formula.parse source = .error cause) : s.fetch source = (.error cause, s) := by
  have hmap := h.map_fetch source
  have hfetched := s.fetched source
  generalize s.fetch source = result at hmap hfetched
  rw [hparse] at hmap
  cases hfetched with
  | known | new => cases hmap
  | unreadable =>
      cases hmap
      rfl

end Store

/-- The warning about a rule that was refused. One whose number was given before leaves none. -/
def Rule.warning? (rule : Rule) : RulebookError → Option Event
  | .invalid _ cause => some (.rejected rule.id rule.name cause)
  | .duplicate _ | .malformed => none

namespace Rulebook

open Rule (Compilable Refused)

variable {store : Store} {book : Rulebook} {done before : List Rule} {rule : Rule}
  {error : RulebookError}

/-- The loop in the middle of its work: after rules that can be compiled it goes on with a rulebook
that holds them and with the store in which their texts were fetched. -/
theorem exists_extend_append (hstore : store.Sound) (hbook : book.Holds done)
    (hbefore : Compilable (done ++ before)) :
    ∃ book', book'.Holds (done ++ before) ∧ ∀ rest, extend book (before ++ rest) store =
      extend book' rest (store.fetchAll (before.map Rule.expression)) := by
  induction before generalizing book done store with
  | nil => exact ⟨book, by rwa [List.append_nil], fun rest => rfl⟩
  | cons rule before ih =>
      rw [List.append_cons] at hbefore ⊢
      obtain ⟨-, hid, e, hparse⟩ := hbefore.of_append.of_concat
      have hmap := hstore.map_fetch rule.expression
      have hsound := hstore.fetch rule.expression
      rw [hparse] at hmap
      rcases hfetch : store.fetch rule.expression with ⟨cause | shared, next⟩
      · rw [hfetch] at hmap
        cases hmap
      · rw [hfetch] at hmap hsound
        obtain rfl : shared.formula = e := Except.ok.inj hmap
        obtain ⟨book', hholds, hrest⟩ := ih hsound (hbook.add hid hparse) hbefore
        refine ⟨book', hholds, fun rest => ?_⟩
        have hnew : ¬ book.index.contains rule.id = true := by rwa [hbook.index]
        rw [List.cons_append, extend, if_neg hnew, List.map_cons, Store.fetchAll_cons, hfetch]
        exact hrest rest

/-- A rule that is refused ends the work, with a warning if its text could not be read. -/
theorem extend_cons_of_refused (hstore : store.Sound) (hbook : book.Holds before)
    (h : Refused before rule error) (rest : List Rule) :
    extend book (rule :: rest) store =
      (.error error, { store with events := (rule.warning? error).toList ++ store.events }) := by
  cases h with
  | duplicate hid =>
      rw [extend, if_pos ((hbook.index _).mpr hid)]
      rfl
  | invalid hid hparse =>
      have hnew : ¬ book.index.contains rule.id = true := by rwa [hbook.index]
      rw [extend, if_neg hnew, hstore.fetch_eq_error hparse]
      rfl

/-- What compiling comes to when a rule is refused after rules that can be compiled, whatever rules
follow. -/
theorem compile_of_refused (hstore : store.Sound) (hbefore : Compilable before)
    (h : Refused before rule error) (rest : List Rule) :
    compile (before ++ rule :: rest) store =
      (.error error,
        { store.fetchAll (before.map Rule.expression) with
          events := (rule.warning? error).toList ++
            (store.fetchAll (before.map Rule.expression)).events }) := by
  obtain ⟨book, hholds, hextend⟩ :=
    exists_extend_append hstore holds_nil (by rwa [List.nil_append])
  rw [compile, hextend, extend_cons_of_refused (hstore.fetchAll _) hholds h]

theorem exists_refused (hstore : store.Sound) {rules : List Rule}
    (h : (compile rules store).1 = .error error) :
    ∃ before rule rest, rules = before ++ rule :: rest ∧ Compilable before ∧
      Refused before rule error := by
  have houtcome := outcome_compile hstore rules
  rw [h] at houtcome
  cases houtcome with
  | error hrules hbefore hrefused => exact ⟨_, _, _, hrules, hbefore, hrefused⟩

end Rulebook

/-- The rules that a command compiles. -/
def Command.rules? : Command → Option (List Rule)
  | .compile _ rules => some rules
  | .load _ document => Rule.ofDocument? document
  | .fetch _ | .evaluate _ _ | .clear | .look | .reset _ | .copy _ _ | .drop _ | .ask _ _ => none

namespace Session

open Rule (Compilable Refused FaultyAt)

variable {s : Session} {command : Command} {rules : List Rule} {error : RulebookError}

/-- The texts of these rules were fetched, and that is all that happened to the store and the
rulebooks. -/
structure OnlyFetched (s s' : Session) (rules : List Rule) : Prop where
  keeps : ∀ (source : String) shared, s.store.entries[source]? = some shared →
    s'.store.entries[source]? = some shared
  contains_iff : ∀ source, s'.store.entries.contains source = true ↔
    s.store.entries.contains source = true ∨ source ∈ rules.map Rule.expression
  formulas : ∀ rule ∈ rules, ∃ shared, s'.store.entries[rule.expression]? = some shared ∧
    Formula.parse rule.expression = .ok shared.formula
  books : s'.books = s.books

/-- The events of rules of which these were compiled before one was refused: formulas of their texts
that entered the store, and the warning about the one that was refused, if there is one. -/
structure OnlyWarns (events : List Event) (rules : List Rule) (warning : Option Event) : Prop where
  cached : ∀ event ∈ events, event.level = .debug →
    ∃ source ∈ rules.map Rule.expression, ∃ formula, event = .cached source formula
  not_compiled : ∀ count, .compiled count ∉ events
  warnings : events.filter (fun event => event.level = .warning) = warning.toList

theorem onlyFetched_of_entries_eq (hs : s.store.Sound) (hrules : Compilable rules) {s' : Session}
    (hentries : s'.store.entries = (s.store.fetchAll (rules.map Rule.expression)).entries)
    (hbooks : s'.books = s.books) : OnlyFetched s s' rules := by
  have hcontains : ∀ source, s'.store.entries.contains source = true ↔
      s.store.entries.contains source = true ∨ source ∈ rules.map Rule.expression := by
    rw [hentries]
    exact Store.contains_fetchAll_iff (List.forall_mem_map.mpr hrules.readable)
  refine ⟨?_, hcontains, ?_, hbooks⟩
  · intro source shared hshared
    rw [hentries]
    exact (s.store.fetches_fetchAll _).grows.keeps hshared
  · intro rule hrule
    have hentry := (hcontains _).mpr (.inr (List.mem_map_of_mem hrule))
    rw [Std.TreeMap.contains_eq_isSome_getElem?, Option.isSome_iff_exists] at hentry
    obtain ⟨shared, hshared⟩ := hentry
    exact ⟨shared, hshared, hs.fetchAll _ _ _ (hentries ▸ hshared)⟩

theorem level_warning? {rule : Rule} {event : Event} (h : event ∈ rule.warning? error) :
    event.level = .warning := by
  cases error with
  | invalid name cause =>
      cases h
      rfl
  | _ => contradiction

theorem onlyWarns_of_append {fresh : List Event} {rule : Rule}
    (hfresh : ∀ event ∈ fresh, ∃ source ∈ rules.map Rule.expression, ∃ formula,
      event = .cached source formula) :
    OnlyWarns (fresh ++ (rule.warning? error).toList) rules (rule.warning? error) := by
  have hwarning : ∀ event ∈ (rule.warning? error).toList, event.level = .warning :=
    fun event h => level_warning? (Option.mem_toList.mp h)
  constructor
  · intro event hevent hlevel
    rcases List.mem_append.mp hevent with hevent | hevent
    · exact hfresh event hevent
    · rw [hwarning event hevent] at hlevel
      contradiction
  · intro count hevent
    rcases List.mem_append.mp hevent with hevent | hevent
    · obtain ⟨_, _, _, hcached⟩ := hfresh _ hevent
      contradiction
    · exact absurd (hwarning _ hevent) (by simp [Event.level])
  · have hnone : fresh.filter (fun event => event.level = .warning) = [] := by
      rw [List.filter_eq_nil_iff]
      intro event hevent
      obtain ⟨source, _, formula, rfl⟩ := hfresh event hevent
      simp [Event.level]
    have hall : (rule.warning? error).toList.filter (fun event => event.level = .warning) =
        (rule.warning? error).toList :=
      List.filter_eq_self.mpr fun event hevent => decide_eq_true (hwarning event hevent)
    rw [List.filter_append, hnone, hall, List.nil_append]

theorem exists_perform_eq_installCompiled (s : Session) (h : command.rules? = some rules) :
    ∃ name, s.perform command = s.installCompiled name (Rulebook.compile rules s.store) := by
  cases command with
  | compile name listed =>
      cases h
      exact ⟨name, rfl⟩
  | load name document =>
      have hdocument : Rule.ofDocument? document = some rules := h
      exact ⟨name, by rw [perform, Rulebook.ofDocument, hdocument]⟩
  | _ => contradiction

theorem compile_of_reply (h : command.rules? = some rules)
    (hreply : (s.step command).1.reply = .refused error) :
    (Rulebook.compile rules s.store).1 = .error error := by
  obtain ⟨name, hperform⟩ := exists_perform_eq_installCompiled s h
  have hinstall : (s.installCompiled name (Rulebook.compile rules s.store)).1 = .refused error := by
    rw [← hperform]
    exact hreply
  generalize Rulebook.compile rules s.store = compiled at hinstall
  obtain ⟨_ | _, _⟩ := compiled
  · cases hinstall
    rfl
  · cases hinstall

/-- A step: when a rule is refused, the texts of the rules before it are fetched, and a warning is
reported if the text of the rule could not be read. -/
theorem step_eq_of_refused {before rest : List Rule} {rule : Rule} (hs : s.store.Sound)
    (hrules : command.rules? = some (before ++ rule :: rest)) (hbefore : Compilable before)
    (h : Refused before rule error) :
    s.step command =
      (⟨.refused error, (s.store.fetchAll (before.map Rule.expression)).size,
          (s.store.fetchAll (before.map Rule.expression)).events.reverse ++
            (rule.warning? error).toList⟩,
        { s with store := (s.store.fetchAll (before.map Rule.expression)).report.2 }) := by
  have hreverse : (rule.warning? error).toList.reverse = (rule.warning? error).toList := by
    cases rule.warning? error <;> rfl
  obtain ⟨name, hperform⟩ := exists_perform_eq_installCompiled s hrules
  rw [step, hperform, Rulebook.compile_of_refused hs hbefore h]
  simp only [installCompiled, Store.report, List.reverse_append, hreverse]
  rfl

/-- When a command is to compile rules and is refused, the rule at fault that comes first is the one
that is refused. Then the store has what it had and the texts of the rules before that one, each
with its formula, and no rulebook is changed. What is reported is that formulas of these texts
entered the store, no rules as compiled, and one warning if the text of the rule could not be read.
What follows the rule does not matter, and neither does its text if its number was given before. A
document that lists no rules changes nothing and nothing is reported. -/
theorem step_of_refused (commands : List Command) :
    (∀ command rules error, command.rules? = some rules →
      ((after {} commands).step command).1.reply = .refused error →
      ∃ i rule, rules[i]? = some rule ∧ IsLeast {j | FaultyAt rules j} i ∧
        Refused (rules.take i) rule error ∧
        OnlyFetched (after {} commands) ((after {} commands).step command).2 (rules.take i) ∧
        OnlyWarns ((after {} commands).step command).1.events (rules.take i)
          (rule.warning? error) ∧
        (∀ rest, Rulebook.compile (rules.take i ++ rule :: rest) (after {} commands).store =
          Rulebook.compile rules (after {} commands).store) ∧
        (error = .duplicate rule.id → ∀ other rest, other.id = rule.id →
          Rulebook.compile (rules.take i ++ other :: rest) (after {} commands).store =
            Rulebook.compile rules (after {} commands).store)) ∧
    ∀ name document, Rule.ofDocument? document = none →
      (after {} commands).step (.load name document) =
        (⟨.refused .malformed, (after {} commands).store.size, []⟩, after {} commands) := by
  have hs := sound_after_empty commands
  have hevents := events_after commands
  generalize after {} commands = s at hs hevents
  constructor
  · intro command rules error hrules hreply
    obtain ⟨before, rule, rest, rfl, hbefore, h⟩ :=
      Rulebook.exists_refused hs (compile_of_reply hrules hreply)
    refine ⟨before.length, rule, by simp, h.isLeast hbefore, ?_⟩
    rw [List.take_left, step_eq_of_refused hs hrules hbefore h]
    refine ⟨h, onlyFetched_of_entries_eq hs hbefore rfl rfl, ?_, ?_, ?_⟩
    · obtain ⟨fresh, hfetched, hfresh⟩ :=
        s.store.exists_events_fetchAll (before.map Rule.expression)
      rw [hevents, List.append_nil] at hfetched
      rw [hfetched]
      apply onlyWarns_of_append
      intro event hevent
      exact hfresh event (List.mem_reverse.mp hevent)
    · intro other
      rw [Rulebook.compile_of_refused hs hbefore h, Rulebook.compile_of_refused hs hbefore h]
    · rintro rfl other others hid
      have hother : Refused before other (.duplicate rule.id) := by
        cases h with
        | duplicate hmem => exact hid ▸ .duplicate (hid ▸ hmem)
      rw [Rulebook.compile_of_refused hs hbefore hother, Rulebook.compile_of_refused hs hbefore h]
      rfl
  · intro name document hdocument
    obtain ⟨⟨entries, nextSerial, events⟩, books⟩ := s
    obtain rfl : events = [] := hevents
    simp only [step, perform, Rulebook.ofDocument, hdocument]
    rfl

/-- The second text cannot be read. The first one is in the store then, the third one is not, and
the rulebook is the one from before. -/
theorem step_of_refused_second :
    let commands : List Command := [.compile "book" [⟨5, "old", "", "7"⟩]]
    let command : Command := .compile "book"
      [⟨1, "a", "", "1 | 2"⟩, ⟨2, "b", "", "1 &"⟩, ⟨3, "c", "", "3"⟩]
    let s' := ((after {} commands).step command).2
    s'.store.entries.contains "7" = true ∧ s'.store.entries.contains "1 | 2" = true ∧
      s'.store.entries.contains "3" = false ∧ s'.books = (after {} commands).books ∧
      ((after {} commands).step command).1.events.filter (fun event => event.level = .warning) =
        [.rejected 2 "b" (.missingOperand 3)] := by
  intro commands command s'
  have hreply : ((after {} commands).step command).1.reply =
      .refused (.invalid "b" (.missingOperand 3)) := rfl
  obtain ⟨i, rule, hget, -, hrefused, hfetched, hwarns, -⟩ :=
    (step_of_refused commands).1 command _ _ rfl hreply
  -- Only the second rule has the name in the error.
  have hname : rule.name = "b" := by
    generalize herror : RulebookError.invalid "b" (.missingOperand 3) = error at hrefused
    cases hrefused with
    | duplicate => cases herror
    | invalid => exact (RulebookError.invalid.inj herror).1.symm
  obtain rfl : i = 1 := by
    match i with
    | 0 | 2 =>
        cases hget
        contradiction
    | 1 => rfl
    | i + 3 => contradiction
  cases hget
  have hcontains := hfetched.contains_iff
  refine ⟨(hcontains _).mpr (.inl rfl), (hcontains _).mpr (.inr (by decide)), ?_,
    hfetched.books, hwarns.warnings⟩
  rw [Bool.eq_false_iff, Ne, hcontains]
  rintro (hold | hbefore)
  · exact absurd hold (by decide)
  · exact absurd hbefore (by decide)

end Session

end Verdict
