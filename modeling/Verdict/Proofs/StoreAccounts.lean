import Mathlib.Data.List.DropRight
import Verdict.Proofs.Requests
import Verdict.Proofs.RoundTrip

/-!
# The store and the events account for each other

Every formula that enters the store is reported, and nothing else is reported as entering it. So the
texts reported since the store was last cleared are its content, none of them twice, and they are
the texts that were asked for and stand for a formula. `Store.Ledger` is the invariant: it says what
the events that were reported and the ones that wait to be reported have to do with the entries.
-/

namespace Verdict

/-- The texts of formulas that entered the store. -/
def Event.cachedTexts (events : List Event) : List String := events.filterMap cachedText?

namespace Store

/-- The texts of formulas that entered the store, by the events reported earlier and by those not
yet reported. -/
def log (reported : List Event) (s : Store) : List String :=
  Event.cachedTexts (reported ++ s.events.reverse)

/-- The events account for the content of the store. -/
structure Ledger (reported : List Event) (s : Store) : Prop where
  nodup : (s.log reported).Nodup
  mem_iff : ∀ source, source ∈ s.log reported ↔ s.entries.contains source = true
  size : s.size = (s.log reported).length

/-- The events not yet reported show the formulas of their texts. -/
def Truthful (s : Store) : Prop :=
  ∀ source formula, Event.cached source formula ∈ s.events → Formula.parse source = .ok formula

variable {s s' : Store} {reported : List Event} {texts : List String} {source : String}
  {formula : Formula} {event : Event}

theorem log_keep (reported : List Event) (s : Store) (source : String) (formula : Formula) :
    (s.keep source formula).2.log reported = s.log reported ++ [source] := by
  simp [log, keep, Event.cachedTexts, Event.cachedText?]

theorem log_note (h : event.cachedText? = none) (reported : List Event) (s : Store) :
    (s.note event).log reported = s.log reported := by
  simp [log, note, Event.cachedTexts, h]

theorem log_report (reported : List Event) (s : Store) :
    s.report.2.log (reported ++ s.report.1) = s.log reported := by
  simp [log, report]

theorem contains_keep (s : Store) (source : String) (formula : Formula) (other : String) :
    (s.keep source formula).2.entries.contains other = true ↔
      source = other ∨ s.entries.contains other = true := by
  simp only [keep, Std.TreeMap.contains_insert, Bool.or_eq_true, beq_iff_eq,
    Std.LawfulEqCmp.compare_eq_iff_eq]

theorem contains_of_getElem?_eq_none (h : s.entries[source]? = none) :
    s.entries.contains source = false := by
  rw [Std.TreeMap.contains_eq_isSome_getElem?, h, Option.isSome_none]

theorem Ledger.keep (h : s.Ledger reported) (hnew : s.entries[source]? = none)
    (formula : Formula) : (s.keep source formula).2.Ledger reported where
  nodup := by
    rw [log_keep, ← List.concat_eq_append, List.nodup_concat, h.mem_iff]
    exact ⟨by rw [contains_of_getElem?_eq_none hnew]; exact Bool.false_ne_true, h.nodup⟩
  mem_iff other := by
    rw [log_keep, contains_keep, List.mem_append, List.mem_singleton, h.mem_iff, or_comm, eq_comm]
  size := by
    have hsize : (s.keep source formula).2.size = s.size + 1 := by
      rw [Store.size, Store.keep, Std.TreeMap.size_insert, contains_of_getElem?_eq_none hnew,
        if_neg Bool.false_ne_true, Store.size]
    rw [log_keep, List.length_append, List.length_singleton, hsize, h.size]

theorem Ledger.note (h : s.Ledger reported) (hevent : event.cachedText? = none) :
    (s.note event).Ledger reported where
  nodup := by rw [log_note hevent]; exact h.nodup
  mem_iff source := by rw [log_note hevent]; exact h.mem_iff source
  size := by rw [log_note hevent]; exact h.size

theorem Ledger.fetches (h : s.Ledger reported) (hfetches : s.Fetches texts s') :
    s'.Ledger reported :=
  hfetches.preserve (fun _ _ formula hs hnew _ => hs.keep hnew formula)
    (fun _ _ hs hevent => hs.note hevent) h

/-- The events that are reported are accounted for as reported from then on. -/
theorem Ledger.report (h : s.Ledger reported) :
    s.report.2.Ledger (reported ++ s.report.1) where
  nodup := by rw [log_report]; exact h.nodup
  mem_iff source := by rw [log_report]; exact h.mem_iff source
  size := by rw [log_report]; exact h.size

/-- A store that is cleared when all events are reported starts a new account. -/
theorem ledger_of_empty (hentries : s.entries = ∅) (hevents : s.events = []) : s.Ledger [] := by
  have hlog : s.log [] = [] := by rw [log, hevents]; rfl
  constructor
  · rw [hlog]
    exact List.nodup_nil
  · intro source
    rw [hlog, hentries]
    simp
  · rw [hlog, size, hentries]
    rfl

theorem Truthful.fetches (h : s.Truthful) (hfetches : s.Fetches texts s') : s'.Truthful := by
  apply hfetches.preserve _ _ h
  · intro s source formula hs _ hparse other shown hmem
    rcases List.mem_cons.mp hmem with hsame | hmem
    · cases hsame
      exact hparse
    · exact hs other shown hmem
  · intro s event hs hevent source formula hmem
    rcases List.mem_cons.mp hmem with rfl | hmem
    · contradiction
    · exact hs source formula hmem

/-- Fetching texts adds those among them that stand for a formula. -/
theorem Fetches.contains_iff (h : s.Fetches texts s') (source : String) :
    s'.entries.contains source = true ↔ s.entries.contains source = true ∨
      source ∈ texts ∧ ∃ e, Formula.parse source = .ok e := by
  induction h with
  | done s => simp
  | @fetch s s' asked texts _ ih =>
      have hfetched := s.fetched asked
      generalize s.fetch asked = result at hfetched ih
      rw [ih]
      cases hfetched with
      | @known shared hentry =>
          have hcontains : s.entries.contains asked = true := by
            rw [Std.TreeMap.contains_eq_isSome_getElem?, hentry, Option.isSome_some]
          grind
      | @new formula _ hparse =>
          rw [contains_keep]
          grind
      | unreadable _ hparse => grind
  | note _ _ ih => exact ih

end Store

namespace Session

/-- The commands since the store was last cleared, with the answers to them. -/
def sinceClear (commands : List Command) : List (Command × Answer) :=
  (commands.zip (run {} commands)).rtakeWhile fun entry => !entry.1.clears

/-- The texts of formulas that were reported to enter the store since it was last cleared. -/
def reportedTexts (commands : List Command) : List String :=
  Event.cachedTexts ((sinceClear commands).flatMap fun entry => entry.2.events)

theorem sinceClear_concat (commands : List Command) (command : Command) :
    sinceClear (commands ++ [command]) =
      if command.clears then []
      else sinceClear commands ++ [(command, ((after {} commands).step command).1)] := by
  have hlength : commands.length = (run {} commands).length := (length_run ..).symm
  rw [sinceClear, run_concat, List.zip_append hlength, List.zip_cons_cons, List.zip_nil_right,
    List.rtakeWhile_concat]
  cases command.clears <;> rfl

/-- What a session knows about its store after some commands. -/
structure Accounted (commands : List Command) : Prop where
  ledger : (after {} commands).store.Ledger
    ((sinceClear commands).flatMap fun entry => entry.2.events)
  requested : ∀ source, (after {} commands).store.entries.contains source = true ↔
    (∃ entry ∈ sinceClear commands, entry.1.Requests source) ∧
      ∃ e, Formula.parse source = .ok e

theorem accounted (commands : List Command) : Accounted commands := by
  induction commands using List.reverseRecOn with
  | nil => exact ⟨Store.ledger_of_empty rfl rfl, fun source => by simp [sinceClear, after]⟩
  | append_singleton commands command ih =>
      cases hclears : command.clears with
      | true =>
          obtain rfl : command = .clear := by
            cases command with
            | clear => rfl
            | _ => contradiction
          have hentries : (after {} (commands ++ [.clear])).store.entries = ∅ := by
            rw [after_concat]
            rfl
          constructor
          · rw [sinceClear_concat, if_pos hclears]
            exact Store.ledger_of_empty hentries (events_after _)
          · rw [sinceClear_concat, if_pos hclears, hentries]
            simp
      | false =>
          have hsince := sinceClear_concat commands command
          rw [hclears, if_neg Bool.false_ne_true] at hsince
          obtain ⟨texts, hfetches, htexts⟩ :=
            exists_fetches_perform (sound_after_empty commands) hclears
          constructor
          · rw [hsince, after_concat, store_step, List.flatMap_append, List.flatMap_singleton]
            exact (ih.ledger.fetches hfetches).report
          · intro source
            rw [hsince, after_concat, store_step]
            have hcontains := hfetches.contains_iff source
            rw [ih.requested, htexts] at hcontains
            rw [Store.report, hcontains]
            simp only [List.mem_append, List.mem_singleton, or_and_right, exists_or,
              exists_eq_left]

/-- An answer reports only formulas of their texts. -/
theorem parse_of_reported {commands : List Command} {answer : Answer}
    (hanswer : answer ∈ run {} commands) {source : String} {formula : Formula}
    (hevent : .cached source formula ∈ answer.events) : Formula.parse source = .ok formula := by
  obtain ⟨before, command, rest, rfl, rfl⟩ := exists_step_of_mem_run hanswer
  have hbefore : (after {} before).store.Truthful := by
    intro source formula hmem
    rw [events_after] at hmem
    exact absurd hmem List.not_mem_nil
  have hperform : ((after {} before).perform command).2.store.Truthful := by
    cases hclears : command.clears with
    | true =>
        cases command with
        | clear => exact hbefore
        | _ => contradiction
    | false =>
        obtain ⟨texts, hfetches, -⟩ := exists_fetches_perform (sound_after_empty before) hclears
        exact hbefore.fetches hfetches
  exact hperform source formula (List.mem_reverse.mp hevent)

theorem size_of_getLast? {commands : List Command} {answer : Answer}
    (h : answer ∈ (run {} commands).getLast?) : answer.size = (after {} commands).store.size := by
  induction commands using List.reverseRecOn with
  | nil => cases h
  | append_singleton commands command _ =>
      rw [run_concat, List.getLast?_concat] at h
      cases h
      rw [after_concat]
      rfl

/-- After any commands the store holds exactly the texts that were asked for since it was last
cleared and stand for a formula. They are the texts that were reported to enter it since then, none
of them twice, and the size of the store is their number. Every report shows the text and a form of
its formula that reads back as the same formula. A text that cannot be read leaves the store as it
was and is not reported. -/
theorem store_accounts (commands : List Command) :
    (∀ source, (after {} commands).store.entries.contains source = true ↔
      (∃ entry ∈ sinceClear commands, entry.1.Requests source) ∧
        ∃ e, Formula.parse source = .ok e) ∧
    (∀ source, (after {} commands).store.entries.contains source = true ↔
      source ∈ reportedTexts commands) ∧
    (reportedTexts commands).Nodup ∧
    (after {} commands).store.size = (reportedTexts commands).length ∧
    (∀ answer ∈ (run {} commands).getLast?, answer.size = (reportedTexts commands).length) ∧
    (∀ answer ∈ run {} commands, ∀ source formula, .cached source formula ∈ answer.events →
      (Event.cached source formula).message =
          "cached expression " ++ Text.quoted source ++ " as `" ++ formula.text ++ "`" ∧
        Formula.parse source = .ok formula ∧ Formula.parse formula.text = .ok formula) ∧
    ∀ source cause, Formula.parse source = .error cause →
      (after {} commands).store.fetch source = (.error cause, (after {} commands).store) := by
  obtain ⟨hledger, hrequested⟩ := accounted commands
  have hlog : (after {} commands).store.log
      ((sinceClear commands).flatMap fun entry => entry.2.events) = reportedTexts commands := by
    rw [Store.log, events_after, List.reverse_nil, List.append_nil, reportedTexts]
  obtain ⟨hnodup, hmem, hsize⟩ := hledger
  rw [hlog] at hnodup hsize
  refine ⟨hrequested, ?_, hnodup, hsize, ?_, ?_, ?_⟩
  · intro source
    rw [← hmem, hlog]
  · intro answer hanswer
    rw [size_of_getLast? hanswer, hsize]
  · intro answer hanswer source formula hevent
    exact ⟨rfl, parse_of_reported hanswer hevent, formula.parse_text⟩
  · intro source cause hparse
    have hfetched := (after {} commands).store.fetched source
    generalize (after {} commands).store.fetch source = result at hfetched
    cases hfetched with
    | known hentry =>
        have hok := sound_after_empty commands source _ hentry
        rw [hparse] at hok
        contradiction
    | new _ hok =>
        rw [hparse] at hok
        contradiction
    | unreadable _ hcause =>
        rw [hparse] at hcause
        cases hcause
        rfl

end Session

end Verdict
