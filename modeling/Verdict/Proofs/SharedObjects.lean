import Mathlib.Data.List.Infix
import Verdict.Proofs.StoreGrowth

/-!
# Which formulas are the same object

A formula that is handed out, or held by a rulebook, entered the store at some command of the run
under some text, in some epoch: the number of times the store was cleared before. The text and the
epoch tell the objects of a run apart. `Session.Traced` is the invariant that relates the store and
the rulebooks to everything that was inserted since the run began.
-/

namespace Verdict.Session

variable {command : Command} {book : Rulebook} {shared : Shared}

/-- The number of times that the store is cleared by the commands. -/
def epoch (commands : List Command) : Nat := commands.countP Command.clears

/-- A command of the run put the formula into the store under the text, in this epoch. -/
def Inserted (commands : List Command) (source : String) (k : Nat) (shared : Shared) : Prop :=
  ∃ before command, before ++ [command] <+: commands ∧ epoch before = k ∧
    (after {} before).store.Adds (after {} (before ++ [command])).store source shared

variable {commands before : List Command} {source source' : String} {k k' : Nat} {a b : Shared}

theorem Inserted.mono (h : Inserted before source k a) (hbegin : before <+: commands) :
    Inserted commands source k a := by
  obtain ⟨first, command, hfirst, hk, hadds⟩ := h
  exact ⟨first, command, hfirst.trans hbegin, hk, hadds⟩

theorem epoch_le_epoch (h : before <+: commands) : epoch before ≤ epoch commands :=
  h.sublist.countP_le

theorem Inserted.le_epoch (h : Inserted commands source k a) : k ≤ epoch commands := by
  obtain ⟨before, command, hbegin, rfl, -⟩ := h
  exact epoch_le_epoch ((List.prefix_append before [command]).trans hbegin)

theorem epoch_concat (commands : List Command) (command : Command) :
    epoch (commands ++ [command]) = epoch commands + if command.clears then 1 else 0 := by
  rw [epoch, List.countP_append, List.countP_singleton, epoch]

theorem inserted_concat :
    Inserted (commands ++ [command]) source k a ↔ Inserted commands source k a ∨
      epoch commands = k ∧
        (after {} commands).store.Adds (after {} (commands ++ [command])).store source a := by
  constructor
  · rintro ⟨before, other, hbegin, hk, hadds⟩
    rcases List.prefix_concat_iff.mp hbegin with hsame | hbegin
    · obtain ⟨rfl, hother⟩ := List.append_inj' hsame rfl
      cases hother
      exact .inr ⟨hk, hadds⟩
    · exact .inl ⟨before, other, hbegin, hk, hadds⟩
  · rintro (hold | ⟨hk, hadds⟩)
    · exact hold.mono (List.prefix_append ..)
    · exact ⟨commands, command, List.prefix_refl _, hk, hadds⟩

/-- What a session knows about its objects after some commands. -/
structure Traced (commands : List Command) : Prop where
  lt {source : String} {k : Nat} {a : Shared} : Inserted commands source k a →
    a.serial < (after {} commands).store.nextSerial
  entry {source : String} {a : Shared} : (after {} commands).store.entries[source]? = some a ↔
    Inserted commands source (epoch commands) a
  functional {source : String} {k : Nat} {a b : Shared} : Inserted commands source k a →
    Inserted commands source k b → a = b
  distinct {source source' : String} {k k' : Nat} {a b : Shared} : Inserted commands source k a →
    Inserted commands source' k' b → a.serial = b.serial → source = source' ∧ k = k'
  held {book : Rulebook} {clause : Clause} : (after {} commands).Keeps book →
    clause ∈ book.toList → ∃ k, Inserted commands clause.rule.expression k clause.shared

theorem not_inserted_nil : ¬ Inserted [] source k a := by
  rintro ⟨before, command, hbegin, -⟩
  exact List.append_ne_nil_of_right_ne_nil before (List.cons_ne_nil command [])
    (List.prefix_nil.mp hbegin)

theorem traced_nil : Traced [] where
  lt h := absurd h not_inserted_nil
  entry := by
    intro source a
    constructor
    · intro h
      simp [after] at h
    · exact fun h => absurd h not_inserted_nil
  functional h := absurd h not_inserted_nil
  distinct h := absurd h not_inserted_nil
  held h := by
    obtain ⟨name, h⟩ := h
    simp [after] at h

/-- The rulebooks after one more command are those from before, and one that takes its formulas from
the store. -/
theorem Traced.held_concat (h : Traced commands) {book : Rulebook} {clause : Clause}
    (hentry : ∀ source a, (after {} (commands ++ [command])).store.entries[source]? = some a →
      ∃ k, Inserted (commands ++ [command]) source k a)
    (hbook : (after {} (commands ++ [command])).Keeps book) (hclause : clause ∈ book.toList) :
    ∃ k, Inserted (commands ++ [command]) clause.rule.expression k clause.shared := by
  rw [after_concat] at hbook hentry
  rcases (effect_step _ command).keeps_or_current hbook with hold | hcurrent
  · obtain ⟨k, hinserted⟩ := h.held hold hclause
    exact ⟨k, hinserted.mono (List.prefix_append ..)⟩
  · exact hentry _ _ (hcurrent clause hclause)

/-- A step: clearing the store inserts nothing and begins an epoch in which nothing was inserted. -/
theorem Traced.clear (h : Traced commands) (hclears : command.clears = true) :
    Traced (commands ++ [command]) := by
  obtain ⟨hentries, hnext⟩ := entries_step_of_clears (after {} commands) hclears
  rw [← after_concat] at hentries hnext
  have hold {source k a} (ha : Inserted (commands ++ [command]) source k a) :
      Inserted commands source k a := by
    rcases inserted_concat.mp ha with hold | ⟨-, hadds⟩
    · exact hold
    · have hpresent := hadds.present
      simp [hentries] at hpresent
  have hnone {source : String} {a : Shared}
      (ha : (after {} (commands ++ [command])).store.entries[source]? = some a) : False := by
    simp [hentries] at ha
  constructor
  · intro source k a ha
    rw [hnext]
    exact h.lt (hold ha)
  · intro source a
    refine ⟨fun ha => (hnone ha).elim, fun ha => ?_⟩
    have hle := (hold ha).le_epoch
    rw [epoch_concat, hclears, if_pos rfl] at hle
    omega
  · exact fun ha hb => h.functional (hold ha) (hold hb)
  · exact fun ha hb => h.distinct (hold ha) (hold hb)
  · exact fun hbook => h.held_concat (fun _ _ ha => (hnone ha).elim) hbook

/-- An object that is new now cannot be one that was inserted earlier. -/
theorem Traced.lt_of_adds (h : Traced commands) {s' : Store}
    (hgrows : (after {} commands).store.Grows s') (ha : Inserted commands source k a)
    (hb : (after {} commands).store.Adds s' source' b) : a.serial < b.serial :=
  Nat.lt_of_lt_of_le (h.lt ha) (hgrows.fresh hb).1

/-- A text under which something was inserted in this epoch is still in the store. -/
theorem Traced.not_adds (h : Traced commands) (ha : Inserted commands source (epoch commands) a)
    (s' : Store) (b : Shared) : ¬ (after {} commands).store.Adds s' source b := by
  intro hb
  have habsent := hb.absent
  rw [h.entry.mpr ha] at habsent
  contradiction

theorem Traced.entry_concat (h : Traced commands)
    (hgrows : (after {} commands).store.Grows (after {} (commands ++ [command])).store) :
    (after {} (commands ++ [command])).store.entries[source]? = some a ↔
      Inserted (commands ++ [command]) source (epoch commands) a := by
  rw [inserted_concat]
  constructor
  · intro ha
    cases hbefore : (after {} commands).store.entries[source]? with
    | none => exact .inr ⟨rfl, hbefore, ha⟩
    | some b =>
        have hkept := hgrows.keeps hbefore
        rw [ha] at hkept
        cases hkept
        exact .inl (h.entry.mp hbefore)
  · rintro (hold | ⟨-, hadds⟩)
    · exact hgrows.keeps (h.entry.mpr hold)
    · exact hadds.present

/-- A step: the objects that enter the store are new and different from each other, and nothing
entered it under their texts in this epoch before. -/
theorem Traced.grow (h : Traced commands) (hclears : command.clears = false) :
    Traced (commands ++ [command]) := by
  have hgrows := grows_step (sound_after_empty commands) hclears
  rw [← after_concat] at hgrows
  have hepoch : epoch (commands ++ [command]) = epoch commands := by
    rw [epoch_concat, hclears]
    rfl
  constructor
  · intro source k a ha
    rcases inserted_concat.mp ha with hold | ⟨-, hadds⟩
    · exact Nat.lt_of_lt_of_le (h.lt hold) hgrows.le
    · exact (hgrows.fresh hadds).2
  · intro source a
    rw [hepoch]
    exact h.entry_concat hgrows
  · intro source k a b ha hb
    rcases inserted_concat.mp ha with hold | ⟨hk, hadds⟩
    · rcases inserted_concat.mp hb with hold' | ⟨rfl, hadds'⟩
      · exact h.functional hold hold'
      · exact absurd hadds' (h.not_adds hold _ _)
    · rcases inserted_concat.mp hb with hold' | ⟨-, hadds'⟩
      · subst hk
        exact absurd hadds (h.not_adds hold' _ _)
      · exact hadds.functional hadds'
  · intro source source' k k' a b ha hb hserial
    rcases inserted_concat.mp ha with hold | ⟨hk, hadds⟩
    · rcases inserted_concat.mp hb with hold' | ⟨-, hadds'⟩
      · exact h.distinct hold hold' hserial
      · exact absurd hserial (Nat.ne_of_lt (h.lt_of_adds hgrows hold hadds'))
    · rcases inserted_concat.mp hb with hold' | ⟨hk', hadds'⟩
      · exact absurd hserial.symm (Nat.ne_of_lt (h.lt_of_adds hgrows hold' hadds))
      · exact ⟨hgrows.distinct hadds hadds' hserial, hk.symm.trans hk'⟩
  · exact fun hbook => h.held_concat (fun _ _ ha => ⟨_, (h.entry_concat hgrows).mp ha⟩) hbook

/-- A run: every session knows about its objects. -/
theorem traced (commands : List Command) : Traced commands := by
  induction commands using List.reverseRecOn with
  | nil => exact traced_nil
  | append_singleton commands command ih =>
      cases hclears : command.clears with
      | true => exact ih.clear hclears
      | false => exact ih.grow hclears

/-! ### Objects that are handed out or held -/

/-- The formula was handed out in an answer of the run, or a rulebook held it at some point. -/
inductive Seen (commands : List Command) (shared : Shared) : Prop where
  | replied {answer : Answer} (hanswer : answer ∈ run {} commands)
      (h : shared ∈ answer.reply.formulas)
  | held {before : List Command} {book : Rulebook} {clause : Clause}
      (hbefore : before <+: commands) (hbook : (after {} before).Keeps book)
      (hclause : clause ∈ book.toList) (h : clause.shared = shared)

/-- What is seen was inserted. -/
theorem Seen.exists_inserted (h : Seen commands shared) :
    ∃ source k, Inserted commands source k shared := by
  cases h with
  | replied hanswer hshared =>
      obtain ⟨before, command, rest, rfl, rfl⟩ := exists_step_of_mem_run hanswer
      have hbegin : before ++ [command] <+: before ++ command :: rest := ⟨rest, by simp⟩
      rcases (effect_step _ command).formulas hshared with
        ⟨source, hentry⟩ | ⟨book, hbook, clause, hclause, rfl⟩
      · rw [← after_concat] at hentry
        exact ⟨source, _, ((traced _).entry.mp hentry).mono hbegin⟩
      · obtain ⟨k, hinserted⟩ := (traced before).held hbook hclause
        exact ⟨_, k, hinserted.mono (List.prefix_append ..)⟩
  | held hbefore hbook hclause hshared =>
      obtain ⟨k, hinserted⟩ := (traced _).held hbook hclause
      exact ⟨_, k, hshared ▸ hinserted.mono hbefore⟩

/-- What was inserted under a text is the formula of the text. -/
theorem Inserted.parse_eq (h : Inserted commands source k a) :
    Formula.parse source = .ok a.formula := by
  obtain ⟨before, command, -, -, hadds⟩ := h
  exact sound_after_empty _ source a hadds.present

/-- A command that does not clear the store leaves the epoch as it is. -/
theorem inserted_of_entry (hclears : command.clears = false)
    (hentry : ((after {} before).step command).2.store.entries[source]? = some a) :
    Inserted (before ++ [command]) source (epoch before) a := by
  rw [← after_concat] at hentry
  have hinserted := (traced (before ++ [command])).entry.mp hentry
  rwa [epoch_concat, hclears] at hinserted

theorem inserted_of_fetch
    (h : ((after {} before).step (.fetch source)).1.reply = .shared shared) :
    Inserted (before ++ [.fetch source]) source (epoch before) shared := by
  have heffect := effect_step (after {} before) (.fetch source)
  rw [h] at heffect
  apply inserted_of_entry rfl
  cases heffect with
  | plain hformulas => exact absurd hformulas (List.cons_ne_nil _ _)
  | fetched hentry => exact hentry

/-- A text that stands for a formula gives an object. -/
theorem exists_shared_of_parse {s : Session} (hs : s.store.Sound) {e : Formula}
    (hparse : Formula.parse source = .ok e) :
    ∃ shared, (s.step (.fetch source)).1.reply = .shared shared := by
  have hmap := hs.map_fetch source
  change ∃ shared, (s.perform (.fetch source)).1 = .shared shared
  simp only [perform]
  cases hfetch : s.store.fetch source with
  | mk result store =>
      rw [hfetch, hparse] at hmap
      cases result with
      | ok shared => exact ⟨shared, rfl⟩
      | error cause => cases hmap

theorem inserted_of_compile (hcompiles : command.compiles = true)
    (h : ((after {} before).step command).1.reply = .book book) {clause : Clause}
    (hclause : clause ∈ book.toList) :
    Inserted (before ++ [command]) clause.rule.expression (epoch before) clause.shared := by
  have heffect := effect_step (after {} before) command
  rw [h] at heffect
  have hclears : command.clears = false := by
    cases command with
    | load | compile => rfl
    | _ => contradiction
  exact inserted_of_entry hclears (heffect.current hcompiles clause hclause)

/-- Every formula that is handed out or held in a run was inserted under some text, for which it
stands, in some epoch, and two of them are the same object exactly when the text and the epoch are
the same. Fetching a text that stands for a formula hands out what was inserted in the current epoch
under this text, and the formulas of compiled rules were inserted in it under their texts. Rulebooks
and their copies keep their objects whatever happens to the store. -/
theorem same_object_iff (commands : List Command) :
    (∀ shared, Seen commands shared → ∃ source k, Inserted commands source k shared) ∧
    (∀ source k shared, Inserted commands source k shared →
      Formula.parse source = .ok shared.formula) ∧
    (∀ source source' k k' a b, Inserted commands source k a → Inserted commands source' k' b →
      (a.serial = b.serial ↔ source = source' ∧ k = k') ∧ (a.serial = b.serial → a = b)) ∧
    (∀ before source, before ++ [.fetch source] <+: commands →
      (∀ shared, ((after {} before).step (.fetch source)).1.reply = .shared shared →
        Inserted commands source (epoch before) shared) ∧
      ∀ e, Formula.parse source = .ok e →
        ∃ shared, ((after {} before).step (.fetch source)).1.reply = .shared shared) ∧
    (∀ before command book, before ++ [command] <+: commands → command.compiles = true →
      ((after {} before).step command).1.reply = .book book → ∀ clause ∈ book.toList,
        Inserted commands clause.rule.expression (epoch before) clause.shared) ∧
    (∀ before book, before <+: commands → (after {} before).Keeps book → ∀ clause ∈ book.toList,
      ∃ k ≤ epoch before, Inserted commands clause.rule.expression k clause.shared) ∧
    (∀ before rest name book, commands = before ++ rest →
      (after {} before).books[name]? = some book →
      (∀ command ∈ rest, command.target? ≠ some name) →
        (after {} commands).books[name]? = some book) ∧
    ∀ before rest name target book, commands = before ++ .copy name target :: rest →
      (after {} before).books[name]? = some book →
      (∀ command ∈ rest, command.target? ≠ some target) →
        (after {} commands).books[target]? = some book := by
  have htraced := traced commands
  refine ⟨fun _ h => h.exists_inserted, fun _ _ _ h => h.parse_eq, ?_, ?_, ?_, ?_, ?_, ?_⟩
  · intro source source' k k' a b ha hb
    have hsame (hserial : a.serial = b.serial) : source = source' ∧ k = k' :=
      htraced.distinct ha hb hserial
    have heq : source = source' ∧ k = k' → a = b := by
      rintro ⟨rfl, rfl⟩
      exact htraced.functional ha hb
    exact ⟨⟨hsame, fun h => congrArg Shared.serial (heq h)⟩, fun hserial => heq (hsame hserial)⟩
  · intro before source hbegin
    refine ⟨fun shared hreply => (inserted_of_fetch hreply).mono hbegin, fun e hparse => ?_⟩
    exact exists_shared_of_parse (sound_after_empty before) hparse
  · intro before command book hbegin hcompiles hreply clause hclause
    exact (inserted_of_compile hcompiles hreply hclause).mono hbegin
  · intro before book hbegin hbook clause hclause
    obtain ⟨k, hinserted⟩ := (traced before).held hbook hclause
    exact ⟨k, hinserted.le_epoch, hinserted.mono hbegin⟩
  · rintro before rest name book rfl hbook hrest
    rw [after_append, books_after _ hrest, hbook]
  · rintro before rest name target book rfl hbook hrest
    rw [List.append_cons, after_append, books_after _ hrest, after_concat]
    exact books_step_copy hbook

/-- Two texts of one formula are two objects, and rules with one text share theirs. After the store
was cleared the text is read anew, but the rulebook still has what it had. -/
example : (run {}
    [.fetch "1", .compile "book" [⟨1, "a", "", "1"⟩, ⟨2, "b", "", "(1)"⟩, ⟨3, "c", "", "1"⟩],
      .clear, .fetch "1", .ask "book" .rules]).map
        (fun answer => answer.reply.formulas.map Shared.serial) =
    [[0], [0, 1, 0], [], [2], [0, 1, 0]] := rfl

end Verdict.Session
