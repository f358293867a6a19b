import Verdict.Session

/-!
# The store holds what its texts stand for

Every formula in a store is the one that its text stands for. `Store.Sound` says so; every command
of a session keeps it, also one that fails halfway, so it holds of every store that a session can
reach. Then fetching a text gives what reading it gives, whatever was fetched or cleared before.
-/

namespace Verdict

namespace Store

/-- Every formula in the store is the one that its text stands for. -/
def Sound (s : Store) : Prop :=
  ∀ source shared, s.entries[source]? = some shared → Formula.parse source = .ok shared.formula

variable {s : Store} {source : String} {formula : Formula}

theorem sound_of_entries_eq_empty (h : s.entries = ∅) : s.Sound := by
  intro source shared hentry
  rw [h, Std.TreeMap.getElem?_emptyc] at hentry
  contradiction

theorem Sound.keep (h : s.Sound) (hparse : Formula.parse source = .ok formula) :
    (s.keep source formula).2.Sound := by
  intro other shared hentry
  simp only [Store.keep] at hentry
  rw [Std.TreeMap.getElem?_insert] at hentry
  split at hentry
  · next hsame =>
      obtain rfl : source = other := Std.LawfulEqCmp.eq_of_compare hsame
      cases hentry
      exact hparse
  · exact h other shared hentry

/-- What is fetched is what reading the text gives. -/
theorem Sound.map_fetch (h : s.Sound) (source : String) :
    (s.fetch source).1.map Shared.formula = Formula.parse source := by
  unfold fetch
  split
  · next shared hentry => exact (h source shared hentry).symm
  · split
    · next formula hparse => rw [hparse]; rfl
    · next e hparse => rw [hparse]; rfl

theorem Sound.fetch (h : s.Sound) (source : String) : (s.fetch source).2.Sound := by
  unfold Store.fetch
  split
  · exact h
  · split
    · next formula hparse => exact h.keep hparse
    · exact h

theorem snd_evaluate (s : Store) (source : String) (held : FactSet) :
    (s.evaluate source held).2 = (s.fetch source).2 := by
  unfold evaluate
  split
  · next hok => rw [hok]
  · next herror => rw [herror]

end Store

namespace Rulebook

variable {store : Store}

theorem sound_extend (h : store.Sound) (book : Rulebook) (rules : List Rule) :
    (extend book rules store).2.Sound := by
  induction rules generalizing book store with
  | nil => exact h
  | cons rule rest ih =>
      have hfetch := h.fetch rule.expression
      unfold extend
      split
      · exact h
      · split
        · next hok =>
            rw [hok] at hfetch
            exact ih hfetch _
        · next herror =>
            rw [herror] at hfetch
            exact hfetch

theorem entries_compile (rules : List Rule) (store : Store) :
    (compile rules store).2.entries = (extend {} rules store).2.entries := by
  unfold compile
  split
  · next hok =>
      rw [hok]
      rfl
  · next herror => rw [herror]

theorem sound_compile (h : store.Sound) (rules : List Rule) : (compile rules store).2.Sound := by
  have hextend := sound_extend h {} rules
  unfold Store.Sound at hextend ⊢
  rwa [entries_compile]

theorem sound_ofDocument (h : store.Sound) (document : String) :
    (ofDocument document store).2.Sound := by
  unfold ofDocument
  split
  · exact sound_compile h _
  · exact h

end Rulebook

namespace Session

variable {s : Session}

theorem store_installCompiled (name : String) (compiled : Except RulebookError Rulebook × Store) :
    (s.installCompiled name compiled).2.store = compiled.2 := by
  obtain ⟨result, store⟩ := compiled
  cases result with
  | ok book => rfl
  | error e => rfl

theorem store_perform_fetch (s : Session) (source : String) :
    (s.perform (.fetch source)).2.store = (s.store.fetch source).2 := by
  simp only [perform]
  split
  · next hok => rw [hok]
  · next herror => rw [herror]

theorem store_perform_evaluate (s : Session) (source : String) (held : FactSet) :
    (s.perform (.evaluate source held)).2.store = (s.store.fetch source).2 := by
  rw [← Store.snd_evaluate s.store source held]
  simp only [perform]
  split
  · next hok => rw [hok]
  · next herror => rw [herror]

/-- A step: every command keeps the store sound. -/
theorem sound_perform (h : s.store.Sound) (command : Command) :
    (s.perform command).2.store.Sound := by
  cases command with
  | fetch source =>
      rw [store_perform_fetch]
      exact h.fetch source
  | evaluate source held =>
      rw [store_perform_evaluate]
      exact h.fetch source
  | clear => exact Store.sound_of_entries_eq_empty rfl
  | look => exact h
  | load name document =>
      simp only [perform]
      rw [store_installCompiled]
      exact Rulebook.sound_ofDocument h document
  | compile name rules =>
      simp only [perform]
      rw [store_installCompiled]
      exact Rulebook.sound_compile h rules
  | reset name => exact h
  | copy name target =>
      simp only [perform]
      split
      · exact h
      · exact h
  | drop name => exact h
  | ask name query =>
      simp only [perform]
      split
      · exact h
      · exact h

/-- The session after some commands. -/
def after (s : Session) (commands : List Command) : Session :=
  commands.foldl (fun s command => (s.step command).2) s

/-- A run: the store stays sound. -/
theorem sound_after (h : s.store.Sound) (commands : List Command) :
    (s.after commands).store.Sound := by
  induction commands generalizing s with
  | nil => exact h
  | cons command rest ih => exact ih (sound_perform h command)

end Session

/-- A store that some commands lead to. -/
def Store.Reachable (store : Store) : Prop :=
  ∃ commands, (Session.after {} commands).store = store

theorem Store.Reachable.sound {store : Store} (h : store.Reachable) : store.Sound := by
  obtain ⟨commands, rfl⟩ := h
  exact Session.sound_after (Store.sound_of_entries_eq_empty rfl) commands

end Verdict
