import Verdict.Proofs.Requests

/-!
# What commands do to the objects of a store

Fetching texts leaves what is in the store and adds new objects to it, a different one for each new
text: `Store.Grows`. A rulebook that was just compiled has its formulas from the store, which are
still there under the texts of its rules: `Rulebook.Current`. `Session.Effect` lists what a command
can do to the rulebooks, and says where the formulas in its reply are from.
-/

namespace Verdict

namespace Store

/-- The formula is in the second store under the text, where the first store has nothing. -/
structure Adds (s s' : Store) (source : String) (shared : Shared) : Prop where
  absent : s.entries[source]? = none
  present : s'.entries[source]? = some shared

/-- The second store has the entries of the first. What it adds are new objects, and different ones
for different texts. -/
structure Grows (s s' : Store) : Prop where
  keeps {source : String} {shared : Shared} :
    s.entries[source]? = some shared → s'.entries[source]? = some shared
  le : s.nextSerial ≤ s'.nextSerial
  fresh {source : String} {shared : Shared} : s.Adds s' source shared →
    s.nextSerial ≤ shared.serial ∧ shared.serial < s'.nextSerial
  distinct {source source' : String} {a b : Shared} : s.Adds s' source a → s.Adds s' source' b →
    a.serial = b.serial → source = source'

variable {s s' s'' : Store} {source source' : String} {formula : Formula} {a b shared : Shared}
  {texts : List String}

theorem Adds.functional (ha : s.Adds s' source a) (hb : s.Adds s' source b) : a = b :=
  Option.some.inj (ha.present.symm.trans hb.present)

theorem not_adds_of_entries_eq (h : s'.entries = s.entries) : ¬ s.Adds s' source shared := by
  intro hadds
  have hpresent := hadds.present
  rw [h, hadds.absent] at hpresent
  contradiction

theorem Grows.of_entries_eq (h : s'.entries = s.entries) (hnext : s'.nextSerial = s.nextSerial) :
    s.Grows s' where
  keeps hentry := by rwa [h]
  le := Nat.le_of_eq hnext.symm
  fresh hadds := absurd hadds (not_adds_of_entries_eq h)
  distinct hadds _ _ := absurd hadds (not_adds_of_entries_eq h)

/-- What is added in two stages is added in one of them. -/
theorem Grows.adds_or_adds (h : s'.Grows s'') (hadds : s.Adds s'' source shared) :
    s.Adds s' source shared ∨ s'.Adds s'' source shared := by
  cases hentry : s'.entries[source]? with
  | none => exact .inr ⟨hentry, hadds.present⟩
  | some other =>
      have hkept := h.keeps hentry
      rw [hadds.present] at hkept
      cases hkept
      exact .inl ⟨hadds.absent, hentry⟩

theorem Grows.trans (h : s.Grows s') (h' : s'.Grows s'') : s.Grows s'' where
  keeps hentry := h'.keeps (h.keeps hentry)
  le := Nat.le_trans h.le h'.le
  fresh hadds := by
    have hle := h.le
    have hle' := h'.le
    rcases h'.adds_or_adds hadds with hfirst | hsecond
    · have hfresh := h.fresh hfirst
      omega
    · have hfresh := h'.fresh hsecond
      omega
  distinct ha hb hserial := by
    rcases h'.adds_or_adds ha with ha | ha
    · rcases h'.adds_or_adds hb with hb | hb
      · exact h.distinct ha hb hserial
      · have hfresh := h.fresh ha
        have hfresh' := h'.fresh hb
        omega
    · rcases h'.adds_or_adds hb with hb | hb
      · have hfresh := h'.fresh ha
        have hfresh' := h.fresh hb
        omega
      · exact h'.distinct ha hb hserial

theorem getElem?_keep (s : Store) (source : String) (formula : Formula) (other : String) :
    (s.keep source formula).2.entries[other]? =
      if source = other then some ⟨s.nextSerial, formula⟩ else s.entries[other]? := by
  simp only [keep, Std.TreeMap.getElem?_insert, Std.LawfulEqCmp.compare_eq_iff_eq]

/-- A new entry is a new object. -/
theorem grows_keep (h : s.entries[source]? = none) (formula : Formula) :
    s.Grows (s.keep source formula).2 := by
  have hadds {other shared} (hadds : s.Adds (s.keep source formula).2 other shared) :
      source = other ∧ shared = ⟨s.nextSerial, formula⟩ := by
    have hpresent := hadds.present
    rw [getElem?_keep] at hpresent
    split at hpresent
    · next hsame => exact ⟨hsame, (Option.some.inj hpresent).symm⟩
    · rw [hadds.absent] at hpresent
      contradiction
  constructor
  · intro other shared hentry
    rw [getElem?_keep, if_neg]
    · exact hentry
    · rintro rfl
      rw [h] at hentry
      contradiction
  · exact Nat.le_succ _
  · intro other shared hother
    obtain ⟨-, rfl⟩ := hadds hother
    exact ⟨Nat.le_refl _, Nat.lt_succ_self _⟩
  · intro other other' a b ha hb _
    exact (hadds ha).1.symm.trans (hadds hb).1

theorem Fetches.grows (h : s.Fetches texts s') : s.Grows s' := by
  apply h.preserve _ _ (Grows.of_entries_eq rfl rfl)
  · intro t source formula ht habsent _
    exact ht.trans (grows_keep habsent formula)
  · intro t event ht _
    exact ht.trans (.of_entries_eq rfl rfl)

/-- A formula that is fetched is in the store under its text. -/
theorem getElem?_fetch (h : (s.fetch source).1 = .ok shared) :
    (s.fetch source).2.entries[source]? = some shared := by
  have hfetched := s.fetched source
  generalize s.fetch source = result at hfetched h
  cases hfetched with
  | known hentry =>
      cases h
      exact hentry
  | new _ _ =>
      cases h
      rw [getElem?_keep, if_pos rfl]
      rfl
  | unreadable => cases h

end Store

namespace Rulebook

/-- The formulas of the rulebook are those that the store has under the texts of its rules. -/
def Current (book : Rulebook) (store : Store) : Prop :=
  ∀ clause ∈ book.toList, store.entries[clause.rule.expression]? = some clause.shared

variable {book book' : Rulebook} {store store' : Store}

theorem current_empty (store : Store) : Current {} store :=
  fun _ h => absurd h List.not_mem_nil

theorem Current.grows (h : book.Current store) (hgrows : store.Grows store') :
    book.Current store' :=
  fun clause hclause => hgrows.keeps (h clause hclause)

theorem Current.add (h : book.Current store) {clause : Clause}
    (hclause : store.entries[clause.rule.expression]? = some clause.shared) :
    (book.add clause).Current store := by
  intro other hother
  rw [toList_add, List.mem_append, List.mem_singleton] at hother
  rcases hother with hother | rfl
  · exact h other hother
  · exact hclause

/-- Rules that are compiled take their formulas from the store, where they still are at the end. -/
theorem Current.extend (h : book.Current store) {rules : List Rule}
    (hbook : (extend book rules store).1 = .ok book') :
    book'.Current (Rulebook.extend book rules store).2 := by
  induction rules generalizing book store with
  | nil =>
      cases hbook
      exact h
  | cons rule rest ih =>
      have hgrows := (Store.Fetches.single store rule.expression).grows
      unfold Rulebook.extend at hbook ⊢
      split at hbook
      · cases hbook
      · next hnew =>
          rw [if_neg hnew]
          cases hfetch : store.fetch rule.expression with
          | mk result next =>
              rw [hfetch] at hgrows
              cases result with
              | ok shared =>
                  have hentry := Store.getElem?_fetch (congrArg Prod.fst hfetch)
                  rw [hfetch] at hentry hbook
                  exact ih ((h.grows hgrows).add hentry) hbook
              | error cause =>
                  rw [hfetch] at hbook
                  cases hbook

theorem current_compile {rules : List Rule} (hbook : (compile rules store).1 = .ok book) :
    book.Current (compile rules store).2 := by
  have hextend := (current_empty store).extend (fst_compile rules store ▸ hbook)
  unfold Current at hextend ⊢
  rwa [entries_compile]

theorem current_ofDocument {document : String} (hbook : (ofDocument document store).1 = .ok book) :
    book.Current (ofDocument document store).2 := by
  unfold ofDocument at hbook ⊢
  cases hrules : Rule.ofDocument? document with
  | none =>
      rw [hrules] at hbook
      cases hbook
  | some rules =>
      rw [hrules] at hbook
      exact current_compile hbook

end Rulebook

/-- The formulas that a reply hands out. -/
def Reply.formulas : Reply → List Shared
  | shared s => [s]
  | book b => b.toList.map Clause.shared
  | rule clause => clause.toList.map Clause.shared
  | rules clauses => clauses.map Clause.shared
  | done | unknownBook | unreadable _ | refused _ | evidence _ | dropped _ | allMatches _
  | firstMatch _ | justification _ | ruleEvidence _ => []

/-- The name whose rulebook a command may change. -/
def Command.target? : Command → Option String
  | .load name _ | .compile name _ | .reset name | .copy _ name | .drop name => some name
  | .fetch _ | .evaluate _ _ | .clear | .look | .ask _ _ => none

/-- Whether a command compiles rules. -/
def Command.compiles : Command → Bool
  | .load _ _ | .compile _ _ => true
  | .fetch _ | .evaluate _ _ | .clear | .look | .reset _ | .copy _ _ | .drop _ | .ask _ _ => false

namespace Session

variable {s : Session} {command : Command} {name : String} {book : Rulebook} {shared : Shared}

/-- The session has the rulebook, under some name. -/
def Keeps (s : Session) (book : Rulebook) : Prop := ∃ name : String, s.books[name]? = some book

/-- A step: a command that does not clear the store adds new objects to it. -/
theorem grows_step (hs : s.store.Sound) (hclears : command.clears = false) :
    s.store.Grows (s.step command).2.store := by
  obtain ⟨texts, hfetches, -⟩ := exists_fetches_perform hs hclears
  exact hfetches.grows.trans (.of_entries_eq rfl rfl)

theorem entries_step_of_clears (s : Session) (hclears : command.clears = true) :
    (s.step command).2.store.entries = ∅ ∧
      (s.step command).2.store.nextSerial = s.store.nextSerial := by
  cases command with
  | clear => exact ⟨rfl, rfl⟩
  | _ => contradiction

/-- What a command does to the rulebooks of a session, and where the formulas in its reply are
from. -/
inductive Effect (s s' : Session) : Command → Reply → Prop where
  | plain {command : Command} {reply : Reply} (hformulas : reply.formulas = [])
      (hbooks : s'.books = s.books) : Effect s s' command reply
  | fetched {source : String} {shared : Shared} (h : s'.store.entries[source]? = some shared)
      (hbooks : s'.books = s.books) : Effect s s' (.fetch source) (.shared shared)
  | compiled {command : Command} {name : String} {book : Rulebook}
      (htarget : command.target? = some name) (h : book.Current s'.store)
      (hbooks : s'.books = s.books.insert name book) : Effect s s' command (.book book)
  | copied {name target : String} {book : Rulebook} (h : s.books[name]? = some book)
      (hbooks : s'.books = s.books.insert target book) :
      Effect s s' (.copy name target) (.book book)
  | dropped {name : String} {existed : Bool} (hbooks : s'.books = s.books.erase name) :
      Effect s s' (.drop name) (.dropped existed)
  | asked {name : String} {query : Query} {book : Rulebook} {reply : Reply}
      (h : s.books[name]? = some book) (hreply : reply = book.reply query)
      (hbooks : s'.books = s.books) : Effect s s' (.ask name query) reply

theorem effect_of_installCompiled (htarget : command.target? = some name)
    {compiled : Except RulebookError Rulebook × Store}
    (hcurrent : ∀ book, compiled.1 = .ok book → book.Current compiled.2) {s' : Session}
    (hbooks : s'.books = (s.installCompiled name compiled).2.books)
    (hentries : s'.store.entries = compiled.2.entries) :
    Effect s s' command (s.installCompiled name compiled).1 := by
  obtain ⟨result, store⟩ := compiled
  cases result with
  | error e => exact .plain rfl hbooks
  | ok book =>
      refine .compiled htarget ?_ hbooks
      intro clause hclause
      rw [hentries]
      exact hcurrent book rfl clause hclause

/-- A step: what each command does. -/
theorem effect_step (s : Session) (command : Command) :
    Effect s (s.step command).2 command (s.step command).1.reply := by
  change Effect s (s.step command).2 command (s.perform command).1
  have hbooks : (s.step command).2.books = (s.perform command).2.books := rfl
  have hentries : (s.step command).2.store.entries = (s.perform command).2.store.entries := rfl
  generalize (s.step command).2 = s' at hbooks hentries ⊢
  cases command with
  | fetch source =>
      rw [store_perform_fetch] at hentries
      simp only [perform] at hbooks ⊢
      cases hfetch : s.store.fetch source with
      | mk result store =>
          rw [hfetch] at hbooks
          cases result with
          | ok shared =>
              have hentry := Store.getElem?_fetch (congrArg Prod.fst hfetch)
              exact .fetched (by rw [hentries, hentry]) hbooks
          | error cause => exact .plain rfl hbooks
  | evaluate source held =>
      simp only [perform] at hbooks ⊢
      split at hbooks <;> exact .plain rfl hbooks
  | clear | look => exact .plain rfl hbooks
  | load target document =>
      apply effect_of_installCompiled rfl (fun _ => Rulebook.current_ofDocument) hbooks
      rw [hentries]
      exact congrArg Store.entries (store_installCompiled ..)
  | compile target rules =>
      apply effect_of_installCompiled rfl (fun _ => Rulebook.current_compile) hbooks
      rw [hentries]
      exact congrArg Store.entries (store_installCompiled ..)
  | reset target => exact .compiled rfl (Rulebook.current_empty _) hbooks
  | copy origin target =>
      simp only [perform] at hbooks ⊢
      cases hbook : s.books[origin]? with
      | none =>
          rw [hbook] at hbooks
          exact .plain rfl hbooks
      | some book =>
          rw [hbook] at hbooks
          exact .copied hbook hbooks
  | drop target => exact .dropped hbooks
  | ask target query =>
      simp only [perform] at hbooks ⊢
      cases hbook : s.books[target]? with
      | none =>
          rw [hbook] at hbooks
          exact .plain rfl hbooks
      | some book =>
          rw [hbook] at hbooks
          exact .asked hbook rfl hbooks

/-- A rule that is found in a rulebook is one of its rules. -/
theorem mem_toList_of_get? {id : UInt32} {clause : Clause} (h : book.get? id = some clause) :
    clause ∈ book.toList := by
  unfold Rulebook.get? at h
  split at h
  · exact Array.mem_toList_iff.mpr (Array.mem_of_getElem? h)
  · contradiction

theorem exists_clause_of_reply {query : Query} (h : shared ∈ (book.reply query).formulas) :
    ∃ clause ∈ book.toList, clause.shared = shared := by
  cases query with
  | rule id =>
      obtain ⟨clause, hclause, rfl⟩ := List.mem_map.mp h
      exact ⟨clause, mem_toList_of_get? (Option.mem_toList.mp hclause), rfl⟩
  | rules => exact List.mem_map.mp h
  | _ => exact absurd h List.not_mem_nil

variable {s' : Session} {reply : Reply}

theorem getElem?_insert (books : Std.TreeMap String Rulebook) (target : String) (book : Rulebook)
    (name : String) :
    (books.insert target book)[name]? = if target = name then some book else books[name]? := by
  simp only [Std.TreeMap.getElem?_insert, Std.LawfulEqCmp.compare_eq_iff_eq]

theorem getElem?_erase (books : Std.TreeMap String Rulebook) (target name : String) :
    (books.erase target)[name]? = if target = name then none else books[name]? := by
  simp only [Std.TreeMap.getElem?_erase, Std.LawfulEqCmp.compare_eq_iff_eq]

/-- A rulebook was there before, maybe under another name, or has its formulas from the store. -/
theorem Effect.keeps_or_current (h : Effect s s' command reply) (hbook : s'.Keeps book) :
    s.Keeps book ∨ book.Current s'.store := by
  obtain ⟨name, hname⟩ := hbook
  cases h with
  | plain _ hbooks | fetched _ hbooks | asked _ _ hbooks => exact .inl ⟨name, hbooks ▸ hname⟩
  | compiled _ hcurrent hbooks =>
      rw [hbooks, getElem?_insert] at hname
      split at hname
      · cases hname
        exact .inr hcurrent
      · exact .inl ⟨name, hname⟩
  | copied hold hbooks =>
      rw [hbooks, getElem?_insert] at hname
      split at hname
      · cases hname
        exact .inl ⟨_, hold⟩
      · exact .inl ⟨name, hname⟩
  | dropped hbooks =>
      rw [hbooks, getElem?_erase] at hname
      split at hname
      · contradiction
      · exact .inl ⟨name, hname⟩

/-- What a reply hands out is in the store, or a rulebook held it before. -/
theorem Effect.formulas (h : Effect s s' command reply) (hshared : shared ∈ reply.formulas) :
    (∃ source : String, s'.store.entries[source]? = some shared) ∨
      ∃ book, s.Keeps book ∧ ∃ clause ∈ book.toList, clause.shared = shared := by
  cases h with
  | plain hformulas =>
      rw [hformulas] at hshared
      exact absurd hshared List.not_mem_nil
  | fetched hentry =>
      obtain rfl := List.mem_singleton.mp hshared
      exact .inl ⟨_, hentry⟩
  | compiled _ hcurrent =>
      obtain ⟨clause, hclause, rfl⟩ := List.mem_map.mp hshared
      exact .inl ⟨_, hcurrent clause hclause⟩
  | copied hold => exact .inr ⟨_, ⟨_, hold⟩, List.mem_map.mp hshared⟩
  | dropped => exact absurd hshared List.not_mem_nil
  | asked hold hreply => exact .inr ⟨_, ⟨_, hold⟩, exists_clause_of_reply (hreply ▸ hshared)⟩

/-- Rulebooks that the command does not name stay as they are, with their objects. -/
theorem Effect.books_eq (h : Effect s s' command reply) (hname : command.target? ≠ some name) :
    s'.books[name]? = s.books[name]? := by
  cases h with
  | plain _ hbooks | fetched _ hbooks | asked _ _ hbooks => rw [hbooks]
  | compiled htarget _ hbooks =>
      rw [hbooks, getElem?_insert, if_neg]
      rintro rfl
      exact hname htarget
  | copied _ hbooks =>
      rw [hbooks, getElem?_insert, if_neg]
      rintro rfl
      exact hname rfl
  | dropped hbooks =>
      rw [hbooks, getElem?_erase, if_neg]
      rintro rfl
      exact hname rfl

/-- A rulebook that was just compiled has its formulas from the store. -/
theorem Effect.current (h : Effect s s' command (.book book))
    (hcompiles : command.compiles = true) : book.Current s'.store := by
  cases h with
  | plain hformulas =>
      intro clause hclause
      rw [List.map_eq_nil_iff.mp hformulas] at hclause
      exact absurd hclause List.not_mem_nil
  | compiled _ hcurrent => exact hcurrent
  | copied | asked => contradiction

/-- A run: a rulebook stays as it is until a command names it. -/
theorem books_after {rest : List Command} (s : Session)
    (h : ∀ command ∈ rest, command.target? ≠ some name) :
    (s.after rest).books[name]? = s.books[name]? := by
  induction rest generalizing s with
  | nil => rfl
  | cons command rest ih =>
      obtain ⟨hcommand, hrest⟩ := List.forall_mem_cons.mp h
      exact (ih _ hrest).trans ((effect_step s command).books_eq hcommand)

theorem books_step_copy {target : String} (h : s.books[name]? = some book) :
    (s.step (.copy name target)).2.books[target]? = some book := by
  change (s.perform (.copy name target)).2.books[target]? = _
  simp [perform, h, install]

end Session

end Verdict
