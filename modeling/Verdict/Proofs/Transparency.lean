import Verdict.Proofs.SoundStore

/-!
# The store does not show

A session that reads every text anew gives the same replies as one that keeps formulas in its
store, up to which of them are the same object: the same formulas, evidence, matches, rulebooks and
errors, whatever commands came before.

Sessions are told apart here only by their `Supply`, the way in which they come by the formula of a
text. `Session.performWith` is a session's command with the supply as a parameter, and with
`Store.fetch` for the supply it is `Session.perform`. The simulation relates a session that fetches
to one that reads: the store of the first is sound, and their rulebooks are the same up to serial
numbers.
-/

namespace Verdict

/-- A way to come by the formula of a text, which may change the store. -/
abbrev Supply := Store → String → Except ParseError Shared × Store

/-- Read the text, and leave the store alone. -/
def Store.read : Supply := fun s source => ((Formula.parse source).map (Shared.mk 0), s)

namespace Rulebook

variable (supply : Supply)

/-- `Rulebook.extend` with formulas from a supply. -/
def extendWith (book : Rulebook) : List Rule → Store → Except RulebookError Rulebook × Store
  | [], store => (.ok book, store)
  | rule :: rest, store =>
      if book.index.contains rule.id then (.error (.duplicate rule.id), store)
      else
        match supply store rule.expression with
        | (.ok shared, store) => extendWith (book.add ⟨rule, shared⟩) rest store
        | (.error cause, store) =>
            (.error (.invalid rule.name cause),
              store.note (.rejected rule.id rule.name cause))

/-- `Rulebook.compile` with formulas from a supply. -/
def compileWith (rules : List Rule) (store : Store) : Except RulebookError Rulebook × Store :=
  match extendWith supply {} rules store with
  | (.ok book, store) => (.ok book, store.note (.compiled book.size))
  | (.error e, store) => (.error e, store)

/-- `Rulebook.ofDocument` with formulas from a supply. -/
def ofDocumentWith (document : String) (store : Store) : Except RulebookError Rulebook × Store :=
  match Rule.ofDocument? document with
  | some rules => compileWith supply rules store
  | none => (.error .malformed, store)

theorem extendWith_fetch (book : Rulebook) (rules : List Rule) (store : Store) :
    extendWith Store.fetch book rules store = extend book rules store := by
  induction rules generalizing book store with
  | nil => rfl
  | cons rule rest ih =>
      unfold extendWith extend
      rcases store.fetch rule.expression with ⟨cause | shared, next⟩
      · rfl
      · exact ite_congr rfl (fun _ => rfl) fun _ => ih _ _

theorem compileWith_fetch (rules : List Rule) (store : Store) :
    compileWith Store.fetch rules store = compile rules store := by
  rcases hextend : extend {} rules store with ⟨e | book, next⟩
  · simp only [compileWith, compile, extendWith_fetch, hextend]
  · simp only [compileWith, compile, extendWith_fetch, hextend]

theorem ofDocumentWith_fetch (document : String) (store : Store) :
    ofDocumentWith Store.fetch document store = ofDocument document store := by
  unfold ofDocumentWith ofDocument
  cases Rule.ofDocument? document with
  | none => rfl
  | some rules => exact compileWith_fetch rules store

end Rulebook

namespace Session

/-- `Session.perform` with formulas from a supply. -/
def performWith (supply : Supply) (s : Session) : Command → Reply × Session
  | .fetch source =>
      match supply s.store source with
      | (.ok shared, store) => (.shared shared, { s with store })
      | (.error e, store) => (.unreadable e, { s with store })
  | .evaluate source held =>
      match supply s.store source with
      | (.ok shared, store) => (.evidence (shared.formula.findEvidence held), { s with store })
      | (.error e, store) => (.unreadable e, { s with store })
  | .load name document =>
      s.installCompiled name (Rulebook.ofDocumentWith supply document s.store)
  | .compile name rules => s.installCompiled name (Rulebook.compileWith supply rules s.store)
  | command => s.perform command

theorem performWith_fetch (s : Session) (command : Command) :
    s.performWith Store.fetch command = s.perform command := by
  cases command with
  | evaluate source held =>
      simp only [performWith, perform, Store.evaluate]
      cases s.store.fetch source with
      | mk result store => cases result <;> rfl
  | load name document => simp only [performWith, perform, Rulebook.ofDocumentWith_fetch]
  | compile name rules => simp only [performWith, perform, Rulebook.compileWith_fetch]
  | _ => rfl

/-- The replies to commands one after the other, with formulas from a supply. -/
def repliesWith (supply : Supply) (s : Session) : List Command → List Reply
  | [] => []
  | command :: rest =>
      let (reply, s) := s.performWith supply command
      reply :: repliesWith supply s rest

end Session

/-- A formula without its serial number. -/
def Shared.plain (s : Shared) : Shared := ⟨0, s.formula⟩

/-- A clause without the serial number of its formula. -/
def Clause.plain (clause : Clause) : Clause := ⟨clause.rule, clause.shared.plain⟩

theorem Clause.plain_comp : Clause.plain ∘ Clause.plain = Clause.plain := rfl

namespace Rulebook

/-- A rulebook without the serial numbers of its formulas. -/
def plain (book : Rulebook) : Rulebook := ⟨book.clauses.map Clause.plain, book.index⟩

theorem plain_add (book : Rulebook) (clause : Clause) :
    (book.add clause).plain = book.plain.add clause.plain := by
  simp [plain, add, Clause.plain]

theorem toList_plain (book : Rulebook) : book.plain.toList = book.toList.map Clause.plain := by
  simp [plain, toList]

theorem get?_plain (book : Rulebook) (id : UInt32) :
    book.plain.get? id = (book.get? id).map Clause.plain := by
  unfold get?
  simp only [plain]
  split
  · simp
  · rfl

end Rulebook

/-- A reply without serial numbers. -/
def Reply.plain : Reply → Reply
  | shared s => shared s.plain
  | book b => book b.plain
  | rule clause => rule (clause.map Clause.plain)
  | rules clauses => rules (clauses.map Clause.plain)
  | reply => reply

/-- What a rulebook replies does not depend on serial numbers, apart from its formulas. -/
theorem Rulebook.plain_reply (book : Rulebook) (query : Query) :
    (book.reply query).plain = (book.plain.reply query).plain := by
  cases query with
  | allMatches held =>
      simp only [reply, Reply.plain, allMatches, toList_plain, List.filterMap_map]
      rfl
  | firstMatch held =>
      simp only [reply, Reply.plain, firstMatch?, toList_plain, List.findSome?_map]
      rfl
  | justification held =>
      simp only [reply, Reply.plain, justification, toList_plain, List.foldl_map]
      rfl
  | rule id => simp only [reply, Reply.plain, get?_plain, Option.map_map, Clause.plain_comp]
  | evidence id held =>
      simp only [reply, Reply.plain, get?_plain, Option.map_map]
      rfl
  | rules => simp only [reply, Reply.plain, toList_plain, List.map_map, Clause.plain_comp]

/-- Where a sound store is fetched from, reading gives the same. -/
theorem Store.Sound.read_of_fetch {s s' : Store} {source : String}
    {result : Except ParseError Shared} (h : s.Sound) (hfetch : s.fetch source = (result, s'))
    (d : Store) : d.read source = (result.map Shared.plain, d) := by
  have hparse := h.map_fetch source
  rw [hfetch] at hparse
  rw [read, ← hparse]
  cases result with
  | ok shared => rfl
  | error e => rfl

namespace Rulebook

variable {store : Store} {book book' : Rulebook}

theorem plain_extendWith (h : store.Sound) (hbook : book.plain = book'.plain) (rules : List Rule)
    (other : Store) :
    (extendWith Store.fetch book rules store).1.map plain =
      (extendWith Store.read book' rules other).1.map plain := by
  induction rules generalizing book book' store other with
  | nil => exact congrArg Except.ok hbook
  | cons rule rest ih =>
      have hindex : book.index = book'.index := by simpa only [plain] using congrArg index hbook
      have hsound := h.fetch rule.expression
      unfold extendWith
      rw [hindex]
      split
      · rfl
      · cases hfetch : store.fetch rule.expression with
        | mk result next =>
            rw [hfetch] at hsound
            rw [h.read_of_fetch hfetch]
            cases result with
            | error cause => rfl
            | ok shared =>
                apply ih hsound
                rw [plain_add, plain_add, hbook]
                rfl

theorem fst_compileWith (supply : Supply) (rules : List Rule) (store : Store) :
    (compileWith supply rules store).1 = (extendWith supply {} rules store).1 := by
  unfold compileWith
  split
  · next hok => rw [hok]
  · next herror => rw [herror]

theorem plain_compileWith (h : store.Sound) (rules : List Rule) (other : Store) :
    (compileWith Store.fetch rules store).1.map plain =
      (compileWith Store.read rules other).1.map plain := by
  rw [fst_compileWith, fst_compileWith]
  exact plain_extendWith h rfl rules other

theorem plain_ofDocumentWith (h : store.Sound) (document : String) (other : Store) :
    (ofDocumentWith Store.fetch document store).1.map plain =
      (ofDocumentWith Store.read document other).1.map plain := by
  unfold ofDocumentWith
  split
  · exact plain_compileWith h _ other
  · rfl

end Rulebook

namespace Session

/-- The store of the one session is sound, and the rulebooks of both are the same up to serial
numbers. -/
structure Agrees (s d : Session) : Prop where
  sound : s.store.Sound
  books : ∀ name : String, s.books[name]?.map Rulebook.plain = d.books[name]?.map Rulebook.plain

variable {s d : Session}

theorem Agrees.lookup (h : Agrees s d) (name : String) :
    (s.books[name]? = none ∧ d.books[name]? = none) ∨
      ∃ book book', s.books[name]? = some book ∧ d.books[name]? = some book' ∧
        book.plain = book'.plain := by
  have hbook := h.books name
  cases hs : s.books[name]? with
  | none =>
      rw [hs] at hbook
      exact .inl ⟨rfl, Option.map_eq_none_iff.mp hbook.symm⟩
  | some book =>
      rw [hs] at hbook
      obtain ⟨book', hd, hplain⟩ := Option.map_eq_some_iff.mp hbook.symm
      exact .inr ⟨book, book', rfl, hd, hplain.symm⟩

theorem Agrees.insert (h : Agrees s d) {store store' : Store} {book book' : Rulebook}
    (hsound : store.Sound) (hbook : book.plain = book'.plain) (name : String) :
    Agrees ⟨store, s.books.insert name book⟩ ⟨store', d.books.insert name book'⟩ where
  sound := hsound
  books other := by
    rw [Std.TreeMap.getElem?_insert, Std.TreeMap.getElem?_insert]
    split
    · exact congrArg some hbook
    · exact h.books other

theorem Agrees.installCompiled (h : Agrees s d) {store store' : Store}
    {result result' : Except RulebookError Rulebook} (hsound : store.Sound)
    (hresult : result.map Rulebook.plain = result'.map Rulebook.plain) (name : String) :
    (s.installCompiled name (result, store)).1.plain =
        (d.installCompiled name (result', store')).1.plain ∧
      Agrees (s.installCompiled name (result, store)).2
        (d.installCompiled name (result', store')).2 := by
  cases result with
  | ok book =>
      cases result' with
      | ok book' =>
          have hbook : book.plain = book'.plain := Except.ok.inj hresult
          exact ⟨congrArg Reply.book hbook, h.insert hsound hbook name⟩
      | error e' => cases hresult
  | error e =>
      cases result' with
      | ok book' => cases hresult
      | error e' =>
          cases hresult
          exact ⟨rfl, hsound, h.books⟩

/-- A step: sessions that agree give the same reply and still agree. -/
theorem Agrees.performWith (h : Agrees s d) (command : Command) :
    (s.performWith Store.fetch command).1.plain = (d.performWith Store.read command).1.plain ∧
      Agrees (s.performWith Store.fetch command).2 (d.performWith Store.read command).2 := by
  cases command with
  | fetch source | evaluate source held =>
      have hsound := h.sound.fetch source
      cases hfetch : s.store.fetch source with
      | mk result next =>
          rw [hfetch] at hsound
          simp only [Session.performWith, hfetch, h.sound.read_of_fetch hfetch d.store]
          cases result with
          | ok shared => exact ⟨rfl, hsound, h.books⟩
          | error e => exact ⟨rfl, hsound, h.books⟩
  | clear => exact ⟨rfl, Store.sound_of_entries_eq_empty rfl, h.books⟩
  | look => exact ⟨rfl, h⟩
  | load name document =>
      have hsound := Rulebook.sound_ofDocument h.sound document
      rw [← Rulebook.ofDocumentWith_fetch] at hsound
      exact h.installCompiled hsound (Rulebook.plain_ofDocumentWith h.sound document _) name
  | compile name rules =>
      have hsound := Rulebook.sound_compile h.sound rules
      rw [← Rulebook.compileWith_fetch] at hsound
      exact h.installCompiled hsound (Rulebook.plain_compileWith h.sound rules _) name
  | reset name => exact ⟨rfl, h.insert h.sound rfl name⟩
  | copy name target =>
      simp only [Session.performWith, perform]
      rcases h.lookup name with ⟨hs, hd⟩ | ⟨book, book', hs, hd, hbook⟩
      · rw [hs, hd]
        exact ⟨rfl, h⟩
      · rw [hs, hd]
        exact ⟨congrArg Reply.book hbook, h.insert h.sound hbook target⟩
  | drop name =>
      refine ⟨?_, h.sound, fun other => ?_⟩
      · have hcontains : s.books.contains name = d.books.contains name := by
          rw [Std.TreeMap.contains_eq_isSome_getElem?, Std.TreeMap.contains_eq_isSome_getElem?,
            ← Option.isSome_map (f := Rulebook.plain), h.books name, Option.isSome_map]
        exact congrArg Reply.dropped hcontains
      · simp only [Session.performWith, perform, Std.TreeMap.getElem?_erase]
        split
        · rfl
        · exact h.books other
  | ask name query =>
      simp only [Session.performWith, perform]
      rcases h.lookup name with ⟨hs, hd⟩ | ⟨book, book', hs, hd, hbook⟩
      · rw [hs, hd]
        exact ⟨rfl, h⟩
      · rw [hs, hd]
        refine ⟨?_, h⟩
        rw [Rulebook.plain_reply, hbook, ← Rulebook.plain_reply]

/-- A run: sessions that agree give the same replies. -/
theorem Agrees.replies (h : Agrees s d) (commands : List Command) :
    (s.run commands).map (fun answer => answer.reply.plain) =
      (d.repliesWith Store.read commands).map Reply.plain := by
  induction commands generalizing s d with
  | nil => rfl
  | cons command rest ih =>
      obtain ⟨hreply, hnext⟩ := h.performWith command
      rw [performWith_fetch] at hreply hnext
      -- The events are reported after a command, which changes neither the formulas nor the books.
      have hreported : Agrees (s.step command).2 (d.performWith Store.read command).2 :=
        ⟨hnext.sound, hnext.books⟩
      exact List.cons_eq_cons.mpr ⟨hreply, ih hreported⟩

/-- The store does not show in the replies of a session: they are those of a session that reads
each text when its formula is asked for, up to serial numbers. And at every point of the session
what is in the store is what reading the text gives. -/
theorem run_transparent (commands : List Command) :
    (run {} commands).map (fun answer => answer.reply.plain) =
        (repliesWith Store.read {} commands).map Reply.plain ∧
      (after {} commands).store.Sound := by
  have hsound : Store.Sound {} := Store.sound_of_entries_eq_empty rfl
  have hagree : Agrees {} {} := ⟨hsound, fun _ => rfl⟩
  exact ⟨hagree.replies commands, sound_after hsound commands⟩

end Session

end Verdict
