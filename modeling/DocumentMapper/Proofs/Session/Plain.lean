import DocumentMapper.Proofs.Codec.Encoding
import DocumentMapper.Proofs.Session.Runs
import DocumentMapper.Proofs.Store.Shelf

/-
  Sessions in which nothing misbehaves.

  Without a script the store of a session keeps what it is
  given. Whatever a session is asked, the attempt, the
  collections and the callbacks stay as they are, and nobody
  asks to stop meanwhile.

  Key definitions include:
    * `ScriptedStore.IsPlain`
    * `Session.Surrounds`
    * `Session.Answers`

  Main statements include:
    * `Session.answer_spec`
    * `Session.run_spec`
    * `Session.work_spec`
-/

namespace DocumentMapper

/- The store has no script for requests, nor for the caller. -/
structure ScriptedStore.IsPlain
    (s : ScriptedStore) : Prop where
  throws : s.throws? = none
  fails : s.fails? = none
  prepared : s.prepared? = none
  patient : s.stopsCaller = false

/- A store without a script carries requests out. -/
theorem ScriptedStore.IsPlain.submit_eq
    {s : ScriptedStore}
    (h : s.IsPlain)
    (attempt? : Option Attempt)
    (r : Request) :
    s.submit attempt? r =
      match s.memory.perform attempt? r with
      | .ok (record, memory) => (.ok record, { s with memory })
      | .error e => (.failed e, s) := by
  rcases s with
    ⟨memory, resolver, stops, throws?, fails?, prepared?⟩
  rcases h with ⟨rfl, rfl, rfl, -⟩
  rfl

/- Requests do not touch the collections. -/
theorem MemoryStore.collections_of_perform
    {s store : MemoryStore}
    {attempt? : Option Attempt}
    {r : Request}
    {record : StoreRecord}
    (h : s.perform attempt? r = .ok (record, store)) :
    store.collections = s.collections := by
  rcases perform_ok_cases h with
    ⟨-, rfl⟩ | ⟨-, hPut⟩ | ⟨-, hDrop⟩
  · rfl
  · rcases Prod.mk.inj hPut with ⟨-, rfl⟩
    rfl
  · rcases Prod.mk.inj hDrop with ⟨-, rfl⟩
    rfl

namespace Session

variable {T : Type}
variable [EntityTypes T]
variable {α : Type}
variable {s s' s'' : Session T}

/-
  The session is in the surroundings of another one: both have
  plain stores, resolve names alike, and have the same attempt,
  the same callbacks before conversion, and a caller who wants
  to stop in both or in neither.
-/
structure Surrounds
    (s s' : Session T) : Prop where
  plain : s'.store.IsPlain
  resolve : s'.store.resolve = s.store.resolve
  attempt : s'.attempt? = s.attempt?
  before : s'.before = s.before
  stop : s'.stopRequested = s.stopRequested

theorem Surrounds.trans
    (h : s.Surrounds s')
    (h' : s'.Surrounds s'') :
    s.Surrounds s'' where
  plain := h'.plain
  resolve := h'.resolve.trans h.resolve
  attempt := h'.attempt.trans h.attempt
  before := h'.before.trans h.before
  stop := h'.stop.trans h.stop

/- The answer is the one that the surroundings have. -/
structure Answers
    (s : Session T)
    (x : Exchange
      (Call.Answer (T := T) (K := scriptedHooks T))) : Prop where
  resolve :
    ∀ name reply,
      resolution? x = some (name, reply) →
        reply = s.store.resolve name
  attempt :
    ∀ attempt?,
      providedAttempt? x = some attempt? → attempt? = s.attempt?
  before :
    ∀ t hooks,
      x = ⟨.beforeHooks t, hooks⟩ → hooks = s.beforeHooks t
  stop :
    ∀ stop, stopAnswer? x = some stop → stop = s.stopRequested

/- What holds in the surroundings, holds in the session. -/
theorem Answers.of_surrounds
    {x : Exchange
      (Call.Answer (T := T) (K := scriptedHooks T))}
    (hSurrounds : s.Surrounds s')
    (h : s'.Answers x) :
    s.Answers x where
  resolve name reply hSome := by
    rw [h.resolve name reply hSome, hSurrounds.resolve]
  attempt attempt? hSome := by
    rw [h.attempt attempt? hSome, hSurrounds.attempt]
  before t hooks hSame := by
    rw [h.before t hooks hSame, beforeHooks, hSurrounds.before,
      beforeHooks]
  stop stop hSome := by
    rw [h.stop stop hSome, hSurrounds.stop]

/- What a session keeps. -/
def shelf
    (s : Session T) : Shelf :=
  s.store.memory.shelf

/- Listeners touch the bus only. -/
theorem follow_store
    (s : Session T)
    (script : ListenerScript) :
    (s.follow script).store = s.store ∧
      (s.follow script).attempt? = s.attempt? ∧
      (s.follow script).before = s.before ∧
      (s.follow script).stopRequested = s.stopRequested := by
  unfold follow
  dsimp only
  split <;> split <;> exact ⟨rfl, rfl, rfl, rfl⟩

/- A request is carried out, and touches the documents only. -/
theorem submit_spec
    (hPlain : s.store.IsPlain)
    (attempt? : Option Attempt)
    (r : Request) :
    s.Surrounds (s.submit attempt? r).2 ∧
      s.shelf.Serves attempt? r (s.submit attempt? r).1
        (s.submit attempt? r).2.shelf := by
  have hStore :
      (s.submit attempt? r).2.store =
        (s.store.submit attempt? r).2 :=
    rfl
  have hReply :
      (s.submit attempt? r).1 = (s.store.submit attempt? r).1 :=
    rfl
  have hStop :
      (s.submit attempt? r).2.stopRequested = s.stopRequested := by
    show (s.stopRequested || s.store.stopsCaller) = _
    rw [hPlain.patient, Bool.or_false]
  unfold shelf
  rw [hReply, hStore, hPlain.submit_eq]
  cases hPerform : s.store.memory.perform attempt? r with
  | error e =>
      refine ⟨⟨?_, ?_, rfl, rfl, hStop⟩, ?_⟩
      · rw [hStore, hPlain.submit_eq, hPerform]
        exact hPlain
      · rw [hStore, hPlain.submit_eq, hPerform]
      · exact MemoryStore.shelf_serves_failed hPerform
  | ok pair =>
      rcases pair with ⟨record, store⟩
      refine ⟨⟨?_, ?_, rfl, rfl, hStop⟩, ?_⟩
      · rw [hStore, hPlain.submit_eq, hPerform]
        exact
          ⟨hPlain.throws, hPlain.fails, hPlain.prepared,
            hPlain.patient⟩
      · rw [hStore, hPlain.submit_eq, hPerform]
        have hCollections :=
          MemoryStore.collections_of_perform hPerform
        funext name
        simp only [ScriptedStore.resolve, MemoryStore.resolve,
          hCollections]
      · exact MemoryStore.shelf_serves_ok hPerform

/-
  One question: the surroundings stay, and have the answer; a
  request is carried out, and nothing else touches what is
  kept.
-/
theorem answer_spec
    (hPlain : s.store.IsPlain)
    (c : Call T (scriptedHooks T)) :
    s.Surrounds (answer c s).2 ∧
      s.Answers ⟨c, (answer c s).1⟩ ∧
      ∀ rest after,
        (answer c s).2.shelf.Runs rest after →
          s.shelf.Runs (⟨c, (answer c s).1⟩ :: rest) after := by
  have hSame : s.Surrounds s := ⟨hPlain, rfl, rfl, rfl, rfl⟩
  have hRecord : ∀ entry, s.Surrounds (s.record entry) :=
    fun _ => ⟨hPlain, rfl, rfl, rfl, rfl⟩
  cases c with
  | submit attempt? r =>
      rcases submit_spec hPlain attempt? r with
        ⟨hSurrounds, hServes⟩
      exact
        ⟨hSurrounds, ⟨nofun, nofun, nofun, nofun⟩,
          fun rest after hRest => .served hServes hRest⟩
  | notify listener event =>
      rcases (s.record (.notified listener.id event)).follow_store
          listener.script with
        ⟨hStore, hAttempt, hBefore, hStop⟩
      refine
        ⟨⟨?_, ?_, hAttempt, hBefore, hStop⟩,
          ⟨nofun, nofun, nofun, nofun⟩,
          fun rest after hRest => .asked rfl ?_⟩
      · show (follow _ _).store.IsPlain
        rw [hStore]
        exact hPlain
      · show (follow _ _).store.resolve = _
        rw [hStore]
        rfl
      · have hShelf :
            (answer (.notify listener event) s).2.shelf =
              s.shelf := by
          show (follow _ _).store.memory.shelf = _
          rw [hStore]
          rfl
        rw [← hShelf]
        exact hRest
  | currentAttempt =>
      refine
        ⟨hSame, ⟨nofun, ?_, nofun, nofun⟩,
          fun _ _ => .asked rfl⟩
      rintro attempt? ⟨⟩
      rfl
  | resolve name =>
      refine
        ⟨hRecord _, ⟨?_, nofun, nofun, nofun⟩,
          fun _ _ => .asked rfl⟩
      rintro name reply ⟨⟩
      rfl
  | beforeHooks t =>
      refine
        ⟨hSame, ⟨nofun, nofun, ?_, nofun⟩,
          fun _ _ => .asked rfl⟩
      rintro t hooks ⟨⟩
      rfl
  | stopRequested =>
      refine
        ⟨hSame, ⟨nofun, nofun, nofun, ?_⟩,
          fun _ _ => .asked rfl⟩
      rintro stop ⟨⟩
      rfl
  | listeners stage =>
      exact
        ⟨hSame, ⟨nofun, nofun, nofun, nofun⟩,
          fun _ _ => .asked rfl⟩
  | runBefore t script e collection =>
      exact
        ⟨hRecord _, ⟨nofun, nofun, nofun, nofun⟩,
          fun _ _ => .asked rfl⟩
  | afterHooks t =>
      exact
        ⟨hSame, ⟨nofun, nofun, nofun, nofun⟩,
          fun _ _ => .asked rfl⟩
  | runAfter t script e document collection =>
      exact
        ⟨hRecord _, ⟨nofun, nofun, nofun, nofun⟩,
          fun _ _ => .asked rfl⟩

/- A whole dialogue: the same holds of all its questions. -/
theorem run_spec
    (hPlain : s.store.IsPlain)
    (x : Conversation T (scriptedHooks T) α) :
    s.Surrounds (x.run answer s).2 ∧
      (∀ y ∈ x.transcript answer s, s.Answers y) ∧
      s.shelf.Runs (x.transcript answer s)
        (x.run answer s).2.shelf := by
  induction x generalizing s with
  | done value =>
      refine ⟨⟨hPlain, rfl, rfl, rfl, rfl⟩, ?_, .done _⟩
      intro y hMem
      cases hMem
  | ask c next ih =>
      rcases answer_spec hPlain c with ⟨hSurrounds, hAnswers, hRuns⟩
      rcases ih (answer c s).1 hSurrounds.plain with
        ⟨hOthers, hAll, hRest⟩
      refine ⟨hSurrounds.trans hOthers, ?_, hRuns _ _ hRest⟩
      intro y hMem
      rcases List.mem_cons.mp hMem with rfl | hMem
      · exact hAnswers
      · exact (hAll y hMem).of_surrounds hSurrounds

/- A task of a plain session: the store keeps what it is given. -/
theorem work_spec
    (hPlain : s.store.IsPlain)
    (x : Task T (scriptedHooks T) α) :
    s.Surrounds (work x s).2 ∧
      (∀ y ∈ s.transcriptOf x, s.Answers y) ∧
      s.shelf.Runs (s.transcriptOf x) (work x s).2.shelf := by
  rcases run_spec hPlain (x.run.run s.registry) with
    ⟨hSurrounds, hAnswers, hRuns⟩
  exact
    ⟨⟨hSurrounds.plain, hSurrounds.resolve, hSurrounds.attempt,
      hSurrounds.before, hSurrounds.stop⟩, hAnswers, hRuns⟩

end Session

end DocumentMapper
