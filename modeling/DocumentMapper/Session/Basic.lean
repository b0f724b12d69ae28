import DocumentMapper.Repository.Operation
import DocumentMapper.Session.Journal
import DocumentMapper.Session.Script
import DocumentMapper.Store.Scripted

/-
  Sessions: a repository with a world around it.

  A session holds a mapping, a store, a provider of attempts,
  a bus with scripted listeners, scripted callbacks, and the
  registry of transaction results. It answers all questions
  of the mapping layer and keeps a journal of them.

  Key definitions include:
    * `Session`
    * `Session.repository`, `Session.writeback`
    * `Session.answer`
    * `Session.converse`, `Session.work`
-/

namespace DocumentMapper

/- A listener of a session with the number of its subscription. -/
structure SessionListener where
  id : UInt64
  script : ListenerScript := {}
  deriving DecidableEq, Repr

/- The listeners and callbacks of a session follow scripts. -/
@[reducible]
def scriptedHooks
    (T : Type)
    [EntityTypes T] : Hooks T where
  Listener := SessionListener
  Before t := BeforeScript (EntityTypes.schema t)
  After _ := AfterScript

/- A callback before conversion, with its type. -/
structure BeforeHook (T : Type) [EntityTypes T] where
  type : T
  script : BeforeScript (EntityTypes.schema type)

/- A callback after conversion, with its type. -/
structure AfterHook (T : Type) where
  type : T
  script : AfterScript

/-
  Everything that lives as long as a session. The repository
  may be left without the mapping, and changes outside of it
  without the registry.
-/
structure Session (T : Type) [EntityTypes T] where
  mapping : Mapping T := .empty
  settings : Settings := {}
  wiring : Wiring := {}
  sharesMapping : Bool := true
  sharesRegistry : Bool := true
  store : ScriptedStore := {}
  attempt? : Option Attempt := none
  bus : EventBus SessionListener := {}
  before : List (BeforeHook T) := []
  after : List (AfterHook T) := []
  registry : ResultRegistry := {}
  stopRequested : Bool := false
  journal : List (JournalEntry T) := []

namespace Session

variable {T : Type}
variable [EntityTypes T]
variable {α : Type}

/- The repository of a session. -/
def repository
    (s : Session T) : Repository T where
  settings := s.settings
  mapping := if s.sharesMapping then s.mapping else .empty
  wiring := s.wiring

/- How a session takes answers over that did not pass the repository. -/
def writeback
    (s : Session T) : Writeback T where
  mapping := s.mapping
  hasRegistry := s.sharesRegistry
  hasBus := s.wiring.bus

/- The callbacks before conversion for a type, in order. -/
def beforeHooks
    (s : Session T)
    (t : T) : List (BeforeScript (EntityTypes.schema t)) :=
  s.before.filterMap fun hook =>
    if h : hook.type = t then some (h ▸ hook.script) else none

/- The callbacks after conversion for a type, in order. -/
def afterHooks
    (s : Session T)
    (t : T) : List AfterScript :=
  (s.after.filter fun hook => hook.type = t).map (·.script)

------------------------------------------------------------
-- Answering
------------------------------------------------------------

/- Enter something in the journal. -/
def record
    (s : Session T)
    (entry : JournalEntry T) : Session T :=
  { s with journal := s.journal ++ [entry] }

/- Subscribe a listener with a script, and give it its number. -/
def subscribe
    (s : Session T)
    (stage? : Option Stage)
    (script : ListenerScript) : UInt64 × Session T :=
  let (id, bus) :=
    s.bus.subscribe stage? ⟨s.bus.nextId, script⟩
  (id, { s with bus })

/- Drop a listener, and tell whether there was one. -/
def unsubscribe
    (s : Session T)
    (id : UInt64) : Bool × Session T :=
  let (present, bus) := s.bus.unsubscribe id
  (present, { s with bus })

/- Carry out what a listener does to the bus. -/
def follow
    (s : Session T)
    (script : ListenerScript) : Session T :=
  let s :=
    if script.addsListener then
      (s.subscribe none {}).2
    else
      s
  match script.drops? with
  | some id => (s.unsubscribe id).2
  | none => s

/- Hand a request to the store. -/
def submit
    (s : Session T)
    (attempt? : Option Attempt)
    (r : Request) : Reply StoreRecord × Session T :=
  let s := s.record (.submitted attempt? r)
  let (reply, store) := s.store.submit attempt? r
  (reply,
    { s with
      store
      stopRequested :=
        s.stopRequested || s.store.stopsCaller })

/- The answer of a session to a question. -/
def answer :
    (c : Call T (scriptedHooks T)) →
      StateM (Session T) c.Answer
  | .currentAttempt, s => (s.attempt?, s)
  | .resolve name, s =>
      (s.store.resolve name, s.record (.resolved name))
  | .submit attempt? r, s => s.submit attempt? r
  | .stopRequested, s => (s.stopRequested, s)
  | .listeners stage, s => (s.bus.targets stage, s)
  | .notify listener event, s =>
      (listener.script.ending.reply (),
        (s.record (.notified listener.id event)).follow
          listener.script)
  | .beforeHooks t, s => (s.beforeHooks t, s)
  | .runBefore t script e collection, s =>
      (script.reply e collection,
        s.record (.ranBefore t e collection))
  | .afterHooks t, s => (s.afterHooks t, s)
  | .runAfter t script e document collection, s =>
      (script.ending.reply (),
        s.record (.ranAfter t e document collection))

------------------------------------------------------------
-- Running
------------------------------------------------------------

/- Run a step. -/
def converse
    (x : Step T (scriptedHooks T) α) :
    StateM (Session T) (Result α) :=
  x.run.run answer

/- Run a task on the registry of the session. -/
def work
    (x : Task T (scriptedHooks T) α) :
    StateM (Session T) (Except Failure α) := do
  let s ← get
  let (outcome, registry) ← (x.run.run s.registry).run answer
  modify fun s => { s with registry }
  return outcome

/-
  Carry out an operation of the repository for a caller who
  may want to stop right away.
-/
def perform
    (op : Operation T)
    (scope : CallScope)
    (stop : Bool) :
    StateM (Session T) (Except Failure op.Outcome) := do
  modify fun s => { s with stopRequested := stop }
  let s ← get
  work (s.repository.perform scope op)

/- The journal so far; a new one is begun. -/
def takeJournal : StateM (Session T) (List (JournalEntry T)) :=
  modifyGet fun s => (s.journal, { s with journal := [] })

end Session

end DocumentMapper
