import DocumentMapper.Store.Memory

/-
  A store that can be told to misbehave.

  A script makes the resolver or the executor throw, fail or
  answer with something prepared, or makes the caller stop
  while a request is on its way.

  Key definitions include:
    * `ResolverScript`
    * `ScriptedStore`
    * `ScriptedStore.resolve`
    * `ScriptedStore.submit`
-/

namespace DocumentMapper

/- What the resolver does. -/
inductive ResolverScript where
  | lookUp
  | throws (what : Text)
  | fails (e : Error)
  | answers (name : CollectionName)
  deriving DecidableEq, Repr

/-
  A store in memory with its script. A prepared record is
  handed out once; everything else stays until it is changed.
-/
structure ScriptedStore where
  memory : MemoryStore := {}
  resolver : ResolverScript := .lookUp
  stopsCaller : Bool := false
  throws? : Option Text := none
  fails? : Option Error := none
  prepared? : Option StoreRecord := none

namespace ScriptedStore

/- A result as a reply. -/
def replyOf
    {α : Type}
    (r : Result α) : Reply α :=
  match r with
  | .ok value => .ok value
  | .error e => .failed e

/- The answer to a question for a collection. -/
def resolve
    (s : ScriptedStore)
    (name : CollectionName) : Reply CollectionName :=
  match s.resolver with
  | .lookUp => replyOf (s.memory.resolve name)
  | .throws what => .throwing what
  | .fails e => .failed e
  | .answers name => .ok name

/- The answer to a request, and the store after it. -/
def submit
    (s : ScriptedStore)
    (attempt? : Option Attempt)
    (r : Request) : Reply StoreRecord × ScriptedStore :=
  match s.throws?, s.fails?, s.prepared? with
  | some what, _, _ => (.throwing what, s)
  | none, some e, _ => (.failed e, s)
  | none, none, some record =>
      (.ok record, { s with prepared? := none })
  | none, none, none =>
      match s.memory.perform attempt? r with
      | .ok (record, memory) => (.ok record, { s with memory })
      | .error e => (.failed e, s)

end ScriptedStore

end DocumentMapper
