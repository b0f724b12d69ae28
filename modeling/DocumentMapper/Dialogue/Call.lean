import DocumentMapper.Dialogue.Basic
import DocumentMapper.Event.Bus
import DocumentMapper.Request

/-
  The questions that the mapping layer asks the world around
  it: the provider of transaction attempts, the resolver of
  collections, the executors, the caller who may want to
  stop, and the listeners and hooks of the application.

  Everything that such a collaborator may do is an answer: a
  value, an error, or an exception.

  Key definitions include:
    * `Hooks`
    * `Call`, `Call.Answer`
    * `Conversation`
-/

namespace DocumentMapper

/-
  What the application hooks into a conversion: listeners, and
  callbacks per entity type.
-/
structure Hooks (T : Type) where
  Listener : Type
  Before : T → Type
  After : T → Type

/- A question to the world. -/
inductive Call
    (T : Type)
    [EntityTypes T]
    (K : Hooks T) : Type where
  /- Which attempt is active here? -/
  | currentAttempt
  /- Which collection is meant by this name? -/
  | resolve (name : CollectionName)
  /- Carry out a request, inside an attempt or outside of any. -/
  | submit (attempt? : Option Attempt) (request : Request)
  /- Has the caller asked to stop? -/
  | stopRequested
  /- Who listens to events of this stage? -/
  | listeners (stage : Stage)
  /- Tell a listener. -/
  | notify (listener : K.Listener) (event : Event T)
  /- Which callbacks run before conversion? -/
  | beforeHooks (type : T)
  /- Let a callback replace an entity. -/
  | runBefore
      (type : T)
      (hook : K.Before type)
      (entity : EntityOf type)
      (collection : Text)
  /- Which callbacks run after conversion? -/
  | afterHooks (type : T)
  /- Show a callback an entity and its document. -/
  | runAfter
      (type : T)
      (hook : K.After type)
      (entity : EntityOf type)
      (document : Document)
      (collection : Text)

namespace Call

variable {T : Type}
variable [EntityTypes T]
variable {K : Hooks T}

/- The answers to a question. -/
abbrev Answer : Call T K → Type
  | .currentAttempt => Option Attempt
  | .resolve _ => Reply CollectionName
  | .submit _ _ => Reply StoreRecord
  | .stopRequested => Bool
  | .listeners _ => List K.Listener
  | .notify _ _ => Reply Unit
  | .beforeHooks type => List (K.Before type)
  | .runBefore type _ _ _ => Reply (EntityOf type)
  | .afterHooks type => List (K.After type)
  | .runAfter _ _ _ _ _ => Reply Unit

end Call

/- A dialogue with the world. -/
abbrev Conversation
    (T : Type)
    [EntityTypes T]
    (K : Hooks T)
    (α : Type) : Type :=
  Dialogue (Call T K) Call.Answer α

/- A dialogue with the world that may end in an error. -/
abbrev Step
    (T : Type)
    [EntityTypes T]
    (K : Hooks T) : Type → Type :=
  ExceptT Error (Dialogue (Call T K) Call.Answer)

namespace Step

variable {T : Type}
variable [EntityTypes T]
variable {K : Hooks T}
variable {α : Type}

/- Ask one question. -/
def ask
    (c : Call T K) : Step T K c.Answer :=
  ExceptT.lift (Dialogue.question c)

/- A result, without asking anything. -/
def ofResult
    (r : Result α) : Step T K α :=
  ExceptT.mk (pure r)

end Step

end DocumentMapper
