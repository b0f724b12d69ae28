import DocumentMapper.Dialogue.Call

/-
  Publishing events and running callbacks around a
  conversion.

  Callbacks run in the order of their registration. Each one
  that runs before conversion gets the entity that the one
  before it returned. The first that fails or throws ends the
  run.

  Key definitions include:
    * `publish`
    * `substitute`
    * `inspect`
-/

namespace DocumentMapper

variable {T : Type}
variable [EntityTypes T]
variable {K : Hooks T}

------------------------------------------------------------
-- Events
------------------------------------------------------------

/- Tell everyone who listens to the stage of an event. -/
def publish
    (event : Event T) : Step T K Unit := do
  let targets ← Step.ask (.listeners event.stage)
  let outcome ←
    deliver
      (fun listener => Step.ask (.notify listener event))
      event.stage targets
  Step.ofResult outcome

/- Tell listeners if there is a bus; a missing bus is no error. -/
def publishIf
    (hasBus : Bool)
    (event : Event T) : Step T K Unit :=
  if hasBus then publish event else pure ()

------------------------------------------------------------
-- Callbacks
------------------------------------------------------------

/- A callback failed. -/
def callbackFailed
    (moment : String)
    (message : Text) : Error :=
  .mapping
    (Text.lit moment ++ Text.lit " callback failed: " ++
      message)

/- Let callbacks replace an entity, one after the other. -/
def substituteBy
    {t : T}
    (collection : Text)
    (e : EntityOf t) : List (K.Before t) → Step T K (EntityOf t)
  | [] => pure e
  | hook :: rest => do
      match ← Step.ask (.runBefore t hook e collection) with
      | .ok e => substituteBy collection e rest
      | .failed cause =>
          throw (callbackFailed "before-convert" cause.message)
      | .threw what =>
          throw (callbackFailed "before-convert" what)

/- The entity that is converted in place of `e`. -/
def substitute
    {t : T}
    (e : EntityOf t)
    (collection : Text) : Step T K (EntityOf t) := do
  let hooks ← Step.ask (.beforeHooks t)
  substituteBy collection e hooks

/- Show callbacks an entity and its document, one after the other. -/
def inspectBy
    {t : T}
    (e : EntityOf t)
    (document : Document)
    (collection : Text) : List (K.After t) → Step T K Unit
  | [] => pure ()
  | hook :: rest => do
      match ← Step.ask
          (.runAfter t hook e document collection) with
      | .ok () => inspectBy e document collection rest
      | .failed cause =>
          if Status.isOk ⟨cause⟩ then
            inspectBy e document collection rest
          else
            throw (callbackFailed "after-convert" cause.message)
      | .threw what =>
          throw (callbackFailed "after-convert" what)

/- Show all callbacks an entity and its document. -/
def inspect
    {t : T}
    (e : EntityOf t)
    (document : Document)
    (collection : Text) : Step T K Unit := do
  let hooks ← Step.ask (.afterHooks t)
  inspectBy e document collection hooks

end DocumentMapper
