import DocumentMapper.Config.Settings
import DocumentMapper.Entity.Descriptor
import DocumentMapper.Request

/-
  The decisions that precede a request.

  Key definitions include:
    * `CallScope`
    * `chosenCollection`
    * `WriteIntent`, `requestKind`
    * `writeExpiry`
-/

namespace DocumentMapper

------------------------------------------------------------
-- Scopes
------------------------------------------------------------

/-
  What a caller may say about one call. Empty names leave the
  choice to the descriptor, an absent attempt to the provider.
-/
structure CallScope where
  scope : Text := []
  collection : Text := []
  attempt? : Option Attempt := none
  expiry? : Option Int64 := none
  durability : Durability := .none
  deriving DecidableEq, Repr, Inhabited

/- The first of three names that is not empty, or the last. -/
def pickName
    (given declared configured : Text) : Text :=
  if given ≠ [] then given
  else if declared ≠ [] then declared
  else configured

/-
  The collection that a call aims at: given by the call,
  declared by the descriptor, or configured.
-/
def chosenCollection
    {S : Schema}
    (settings : Settings)
    (d : Descriptor S)
    (scope : CallScope) : CollectionName where
  scope := pickName scope.scope d.scope settings.scope
  collection :=
    pickName scope.collection d.collection settings.collection

------------------------------------------------------------
-- Writing
------------------------------------------------------------

/- How a caller asks for a write. -/
inductive WriteIntent where
  | save
  | insert
  | upsert
  | replace
  deriving DecidableEq, Repr

/- There is no upsert inside an attempt. -/
def upsertInAttempt : Error :=
  .invalidArgument
    (Text.lit "upsert is not supported inside a transaction")

/-
  The kind of request for a write. Saving replaces what has a
  version token; else it inserts inside an attempt, and
  upserts outside of any.
-/
def requestKind
    (intent : WriteIntent)
    (token : UInt64)
    (inAttempt : Bool)
    (id collection : Text) : Result RequestKind :=
  match intent with
  | .save =>
      if token ≠ 0 then .ok .replace
      else if inAttempt then .ok .insert
      else .ok .upsert
  | .insert => .ok .insert
  | .replace => .ok .replace
  | .upsert =>
      if inAttempt then
        .error
          (upsertInAttempt.withContext
            RequestKind.upsert.name id collection)
      else
        .ok .upsert

/-
  The expiry of a write: given, or that of the document if it
  has one, or configured.
-/
def writeExpiry
    (settings : Settings)
    (scope : CallScope)
    (declared : Int64) : Int64 :=
  match scope.expiry? with
  | some expiry => expiry
  | none =>
      if 0 < declared then
        declared
      else
        settings.defaultExpiry

end DocumentMapper
