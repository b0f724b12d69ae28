import DocumentMapper.Event.Hooks
import DocumentMapper.Mapping
import DocumentMapper.Repository.Task

/-
  Taking the answer of a store over into an entity.

  The entity is the one the caller gave, never a substitute.
  It gets the identifier and the token of the answer, and the
  key of a transaction result that came with it; then the
  listeners are told that it is saved.

  Key definitions include:
    * `Writeback`
    * `Writeback.keep`
    * `Writeback.apply`
-/

namespace DocumentMapper

/- The mapping, and whether there are a registry and a bus. -/
structure Writeback (T : Type) [EntityTypes T] where
  mapping : Mapping T
  hasRegistry : Bool := true
  hasBus : Bool := true

namespace Writeback

variable {T : Type}
variable [EntityTypes T]
variable {K : Hooks T}

/- Keep a transaction result, and give an entity its key. -/
def keep
    {S : Schema}
    (d : Descriptor S)
    (e : Entity S)
    (result? : Option GetResult) : Task T K (Entity S) :=
  match result? with
  | some result => do
      let key ← Task.saveResult result
      return d.withKey e key
  | none => pure e

/-
  The entity after a write of its document that was answered
  with an identifier and a token.
-/
def apply
    {t : T}
    (w : Writeback T)
    (e : EntityOf t)
    (document : Document)
    (id : Text)
    (cas : UInt64)
    (result? : Option GetResult)
    (collection : Text) : Task T K (EntityOf t) := do
  let d ← Task.ofResult (w.mapping.descriptor t)
  let e := if id = [] then e else d.withId e id
  let e ← Task.ofResult (d.withToken e cas)
  let e ← keep d e (if w.hasRegistry then result? else none)
  Task.ofStep (publishIf w.hasBus
    ⟨.afterSave, t, e, some document, collection⟩)
  return e

end Writeback

end DocumentMapper
