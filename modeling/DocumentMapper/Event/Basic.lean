import DocumentMapper.Document.Basic
import DocumentMapper.Entity.Schema

/-
  Events around the conversion and storage of an entity.

  Key definitions include:
    * `Stage`, `Stage.name`
    * `Event`
-/

namespace DocumentMapper

/- When an event is published. -/
inductive Stage where
  | beforeConvert
  | beforeSave
  | afterSave
  deriving DecidableEq, Repr

/- The name of a stage. -/
def Stage.name : Stage → Text
  | .beforeConvert => Text.lit "BeforeConvert"
  | .beforeSave => Text.lit "BeforeSave"
  | .afterSave => Text.lit "AfterSave"

/- What listeners are told; before conversion there is no document. -/
structure Event (T : Type) [EntityTypes T] where
  stage : Stage
  type : T
  entity : EntityOf type
  document? : Option Document
  collection : Text

end DocumentMapper
