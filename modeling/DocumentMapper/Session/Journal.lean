import DocumentMapper.Dialogue.Call

/-
  The journal of a session: what its collaborators saw.

  Key definitions include:
    * `JournalEntry`
-/

namespace DocumentMapper

/- One thing that a collaborator was asked or told. -/
inductive JournalEntry (T : Type) [EntityTypes T] where
  | resolved (name : CollectionName)
  | submitted (attempt? : Option Attempt) (request : Request)
  | notified (listener : UInt64) (event : Event T)
  | ranBefore
      (type : T)
      (entity : EntityOf type)
      (collection : Text)
  | ranAfter
      (type : T)
      (entity : EntityOf type)
      (document : Document)
      (collection : Text)

end DocumentMapper
