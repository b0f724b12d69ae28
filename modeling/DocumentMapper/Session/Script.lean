import DocumentMapper.Entity.Schema
import DocumentMapper.Event.Bus

/-
  Scripts for listeners and callbacks.

  A script says what a listener or a callback of a session
  does each time it is called, besides being entered in the
  journal.

  Key definitions include:
    * `Ending`
    * `ListenerScript`
    * `BeforeScript`, `BeforeScript.apply`
    * `AfterScript`
-/

namespace DocumentMapper

/- How a script ends. -/
inductive Ending where
  | succeeds
  | throws (what : Text)
  | fails (e : Error)
  deriving DecidableEq, Repr, Inhabited

/- An ending as a reply, with the value of success. -/
def Ending.reply
    {α : Type}
    (ending : Ending)
    (value : α) : Reply α :=
  match ending with
  | .succeeds => .ok value
  | .throws what => .throwing what
  | .fails e => .failed e

/-
  What a listener does: it may add a listener to every stage,
  drop one, and then end.
-/
structure ListenerScript where
  addsListener : Bool := false
  drops? : Option UInt64 := none
  ending : Ending := .succeeds
  deriving DecidableEq, Repr, Inhabited

/- A member and its new value. -/
structure Assignment (S : Schema) where
  index : S.Index
  value : (S.typeAt index).Value

/- Carry out assignments one after the other. -/
def Entity.assign
    {S : Schema}
    (e : Entity S)
    (assignments : List (Assignment S)) : Entity S :=
  assignments.foldl (fun e a => e.set a.index a.value) e

/-
  What a callback before conversion does: unless it ends
  early, it sets members, and lengthens text members by a text
  and the name of the collection.
-/
structure BeforeScript (S : Schema) where
  ending : Ending := .succeeds
  sets : List (Assignment S) := []
  appends : List (Member S .string × Text) := []

namespace BeforeScript

variable {S : Schema}

/- The entity that a script puts in place of another. -/
def apply
    (script : BeforeScript S)
    (e : Entity S)
    (collection : Text) : Entity S :=
  script.appends.foldl
    (fun e (m, text) =>
      e.put m (e.get m ++ text ++ collection))
    (e.assign script.sets)

/- The reply of a script; an error whose code is success is none. -/
def reply
    (script : BeforeScript S)
    (e : Entity S)
    (collection : Text) : Reply (Entity S) :=
  match script.ending with
  | .fails cause =>
      if Status.isOk ⟨cause⟩ then
        .ok (script.apply e collection)
      else
        .failed cause
  | ending => ending.reply (script.apply e collection)

end BeforeScript

/- What a callback after conversion does. -/
structure AfterScript where
  ending : Ending := .succeeds
  deriving DecidableEq, Repr, Inhabited

end DocumentMapper
