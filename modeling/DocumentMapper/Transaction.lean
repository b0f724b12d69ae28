import DocumentMapper.Association
import DocumentMapper.Text.Basic

/-
  Transaction attempts and the get results they leave behind.

  An executor that reads or writes a document inside an
  attempt may hand out a get result, which a later write of
  the same attempt has to show again. The registry keeps
  these results under keys that are small enough to be stored
  in an entity.

  Key definitions include:
    * `Attempt`, `GetResult`
    * `ResultRegistry`
    * `ResultRegistry.save`, `ResultRegistry.find?`
    * `ResultRegistry.erase`, `ResultRegistry.eraseOfAttempt`
-/

namespace DocumentMapper

/- A transaction attempt, known by its identifier. -/
abbrev Attempt := Text

/- What an executor remembers of a document that an attempt touched. -/
structure GetResult where
  id : Text
  cas : UInt64
  scope : Text
  collection : Text
  attempt : Attempt
  content : Text
  deriving DecidableEq, Repr, Inhabited

/-
  Get results under their keys, and the next key. An entry
  may be empty.
-/
structure ResultRegistry where
  entries : List (Int64 × Option GetResult) := []
  nextKey : Int64 := 1
  deriving Repr, Inhabited

namespace ResultRegistry

/-
  Keep a result under a fresh key; a key that is taken keeps
  its entry.
-/
def save
    (r : ResultRegistry)
    (result? : Option GetResult) : Int64 × ResultRegistry :=
  (r.nextKey,
    { entries :=
        if (Association.lookup? r.nextKey r.entries).isSome then
          r.entries
        else
          r.entries ++ [(r.nextKey, result?)]
      nextKey := r.nextKey + 1 })

/- The result under a key. -/
def find?
    (r : ResultRegistry)
    (key : Int64) : Option GetResult :=
  (Association.lookup? key r.entries).join

/- Drop the entry under a key, and tell whether there was one. -/
def erase
    (r : ResultRegistry)
    (key : Int64) : Bool × ResultRegistry :=
  ((Association.lookup? key r.entries).isSome,
    { r with entries := Association.erase key r.entries })

/- The entry holds a result of the attempt. -/
def isOfAttempt
    (attempt : Attempt)
    (entry : Int64 × Option GetResult) : Bool :=
  match entry.2 with
  | some result => result.attempt = attempt
  | none => false

/- Drop the results of an attempt, and tell how many they were. -/
def eraseOfAttempt
    (r : ResultRegistry)
    (attempt : Attempt) : Nat × ResultRegistry :=
  (r.entries.countP (isOfAttempt attempt),
    { r with
      entries :=
        r.entries.filter fun entry =>
          !isOfAttempt attempt entry })

/- The number of entries. -/
def size
    (r : ResultRegistry) : Nat :=
  r.entries.length

end ResultRegistry

end DocumentMapper
