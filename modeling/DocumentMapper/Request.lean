import DocumentMapper.Transaction

/-
  Requests to a key-value store and its answers.

  Key definitions include:
    * `RequestKind`, `RequestKind.name`
    * `Durability`
    * `CollectionName`, `CollectionName.qualified`
    * `ReadOptions`
    * `Request`
    * `StoreRecord`
-/

namespace DocumentMapper

/- What a request asks for. -/
inductive RequestKind where
  | get
  | insert
  | upsert
  | replace
  | remove
  | exists
  deriving DecidableEq, Repr

/- The name of a kind of operation. -/
def RequestKind.name : RequestKind → Text
  | .get => Text.lit "get"
  | .insert => Text.lit "insert"
  | .upsert => Text.lit "upsert"
  | .replace => Text.lit "replace"
  | .remove => Text.lit "remove"
  | .exists => Text.lit "exists"

/- How far a write has to get before it counts as done. -/
inductive Durability where
  | none
  | majority
  | majorityAndPersistToActive
  | persistToMajority
  deriving DecidableEq, Repr, Inhabited

/- The rank of a durability level. -/
def Durability.level : Durability → Nat
  | .none => 0
  | .majority => 1
  | .majorityAndPersistToActive => 2
  | .persistToMajority => 3

/- A scope and a collection in it. -/
structure CollectionName where
  scope : Text
  collection : Text
  deriving DecidableEq, Repr, Inhabited

/- Scope and collection with a point between them. -/
def CollectionName.qualified
    (name : CollectionName) : Text :=
  name.scope ++ Text.lit "." ++ name.collection

/- What to fetch of a document, and an expiry to set while reading. -/
structure ReadOptions where
  project : List Text := []
  refreshedExpiry? : Option Int64 := none
  deriving DecidableEq, Repr, Inhabited

/-
  A request for one document. The payload is there on writes
  of content only; a token of zero makes the request
  unconditional.
-/
structure Request where
  kind : RequestKind
  id : Text
  payload? : Option Text := none
  cas : UInt64 := 0
  collection : CollectionName
  expiry : Int64 := 0
  durability : Durability := .none
  find : ReadOptions := {}
  earlier? : Option GetResult := none
  deriving DecidableEq, Repr

/- The answer to a request. -/
structure StoreRecord where
  id : Text := []
  cas : UInt64 := 0
  content? : Option Text := none
  isPresent : Bool := false
  result? : Option GetResult := none
  deriving DecidableEq, Repr, Inhabited

end DocumentMapper
