import DocumentMapper.Json.Basic

/-
  Documents: what an entity becomes on its way to a store.

  The attributes of a document are JSON values under distinct
  keys, in the order in which the keys were first put. The
  identifier and the expiry stand beside them, so that they
  never get into the stored content.

  Key definitions include:
    * `Attributes`
    * `Document`
    * `Document.ofContent`
    * `Document.put`, `Document.remove`, `Document.get?`
    * `Document.equal`
-/

namespace DocumentMapper

------------------------------------------------------------
-- Attributes
------------------------------------------------------------

/- Attributes in order, under distinct keys. -/
structure Attributes where
  entries : List (Text × Json)
  nodup : (Association.keys entries).Nodup

namespace Attributes

/- No attributes. -/
def empty : Attributes :=
  ⟨[], List.nodup_nil⟩

instance : Inhabited Attributes :=
  ⟨empty⟩

/- The keys, in order. -/
def keys
    (a : Attributes) : List Text :=
  Association.keys a.entries

/- The value under a key. -/
def get?
    (a : Attributes)
    (key : Text) : Option Json :=
  Association.lookup? key a.entries

/- Bind a key; a bound key keeps its place. -/
def put
    (a : Attributes)
    (key : Text)
    (value : Json) : Attributes :=
  ⟨Association.assign key value a.entries,
    Association.nodup_assign a.nodup⟩

/- Unbind a key. -/
def erase
    (a : Attributes)
    (key : Text) : Attributes :=
  ⟨Association.erase key a.entries,
    Association.nodup_erase a.nodup⟩

/- Bind members one after the other. -/
def merge
    (a : Attributes)
    (members : List (Text × Json)) : Attributes :=
  ⟨Association.merge a.entries members,
    Association.nodup_merge members a.nodup⟩

/- The attributes as a JSON object. -/
def toJson
    (a : Attributes) : Json :=
  .object a.entries

/-
  The members of an object as attributes; a value of another
  kind has none.
-/
def ofJson
    (value : Json) : Attributes :=
  match value with
  | .object members => empty.merge members
  | _ => empty

/- Every put key answers with the value put last. -/
@[simp]
theorem get?_put
    (a : Attributes)
    (key other : Text)
    (value : Json) :
    (a.put key value).get? other =
      if key = other then some value else a.get? other :=
  Association.lookup?_assign key other value a.entries

/- An erased key is gone, and only that key. -/
@[simp]
theorem get?_erase
    (a : Attributes)
    (key other : Text) :
    (a.erase key).get? other =
      if key = other then none else a.get? other :=
  Association.lookup?_erase a.nodup key other

/- A key has a value exactly when it is among the keys. -/
theorem get?_isSome_iff
    (a : Attributes)
    (key : Text) :
    (a.get? key).isSome ↔ key ∈ a.keys := by
  rw [Option.isSome_iff_ne_none, ne_eq, get?,
    Association.lookup?_eq_none_iff, Decidable.not_not]
  rfl

end Attributes

------------------------------------------------------------
-- Documents
------------------------------------------------------------

/-
  An identifier, attributes and an expiry in seconds; an
  expiry of zero means none.
-/
structure Document where
  id : Text
  content : Attributes
  expiry : Int64
  deriving Inhabited

namespace Document

/- A document without attributes. -/
def ofId
    (id : Text) : Document :=
  ⟨id, .empty, 0⟩

/-
  A document with the members of an object as attributes;
  other content is dropped.
-/
def ofContent
    (id : Text)
    (content : Json) : Document :=
  ⟨id, .ofJson content, 0⟩

/- Change the identifier. -/
def withId
    (d : Document)
    (id : Text) : Document :=
  { d with id := id }

/- Change the expiry. -/
def withExpiry
    (d : Document)
    (expiry : Int64) : Document :=
  { d with expiry := expiry }

/- The value of an attribute. -/
def get?
    (d : Document)
    (key : Text) : Option Json :=
  d.content.get? key

/- There is an attribute with that key. -/
def contains
    (d : Document)
    (key : Text) : Bool :=
  (d.get? key).isSome

/- Set an attribute. -/
def put
    (d : Document)
    (key : Text)
    (value : Json) : Document :=
  { d with content := d.content.put key value }

/- Remove an attribute, and tell whether it was there. -/
def remove
    (d : Document)
    (key : Text) : Bool × Document :=
  (d.contains key,
    { d with content := d.content.erase key })

/- The number of attributes. -/
def size
    (d : Document) : Nat :=
  d.content.entries.length

/-
  Equal identifiers, expiries and contents; numbers are
  compared by value.
-/
def equal
    (a b : Document) : Bool :=
  a.id == b.id &&
    a.content.toJson.equal b.content.toJson &&
    a.expiry == b.expiry

end Document

end DocumentMapper
