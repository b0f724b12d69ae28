import DocumentMapper.Conversion.FieldType

/-
  Entity types and entities.

  A schema lists the members of an entity type with their
  names, types and initial values. An entity gives every
  member a value of its type.

  Key definitions include:
    * `MemberSpec`, `Schema`
    * `EntityTypes`
    * `Entity`, `Entity.initial`, `Entity.set`
    * `Member`, `Entity.get`, `Entity.put`

  Main statements include:
    * `Entity.get_put`
    * `Entity.get_put_of_ne`
-/

namespace DocumentMapper

------------------------------------------------------------
-- Schemas
------------------------------------------------------------

/- A member of an entity type. -/
structure MemberSpec where
  name : Text
  type : FieldType
  initial : type.Value := type.initial

/- An entity type: its name and its members. -/
structure Schema where
  name : Text
  members : List MemberSpec

namespace Schema

/- A place among the members. -/
abbrev Index
    (S : Schema) : Type :=
  Fin S.members.length

/- The name of the member at a place. -/
def nameAt
    (S : Schema)
    (i : S.Index) : Text :=
  (S.members.get i).name

/- The type of the member at a place. -/
def typeAt
    (S : Schema)
    (i : S.Index) : FieldType :=
  (S.members.get i).type

/- The place of the member with a name. -/
def index?
    (S : Schema)
    (name : Text) : Option S.Index :=
  (List.finRange S.members.length).find? fun i =>
    S.nameAt i = name

end Schema

/- The entity types of an application, each with its schema. -/
class EntityTypes (T : Type) where
  decEq : DecidableEq T
  schema : T → Schema

instance
    {T : Type}
    [EntityTypes T] : DecidableEq T :=
  EntityTypes.decEq

------------------------------------------------------------
-- Entities
------------------------------------------------------------

/- An entity: a value for every member. -/
@[ext]
structure Entity (S : Schema) where
  value : (i : S.Index) → (S.typeAt i).Value

/- The entities of a type of the application. -/
abbrev EntityOf
    {T : Type}
    [EntityTypes T]
    (t : T) : Type :=
  Entity (EntityTypes.schema t)

namespace Entity

variable {S : Schema}

/- The entity of which nothing is known yet. -/
def initial
    (S : Schema) : Entity S :=
  ⟨fun i => (S.members.get i).initial⟩

instance : Inhabited (Entity S) :=
  ⟨initial S⟩

/- Change one member. -/
def set
    (e : Entity S)
    (i : S.Index)
    (v : (S.typeAt i).Value) : Entity S :=
  ⟨fun j => if h : i = j then h ▸ v else e.value j⟩

/- A changed member has its new value. -/
@[simp]
theorem value_set
    (e : Entity S)
    (i : S.Index)
    (v : (S.typeAt i).Value) :
    (e.set i v).value i = v := by
  simp [set]

/- Changing a member leaves the others alone. -/
theorem value_set_of_ne
    (e : Entity S)
    {i j : S.Index}
    (v : (S.typeAt i).Value)
    (h : i ≠ j) :
    (e.set i v).value j = e.value j := by
  simp [set, h]

end Entity

------------------------------------------------------------
-- Members of a Known Type
------------------------------------------------------------

/- A member of a schema that has type `t`. -/
structure Member (S : Schema) (t : FieldType) where
  index : S.Index
  type_eq : S.typeAt index = t

namespace Schema

/- The member with a name, if it has type `t`. -/
def member?
    (S : Schema)
    (name : Text)
    (t : FieldType) : Option (Member S t) :=
  match S.index? name with
  | some i =>
      if h : S.typeAt i = t then some ⟨i, h⟩ else none
  | none => none

end Schema

namespace Entity

variable {S : Schema}
variable {t : FieldType}

/- The value of a member. -/
def get
    (e : Entity S)
    (m : Member S t) : t.Value :=
  m.type_eq ▸ e.value m.index

/- Change a member. -/
def put
    (e : Entity S)
    (m : Member S t)
    (v : t.Value) : Entity S :=
  e.set m.index (m.type_eq.symm ▸ v)

/- A changed member reads as its new value. -/
@[simp]
theorem get_put
    (e : Entity S)
    (m : Member S t)
    (v : t.Value) :
    (e.put m v).get m = v := by
  obtain ⟨i, rfl⟩ := m
  simp [get, put]

/- Changing a member leaves the members at other places alone. -/
theorem get_put_of_ne
    {u : FieldType}
    (e : Entity S)
    (m : Member S t)
    (n : Member S u)
    (v : t.Value)
    (h : m.index ≠ n.index) :
    (e.put m v).get n = e.get n := by
  obtain ⟨j, rfl⟩ := n
  simp only [get, put]
  exact value_set_of_ne e _ h

end Entity

end DocumentMapper
