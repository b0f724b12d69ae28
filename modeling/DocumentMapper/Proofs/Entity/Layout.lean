import DocumentMapper.Proofs.Entity.Version

/-
  Where the fields of an entity are.

  The members that are stored as attributes lie apart from the
  places of the identifier, the version token and the key of
  a transaction, and these from each other.

  Key definitions include:
    * `Descriptor.TracksId`
    * `Descriptor.Layout`, `Descriptor.KeyLayout`
    * `Descriptor.Holds`
    * `Descriptor.NamesApart`

  Main statements include:
    * `Descriptor.tracksId_of_member`
    * `Descriptor.layout_of_members`
    * `Descriptor.keyLayout_of_members`
    * `Descriptor.Holds.withToken_isOk`
-/

namespace DocumentMapper

namespace Descriptor

variable {S : Schema}
variable {d : Descriptor S}

------------------------------------------------------------
-- Identifiers and Tokens
------------------------------------------------------------

/- What was written as the identifier is read back. -/
def TracksId
    (d : Descriptor S) : Prop :=
  ∀ e id, id ≠ [] → d.idOf (d.withId e id) = some id

/- Identifier, token and attributes do not disturb each other. -/
structure Layout (d : Descriptor S) : Prop where
  idOf_withToken :
    ∀ e token e',
      d.withToken e token = .ok e' → d.idOf e' = d.idOf e
  idOf_set :
    ∀ field ∈ d.fields, ∀ e v,
      d.idOf (e.set field.index v) = d.idOf e
  value_withToken :
    ∀ field ∈ d.fields, ∀ e token e',
      d.withToken e token = .ok e' →
        e'.value field.index = e.value field.index

/- The version field can hold a token. -/
def Holds
    (d : Descriptor S)
    (token : UInt64) : Prop :=
  ∃ e e', d.withToken e token = .ok e'

/- What the version field can hold does not depend on the entity. -/
theorem Holds.withToken_isOk
    {token : UInt64}
    (h : d.Holds token)
    (e : Entity S) :
    ∃ e', d.withToken e token = .ok e' := by
  rcases h with ⟨other, other', hOther⟩
  unfold withToken at hOther ⊢
  generalize d.version? = version at hOther ⊢
  cases version with
  | none => exact ⟨e, rfl⟩
  | some field =>
      rcases field with ⟨name, binding⟩
      rcases binding with ⟨type, m⟩ | ⟨get, _ | set⟩
      · simp only [VersionBinding.set] at hOther ⊢
        cases hFits : type.ofToken? token with
        | some v => exact ⟨_, rfl⟩
        | none => simp [hFits] at hOther
      · exact ⟨_, rfl⟩
      · exact ⟨_, rfl⟩

/- A member at another place is not touched by a token. -/
theorem value_withToken_of_ne
    {name : Text}
    {type : TokenType}
    {m : Member S type.fieldType}
    {i : S.Index}
    {e e' : Entity S}
    {token : UInt64}
    (hVersion : d.version? = some ⟨name, .member type m⟩)
    (hNe : m.index ≠ i)
    (hSet : d.withToken e token = .ok e') :
    e'.value i = e.value i := by
  unfold withToken at hSet
  rw [hVersion] at hSet
  dsimp only [VersionBinding.set] at hSet
  split at hSet
  · cases hSet
    exact Entity.value_set_of_ne _ _ hNe
  · cases hSet

/- Members of different types are at different places. -/
theorem index_ne_of_type_ne
    {t u : FieldType}
    (m : Member S t)
    (n : Member S u)
    (h : t ≠ u) :
    m.index ≠ n.index := by
  intro hIndex
  rcases m with ⟨i, rfl⟩
  rcases n with ⟨j, rfl⟩
  dsimp only at hIndex
  subst hIndex
  exact h rfl

/- A text member is no member for tokens. -/
theorem index_ne_of_token
    (m : Member S .string)
    {type : TokenType}
    (n : Member S type.fieldType) :
    n.index ≠ m.index := by
  apply index_ne_of_type_ne n m
  cases type <;> simp [TokenType.fieldType]

/- A member reads back the identifier it was given. -/
theorem tracksId_of_member
    {m : Member S .string}
    (hId : d.id? = some (.member m)) :
    d.TracksId := by
  intro e id hNe
  simp [idOf, withId, hId, IdBinding.get, IdBinding.set, hNe]

/- An identifier in a member depends on that member only. -/
theorem idOf_of_value_eq
    {m : Member S .string}
    {e e' : Entity S}
    (hId : d.id? = some (.member m))
    (hSame : e'.value m.index = e.value m.index) :
    d.idOf e' = d.idOf e := by
  have hGet : e'.get m = e.get m := by
    unfold Entity.get
    rw [hSame]
  simp only [idOf, hId, Option.bind_some, IdBinding.get]
  rw [hGet]

/-
  Identifier and token in members of their own, and the
  attributes in others.
-/
theorem layout_of_members
    {m : Member S .string}
    {name : Text}
    {type : TokenType}
    {v : Member S type.fieldType}
    (hId : d.id? = some (.member m))
    (hVersion : d.version? = some ⟨name, .member type v⟩)
    (hFields :
      ∀ field ∈ d.fields,
        field.index ≠ m.index ∧ field.index ≠ v.index) :
    d.Layout where
  idOf_withToken _ _ _ hSet :=
    idOf_of_value_eq hId
      (value_withToken_of_ne hVersion (index_ne_of_token m v) hSet)
  idOf_set field hField _ _ :=
    idOf_of_value_eq hId
      (Entity.value_set_of_ne _ _ (hFields field hField).1)
  value_withToken field hField _ _ _ hSet :=
    value_withToken_of_ne hVersion (hFields field hField).2.symm
      hSet

------------------------------------------------------------
-- Attribute Names
------------------------------------------------------------

/-
  The names of the attributes are distinct, and none of them
  is the name for type metadata or for the version token.
-/
structure NamesApart
    (d : Descriptor S)
    (typeKey : Text) : Prop where
  distinct : (d.fields.map (·.name)).Nodup
  typeKey_ne : ∀ field ∈ d.fields, field.name ≠ typeKey
  version_ne :
    ∀ version, d.version? = some version →
      ∀ field ∈ d.fields, field.name ≠ version.name

------------------------------------------------------------
-- Transaction Keys
------------------------------------------------------------

/- The key of a transaction disturbs nothing else. -/
structure KeyLayout (d : Descriptor S) : Prop where
  keyApart : d.KeyApart
  idOf_withKey : ∀ e key, d.idOf (d.withKey e key) = d.idOf e
  value_withKey :
    ∀ field ∈ d.fields, ∀ e key,
      (d.withKey e key).value field.index = e.value field.index

/- A member at another place is not touched by a key. -/
theorem value_withKey_of_ne
    {i : S.Index}
    (hNe : ∀ b, d.key? = some b → b.member.index ≠ i)
    (e : Entity S)
    (key : Int64) :
    (d.withKey e key).value i = e.value i := by
  unfold withKey
  cases hKey : d.key? with
  | none => rfl
  | some b => exact Entity.value_set_of_ne _ _ (hNe b hKey)

/- Without a key there is nothing to disturb. -/
theorem keyLayout_of_none
    (hKey : d.key? = none) :
    d.KeyLayout where
  keyApart := keyApart_of_none hKey
  idOf_withKey e key := by
    unfold withKey
    rw [hKey]
  value_withKey field _ e key := by
    unfold withKey
    rw [hKey]

/- The key in a member of its own. -/
theorem keyLayout_of_members
    {m : Member S .string}
    {name : Text}
    {type : TokenType}
    {v : Member S type.fieldType}
    {b : KeyBinding S}
    (hId : d.id? = some (.member m))
    (hVersion : d.version? = some ⟨name, .member type v⟩)
    (hKey : d.key? = some b)
    (hNe : b.member.index ≠ v.index)
    (hFields : ∀ field ∈ d.fields, field.index ≠ b.member.index) :
    d.KeyLayout where
  keyApart := keyApart_of_ne hVersion hKey hNe
  idOf_withKey e key := by
    refine idOf_of_value_eq hId (value_withKey_of_ne ?_ e key)
    rintro other hOther
    cases hKey.symm.trans hOther
    apply index_ne_of_type_ne b.member m
    cases b.type <;> simp [KeyType.fieldType]
  value_withKey field hField e key := by
    refine value_withKey_of_ne ?_ e key
    rintro other hOther
    cases hKey.symm.trans hOther
    exact (hFields field hField).symm

end Descriptor

end DocumentMapper
