import DocumentMapper.Proofs.Association
import DocumentMapper.Json.Basic

/-
  What the text of a JSON value tells of it.

  A whole number that is not negative is unsigned once it has
  been a text; nothing else about a value gets lost, provided
  that its fractions are finite and its keys are distinct.
  Other fractions become null, and of the values of a repeated
  key the last one is left.

  Key definitions include:
    * `Json.normal`
    * `Json.Finite`
    * `Json.Storable`
    * `Json.reread`

  Main statements include:
    * `Json.normalMembers_assign`
    * `Json.reread_eq_normal`
    * `Json.equal_of_normal_eq`
-/

namespace DocumentMapper

namespace Json

------------------------------------------------------------
-- Normal Forms
------------------------------------------------------------

mutual

/- A value with its whole numbers in the form a text gives them. -/
def normal : Json → Json
  | .signed n =>
      if 0 ≤ n then .unsigned n.toUInt64 else .signed n
  | .array items => .array (normalItems items)
  | .object members => .object (normalMembers members)
  | value => value

/- Items in normal form. -/
def normalItems : List Json → List Json
  | [] => []
  | item :: rest => normal item :: normalItems rest

/- Members with values in normal form. -/
def normalMembers : List (Text × Json) → List (Text × Json)
  | [] => []
  | (key, value) :: rest =>
      (key, normal value) :: normalMembers rest

end

mutual

/- A normal form is its own normal form. -/
@[simp]
theorem normal_normal
    (j : Json) :
    j.normal.normal = j.normal := by
  cases j with
  | signed n =>
      by_cases hSign : 0 ≤ n <;> simp [normal, hSign]
  | array items => simp [normal, normalItems_normalItems items]
  | object members =>
      simp [normal, normalMembers_normalMembers members]
  | _ => rfl

/- Items in normal form stay as they are. -/
theorem normalItems_normalItems
    (items : List Json) :
    normalItems (normalItems items) = normalItems items := by
  cases items with
  | nil => rfl
  | cons item rest =>
      simp [normalItems, normal_normal item,
        normalItems_normalItems rest]

/- Members in normal form stay as they are. -/
theorem normalMembers_normalMembers
    (members : List (Text × Json)) :
    normalMembers (normalMembers members) =
      normalMembers members := by
  cases members with
  | nil => rfl
  | cons member rest =>
      rcases member with ⟨key, value⟩
      simp [normalMembers, normal_normal value,
        normalMembers_normalMembers rest]

end

/- Only null has the normal form of null. -/
@[simp]
theorem normal_eq_null_iff
    {j : Json} :
    j.normal = .null ↔ j = .null := by
  cases j with
  | signed n =>
      simp only [normal]
      split <;> simp
  | _ => simp [normal]

/- Binding a key binds it in the normal form. -/
theorem normalMembers_assign
    (key : Text)
    (value : Json)
    (members : List (Text × Json)) :
    normalMembers (Association.assign key value members) =
      Association.assign key value.normal
        (normalMembers members) := by
  induction members with
  | nil => rfl
  | cons member rest ih =>
      rcases member with ⟨k, v⟩
      by_cases hKey : k = key
      · simp [normalMembers, Association.assign, hKey]
      · simp [normalMembers, Association.assign, hKey, ih]

/- Members are merged in their normal forms. -/
theorem normalMembers_merge
    (members more : List (Text × Json)) :
    normalMembers (Association.merge members more) =
      Association.merge (normalMembers members)
        (normalMembers more) := by
  induction more generalizing members with
  | nil => rfl
  | cons member rest ih =>
      rcases member with ⟨k, v⟩
      show normalMembers
          (Association.merge (Association.assign k v members)
            rest) = _
      rw [ih, normalMembers_assign]
      rfl

------------------------------------------------------------
-- Values That Survive
------------------------------------------------------------

mutual

/- No fraction inside a value is infinite or a NaN. -/
def Finite : Json → Prop
  | .real x => x.isFinite = true
  | .array items => ItemsFinite items
  | .object members => MembersFinite members
  | _ => True

/- No fraction inside a list of items is infinite or a NaN. -/
def ItemsFinite : List Json → Prop
  | [] => True
  | item :: rest => Finite item ∧ ItemsFinite rest

/- No fraction inside the values of members is infinite or a NaN. -/
def MembersFinite : List (Text × Json) → Prop
  | [] => True
  | (_, value) :: rest => Finite value ∧ MembersFinite rest

end

/- A value of which a text tells all but the form of its numbers. -/
structure Storable (j : Json) : Prop where
  finite : j.Finite
  distinct : j.KeysDistinct

/- Items survive one by one. -/
theorem storable_array_iff
    {items : List Json} :
    (Json.array items).Storable ↔ ∀ j ∈ items, j.Storable := by
  constructor
  · rintro ⟨hFinite, hDistinct⟩
    unfold Finite at hFinite
    unfold KeysDistinct at hDistinct
    induction items with
    | nil => simp
    | cons item rest ih =>
        rw [ItemsFinite] at hFinite
        rw [ItemsDistinct] at hDistinct
        rw [List.forall_mem_cons]
        exact ⟨⟨hFinite.1, hDistinct.1⟩,
          ih hFinite.2 hDistinct.2⟩
  · intro h
    suffices hBoth : ItemsFinite items ∧ ItemsDistinct items by
      refine ⟨?_, ?_⟩
      · unfold Finite
        exact hBoth.1
      · unfold KeysDistinct
        exact hBoth.2
    induction items with
    | nil => exact ⟨trivial, trivial⟩
    | cons item rest ih =>
        rw [List.forall_mem_cons] at h
        rcases ih h.2 with ⟨hFinite, hDistinct⟩
        exact ⟨⟨h.1.finite, hFinite⟩, ⟨h.1.distinct, hDistinct⟩⟩

/- Members survive one by one, if their keys are distinct. -/
theorem storable_object_iff
    {members : List (Text × Json)} :
    (Json.object members).Storable ↔
      (Association.keys members).Nodup ∧
        ∀ m ∈ members, m.2.Storable := by
  constructor
  · rintro ⟨hFinite, hDistinct⟩
    unfold Finite at hFinite
    unfold KeysDistinct at hDistinct
    refine ⟨hDistinct.1, ?_⟩
    replace hDistinct := hDistinct.2
    induction members with
    | nil => simp
    | cons member rest ih =>
        rw [MembersFinite] at hFinite
        rw [MembersDistinct] at hDistinct
        rw [List.forall_mem_cons]
        exact ⟨⟨hFinite.1, hDistinct.1⟩,
          ih hFinite.2 hDistinct.2⟩
  · rintro ⟨hKeys, h⟩
    suffices hBoth :
        MembersFinite members ∧ MembersDistinct members by
      refine ⟨?_, ?_⟩
      · unfold Finite
        exact hBoth.1
      · unfold KeysDistinct
        exact ⟨hKeys, hBoth.2⟩
    clear hKeys
    induction members with
    | nil => exact ⟨trivial, trivial⟩
    | cons member rest ih =>
        rw [List.forall_mem_cons] at h
        rcases ih h.2 with ⟨hFinite, hDistinct⟩
        exact ⟨⟨h.1.finite, hFinite⟩, ⟨h.1.distinct, hDistinct⟩⟩

------------------------------------------------------------
-- What a Text Is Read As
------------------------------------------------------------

mutual

/- The value that the text of a value is read as. -/
def reread : Json → Json
  | .signed n =>
      if 0 ≤ n then .unsigned n.toUInt64 else .signed n
  | .real x => if x.isFinite then .real x else .null
  | .array items => .array (rereadItems items)
  | .object members => ofMembers (rereadMembers members)
  | value => value

/- Items as they are read. -/
def rereadItems : List Json → List Json
  | [] => []
  | item :: rest => reread item :: rereadItems rest

/- Members as they are read, one by one. -/
def rereadMembers : List (Text × Json) → List (Text × Json)
  | [] => []
  | (key, value) :: rest =>
      (key, reread value) :: rereadMembers rest

end

/- Strings are read as they are, and nothing else as a string. -/
theorem reread_eq_string_iff
    {j : Json}
    {s : Text} :
    j.reread = .string s ↔ j = .string s := by
  cases j with
  | signed n => by_cases hSign : 0 ≤ n <;> simp [reread, hSign]
  | real x => cases hFinite : x.isFinite <;> simp [reread, hFinite]
  | object members => simp [reread, ofMembers]
  | _ => simp [reread]

/- Members are read under their keys. -/
@[simp]
theorem keys_rereadMembers
    (members : List (Text × Json)) :
    Association.keys (rereadMembers members) =
      Association.keys members := by
  induction members with
  | nil => rfl
  | cons member rest ih =>
      rcases member with ⟨key, value⟩
      simp only [Association.keys] at ih
      simp [rereadMembers, Association.keys, ih]

/- What a key finds is read like any other value. -/
theorem lookup?_rereadMembers
    (key : Text)
    (members : List (Text × Json)) :
    Association.lookup? key (rereadMembers members) =
      (Association.lookup? key members).map reread := by
  induction members with
  | nil => rfl
  | cons member rest ih =>
      rcases member with ⟨k, value⟩
      by_cases hKey : k = key
      · simp [rereadMembers, Association.lookup?, hKey]
      · simp [rereadMembers, Association.lookup?, hKey, ih]

/- Members under distinct keys are read as they stand. -/
theorem reread_object
    {members : List (Text × Json)}
    (hKeys : (Association.keys members).Nodup) :
    (Json.object members).reread =
      .object (rereadMembers members) := by
  have hNodup :
      (Association.keys ([] ++ rereadMembers members)).Nodup := by
    rw [List.nil_append, keys_rereadMembers]
    exact hKeys
  rw [reread, ofMembers, Association.merge_of_nodup hNodup,
    List.nil_append]

mutual

/- A value that survives is read as its normal form. -/
theorem reread_eq_normal
    {j : Json}
    (hStorable : j.Storable) :
    j.reread = j.normal := by
  cases j with
  | real x =>
      have hFinite : x.isFinite = true := hStorable.finite
      rw [reread, if_pos hFinite]
      rfl
  | array items =>
      rw [storable_array_iff] at hStorable
      rw [reread, normal, rereadItems_eq_normalItems hStorable]
  | object members =>
      rcases storable_object_iff.mp hStorable with
        ⟨hKeys, hMembers⟩
      rw [reread_object hKeys, normal,
        rereadMembers_eq_normalMembers hMembers]
  | signed n => rw [reread, normal]
  | _ => rfl

/- Items that survive are read as their normal forms. -/
theorem rereadItems_eq_normalItems
    {items : List Json}
    (hStorable : ∀ j ∈ items, j.Storable) :
    rereadItems items = normalItems items := by
  cases items with
  | nil => rfl
  | cons item rest =>
      rw [List.forall_mem_cons] at hStorable
      rw [rereadItems, normalItems,
        reread_eq_normal hStorable.1,
        rereadItems_eq_normalItems hStorable.2]

/- Members that survive are read as their normal forms. -/
theorem rereadMembers_eq_normalMembers
    {members : List (Text × Json)}
    (hStorable : ∀ m ∈ members, m.2.Storable) :
    rereadMembers members = normalMembers members := by
  cases members with
  | nil => rfl
  | cons member rest =>
      rcases member with ⟨key, value⟩
      rw [List.forall_mem_cons] at hStorable
      rw [rereadMembers, normalMembers,
        reread_eq_normal hStorable.1,
        rereadMembers_eq_normalMembers hStorable.2]

end

------------------------------------------------------------
-- Equality
------------------------------------------------------------

/- A normal form stands for the same 64-bit word. -/
theorem asInt64?_normal
    (j : Json) :
    j.normal.asInt64? = j.asInt64? := by
  cases j with
  | signed n =>
      simp only [normal]
      split <;> simp [asInt64?]
  | _ => simp [normal, asInt64?]

/- Whole numbers that stand for one word are equal. -/
theorem sameNumber_of_asInt64?_eq
    {a b : Json}
    {n : Int64}
    (ha : a.asInt64? = some n)
    (hb : b.asInt64? = some n) :
    a.sameNumber b = true := by
  cases a <;> cases b <;>
    simp_all [asInt64?, sameNumber]

/- A whole number has the normal form of a whole number only. -/
theorem equal_of_asInt64?
    {a b : Json}
    {n : Int64}
    (ha : a.asInt64? = some n)
    (h : a.normal = b.normal) :
    a.equal b = true := by
  have hb : b.asInt64? = some n := by
    rw [← asInt64?_normal, ← h, asInt64?_normal, ha]
  have hSame := sameNumber_of_asInt64?_eq ha hb
  cases a with
  | unsigned m => simpa [equal] using hSame
  | signed m => simpa [equal] using hSame
  | _ => simp [asInt64?] at ha

mutual

/- A finite value equals whatever has its normal form. -/
theorem equal_of_normal_eq
    {a b : Json}
    (hFinite : b.Finite)
    (h : a.normal = b.normal) :
    a.equal b = true := by
  cases a with
  | unsigned n => exact equal_of_asInt64? rfl h
  | signed n => exact equal_of_asInt64? rfl h
  | null =>
      have hb := normal_eq_null_iff.mp h.symm
      subst hb
      rfl
  | bool x =>
      cases b with
      | signed n => grind [normal]
      | _ => simp_all [normal, equal]
  | string s =>
      cases b with
      | signed n => grind [normal]
      | _ => simp_all [normal, equal]
  | real x =>
      cases b with
      | signed n => grind [normal]
      | real y =>
          simp only [normal, Json.real.injEq] at h
          subst h
          simp only [Finite, Binary.isFinite,
            decide_eq_true_eq] at hFinite
          simp [equal, sameNumber, Binary.sameValue, Binary.isNaN,
            Nat.le_of_lt hFinite]
      | _ => simp_all [normal]
  | array items =>
      cases b with
      | signed n => grind [normal]
      | array others =>
          simp only [normal, Json.array.injEq] at h
          rw [Finite] at hFinite
          rw [equal]
          exact equalItems_of_normal_eq hFinite h
      | _ => simp_all [normal]
  | object members =>
      cases b with
      | signed n => grind [normal]
      | object others =>
          simp only [normal, Json.object.injEq] at h
          rw [Finite] at hFinite
          rw [equal]
          exact equalMembers_of_normal_eq hFinite h
      | _ => simp_all [normal]

/- Finite items equal whatever has their normal form. -/
theorem equalItems_of_normal_eq
    {a b : List Json}
    (hFinite : ItemsFinite b)
    (h : normalItems a = normalItems b) :
    equalItems a b = true := by
  cases a with
  | nil =>
      cases b with
      | nil => rfl
      | cons y b => simp [normalItems] at h
  | cons x a =>
      cases b with
      | nil => simp [normalItems] at h
      | cons y b =>
          simp only [normalItems, List.cons.injEq] at h
          rw [ItemsFinite] at hFinite
          rw [equalItems, equal_of_normal_eq hFinite.1 h.1,
            equalItems_of_normal_eq hFinite.2 h.2]
          rfl

/- Finite members equal whatever has their normal form. -/
theorem equalMembers_of_normal_eq
    {a b : List (Text × Json)}
    (hFinite : MembersFinite b)
    (h : normalMembers a = normalMembers b) :
    equalMembers a b = true := by
  cases a with
  | nil =>
      cases b with
      | nil => rfl
      | cons y b => simp [normalMembers] at h
  | cons x a =>
      cases b with
      | nil => simp [normalMembers] at h
      | cons y b =>
          rcases x with ⟨k, x⟩
          rcases y with ⟨l, y⟩
          simp only [normalMembers, List.cons.injEq,
            Prod.mk.injEq] at h
          rw [MembersFinite] at hFinite
          rw [equalMembers, h.1.1,
            equal_of_normal_eq hFinite.1 h.1.2,
            equalMembers_of_normal_eq hFinite.2 h.2]
          simp

end

end Json

end DocumentMapper
