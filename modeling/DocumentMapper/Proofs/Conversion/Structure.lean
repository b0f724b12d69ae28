import DocumentMapper.Proofs.Conversion.RoundTrip

/-
  The structure through which a type is converted.

  A type without a conversion of its own is converted through
  the type inside of it: items and entries are converted in
  order, and the first failure ends it.

  Key definitions include:
    * `FieldType.Inside`

  Main statements include:
    * `Conversions.supports_iff`
    * `Conversions.writeItems_eq_mapM`,
      `Conversions.writeEntries_eq_mapM`
    * `Conversions.readItems_eq_mapM`,
      `Conversions.readMembers_eq_foldlM`
-/

namespace DocumentMapper

------------------------------------------------------------
-- Types Inside of Types
------------------------------------------------------------

namespace FieldType

/- A type is another one, or stands inside of it. -/
def Inside
    (u : FieldType) : FieldType → Prop
  | .option t => u = .option t ∨ Inside u t
  | .list t => u = .list t ∨ Inside u t
  | .map t => u = .map t ∨ Inside u t
  | t => u = t

/- A type is inside of itself. -/
theorem inside_self
    (t : FieldType) :
    t.Inside t := by
  cases t with
  | option _ | list _ | map _ => exact .inl rfl
  | _ => rfl

end FieldType

namespace Conversions

variable {s : Conversions}
variable {t : FieldType}

/-
  A type is supported exactly if it, or a type inside of it,
  has a conversion of its own.
-/
theorem supports_iff :
    s.supports t = true ↔
      ∃ u : FieldType, u.Inside t ∧ (s.find? u).isSome = true := by
  induction t with
  | option t ih | list t ih | map t ih =>
      simp only [supports, FieldType.Inside, Bool.or_eq_true, ih,
        or_and_right, exists_or, exists_eq_left]
  | _ => simp only [supports, FieldType.Inside, exists_eq_left]

/- A conversion inside of a type makes it supported. -/
theorem supports_of_inside
    {u : FieldType}
    {c : Conversion u}
    (hInside : u.Inside t)
    (hFind : s.find? u = some c) :
    s.supports t = true :=
  supports_iff.mpr ⟨u, hInside, by rw [hFind]; rfl⟩

/- Nothing inside of an unsupported type has a conversion. -/
theorem find?_of_unsupported
    {u : FieldType}
    (hInside : u.Inside t)
    (h : s.supports t = false) :
    s.find? u = none := by
  rw [Option.eq_none_iff_forall_ne_some]
  intro c hFind
  rw [supports_of_inside hInside hFind] at h
  cases h

------------------------------------------------------------
-- Items and Members
------------------------------------------------------------

section Sequences

variable {α : Type}

/- Items are written in order, up to the first failure. -/
theorem writeItems_eq_mapM
    (write : α → Result Json)
    (items : List α) :
    writeItems write items = items.mapM write := by
  induction items with
  | nil => rfl
  | cons item rest ih =>
      rw [writeItems, ih, List.mapM_cons]
      cases write item with
      | error e => rfl
      | ok j => cases rest.mapM write <;> rfl

/- Entries are written in order, and each under its key. -/
theorem writeEntries_eq_mapM
    (write : α → Result Json)
    (entries : List (Text × α)) :
    writeEntries write entries =
      entries.mapM fun x => (write x.2).map (x.1, ·) := by
  induction entries with
  | nil => rfl
  | cons x rest ih =>
      rcases x with ⟨key, v⟩
      rw [writeEntries, ih, List.mapM_cons]
      cases write v with
      | error e => rfl
      | ok j =>
          cases rest.mapM fun x => (write x.2).map (x.1, ·) <;> rfl

/- Items are read in order, up to the first failure. -/
theorem readItems_eq_mapM
    (read : Json → Result α)
    (items : List Json) :
    readItems read items = items.mapM read := by
  induction items with
  | nil => rfl
  | cons item rest ih =>
      rw [readItems, ih, List.mapM_cons]
      cases read item with
      | error e => rfl
      | ok v => cases rest.mapM read <;> rfl

/- Members are read in order, and each goes under its key. -/
theorem readMembers_eq_foldlM
    (read : Json → Result α)
    (found : TextMap α)
    (members : List (Text × Json)) :
    readMembers read found members =
      members.foldlM
        (fun found x => (read x.2).map (found.insert x.1))
        found := by
  induction members generalizing found with
  | nil => rfl
  | cons x rest ih =>
      rcases x with ⟨key, j⟩
      rw [readMembers, List.foldlM_cons]
      cases read j with
      | error e => rfl
      | ok v => exact ih _

end Sequences

------------------------------------------------------------
-- Structure
------------------------------------------------------------

/-
  Without a conversion of its own, a type is supported by its
  structure.
-/
theorem supports_option
    (h : s.find? (.option t) = none) :
    s.supports (.option t) = s.supports t := by
  rw [supports, h]
  rfl

theorem supports_list
    (h : s.find? (.list t) = none) :
    s.supports (.list t) = s.supports t := by
  rw [supports, h]
  rfl

theorem supports_map
    (h : s.find? (.map t) = none) :
    s.supports (.map t) = s.supports t := by
  rw [supports, h]
  rfl

/- An optional value is read from null, or as what it holds. -/
theorem read_option_eq
    (h : s.find? (.option t) = none)
    (j : Json) :
    s.read (.option t) j =
      match j with
      | .null => .ok none
      | j => (s.read t j).map some := by
  have hRead := read.eq_def s (.option t) j
  rw [h] at hRead
  apply hRead.trans
  cases j <;> rfl

/- A list is read from an array, and from nothing else. -/
theorem read_list_eq
    (h : s.find? (.list t) = none)
    (j : Json) :
    s.read (.list t) j =
      match j with
      | .array items => items.mapM (s.read t)
      | _ => .error ConversionFault.notArray.toError := by
  rw [read.eq_def, h]
  cases j with
  | array items => exact readItems_eq_mapM _ items
  | _ => rfl

/- A map is read from an object, and from nothing else. -/
theorem read_map_eq
    (h : s.find? (.map t) = none)
    (j : Json) :
    s.read (.map t) j =
      match j with
      | .object members =>
          members.foldlM
            (fun found x => (s.read t x.2).map (found.insert x.1))
            .empty
      | _ => .error ConversionFault.notObject.toError := by
  rw [read.eq_def, h]
  cases j with
  | object members => exact readMembers_eq_foldlM _ _ members
  | _ => rfl

end Conversions

end DocumentMapper
