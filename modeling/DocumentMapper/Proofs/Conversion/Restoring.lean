import DocumentMapper.Proofs.Conversion.Standard
import DocumentMapper.Sample.Conversions

/-
  Values that are written as JSON values and read from them
  again, with no text in between.

  Whatever the registered conversions restore, the structure
  restores around them, for every value: JSON values and
  fractions of any kind included, which a text would not keep.
  Null is the only form that two values of an optional type
  could share, so what such a type holds must not be written
  as null.

  Key definitions include:
    * `Conversion.Exact`, `Conversions.Extends`
    * `Conversions.Builds`
    * `Conversions.Restored`
    * `FieldType.Settled`

  Main statements include:
    * `Conversion.standard_restores`
    * `Conversions.Restored.eq`
    * `Conversions.standard_builds_iff`
    * `Conversions.restored_by_read`
-/

namespace DocumentMapper

------------------------------------------------------------
-- Conversions That Restore
------------------------------------------------------------

/- Every value is read as it was before it was written. -/
def Conversion.Exact
    {t : FieldType}
    (c : Conversion t) : Prop :=
  ∀ v, ∃ j, c.write v = .ok j ∧ c.read j = .ok v

/-
  What the standard conversion of a type restores. A point in
  time is cut toward the epoch to whole milliseconds, and of a
  single-precision NaN only that it is one is kept.
-/
def FieldType.Restored :
    (t : FieldType) → t.Value → t.Value → Prop
  | .float, v, w =>
      if v.isNaN then w.isNaN = true else w = v
  | .time, v, w =>
      w.nanoseconds.toInt =
        v.nanoseconds.toInt.tdiv 1000000 * 1000000
  | _, v, w => w = v

namespace Conversion

/- The standard conversions restore what they have written. -/
theorem standard_restores
    {t : FieldType}
    {c : Conversion t}
    (h : Conversions.standard.find? t = some c)
    (v : t.Value) :
    ∃ j w,
      c.write v = .ok j ∧ c.read j = .ok w ∧ t.Restored v w := by
  cases t with
  | string | bool | int64 | uint64 | double | json =>
      cases h
      exact ⟨_, v, rfl, rfl, rfl⟩
  | int32 =>
      cases h
      exact ⟨_, v, rfl, Conversions.read_int32_of_asInt64? rfl, rfl⟩
  | float =>
      cases h
      refine ⟨_, _, rfl, rfl, ?_⟩
      rw [FieldType.Restored]
      split
      · rename_i hNaN
        exact Binary.isNaN_convert (by decide)
          (Binary.isNaN_convert (by decide) hNaN)
      · rename_i hNoNaN
        exact Binary.convert_widened_of_not_isNaN
          (by simpa using hNoNaN)
  | time =>
      cases h
      exact
        ⟨_, _, rfl, rfl,
          Conversions.toInt_milliseconds_mul v.nanoseconds⟩
  | record r => cases h
  | option t => cases h
  | list t => cases h
  | map t => cases h

end Conversion

namespace Conversions

/- Beside the standard conversions there are exact ones only. -/
def Extends
    (s : Conversions) : Prop :=
  ∀ t, s.find? t ≠ standard.find? t →
    ∀ c, s.find? t = some c → c.Exact

theorem standard_extends : standard.Extends :=
  fun _ hOther => absurd rfl hOther

/- An exact conversion can be added. -/
theorem Extends.add
    {s : Conversions}
    (h : s.Extends)
    {t : FieldType}
    {c : Conversion t}
    (hExact : c.Exact) :
    (s.add c).Extends := by
  intro u hOther c' hFind
  rw [Conversions.add] at hOther hFind
  dsimp only at hOther hFind
  split at hFind
  · rename_i hEq
    subst hEq
    cases hFind
    exact hExact
  · rename_i hNe
    rw [dif_neg hNe] at hOther
    exact h u hOther c' hFind

end Conversions

namespace Sample

/- A short number is read back from its 64-bit word. -/
theorem int32?_signed
    (n : Int32) :
    int32? (.signed n.toInt64) = some n := by
  simp [int32?, Json.integer?]

/- A short number is read back from the member it is bound to. -/
theorem bind_member?_int32?
    {members : List (Text × Json)}
    {key : String}
    {n : Int32}
    (h :
      Association.lookup? (Text.lit key) members =
        some (.signed n.toInt64)) :
    (member? (.object members) key).bind int32? = some n := by
  have hMember :
      member? (.object members) key =
        some (.signed n.toInt64) := h
  rw [hMember]
  exact int32?_signed n

theorem pointObject_exact : pointObject.Exact := by
  rintro ⟨values, hLength⟩
  rcases List.length_eq_two.mp hLength with ⟨x, y, rfl⟩
  refine ⟨_, rfl, ?_⟩
  simp only [pointObject, point, List.zip_cons_cons,
    List.zip_nil_left, List.map_cons, List.map_nil]
  rw [bind_member?_int32? (n := x) rfl,
    bind_member?_int32? (n := y) rfl]
  rfl

theorem noDefNumber_exact : noDefNumber.Exact := by
  rintro ⟨values, hLength⟩
  rcases List.length_eq_one_iff.mp hLength with ⟨x, rfl⟩
  refine ⟨_, rfl, ?_⟩
  simp [noDefNumber, int32?_signed]

end Sample

namespace Conversions

------------------------------------------------------------
-- Values That Are Restored
------------------------------------------------------------

/-
  What the own conversion of a type restores: a standard one
  what its kind of value allows, any other the value itself.
-/
def RestoredWhole
    (s : Conversions)
    (t : FieldType)
    (v w : t.Value) : Prop :=
  (s.find? t = standard.find? t → t.Restored v w) ∧
    (s.find? t ≠ standard.find? t → w = v)

/-
  What is read of a value that was written: a type with a
  conversion of its own is restored as a whole, any other part
  by part.
-/
def Restored
    (s : Conversions) :
    (t : FieldType) → t.Value → t.Value → Prop
  | .option t, v, w =>
      if (s.find? (.option t)).isSome then
        s.RestoredWhole (.option t) v w
      else
        Option.Rel (Restored s t) v w
  | .list t, v, w =>
      if (s.find? (.list t)).isSome then
        s.RestoredWhole (.list t) v w
      else
        List.Forall₂ (Restored s t) v w
  | .map t, v, w =>
      if (s.find? (.map t)).isSome then
        s.RestoredWhole (.map t) v w
      else
        List.Forall₂ (fun x y => x.1 = y.1 ∧ Restored s t x.2 y.2)
          v.entries w.entries
  | t, v, w => s.RestoredWhole t v w

end Conversions

/-
  A value that has a form of its own: no NaN of single
  precision, and points in time at whole milliseconds. Of all
  other types every value has one.
-/
def FieldType.Settled :
    (t : FieldType) → t.Value → Prop
  | .float, x => x.isNaN = false
  | .time, t => 1000000 ∣ t.nanoseconds.toInt
  | .option t, v => ∀ w ∈ v, Settled t w
  | .list t, items => ∀ v ∈ items, Settled t v
  | .map t, m => ∀ entry ∈ m.entries, Settled t entry.2
  | _, _ => True

/- The standard conversions restore settled values exactly. -/
theorem FieldType.Restored.eq
    {t : FieldType}
    {v w : t.Value}
    (h : t.Restored v w)
    (hSettled : t.Settled v) :
    w = v := by
  cases t with
  | float =>
      rw [FieldType.Restored, if_neg] at h
      · exact h
      · rw [show v.isNaN = false from hSettled]
        decide
  | time =>
      rw [FieldType.Restored, Int.tdiv_mul_cancel hSettled,
        Int64.toInt_inj] at h
      cases v
      cases w
      exact congrArg Instant.mk h
  | _ => exact h

namespace Conversions

variable {s : Conversions}
variable {t : FieldType}
variable {c : Conversion t}
variable {v w : t.Value}

/- A settled value is restored exactly by a conversion of its own. -/
theorem RestoredWhole.eq
    (h : s.RestoredWhole t v w)
    (hSettled : t.Settled v) :
    w = v := by
  by_cases hSame : s.find? t = standard.find? t
  · exact (h.1 hSame).eq hSettled
  · exact h.2 hSame

/- Lists are equal where related items are. -/
theorem eq_of_forall₂
    {α : Type}
    {R : α → α → Prop}
    {items others : List α}
    (h : List.Forall₂ R items others)
    (hEq : ∀ v ∈ items, ∀ w, R v w → w = v) :
    others = items := by
  induction h with
  | nil => rfl
  | cons hFirst _ ih =>
      rw [List.forall_mem_cons] at hEq
      rw [hEq.1 _ hFirst, ih hEq.2]

/- A settled value is restored exactly, whatever its type. -/
theorem Restored.eq
    (h : s.Restored t v w)
    (hSettled : t.Settled v) :
    w = v := by
  induction t with
  | option t ih =>
      rw [Restored] at h
      split at h
      · exact h.eq hSettled
      · cases h with
        | none => rfl
        | some hInner => rw [ih hInner (hSettled _ rfl)]
  | list t ih =>
      rw [Restored] at h
      split at h
      · exact h.eq hSettled
      · exact eq_of_forall₂ h fun v hMem w hItem =>
          ih hItem (hSettled v hMem)
  | map t ih =>
      rw [Restored] at h
      split at h
      · exact h.eq hSettled
      · have hEntries : w.entries = v.entries :=
          eq_of_forall₂ h fun x hMem y hEntry =>
            Prod.ext hEntry.1.symm
              (ih hEntry.2 (hSettled x hMem))
        cases v
        cases w
        cases hEntries
        rfl
  | _ => exact RestoredWhole.eq h hSettled

/- A type with a conversion of its own is restored by it. -/
theorem restored_iff_of_isSome
    (h : (s.find? t).isSome) :
    s.Restored t v w ↔ s.RestoredWhole t v w := by
  cases t <;> simp [Restored, h]

/- Every value of the type can be written, and is restored. -/
def Restores
    (s : Conversions)
    (t : FieldType) : Prop :=
  ∀ v, ∃ j w,
    s.write t v = .ok j ∧ s.read t j = .ok w ∧
      s.Restored t v w

/- A registered conversion restores the values of its type. -/
theorem Extends.restores_of_find?
    (h : s.Extends)
    (hFind : s.find? t = some c)
    (hConstructible : t.isConstructible = true) :
    s.Restores t := by
  intro v
  have hSome : (s.find? t).isSome := by simp [hFind]
  simp only [restored_iff_of_isSome hSome,
    write_of_find? hFind, read_of_find? hFind hConstructible]
  by_cases hSame : s.find? t = standard.find? t
  · rcases Conversion.standard_restores
        (hSame.symm.trans hFind) v with
      ⟨j, w, hWrite, hRead, hRestored⟩
    exact
      ⟨j, w, hWrite, hRead, fun _ => hRestored,
        fun hOther => absurd hSame hOther⟩
  · rcases h t hSame c hFind v with ⟨j, hWrite, hRead⟩
    exact
      ⟨j, v, hWrite, hRead, fun hEq => absurd hEq hSame,
        fun _ => rfl⟩

------------------------------------------------------------
-- Structure
------------------------------------------------------------

/- An optional type restores if what it holds is not null. -/
theorem restores_option
    (hFind : s.find? (.option t) = none)
    (hSupports : s.supports t = true)
    (hNull : ∀ v, s.write t v ≠ .ok .null)
    (ih : s.Restores t) :
    s.Restores (.option t) := by
  intro v
  have hParts (w : (FieldType.option t).Value) :
      s.Restored (.option t) v w ↔
        Option.Rel (s.Restored t) v w := by
    rw [Restored, hFind]
    rfl
  simp only [hParts]
  cases v with
  | none =>
      refine ⟨.null, none, ?_, read_null hFind, .none⟩
      rw [write_none hFind, if_pos hSupports]
  | some v =>
      rcases ih v with ⟨j, w, hWrite, hRead, hRestored⟩
      have hSome : j ≠ .null := by
        rintro rfl
        exact hNull v hWrite
      refine ⟨j, some w, ?_, ?_, .some hRestored⟩
      · rw [write_some hFind, hWrite]
      · rw [read_some hFind hSome, hRead]
        rfl

/- Items are restored one by one. -/
theorem Restores.items
    (h : s.Restores t)
    (items : List t.Value) :
    ∃ js others,
      List.Forall₂ (fun v j => s.write t v = .ok j) items js ∧
        List.Forall₂ (fun j w => s.read t j = .ok w) js others ∧
        List.Forall₂ (s.Restored t) items others := by
  induction items with
  | nil => exact ⟨[], [], .nil, .nil, .nil⟩
  | cons v rest ih =>
      rcases h v with ⟨j, w, hWrite, hRead, hRestored⟩
      rcases ih with ⟨js, others, hWrites, hReads, hAll⟩
      exact
        ⟨j :: js, w :: others, .cons hWrite hWrites,
          .cons hRead hReads, .cons hRestored hAll⟩

/- A list type restores if its inner type does. -/
theorem restores_list
    (hFind : s.find? (.list t) = none)
    (ih : s.Restores t) :
    s.Restores (.list t) := by
  intro items
  rcases ih.items items with
    ⟨js, others, hWrites, hReads, hAll⟩
  refine ⟨.array js, others, ?_, ?_, ?_⟩
  · rw [write_list hFind, writeItems_eq_ok_iff.mpr hWrites]
    rfl
  · rw [read_list hFind, readItems_of_forall₂ hReads]
  · rw [Restored, hFind]
    exact hAll

/- Entries are restored one by one, under their keys. -/
theorem Restores.entries
    (h : s.Restores t)
    (entries : List (Text × t.Value)) :
    ∃ (members : List (Text × Json))
      (others : List (Text × t.Value)),
      List.Forall₂
          (fun x m => x.1 = m.1 ∧ s.write t x.2 = .ok m.2)
          entries members ∧
        List.Forall₂
          (fun m w => m.1 = w.1 ∧ s.read t m.2 = .ok w.2)
          members others ∧
        List.Forall₂
          (fun x y => x.1 = y.1 ∧ s.Restored t x.2 y.2)
          entries others := by
  induction entries with
  | nil => exact ⟨[], [], .nil, .nil, .nil⟩
  | cons x rest ih =>
      rcases x with ⟨key, v⟩
      rcases h v with ⟨j, w, hWrite, hRead, hRestored⟩
      rcases ih with ⟨members, others, hWrites, hReads, hAll⟩
      exact
        ⟨(key, j) :: members, (key, w) :: others,
          .cons ⟨rfl, hWrite⟩ hWrites,
          .cons ⟨rfl, hRead⟩ hReads,
          .cons ⟨rfl, hRestored⟩ hAll⟩

/- A map type restores if its inner type does. -/
theorem restores_map
    (hFind : s.find? (.map t) = none)
    (ih : s.Restores t) :
    s.Restores (.map t) := by
  intro map
  rcases ih.entries map.entries with
    ⟨members, others, hWrites, hReads, hAll⟩
  rcases readMembers_of_forall₂ .empty hReads
      (ascending_of_keys_eq (keys_eq_of_forall₂ hAll).symm)
      nofun with
    ⟨m, hRead, hEntries⟩
  refine ⟨.object members, m, ?_, ?_, ?_⟩
  · rw [write_map hFind, writeEntries_eq_ok_iff.mpr hWrites]
    rfl
  · rw [read_map hFind, hRead]
  · rw [Restored, hFind]
    rw [TextMap.empty, List.nil_append] at hEntries
    rw [hEntries]
    exact hAll

------------------------------------------------------------
-- Types
------------------------------------------------------------

/-
  The types that are built from types with a conversion: lists
  and maps of such types, and optional ones as long as what
  they hold is never written as null. A type with a conversion
  must have a value to start from, or it cannot be read.
-/
inductive Builds
    (s : Conversions) : FieldType → Prop where
  | registered
      {t : FieldType}
      (hFind : (s.find? t).isSome)
      (hConstructible : t.isConstructible = true) :
      Builds s t
  | option
      {t : FieldType}
      (hInner : Builds s t)
      (hNull : ∀ v, s.write t v ≠ .ok .null) :
      Builds s (.option t)
  | list
      {t : FieldType}
      (hInner : Builds s t) :
      Builds s (.list t)
  | map
      {t : FieldType}
      (hInner : Builds s t) :
      Builds s (.map t)

/- What is built from types with a conversion is supported. -/
theorem Builds.supports
    (h : s.Builds t) :
    s.supports t = true := by
  induction h with
  | @registered t hFind _ =>
      cases t <;> simp [Conversions.supports, hFind]
  | option _ _ ih => simp [Conversions.supports, ih]
  | list _ ih => simp [Conversions.supports, ih]
  | map _ ih => simp [Conversions.supports, ih]

/- Types with a conversion are restored by it, others by structure. -/
theorem Extends.restores_or
    (h : s.Extends)
    (hConstructible : t.isConstructible = true)
    (hStructure : s.find? t = none → s.Restores t) :
    s.Restores t := by
  cases hFind : s.find? t with
  | none => exact hStructure hFind
  | some c => exact h.restores_of_find? hFind hConstructible

/-
  Whatever is built from types with a conversion is restored:
  by induction on how it is built, where a conversion of its
  own takes the place of the structure at any depth.
-/
theorem Extends.restores
    (h : s.Extends)
    (hBuilds : s.Builds t) :
    s.Restores t := by
  induction hBuilds with
  | registered hFind hConstructible =>
      rcases Option.isSome_iff_exists.mp hFind with ⟨c, hOwn⟩
      exact h.restores_of_find? hOwn hConstructible
  | option hInner hNull ih =>
      exact h.restores_or rfl fun hFind =>
        restores_option hFind hInner.supports hNull ih
  | list _ ih =>
      exact h.restores_or rfl fun hFind =>
        restores_list hFind ih
  | map _ ih =>
      exact h.restores_or rfl fun hFind =>
        restores_map hFind ih

------------------------------------------------------------
-- Types of the Standard Conversions
------------------------------------------------------------

end Conversions

namespace FieldType

/- The types of which the standard conversions write some value as null. -/
def writesNull : FieldType → Bool
  | .json => true
  | .option _ => true
  | _ => false

/-
  The types that the standard conversions restore: no records
  inside, and nothing optional that holds what could be null.
-/
def isRestorable : FieldType → Bool
  | .record _ => false
  | .option t => isRestorable t && !t.writesNull
  | .list t => isRestorable t
  | .map t => isRestorable t
  | _ => true

end FieldType

namespace Conversions

/- Null is what the absent value and JSON null are written as. -/
theorem standard_writesNull_iff
    (h : standard.supports t = true) :
    t.writesNull = true ↔
      ∃ v, standard.write t v = .ok .null := by
  cases t with
  | json =>
      simp only [FieldType.writesNull, true_iff]
      exact ⟨.null, rfl⟩
  | option t =>
      simp only [FieldType.writesNull, true_iff]
      have hInner : standard.supports t = true := h
      exact ⟨none, by rw [write_none rfl, if_pos hInner]⟩
  | list t =>
      simp only [FieldType.writesNull, Bool.false_eq_true,
        false_iff, not_exists]
      intro items hWrite
      rw [write_list rfl] at hWrite
      rcases Result.map_eq_ok_iff.mp hWrite with ⟨_, _, hEq⟩
      cases hEq
  | map t =>
      simp only [FieldType.writesNull, Bool.false_eq_true,
        false_iff, not_exists]
      intro map hWrite
      rw [write_map rfl] at hWrite
      rcases Result.map_eq_ok_iff.mp hWrite with ⟨_, _, hEq⟩
      cases hEq
  | record r => cases h
  | _ =>
      simp only [FieldType.writesNull, Bool.false_eq_true,
        false_iff, not_exists]
      intro v hWrite
      cases hWrite

/- The standard conversions build just the restorable types. -/
theorem standard_builds_iff :
    standard.Builds t ↔ t.isRestorable = true := by
  constructor
  · intro h
    induction h with
    | @registered t hFind _ =>
        cases t <;> first | rfl | cases hFind
    | @option t hInner hNull ih =>
        have hNotNull : t.writesNull = false := by
          rw [← Bool.not_eq_true,
            standard_writesNull_iff hInner.supports]
          exact fun ⟨v, hWrite⟩ => hNull v hWrite
        simp [FieldType.isRestorable, ih, hNotNull]
    | list _ ih => exact ih
    | map _ ih => exact ih
  · intro h
    induction t with
    | record r => cases h
    | option t ih =>
        simp only [FieldType.isRestorable, Bool.and_eq_true,
          Bool.not_eq_true'] at h
        have hInner := ih h.1
        refine .option hInner fun v hWrite => ?_
        have hNull :=
          (standard_writesNull_iff hInner.supports).mpr
            ⟨v, hWrite⟩
        rw [h.2] at hNull
        cases hNull
    | list t ih => exact .list (ih h)
    | map t ih => exact .map (ih h)
    | _ => exact .registered rfl rfl

/-
  Every value of a type that is built from types with a
  conversion can be written, and what is written is read as
  the value, points in time cut to whole milliseconds.
-/
theorem restored_by_read
    (s : Conversions)
    (hExtends : s.Extends)
    (t : FieldType)
    (hBuilds : s.Builds t)
    (v : t.Value) :
    ∃ j w,
      s.write t v = .ok j ∧ s.read t j = .ok w ∧
        s.Restored t v w ∧ (t.Settled v → w = v) := by
  rcases hExtends.restores hBuilds v with
    ⟨j, w, hWrite, hRead, hRestored⟩
  exact ⟨j, w, hWrite, hRead, hRestored, hRestored.eq⟩

/- The standard conversions with the one for points. -/
def withPoints : Conversions :=
  standard.add Sample.pointObject

theorem withPoints_extends : withPoints.Extends :=
  standard_extends.add Sample.pointObject_exact

/- An optional point under a text. -/
def samplePoints :
    (FieldType.map (.option (.record Sample.point))).Value :=
  .ofList [(Text.lit "a", some (Sample.Point.mk 1 2))]

theorem builds_points :
    withPoints.Builds
      (.map (.option (.record Sample.point))) := by
  refine .map (.option (.registered rfl rfl) ?_)
  intro v hWrite
  cases hWrite

theorem restored_by_read_of_samplePoints :
    withPoints.Extends ∧
      withPoints.Builds (.map (.option (.record Sample.point))) ∧
      ∃ j w,
        withPoints.write _ samplePoints = .ok j ∧
          withPoints.read _ j = .ok w ∧ w = samplePoints := by
  rcases restored_by_read withPoints withPoints_extends _
      builds_points samplePoints with
    ⟨j, w, hWrite, hRead, -, hEq⟩
  have hSettled :
      (FieldType.map (.option (.record Sample.point))).Settled
        samplePoints := by
    intro entry _ point _
    trivial
  exact
    ⟨withPoints_extends, builds_points, j, w, hWrite, hRead,
      hEq hSettled⟩

/- The standard conversions with one for unconstructible numbers. -/
def withNumbers : Conversions :=
  standard.add Sample.noDefNumber

/-
  A conversion restores unconstructible numbers, but nothing
  that holds them is read, although a list of them can be made
  from nothing.
-/
theorem unread_of_noDef :
    withNumbers.Extends ∧
      withNumbers.supports (.list (.record Sample.noDef)) =
        true ∧
      (FieldType.list (.record Sample.noDef)).isConstructible =
        true ∧
      withNumbers.write (.list (.record Sample.noDef))
          [⟨[1], rfl⟩] =
        .ok (.array [.signed 1]) ∧
      withNumbers.read (.list (.record Sample.noDef))
          (.array [.signed 1]) =
        .error
          (ConversionFault.notConstructible
            (.record Sample.noDef)).toError :=
  ⟨standard_extends.add Sample.noDefNumber_exact, rfl, rfl, rfl,
    rfl⟩

end Conversions

end DocumentMapper
