import DocumentMapper.Conversion.Standard
import DocumentMapper.Proofs.Conversion.Structure
import DocumentMapper.Sample.Conversions

/-
  How far a registered conversion reaches.

  What a service makes of a type rests on the conversions of
  the types inside of it. A conversion that is registered for
  a type is therefore used wherever values of that type stand,
  up to the nearest enclosing type with a conversion of its
  own, and nowhere else.

  Key definitions include:
    * `Wrapping`, `Wrapping.around`
    * `Wrapping.writeWith`, `Wrapping.readWith`
    * `Conversion.reader`
    * `Conversions.TreatAlike`
    * `Conversions.Passes`

  Main statements include:
    * `FieldType.inside_iff`
    * `Conversions.treatAlike_of_inside`
    * `Conversions.treatAlike_of_not_passes`
    * `Conversions.write_add`, `Conversions.read_add`
    * `Conversions.confined_to_type`
-/

namespace DocumentMapper

------------------------------------------------------------
-- Wrappings
------------------------------------------------------------

/- What stands around a type in another one. -/
inductive Wrapping where
  | bare
  | option (w : Wrapping)
  | list (w : Wrapping)
  | map (w : Wrapping)
  deriving DecidableEq, Repr

namespace Wrapping

/- The type with the wrapping around it. -/
@[reducible]
def around : Wrapping → FieldType → FieldType
  | .bare, u => u
  | .option w, u => .option (w.around u)
  | .list w, u => .list (w.around u)
  | .map w, u => .map (w.around u)

variable {u : FieldType}

/-
  Write what is inside in one way, and the wrapping as it is:
  absent values as null, items in order, and entries under
  their keys.
-/
def writeWith
    (write : u.Value → Result Json) :
    (w : Wrapping) → (w.around u).Value → Result Json
  | .bare, v => write v
  | .option _, none => .ok .null
  | .option w, some v => writeWith write w v
  | .list w, items => (items.mapM (writeWith write w)).map .array
  | .map w, m =>
      (m.entries.mapM fun x =>
        (writeWith write w x.2).map (x.1, ·)).map .object

/-
  Read what is inside in one way, and the wrapping as it is:
  null as an absent value, items in order, and members under
  their keys.
-/
def readWith
    (read : Json → Result u.Value) :
    (w : Wrapping) → Json → Result (w.around u).Value
  | .bare, j => read j
  | .option w, j =>
      match j with
      | .null => .ok none
      | j => (readWith read w j).map some
  | .list w, j =>
      match j with
      | .array items => items.mapM (readWith read w)
      | _ => .error ConversionFault.notArray.toError
  | .map w, j =>
      match j with
      | .object members =>
          members.foldlM
            (fun found x =>
              (readWith read w x.2).map (found.insert x.1))
            TextMap.empty
      | _ => .error ConversionFault.notObject.toError

/- Types around a type are no smaller than it. -/
theorem sizeOf_le_around
    (w : Wrapping)
    (u : FieldType) :
    sizeOf u ≤ sizeOf (w.around u) := by
  induction w with
  | bare => exact Nat.le_refl _
  | option w ih | list w ih | map w ih =>
      simp only [around, FieldType.option.sizeOf_spec,
        FieldType.list.sizeOf_spec, FieldType.map.sizeOf_spec]
      omega

end Wrapping

/- A type is inside of another one if that is wrapped around it. -/
theorem FieldType.inside_iff
    {u t : FieldType} :
    u.Inside t ↔ ∃ w : Wrapping, w.around u = t := by
  constructor
  · intro hInside
    induction t with
    | option t ih =>
        rcases hInside with rfl | hInner
        · exact ⟨.bare, rfl⟩
        · rcases ih hInner with ⟨w, rfl⟩
          exact ⟨.option w, rfl⟩
    | list t ih =>
        rcases hInside with rfl | hInner
        · exact ⟨.bare, rfl⟩
        · rcases ih hInner with ⟨w, rfl⟩
          exact ⟨.list w, rfl⟩
    | map t ih =>
        rcases hInside with rfl | hInner
        · exact ⟨.bare, rfl⟩
        · rcases ih hInner with ⟨w, rfl⟩
          exact ⟨.map w, rfl⟩
    | _ => exact ⟨.bare, hInside⟩
  · rintro ⟨w, rfl⟩
    induction w with
    | bare => exact u.inside_self
    | option w ih | list w ih | map w ih => exact .inr ih

/-
  What a registered conversion reads: a type that cannot be
  made from nothing is refused, whatever the conversion does.
-/
def Conversion.reader
    {u : FieldType}
    (c : Conversion u)
    (j : Json) : Result u.Value :=
  if u.isConstructible then
    c.read j
  else
    .error (ConversionFault.notConstructible u).toError

namespace Conversions

variable {s s' : Conversions}
variable {t u : FieldType}

------------------------------------------------------------
-- Services That Agree
------------------------------------------------------------

/- Two services make the same of a type. -/
structure TreatAlike
    (s s' : Conversions)
    (t : FieldType) : Prop where
  supports : s.supports t = s'.supports t
  write : s.write t = s'.write t
  read : s.read t = s'.read t

/- A type with a conversion is treated as that conversion says. -/
theorem treatAlike_of_find?
    {c : Conversion t}
    (h : s.find? t = some c)
    (h' : s'.find? t = some c) :
    TreatAlike s s' t where
  supports := by
    rw [supports_of_inside t.inside_self h,
      supports_of_inside t.inside_self h']
  write := by
    funext v
    rw [write_of_find? h, write_of_find? h']
  read := by
    funext j
    rw [read.eq_def, read.eq_def s', h, h']

/-
  Two services with the same conversion for a type, if any,
  treat it alike if they treat its structure alike.
-/
theorem treatAlike_or
    (hSame : s.find? t = s'.find? t)
    (hStructure :
      s.find? t = none → s'.find? t = none → TreatAlike s s' t) :
    TreatAlike s s' t := by
  cases hFind : s.find? t with
  | some c => exact treatAlike_of_find? hFind (hSame ▸ hFind)
  | none => exact hStructure hFind (hSame ▸ hFind)

theorem treatAlike_option
    (h : TreatAlike s s' t)
    (hFind : s.find? (.option t) = none)
    (hFind' : s'.find? (.option t) = none) :
    TreatAlike s s' (.option t) where
  supports := by
    rw [supports_option hFind, supports_option hFind', h.supports]
  write := by
    funext v
    cases v with
    | none => rw [write_none hFind, write_none hFind', h.supports]
    | some v => rw [write_some hFind, write_some hFind', h.write]
  read := by
    funext j
    rw [read_option_eq hFind, read_option_eq hFind', h.read]

theorem treatAlike_list
    (h : TreatAlike s s' t)
    (hFind : s.find? (.list t) = none)
    (hFind' : s'.find? (.list t) = none) :
    TreatAlike s s' (.list t) where
  supports := by
    rw [supports_list hFind, supports_list hFind', h.supports]
  write := by
    funext items
    rw [write_list hFind, write_list hFind', h.write]
  read := by
    funext j
    rw [read_list_eq hFind, read_list_eq hFind', h.read]

theorem treatAlike_map
    (h : TreatAlike s s' t)
    (hFind : s.find? (.map t) = none)
    (hFind' : s'.find? (.map t) = none) :
    TreatAlike s s' (.map t) where
  supports := by
    rw [supports_map hFind, supports_map hFind', h.supports]
  write := by
    funext m
    rw [write_map hFind, write_map hFind', h.write]
  read := by
    funext j
    rw [read_map_eq hFind, read_map_eq hFind', h.read]

/-
  A type is treated by the conversions of the types inside of
  it: by induction on the type, where a conversion of its own
  takes the place of the structure.
-/
theorem treatAlike_of_inside
    (h : ∀ inner : FieldType,
      inner.Inside t → s.find? inner = s'.find? inner) :
    TreatAlike s s' t := by
  have hSelf := h t t.inside_self
  induction t with
  | option t ih =>
      have hInner := ih (fun _ hIn => h _ (.inr hIn))
        (h t (.inr t.inside_self))
      exact treatAlike_or hSelf (treatAlike_option hInner)
  | list t ih =>
      have hInner := ih (fun _ hIn => h _ (.inr hIn))
        (h t (.inr t.inside_self))
      exact treatAlike_or hSelf (treatAlike_list hInner)
  | map t ih =>
      have hInner := ih (fun _ hIn => h _ (.inr hIn))
        (h t (.inr t.inside_self))
      exact treatAlike_or hSelf (treatAlike_map hInner)
  | _ =>
      refine treatAlike_or hSelf fun hFind hFind' => ⟨?_, ?_, ?_⟩
      · simp [supports, hFind, hFind']
      · funext v
        rw [write.eq_def, write.eq_def s', hFind, hFind']
      · funext j
        rw [read.eq_def, read.eq_def s', hFind, hFind']

------------------------------------------------------------
-- Registering
------------------------------------------------------------

/- What is registered for a type is found for it. -/
theorem find?_add_self
    (s : Conversions)
    (c : Conversion u) :
    (s.add c).find? u = some c :=
  dif_pos rfl

/- Other types have the conversions that they had. -/
theorem find?_add_of_ne
    (s : Conversions)
    (c : Conversion u)
    (h : t ≠ u) :
    (s.add c).find? t = s.find? t :=
  dif_neg (Ne.symm h)

/- Registering for two types takes no order. -/
theorem add_comm_of_ne
    (s : Conversions)
    (c : Conversion u)
    (d : Conversion t)
    (h : t ≠ u) :
    (s.add c).add d = (s.add d).add c := by
  unfold add
  congr 1
  funext v
  by_cases hFirst : u = v
  · subst hFirst
    simp [h]
  · simp [hFirst]

/- No type around the inner one has a conversion of its own. -/
def Passes
    (s : Conversions) : Wrapping → FieldType → Prop
  | .bare, _ => True
  | .option w, u =>
      s.find? (.option (w.around u)) = none ∧ Passes s w u
  | .list w, u =>
      s.find? (.list (w.around u)) = none ∧ Passes s w u
  | .map w, u =>
      s.find? (.map (w.around u)) = none ∧ Passes s w u

/- A type with something around it keeps the conversion that it had. -/
theorem find?_add_around
    (s : Conversions)
    (c : Conversion u)
    {w : Wrapping}
    (h : w ≠ .bare) :
    (s.add c).find? (w.around u) = s.find? (w.around u) := by
  apply find?_add_of_ne
  intro hSame
  have hSize := congrArg sizeOf hSame
  cases w with
  | bare => exact h rfl
  | option w | list w | map w =>
      have hLarger := w.sizeOf_le_around u
      simp at hSize
      omega

/- A conversion of the inner type is not one around it. -/
theorem Passes.add
    (c : Conversion u)
    {w : Wrapping}
    (h : s.Passes w u) :
    (s.add c).Passes w u := by
  induction w with
  | bare => exact trivial
  | option w ih =>
      have hAround :=
        find?_add_around s c (w := .option w) (by simp)
      exact ⟨hAround.trans h.1, ih h.2⟩
  | list w ih =>
      have hAround :=
        find?_add_around s c (w := .list w) (by simp)
      exact ⟨hAround.trans h.1, ih h.2⟩
  | map w ih =>
      have hAround :=
        find?_add_around s c (w := .map w) (by simp)
      exact ⟨hAround.trans h.1, ih h.2⟩

/- Where a type around it has a conversion, that is what is used. -/
theorem treatAlike_of_not_passes
    (c : Conversion u)
    {w : Wrapping}
    (h : ¬ s.Passes w u) :
    TreatAlike (s.add c) s (w.around u) := by
  induction w with
  | bare => exact absurd trivial h
  | option w ih =>
      exact treatAlike_or
        (find?_add_around s c (w := .option w) (by simp))
        fun hFind hFind' =>
          treatAlike_option (ih fun hInner => h ⟨hFind', hInner⟩)
            hFind hFind'
  | list w ih =>
      exact treatAlike_or
        (find?_add_around s c (w := .list w) (by simp))
        fun hFind hFind' =>
          treatAlike_list (ih fun hInner => h ⟨hFind', hInner⟩)
            hFind hFind'
  | map w ih =>
      exact treatAlike_or
        (find?_add_around s c (w := .map w) (by simp))
        fun hFind hFind' =>
          treatAlike_map (ih fun hInner => h ⟨hFind', hInner⟩)
            hFind hFind'

------------------------------------------------------------
-- Uses of a Conversion
------------------------------------------------------------

/- A type is supported wherever the one inside of it is registered. -/
theorem supports_add
    (s : Conversions)
    (c : Conversion u)
    (w : Wrapping) :
    (s.add c).supports (w.around u) = true :=
  supports_of_inside (FieldType.inside_iff.mpr ⟨w, rfl⟩)
    (find?_add_self s c)

/-
  What stands inside is written by the registered conversion,
  and the wrapping around it as it is.
-/
theorem write_add
    (c : Conversion u)
    {w : Wrapping}
    (h : s.Passes w u) :
    (s.add c).write (w.around u) = w.writeWith c.write := by
  induction w with
  | bare =>
      funext v
      rw [write_of_find? (find?_add_self s c)]
      rfl
  | option w ih =>
      have hFind := (h.add c).1
      funext v
      cases v with
      | none => rw [write_none hFind, if_pos (supports_add s c w)]; rfl
      | some v => rw [write_some hFind, ih h.2]; rfl
  | list w ih =>
      have hFind := (h.add c).1
      funext items
      rw [write_list hFind, writeItems_eq_mapM, ih h.2]
      rfl
  | map w ih =>
      have hFind := (h.add c).1
      funext m
      rw [write_map hFind, writeEntries_eq_mapM, ih h.2]
      rfl

/-
  What stands inside is read by the registered conversion, and
  the wrapping around it as it is.
-/
theorem read_add
    (c : Conversion u)
    {w : Wrapping}
    (h : s.Passes w u) :
    (s.add c).read (w.around u) = w.readWith c.reader := by
  induction w with
  | bare =>
      funext j
      rw [read.eq_def, find?_add_self]
      rfl
  | option w ih =>
      have hFind := (h.add c).1
      funext j
      rw [read_option_eq hFind, ih h.2]
      rfl
  | list w ih =>
      have hFind := (h.add c).1
      funext j
      rw [read_list_eq hFind, ih h.2]
      rfl
  | map w ih =>
      have hFind := (h.add c).1
      funext j
      rw [read_map_eq hFind, ih h.2]
      rfl

------------------------------------------------------------
-- Keys
------------------------------------------------------------

/- A map is written under the keys that it has. -/
theorem keys_of_write_map
    (hFind : s.find? (.map t) = none)
    {m : TextMap t.Value}
    {j : Json}
    (h : s.write (.map t) m = .ok j) :
    ∃ members,
      j = .object members ∧
        Association.keys members = Association.keys m.entries := by
  rw [write_map hFind] at h
  rcases Result.map_eq_ok_iff.mp h with ⟨members, hEntries, rfl⟩
  rw [writeEntries_eq_ok_iff] at hEntries
  exact ⟨members, rfl, (keys_eq_of_forall₂ hEntries).symm⟩

/- Reading members adds their keys to those of the map. -/
theorem isSome_get?_of_readMembers
    {α : Type}
    {read : Json → Result α}
    {found m : TextMap α}
    {members : List (Text × Json)}
    (h : readMembers read found members = .ok m)
    (key : Text) :
    (m.get? key).isSome = true ↔
      (found.get? key).isSome = true ∨
        key ∈ Association.keys members := by
  induction members generalizing found with
  | nil =>
      cases h
      simp [Association.keys]
  | cons member rest ih =>
      rcases member with ⟨k, j⟩
      rw [readMembers] at h
      split at h
      · cases h
      · rw [ih h, TextMap.get?_insert]
        by_cases hKey : k = key
        · simp [Association.keys, hKey]
        · simp [Association.keys, hKey, Ne.symm hKey]

/- A map has the keys that it is read under. -/
theorem keys_of_read_map
    (hFind : s.find? (.map t) = none)
    {members : List (Text × Json)}
    {m : TextMap t.Value}
    (h : s.read (.map t) (.object members) = .ok m)
    (key : Text) :
    (m.get? key).isSome = true ↔
      key ∈ Association.keys members := by
  rw [read_map hFind] at h
  rw [isSome_get?_of_readMembers h key]
  exact or_iff_right nofun

------------------------------------------------------------
-- Where a Conversion Is Used
------------------------------------------------------------

/-
  A conversion that is registered, also in place of an older
  one, changes nothing for types that its own is not inside
  of, and nothing inside of another type with a conversion.
  Everywhere else its writer is used, and its reader, unless
  the type cannot be made from nothing, in which case reading
  is refused; keys of maps stay as they are. Registering for
  two types takes no order.
-/
theorem confined_to_type
    (s : Conversions)
    (c : Conversion u) :
    (∀ t : FieldType, ¬ u.Inside t → TreatAlike (s.add c) s t) ∧
    (∀ t : FieldType,
      u.Inside t ↔ ∃ w : Wrapping, w.around u = t) ∧
    (∀ w : Wrapping, s.Passes w u →
      (s.add c).supports (w.around u) = true ∧
        (s.add c).write (w.around u) = w.writeWith c.write ∧
        (s.add c).read (w.around u) = w.readWith c.reader) ∧
    (∀ w : Wrapping, ¬ s.Passes w u →
      TreatAlike (s.add c) s (w.around u)) ∧
    (∀ w : Wrapping, s.Passes (.map w) u →
      (∀ m j, (s.add c).write (.map (w.around u)) m = .ok j →
        ∃ members,
          j = .object members ∧
            Association.keys members =
              Association.keys m.entries) ∧
      ∀ members m,
        (s.add c).read (.map (w.around u)) (.object members) =
            .ok m →
          ∀ key,
            (m.get? key).isSome = true ↔
              key ∈ Association.keys members) ∧
    ∀ (t : FieldType) (d : Conversion t), t ≠ u →
      (s.add c).add d = (s.add d).add c := by
  refine
    ⟨?_, fun _ => FieldType.inside_iff,
      fun w hPasses =>
        ⟨supports_add s c w, write_add c hPasses,
          read_add c hPasses⟩,
      fun w => treatAlike_of_not_passes c, ?_,
      fun t d => add_comm_of_ne s c d⟩
  · intro t hOutside
    refine treatAlike_of_inside fun inner hInside => ?_
    apply find?_add_of_ne
    rintro rfl
    exact hOutside hInside
  · intro w hPasses
    have hFind := (hPasses.add c).1
    exact
      ⟨fun _ _ => keys_of_write_map hFind,
        fun _ _ => keys_of_read_map hFind⟩

open Sample in
/-
  With a conversion for points, texts are written as before; a
  conversion for texts does nothing for lists of them that
  have one of their own; and points in a map are written and
  read by the new conversion, under their keys.
-/
theorem confined_to_type_of_points :
    let points : TextMap (Record point) :=
      .ofList [(Text.lit "a", Point.mk 1 2)]
    let stored :=
      [(Text.lit "a",
        Json.object
          [(Text.lit "x", .signed 1), (Text.lit "y", .signed 2)])]
    (standard.add pointObject).write .string =
        standard.write .string ∧
    ((standard.add commaSeparated).add upperText).write
          (.list .string) =
        (standard.add commaSeparated).write (.list .string) ∧
    (standard.add pointObject).write (.map (.record point)) =
        (Wrapping.map .bare).writeWith pointObject.write ∧
    (standard.add pointObject).read (.map (.record point)) =
        (Wrapping.map .bare).readWith pointObject.reader ∧
    (∃ members,
      Json.object stored = .object members ∧
        Association.keys members =
          Association.keys points.entries) ∧
    ((points.get? (Text.lit "a")).isSome = true ↔
      Text.lit "a" ∈ Association.keys stored) ∧
    (standard.add pointObject).add upperText =
      (standard.add upperText).add pointObject := by
  intro points stored
  rcases confined_to_type standard pointObject with
    ⟨hOutside, -, hUsed, -, hKeys, hOrder⟩
  have hShadowed :=
    (confined_to_type (standard.add commaSeparated)
      upperText).2.2.2.1
  rcases hUsed (.map .bare) ⟨rfl, trivial⟩ with ⟨-, hWrite, hRead⟩
  rcases hKeys .bare ⟨rfl, trivial⟩ with ⟨hWritten, hReadKeys⟩
  refine
    ⟨(hOutside .string nofun).write, ?_, hWrite, hRead,
      hWritten points (.object stored) rfl,
      hReadKeys stored points rfl (Text.lit "a"),
      hOrder .string upperText nofun⟩
  exact (hShadowed (.list .bare) fun h => nomatch h.1).write

open Sample in
/-
  The reader of a conversion is not used for a type that
  cannot be made from nothing, although no other type is
  around it.
-/
theorem unused_reader_of_noDef :
    standard.Passes .bare (.record noDef) ∧
      Wrapping.bare.readWith noDefNumber.read (.signed 1) =
        .ok ⟨[1], rfl⟩ ∧
      (standard.add noDefNumber).read
          (Wrapping.bare.around (.record noDef)) (.signed 1) =
        .error
          (ConversionFault.notConstructible
            (.record noDef)).toError ∧
      (standard.add noDefNumber).read
          (Wrapping.bare.around (.record noDef)) ≠
        Wrapping.bare.readWith noDefNumber.read := by
  refine ⟨trivial, rfl, rfl, fun hSame => ?_⟩
  nomatch congrFun hSame (.signed 1)

end Conversions

end DocumentMapper
