import DocumentMapper.Proofs.Codec.Showing
import DocumentMapper.Proofs.Conversion.Structure
import DocumentMapper.Proofs.Session.Runs
import DocumentMapper.Sample.Scene

/-
  What is made of types that no conversion supports.

  Only a leaf that has no conversion, or an absent value, says
  that its type is not supported. A value that ends in empty
  lists and maps has neither, and is written all the same; a
  JSON value that ends in them, or in null, is read.

  Key definitions include:
    * `Result.ValueIff`
    * `FieldType.Hollow`, `FieldType.Bare`
    * `ConversionFault.Unsupports`
    * `Conversions.NeverFailsIn`, `Conversions.WritesBySupport`
    * `AttributeBinding.IsWritable`

  Main statements include:
    * `Conversions.writesBySupport`
    * `Conversions.read_valueIff_of_unsupported`
    * `Codec.toDocument_valueIff`
    * `Codec.decided_by_support`
-/

namespace DocumentMapper

------------------------------------------------------------
-- Results Under a Condition
------------------------------------------------------------

namespace Result

/-
  The result is a value exactly under the condition, and such
  an error otherwise.
-/
def ValueIff
    {α : Type}
    (p : Prop)
    (P : Error → Prop)
    (r : Result α) : Prop :=
  match r with
  | .ok _ => p
  | .error e => ¬ p ∧ P e

variable {α β : Type}
variable {p q : Prop}
variable {P Q : Error → Prop}

/- Under the condition there is a value. -/
theorem ValueIff.exists_ok
    {r : Result α}
    (h : r.ValueIff p P)
    (hHolds : p) :
    ∃ value, r = .ok value := by
  cases r with
  | ok value => exact ⟨value, rfl⟩
  | error e => exact absurd hHolds h.1

/- Without the condition there is an error. -/
theorem ValueIff.exists_error
    {r : Result α}
    (h : r.ValueIff p P)
    (hFails : ¬ p) :
    ∃ e, r = .error e ∧ P e := by
  cases r with
  | ok value => exact absurd h hFails
  | error e => exact ⟨e, rfl, h.2⟩

/- A value says that the condition holds. -/
theorem ValueIff.of_ok
    {r : Result α}
    (h : r.ValueIff p P)
    {value : α}
    (hOk : r = .ok value) :
    p := by
  subst hOk
  exact h

theorem ValueIff.congr
    {r : Result α}
    (h : r.ValueIff p P)
    (hSame : p ↔ q)
    (hErrors : ∀ e, P e → Q e) :
    r.ValueIff q Q := by
  cases r with
  | ok value => exact hSame.mp h
  | error e => exact ⟨hSame.not.mp h.1, hErrors e h.2⟩

theorem ValueIff.map
    {r : Result α}
    (h : r.ValueIff p P)
    (f : α → β) :
    ValueIff p P (r.map f) := by
  cases r with
  | ok value => exact h
  | error e => exact h

/- A sequence has a value if both of its parts have one. -/
theorem ValueIff.bind
    {r : Result α}
    {f : α → Result β}
    (hFirst : r.ValueIff p P)
    (hSecond : ∀ value, (f value).ValueIff q P) :
    ValueIff (p ∧ q) P (r >>= f) := by
  cases r with
  | ok value =>
      exact (hSecond value).congr
        ⟨fun h => ⟨hFirst, h⟩, fun h => h.2⟩ fun _ h => h
  | error e => exact ⟨fun h => hFirst.1 h.1, hFirst.2⟩

section Sequences

variable {c : α → Prop}
variable {items : List α}

/- All items have to have a value. -/
theorem ValueIff.mapM
    {f : α → Result β}
    (h : ∀ item ∈ items, (f item).ValueIff (c item) P) :
    ValueIff (∀ item ∈ items, c item) P (items.mapM f) := by
  induction items with
  | nil => exact fun _ hMem => by cases hMem
  | cons item rest ih =>
      rw [List.forall_mem_cons] at h
      rw [List.mapM_cons]
      refine ((h.1.bind fun _ => (ih h.2).map _).congr ?_ ?_)
      · exact List.forall_mem_cons.symm
      · exact fun _ hError => hError

/- All steps have to have a value, whatever they start from. -/
theorem ValueIff.foldlM
    {f : β → α → Result β}
    (h : ∀ item ∈ items, ∀ b, (f b item).ValueIff (c item) P)
    (b : β) :
    ValueIff (∀ item ∈ items, c item) P (items.foldlM f b) := by
  induction items generalizing b with
  | nil => exact fun _ hMem => by cases hMem
  | cons item rest ih =>
      rw [List.forall_mem_cons] at h
      rw [List.foldlM_cons]
      refine (((h.1 b).bind fun next => ih h.2 next).congr ?_ ?_)
      · exact List.forall_mem_cons.symm
      · exact fun _ hError => hError

end Sequences

end Result

------------------------------------------------------------
-- Values Without Leaves
------------------------------------------------------------

namespace FieldType

/-
  The value ends in empty lists and maps: there is no leaf in
  it, and no absent value.
-/
def Hollow : (t : FieldType) → t.Value → Prop
  | .option _, none => False
  | .option t, some v => Hollow t v
  | .list t, items => ∀ v ∈ items, Hollow t v
  | .map t, m => ∀ entry ∈ m.entries, Hollow t entry.2
  | _, _ => False

/-
  The JSON value ends in empty arrays and objects where the
  type has lists and maps, or in null where it has an optional
  value.
-/
def Bare : FieldType → Json → Prop
  | .option _, .null => True
  | .option t, j => Bare t j
  | .list t, .array items => ∀ j ∈ items, Bare t j
  | .map t, .object members => ∀ m ∈ members, Bare t m.2
  | _, _ => False

end FieldType

/- The error says of a type inside of it that it is unsupported. -/
def ConversionFault.Unsupports
    (t : FieldType)
    (e : Error) : Prop :=
  ∃ u : FieldType,
    u.Inside t ∧ e = (ConversionFault.unsupported u).toError

namespace Conversions

open Result (ValueIff)
open ConversionFault (Unsupports)

variable {s : Conversions}
variable {t : FieldType}

/- No conversion of the type or a type inside of it fails to write. -/
def NeverFailsIn
    (s : Conversions)
    (t : FieldType) : Prop :=
  ∀ u : FieldType, u.Inside t →
    ∀ c, s.find? u = some c → ∀ v, ∃ j, c.write v = .ok j

------------------------------------------------------------
-- Writing
------------------------------------------------------------

/- A value is written exactly if it is supported or hollow. -/
def WritesBySupport
    (s : Conversions)
    (t : FieldType) : Prop :=
  ∀ v,
    (s.write t v).ValueIff (s.supports t = true ∨ t.Hollow v)
      (Unsupports t)

/- Types with a conversion are written by it, others by structure. -/
theorem writesBySupport_or
    (hNever : s.NeverFailsIn t)
    (hStructure : s.find? t = none → s.WritesBySupport t) :
    s.WritesBySupport t := by
  intro v
  cases hFind : s.find? t with
  | none => exact hStructure hFind v
  | some c =>
      rcases hNever t t.inside_self c hFind v with ⟨j, hWrite⟩
      rw [write_of_find? hFind, hWrite]
      exact .inl (supports_of_inside t.inside_self hFind)

/- An absent value says whether its type is supported. -/
theorem writesBySupport_option
    (hFind : s.find? (.option t) = none)
    (hInner : s.WritesBySupport t) :
    s.WritesBySupport (.option t) := by
  intro v
  rw [supports_option hFind]
  cases v with
  | none =>
      rw [write_none hFind]
      cases hInnerSupports : s.supports t with
      | true => exact .inl rfl
      | false =>
          exact ⟨by rintro (⟨⟨⟩⟩ | ⟨⟨⟩⟩), t, .inr t.inside_self, rfl⟩
  | some v =>
      rw [write_some hFind]
      exact
        (hInner v).congr Iff.rfl fun _ ⟨u, hInside, hError⟩ =>
          ⟨u, .inr hInside, hError⟩

/- A list is written exactly if each of its items is. -/
theorem writesBySupport_list
    (hFind : s.find? (.list t) = none)
    (hInner : s.WritesBySupport t) :
    s.WritesBySupport (.list t) := by
  intro items
  rw [write_list hFind, writeItems_eq_mapM, supports_list hFind]
  refine
    ((ValueIff.mapM fun v _ => hInner v).map _).congr
      ?_ fun _ ⟨u, hInside, hError⟩ => ⟨u, .inr hInside, hError⟩
  simp only [forall_or_left, FieldType.Hollow]

/- A map is written exactly if the value of each entry is. -/
theorem writesBySupport_map
    (hFind : s.find? (.map t) = none)
    (hInner : s.WritesBySupport t) :
    s.WritesBySupport (.map t) := by
  intro m
  rw [write_map hFind, writeEntries_eq_mapM, supports_map hFind]
  refine
    ((ValueIff.mapM fun x _ => (hInner x.2).map _).map _).congr
      ?_ fun _ ⟨u, hInside, hError⟩ => ⟨u, .inr hInside, hError⟩
  simp only [forall_or_left, FieldType.Hollow]

/-
  Where no writer fails, a value is written exactly if its type
  is supported or there is no leaf and no absent value in it:
  by induction on the type, where a conversion of its own
  takes the place of the structure at any depth.
-/
theorem writesBySupport
    (hNever : s.NeverFailsIn t) :
    s.WritesBySupport t := by
  induction t with
  | option t ih =>
      refine writesBySupport_or hNever fun hFind =>
        writesBySupport_option hFind (ih fun u hInside => ?_)
      exact hNever u (.inr hInside)
  | list t ih =>
      refine writesBySupport_or hNever fun hFind =>
        writesBySupport_list hFind (ih fun u hInside => ?_)
      exact hNever u (.inr hInside)
  | map t ih =>
      refine writesBySupport_or hNever fun hFind =>
        writesBySupport_map hFind (ih fun u hInside => ?_)
      exact hNever u (.inr hInside)
  | _ =>
      refine writesBySupport_or hNever fun hFind v => ?_
      rw [write.eq_def, hFind]
      refine ⟨?_, _, rfl, rfl⟩
      simp [supports, hFind, FieldType.Hollow]

/- Nothing inside of an unsupported type can fail. -/
theorem neverFailsIn_of_unsupported
    (h : s.supports t = false) :
    s.NeverFailsIn t := by
  intro u hInside c hFind
  rw [find?_of_unsupported hInside h] at hFind
  cases hFind

------------------------------------------------------------
-- Reading
------------------------------------------------------------

/-
  A JSON value is read as one of an unsupported type exactly if
  it is bare.
-/
theorem read_valueIff_of_unsupported
    (h : s.supports t = false)
    (j : Json) :
    (s.read t j).ValueIff (t.Bare j)
      fun e => ∃ fault : ConversionFault, e = fault.toError := by
  induction t generalizing j with
  | option t ih =>
      have hFind := find?_of_unsupported (FieldType.inside_self _) h
      rw [supports_option hFind] at h
      by_cases hNull : j = .null
      · subst hNull
        rw [read_null hFind]
        trivial
      · rw [read_some hFind hNull]
        refine ((ih h j).map _).congr ?_ fun _ hError => hError
        cases j <;> first | contradiction | exact Iff.rfl
  | list t ih =>
      have hFind := find?_of_unsupported (FieldType.inside_self _) h
      rw [supports_list hFind] at h
      rw [read_list_eq hFind]
      cases j with
      | array items => exact ValueIff.mapM fun item _ => ih h item
      | _ => exact ⟨id, _, rfl⟩
  | map t ih =>
      have hFind := find?_of_unsupported (FieldType.inside_self _) h
      rw [supports_map hFind] at h
      rw [read_map_eq hFind]
      cases j with
      | object members =>
          exact ValueIff.foldlM (fun x _ _ => (ih h x.2).map _) _
      | _ => exact ⟨id, _, rfl⟩
  | _ =>
      rw [read.eq_def,
        find?_of_unsupported (FieldType.inside_self _) h]
      exact ⟨id, _, rfl⟩

end Conversions

------------------------------------------------------------
-- Documents
------------------------------------------------------------

/- The member that a field is written from is supported or hollow. -/
def AttributeBinding.IsWritable
    {S : Schema}
    (s : Conversions)
    (e : Entity S)
    (field : AttributeBinding S) : Prop :=
  s.supports (S.typeAt field.index) = true ∨
    (S.typeAt field.index).Hollow (e.value field.index)

namespace Codec

open Result (ValueIff)
open ConversionFault (Unsupports)

variable {T : Type}
variable [EntityTypes T]
variable {K : Hooks T}
variable {t : T}
variable {S : Schema}

/- Fields are written exactly if each of them is. -/
theorem writeAttributes_valueIff
    {s : Conversions}
    {e : Entity S}
    {p : AttributeBinding S → Prop}
    {P : Error → Prop}
    {fields : List (AttributeBinding S)}
    (h : ∀ field ∈ fields, (field.write s e).ValueIff (p field) P)
    (document : Document) :
    (writeAttributes s e document fields).ValueIff
      (∀ field ∈ fields, p field)
      fun error =>
        ∃ id name cause, P cause ∧ error = inField id name cause := by
  induction fields generalizing document with
  | nil => exact fun _ hMem => by cases hMem
  | cons field rest ih =>
      rw [List.forall_mem_cons] at h
      rw [writeAttributes]
      cases hWrite : field.write s e with
      | ok value =>
          have hField : p field := h.1.of_ok hWrite
          refine (ih h.2 _).congr ?_ fun _ hError => hError
          rw [List.forall_mem_cons]
          exact (and_iff_right hField).symm
      | error cause =>
          have hField := h.1
          rw [hWrite] at hField
          exact
            ⟨fun hAll => hField.1 (List.forall_mem_cons.mp hAll).1,
              _, _, cause, hField.2, rfl⟩

/-
  Where no writer fails, an entity has a document exactly if
  its fields are supported or hollow.
-/
theorem toDocument_valueIff
    {c : Codec T}
    {d : Descriptor S}
    (hNever :
      ∀ field ∈ d.fields,
        c.mapping.conversions.NeverFailsIn (S.typeAt field.index))
    (e : Entity S) :
    (c.toDocument d e).ValueIff
      (∀ field ∈ d.fields, field.IsWritable c.mapping.conversions e)
      fun error =>
        ∃ id name cause,
          (∃ u, Unsupports u cause) ∧
            error = inField id name cause := by
  refine (writeAttributes_valueIff fun field hField => ?_) _ |>.map _
  exact
    (Conversions.writesBySupport (hNever field hField) _).congr
      Iff.rfl fun _ hError => ⟨_, hError⟩

/-
  An entity that has a document has no field of an unsupported
  type, but for hollow ones; no writer has to be trusted.
-/
theorem isWritable_of_toDocument
    {c : Codec T}
    {d : Descriptor S}
    {e : Entity S}
    {document : Document}
    (h : c.toDocument d e = .ok document)
    {field : AttributeBinding S}
    (hField : field ∈ d.fields) :
    field.IsWritable c.mapping.conversions e := by
  have hAll :
      (c.toDocument d e).ValueIff
        (∀ field ∈ d.fields,
          ∃ j, field.write c.mapping.conversions e = .ok j)
        fun error =>
          ∃ id name cause, True ∧ error = inField id name cause := by
    refine (writeAttributes_valueIff fun field _ => ?_) _ |>.map _
    cases hWrite : field.write c.mapping.conversions e with
    | ok j => exact ⟨j, rfl⟩
    | error cause => exact ⟨nofun, trivial⟩
  rcases hAll.of_ok h field hField with ⟨j, hWrite⟩
  cases hSupports :
      c.mapping.conversions.supports (S.typeAt field.index) with
  | true => exact .inl hSupports
  | false =>
      exact
        (Conversions.writesBySupport
          (Conversions.neverFailsIn_of_unsupported hSupports)
          _).of_ok hWrite

/-
  A type is supported exactly if it, or a type inside of it,
  has a conversion. Of an unsupported type a value is written
  if it ends in empty lists and maps, and a JSON value is read
  if it ends in those or in null; everything else fails, and
  writing it with a mapping error. Of a supported type every
  value is written, unless a writer fails. So an entity is
  encoded only if its fields of unsupported types are hollow,
  and where no writer fails that is all it takes.
-/
theorem decided_by_support
    (s : Conversions)
    (u : FieldType) :
    (s.supports u = true ↔
      ∃ inner : FieldType,
        inner.Inside u ∧ (s.find? inner).isSome = true) ∧
    (s.supports u = false →
      (∀ v, u.Hollow v → ∃ j, s.write u v = .ok j) ∧
      (∀ v, ¬ u.Hollow v →
        ∃ e,
          s.write u v = .error e ∧ Unsupports u e ∧
            e.code = .mappingError) ∧
      (∀ j, u.Bare j → ∃ v, s.read u j = .ok v) ∧
      ∀ j, ¬ u.Bare j →
        ∃ fault : ConversionFault,
          s.read u j = .error fault.toError) ∧
    (s.supports u = true → s.NeverFailsIn u →
      ∀ v, ∃ j, s.write u v = .ok j) ∧
    ∀ c : Codec T, c.mapping.conversions = s →
      (∀ (e : EntityOf t) collection
          (transcript : Transcript T K) document,
        (c.encode e collection : Step T K Document).Ends transcript
            (.ok document) →
          ∃ d,
            c.mapping.descriptor t = .ok d ∧
              ∀ field ∈ d.fields,
                field.IsWritable s (converted e transcript)) ∧
      ∀ (d : Descriptor S) (e : Entity S),
        (∀ field ∈ d.fields,
          s.NeverFailsIn (S.typeAt field.index)) →
          ((∃ document, c.toDocument d e = .ok document) ↔
            ∀ field ∈ d.fields, field.IsWritable s e) := by
  refine ⟨Conversions.supports_iff, ?_, ?_, ?_⟩
  · intro hUnsupported
    have hWrites :=
      Conversions.writesBySupport
        (Conversions.neverFailsIn_of_unsupported hUnsupported)
    have hReads :=
      Conversions.read_valueIff_of_unsupported hUnsupported
    refine
      ⟨fun v hHollow => (hWrites v).exists_ok (.inr hHollow), ?_,
        fun j hBare => (hReads j).exists_ok hBare, ?_⟩
    · intro v hLeaf
      have hNot : ¬ (s.supports u = true ∨ u.Hollow v) := by
        rw [hUnsupported]
        rintro (⟨⟨⟩⟩ | hHollow)
        exact hLeaf hHollow
      rcases (hWrites v).exists_error hNot with
        ⟨e, hError, inner, hInside, rfl⟩
      exact ⟨_, hError, ⟨inner, hInside, rfl⟩, rfl⟩
    · intro j hLeaf
      rcases (hReads j).exists_error hLeaf with
        ⟨_, hError, fault, rfl⟩
      exact ⟨fault, hError⟩
  · intro hSupported hNever v
    exact
      (Conversions.writesBySupport hNever v).exists_ok
        (.inl hSupported)
  · rintro c rfl
    constructor
    · intro e collection transcript document hEncode
      rcases ends_encode_ok hEncode with
        ⟨d, hDescriptor, hDocument, -⟩
      exact
        ⟨d, hDescriptor, fun _ => isWritable_of_toDocument hDocument⟩
    · intro d e hNever
      exact
        ⟨fun ⟨_, hDocument⟩ _ => isWritable_of_toDocument hDocument,
          (toDocument_valueIff hNever e).exists_ok⟩

open Sample in
/-
  Without a conversion for points, an empty list of them is
  written and read, and a list of one is refused; a shape,
  which holds a point, has no document. Lists of numbers are
  written, and the name of Ann, who is encoded, is supported.
-/
theorem decided_by_support_of_points :
    (∃ j, Conversions.standard.write (.list (.record point)) [] =
      .ok j) ∧
    (∃ e,
      Conversions.standard.write (.list (.record point))
          [Point.mk 1 2] =
        .error e ∧ e.code = .mappingError) ∧
    (∃ v, Conversions.standard.read (.list (.record point))
      (.array []) = .ok v) ∧
    (∃ fault : ConversionFault,
      Conversions.standard.read (.list (.record point))
          (.array [.null]) =
        .error fault.toError) ∧
    (∃ j, Conversions.standard.write (.list .int32) [5] = .ok j) ∧
    (¬ ∃ document,
      scene.repository.codec.toDocument
          (Declaration.usual .shape).descriptor
          (Entity.initial shapeSchema) =
        .ok document) ∧
    (Session.converse (hiddenScene.repository.codec.encode ann [])
          hiddenScene).1 =
        .ok annDocument ∧
      ∃ d,
        hiddenScene.mapping.descriptor EntityType.person = .ok d ∧
          ∀ field ∈ d.fields,
            field.IsWritable .standard
              (converted ann
                (hiddenScene.transcriptOfStep
                  (hiddenScene.repository.codec.encode ann []))) := by
  have hNever : Conversions.standard.NeverFailsIn (.list .int32) := by
    rintro u (rfl | rfl) c hFind v
    · cases hFind
    · cases hFind
      exact ⟨_, rfl⟩
  have hLeaf :
      ∀ p : Record point,
        ¬ (FieldType.list (.record point)).Hollow [p] :=
    fun p hHollow => hHollow p (List.mem_singleton_self p)
  have hItem :
      ¬ (FieldType.list (.record point)).Bare (.array [.null]) :=
    fun hBare => hBare .null (List.mem_singleton_self _)
  rcases decided_by_support (T := EntityType) (t := .person)
      (K := scriptedHooks EntityType) (S := shapeSchema)
      .standard (.list (.record point)) with
    ⟨-, hPoints, -, hDocuments⟩
  rcases hPoints rfl with ⟨hEmpty, hRefused, hRead, hUnread⟩
  rcases hRefused [Point.mk 1 2] (hLeaf _) with ⟨e, hError, -, hCode⟩
  refine
    ⟨hEmpty [] nofun, ⟨e, hError, hCode⟩, hRead (.array []) nofun,
      hUnread _ hItem, ?_, ?_, rfl, ?_⟩
  · exact
      (decided_by_support (T := EntityType) (t := .person)
        (K := scriptedHooks EntityType) (S := shapeSchema)
        .standard (.list .int32)).2.2.1 rfl hNever [5]
  · let d : Descriptor shapeSchema :=
      (Declaration.usual .shape).descriptor
    let origin : AttributeBinding shapeSchema :=
      ⟨Text.lit "origin", ⟨1, by decide⟩, false⟩
    have hFields : d.fields = [origin] := rfl
    have hShape :=
      (hDocuments scene.repository.codec rfl).2 d
        (Entity.initial shapeSchema)
    rw [hFields, List.forall_mem_singleton,
      List.forall_mem_singleton] at hShape
    intro hDocument
    rcases (hShape (Conversions.neverFailsIn_of_unsupported rfl)).mp
        hDocument with ⟨⟨⟩⟩ | hHollow
    exact hHollow
  · exact
      (hDocuments hiddenScene.repository.codec rfl).1 ann [] _ _
        (Session.ends_converse hiddenScene
          (hiddenScene.repository.codec.encode ann []))

end Codec

end DocumentMapper
