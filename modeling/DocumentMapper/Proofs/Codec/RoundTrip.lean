import DocumentMapper.Proofs.Association
import DocumentMapper.Proofs.Codec.Decoding
import DocumentMapper.Proofs.Codec.Encoding
import DocumentMapper.Proofs.Conversion.Standard
import DocumentMapper.Proofs.Json.RoundTrip
import DocumentMapper.Proofs.Session.Runs
import DocumentMapper.Sample.Scene

/-
  Entities that are encoded and decoded.

  A payload is read back as the entity that was encoded, with
  the identifier and the token that came along. The one
  exception is a token that is shown under the attribute for
  type metadata, where it hides the mark of the type.

  Key definitions include:
    * `Codec.Keepable`

  Main statements include:
    * `Codec.get?_writeAttributes`
    * `Codec.parse?_of_toPayload`
    * `Codec.absorb_toPayload_reread`
    * `Codec.absorb_toPayload`
    * `Codec.get?_toDocument`
    * `Codec.readAttributes_ok`
    * `Codec.entityOf_eq`
    * `Codec.decode_ok`
    * `Codec.toDocument_alike`
    * `Codec.Keepable.decode_toPayload`
    * `Codec.round_trip`
-/

namespace DocumentMapper

variable {T : Type}
variable [EntityTypes T]
variable {K : Hooks T}

namespace Codec

variable {S : Schema}
variable {conversions : Conversions}

------------------------------------------------------------
-- Written Attributes
------------------------------------------------------------

/- Attributes of other names are left alone. -/
theorem get?_writeAttributes_of_not_mem
    {e : Entity S}
    {document written : Document}
    {fields : List (AttributeBinding S)}
    {key : Text}
    (hWritten :
      writeAttributes conversions e document fields = .ok written)
    (hKey : ∀ field ∈ fields, field.name ≠ key) :
    written.get? key = document.get? key := by
  induction fields generalizing document with
  | nil =>
      cases hWritten
      rfl
  | cons field rest ih =>
      rw [List.forall_mem_cons] at hKey
      rw [writeAttributes] at hWritten
      split at hWritten
      · rw [ih hWritten hKey.2]
        simp [Document.put, Document.get?, hKey.1]
      · cases hWritten

/- Every field is written under its name. -/
theorem get?_writeAttributes
    {e : Entity S}
    {document written : Document}
    {fields : List (AttributeBinding S)}
    (hWritten :
      writeAttributes conversions e document fields = .ok written)
    (hNames : (fields.map (·.name)).Nodup) :
    ∀ field ∈ fields, ∃ value,
      field.write conversions e = .ok value ∧
        written.get? field.name = some value := by
  induction fields generalizing document with
  | nil => simp
  | cons field rest ih =>
      rw [List.map_cons, List.nodup_cons] at hNames
      rw [writeAttributes] at hWritten
      split at hWritten
      · rename_i value hValue
        rw [List.forall_mem_cons]
        refine ⟨⟨value, hValue, ?_⟩, ih hWritten hNames.2⟩
        have hOthers : ∀ f ∈ rest, f.name ≠ field.name := by
          intro f hf hEq
          exact hNames.1 (List.mem_map.mpr ⟨f, hf, hEq⟩)
        rw [get?_writeAttributes_of_not_mem hWritten hOthers]
        simp [Document.put, Document.get?]
      · cases hWritten

/- A document stays storable with one more storable attribute. -/
theorem storable_put
    {document : Document}
    {key : Text}
    {value : Json}
    (hDocument : document.content.toJson.Storable)
    (hValue : value.Storable) :
    (document.put key value).content.toJson.Storable := by
  rw [Attributes.toJson, Json.storable_object_iff] at hDocument ⊢
  refine ⟨(document.content.put key value).nodup, ?_⟩
  intro m hMem
  rcases Association.mem_assign hMem with hNew | hOld
  · rw [hNew]
    exact hValue
  · exact hDocument.2 m hOld

/- A document stays storable with attributes that are kept. -/
theorem storable_writeAttributes
    {e : Entity S}
    {document written : Document}
    {fields : List (AttributeBinding S)}
    (hWritten :
      writeAttributes conversions e document fields = .ok written)
    (hReads : conversions.ReadsBack)
    (hStorable :
      ∀ field ∈ fields,
        conversions.Storable (S.typeAt field.index)
          (e.value field.index))
    (hDocument : document.content.toJson.Storable) :
    written.content.toJson.Storable := by
  induction fields generalizing document with
  | nil =>
      cases hWritten
      exact hDocument
  | cons field rest ih =>
      rw [List.forall_mem_cons] at hStorable
      rw [writeAttributes] at hWritten
      split at hWritten
      · rename_i value hValue
        have hKept := (hReads.keeps _ _ _ hStorable.1 hValue).1
        exact ih hWritten hStorable.2
          (storable_put hDocument hKept)
      · cases hWritten

------------------------------------------------------------
-- Read Attributes
------------------------------------------------------------

/-
  Attributes that can all be read are read, and each member is
  what its attribute says; of two attributes for one member
  the later one counts, and both say the same.
-/
theorem readAttributes_ok
    {document : Document}
    {given : Entity S}
    {fields : List (AttributeBinding S)}
    (start : Entity S)
    (h :
      ∀ field ∈ fields, ∃ value w,
        document.get? field.name = some value ∧
          conversions.read (S.typeAt field.index) value = .ok w ∧
          (S.typeAt field.index).Alike w
            (given.value field.index)) :
    ∃ e,
      readAttributes conversions document start fields = .ok e ∧
        (∀ i, (∃ field ∈ fields, field.index = i) →
          (S.typeAt i).Alike (e.value i) (given.value i)) ∧
        (∀ i, (∀ field ∈ fields, field.index ≠ i) →
          e.value i = start.value i) := by
  induction fields generalizing start with
  | nil => exact ⟨start, rfl, by simp, by simp⟩
  | cons field rest ih =>
      rw [List.forall_mem_cons] at h
      rcases h with ⟨⟨value, w, hGet, hRead, hAlike⟩, hRest⟩
      rcases ih (start.set field.index w) hRest with
        ⟨e, hReads, hAll, hOthers⟩
      refine ⟨e, ?_, ?_, ?_⟩
      · rw [readAttributes, hGet]
        simp only [AttributeBinding.read, hRead, Except.map]
        exact hReads
      · rintro i ⟨f, hMem, rfl⟩
        by_cases hLater : ∃ g ∈ rest, g.index = f.index
        · exact hAll _ hLater
        · rcases List.mem_cons.mp hMem with rfl | hMem
          · rw [hOthers]
            · simpa using hAlike
            · intro g hg hEq
              exact hLater ⟨g, hg, hEq⟩
          · exact absurd ⟨f, hMem, rfl⟩ hLater
      · intro i hNone
        rw [List.forall_mem_cons] at hNone
        rw [hOthers i hNone.2]
        exact Entity.value_set_of_ne _ _ hNone.1

------------------------------------------------------------
-- Payloads
------------------------------------------------------------

/- A payload is read as the attributes that were written, in order. -/
theorem parse?_of_toPayload
    {document : Document}
    {payload : Text}
    (hPayload : document.toPayload = .ok payload) :
    Json.parse? payload =
      some (.object (Json.rereadMembers document.content.entries)) := by
  unfold Document.toPayload at hPayload
  split at hPayload
  · rename_i text hPrint
    cases hPayload
    unfold Json.print? at hPrint
    split at hPrint
    · rename_i hPrintable
      cases hPrint
      have hParse := Json.parse?_render_reread hPrintable
      rwa [Attributes.toJson,
        Json.reread_object document.content.nodup] at hParse
    · cases hPrint
  · cases hPayload

/-
  Every payload is read, as the attributes that were written
  and under the same keys.
-/
theorem absorb_toPayload_reread
    {document : Document}
    {payload : Text}
    (hPayload : document.toPayload = .ok payload)
    (id : Text) :
    ∃ read,
      (Document.ofId id).absorb payload = .ok read ∧
        read.id = id ∧
        ∀ key,
          read.get? key = (document.get? key).map Json.reread := by
  have hParse := parse?_of_toPayload hPayload
  refine ⟨_, absorb_of_parse? hParse id, rfl, fun key => ?_⟩
  show Association.lookup? key (Association.merge [] _) = _
  rw [Association.merge_of_nodup]
  · exact Json.lookup?_rereadMembers key _
  · rw [List.nil_append, Json.keys_rereadMembers]
    exact document.content.nodup

/-
  Attributes that survive are read as they were written, in
  their normal forms.
-/
theorem absorb_toPayload
    {document : Document}
    {payload : Text}
    (hStorable : document.content.toJson.Storable)
    (hPayload : document.toPayload = .ok payload)
    (id : Text) :
    ∃ read,
      (Document.ofId id).absorb payload = .ok read ∧
        read.id = id ∧
        ∀ key,
          read.get? key = (document.get? key).map Json.normal := by
  rcases absorb_toPayload_reread hPayload id with
    ⟨read, hAbsorb, hId, hRead⟩
  refine ⟨read, hAbsorb, hId, fun key => ?_⟩
  rw [hRead]
  apply Option.map_congr
  intro value hValue
  apply Json.reread_eq_normal
  have hMembers := (Json.storable_object_iff.mp hStorable).2
  exact hMembers _ (Association.mem_of_lookup? hValue)

------------------------------------------------------------
-- Type Metadata
------------------------------------------------------------

variable {c : Codec T}
variable {d : Descriptor S}

/- Attributes of other names are those of the marked document. -/
theorem get?_toDocument_of_not_mem
    {e : Entity S}
    {document : Document}
    {key : Text}
    (hDocument : c.toDocument d e = .ok document)
    (hKey : ∀ field ∈ d.fields, field.name ≠ key) :
    document.get? key =
      (c.marked d ((d.idOf e).getD [])).get? key := by
  rcases toDocument_eq_ok_iff.mp hDocument with
    ⟨written, hWritten, rfl⟩
  have hSame := get?_writeAttributes_of_not_mem hWritten hKey
  exact hSame

/- Under distinct names every field is found in its document. -/
theorem get?_toDocument
    {e : Entity S}
    {document : Document}
    (hDocument : c.toDocument d e = .ok document)
    (hNames : (d.fields.map (·.name)).Nodup) :
    ∀ field ∈ d.fields, ∃ value,
      field.write c.mapping.conversions e = .ok value ∧
        document.get? field.name = some value := by
  rcases toDocument_eq_ok_iff.mp hDocument with
    ⟨written, hWritten, rfl⟩
  have hAll := get?_writeAttributes hWritten hNames
  exact hAll

/- A marked document shows its mark and nothing else. -/
theorem get?_marked
    (c : Codec T)
    (d : Descriptor S)
    (id key : Text) :
    (c.marked d id).get? key =
      (c.typeMark? d).bind fun (k, mark) =>
        if k = key then some (.string mark) else none := by
  unfold marked
  cases c.typeMark? d with
  | none => rfl
  | some pair =>
      rcases pair with ⟨k, mark⟩
      show (Attributes.empty.put k (.string mark)).get? key = _
      rw [Attributes.get?_put]
      rfl

------------------------------------------------------------
-- Decoding What Was Encoded
------------------------------------------------------------

variable {t : T}

/-
  An entity of a registered type whose attributes are kept: its
  members lie apart, its names are distinct, its conversions
  read back what they write, and its values can be kept.
-/
structure Keepable
    (c : Codec T)
    (d : Descriptor (EntityTypes.schema t))
    (e : EntityOf t) : Prop where
  descriptor : c.mapping.descriptor t = .ok d
  layout : d.Layout
  names : d.NamesApart c.typeKey
  readsBack : c.mapping.conversions.ReadsBack
  storable :
    ∀ field ∈ d.fields,
      c.mapping.conversions.Storable _ (e.value field.index)

/- An entity of which nothing but the identifier is known. -/
def started
    (d : Descriptor S)
    (id : Text) : Entity S :=
  if id = [] then
    Entity.initial S
  else
    d.withId (Entity.initial S) id

/- Attributes are read into a started entity, then the token. -/
theorem entityOf_eq
    {d : Descriptor (EntityTypes.schema t)}
    (hDescriptor : c.mapping.descriptor t = .ok d)
    (document : Document) :
    c.entityOf t document =
      (do
        let e ←
          readAttributes c.mapping.conversions document
            (started d document.id) d.fields
        readVersion d document e) := by
  unfold entityOf
  rw [hDescriptor]
  rfl

/- What the document of an entity shows, the entity is read from. -/
theorem entityOf_shown
    {d : Descriptor (EntityTypes.schema t)}
    {e : EntityOf t}
    {document read : Document}
    {token : UInt64}
    (h : c.Keepable d e)
    (hHolds : d.Holds token)
    (hDocument : c.toDocument d e = .ok document)
    (hRead :
      ∀ key,
        read.get? key = (document.get? key).map Json.normal) :
    ∃ e',
      c.entityOf t (shown d read token) = .ok e' ∧
        (∀ field ∈ d.fields,
          FieldType.Alike _ (e'.value field.index)
            (e.value field.index)) ∧
        d.idOf e' = d.idOf (started d read.id) := by
  have hAttributes :
      ∀ field ∈ d.fields, ∃ value w,
        (shown d read token).get? field.name = some value ∧
          c.mapping.conversions.read _ value = .ok w ∧
          FieldType.Alike _ w (e.value field.index) := by
    intro field hField
    rcases get?_toDocument hDocument h.names.distinct field
        hField with
      ⟨value, hValue, hGet⟩
    rcases h.readsBack.keeps _ _ _ (h.storable field hField)
        hValue with
      ⟨-, w, hBack, hAlike⟩
    refine ⟨value.normal, w, ?_, hBack, hAlike⟩
    rw [get?_shown_of_ne, hRead, hGet]
    · rfl
    · intro version hVersion _
      exact (h.names.version_ne version hVersion field hField).symm
  have hNoToken :
      ∀ version, d.version? = some version →
        (read.get? version.name).bind Json.natural? = none := by
    intro version hVersion
    have hOther :
        ∀ field ∈ d.fields, field.name ≠ version.name :=
      h.names.version_ne version hVersion
    rw [hRead, get?_toDocument_of_not_mem hDocument hOther,
      get?_marked]
    cases c.typeMark? d with
    | none => rfl
    | some pair =>
        rcases pair with ⟨key, mark⟩
        by_cases hKey : key = version.name
        · simp [hKey, Json.normal, Json.natural?]
        · simp [hKey]
  rcases readAttributes_ok (started d read.id) hAttributes with
    ⟨e₁, hFirst, hAll, -⟩
  rcases readVersion_shown (e := e₁) hHolds hNoToken with
    ⟨e₂, hSecond, hToken⟩
  have hId₁ :=
    readAttributes_induction
      (P := fun e' => d.idOf e' = d.idOf (started d read.id))
      (fun field hField e' v hSame =>
        (h.layout.idOf_set field hField e' v).trans hSame)
      hFirst rfl
  refine ⟨e₂, ?_, ?_, ?_⟩
  · rw [entityOf_eq h.descriptor, shown_id, hFirst]
    exact hSecond
  · intro field hField
    have hAlike := hAll field.index ⟨field, hField, rfl⟩
    rcases hToken with rfl | hSet
    · exact hAlike
    · rw [h.layout.value_withToken field hField _ _ _ hSet]
      exact hAlike
  · rcases hToken with rfl | hSet
    · exact hId₁
    · rw [h.layout.idOf_withToken _ _ _ hSet]
      exact hId₁

/- Where the type is not hidden, an encoded entity is decoded. -/
theorem decode_ok
    {d : Descriptor (EntityTypes.schema t)}
    {e : EntityOf t}
    {document read : Document}
    {payload : Text}
    {token : UInt64}
    (h : c.Keepable d e)
    (hHolds : d.Holds token)
    (hHides : ¬ c.HidesMark d token)
    (hDocument : c.toDocument d e = .ok document)
    {id : Text}
    (hAbsorb : (Document.ofId id).absorb payload = .ok read)
    (hId : read.id = id)
    (hRead :
      ∀ key,
        read.get? key = (document.get? key).map Json.normal) :
    ∃ e',
      c.decode t id payload token = .ok e' ∧
        (∀ field ∈ d.fields,
          FieldType.Alike _ (e'.value field.index)
            (e.value field.index)) ∧
        d.idOf e' = d.idOf (started d id) := by
  rcases entityOf_shown h hHolds hDocument hRead with
    ⟨e₁, hEntity, hAlike, hSameId⟩
  rcases hHolds.withToken_isOk e₁ with ⟨e', hSet⟩
  have hMark :
      ∀ key mark, c.typeMark? d = some (key, mark) →
        read.get? key = some (.string mark) := by
    intro key mark hType
    rcases typeMark?_eq_some hType with ⟨rfl, -⟩
    rw [hRead,
      get?_toDocument_of_not_mem hDocument h.names.typeKey_ne,
      get?_marked, hType]
    simp [Json.normal]
  refine ⟨e', ?_, ?_, ?_⟩
  · rw [decode_eq h.descriptor hAbsorb,
      checkType_of_not_hidesMark hHides hMark]
    simp only [bind, Except.bind]
    rw [hEntity]
    exact hSet
  · intro field hField
    rw [h.layout.value_withToken field hField _ _ _ hSet]
    exact hAlike field hField
  · rw [h.layout.idOf_withToken _ _ _ hSet, hSameId, hId]

------------------------------------------------------------
-- Encoding Again
------------------------------------------------------------

/- Entities that agree are written as attributes that agree. -/
theorem writeAttributes_alike
    {e e' : Entity S}
    {document other written : Document}
    {fields : List (AttributeBinding S)}
    (hReads : conversions.ReadsBack)
    (hAlike :
      ∀ field ∈ fields,
        FieldType.Alike _ (e'.value field.index)
          (e.value field.index))
    (hWritten :
      writeAttributes conversions e document fields = .ok written)
    (hSame :
      Json.normalMembers other.content.entries =
        Json.normalMembers document.content.entries) :
    ∃ again,
      writeAttributes conversions e' other fields = .ok again ∧
        Json.normalMembers again.content.entries =
          Json.normalMembers written.content.entries := by
  induction fields generalizing document other with
  | nil =>
      cases hWritten
      exact ⟨other, rfl, hSame⟩
  | cons field rest ih =>
      rw [List.forall_mem_cons] at hAlike
      rw [writeAttributes] at hWritten
      split at hWritten
      · rename_i value hValue
        rcases hReads.writesAlike _ _ _ _ hAlike.1 hValue with
          ⟨k, hk, hNormal⟩
        have hPut :
            Json.normalMembers
                (other.put field.name k).content.entries =
              Json.normalMembers
                (document.put field.name value).content.entries := by
          simp only [Document.put, Attributes.put,
            Json.normalMembers_assign, hSame, hNormal]
        rcases ih hAlike.2 hWritten hPut with ⟨again, hAgain, hEnd⟩
        refine ⟨again, ?_, hEnd⟩
        rw [writeAttributes, AttributeBinding.write, hk]
        exact hAgain
      · cases hWritten

/- Entities that agree have equal documents, identifiers aside. -/
theorem toDocument_alike
    {e e' : Entity S}
    {document : Document}
    (hReads : c.mapping.conversions.ReadsBack)
    (hAlike :
      ∀ field ∈ d.fields,
        FieldType.Alike _ (e'.value field.index)
          (e.value field.index))
    (hDocument : c.toDocument d e = .ok document)
    (hStorable : document.content.toJson.Storable)
    (hId : (d.idOf e').getD [] = document.id) :
    ∃ again,
      c.toDocument d e' = .ok again ∧
        again.equal document = true := by
  have hExpiry := toDocument_expiry hDocument
  rcases toDocument_eq_ok_iff.mp hDocument with
    ⟨written, hWritten, rfl⟩
  have hMarked :
      (c.marked d ((d.idOf e').getD [])).content =
        (c.marked d ((d.idOf e).getD [])).content := by
    unfold marked
    split <;> rfl
  have hSame :=
    congrArg (fun a => Json.normalMembers a.entries) hMarked
  rcases writeAttributes_alike hReads hAlike hWritten hSame with
    ⟨other, hOther, hNormal⟩
  have hAgain :
      c.toDocument d e' = .ok (other.withExpiry d.expiry) :=
    toDocument_eq_ok_iff.mpr ⟨other, hOther, rfl⟩
  have hContent :
      other.content.toJson.equal written.content.toJson = true := by
    refine Json.equal_of_normal_eq hStorable.finite ?_
    simp only [Attributes.toJson, Json.normal, hNormal]
  refine ⟨_, hAgain, ?_⟩
  have hSameId := (toDocument_id hAgain).trans hId
  simp only [Document.equal, Bool.and_eq_true, beq_iff_eq]
  exact ⟨⟨hSameId, hContent⟩, rfl⟩

------------------------------------------------------------
-- The Round Trip
------------------------------------------------------------

/- What a type declares of a document that can be kept, survives. -/
theorem Keepable.storable_document
    {d : Descriptor (EntityTypes.schema t)}
    {e : EntityOf t}
    {document : Document}
    (h : c.Keepable d e)
    (hDocument : c.toDocument d e = .ok document) :
    document.content.toJson.Storable := by
  rcases toDocument_eq_ok_iff.mp hDocument with
    ⟨written, hWritten, rfl⟩
  suffices hMarked :
      (c.marked d ((d.idOf e).getD [])).content.toJson.Storable by
    have hAll :=
      storable_writeAttributes hWritten h.readsBack h.storable
        hMarked
    exact hAll
  have hEmpty : ∀ id, (Document.ofId id).content.toJson.Storable :=
    fun id => ⟨trivial, List.nodup_nil, trivial⟩
  unfold marked
  split
  · exact storable_put (hEmpty _) ⟨trivial, trivial⟩
  · exact hEmpty _

/- A payload is read as the attributes of its document. -/
theorem Keepable.absorb_toPayload
    {d : Descriptor (EntityTypes.schema t)}
    {e : EntityOf t}
    {document : Document}
    {payload : Text}
    (h : c.Keepable d e)
    (hDocument : c.toDocument d e = .ok document)
    (hPayload : document.toPayload = .ok payload)
    (id : Text) :
    ∃ read,
      (Document.ofId id).absorb payload = .ok read ∧
        read.id = id ∧
        ∀ key,
          read.get? key = (document.get? key).map Json.normal :=
  Codec.absorb_toPayload (h.storable_document hDocument) hPayload id

/- A given identifier is the one of a started entity. -/
theorem idOf_started
    (hTracks : d.TracksId)
    {id : Text}
    (hNe : id ≠ []) :
    d.idOf (started d id) = some id := by
  unfold started
  rw [if_neg hNe]
  exact hTracks _ id hNe

/- Without callbacks, the document is that of the entity itself. -/
theorem Keepable.toDocument_of_encode
    {d : Descriptor (EntityTypes.schema t)}
    {e : EntityOf t}
    {collection : Text}
    {transcript : Transcript T K}
    {document : Document}
    (h : c.Keepable d e)
    (hEncode :
      (c.encode e collection : Step T K Document).Ends transcript
        (.ok document))
    (hUnsubstituted : Unsubstituted t transcript) :
    c.toDocument d e = .ok document := by
  rcases ends_encode hEncode with
    ⟨given, converted, hGiven, hDocument, hSame⟩
  rcases hSame hUnsubstituted with rfl
  cases h.descriptor.symm.trans hGiven
  exact hDocument

/-
  The payload of an entity is decoded, unless the token that
  comes along hides the mark of the type.
-/
theorem Keepable.decode_toPayload
    {d : Descriptor (EntityTypes.schema t)}
    {e : EntityOf t}
    {document : Document}
    {payload : Text}
    {token : UInt64}
    (h : c.Keepable d e)
    (hHolds : d.Holds token)
    (hDocument : c.toDocument d e = .ok document)
    (hPayload : document.toPayload = .ok payload)
    (id : Text) :
    (c.HidesMark d token →
      c.decode t id payload token =
        .error
          (CodecFault.wrongType id (Text.ofNat token.toNat)
            d.aliasName).toError) ∧
    (¬ c.HidesMark d token →
      ∃ e',
        c.decode t id payload token = .ok e' ∧
          (∀ field ∈ d.fields,
            FieldType.Alike _ (e'.value field.index)
              (e.value field.index)) ∧
          d.idOf e' = d.idOf (started d id)) := by
  rcases h.absorb_toPayload hDocument hPayload id with
    ⟨read, hAbsorb, hReadId, hRead⟩
  constructor
  · intro hHides
    rw [decode_eq h.descriptor hAbsorb,
      checkType_of_hidesMark hHides]
    rfl
  · intro hHides
    exact
      decode_ok h hHolds hHides hDocument hAbsorb hReadId hRead

/-
  The round trip of an entity through a payload. A token that
  hides the mark of the type makes every payload unreadable.
  Any other token comes back in an entity with the same
  attributes, the given identifier, and the same document.
-/
theorem round_trip
    {d : Descriptor (EntityTypes.schema t)}
    {e : EntityOf t}
    {collection : Text}
    {transcript : Transcript T K}
    {document : Document}
    {payload : Text}
    {token : UInt64}
    (hKeepable : c.Keepable d e)
    (hHolds : d.Holds token)
    (hEncode :
      (c.encode e collection : Step T K Document).Ends transcript
        (.ok document))
    (hUnsubstituted : Unsubstituted t transcript)
    (hPayload : document.toPayload = .ok payload)
    (id : Text) :
    (c.HidesMark d token →
      c.decode t id payload token =
        .error
          (CodecFault.wrongType id (Text.ofNat token.toNat)
            d.aliasName).toError) ∧
    (¬ c.HidesMark d token →
      ∃ e',
        c.decode t id payload token = .ok e' ∧
          (∀ field ∈ d.fields,
            FieldType.Alike _ (e'.value field.index)
              (e.value field.index)) ∧
          (d.TracksId → id ≠ [] → d.idOf e' = some id) ∧
          (d.TracksVersion → d.tokenOf e' = .ok (some token)) ∧
          (d.TracksId → (d.idOf e).getD [] = id →
            (id = [] →
              (d.idOf (Entity.initial _)).getD [] = []) →
            ∃ again,
              c.toDocument d e' = .ok again ∧
                again.equal document = true ∧
                ∀ (collection' : Text)
                  (transcript' : Transcript T K)
                  (other : Document),
                  (c.encode e' collection' :
                      Step T K Document).Ends transcript'
                    (.ok other) →
                  Unsubstituted t transcript' →
                  other = again)) := by
  have hDocument :=
    hKeepable.toDocument_of_encode hEncode hUnsubstituted
  rcases hKeepable.decode_toPayload hHolds hDocument hPayload
      id with
    ⟨hHidden, hShown⟩
  refine ⟨hHidden, fun hHides => ?_⟩
  rcases hShown hHides with ⟨e', hDecode, hAlike, hId⟩
  refine ⟨e', hDecode, hAlike, ?_, ?_, ?_⟩
  · intro hTracks hNe
    rw [hId, idOf_started hTracks hNe]
  · intro hTracks
    exact tokenOf_decode hKeepable.descriptor hTracks hDecode
  · intro hTracks hOwn hInitial
    have hIdAgain : (d.idOf e').getD [] = document.id := by
      rw [toDocument_id hDocument, hOwn, hId]
      by_cases hEmpty : id = []
      · rw [hEmpty]
        exact hInitial hEmpty
      · rw [idOf_started hTracks hEmpty]
        rfl
    rcases toDocument_alike hKeepable.readsBack hAlike hDocument
        (hKeepable.storable_document hDocument) hIdAgain with
      ⟨again, hAgain, hEqual⟩
    refine ⟨again, hAgain, hEqual, ?_⟩
    intro collection' transcript' other hOther hNone
    rcases ends_encode hOther with
      ⟨_, converted, hFound, hConvert, hSame⟩
    rcases hSame hNone with rfl
    cases hKeepable.descriptor.symm.trans hFound
    cases hAgain.symm.trans hConvert
    rfl

------------------------------------------------------------
-- A User and a Person
------------------------------------------------------------

open Sample in
/- A user with an age and tags can be kept. -/
theorem keepable_bea :
    scene.repository.codec.Keepable
      (Declaration.usual .user).descriptor bea where
  descriptor := rfl
  layout :=
    Descriptor.layout_of_members (m := idMember .user)
      (v := ⟨⟨1, by decide⟩, rfl⟩) rfl rfl (by decide)
  names :=
    ⟨by decide, by decide, by rintro _ ⟨⟩; decide⟩
  readsBack := Conversions.standard_readsBack
  storable field hField := by
    have hFields :
        (Declaration.usual .user).descriptor.fields =
          [⟨Text.lit "name", ⟨2, by decide⟩, true⟩,
           ⟨Text.lit "age", ⟨3, by decide⟩, false⟩,
           ⟨Text.lit "active", ⟨4, by decide⟩, false⟩,
           ⟨Text.lit "tags", ⟨5, by decide⟩, false⟩,
           ⟨Text.lit "email", ⟨6, by decide⟩, false⟩,
           ⟨Text.lit "scores", ⟨7, by decide⟩, false⟩] :=
      rfl
    rw [hFields] at hField
    simp only [List.mem_cons, List.not_mem_nil, or_false] at hField
    rcases hField with rfl | rfl | rfl | rfl | rfl | rfl
    · trivial
    · trivial
    · trivial
    · exact fun _ _ => trivial
    · rintro _ ⟨⟩
    · rintro _ ⟨⟩

open Sample in
/- A person can be kept, also where tokens hide the mark. -/
theorem keepable_hidden_ann :
    hiddenScene.repository.codec.Keepable
      hiddenPerson.descriptor ann where
  descriptor := rfl
  layout :=
    Descriptor.layout_of_members (m := idMember .person)
      (v := ⟨⟨1, by decide⟩, rfl⟩) rfl rfl (by decide)
  names :=
    ⟨by decide, by decide, by rintro _ ⟨⟩; decide⟩
  readsBack := Conversions.standard_readsBack
  storable field hField := by
    have hFields :
        hiddenPerson.descriptor.fields =
          [⟨Text.lit "name", ⟨2, by decide⟩, false⟩] :=
      rfl
    rw [hFields] at hField
    simp only [List.mem_cons, List.not_mem_nil, or_false] at hField
    subst hField
    trivial

open Sample in
/-
  Bea comes back under her identifier with the token of her
  payload; Ann does not where her token hides the mark.
-/
theorem round_trip_of_bea :
    (∃ payload e' again,
      (Session.converse
          (scene.repository.codec.encode bea []) scene).1 =
        .ok beaDocument ∧
      beaDocument.toPayload = .ok payload ∧
      scene.repository.codec.decode .user (Text.lit "u1")
        payload 7 = .ok e' ∧
      (Declaration.usual .user).descriptor.idOf e' =
        some (Text.lit "u1") ∧
      (Declaration.usual .user).descriptor.tokenOf e' =
        .ok (some 7) ∧
      scene.repository.codec.toDocument
        (Declaration.usual .user).descriptor e' = .ok again ∧
      again.equal beaDocument = true) ∧
    (∃ payload,
      (Session.converse
          (hiddenScene.repository.codec.encode ann [])
          hiddenScene).1 =
        .ok annDocument ∧
      annDocument.toPayload = .ok payload ∧
      hiddenScene.repository.codec.decode .person
        (Text.lit "p1") payload 7 =
        .error
          (CodecFault.wrongType (Text.lit "p1") (Text.lit "7")
            (Text.lit "person")).toError) := by
  constructor
  · have hEncode :=
      Session.ends_converse scene
        (scene.repository.codec.encode bea [])
    have hDocument :
        (Session.converse
            (scene.repository.codec.encode bea []) scene).1 =
          .ok beaDocument :=
      rfl
    have hAlone :
        Unsubstituted EntityType.user
          (scene.transcriptOfStep
            (scene.repository.codec.encode bea [])) := by
      intro hooks hMem
      have hAsked :
          scene.transcriptOfStep
              (scene.repository.codec.encode bea []) =
            [⟨.listeners .beforeConvert, []⟩,
             ⟨.beforeHooks .user, []⟩,
             ⟨.afterHooks .user, []⟩,
             ⟨.listeners .beforeSave, []⟩] :=
        rfl
      rw [hAsked] at hMem
      simpa using hMem
    have hPayload :
        beaDocument.toPayload =
          .ok beaDocument.content.toJson.render := by
      decide +kernel
    have hShown :
        ¬ scene.repository.codec.HidesMark
          (Declaration.usual .user).descriptor 7 := by
      rintro ⟨-, version, mark, hVersion, hMark⟩
      cases hVersion
      exact absurd (typeMark?_eq_some hMark).1 (by decide)
    rcases (round_trip keepable_bea ⟨bea, _, rfl⟩ (hDocument ▸
          hEncode) hAlone hPayload (Text.lit "u1")).2 hShown with
      ⟨e', hDecode, -, hId, hToken, hAgain⟩
    have hTracksId :
        (Declaration.usual .user).descriptor.TracksId :=
      Descriptor.tracksId_of_member (m := idMember .user) rfl
    have hTracksVersion :
        (Declaration.usual .user).descriptor.TracksVersion :=
      Descriptor.tracksVersion_of_member
        (m := ⟨⟨1, by decide⟩, rfl⟩) rfl
    obtain ⟨again, hWritten, hEqual, -⟩ :=
      hAgain hTracksId rfl (by decide)
    exact ⟨_, e', again, hDocument, hPayload, hDecode,
      hId hTracksId (by decide), hToken hTracksVersion,
      hWritten, hEqual⟩
  · have hEncode :=
      Session.ends_converse hiddenScene
        (hiddenScene.repository.codec.encode ann [])
    have hDocument :
        (Session.converse
            (hiddenScene.repository.codec.encode ann [])
            hiddenScene).1 =
          .ok annDocument :=
      rfl
    have hAlone :
        Unsubstituted EntityType.person
          (hiddenScene.transcriptOfStep
            (hiddenScene.repository.codec.encode ann [])) := by
      intro hooks hMem
      have hAsked :
          hiddenScene.transcriptOfStep
              (hiddenScene.repository.codec.encode ann []) =
            [⟨.listeners .beforeConvert, []⟩,
             ⟨.beforeHooks .person, []⟩,
             ⟨.afterHooks .person, []⟩,
             ⟨.listeners .beforeSave, []⟩] :=
        rfl
      rw [hAsked] at hMem
      simpa using hMem
    have hPayload :
        annDocument.toPayload =
          .ok annDocument.content.toJson.render := by
      decide +kernel
    have hHidden :
        hiddenScene.repository.codec.HidesMark
          hiddenPerson.descriptor 7 :=
      ⟨by decide, _, _, rfl, rfl⟩
    have hDecode :=
      (round_trip keepable_hidden_ann ⟨ann, _, rfl⟩
        (hDocument ▸ hEncode) hAlone hPayload
        (Text.lit "p1")).1 hHidden
    exact ⟨_, hDocument, hPayload, hDecode⟩

end Codec

end DocumentMapper
