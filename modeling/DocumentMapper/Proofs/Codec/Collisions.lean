import DocumentMapper.Proofs.Codec.RoundTrip

/-
  Names that meet in one document.

  The mark of a type, the version token and the fields of an
  entity share the keys of one document, and nothing keeps
  their names apart. A field that has the name of the mark is
  written in its place, and a token that is shown covers what
  has its name, be it the mark or a field. Everything else is
  found as it was written.

  Key definitions include:
    * `Codec.Replaces`

  Main statements include:
    * `Codec.get?_mark_toDocument`
    * `Codec.documentOf_encoded`
-/

namespace DocumentMapper

variable {T : Type}
variable [EntityTypes T]
variable {K : Hooks T}

namespace Codec

variable {S : Schema}
variable {c : Codec T}
variable {d : Descriptor S}
variable {e : Entity S}
variable {document : Document}

------------------------------------------------------------
-- Fields and Marks
------------------------------------------------------------

/- A field of an entity writes this value in place of the mark. -/
def Replaces
    (c : Codec T)
    (d : Descriptor S)
    (e : Entity S)
    (value : Json) : Prop :=
  ∃ field ∈ d.fields, ∃ mark,
    c.typeMark? d = some (field.name, mark) ∧
      field.write c.mapping.conversions e = .ok value ∧
      value ≠ .string mark

/- The mark is found in a document unless a field replaces it. -/
theorem get?_mark_toDocument
    {key mark : Text}
    (hDocument : c.toDocument d e = .ok document)
    (hNames : (d.fields.map (·.name)).Nodup)
    (hMark : c.typeMark? d = some (key, mark))
    (hKept : ∀ value, ¬ c.Replaces d e value) :
    document.get? key = some (.string mark) := by
  by_cases hField : ∃ field ∈ d.fields, field.name = key
  · rcases hField with ⟨field, hMem, rfl⟩
    rcases get?_toDocument hDocument hNames field hMem with
      ⟨value, hWrite, hGet⟩
    have hSame : value = .string mark := by
      by_contra hOther
      exact hKept value ⟨field, hMem, mark, hMark, hWrite, hOther⟩
    rw [hGet, hSame]
  · have hOthers : ∀ field ∈ d.fields, field.name ≠ key :=
      fun field hMem hName => hField ⟨field, hMem, hName⟩
    rw [get?_toDocument_of_not_mem hDocument hOthers, get?_marked,
      hMark]
    simp

/- A token hides the mark exactly if it covers it. -/
theorem hidesMark_iff
    {token : UInt64} :
    c.HidesMark d token ↔
      ∃ key mark,
        c.typeMark? d = some (key, mark) ∧ Covers d token key := by
  unfold HidesMark Covers
  constructor
  · rintro ⟨hToken, version, mark, hVersion, hMark⟩
    exact ⟨_, mark, hMark, hToken, by rw [hVersion]; rfl⟩
  · rintro ⟨key, mark, hMark, hToken, hName⟩
    rcases Option.map_eq_some_iff.mp hName with
      ⟨version, hVersion, rfl⟩
    exact ⟨hToken, version, mark, hVersion, hMark⟩

------------------------------------------------------------
-- Documents of Payloads
------------------------------------------------------------

variable {t : T}

/-
  What was encoded is read back, field by field, wherever the
  names lie apart. A token that covers the mark of the type,
  and a field that replaces it, make the payload unreadable;
  and a token that covers a field is found in the place of
  what the field wrote.
-/
theorem documentOf_encoded
    {d : Descriptor (EntityTypes.schema t)}
    {e : EntityOf t}
    {collection payload : Text}
    {transcript : Transcript T K}
    {document : Document}
    (hDescriptor : c.mapping.descriptor t = .ok d)
    (hNames : (d.fields.map (·.name)).Nodup)
    (hEncode :
      (c.encode e collection : Step T K Document).Ends transcript
        (.ok document))
    (hPayload : document.toPayload = .ok payload)
    (id : Text)
    (token : UInt64) :
    ∃ converted : EntityOf t,
      (Unsubstituted t transcript → converted = e) ∧
      (c.HidesMark d token →
        let error :=
          (CodecFault.wrongType id (Text.ofNat token.toNat)
            d.aliasName).toError
        c.documentOf t id payload token = .error error ∧
          c.decode t id payload token = .error error) ∧
      (∀ value,
        ¬ c.HidesMark d token →
        c.Replaces d converted value →
        let error :=
          (CodecFault.wrongType id value.reread.render
            d.aliasName).toError
        c.documentOf t id payload token = .error error ∧
          c.decode t id payload token = .error error) ∧
      (¬ c.HidesMark d token →
        (∀ value, ¬ c.Replaces d converted value) →
        ∃ read,
          c.documentOf t id payload token = .ok read ∧
          c.decode t id payload token =
            (do
              let e ← c.entityOf t read
              d.withToken e token) ∧
          ∀ field ∈ d.fields, ∃ value,
            field.write c.mapping.conversions converted =
                .ok value ∧
              read.get? field.name =
                some
                  (if Covers d token field.name then
                    .unsigned token
                  else
                    value.reread)) := by
  rcases ends_encode hEncode with
    ⟨given, converted, hGiven, hDocument, hSame⟩
  cases hDescriptor.symm.trans hGiven
  rcases absorb_toPayload_reread hPayload id with
    ⟨read, hAbsorb, -, hRead⟩
  have hDocumentOf :
      c.documentOf t id payload token =
        (c.checkType d id (shown d read token)).map
          fun _ => shown d read token :=
    documentOf_eq hDescriptor hAbsorb
  refine ⟨converted, hSame, ?_, ?_, ?_⟩
  · intro hHides error
    rw [checkType_of_hidesMark hHides] at hDocumentOf
    exact ⟨hDocumentOf, decode_of_documentOf_error hDocumentOf⟩
  · intro value hHides hReplaces error
    rcases hReplaces with
      ⟨field, hField, mark, hMark, hWrite, hOther⟩
    rcases get?_toDocument hDocument hNames field hField with
      ⟨written, hWritten, hGet⟩
    cases hWrite.symm.trans hWritten
    have hShown :
        (shown d read token).get? field.name =
          some value.reread := by
      rw [get?_shown, if_neg, hRead, hGet]
      · rfl
      · intro hCovers
        exact hHides (hidesMark_iff.mpr ⟨_, _, hMark, hCovers⟩)
    -- the text of a payload turns nothing else into a string
    have hOtherRead : value.reread ≠ .string mark :=
      fun h => hOther (Json.reread_eq_string_iff.mp h)
    rw [checkType_of_ne hMark hShown hOtherRead,
      (typeMark?_eq_some hMark).2] at hDocumentOf
    exact ⟨hDocumentOf, decode_of_documentOf_error hDocumentOf⟩
  · intro hHides hKept
    have hMark :
        ∀ key mark, c.typeMark? d = some (key, mark) →
          read.get? key = some (.string mark) := by
      intro key mark hMark
      rw [hRead, get?_mark_toDocument hDocument hNames hMark hKept]
      rfl
    have hCheck :
        c.checkType d id (shown d read token) = .ok () :=
      checkType_of_not_hidesMark hHides hMark
    rw [hCheck] at hDocumentOf
    refine ⟨shown d read token, hDocumentOf, ?_, ?_⟩
    · rw [decode_eq hDescriptor hAbsorb, hCheck]
      rfl
    · intro field hField
      rcases get?_toDocument hDocument hNames field hField with
        ⟨value, hWrite, hGet⟩
      refine ⟨value, hWrite, ?_⟩
      rw [get?_shown, hRead, hGet]
      split <;> rfl

open Sample in
/-
  The token of Ann stands where her name was written, if both
  have one name; and a name in place of the mark is taken for
  the mark of another type.
-/
theorem documentOf_encoded_of_ann :
    (∃ payload read,
      (Session.converse
          (namedScene.repository.codec.encode ann [])
          namedScene).1 =
        .ok annDocument ∧
      annDocument.toPayload = .ok payload ∧
      namedScene.repository.codec.documentOf .person
        (Text.lit "p1") payload 7 = .ok read ∧
      annDocument.get? (Text.lit "name") = some (.lit "Ann") ∧
      read.get? (Text.lit "name") = some (.unsigned 7)) ∧
    (∃ document payload,
      let codec :=
        { hiddenScene.repository.codec with
          typeKey := Text.lit "name" }
      (Session.converse (codec.encode ann []) hiddenScene).1 =
        .ok document ∧
      document.toPayload = .ok payload ∧
      codec.decode .person (Text.lit "p1") payload 7 =
        .error
          (CodecFault.wrongType (Text.lit "p1")
            (Json.lit "Ann").render (Text.lit "person")).toError) := by
  constructor
  · have hEncode :=
      Session.ends_converse namedScene
        (namedScene.repository.codec.encode ann [])
    have hDocument :
        (Session.converse
            (namedScene.repository.codec.encode ann [])
            namedScene).1 =
          .ok annDocument :=
      rfl
    have hPayload :
        annDocument.toPayload =
          .ok annDocument.content.toJson.render := by
      decide +kernel
    rcases
      documentOf_encoded (d := namedPerson.descriptor) rfl
        (by decide) (hDocument ▸ hEncode) hPayload
        (Text.lit "p1") 7 with
      ⟨converted, -, -, -, hRead⟩
    have hFields :
        namedPerson.descriptor.fields =
          [⟨Text.lit "name", ⟨2, by decide⟩, false⟩] :=
      rfl
    have hShown :
        ¬ namedScene.repository.codec.HidesMark
          namedPerson.descriptor 7 := by
      rintro ⟨-, version, mark, hVersion, hMark⟩
      cases hVersion
      exact absurd (typeMark?_eq_some hMark).1 (by decide)
    have hKept :
        ∀ value,
          ¬ namedScene.repository.codec.Replaces
            namedPerson.descriptor converted value := by
      rintro value ⟨field, hField, mark, hMark, -⟩
      rw [hFields, List.mem_singleton] at hField
      subst hField
      exact absurd (typeMark?_eq_some hMark).1 (by decide)
    rcases hRead hShown hKept with ⟨read, hRead, -, hAll⟩
    rcases hAll _ (hFields ▸ List.mem_singleton_self _) with
      ⟨value, -, hName⟩
    exact ⟨_, read, hDocument, hPayload, hRead, rfl, hName⟩
  · let codec :=
      { hiddenScene.repository.codec with
        typeKey := Text.lit "name" }
    let document : Document :=
      { annDocument with
        content := ⟨[(Text.lit "name", .lit "Ann")], by decide⟩ }
    have hEncode :=
      Session.ends_converse hiddenScene (codec.encode ann [])
    have hDocument :
        (Session.converse (codec.encode ann []) hiddenScene).1 =
          .ok document :=
      rfl
    have hAlone :
        Unsubstituted EntityType.person
          (hiddenScene.transcriptOfStep (codec.encode ann [])) := by
      intro hooks hMem
      have hAsked :
          hiddenScene.transcriptOfStep (codec.encode ann []) =
            [⟨.listeners .beforeConvert, []⟩,
             ⟨.beforeHooks .person, []⟩,
             ⟨.afterHooks .person, []⟩,
             ⟨.listeners .beforeSave, []⟩] :=
        rfl
      rw [hAsked] at hMem
      simpa using hMem
    have hPayload :
        document.toPayload = .ok document.content.toJson.render := by
      decide +kernel
    have hShown : ¬ codec.HidesMark hiddenPerson.descriptor 7 := by
      rintro ⟨-, version, mark, hVersion, hMark⟩
      cases hVersion
      exact absurd (typeMark?_eq_some hMark).1 (by decide)
    rcases
      documentOf_encoded (d := hiddenPerson.descriptor) rfl
        (by decide) (hDocument ▸ hEncode) hPayload
        (Text.lit "p1") 7 with
      ⟨converted, hSame, -, hReplaced, -⟩
    rcases hSame hAlone with rfl
    have hOther : Text.lit "Ann" ≠ Text.lit "person" := by decide
    have hReplaces :
        codec.Replaces hiddenPerson.descriptor ann (.lit "Ann") :=
      ⟨_, List.mem_singleton_self _, _, rfl, rfl,
        fun h => hOther (Json.string.inj h)⟩
    exact
      ⟨document, _, hDocument, hPayload,
        (hReplaced _ hShown hReplaces).2⟩

end Codec

end DocumentMapper
