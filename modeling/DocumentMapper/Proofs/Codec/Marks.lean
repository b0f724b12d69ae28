import DocumentMapper.Proofs.Codec.RoundTrip

/-
  Marks of types keep payloads apart.

  A payload of a marked type shows the alias of its type under
  the type key, unless a field of that type is bound to the
  key. What is decoded is checked after the token is shown, so
  a token may stand in the place of the mark; it is no alias
  of any type, and the payload is rejected all the same.

  Key definitions include:
    * `Codec.SpeaksAgainst`
    * `Codec.Rejects`

  Main statements include:
    * `Codec.rejects_of_absorb`
    * `Codec.get?_typeKey_of_encode`
    * `Codec.no_type_confusion`
-/

namespace DocumentMapper

variable {T : Type}
variable [EntityTypes T]
variable {K : Hooks T}

namespace Codec

variable {S : Schema}
variable {c : Codec T}

------------------------------------------------------------
-- Rejected Payloads
------------------------------------------------------------

/-
  What a document holds under the type key, if anything, does
  not let it pass for the type.
-/
def SpeaksAgainst
    (c : Codec T)
    (d : Descriptor S)
    (document : Document) : Prop :=
  match document.get? c.typeKey with
  | some value => value ≠ .string d.aliasName
  | none => c.requireTypeMetadata = true

/-
  A payload is no document of the type and no entity of it,
  whatever identifier and token come along.
-/
def Rejects
    (c : Codec T)
    (t : T)
    (payload : Text) : Prop :=
  ∀ id token, ∃ error : Error,
    error.code = .decodeError ∧
      c.documentOf t id payload token = .error error ∧
      c.decode t id payload token = .error error

/- A type key and an alias are a mark. -/
theorem typeMark?_of_ne
    {d : Descriptor S}
    (hKey : c.typeKey ≠ [])
    (hAlias : d.aliasName ≠ []) :
    c.typeMark? d = some (c.typeKey, d.aliasName) := by
  apply if_neg
  rintro (hNone | hNone)
  · exact hKey hNone
  · exact hAlias hNone

/- What speaks against a marked type fails its check. -/
theorem checkType_of_speaksAgainst
    {d : Descriptor S}
    {document : Document}
    (hKey : c.typeKey ≠ [])
    (hAlias : d.aliasName ≠ [])
    (hAgainst : c.SpeaksAgainst d document)
    (id : Text) :
    ∃ fault : CodecFault,
      c.checkType d id document = .error fault.toError := by
  have hMark := typeMark?_of_ne hKey hAlias
  unfold SpeaksAgainst at hAgainst
  cases hValue : document.get? c.typeKey with
  | none =>
      rw [hValue] at hAgainst
      have hRequired : c.requireTypeMetadata = true := hAgainst
      unfold checkType
      rw [hMark]
      dsimp only
      rw [hValue]
      exact ⟨_, if_pos hRequired⟩
  | some value =>
      rw [hValue] at hAgainst
      exact ⟨_, checkType_of_ne hMark hValue hAgainst⟩

/- No token that is shown makes a document pass. -/
theorem SpeaksAgainst.shown
    {d : Descriptor S}
    {document : Document}
    (hAgainst : c.SpeaksAgainst d document)
    (token : UInt64) :
    c.SpeaksAgainst d (shown d document token) := by
  unfold SpeaksAgainst
  rw [get?_shown]
  by_cases hCovers : Covers d token c.typeKey
  · rw [if_pos hCovers]
    exact Json.noConfusion
  · rw [if_neg hCovers]
    exact hAgainst

/- A payload that reads as such a document is rejected. -/
theorem rejects_of_absorb
    {t : T}
    {d : Descriptor (EntityTypes.schema t)}
    {payload : Text}
    (hDescriptor : c.mapping.descriptor t = .ok d)
    (hKey : c.typeKey ≠ [])
    (hAlias : d.aliasName ≠ [])
    (hAbsorb :
      ∀ id, ∃ read,
        (Document.ofId id).absorb payload = .ok read ∧
          c.SpeaksAgainst d read) :
    c.Rejects t payload := by
  intro id token
  rcases hAbsorb id with ⟨read, hRead, hAgainst⟩
  rcases checkType_of_speaksAgainst hKey hAlias
      (hAgainst.shown token) id with
    ⟨fault, hCheck⟩
  have hDocument :
      c.documentOf t id payload token = .error fault.toError := by
    rw [documentOf_eq hDescriptor hRead, hCheck]
    rfl
  exact
    ⟨_, rfl, hDocument, decode_of_documentOf_error hDocument⟩

------------------------------------------------------------
-- Payloads of Other Types
------------------------------------------------------------

variable {t : T}

/- What is encoded shows the alias of its type. -/
theorem get?_typeKey_of_encode
    {d : Descriptor (EntityTypes.schema t)}
    {e : EntityOf t}
    {collection : Text}
    {transcript : Transcript T K}
    {document : Document}
    (hDescriptor : c.mapping.descriptor t = .ok d)
    (hKey : c.typeKey ≠ [])
    (hAlias : d.aliasName ≠ [])
    (hFields : ∀ field ∈ d.fields, field.name ≠ c.typeKey)
    (hEncode :
      (c.encode e collection : Step T K Document).Ends transcript
        (.ok document)) :
    document.get? c.typeKey = some (.string d.aliasName) := by
  rcases ends_encode hEncode with
    ⟨given, converted, hGiven, hDocument, -⟩
  rw [hDescriptor] at hGiven
  have hSame : d = given := Except.ok.inj hGiven
  subst hSame
  rw [get?_toDocument_of_not_mem hDocument hFields, get?_marked,
    typeMark?_of_ne hKey hAlias, Option.bind_some]
  exact if_pos rfl

/- A payload without the type key lacks what is required. -/
theorem absorb_speaksAgainst_of_not_mem
    {d : Descriptor S}
    {payload : Text}
    {members : List (Text × Json)}
    (hRequired : c.requireTypeMetadata = true)
    (hParse : Json.parse? payload = some (.object members))
    (hLacks : c.typeKey ∉ Association.keys members)
    (id : Text) :
    ∃ read,
      (Document.ofId id).absorb payload = .ok read ∧
        c.SpeaksAgainst d read := by
  let read := Document.ofContent id (.object members)
  have hNone : read.get? c.typeKey = none := by
    show Association.lookup? c.typeKey
      (Association.merge [] members) = none
    rw [Association.lookup?_eq_none_iff,
      Association.mem_keys_merge_iff]
    rintro (hMem | hMem)
    · exact absurd hMem List.not_mem_nil
    · exact hLacks hMem
  refine ⟨read, absorb_of_parse? hParse id, ?_⟩
  unfold SpeaksAgainst
  rw [hNone]
  exact hRequired

/-
  No payload is taken for one of another type. What was
  encoded as a type with an alias is rejected as any type with
  another alias, even where the token of that type is shown
  under the type key; and where type metadata is required, an
  object without the type key is rejected as any type with an
  alias.
-/
theorem no_type_confusion
    {c : Codec T}
    (hKey : c.typeKey ≠ []) :
    (∀ {a b : T}
        {dA : Descriptor (EntityTypes.schema a)}
        {dB : Descriptor (EntityTypes.schema b)}
        {e : EntityOf a}
        {collection : Text}
        {transcript : Transcript T K}
        {document : Document}
        {payload : Text},
      c.mapping.descriptor a = .ok dA →
      c.mapping.descriptor b = .ok dB →
      dA.aliasName ≠ [] →
      dB.aliasName ≠ [] →
      dA.aliasName ≠ dB.aliasName →
      (∀ field ∈ dA.fields, field.name ≠ c.typeKey) →
      (c.encode e collection : Step T K Document).Ends transcript
        (.ok document) →
      document.toPayload = .ok payload →
      c.Rejects b payload) ∧
    (c.requireTypeMetadata = true →
      ∀ {t : T} {d : Descriptor (EntityTypes.schema t)}
        {payload : Text} {members : List (Text × Json)},
      c.mapping.descriptor t = .ok d →
      d.aliasName ≠ [] →
      Json.parse? payload = some (.object members) →
      c.typeKey ∉ Association.keys members →
      c.Rejects t payload) := by
  constructor
  · intro a b dA dB e collection transcript document payload
      hA hB hAliasA hAliasB hOther hFields hEncode hPayload
    apply rejects_of_absorb hB hKey hAliasB
    intro id
    rcases absorb_toPayload_reread hPayload id with
      ⟨read, hAbsorb, -, hRead⟩
    refine ⟨read, hAbsorb, ?_⟩
    have hMark :
        read.get? c.typeKey = some (.string dA.aliasName) := by
      rw [hRead, get?_typeKey_of_encode hA hKey hAliasA hFields
        hEncode]
      rfl
    unfold SpeaksAgainst
    rw [hMark]
    intro hSame
    exact hOther (Json.string.inj hSame)
  · intro hRequired t d payload members hDescriptor hAlias hParse
      hLacks
    apply rejects_of_absorb hDescriptor hKey hAlias
    intro id
    exact absorb_speaksAgainst_of_not_mem hRequired hParse hLacks id

/-
  What was encoded as a user is no person, though people show
  their token under the type key; and an object without a mark
  is no user where marks are required.
-/
theorem no_type_confusion_of_bea :
    (∃ payload,
      (Session.converse
          (Sample.hiddenScene.repository.codec.encode Sample.bea [])
          Sample.hiddenScene).1 =
        .ok Sample.beaDocument ∧
      Sample.beaDocument.toPayload = .ok payload ∧
      Sample.hiddenScene.repository.codec.Rejects .person
        payload) ∧
    ({ Sample.scene.repository.codec with
        requireTypeMetadata := true } :
      Codec Sample.EntityType).Rejects .user
        (Text.lit "\x7b\"name\":\"Bea\"\x7d") := by
  have hKey : Sample.hiddenScene.repository.codec.typeKey ≠ [] := by
    decide
  constructor
  · have hEncode :=
      Session.ends_converse Sample.hiddenScene
        (Sample.hiddenScene.repository.codec.encode Sample.bea [])
    have hDocument :
        (Session.converse
            (Sample.hiddenScene.repository.codec.encode Sample.bea
              [])
            Sample.hiddenScene).1 =
          .ok Sample.beaDocument :=
      rfl
    have hPayload :
        Sample.beaDocument.toPayload =
          .ok Sample.beaDocument.content.toJson.render := by
      decide +kernel
    have hUser :
        Sample.hiddenScene.repository.codec.mapping.descriptor
            Sample.EntityType.user =
          .ok (Sample.Declaration.usual .user).descriptor :=
      rfl
    have hPerson :
        Sample.hiddenScene.repository.codec.mapping.descriptor
            Sample.EntityType.person =
          .ok Sample.hiddenPerson.descriptor :=
      rfl
    refine ⟨_, hDocument, hPayload, ?_⟩
    rw [hDocument] at hEncode
    exact
      (no_type_confusion hKey).1 hUser hPerson (by decide)
        (by decide) (by decide) (by decide) hEncode hPayload
  · have hText :
        Text.lit "\x7b\"name\":\"Bea\"\x7d" =
          (Json.object [(Text.lit "name", .lit "Bea")]).render := by
      decide +kernel
    have hPrintable :
        (Json.object [(Text.lit "name", .lit "Bea")]).printable =
          true := by
      decide +kernel
    have hParse := Json.parse?_render_reread hPrintable
    rw [Json.reread_object (by decide), ← hText] at hParse
    exact
      (no_type_confusion (K := scriptedHooks Sample.EntityType)
        (c := { Sample.scene.repository.codec with
          requireTypeMetadata := true }) hKey).2 rfl
        (d := (Sample.Declaration.usual .user).descriptor)
        rfl (by decide) hParse (by decide)

end Codec

end DocumentMapper
