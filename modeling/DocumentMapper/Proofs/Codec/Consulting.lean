import DocumentMapper.Proofs.Codec.RoundTrip
import DocumentMapper.Proofs.Json.Objects

/-
  What decoding looks at.

  A payload is looked up under the names of the fields, the
  type key and the version attribute, and nowhere else. The
  fields are read in the order of their declaration, and the
  first one that cannot be read is reported; one that is not
  there leaves its member alone.

  Key definitions include:
    * `Document.AgreeOn`
    * `AttributeBinding.fault?`
    * `Descriptor.LeavesAlone`
    * `Codec.Consults`
    * `Codec.offered?`

  Main statements include:
    * `Codec.checkType_congr`
    * `Codec.entityOf_congr`
    * `Codec.decode_congr`
    * `Codec.readAttributes_step`
    * `Codec.readAttributes_by_faults`
    * `Codec.decode_by_consulted`
-/

namespace DocumentMapper

variable {T : Type}
variable [EntityTypes T]
variable {S : Schema}

------------------------------------------------------------
-- Documents That Agree
------------------------------------------------------------

/- The documents have one identifier and agree under some keys. -/
structure Document.AgreeOn
    (keys : Text → Prop)
    (a b : Document) : Prop where
  same_id : a.id = b.id
  same_value : ∀ key, keys key → a.get? key = b.get? key

namespace Codec

variable {c : Codec T}
variable {d : Descriptor S}
variable {a b : Document}

/-
  Decoding looks under a key: it is the name of a field, it
  holds the mark of the type, or it shows the version token.
-/
def Consults
    (c : Codec T)
    (d : Descriptor S)
    (key : Text) : Prop :=
  (∃ field ∈ d.fields, field.name = key) ∨
    (∃ mark, c.typeMark? d = some (key, mark)) ∨
    ∃ version, d.version? = some version ∧ version.name = key

/- A token is shown in both documents or in none. -/
theorem shown_agreeOn
    {keys : Text → Prop}
    (hAgree : Document.AgreeOn keys a b)
    (token : UInt64) :
    Document.AgreeOn keys (shown d a token)
      (shown d b token) where
  same_id := by
    rw [shown_id, shown_id, hAgree.same_id]
  same_value key hKey := by
    rw [get?_shown, get?_shown, hAgree.same_value key hKey]

/- The check of a type looks under the type key only. -/
theorem checkType_congr
    (hSame :
      ∀ key mark, c.typeMark? d = some (key, mark) →
        a.get? key = b.get? key)
    (id : Text) :
    c.checkType d id a = c.checkType d id b := by
  unfold checkType
  cases hMark : c.typeMark? d with
  | none => rfl
  | some pair =>
      rcases pair with ⟨key, mark⟩
      dsimp only
      rw [hSame key mark hMark]

/- Fields are read from what stands under their names only. -/
theorem readAttributes_congr
    {fields : List (AttributeBinding S)}
    (hId : a.id = b.id)
    (hFields :
      ∀ field ∈ fields, a.get? field.name = b.get? field.name)
    (conversions : Conversions)
    (e : Entity S) :
    readAttributes conversions a e fields =
      readAttributes conversions b e fields := by
  induction fields generalizing e with
  | nil => rfl
  | cons field rest ih =>
      rw [List.forall_mem_cons] at hFields
      rw [readAttributes, readAttributes, hFields.1, hId]
      simp only [ih hFields.2]

/- The token is read from the version attribute only. -/
theorem readVersion_congr
    (hAgree : Document.AgreeOn (c.Consults d) a b)
    (e : Entity S) :
    readVersion d a e = readVersion d b e := by
  unfold readVersion
  cases hVersion : d.version? with
  | none => rfl
  | some version =>
      have hSame :=
        hAgree.same_value version.name
          (.inr (.inr ⟨version, hVersion, rfl⟩))
      dsimp only
      rw [hSame]

variable {t : T}

/- Documents that agree are read as one entity. -/
theorem entityOf_congr
    {d : Descriptor (EntityTypes.schema t)}
    (hDescriptor : c.mapping.descriptor t = .ok d)
    (hAgree : Document.AgreeOn (c.Consults d) a b) :
    c.entityOf t a = c.entityOf t b := by
  have hFields :
      ∀ field ∈ d.fields,
        a.get? field.name = b.get? field.name :=
    fun field hField =>
      hAgree.same_value _ (.inl ⟨field, hField, rfl⟩)
  rw [entityOf_eq hDescriptor, entityOf_eq hDescriptor,
    readAttributes_congr hAgree.same_id hFields, hAgree.same_id]
  simp only [readVersion_congr hAgree]

/- Payloads that agree are decoded alike. -/
theorem decode_congr
    {d : Descriptor (EntityTypes.schema t)}
    {id payload other : Text}
    (hDescriptor : c.mapping.descriptor t = .ok d)
    (hPayload : (Document.ofId id).absorb payload = .ok a)
    (hOther : (Document.ofId id).absorb other = .ok b)
    (token : UInt64)
    (hAgree :
      Document.AgreeOn (c.Consults d) (shown d a token)
        (shown d b token)) :
    c.decode t id payload token = c.decode t id other token := by
  have hMark :
      ∀ key mark, c.typeMark? d = some (key, mark) →
        (shown d a token).get? key = (shown d b token).get? key :=
    fun key mark hMark =>
      hAgree.same_value key (.inr (.inl ⟨mark, hMark⟩))
  rw [decode_eq hDescriptor hPayload, decode_eq hDescriptor hOther,
    checkType_congr hMark, entityOf_congr hDescriptor hAgree]

------------------------------------------------------------
-- What Is Offered
------------------------------------------------------------

/-
  What a payload and its token offer under a key; the token
  may cover what the payload has there.
-/
def offered?
    (d : Descriptor S)
    (members : List (Text × Json))
    (token : UInt64)
    (key : Text) : Option Json :=
  if Covers d token key then
    some (.unsigned token)
  else
    Association.lookup? key members

/- An object with distinct keys is a document that shows them. -/
theorem get?_ofContent
    {members : List (Text × Json)}
    (hNodup : (Association.keys members).Nodup)
    (id key : Text) :
    (Document.ofContent id (.object members)).get? key =
      Association.lookup? key members := by
  have hMerge : Association.merge [] members = members :=
    Association.merge_of_nodup hNodup
  show Association.lookup? key (Association.merge [] members) = _
  rw [hMerge]

/- Payloads that agree under some keys are documents that do. -/
theorem agreeOn_of_parse?
    {keys : Text → Prop}
    {payload other : Text}
    {members others : List (Text × Json)}
    (hPayload : Json.parse? payload = some (.object members))
    (hOther : Json.parse? other = some (.object others))
    (hAgree :
      ∀ key, keys key →
        Association.lookup? key members =
          Association.lookup? key others)
    (id : Text) :
    Document.AgreeOn keys
      (Document.ofContent id (.object members))
      (Document.ofContent id (.object others)) where
  same_id := rfl
  same_value key hKey := by
    rw [get?_ofContent (Json.keys_nodup_of_parse? hPayload),
      get?_ofContent (Json.keys_nodup_of_parse? hOther),
      hAgree key hKey]

/- A document with its token shows what is offered. -/
theorem get?_shown_ofContent
    {members : List (Text × Json)}
    (hNodup : (Association.keys members).Nodup)
    (id : Text)
    (token : UInt64) :
    (shown d (Document.ofContent id (.object members))
        token).get? =
      offered? d members token := by
  funext key
  rw [get?_shown, get?_ofContent hNodup, offered?]

end Codec

------------------------------------------------------------
-- Fields in Order
------------------------------------------------------------

/-
  Why a field cannot be read from what is offered under its
  name, if it cannot.
-/
def AttributeBinding.fault?
    (field : AttributeBinding S)
    (conversions : Conversions)
    (id : Text)
    (offered : Text → Option Json) : Option Error :=
  match offered field.name with
  | none =>
      if field.isRequired then
        some (CodecFault.missingField id field.name).toError
      else
        none
  | some value =>
      match conversions.read (S.typeAt field.index) value with
      | .ok _ => none
      | .error cause => some (inField id field.name cause)

/- Identifier and token are kept elsewhere than in a member. -/
structure Descriptor.LeavesAlone
    (d : Descriptor S)
    (i : S.Index) : Prop where
  withId : ∀ e id, (d.withId e id).value i = e.value i
  withToken :
    ∀ e token e',
      d.withToken e token = .ok e' → e'.value i = e.value i

/- Members for identifier and token are the only ones used. -/
theorem Descriptor.leavesAlone_of_members
    {d : Descriptor S}
    {m : Member S .string}
    {name : Text}
    {type : TokenType}
    {v : Member S type.fieldType}
    {i : S.Index}
    (hId : d.id? = some (.member m))
    (hVersion : d.version? = some ⟨name, .member type v⟩)
    (hNotId : m.index ≠ i)
    (hNotVersion : v.index ≠ i) :
    d.LeavesAlone i where
  withId e id := by
    unfold Descriptor.withId
    rw [hId]
    exact Entity.value_set_of_ne _ _ hNotId
  withToken _ _ _ hSet :=
    value_withToken_of_ne hVersion hNotVersion hSet

namespace Codec

variable {c : Codec T}
variable {d : Descriptor S}

/-
  One field is reported, or read into its member; without an
  attribute that member stays as well.
-/
theorem readAttributes_step
    (conversions : Conversions)
    (document : Document)
    (e : Entity S)
    (field : AttributeBinding S)
    (rest : List (AttributeBinding S)) :
    match field.fault? conversions document.id document.get? with
    | some error =>
        readAttributes conversions document e (field :: rest) =
          .error error
    | none =>
        ∃ next,
          readAttributes conversions document e (field :: rest) =
              readAttributes conversions document next rest ∧
            ∀ i,
              (field.index = i →
                document.get? field.name = none) →
              next.value i = e.value i := by
  unfold AttributeBinding.fault?
  rw [readAttributes]
  cases hValue : document.get? field.name with
  | none =>
      cases hRequired : field.isRequired with
      | true => rfl
      | false => exact ⟨e, rfl, fun _ _ => rfl⟩
  | some value =>
      dsimp only [AttributeBinding.read]
      cases conversions.read (S.typeAt field.index) value with
      | error cause => rfl
      | ok v =>
          refine ⟨e.set field.index v, rfl, fun i hNone => ?_⟩
          apply Entity.value_set_of_ne
          intro hIndex
          cases hNone hIndex

/-
  The first field that cannot be read is reported. Where all
  can be read, members without an attribute stay as they were.
-/
theorem readAttributes_by_faults
    (conversions : Conversions)
    (document : Document)
    (e : Entity S)
    (fields : List (AttributeBinding S)) :
    match
      fields.findSome?
        (·.fault? conversions document.id document.get?)
    with
    | some error =>
        readAttributes conversions document e fields = .error error
    | none =>
        ∃ read,
          readAttributes conversions document e fields = .ok read ∧
            ∀ i,
              (∀ field ∈ fields,
                field.index = i →
                  document.get? field.name = none) →
              read.value i = e.value i := by
  induction fields generalizing e with
  | nil => exact ⟨e, rfl, fun _ _ => rfl⟩
  | cons field rest ih =>
      have hStep :=
        readAttributes_step conversions document e field rest
      rw [List.findSome?_cons]
      cases hFault :
          field.fault? conversions document.id document.get? with
      | some error =>
          rw [hFault] at hStep
          exact hStep
      | none =>
          -- the rest is read into the next entity, not into this one
          rw [hFault] at hStep
          rcases hStep with ⟨next, hNext, hKept⟩
          have hRest := ih next
          rw [hNext]
          dsimp only
          split
          · rename_i error hLater
            rw [hLater] at hRest
            exact hRest
          · rename_i hNone
            rw [hNone] at hRest
            rcases hRest with ⟨read, hRead, hSame⟩
            refine ⟨read, hRead, fun i hAbsent => ?_⟩
            rw [List.forall_mem_cons] at hAbsent
            rw [hSame i hAbsent.2, hKept i hAbsent.1]

/- A started entity has what its other members start with. -/
theorem value_started
    {i : S.Index}
    (hAlone : d.LeavesAlone i)
    (id : Text) :
    (started d id).value i = (S.members.get i).initial := by
  unfold started
  split
  · rfl
  · exact hAlone.withId _ id

/- Reading a token leaves the other members alone. -/
theorem value_readVersion
    {i : S.Index}
    {document : Document}
    {e e' : Entity S}
    (hAlone : d.LeavesAlone i)
    (h : readVersion d document e = .ok e') :
    e'.value i = e.value i := by
  unfold readVersion at h
  split at h
  · cases h
    rfl
  · split at h
    · exact hAlone.withToken _ _ _ h
    · cases h
      rfl

------------------------------------------------------------
-- Decoding What Is Offered
------------------------------------------------------------

variable {t : T}

/-
  Of a document that passes the check of its type, the first
  field that cannot be read is reported. Where all can be
  read, the members without an attribute are those of a
  started entity, which only the tokens may change.
-/
theorem decode_by_faults
    {d : Descriptor (EntityTypes.schema t)}
    {id payload : Text}
    {members : List (Text × Json)}
    {token : UInt64}
    {document : Document}
    (hDescriptor : c.mapping.descriptor t = .ok d)
    (hParse : Json.parse? payload = some (.object members))
    (hDocument :
      c.documentOf t id payload token = .ok document) :
    match
      d.fields.findSome?
        (·.fault? c.mapping.conversions id
          (offered? d members token))
    with
    | some error => c.decode t id payload token = .error error
    | none =>
        ∃ read : EntityOf t,
          (∀ i,
            (∀ field ∈ d.fields,
              field.index = i →
                offered? d members token field.name = none) →
            read.value i = (started d id).value i) ∧
          c.decode t id payload token =
            (do
              let e ← readVersion d document read
              d.withToken e token) := by
  have hAbsorb := absorb_of_parse? hParse id
  rw [documentOf_eq hDescriptor hAbsorb] at hDocument
  rcases Result.map_eq_ok_iff.mp hDocument with
    ⟨⟨⟩, hCheck, rfl⟩
  have hId :
      (shown d (Document.ofContent id (.object members)) token).id =
        id :=
    shown_id d _ token
  have hDecode :
      c.decode t id payload token =
        (do
          let e ←
            c.entityOf t
              (shown d (Document.ofContent id (.object members))
                token)
          d.withToken e token) := by
    rw [decode_eq hDescriptor hAbsorb, hCheck]
    rfl
  rw [entityOf_eq hDescriptor, hId] at hDecode
  have hFields :=
    readAttributes_by_faults c.mapping.conversions
      (shown d (Document.ofContent id (.object members)) token)
      (started d id) d.fields
  rw [get?_shown_ofContent (Json.keys_nodup_of_parse? hParse),
    hId] at hFields
  rw [hDecode]
  split
  · rename_i error hFault
    rw [hFault] at hFields
    rw [hFields]
    rfl
  · rename_i hNone
    rw [hNone] at hFields
    rcases hFields with ⟨read, hRead, hKept⟩
    refine ⟨read, hKept, ?_⟩
    rw [hRead]
    rfl

/-
  A decoded entity has what its members start with, apart from
  those that are offered and those of identifier and token.
-/
theorem value_decode_of_absent
    {d : Descriptor (EntityTypes.schema t)}
    {id payload : Text}
    {members : List (Text × Json)}
    {token : UInt64}
    {e : EntityOf t}
    {i : (EntityTypes.schema t).Index}
    (hDescriptor : c.mapping.descriptor t = .ok d)
    (hParse : Json.parse? payload = some (.object members))
    (hDecode : c.decode t id payload token = .ok e)
    (hAlone : d.LeavesAlone i)
    (hAbsent :
      ∀ field ∈ d.fields,
        field.index = i →
          offered? d members token field.name = none) :
    e.value i = ((EntityTypes.schema t).members.get i).initial := by
  rcases Result.bind_eq_ok_iff.mp hDecode with
    ⟨document, hDocument, -⟩
  have hFaults := decode_by_faults hDescriptor hParse hDocument
  split at hFaults
  · rw [hFaults] at hDecode
    cases hDecode
  · rcases hFaults with ⟨read, hKept, hTokens⟩
    rw [hTokens] at hDecode
    rcases Result.bind_eq_ok_iff.mp hDecode with
      ⟨shown, hShown, hToken⟩
    rw [hAlone.withToken _ _ _ hToken,
      value_readVersion hAlone hShown, hKept i hAbsent]
    exact value_started hAlone id

/-
  Decoding depends on what it looks at. Payloads with the same
  values under the names of the fields, the type key and the
  version attribute are decoded alike, whatever else they hold
  and in whatever order; of a key that is repeated in the text
  the last value counts. Of a document of the right type the
  first field in the order of declaration that cannot be read
  is reported, and members that are not offered keep what they
  start with.
-/
theorem decode_by_consulted
    {d : Descriptor (EntityTypes.schema t)}
    {payload other : Text}
    {members others : List (Text × Json)}
    (hDescriptor : c.mapping.descriptor t = .ok d)
    (hPayload : Json.parse? payload = some (.object members))
    (hOther : Json.parse? other = some (.object others))
    (hAgree :
      ∀ key, c.Consults d key →
        Association.lookup? key members =
          Association.lookup? key others)
    (id : Text)
    (token : UInt64) :
    c.decode t id payload token = c.decode t id other token ∧
    (∃ standing,
      Json.standing? payload = some standing ∧
        ∀ key,
          Association.lookup? key members =
            Association.lookup? key standing.reverse) ∧
    (∀ document,
      c.documentOf t id payload token = .ok document →
      match
        d.fields.findSome?
          (·.fault? c.mapping.conversions id
            (offered? d members token))
      with
      | some error => c.decode t id payload token = .error error
      | none =>
          ∃ read : EntityOf t,
            (∀ i,
              (∀ field ∈ d.fields,
                field.index = i →
                  offered? d members token field.name = none) →
              read.value i = (started d id).value i) ∧
            c.decode t id payload token =
              (do
                let e ← readVersion d document read
                d.withToken e token)) ∧
    (∀ e,
      c.decode t id payload token = .ok e →
      ∀ i, d.LeavesAlone i →
        (∀ field ∈ d.fields,
          field.index = i →
            offered? d members token field.name = none) →
        e.value i =
          ((EntityTypes.schema t).members.get i).initial) := by
  have hContent := agreeOn_of_parse? hPayload hOther hAgree id
  refine ⟨?_, Json.lookup?_of_parse? hPayload, ?_, ?_⟩
  · exact
      decode_congr hDescriptor (absorb_of_parse? hPayload id)
        (absorb_of_parse? hOther id) token
        (shown_agreeOn hContent token)
  · intro document hDocument
    exact decode_by_faults hDescriptor hPayload hDocument
  · intro e hDecode i hAlone hAbsent
    exact
      value_decode_of_absent hDescriptor hPayload hDecode hAlone
        hAbsent

open Sample in
/-
  A name that is repeated and an attribute of no field make no
  difference to Bea, and her age stays as it started.
-/
theorem decode_by_consulted_of_bea :
    ∃ e : EntityOf EntityType.user,
      scene.repository.codec.decode .user (Text.lit "u1")
        (Text.lit
          "\x7b\"name\":\"X\",\"extra\":1,\"name\":\"Bea\"\x7d")
        7 = .ok e ∧
      scene.repository.codec.decode .user (Text.lit "u1")
        (Text.lit "\x7b\"name\":\"Bea\"\x7d") 7 = .ok e ∧
      e.value ⟨3, by decide⟩ = (0 : Int32) := by
  have hPayload :=
    Json.parse?_of_eq_render
      (s := Text.lit
        "\x7b\"name\":\"X\",\"extra\":1,\"name\":\"Bea\"\x7d")
      (j := .object
        [(Text.lit "name", .lit "X"),
         (Text.lit "extra", .unsigned 1),
         (Text.lit "name", .lit "Bea")])
      (by decide +kernel) (by decide +kernel)
  have hOther :=
    Json.parse?_of_eq_render
      (s := Text.lit "\x7b\"name\":\"Bea\"\x7d")
      (j := .object [(Text.lit "name", .lit "Bea")])
      (by decide +kernel) (by decide +kernel)
  have hNotExtra :
      ∀ key,
        scene.repository.codec.Consults
          (Declaration.usual .user).descriptor key →
        Text.lit "extra" ≠ key := by
    rintro _ (⟨field, hField, rfl⟩ | ⟨mark, hMark⟩ |
      ⟨version, hVersion, rfl⟩)
    · have hNames :
          ∀ field ∈ (Declaration.usual .user).descriptor.fields,
            Text.lit "extra" ≠ field.name := by
        decide
      exact hNames field hField
    · cases hMark
      decide
    · cases hVersion
      decide
  have hAgree :
      ∀ key,
        scene.repository.codec.Consults
          (Declaration.usual .user).descriptor key →
        Association.lookup? key
            [(Text.lit "name", .lit "Bea"),
             (Text.lit "extra", .unsigned 1)] =
          Association.lookup? key
            [(Text.lit "name", Json.lit "Bea")] := by
    intro key hKey
    simp [Association.lookup?, hNotExtra key hKey]
  rcases
    decode_by_consulted (c := scene.repository.codec)
      (d := (Declaration.usual .user).descriptor) rfl hPayload
      hOther hAgree (Text.lit "u1") 7 with
    ⟨hSame, -, -, hKept⟩
  have hIsOk :
      (scene.repository.codec.decode EntityType.user
        (Text.lit "u1")
        (Text.lit "\x7b\"name\":\"Bea\"\x7d") 7).isOk =
        true := by
    decide +kernel
  rcases Result.isOk_iff.mp hIsOk with ⟨e, hDecode⟩
  have hAlone :
      (Declaration.usual .user).descriptor.LeavesAlone
        ⟨3, by decide⟩ :=
    Descriptor.leavesAlone_of_members (m := idMember .user)
      (v := ⟨⟨1, by decide⟩, rfl⟩) rfl rfl
      (Fin.ne_of_val_ne (by decide)) (Fin.ne_of_val_ne (by decide))
  have hAbsent :
      ∀ field ∈ (Declaration.usual .user).descriptor.fields,
        field.index = ⟨3, by decide⟩ →
          offered? (Declaration.usual .user).descriptor
            [(Text.lit "name", .lit "Bea"),
             (Text.lit "extra", .unsigned 1)] 7 field.name =
            none := by
    decide
  have hBoth := hSame.trans hDecode
  exact ⟨e, hBoth, hDecode, hKept e hBoth _ hAlone hAbsent⟩

end Codec

end DocumentMapper
