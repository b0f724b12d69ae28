import DocumentMapper.Proofs.Codec.Consulting
import DocumentMapper.Proofs.Entity.TokenRange

/-
  The version token belongs to the store.

  A payload may have a token of its own under the version
  attribute. That one is taken over while the attributes are
  read, unless the token of the store is shown in its place,
  and the token of the store is taken over after it. So a
  token in the payload leaves no trace, except that a field
  which cannot hold it refuses the payload.

  Key definitions include:
    * `Codec.ownToken?`
    * `Codec.Intrudes`
    * `Codec.settle`

  Main statements include:
    * `Codec.decode_eq_settle`
    * `Codec.settle_of_not_intrudes`
    * `Codec.settle_of_intrudes`
    * `Codec.decode_owned`
-/

namespace DocumentMapper

variable {T : Type}
variable [EntityTypes T]
variable {S : Schema}

namespace Codec

variable {c : Codec T}
variable {d : Descriptor S}
variable {members others : List (Text × Json)}

------------------------------------------------------------
-- Tokens in Payloads
------------------------------------------------------------

/- The token that a payload itself has, if it has one. -/
def ownToken?
    (d : Descriptor S)
    (members : List (Text × Json)) : Option UInt64 :=
  d.version?.bind fun version =>
    ((Association.lookup? version.name members).bind
      Json.natural?).map (·.toUInt64)

/- A payload has a token that the version field cannot hold. -/
def Intrudes
    (d : Descriptor S)
    (members : List (Text × Json)) : Prop :=
  ∃ own, ownToken? d members = some own ∧ ¬ d.Holds own

/-
  The tokens that an entity is given: the one that its
  document shows, and the one that came along.
-/
def settle
    (d : Descriptor S)
    (members : List (Text × Json))
    (token : UInt64)
    (e : Entity S) : Result (Entity S) := do
  let e ←
    match
      if token = 0 then ownToken? d members else some token
    with
    | some first => d.withToken e first
    | none => .ok e
  d.withToken e token

/- What a document shows is read before the other one is given. -/
theorem readVersion_settle
    (hNodup : (Association.keys members).Nodup)
    (id : Text)
    (token : UInt64)
    (e : Entity S) :
    (do
      let e ←
        readVersion d
          (shown d (Document.ofContent id (.object members)) token)
          e
      d.withToken e token) =
      settle d members token e := by
  unfold readVersion settle
  cases hVersion : d.version? with
  | none =>
      by_cases hZero : token = 0 <;>
        simp [ownToken?, Descriptor.withToken, hVersion, hZero]
  | some version =>
      dsimp only
      rw [get?_shown_ofContent hNodup, offered?]
      by_cases hZero : token = 0
      · simp only [Covers, ownToken?, hVersion, hZero, ne_eq,
          not_true_eq_false, false_and, if_false, if_true,
          Option.bind_some]
        cases
          (Association.lookup? version.name members).bind
            Json.natural? <;>
          rfl
      · simp [Covers, hVersion, hZero, Json.natural?]

/- A token that is shown hides what the payload has. -/
theorem settle_of_ne_zero
    (hToken : token ≠ 0)
    (members others : List (Text × Json)) :
    settle d members token = settle d others token := by
  funext e
  unfold settle
  rw [if_neg hToken, if_neg hToken]

/- A payload that does not intrude leaves no trace. -/
theorem settle_of_not_intrudes
    (hOverwrites : d.Overwrites)
    (hOwn : ¬ Intrudes d members)
    (e : Entity S) :
    settle d members 0 e = d.withToken e 0 := by
  unfold settle
  rw [if_pos rfl]
  split
  · rename_i first hFirst
    have hHolds : d.Holds first := by
      by_contra hNot
      exact hOwn ⟨first, hFirst, hNot⟩
    rcases hHolds.withToken_isOk e with ⟨e', hSet⟩
    rw [hSet]
    exact hOverwrites _ _ _ _ hSet
  · rfl

/- A payload that intrudes is refused. -/
theorem settle_of_intrudes
    {version : VersionField S}
    {own : UInt64}
    (hVersion : d.version? = some version)
    (hOwn : ownToken? d members = some own)
    (hNot : ¬ d.Holds own)
    (e : Entity S) :
    settle d members 0 e =
      .error (VersionBinding.doesNotFit version.name own) := by
  unfold settle
  rw [if_pos rfl, hOwn]
  dsimp only
  rw [Descriptor.withToken_of_not_holds hVersion hNot]
  rfl

------------------------------------------------------------
-- Decoding
------------------------------------------------------------

variable {t : T}

/- Attributes are read first, then the tokens are settled. -/
theorem decode_eq_settle
    {d : Descriptor (EntityTypes.schema t)}
    {payload : Text}
    (hDescriptor : c.mapping.descriptor t = .ok d)
    (hParse : Json.parse? payload = some (.object members))
    (id : Text)
    (token : UInt64) :
    c.decode t id payload token =
      (do
        let document :=
          shown d (Document.ofContent id (.object members)) token
        c.checkType d id document
        let e ←
          readAttributes c.mapping.conversions document
            (started d id) d.fields
        settle d members token e) := by
  have hNodup := Json.keys_nodup_of_parse? hParse
  rw [decode_eq hDescriptor (absorb_of_parse? hParse id),
    entityOf_eq hDescriptor]
  simp only [← readVersion_settle hNodup id, shown_id, bind_assoc]
  rfl

/-
  Payloads that differ in an attribute of no field and without
  the mark are read in the same way, up to the tokens.
-/
theorem decode_shares_start
    {d : Descriptor (EntityTypes.schema t)}
    {name payload other : Text}
    (hDescriptor : c.mapping.descriptor t = .ok d)
    (hFields : ∀ field ∈ d.fields, field.name ≠ name)
    (hKey : name ≠ c.typeKey)
    (hPayload : Json.parse? payload = some (.object members))
    (hOther : Json.parse? other = some (.object others))
    (hAgree :
      ∀ key, key ≠ name →
        Association.lookup? key members =
          Association.lookup? key others)
    (id : Text)
    (token : UInt64) :
    ∃ start : Result (EntityOf t),
      c.decode t id payload token =
          start >>= settle d members token ∧
        c.decode t id other token =
          start >>= settle d others token := by
  have hShown :=
    shown_agreeOn (d := d)
      (agreeOn_of_parse? hPayload hOther hAgree id) token
  have hMark :
      ∀ key mark, c.typeMark? d = some (key, mark) →
        (shown d (Document.ofContent id (.object members))
            token).get? key =
          (shown d (Document.ofContent id (.object others))
            token).get? key := by
    intro key mark hType
    apply hShown.same_value
    rw [(typeMark?_eq_some hType).1]
    exact hKey.symm
  have hRead :=
    readAttributes_congr hShown.same_id
      (fun field hField =>
        hShown.same_value _ (hFields field hField))
      c.mapping.conversions (started d id)
  refine
    ⟨do
      let document :=
        shown d (Document.ofContent id (.object others)) token
      c.checkType d id document
      readAttributes c.mapping.conversions document
        (started d id) d.fields, ?_, ?_⟩
  · rw [decode_eq_settle hDescriptor hPayload]
    simp only [checkType_congr hMark, hRead, bind_assoc]
  · rw [decode_eq_settle hDescriptor hOther]
    simp only [bind_assoc]

/-
  The version token of a decoded entity is the one that came
  with its payload, and what the payload has under the version
  attribute makes no difference. The one exception is a number
  that the version field cannot hold, in a payload that comes
  with the token zero: that payload is refused, where another
  one would be read.
-/
theorem decode_owned
    {d : Descriptor (EntityTypes.schema t)}
    {version : VersionField (EntityTypes.schema t)}
    {payload other : Text}
    (hDescriptor : c.mapping.descriptor t = .ok d)
    (hVersion : d.version? = some version)
    (hFields : ∀ field ∈ d.fields, field.name ≠ version.name)
    (hKey : version.name ≠ c.typeKey)
    (hPayload : Json.parse? payload = some (.object members))
    (hOther : Json.parse? other = some (.object others))
    (hAgree :
      ∀ key, key ≠ version.name →
        Association.lookup? key members =
          Association.lookup? key others)
    (id : Text) :
    (∀ token, token ≠ 0 →
      c.decode t id payload token = c.decode t id other token) ∧
    (d.Overwrites →
      ¬ Intrudes d members →
      ¬ Intrudes d others →
      c.decode t id payload 0 = c.decode t id other 0) ∧
    (∀ own,
      ownToken? d members = some own →
      ¬ d.Holds own →
      ¬ Intrudes d others →
      c.decode t id payload 0 =
        (do
          let _ ← c.decode t id other 0
          .error (VersionBinding.doesNotFit version.name own))) ∧
    (∀ token e,
      c.decode t id payload token = .ok e →
      d.TracksVersion →
      d.tokenOf e = .ok (some token)) := by
  have hShares :=
    decode_shares_start hDescriptor hFields hKey hPayload hOther
      hAgree id
  refine ⟨?_, ?_, ?_, ?_⟩
  · intro token hToken
    rcases hShares token with ⟨start, hFirst, hSecond⟩
    rw [hFirst, hSecond, settle_of_ne_zero hToken members others]
  · intro hOverwrites hOwn hOthers
    rcases hShares 0 with ⟨start, hFirst, hSecond⟩
    have hSame : settle d members 0 = settle d others 0 := by
      funext e
      rw [settle_of_not_intrudes hOverwrites hOwn,
        settle_of_not_intrudes hOverwrites hOthers]
    rw [hFirst, hSecond, hSame]
  · intro own hOwn hNot hOthers
    rcases hShares 0 with ⟨start, hFirst, hSecond⟩
    -- only a member refuses a token, and it holds zero
    have hOverwrites :=
      Descriptor.overwrites_of_not_holds hVersion hNot
    rw [hFirst, hSecond]
    cases start with
    | error fault => rfl
    | ok e =>
        rcases (Descriptor.holds_zero d).withToken_isOk e with
          ⟨e', hSet⟩
        have hRefused := settle_of_intrudes hVersion hOwn hNot e
        have hRead :=
          settle_of_not_intrudes hOverwrites hOthers e
        rw [hSet] at hRead
        simp only [bind, Except.bind, hRefused, hRead]
  · intro token e hDecode hTracks
    exact tokenOf_decode hDescriptor hTracks hDecode

open Sample in
/-
  A number beyond the signed ones does not get in the way of
  the token of Bea, unless she comes with the token zero.
-/
theorem decode_owned_of_bea :
    scene.repository.codec.decode EntityType.user (Text.lit "u1")
        (Text.lit
          "\x7b\"name\":\"Bea\",\"cas\":9223372036854775808\x7d")
        7 =
      scene.repository.codec.decode .user (Text.lit "u1")
        (Text.lit "\x7b\"name\":\"Bea\"\x7d") 7 ∧
    scene.repository.codec.decode EntityType.user (Text.lit "u1")
        (Text.lit
          "\x7b\"name\":\"Bea\",\"cas\":9223372036854775808\x7d")
        0 =
      .error
        (VersionBinding.doesNotFit (Text.lit "cas")
          9223372036854775808) ∧
    (scene.repository.codec.decode EntityType.user (Text.lit "u1")
        (Text.lit "\x7b\"name\":\"Bea\"\x7d") 0).isOk = true := by
  have hPayload :=
    Json.parse?_of_eq_render
      (s := Text.lit
        "\x7b\"name\":\"Bea\",\"cas\":9223372036854775808\x7d")
      (j := .object
        [(Text.lit "name", .lit "Bea"),
         (Text.lit "cas", .unsigned 9223372036854775808)])
      (by decide +kernel) (by decide +kernel)
  have hOther :=
    Json.parse?_of_eq_render
      (s := Text.lit "\x7b\"name\":\"Bea\"\x7d")
      (j := .object [(Text.lit "name", .lit "Bea")])
      (by decide +kernel) (by decide +kernel)
  have hIsOk :
      (scene.repository.codec.decode EntityType.user
        (Text.lit "u1")
        (Text.lit "\x7b\"name\":\"Bea\"\x7d") 0).isOk =
        true := by
    decide +kernel
  have hAgree :
      ∀ key, key ≠ Text.lit "cas" →
        Association.lookup? key
            [(Text.lit "name", .lit "Bea"),
             (Text.lit "cas", .unsigned 9223372036854775808)] =
          Association.lookup? key
            [(Text.lit "name", Json.lit "Bea")] := by
    intro key hKey
    simp [Association.lookup?, hKey.symm]
  have hNot :
      ¬ (Declaration.usual .user).descriptor.Holds
        9223372036854775808 := by
    rw [Descriptor.holds_iff rfl, Decidable.not_not]
    decide
  rcases
    decode_owned (c := scene.repository.codec)
      (t := EntityType.user)
      (d := (Declaration.usual .user).descriptor) rfl rfl
      (by decide) (by decide) hPayload hOther hAgree
      (Text.lit "u1") with
    ⟨hShown, -, hRefused, -⟩
  refine ⟨hShown 7 (by decide), ?_, hIsOk⟩
  rcases Result.isOk_iff.mp hIsOk with ⟨e, hDecode⟩
  have hNone :
      ¬ Intrudes (Declaration.usual .user).descriptor
        [(Text.lit "name", .lit "Bea")] := by
    rintro ⟨own, hOwn, -⟩
    cases hOwn
  have hRefusal := hRefused 9223372036854775808 rfl hNot hNone
  rw [hDecode] at hRefusal
  exact hRefusal

end Codec

end DocumentMapper
