import DocumentMapper.Codec
import DocumentMapper.Proofs.Entity.Layout
import DocumentMapper.Proofs.Mapping
import DocumentMapper.Proofs.Result

/-
  Decoding, step by step.

  A payload becomes a document that shows the token; its type
  is checked, its attributes are read, and the token is given
  to the entity once more. A token that is shown under the
  attribute for type metadata hides the mark of the type.

  Key definitions include:
    * `Codec.HidesMark`
    * `Codec.shown`
    * `Codec.Covers`

  Main statements include:
    * `Codec.get?_shown`
    * `Codec.absorb_of_parse?`
    * `Codec.decode_eq`
    * `Codec.checkType_of_ne`
    * `Codec.checkType_of_hidesMark`
    * `Codec.checkType_of_not_hidesMark`
    * `Codec.readVersion_shown`
    * `Codec.readAttributes_induction`
    * `Codec.tokenOf_decode`
-/

namespace DocumentMapper

namespace Codec

variable {T : Type}
variable [EntityTypes T]
variable {t : T}
variable {S : Schema}
variable {c : Codec T}
variable {d : Descriptor S}

------------------------------------------------------------
-- Marks and Tokens
------------------------------------------------------------

/- The mark of a type is its alias under the type key. -/
theorem typeMark?_eq_some
    {key mark : Text}
    (h : c.typeMark? d = some (key, mark)) :
    key = c.typeKey ∧ mark = d.aliasName := by
  unfold typeMark? at h
  split at h
  · cases h
  · cases h
    exact ⟨rfl, rfl⟩

/-
  The attribute that shows a token other than zero is the one
  that holds the mark of the type.
-/
def HidesMark
    (c : Codec T)
    (d : Descriptor S)
    (token : UInt64) : Prop :=
  token ≠ 0 ∧
    ∃ version mark,
      d.version? = some version ∧
        c.typeMark? d = some (version.name, mark)

/- A document with a token under its attribute. -/
def shown
    (d : Descriptor S)
    (document : Document)
    (token : UInt64) : Document :=
  match d.version? with
  | some version =>
      if token = 0 then
        document
      else
        document.put version.name (.unsigned token)
  | none => document

/- Showing a token leaves the identifier alone. -/
theorem shown_id
    (d : Descriptor S)
    (document : Document)
    (token : UInt64) :
    (shown d document token).id = document.id := by
  unfold shown
  split
  · split <;> rfl
  · rfl

/- A token is shown in place of what stands under a key. -/
def Covers
    (d : Descriptor S)
    (token : UInt64)
    (key : Text) : Prop :=
  token ≠ 0 ∧ d.version?.map (·.name) = some key

instance
    (d : Descriptor S)
    (token : UInt64)
    (key : Text) : Decidable (Covers d token key) :=
  inferInstanceAs (Decidable (_ ∧ _))

/- Where a token covers nothing, the document shows through. -/
theorem get?_shown
    (d : Descriptor S)
    (document : Document)
    (token : UInt64)
    (key : Text) :
    (shown d document token).get? key =
      if Covers d token key then
        some (.unsigned token)
      else
        document.get? key := by
  cases hVersion : d.version? with
  | none => simp [shown, Covers, hVersion]
  | some version =>
      by_cases hZero : token = 0
      · simp [shown, Covers, hVersion, hZero]
      · simp [shown, Covers, hVersion, hZero, Document.put,
          Document.get?]

/- A token is shown under its attribute and nowhere else. -/
theorem get?_shown_of_ne
    {document : Document}
    {token : UInt64}
    {key : Text}
    (hKey :
      ∀ version, d.version? = some version →
        token ≠ 0 → version.name ≠ key) :
    (shown d document token).get? key = document.get? key := by
  rw [get?_shown, if_neg]
  rintro ⟨hToken, hName⟩
  rcases Option.map_eq_some_iff.mp hName with
    ⟨version, hVersion, hSame⟩
  exact hKey version hVersion hToken hSame

------------------------------------------------------------
-- Decoding Step by Step
------------------------------------------------------------

/- The members of an object are those of its payload. -/
theorem payloadMembers_of_parse?
    {payload : Text}
    {members : List (Text × Json)}
    (hParse : Json.parse? payload = some (.object members))
    (id : Text) :
    Document.payloadMembers id payload = .ok members := by
  have hSome : payload ≠ [] := by
    intro hEmpty
    have hNothing : Json.parse? [] = none := by decide
    rw [hEmpty, hNothing] at hParse
    exact absurd hParse.symm (Option.some_ne_none _)
  unfold Document.payloadMembers
  rw [if_neg hSome, hParse]

/- An object is read as the attributes of a new document. -/
theorem absorb_of_parse?
    {payload : Text}
    {members : List (Text × Json)}
    (hParse : Json.parse? payload = some (.object members))
    (id : Text) :
    (Document.ofId id).absorb payload =
      .ok (Document.ofContent id (.object members)) := by
  unfold Document.absorb
  rw [Document.ofId, payloadMembers_of_parse? hParse]
  rfl

/- The document of a payload that can be read. -/
theorem documentOf_eq
    {d : Descriptor (EntityTypes.schema t)}
    {id payload : Text}
    {token : UInt64}
    {read : Document}
    (hDescriptor : c.mapping.descriptor t = .ok d)
    (hAbsorb : (Document.ofId id).absorb payload = .ok read) :
    c.documentOf t id payload token =
      (c.checkType d id (shown d read token)).map
        fun _ => shown d read token := by
  unfold documentOf shown
  rw [hDescriptor, hAbsorb]
  simp only [bind, Except.bind]
  cases d.version? with
  | none => rfl
  | some version => rfl

/- Decoding a payload that can be read. -/
theorem decode_eq
    {d : Descriptor (EntityTypes.schema t)}
    {id payload : Text}
    {token : UInt64}
    {read : Document}
    (hDescriptor : c.mapping.descriptor t = .ok d)
    (hAbsorb : (Document.ofId id).absorb payload = .ok read) :
    c.decode t id payload token =
      (do
        c.checkType d id (shown d read token)
        let e ← c.entityOf t (shown d read token)
        d.withToken e token) := by
  unfold decode
  rw [documentOf_eq hDescriptor hAbsorb, hDescriptor]
  cases c.checkType d id (shown d read token) with
  | error fault => rfl
  | ok _ => rfl

/- Without a document there is no entity either. -/
theorem decode_of_documentOf_error
    {id payload : Text}
    {token : UInt64}
    {error : Error}
    (h : c.documentOf t id payload token = .error error) :
    c.decode t id payload token = .error error := by
  unfold decode
  rw [h]
  rfl

/- A value in place of the mark is no mark. -/
theorem checkType_of_ne
    {document : Document}
    {id key mark : Text}
    {value : Json}
    (hMark : c.typeMark? d = some (key, mark))
    (hGet : document.get? key = some value)
    (hOther : value ≠ .string mark) :
    c.checkType d id document =
      .error (CodecFault.wrongType id value.render mark).toError := by
  unfold checkType
  rw [hMark]
  dsimp only
  rw [hGet]
  cases value with
  | string found =>
      have hFound : found ≠ mark := fun h => hOther (h ▸ rfl)
      exact if_neg hFound
  | _ => rfl

/- A token in the place of the mark is no mark. -/
theorem checkType_of_hidesMark
    {id : Text}
    {read : Document}
    {token : UInt64}
    (h : c.HidesMark d token) :
    c.checkType d id (shown d read token) =
      .error
        (CodecFault.wrongType id (Text.ofNat token.toNat)
          d.aliasName).toError := by
  rcases h with ⟨hToken, version, mark, hVersion, hMark⟩
  rcases typeMark?_eq_some hMark with ⟨-, rfl⟩
  have hShown :
      (shown d read token).get? version.name =
        some (.unsigned token) := by
    rw [get?_shown, if_pos]
    exact ⟨hToken, by rw [hVersion]; rfl⟩
  rw [checkType_of_ne hMark hShown Json.noConfusion]
  rfl

/- A mark that is not hidden is found as it was written. -/
theorem checkType_of_not_hidesMark
    {id : Text}
    {read : Document}
    {token : UInt64}
    (hHides : ¬ c.HidesMark d token)
    (hMark :
      ∀ key mark, c.typeMark? d = some (key, mark) →
        read.get? key = some (.string mark)) :
    c.checkType d id (shown d read token) = .ok () := by
  unfold checkType
  cases hType : c.typeMark? d with
  | none => rfl
  | some pair =>
      rcases pair with ⟨key, mark⟩
      have hShown :
          (shown d read token).get? key = some (.string mark) := by
        rw [get?_shown_of_ne, hMark key mark hType]
        intro version hVersion hToken hEq
        refine hHides ⟨hToken, version, mark, hVersion, ?_⟩
        rw [hType, hEq]
      simp [hShown]

/-
  The token that a document shows is the one that came with
  it; where none came, it shows none.
-/
theorem readVersion_shown
    {read : Document}
    {token : UInt64}
    {e : Entity S}
    (hHolds : d.Holds token)
    (hNone :
      ∀ version, d.version? = some version →
        (read.get? version.name).bind Json.natural? = none) :
    ∃ e',
      readVersion d (shown d read token) e = .ok e' ∧
        (e' = e ∨ d.withToken e token = .ok e') := by
  unfold readVersion
  cases hVersion : d.version? with
  | none => exact ⟨e, rfl, .inl rfl⟩
  | some version =>
      by_cases hToken : token = 0
      · refine ⟨e, ?_, .inl rfl⟩
        simp [shown, hVersion, hToken, hNone version hVersion]
      · rcases hHolds.withToken_isOk e with ⟨e', hSet⟩
        refine ⟨e', ?_, .inr hSet⟩
        simp [shown, hVersion, hToken, Document.put,
          Document.get?, Json.natural?, hSet]

/- What every change of a stored member keeps, reading keeps. -/
theorem readAttributes_induction
    {conversions : Conversions}
    {document : Document}
    {fields : List (AttributeBinding S)}
    {P : Entity S → Prop}
    (hSet :
      ∀ field ∈ fields, ∀ e v, P e → P (e.set field.index v))
    {e e' : Entity S}
    (h : readAttributes conversions document e fields = .ok e')
    (hStart : P e) :
    P e' := by
  induction fields generalizing e with
  | nil =>
      cases h
      exact hStart
  | cons field rest ih =>
      rw [List.forall_mem_cons] at hSet
      rw [readAttributes] at h
      split at h
      · split at h
        · cases h
        · exact ih hSet.2 h hStart
      · split at h
        · rename_i next hRead
          rcases Result.map_eq_ok_iff.mp hRead with ⟨v, -, rfl⟩
          exact ih hSet.2 h (hSet.1 _ _ hStart)
        · cases h

/- The token that came with a payload is taken over last. -/
theorem withToken_of_decode
    {d : Descriptor (EntityTypes.schema t)}
    {id payload : Text}
    {cas : UInt64}
    {e : EntityOf t}
    (hDescriptor : c.mapping.descriptor t = .ok d)
    (h : c.decode t id payload cas = .ok e) :
    ∃ read, d.withToken read cas = .ok e := by
  rcases Result.bind_eq_ok_iff.mp h with ⟨document, -, h₁⟩
  rcases Result.bind_eq_ok_iff.mp h₁ with ⟨read, -, h₂⟩
  rcases Result.bind_eq_ok_iff.mp h₂ with ⟨d', hDescriptor', hToken⟩
  cases hDescriptor.symm.trans hDescriptor'
  exact ⟨read, hToken⟩

/- A decoded entity has the token that came with its payload. -/
theorem tokenOf_decode
    {d : Descriptor (EntityTypes.schema t)}
    {id payload : Text}
    {cas : UInt64}
    {e : EntityOf t}
    (hDescriptor : c.mapping.descriptor t = .ok d)
    (hTracks : d.TracksVersion)
    (h : c.decode t id payload cas = .ok e) :
    d.tokenOf e = .ok (some cas) := by
  rcases withToken_of_decode hDescriptor h with ⟨read, hToken⟩
  exact hTracks _ _ _ hToken

end Codec

end DocumentMapper
