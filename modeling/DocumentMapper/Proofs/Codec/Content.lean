import DocumentMapper.Proofs.Codec.RoundTrip
import DocumentMapper.Proofs.Codec.Showing

/-
  What the content of an encoded document is.

  The content is what the descriptor declares and nothing
  else: the mark of the type, and the fields in the order of
  their declaration. A name that is declared again keeps its
  place and takes the later value. The first field that can
  not be written ends the encoding, before anybody is shown a
  document.

  Key definitions include:
    * `Codec.Declares`
    * `Codec.FirstUnwritten`
    * `Call.FollowsConversion`

  Main statements include:
    * `Codec.keys_writeAttributes`
    * `Codec.get?_writeAttributes_last`
    * `Codec.writeAttributes_congr`
    * `Codec.toDocument_declares`
    * `Codec.content_as_declared`
-/

namespace DocumentMapper

variable {T : Type}
variable [EntityTypes T]
variable {K : Hooks T}

namespace Codec

variable {S : Schema}
variable {conversions : Conversions}
variable {e e' : Entity S}
variable {document written : Document}
variable {fields : List (AttributeBinding S)}

------------------------------------------------------------
-- Fields, One After the Other
------------------------------------------------------------

/- The later fields are written into what the earlier ones left. -/
theorem writeAttributes_append
    (earlier later : List (AttributeBinding S)) :
    writeAttributes conversions e document (earlier ++ later) =
      writeAttributes conversions e document earlier >>=
        fun written =>
          writeAttributes conversions e written later := by
  induction earlier generalizing document with
  | nil => rfl
  | cons field rest ih =>
      rw [List.cons_append, writeAttributes, writeAttributes]
      cases field.write conversions e with
      | ok value => exact ih
      | error cause => rfl

/-
  Writing adds the names of the fields to the keys, each at
  its first place.
-/
theorem keys_writeAttributes
    (hWritten :
      writeAttributes conversions e document fields = .ok written) :
    written.content.keys =
      (document.content.keys ++ fields.map (·.name)).eraseDups := by
  induction fields generalizing document with
  | nil =>
      cases hWritten
      rw [List.map_nil, List.append_nil]
      symm
      exact Association.eraseDups_of_nodup written.content.nodup
  | cons field rest ih =>
      rw [writeAttributes] at hWritten
      split at hWritten
      · rw [ih hWritten]
        exact Association.eraseDups_keys_assign _
      · cases hWritten

/- Of the fields with one name, the last one is seen. -/
theorem get?_writeAttributes_last
    {earlier later : List (AttributeBinding S)}
    {field : AttributeBinding S}
    (hWritten :
      writeAttributes conversions e document
          (earlier ++ field :: later) =
        .ok written)
    (hLast : ∀ other ∈ later, other.name ≠ field.name) :
    ∃ value,
      field.write conversions e = .ok value ∧
        written.get? field.name = some value := by
  rw [writeAttributes_append, Result.bind_eq_ok_iff] at hWritten
  rcases hWritten with ⟨given, -, hRest⟩
  rw [writeAttributes] at hRest
  split at hRest
  · rename_i value hValue
    refine ⟨value, hValue, ?_⟩
    rw [get?_writeAttributes_of_not_mem hRest hLast]
    simp [Document.put, Document.get?]
  · cases hRest

/- Entities that agree on the fields are written alike. -/
theorem writeAttributes_congr
    {other again : Document}
    (hAgree :
      ∀ field ∈ fields,
        e'.value field.index = e.value field.index)
    (hWritten :
      writeAttributes conversions e document fields = .ok written)
    (hAgain :
      writeAttributes conversions e' other fields = .ok again)
    (hSame : other.content = document.content) :
    again.content = written.content := by
  induction fields generalizing document other with
  | nil =>
      cases hWritten
      cases hAgain
      exact hSame
  | cons field rest ih =>
      rw [List.forall_mem_cons] at hAgree
      have hWrite :
          field.write conversions e' = field.write conversions e := by
        rw [AttributeBinding.write, AttributeBinding.write,
          hAgree.1]
      rw [writeAttributes] at hWritten hAgain
      rw [hWrite] at hAgain
      split at hWritten
      · rename_i value hValue
        rw [hValue] at hAgain
        apply ih hAgree.2 hWritten hAgain
        rw [Document.put, Document.put, hSame]
      · cases hWritten

/- The first field of all that can not be written, and why. -/
structure FirstUnwritten
    (conversions : Conversions)
    (e : Entity S)
    (fields : List (AttributeBinding S))
    (field : AttributeBinding S)
    (cause : Error) : Prop where
  fails : field.write conversions e = .error cause
  first :
    ∃ earlier later,
      fields = earlier ++ field :: later ∧
        ∀ other ∈ earlier,
          ∃ value, other.write conversions e = .ok value

/- If some field can not be written, there is a first one. -/
theorem exists_firstUnwritten
    (h :
      ∃ field ∈ fields,
        ∃ cause, field.write conversions e = .error cause) :
    ∃ field cause,
      FirstUnwritten conversions e fields field cause := by
  induction fields with
  | nil =>
      rcases h with ⟨_, hMem, -⟩
      exact absurd hMem List.not_mem_nil
  | cons head rest ih =>
      cases hHead : head.write conversions e with
      | error cause =>
          exact ⟨head, cause, hHead, [], rest, rfl, nofun⟩
      | ok value =>
          have hRest :
              ∃ field ∈ rest,
                ∃ cause,
                  field.write conversions e = .error cause := by
            rcases h with ⟨field, hMem, cause, hFails⟩
            rcases List.mem_cons.mp hMem with rfl | hMem
            · cases hHead.symm.trans hFails
            · exact ⟨field, hMem, cause, hFails⟩
          rcases ih hRest with
            ⟨field, cause, hFails, earlier, later, rfl, hEarlier⟩
          refine
            ⟨field, cause, hFails, head :: earlier, later, rfl, ?_⟩
          exact List.forall_mem_cons.mpr ⟨⟨value, hHead⟩, hEarlier⟩

/- Writing ends with the error of the first field that fails. -/
theorem FirstUnwritten.writeAttributes
    {field : AttributeBinding S}
    {cause : Error}
    (h : FirstUnwritten conversions e fields field cause)
    (document : Document) :
    writeAttributes conversions e document fields =
      .error (inField document.id field.name cause) := by
  rcases h with ⟨hFails, earlier, later, rfl, hEarlier⟩
  induction earlier generalizing document with
  | nil =>
      rw [List.nil_append, Codec.writeAttributes, hFails]
  | cons other rest ih =>
      rw [List.forall_mem_cons] at hEarlier
      rcases hEarlier with ⟨⟨value, hOk⟩, hRest⟩
      rw [List.cons_append, Codec.writeAttributes, hOk]
      exact ih _ hRest

------------------------------------------------------------
-- Declared Content
------------------------------------------------------------

variable {c : Codec T}
variable {d : Descriptor S}

/-
  The content is what is declared of an entity: the mark of
  the type, unless there is none or a field has its key, and
  under every name what its last field writes.
-/
structure Declares
    (c : Codec T)
    (d : Descriptor S)
    (e : Entity S)
    (content : Attributes) : Prop where
  keys :
    content.keys =
      ((if c.typeKey = [] ∨ d.aliasName = [] then
          []
        else
          [c.typeKey]) ++
        d.fields.map (·.name)).eraseDups
  field :
    ∀ earlier field later,
      d.fields = earlier ++ field :: later →
        (∀ other ∈ later, other.name ≠ field.name) →
          ∃ value,
            field.write c.mapping.conversions e = .ok value ∧
              content.get? field.name = some value
  mark :
    c.typeKey ≠ [] →
      d.aliasName ≠ [] →
        (∀ field ∈ d.fields, field.name ≠ c.typeKey) →
          content.get? c.typeKey = some (.string d.aliasName)

/- A document is marked whatever its identifier. -/
theorem marked_content
    (c : Codec T)
    (d : Descriptor S)
    (id : Text) :
    (c.marked d id).content =
      if c.typeKey = [] ∨ d.aliasName = [] then
        .empty
      else
        Attributes.empty.put c.typeKey (.string d.aliasName) := by
  unfold marked typeMark?
  split <;> split <;> simp_all [Document.put, Document.ofId]

/- A document has the content that is declared of its entity. -/
theorem toDocument_declares
    (h : c.toDocument d e = .ok document) :
    c.Declares d e document.content := by
  rcases toDocument_eq_ok_iff.mp h with ⟨written, hWritten, rfl⟩
  have hMarked := marked_content c d ((d.idOf e).getD [])
  refine ⟨?_, ?_, ?_⟩
  · rw [Document.withExpiry, keys_writeAttributes hWritten, hMarked]
    split <;> rfl
  · intro earlier field later hFields hLast
    rw [hFields] at hWritten
    have hSeen := get?_writeAttributes_last hWritten hLast
    exact hSeen
  · intro hKey hAlias hNames
    show written.get? c.typeKey = _
    rw [get?_writeAttributes_of_not_mem hWritten hNames,
      Document.get?, hMarked,
      if_neg (not_or_intro hKey hAlias), Attributes.get?_put,
      if_pos rfl]

/- Entities that agree on the fields have the same content. -/
theorem toDocument_congr
    {other : Document}
    (hAgree :
      ∀ field ∈ d.fields,
        e'.value field.index = e.value field.index)
    (hDocument : c.toDocument d e = .ok document)
    (hOther : c.toDocument d e' = .ok other) :
    other.content = document.content := by
  rcases toDocument_eq_ok_iff.mp hDocument with
    ⟨written, hWritten, rfl⟩
  rcases toDocument_eq_ok_iff.mp hOther with ⟨again, hAgain, rfl⟩
  apply writeAttributes_congr hAgree hWritten hAgain
  rw [marked_content, marked_content]

/- A field that can not be written leaves no document. -/
theorem FirstUnwritten.toDocument
    {field : AttributeBinding S}
    {cause : Error}
    (h :
      FirstUnwritten c.mapping.conversions e d.fields field cause) :
    c.toDocument d e =
      .error (inField ((d.idOf e).getD []) field.name cause) := by
  have hFails := h.writeAttributes (c.marked d ((d.idOf e).getD []))
  rw [marked_id] at hFails
  unfold Codec.toDocument
  exact congrArg (Except.map _) hFails

end Codec

------------------------------------------------------------
-- Before the Conversion
------------------------------------------------------------

variable {t : T}

/-
  The question belongs to what follows the conversion: to the
  callbacks after it, or to the listeners before saving.
-/
def Call.FollowsConversion : Call T K → Prop
  | .afterHooks _ => True
  | .runAfter _ _ _ _ _ => True
  | .listeners stage => stage = .beforeSave
  | .notify _ event => event.stage = .beforeSave
  | _ => False

namespace Codec

variable {c : Codec T}
variable {d : Descriptor (EntityTypes.schema t)}
variable {e : EntityOf t}
variable {collection : Text}
variable {transcript : Transcript T K}

/- What precedes the conversion asks for nothing that follows it. -/
theorem prepare_precedes
    (c : Codec T)
    (e : EntityOf t)
    (collection : Text) :
    Step.Asks (¬ Call.FollowsConversion ·)
      (c.prepare e collection : Step T K (EntityOf t)) := by
  refine .bind (publishIf_asks nofun (fun _ => nofun) _) fun _ => ?_
  refine .ite ?_ (.pure _)
  exact
    substitute_asks (P := (¬ Call.FollowsConversion ·)) nofun
      (fun _ _ _ => nofun) _ _

/- Callbacks that do not fail leave an entity. -/
theorem substituteIf_succeeds
    {r : Result (EntityOf t)}
    (h :
      (c.substituteIf e collection :
          Step T K (EntityOf t)).Ends
        transcript r)
    (hFlawless : Flawless (observed transcript)) :
    ∃ last, r = .ok last := by
  unfold substituteIf at h
  split at h
  · rcases Step.ends_bind_iff.mp h with
      ⟨cause, hAsk, -⟩ | ⟨_, hooks, later, rfl, hAsk, hRest⟩
    · rcases Step.ends_ask_iff.mp hAsk with ⟨_, -, hOk⟩
      cases hOk
    · rcases Step.ends_ask_iff.mp hAsk with ⟨_, rfl, hOk⟩
      cases r with
      | ok last => exact ⟨last, rfl⟩
      | error cause =>
          have hCourse := (course_substituteBy False hRest).1
          exact absurd hFlawless hCourse.not_flawless
  · exact ⟨e, (Step.ends_pure_iff.mp h).2⟩

/- Where nobody fails, there is an entity to convert. -/
theorem prepare_succeeds
    {r : Result (EntityOf t)}
    (h :
      (c.prepare e collection : Step T K (EntityOf t)).Ends
        transcript r)
    (hFlawless : Flawless (observed transcript)) :
    ∃ last, r = .ok last := by
  rcases Step.ends_bind_iff.mp h with
    ⟨cause, hTell, rfl⟩ | ⟨told, _, rest, rfl, hTell, hRest⟩
  · rcases ends_publishIf False hTell with
      ⟨-, -, hOk⟩ | ⟨targets, told, rfl, hCourse⟩
    · cases hOk
    · exact absurd hFlawless hCourse.not_flawless
  · rw [observed_append] at hFlawless
    have hLater : Flawless (observed rest) :=
      (List.forall_mem_append.mp hFlawless).2
    exact substituteIf_succeeds hRest hLater

/-
  Encoding fails with the first field that can not be
  written, unless somebody has failed before.
-/
theorem ends_encode_of_firstUnwritten
    {r : Result Document}
    {field : AttributeBinding (EntityTypes.schema t)}
    {cause : Error}
    (hDescriptor : c.mapping.descriptor t = .ok d)
    (h :
      (c.encode e collection : Step T K Document).Ends
        transcript r)
    (hFirst :
      FirstUnwritten c.mapping.conversions
        (converted e transcript) d.fields field cause) :
    (∃ error, r = .error error) ∧
      (Flawless (observed transcript) →
        r =
          .error
            (inField
              ((d.idOf (converted e transcript)).getD [])
              field.name cause)) ∧
      ∀ x ∈ transcript, ¬ x.question.FollowsConversion := by
  rw [encode_eq, hDescriptor] at h
  rcases Step.ends_bind_iff.mp h with
    ⟨_, hFound, -⟩ | ⟨_, _, _, rfl, hFound, h₁⟩
  · rcases Step.ends_ofResult_iff.mp hFound with ⟨-, hOk⟩
    cases hOk
  rcases Step.ends_ofResult_iff.mp hFound with ⟨rfl, hOk⟩
  cases hOk
  rw [List.nil_append] at hFirst ⊢
  rcases Step.ends_bind_iff.mp h₁ with
    ⟨error, hPrepare, rfl⟩ |
      ⟨first, last, _, rfl, hPrepare, h₂⟩
  · refine
      ⟨⟨error, rfl⟩, ?_,
        prepare_precedes c e collection _ _ hPrepare⟩
    intro hFlawless
    rcases prepare_succeeds hPrepare hFlawless with ⟨_, hOk⟩
    cases hOk
  -- the callbacks have left what is converted, and it has no document
  · obtain rfl := eq_converted_of_prepare hPrepare
    rcases Step.ends_bind_iff.mp h₂ with
      ⟨error, hConvert, rfl⟩ |
        ⟨_, document, rest, rfl, hConvert, hPresent⟩
    · rcases Step.ends_ofResult_iff.mp hConvert with ⟨rfl, hError⟩
      rw [List.append_nil] at hFirst ⊢
      rw [hFirst.toDocument] at hError
      cases hError
      exact
        ⟨⟨_, rfl⟩, fun _ => rfl,
          prepare_precedes c e collection _ _ hPrepare⟩
    · rcases Step.ends_ofResult_iff.mp hConvert with ⟨rfl, hOk⟩
      have hNone : returned t rest = [] :=
        returned_eq_nil fun x hMem =>
          (present_asks c e document collection _ _ hPresent
            x hMem).2
      have hConverted :
          converted e (first ++ ([] ++ rest)) =
            converted e first := by
        simp [converted, hNone]
      rw [hConverted] at hFirst
      rw [hFirst.toDocument] at hOk
      cases hOk

------------------------------------------------------------
-- The Content of an Encoding
------------------------------------------------------------

/-
  Encoded content is what is declared of the entity that is
  converted, so entities whose substitutes agree on the
  fields have the same content. If a field can not be
  written, the first such field ends the encoding, and nobody
  of what follows the conversion is asked for.
-/
theorem content_as_declared
    {r : Result Document}
    (hDescriptor : c.mapping.descriptor t = .ok d)
    (h :
      (c.encode e collection : Step T K Document).Ends
        transcript r) :
    (∀ document,
      r = .ok document →
        c.Declares d (converted e transcript) document.content ∧
        ∀ (e' : EntityOf t)
          (collection' : Text)
          (transcript' : Transcript T K)
          (other : Document),
          (c.encode e' collection' : Step T K Document).Ends
              transcript' (.ok other) →
            (∀ field ∈ d.fields,
              (converted e' transcript').value field.index =
                (converted e transcript).value field.index) →
              other.content = document.content) ∧
    ((∃ field ∈ d.fields,
      ∃ cause,
        field.write c.mapping.conversions
            (converted e transcript) =
          .error cause) →
      ∃ field cause,
        FirstUnwritten c.mapping.conversions
          (converted e transcript) d.fields field cause ∧
        (∃ error, r = .error error) ∧
        (Flawless (observed transcript) →
          r =
            .error
              (inField
                ((d.idOf (converted e transcript)).getD [])
                field.name cause)) ∧
        ∀ x ∈ transcript, ¬ x.question.FollowsConversion) := by
  have hDocument :
      ∀ {given : EntityOf t}
        {place : Text}
        {heard : Transcript T K}
        {document : Document},
        (c.encode given place : Step T K Document).Ends heard
            (.ok document) →
          c.toDocument d (converted given heard) = .ok document := by
    intro given place heard document hEnds
    rcases ends_encode_ok hEnds with ⟨found, hFound, hOk, -⟩
    cases hDescriptor.symm.trans hFound
    exact hOk
  constructor
  · rintro document rfl
    have hOwn := hDocument h
    refine ⟨toDocument_declares hOwn, ?_⟩
    intro e' collection' transcript' other hOther hAgree
    exact toDocument_congr hAgree hOwn (hDocument hOther)
  · intro hUnwritten
    rcases exists_firstUnwritten hUnwritten with
      ⟨field, cause, hFirst⟩
    exact
      ⟨field, cause, hFirst,
        ends_encode_of_firstUnwritten hDescriptor h hFirst⟩

------------------------------------------------------------
-- Crowded Names
------------------------------------------------------------

end Codec

/-
  A person with two fields under one name, and another field
  under the key for type metadata.
-/
def Sample.crowdedPerson : Sample.Declaration :=
  { Sample.Declaration.usual .person with
    aliasName := Text.lit "person"
    attributes :=
      [⟨Text.lit "name", Text.lit "name", false⟩,
        ⟨Text.lit "_class", Text.lit "txKey", false⟩,
        ⟨Text.lit "name", Text.lit "txKey", false⟩,
        ⟨Text.lit "title", Text.lit "name", false⟩] }

/- A shape with its identifier in front, and no way to write points. -/
def Sample.labelledShape : Sample.Declaration :=
  { Sample.Declaration.usual .shape with
    attributes :=
      [⟨Text.lit "label", Text.lit "id", false⟩,
        ⟨Text.lit "origin", Text.lit "origin", false⟩] }

/- A scene with such people and shapes. -/
def Sample.crowdedScene : Session Sample.EntityType :=
  { Sample.scene with
    mapping :=
      Sample.labelledShape.register
        (Sample.crowdedPerson.register Sample.scene.mapping) }

namespace Codec

open Sample in
/-
  Three fields and the mark of her type claim two names, and
  the later fields show nothing there, so Ann keeps her title
  alone. Someone else of that name has the same content. A
  shape ends with the error of its origin.
-/
theorem content_as_declared_of_crowd :
    (∃ document other,
      (Session.converse
          (crowdedScene.repository.codec.encode ann [])
          crowdedScene).1 =
        .ok document ∧
      (Session.converse
          (crowdedScene.repository.codec.encode
            (someone "p9" 12 "Ann") [])
          crowdedScene).1 =
        .ok other ∧
      document.content.keys =
        [Text.lit "_class", Text.lit "name", Text.lit "title"] ∧
      document.get? (Text.lit "title") = some (.lit "Ann") ∧
      document.get? (Text.lit "name") = some .null ∧
      other.content = document.content) ∧
    ∃ cause,
      (Session.converse
          (crowdedScene.repository.codec.encode
            (Entity.initial (EntityTypes.schema EntityType.shape))
            [])
          crowdedScene).1 =
        .error (inField [] (Text.lit "origin") cause) := by
  let nameAs (name : String) : AttributeBinding personSchema :=
    ⟨Text.lit name, ⟨2, by decide⟩, false⟩
  let keyAs (name : String) : AttributeBinding personSchema :=
    ⟨Text.lit name, ⟨3, by decide⟩, false⟩
  constructor
  · rcases (content_as_declared
        (d := crowdedPerson.descriptor) rfl
        (Session.ends_converse crowdedScene
          (crowdedScene.repository.codec.encode ann []))).1
        _ rfl with
      ⟨hDeclared, hSame⟩
    refine ⟨_, _, rfl, rfl, ?_, ?_, ?_, ?_⟩
    · rw [hDeclared.keys]
      decide
    · rcases hDeclared.field
          [nameAs "name", keyAs "_class", keyAs "name"]
          (nameAs "title") [] rfl nofun with
        ⟨value, hValue, hShown⟩
      cases hValue
      exact hShown
    · rcases hDeclared.field [nameAs "name", keyAs "_class"]
          (keyAs "name") [nameAs "title"] rfl (by decide) with
        ⟨value, hValue, hShown⟩
      cases hValue
      exact hShown
    · apply hSame (someone "p9" 12 "Ann") [] _ _
        (Session.ends_converse crowdedScene
          (crowdedScene.repository.codec.encode
            (someone "p9" 12 "Ann") []))
      intro field hField
      have hFields :
          crowdedPerson.descriptor.fields =
            [nameAs "name", keyAs "_class", keyAs "name",
              nameAs "title"] :=
        rfl
      rw [hFields] at hField
      simp only [List.mem_cons, List.not_mem_nil, or_false]
        at hField
      have hName :
          ∀ id version,
            (someone id version "Ann").value ⟨2, by decide⟩ =
              Text.lit "Ann" :=
        fun _ _ => rfl
      have hKey :
          ∀ id version,
            (someone id version "Ann").value ⟨3, by decide⟩ =
              none :=
        fun _ _ => rfl
      rcases hField with rfl | rfl | rfl | rfl
      · exact (hName _ _).trans (hName _ _).symm
      · exact (hKey _ _).trans (hKey _ _).symm
      · exact (hKey _ _).trans (hKey _ _).symm
      · exact (hName _ _).trans (hName _ _).symm
  · let label : AttributeBinding shapeSchema :=
      ⟨Text.lit "label", ⟨0, by decide⟩, false⟩
    let origin : AttributeBinding shapeSchema :=
      ⟨Text.lit "origin", ⟨1, by decide⟩, false⟩
    rcases (content_as_declared
        (d := labelledShape.descriptor) rfl
        (Session.ends_converse crowdedScene
          (crowdedScene.repository.codec.encode
            (t := EntityType.shape) (Entity.initial _) []))).2
        ⟨origin, List.mem_of_getLast? rfl, _, rfl⟩ with
      ⟨field, cause, ⟨hFails, earlier, later, hFields, -⟩, -,
        hError, -⟩
    have hMem : field ∈ [label, origin] := by
      have hMem : field ∈ earlier ++ field :: later := by simp
      rw [← hFields] at hMem
      exact hMem
    simp only [List.mem_cons, List.not_mem_nil, or_false] at hMem
    rcases hMem with rfl | rfl
    · cases hFails
    · exact ⟨cause, hError .nil⟩

end Codec

end DocumentMapper
