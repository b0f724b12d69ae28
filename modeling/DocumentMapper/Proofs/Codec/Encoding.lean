import DocumentMapper.Proofs.Dialogue.Quiet
import DocumentMapper.Proofs.Result

/-
  What encoding yields.

  An encoded document is the one that the descriptor declares
  for the entity, or for the one that callbacks put in its
  place.

  Key definitions include:
    * `Codec.marked`

  Main statements include:
    * `Codec.toDocument_eq_ok_iff`
    * `Codec.toDocument_id`, `Codec.toDocument_expiry`
    * `Codec.ends_encode`
-/

namespace DocumentMapper

variable {T : Type}
variable [EntityTypes T]
variable {K : Hooks T}

namespace Codec

------------------------------------------------------------
-- Declared Documents
------------------------------------------------------------

variable {S : Schema}

/- The document of an identifier, marked with its type. -/
def marked
    (c : Codec T)
    (d : Descriptor S)
    (id : Text) : Document :=
  match c.typeMark? d with
  | some (key, mark) => (Document.ofId id).put key (.string mark)
  | none => Document.ofId id

/- Marking leaves the identifier alone. -/
theorem marked_id
    (c : Codec T)
    (d : Descriptor S)
    (id : Text) :
    (c.marked d id).id = id := by
  unfold marked
  split <;> rfl

/- A declared document is the marked one with the attributes. -/
theorem toDocument_eq_ok_iff
    {c : Codec T}
    {d : Descriptor S}
    {e : Entity S}
    {document : Document} :
    c.toDocument d e = .ok document ↔
      ∃ written,
        writeAttributes c.mapping.conversions e
            (c.marked d ((d.idOf e).getD [])) d.fields =
          .ok written ∧
        written.withExpiry d.expiry = document :=
  Result.map_eq_ok_iff

/- Attributes leave the identifier alone. -/
theorem writeAttributes_id
    {conversions : Conversions}
    {e : Entity S}
    {document written : Document}
    {fields : List (AttributeBinding S)}
    (h :
      writeAttributes conversions e document fields =
        .ok written) :
    written.id = document.id := by
  induction fields generalizing document with
  | nil =>
      cases h
      rfl
  | cons field rest ih =>
      rw [writeAttributes] at h
      split at h
      · rw [ih h]
        rfl
      · cases h

/- A declared document is identified as its entity. -/
theorem toDocument_id
    {c : Codec T}
    {d : Descriptor S}
    {e : Entity S}
    {document : Document}
    (h : c.toDocument d e = .ok document) :
    document.id = (d.idOf e).getD [] := by
  rcases toDocument_eq_ok_iff.mp h with ⟨written, hWritten, rfl⟩
  have hId := writeAttributes_id hWritten
  rwa [marked_id] at hId

/- A declared document expires as its descriptor says. -/
theorem toDocument_expiry
    {c : Codec T}
    {d : Descriptor S}
    {e : Entity S}
    {document : Document}
    (h : c.toDocument d e = .ok document) :
    document.expiry = d.expiry := by
  rcases toDocument_eq_ok_iff.mp h with ⟨written, -, rfl⟩
  rfl

------------------------------------------------------------
-- Conversations of Encoding
------------------------------------------------------------

variable {t : T}
variable {transcript : Transcript T K}

/- No callback runs before the conversion of the type. -/
def Unsubstituted
    (t : T)
    (transcript : Transcript T K) : Prop :=
  ∀ hooks, ⟨.beforeHooks t, hooks⟩ ∈ transcript → hooks = []

/- Without callbacks an entity is converted as it is. -/
theorem ends_substitute
    {e converted : EntityOf t}
    {collection : Text}
    (h :
      (substitute e collection : Step T K (EntityOf t)).Ends
        transcript (.ok converted))
    (hUnsubstituted : Unsubstituted t transcript) :
    converted = e := by
  rcases Step.ends_bind_ok_iff.mp h with
    ⟨_, hooks, _, rfl, hAsk, hRest⟩
  rcases Step.ends_ask_iff.mp hAsk with ⟨_, rfl, hSame⟩
  cases hSame
  obtain rfl := hUnsubstituted hooks (by simp)
  rcases Step.ends_pure_iff.mp hRest with ⟨-, hSame⟩
  cases hSame
  rfl

/-
  Encoding ends with the declared document of the entity, or
  of the one in its place.
-/
theorem ends_encode
    {c : Codec T}
    {e : EntityOf t}
    {collection : Text}
    {document : Document}
    (h :
      (c.encode e collection : Step T K Document).Ends
        transcript (.ok document)) :
    ∃ d converted,
      c.mapping.descriptor t = .ok d ∧
        c.toDocument d converted = .ok document ∧
        (Unsubstituted t transcript → converted = e) := by
  unfold encode at h
  rcases Step.ends_bind_ok_iff.mp h with ⟨_, d, _, rfl, hFound, h₁⟩
  rcases Step.ends_ofResult_ok_iff.mp hFound with ⟨rfl, hDescriptor⟩
  rcases Step.ends_bind_ok_iff.mp h₁ with ⟨told, _, _, rfl, -, h₂⟩
  have hEnd :
      ∀ {written rest},
        Step.Ends (do
          publishIf c.hasBus
            ⟨.beforeSave, t, e, some written, collection⟩
          return written : Step T K Document)
          rest (.ok document) →
        document = written := by
    intro written rest hRest
    rcases Step.ends_bind_ok_iff.mp hRest with
      ⟨_, _, _, rfl, -, hPure⟩
    rcases Step.ends_pure_iff.mp hPure with ⟨-, hSame⟩
    cases hSame
    rfl
  split at h₂
  · rcases Step.ends_bind_ok_iff.mp h₂ with
      ⟨first, converted, rest, rfl, hConverted, h₃⟩
    rcases Step.ends_bind_ok_iff.mp h₃ with
      ⟨_, written, _, rfl, hConvert, h₄⟩
    rcases Step.ends_ofResult_ok_iff.mp hConvert with
      ⟨rfl, hWritten⟩
    rcases Step.ends_bind_ok_iff.mp h₄ with ⟨_, _, _, rfl, -, h₅⟩
    rcases hEnd h₅ with rfl
    refine ⟨d, converted, hDescriptor, hWritten, fun hNone => ?_⟩
    apply ends_substitute hConverted
    intro hooks hMem
    exact hNone hooks (by simp [hMem])
  · rcases Step.ends_bind_ok_iff.mp h₂ with
      ⟨first, converted, rest, rfl, hConverted, h₃⟩
    rcases Step.ends_pure_iff.mp hConverted with ⟨-, hSame⟩
    cases hSame
    rcases Step.ends_bind_ok_iff.mp h₃ with
      ⟨_, written, _, rfl, hConvert, h₄⟩
    rcases Step.ends_ofResult_ok_iff.mp hConvert with
      ⟨rfl, hWritten⟩
    rcases hEnd h₄ with rfl
    exact ⟨d, _, hDescriptor, hWritten, fun _ => rfl⟩

end Codec

end DocumentMapper
