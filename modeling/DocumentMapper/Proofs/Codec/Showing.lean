import DocumentMapper.Proofs.Codec.Course

/-
  Which documents listeners and callbacks are shown.

  While an entity is encoded there is one document, that of
  the entity that is converted, and whoever is shown a
  document is shown this one.

  Key definitions include:
    * `Call.document?`
    * `shownDocuments`

  Main statements include:
    * `Codec.eq_converted_of_prepare`
    * `Codec.ends_encode_ok`
-/

namespace DocumentMapper

variable {T : Type}
variable [EntityTypes T]
variable {K : Hooks T}
variable {t : T}

------------------------------------------------------------
-- Shown Documents
------------------------------------------------------------

/- The document that a callback or a listener is shown. -/
def Call.document? : Call T K → Option Document
  | .runAfter _ _ _ document _ => some document
  | .notify _ event => event.document?
  | _ => none

/- All documents that callbacks and listeners are shown, in order. -/
def shownDocuments
    (transcript : Transcript T K) : List Document :=
  transcript.filterMap (·.question.document?)

@[simp]
theorem shownDocuments_append
    (first second : Transcript T K) :
    shownDocuments (first ++ second) =
      shownDocuments first ++ shownDocuments second :=
  List.filterMap_append

/- No other document is shown if no question shows another one. -/
theorem eq_of_mem_shownDocuments
    {document shown : Document}
    {transcript : Transcript T K}
    (h :
      ∀ x ∈ transcript,
        ∀ given ∈ x.question.document?, given = document)
    (hShown : shown ∈ shownDocuments transcript) :
    shown = document := by
  rcases List.mem_filterMap.mp hShown with ⟨x, hMem, hSome⟩
  exact h x hMem shown hSome

/- Nothing is shown if no question shows a document. -/
theorem shownDocuments_eq_nil
    {transcript : Transcript T K}
    (h : ∀ x ∈ transcript, x.question.document? = none) :
    shownDocuments transcript = [] :=
  List.filterMap_eq_nil_iff.mpr h

------------------------------------------------------------
-- Before the Conversion
------------------------------------------------------------

namespace Codec

variable {c : Codec T}
variable {e : EntityOf t}
variable {collection : Text}
variable {document : Document}
variable {transcript : Transcript T K}

/- The entity that is converted is what the last callback returned. -/
theorem eq_converted_of_substituteIf
    {last : EntityOf t}
    (h :
      (c.substituteIf e collection :
          Step T K (EntityOf t)).Ends
        transcript (.ok last)) :
    last = converted e transcript := by
  unfold substituteIf at h
  split at h
  · rcases Step.ends_bind_ok_iff.mp h with
      ⟨_, hooks, later, rfl, hAsk, hRest⟩
    rcases Step.ends_ask_iff.mp hAsk with ⟨_, rfl, hOk⟩
    cases hOk
    exact (course_substituteBy False hRest).2 last rfl
  · rcases Step.ends_pure_iff.mp h with ⟨rfl, hOk⟩
    cases hOk
    rfl

/- Listeners who are told before do not replace it. -/
theorem eq_converted_of_prepare
    {last : EntityOf t}
    (h :
      (c.prepare e collection : Step T K (EntityOf t)).Ends
        transcript (.ok last)) :
    last = converted e transcript := by
  rcases Step.ends_bind_ok_iff.mp h with
    ⟨told, _, rest, rfl, hTell, hRest⟩
  have hLast := eq_converted_of_substituteIf hRest
  unfold converted at hLast ⊢
  rw [returned_append, returned_publishIf hTell]
  exact hLast

/- Before the conversion there is no document to show. -/
theorem prepare_asks
    (c : Codec T)
    (e : EntityOf t)
    (collection : Text) :
    Step.Asks (·.document? = none)
      (c.prepare e collection : Step T K (EntityOf t)) := by
  refine
    .bind
      (publishIf_asks (P := (·.document? = none)) rfl
        (fun _ => rfl) _)
      fun _ => ?_
  exact
    .ite
      (substitute_asks (P := (·.document? = none)) rfl
        (fun _ _ _ => rfl) _ _)
      (.pure _)

------------------------------------------------------------
-- After the Conversion
------------------------------------------------------------

/- The document is shown, and entities are not replaced any more. -/
theorem present_asks
    (c : Codec T)
    (e : EntityOf t)
    (document : Document)
    (collection : Text) :
    Step.Asks
      (fun q =>
        (∀ given ∈ q.document?, given = document) ∧
          ¬ q.IsSubstitution)
      (c.present e document collection :
        Step T K Document) := by
  have hSame : ∀ given ∈ some document, given = document :=
    fun _ hMem => (Option.mem_some_iff.mp hMem).symm
  refine
    .bind (.ite (inspect_asks ⟨nofun, nofun⟩ ?_) (.pure _))
      fun _ => ?_
  · exact fun _ => ⟨hSame, nofun⟩
  · refine .bind (publishIf_asks ⟨nofun, nofun⟩ ?_ _) fun _ => ?_
    · exact fun _ => ⟨hSame, nofun⟩
    · exact .pure _

/- It is the document that encoding ends with. -/
theorem ends_present_ok
    {given : Document}
    (h :
      (c.present e document collection :
          Step T K Document).Ends
        transcript (.ok given)) :
    given = document := by
  rcases Step.ends_bind_ok_iff.mp h with ⟨_, _, _, rfl, -, h₁⟩
  rcases Step.ends_bind_ok_iff.mp h₁ with
    ⟨_, _, _, rfl, -, hPure⟩
  rcases Step.ends_pure_iff.mp hPure with ⟨-, hOk⟩
  cases hOk
  rfl

/-
  Encoding ends with the document of the entity that is
  converted, and has shown no other one.
-/
theorem ends_encode_ok
    (h :
      (c.encode e collection : Step T K Document).Ends
        transcript (.ok document)) :
    ∃ d,
      c.mapping.descriptor t = .ok d ∧
        c.toDocument d (converted e transcript) =
          .ok document ∧
        ∀ shown ∈ shownDocuments transcript,
          shown = document := by
  rw [encode_eq] at h
  rcases Step.ends_bind_ok_iff.mp h with
    ⟨_, d, _, rfl, hFound, h₁⟩
  rcases Step.ends_ofResult_ok_iff.mp hFound with
    ⟨rfl, hDescriptor⟩
  rcases Step.ends_bind_ok_iff.mp h₁ with
    ⟨first, last, _, rfl, hPrepare, h₂⟩
  rcases Step.ends_bind_ok_iff.mp h₂ with
    ⟨_, written, rest, rfl, hConvert, hPresent⟩
  rcases Step.ends_ofResult_ok_iff.mp hConvert with
    ⟨rfl, hDocument⟩
  obtain rfl := ends_present_ok hPresent
  obtain rfl := eq_converted_of_prepare hPrepare
  have hRest := present_asks c e document collection _ _ hPresent
  have hNone : returned t rest = [] :=
    returned_eq_nil fun x hMem => (hRest x hMem).2
  have hConverted :
      converted e first = converted e ([] ++ (first ++ ([] ++ rest))) := by
    simp [converted, hNone]
  refine ⟨d, hDescriptor, hConverted ▸ hDocument, ?_⟩
  intro shown hShown
  have hFirst : shownDocuments first = [] :=
    shownDocuments_eq_nil (prepare_asks c e collection _ _ hPrepare)
  rw [List.nil_append, List.nil_append, shownDocuments_append,
    hFirst, List.nil_append] at hShown
  exact
    eq_of_mem_shownDocuments (fun x hMem => (hRest x hMem).1)
      hShown

end Codec

end DocumentMapper
