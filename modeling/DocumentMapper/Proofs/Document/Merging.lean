import DocumentMapper.Proofs.Codec.RoundTrip
import DocumentMapper.Proofs.Json.Objects
import DocumentMapper.Proofs.Json.Reading
import DocumentMapper.Sample.Scene

/-
  Payloads that are read into a document that is there.

  A payload is checked as a whole before the first of its
  members is put, so one that is refused leaves the document
  alone. The members of all others are merged into it, one
  payload after the other, and this comes to merging one
  object in which all of them are merged.

  Key definitions include:
    * `Document.receive`
    * `Document.mergedWith`, `Document.MergesInto`
    * `Document.IsRefused`, `Document.offered`
    * `Document.mergedObject`
    * `Document.Restores`

  Main statements include:
    * `Document.receive_eq`
    * `Document.mergesInto_mergedWith`
    * `Document.mapM_receive`
    * `Document.received_as_merge`
-/

namespace DocumentMapper

namespace Document

variable {d source : Document}
variable {payload : Text}
variable {members : List (Text × Json)}

------------------------------------------------------------
-- Reading in Place
------------------------------------------------------------

/- Put members into a document, one after the other. -/
def putAll : List (Text × Json) → StateM Document Unit
  | [] => pure ()
  | (key, value) :: rest => do
      modify (·.put key value)
      putAll rest

/-
  Read a payload into a document that is there. What is
  checked is checked before the first member is put.
-/
def receive
    (payload : Text) : StateM Document (Result Unit) := do
  let d ← get
  match payloadMembers d.id payload with
  | .ok members =>
      putAll members
      return .ok ()
  | .error fault => return .error fault.toError

/- A document with more members in it. -/
def mergedWith
    (d : Document)
    (members : List (Text × Json)) : Document :=
  { d with content := d.content.merge members }

/- Members that are put one by one are merged. -/
theorem putAll_eq
    (d : Document)
    (members : List (Text × Json)) :
    (putAll members).run d = ((), d.mergedWith members) := by
  induction members generalizing d with
  | nil => rfl
  | cons member rest ih => exact ih (d.put member.1 member.2)

/- Reading in place is reading, and keeping the document on failure. -/
theorem receive_eq
    (d : Document)
    (payload : Text) :
    (receive payload).run d =
      match d.absorb payload with
      | .ok after => (.ok (), after)
      | .error e => (.error e, d) := by
  simp only [receive, absorb, StateT.run_bind, StateT.run_get,
    pure_bind]
  cases payloadMembers d.id payload with
  | ok members =>
      simp only [StateT.run_bind, putAll_eq]
      rfl
  | error fault => rfl

------------------------------------------------------------
-- Refused and Offered
------------------------------------------------------------

/- A payload that is empty, no JSON text, or no object. -/
def IsRefused
    (payload : Text) : Prop :=
  payload = [] ∨
    Json.parse? payload = none ∨
    ∃ value,
      Json.parse? payload = some value ∧ value.members? = none

/- Whatever is not refused is an object. -/
theorem refused_or_object
    (payload : Text) :
    IsRefused payload ∨
      ∃ members, Json.parse? payload = some (.object members) := by
  cases hParse : Json.parse? payload with
  | none => exact .inl (.inr (.inl hParse))
  | some value =>
      cases value with
      | object members => exact .inr ⟨members, rfl⟩
      | _ => exact .inl (.inr (.inr ⟨_, hParse, rfl⟩))

/- An object is not refused. -/
theorem not_refused_of_parse?
    (h : Json.parse? payload = some (.object members)) :
    ¬ IsRefused payload := by
  have hNothing : Json.parse? [] = none := by decide
  rintro (rfl | hNone | ⟨value, hValue, hOther⟩)
  · cases hNothing.symm.trans h
  · cases hNone.symm.trans h
  · cases hValue.symm.trans h
    cases hOther

/- The members of a payload, or none if it is no object. -/
def offered
    (payload : Text) : List (Text × Json) :=
  match Json.parse? payload with
  | some (.object members) => members
  | _ => []

/- An object offers its members. -/
theorem offered_of_parse?
    (h : Json.parse? payload = some (.object members)) :
    offered payload = members := by
  rw [offered, h]

/- A payload that is refused offers nothing. -/
theorem IsRefused.offered
    (h : IsRefused payload) :
    offered payload = [] := by
  have hNothing : Json.parse? [] = none := by decide
  rcases h with rfl | hNone | ⟨value, hSome, hOther⟩
  · rw [Document.offered, hNothing]
  · rw [Document.offered, hNone]
  · rw [Document.offered, hSome]
    cases value with
    | object members => cases hOther
    | _ => rfl

/- The members of an offer can be written again. -/
theorem writable_of_mem_offered
    {m : Text × Json}
    (hMem : m ∈ offered payload) :
    m.1.isUtf8 = true ∧ m.2.Writable := by
  rcases refused_or_object payload with hRefused | ⟨_, hParse⟩
  · rw [hRefused.offered] at hMem
    exact absurd hMem List.not_mem_nil
  · rw [offered_of_parse? hParse] at hMem
    exact (Json.writable_of_parse? hParse).of_object m hMem

/- What is refused is refused as a decode error. -/
theorem IsRefused.payloadMembers
    (h : IsRefused payload)
    (id : Text) :
    ∃ fault,
      payloadMembers id payload = .error fault ∧
        fault.toError.code = .decodeError := by
  unfold Document.payloadMembers
  split
  · exact ⟨_, rfl, rfl⟩
  · rename_i hSome
    rcases h with hEmpty | hNone | ⟨value, hValue, hOther⟩
    · exact absurd hEmpty hSome
    · rw [hNone]
      exact ⟨_, rfl, rfl⟩
    · rw [hValue]
      cases value with
      | object members => cases hOther
      | _ => exact ⟨_, rfl, rfl⟩

------------------------------------------------------------
-- One Payload
------------------------------------------------------------

/- A payload that is refused leaves the document as it is. -/
theorem IsRefused.receive
    (h : IsRefused payload)
    (d : Document) :
    ∃ e,
      (receive payload).run d = (.error e, d) ∧
        e.code = .decodeError := by
  rcases h.payloadMembers d.id with ⟨fault, hFault, hCode⟩
  refine ⟨fault.toError, ?_, hCode⟩
  rw [receive_eq, absorb, hFault]

/- An object is merged into the document. -/
theorem receive_of_parse?
    (h : Json.parse? payload = some (.object members))
    (d : Document) :
    (receive payload).run d = (.ok (), d.mergedWith members) := by
  rw [receive_eq, absorb, Codec.payloadMembers_of_parse? h]
  rfl

/- Every payload comes to its answer and to what it offers. -/
theorem receive_offered
    (d : Document)
    (payload : Text) :
    (receive payload).run d =
      ((d.absorb payload).map fun _ => (),
        d.mergedWith (offered payload)) := by
  rcases refused_or_object payload with hRefused | ⟨_, hParse⟩
  · rcases hRefused.payloadMembers d.id with ⟨fault, hFault, -⟩
    rw [receive_eq, absorb, hFault, hRefused.offered]
    rfl
  · rw [receive_of_parse? hParse, absorb,
      Codec.payloadMembers_of_parse? hParse,
      offered_of_parse? hParse]
    rfl

/-
  A document with members merged into it: the old keys in
  their order, then the new ones in theirs, and under each key
  the new value if there is one.
-/
structure MergesInto
    (members : List (Text × Json))
    (old new : Document) : Prop where
  same_id : new.id = old.id
  same_expiry : new.expiry = old.expiry
  keys :
    new.content.keys =
      old.content.keys ++
        (Association.keys members).filter
          (!old.content.keys.contains ·)
  values :
    ∀ key,
      new.get? key =
        (Association.lookup? key members).or (old.get? key)

/- Members under distinct keys are merged like that. -/
theorem mergesInto_mergedWith
    (h : (Association.keys members).Nodup)
    (d : Document) :
    MergesInto members d (d.mergedWith members) where
  same_id := rfl
  same_expiry := rfl
  keys := Association.keys_merge_of_nodup d.content.nodup h
  values _ := Association.lookup?_merge_of_nodup h

/- Attributes are the same if their entries are. -/
theorem eq_of_entries
    {a b : Attributes}
    (h : a.entries = b.entries) :
    a = b := by
  rcases a with ⟨entries, _⟩
  cases h
  rfl

/- Members that are merged once more change nothing. -/
theorem mergedWith_again
    (h : (Association.keys members).Nodup)
    (d : Document) :
    (d.mergedWith members).mergedWith members =
      d.mergedWith members := by
  have hContent :
      (d.content.merge members).merge members =
        d.content.merge members :=
    eq_of_entries (Association.merge_again h)
  simp only [mergedWith, hContent]

------------------------------------------------------------
-- Many Payloads
------------------------------------------------------------

/- Merging members in two parts is merging them at once. -/
theorem mergedWith_append
    (d : Document)
    (first second : List (Text × Json)) :
    (d.mergedWith first).mergedWith second =
      d.mergedWith (first ++ second) := by
  have hContent :
      (d.content.merge first).merge second =
        d.content.merge (first ++ second) :=
    eq_of_entries List.foldl_append.symm
  simp only [mergedWith, hContent]

/-
  Payloads are answered one by one, by what they are, and all
  that they offer is merged in the end.
-/
theorem mapM_receive
    (d : Document)
    (payloads : List Text) :
    (payloads.mapM receive).run d =
      (payloads.map fun p => (d.absorb p).map fun _ => (),
        d.mergedWith (payloads.flatMap offered)) := by
  induction payloads generalizing d with
  | nil => rfl
  | cons payload rest ih =>
      -- answers show nothing of a document but its identifier
      have hSame :
          ∀ p,
            ((d.mergedWith (offered payload)).absorb p).map
                (fun _ => ()) =
              (d.absorb p).map fun _ => () := by
        intro p
        rw [absorb, absorb]
        show Except.map _ (match payloadMembers d.id p with
          | .ok members => _
          | .error fault => _) = _
        cases payloadMembers d.id p with
        | ok members => rfl
        | error fault => rfl
      rw [List.mapM_cons, StateT.run_bind, receive_offered]
      show StateT.run (do
          let answers ← rest.mapM receive
          return _ :: answers) (d.mergedWith (offered payload)) = _
      rw [StateT.run_bind, ih, mergedWith_append]
      simp only [hSame]
      rfl

/- Members that are merged before come to the same. -/
theorem mergedWith_merge
    (d : Document)
    (members : List (Text × Json)) :
    d.mergedWith (Association.merge [] members) =
      d.mergedWith members := by
  have hContent :
      d.content.merge (Association.merge [] members) =
        d.content.merge members := by
    apply eq_of_entries
    apply Association.merge_merge
    exact List.nodup_nil
  simp only [mergedWith, hContent]

/- All that payloads offer, as one object. -/
def mergedObject
    (payloads : List Text) : Json :=
  Json.ofMembers (payloads.flatMap offered)

/- Reading one text of that object comes to reading all of them. -/
theorem receive_mergedObject
    {payloads : List Text}
    (h : Json.parse? payload = some (mergedObject payloads))
    (d : Document) :
    (receive payload).run d =
      (.ok (), ((payloads.mapM receive).run d).2) := by
  rw [mapM_receive, receive_of_parse? h, mergedWith_merge]

/-
  That object has a text. What is read from it is what all
  payloads put, but for the form of its whole numbers.
-/
theorem receive_print_mergedObject
    (d : Document)
    (payloads : List Text) :
    ∃ text again,
      (mergedObject payloads).print? = some text ∧
        (receive text).run d = (.ok (), again) ∧
        again.id = ((payloads.mapM receive).run d).2.id ∧
        again.expiry = ((payloads.mapM receive).run d).2.expiry ∧
        Json.normalMembers again.content.entries =
          Json.normalMembers
            ((payloads.mapM receive).run d).2.content.entries := by
  have hWritable : (mergedObject payloads).Writable := by
    apply Json.Writable.ofMembers
    intro m hMem
    rcases List.mem_flatMap.mp hMem with ⟨_, -, hOffered⟩
    exact writable_of_mem_offered hOffered
  rcases hWritable.parse?_print? with ⟨text, hPrint, hParse⟩
  rw [mapM_receive]
  refine
    ⟨text, _, hPrint, receive_of_parse? hParse d, rfl, rfl, ?_⟩
  -- both sides merge one object now, in two normal forms
  rw [← mergedWith_merge d (payloads.flatMap offered)]
  show Json.normalMembers (Association.merge _ _) =
    Json.normalMembers (Association.merge _ _)
  rw [Json.normalMembers_merge d.content.entries,
    Json.normalMembers_merge d.content.entries,
    Json.normalMembers_normalMembers]

------------------------------------------------------------
-- Payloads of Documents
------------------------------------------------------------

/-
  The attributes of one document are restored in another one
  from a payload: the same keys in the same order, each with
  the value that a text tells. These are equal where a text
  tells all, and the same where the payload is read as it was
  written.
-/
structure Restores
    (payload : Text)
    (source read : Document) : Prop where
  keys : read.content.keys = source.content.keys
  values :
    ∀ key, read.get? key = (source.get? key).map Json.reread
  equal :
    source.content.toJson.Storable →
      read.content.toJson.equal source.content.toJson = true
  exact :
    Json.parse? payload = some source.content.toJson →
      read.content = source.content

/- Attributes that are read one by one are restored. -/
theorem restores_of_entries
    {read : Document}
    (hPayload : source.toPayload = .ok payload)
    (hEntries :
      read.content.entries =
        Json.rereadMembers source.content.entries) :
    Restores payload source read where
  keys := by
    rw [Attributes.keys, hEntries]
    exact Json.keys_rereadMembers _
  values key := by
    rw [get?, Attributes.get?, hEntries]
    exact Json.lookup?_rereadMembers key _
  equal hStorable := by
    have hMembers := (Json.storable_object_iff.mp hStorable).2
    apply Json.equal_of_normal_eq hStorable.finite
    rw [Attributes.toJson, Attributes.toJson, hEntries,
      Json.rereadMembers_eq_normalMembers hMembers, Json.normal,
      Json.normal, Json.normalMembers_normalMembers]
  exact hParse := by
    rw [Codec.parse?_of_toPayload hPayload] at hParse
    have hSame := Json.object.inj (Option.some.inj hParse)
    exact eq_of_entries (hEntries.trans hSame)

/- The payload of a document restores it in an empty one. -/
theorem receive_toPayload
    {blank : Document}
    (hPayload : source.toPayload = .ok payload)
    (hBlank : blank.content = .empty) :
    ∃ read,
      (receive payload).run blank = (.ok (), read) ∧
        read.id = blank.id ∧
        read.expiry = blank.expiry ∧
        Restores payload source read := by
  have hParse := Codec.parse?_of_toPayload hPayload
  refine ⟨_, receive_of_parse? hParse blank, rfl, rfl, ?_⟩
  apply restores_of_entries hPayload
  show Association.merge blank.content.entries _ = _
  rw [hBlank]
  apply Association.merge_of_nodup
  rw [Attributes.empty, List.nil_append, Json.keys_rereadMembers]
  exact source.content.nodup

------------------------------------------------------------
-- Decoding as Merging
------------------------------------------------------------

/-
  Reading payloads into a document merges them, or leaves the
  document alone. A payload that is refused changes nothing;
  an object is merged in order, once and for all. What a
  document was written as restores it in an empty one, as far
  as texts tell their values. Several payloads come to the
  object in which they are merged.
-/
theorem received_as_merge
    (d : Document)
    (payload : Text) :
    (IsRefused payload →
      ∃ e,
        (receive payload).run d = (.error e, d) ∧
          e.code = .decodeError) ∧
    (¬ IsRefused payload →
      ∃ members after,
        Json.parse? payload = some (.object members) ∧
          (receive payload).run d = (.ok (), after) ∧
          MergesInto members d after ∧
          (receive payload).run after = (.ok (), after)) ∧
    (∀ source blank : Document,
      source.toPayload = .ok payload →
        blank.content = .empty →
          ∃ read,
            (receive payload).run blank = (.ok (), read) ∧
              read.id = blank.id ∧
              read.expiry = blank.expiry ∧
              Restores payload source read) ∧
    ∀ payloads : List Text,
      (∀ text,
        Json.parse? text = some (mergedObject payloads) →
          (receive text).run d =
            (.ok (), ((payloads.mapM receive).run d).2)) ∧
      ∃ text again,
        (mergedObject payloads).print? = some text ∧
          (receive text).run d = (.ok (), again) ∧
          again.id = ((payloads.mapM receive).run d).2.id ∧
          again.expiry =
            ((payloads.mapM receive).run d).2.expiry ∧
          Json.normalMembers again.content.entries =
            Json.normalMembers
              ((payloads.mapM receive).run
                d).2.content.entries := by
  refine ⟨fun hRefused => hRefused.receive d, ?_, ?_, ?_⟩
  · intro hAccepted
    rcases (refused_or_object payload).resolve_left hAccepted with
      ⟨members, hParse⟩
    have hNodup := Json.keys_nodup_of_parse? hParse
    refine
      ⟨members, _, hParse, receive_of_parse? hParse d,
        mergesInto_mergedWith hNodup d, ?_⟩
    rw [receive_of_parse? hParse, mergedWith_again hNodup]
  · intro source blank hPayload hBlank
    exact receive_toPayload hPayload hBlank
  · intro payloads
    exact
      ⟨fun text hText => receive_mergedObject hText d,
        receive_print_mergedObject d payloads⟩

open Sample in
/-
  A document takes a name and another value, and takes them
  once; an array leaves it alone. The payload of Bea restores
  her document, and two payloads come to the one object in
  which both are merged.
-/
theorem received_as_merge_of_bea :
    let given := (ofId (Text.lit "u1")).put (Text.lit "rank") .null
    let payload := Text.lit "\x7b\"name\":\"Ann\",\"rank\":2\x7d"
    (∃ e,
      (receive (Text.lit "[]")).run given = (.error e, given) ∧
        e.code = .decodeError) ∧
    (∃ after,
      (receive payload).run given = (.ok (), after) ∧
        after.content.keys = [Text.lit "rank", Text.lit "name"] ∧
        after.get? (Text.lit "rank") = some (.unsigned 2) ∧
        (receive payload).run after = (.ok (), after)) ∧
    (∃ text read,
      beaDocument.toPayload = .ok text ∧
        (receive text).run (ofId (Text.lit "u1")) =
          (.ok (), read) ∧
        read.content.keys = beaDocument.content.keys ∧
        read.content.toJson.equal beaDocument.content.toJson =
          true) ∧
    (receive payload).run given =
      (.ok (),
        (([Text.lit "\x7b\"name\":\"Ann\"\x7d",
            Text.lit "\x7b\"rank\":2\x7d"].mapM receive).run
          given).2) := by
  intro given payload
  have hArray : Json.parse? (Text.lit "[]") = some (.array []) :=
    Json.parse?_of_eq_render (j := .array [])
      (by decide +kernel) rfl
  have hBoth :
      Json.parse? payload =
        some
          (.object
            [(Text.lit "name", .lit "Ann"),
              (Text.lit "rank", .unsigned 2)]) :=
    Json.parse?_of_eq_render
      (j := .object
        [(Text.lit "name", .lit "Ann"),
          (Text.lit "rank", .unsigned 2)])
      (by decide +kernel) (by decide +kernel)
  have hName :
      Json.parse? (Text.lit "\x7b\"name\":\"Ann\"\x7d") =
        some (.object [(Text.lit "name", .lit "Ann")]) :=
    Json.parse?_of_eq_render
      (j := .object [(Text.lit "name", .lit "Ann")])
      (by decide +kernel) (by decide +kernel)
  have hRank :
      Json.parse? (Text.lit "\x7b\"rank\":2\x7d") =
        some (.object [(Text.lit "rank", .unsigned 2)]) :=
    Json.parse?_of_eq_render
      (j := .object [(Text.lit "rank", .unsigned 2)])
      (by decide +kernel) (by decide +kernel)
  have hPayload :
      beaDocument.toPayload =
        .ok beaDocument.content.toJson.render := by
    decide +kernel
  have hStorable : beaDocument.content.toJson.Storable :=
    Codec.keepable_bea.storable_document rfl
  refine ⟨?_, ?_, ?_, ?_⟩
  · apply (received_as_merge given (Text.lit "[]")).1
    exact .inr (.inr ⟨_, hArray, rfl⟩)
  · rcases (received_as_merge given payload).2.1
        (not_refused_of_parse? hBoth) with
      ⟨members, after, hMembers, hAfter, hMerges, hAgain⟩
    cases hBoth.symm.trans hMembers
    refine ⟨after, hAfter, ?_, ?_, hAgain⟩
    · rw [hMerges.keys]
      decide
    · rw [hMerges.values]
      rfl
  · rcases (received_as_merge given _).2.2.1 beaDocument
        (ofId (Text.lit "u1")) hPayload rfl with
      ⟨read, hRead, -, -, hRestores⟩
    exact
      ⟨_, read, hPayload, hRead, hRestores.keys,
        hRestores.equal hStorable⟩
  · apply ((received_as_merge given payload).2.2.2 _).1
    rw [hBoth, mergedObject, List.flatMap_cons, List.flatMap_cons,
      offered_of_parse? hName, offered_of_parse? hRank]
    rfl

end Document

end DocumentMapper
