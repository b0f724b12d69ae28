import DocumentMapper.Codec
import DocumentMapper.Proofs.Error.Taxonomy
import DocumentMapper.Proofs.Result

/-
  With which errors documents and entities are refused.

  Every error of a codec is one for callers, unless it is
  that of a conversion which the application has registered.
  The standard conversions have errors for callers only.

  Key definitions include:
    * `Conversions.FailsWith`
    * `Conversions.FailForCallers`, `Conversions.FailOnlyWith`
    * `Conversions.Explains`

  Main statements include:
    * `Conversions.standard_failOnlyWith`
    * `Conversions.write_failsOnly`, `Conversions.read_explained`
    * `Codec.toDocument_explained`
    * `Codec.decode_explained`
-/

namespace DocumentMapper

open Result (FailsOnly)

------------------------------------------------------------
-- Faults
------------------------------------------------------------

theorem ConversionFault.toError_forCallers
    (fault : ConversionFault) :
    fault.toError.ForCallers := by
  cases fault <;> exact ⟨rfl, nofun⟩

theorem PayloadFault.toError_forCallers
    (fault : PayloadFault) :
    fault.toError.ForCallers := by
  cases fault <;> exact ⟨rfl, nofun⟩

theorem CodecFault.toError_forCallers
    (fault : CodecFault) :
    fault.toError.ForCallers :=
  ⟨rfl, nofun⟩

/- The name of a field does not change the kind of an error. -/
theorem inField_sameKind
    (id field : Text)
    (e : Error) :
    (inField id field e).SameKind e :=
  ⟨rfl, rfl⟩

------------------------------------------------------------
-- Errors of Conversions
------------------------------------------------------------

namespace Conversions

variable {s : Conversions}
variable {t : FieldType}
variable {e cause : Error}
variable {P : Error → Prop}

/- A registered conversion fails with the error. -/
def FailsWith
    (s : Conversions)
    (cause : Error) : Prop :=
  ∃ (t : FieldType) (c : Conversion t),
    s.find? t = some c ∧
      ((∃ value, c.write value = .error cause) ∨
        ∃ value, c.read value = .error cause)

/- Registered conversions fail with errors for callers. -/
def FailForCallers
    (s : Conversions) : Prop :=
  ∀ cause, s.FailsWith cause → cause.ForCallers

/-
  The error is for callers, or of the kind of one with which a
  registered conversion fails.
-/
def Explains
    (s : Conversions)
    (e : Error) : Prop :=
  e.ForCallers ∨ ∃ cause, s.FailsWith cause ∧ e.SameKind cause

theorem Explains.of_forCallers
    (h : e.ForCallers) :
    s.Explains e :=
  .inl h

theorem Explains.of_failsWith
    (h : s.FailsWith e) :
    s.Explains e :=
  .inr ⟨e, h, .refl e⟩

/- Errors of one kind are explained alike. -/
theorem Explains.of_sameKind
    (h : s.Explains cause)
    (hKind : e.SameKind cause) :
    s.Explains e := by
  rcases h with hCallers | ⟨origin, hFails, hOrigin⟩
  · exact .inl (hKind.forCallers_iff.mpr hCallers)
  · exact .inr ⟨origin, hFails, hKind.trans hOrigin⟩

/- Registered conversions fail with such errors only. -/
def FailOnlyWith
    (s : Conversions)
    (P : Error → Prop) : Prop :=
  ∀ cause, s.FailsWith cause → P cause

/- Nothing is registered that could fail. -/
theorem FailOnlyWith.empty :
    empty.FailOnlyWith P := by
  rintro cause ⟨t, c, hFind, -⟩
  cases hFind

/- Registering adds no more than the errors of one conversion. -/
theorem FailOnlyWith.add
    (h : s.FailOnlyWith P)
    {c : Conversion t}
    (hWrite : ∀ value, FailsOnly P (c.write value))
    (hRead : ∀ value, FailsOnly P (c.read value)) :
    (s.add c).FailOnlyWith P := by
  rintro cause ⟨u, d, hFind, hFails⟩
  unfold Conversions.add at hFind
  dsimp only at hFind
  split at hFind
  · rename_i hType
    cases hType
    cases hFind
    rcases hFails with ⟨value, hError⟩ | ⟨value, hError⟩
    · exact hWrite value cause hError
    · exact hRead value cause hError
  · exact h cause ⟨u, d, hFind, hFails⟩

/- The standard conversions fail with faults only. -/
theorem standard_failOnlyWith
    (hFaults : ∀ fault : ConversionFault, P fault.toError) :
    standard.FailOnlyWith P := by
  have hFault :
      ∀ {α : Type} (fault : ConversionFault),
        FailsOnly P (.error fault.toError : Result α) :=
    fun fault => .error (hFaults fault)
  have hMismatch :
      ∀ {α : Type} what value,
        FailsOnly P (Conversion.mismatch what value : Result α) :=
    fun _ _ => hFault _
  -- Only reading can fail, and never reading JSON.
  refine .add (.add (.add (.add (.add (.add (.add (.add (.add
    .empty ?_ ?_) ?_ ?_) ?_ ?_) ?_ ?_) ?_ ?_) ?_ ?_) ?_ ?_)
      ?_ ?_) ?_ ?_
  all_goals first | exact fun _ => .ok _ | intro value
  case refine_2 | refine_4 | refine_16 =>
    dsimp only [Conversion.string, Conversion.bool,
      Conversion.time]
    split
    · exact .ok _
    · exact hMismatch _ _
  case refine_6 =>
    dsimp only [Conversion.int32]
    split
    · split
      · exact hFault _
      · exact .ok _
    · exact hMismatch _ _
  case refine_8 | refine_10 =>
    dsimp only [Conversion.int64, Conversion.uint64]
    split
    · exact .ok _
    · split
      · exact hFault _
      · exact .ok _
    · exact hMismatch _ _
  case refine_12 | refine_14 =>
    dsimp only [Conversion.double, Conversion.float]
    split
    · exact .ok _
    · split
      · exact .ok _
      · exact hMismatch _ _

/- These are errors for callers. -/
theorem standard_failForCallers :
    standard.FailForCallers :=
  standard_failOnlyWith ConversionFault.toError_forCallers

------------------------------------------------------------
-- Writing and Reading Values
------------------------------------------------------------

/- Writing items fails as writing one of them. -/
theorem writeItems_failsOnly
    {α : Type}
    {write : α → Result Json}
    (hWrite : ∀ item, FailsOnly P (write item))
    (items : List α) :
    FailsOnly P (writeItems write items) := by
  induction items with
  | nil => exact .ok _
  | cons item rest ih =>
      unfold writeItems
      split
      · exact .error (hWrite item _ ‹_›)
      · split
        · exact .error (ih _ ‹_›)
        · exact .ok _

/- Writing entries fails as writing one of their values. -/
theorem writeEntries_failsOnly
    {α : Type}
    {write : α → Result Json}
    (hWrite : ∀ item, FailsOnly P (write item))
    (entries : List (Text × α)) :
    FailsOnly P (writeEntries write entries) := by
  induction entries with
  | nil => exact .ok _
  | cons entry rest ih =>
      unfold writeEntries
      split
      · exact .error (hWrite entry.2 _ ‹_›)
      · split
        · exact .error (ih _ ‹_›)
        · exact .ok _

/- Reading items fails as reading one of them. -/
theorem readItems_failsOnly
    {α : Type}
    {read : Json → Result α}
    (hRead : ∀ item, FailsOnly P (read item))
    (items : List Json) :
    FailsOnly P (readItems read items) := by
  induction items with
  | nil => exact .ok _
  | cons item rest ih =>
      unfold readItems
      split
      · exact .error (hRead item _ ‹_›)
      · split
        · exact .error (ih _ ‹_›)
        · exact .ok _

/- Reading members fails as reading one of their values. -/
theorem readMembers_failsOnly
    {α : Type}
    {read : Json → Result α}
    (hRead : ∀ item, FailsOnly P (read item))
    (found : TextMap α)
    (members : List (Text × Json)) :
    FailsOnly P (readMembers read found members) := by
  induction members generalizing found with
  | nil => exact .ok _
  | cons entry rest ih =>
      unfold readMembers
      split
      · exact .error (hRead entry.2 _ ‹_›)
      · exact ih _

/-
  Values are refused with faults of their own, or as a
  registered conversion refuses them.
-/
theorem write_failsOnly
    {s : Conversions}
    (hFault : ∀ fault : ConversionFault, P fault.toError)
    (hOwn : s.FailOnlyWith P)
    (t : FieldType)
    (value : t.Value) :
    FailsOnly P (s.write t value) := by
  have hFound :
      ∀ (t : FieldType) (c : Conversion t) value,
        s.find? t = some c → FailsOnly P (c.write value) :=
    fun t c value hFind e hError =>
      hOwn e ⟨t, c, hFind, .inl ⟨value, hError⟩⟩
  induction t with
  | option t ih =>
      rw [write.eq_def]
      split
      · exact hFound _ _ _ ‹_›
      · cases value with
        | none =>
            dsimp only
            split
            · exact .ok _
            · exact .error (hFault _)
        | some value => exact ih value
  | list t ih =>
      rw [write.eq_def]
      split
      · exact hFound _ _ _ ‹_›
      · exact .map (writeItems_failsOnly ih _) _
  | map t ih =>
      rw [write.eq_def]
      split
      · exact hFound _ _ _ ‹_›
      · exact .map (writeEntries_failsOnly ih _) _
  | _ =>
      rw [write.eq_def]
      split
      · exact hFound _ _ _ ‹_›
      · exact .error (hFault _)

/- Stored values are refused with explained errors. -/
theorem read_explained
    (s : Conversions)
    (t : FieldType)
    (value : Json) :
    FailsOnly s.Explains (s.read t value) := by
  have hFault :
      ∀ {α : Type} {fault : ConversionFault},
        FailsOnly s.Explains (.error fault.toError : Result α) :=
    .error (.of_forCallers (ConversionFault.toError_forCallers _))
  have hOwn :
      ∀ (t : FieldType) (c : Conversion t) value,
        s.find? t = some c →
          FailsOnly s.Explains
            (if t.isConstructible then
              c.read value
            else
              .error
                (ConversionFault.notConstructible t).toError) := by
    intro t c value hFind
    split
    · intro e hError
      exact .of_failsWith ⟨t, c, hFind, .inr ⟨value, hError⟩⟩
    · exact hFault
  induction t generalizing value with
  | option t ih =>
      rw [read.eq_def]
      split
      · exact hOwn _ _ _ ‹_›
      · dsimp only
        split
        · exact .ok _
        · exact .map (ih _) _
  | list t ih =>
      rw [read.eq_def]
      split
      · exact hOwn _ _ _ ‹_›
      · dsimp only
        split
        · exact readItems_failsOnly ih _
        · exact hFault
  | map t ih =>
      rw [read.eq_def]
      split
      · exact hOwn _ _ _ ‹_›
      · dsimp only
        split
        · exact readMembers_failsOnly ih _ _
        · exact hFault
  | _ =>
      rw [read.eq_def]
      split
      · exact hOwn _ _ _ ‹_›
      · exact hFault

end Conversions

------------------------------------------------------------
-- Errors of Mappings and Codecs
------------------------------------------------------------

variable {T : Type}
variable [EntityTypes T]

/- A type that is not registered is an error for callers. -/
theorem Mapping.descriptor_explained
    (s : Conversions)
    (m : Mapping T)
    (t : T) :
    FailsOnly s.Explains (m.descriptor t) := by
  unfold Mapping.descriptor
  split
  · exact .ok _
  · exact .error (.of_forCallers ⟨rfl, nofun⟩)

/- A token that does not fit is an error for callers. -/
theorem Descriptor.withToken_explained
    {S : Schema}
    (s : Conversions)
    (d : Descriptor S)
    (e : Entity S)
    (token : UInt64) :
    FailsOnly s.Explains (d.withToken e token) := by
  unfold withToken
  split
  · unfold VersionBinding.set
    split
    · split
      · exact .ok _
      · exact .error (.of_forCallers ⟨rfl, nofun⟩)
    · exact .ok _
    · exact .ok _
  · exact .ok _

/- A document that cannot be printed is an error for callers. -/
theorem Document.toPayload_explained
    (s : Conversions)
    (document : Document) :
    FailsOnly s.Explains document.toPayload := by
  unfold toPayload
  split
  · exact .ok _
  · exact
      .error (.of_forCallers (PayloadFault.toError_forCallers _))

/- A payload that cannot be read is an error for callers. -/
theorem Document.absorb_explained
    (s : Conversions)
    (document : Document)
    (payload : Text) :
    FailsOnly s.Explains (document.absorb payload) := by
  unfold absorb
  split
  · exact .ok _
  · exact
      .error (.of_forCallers (PayloadFault.toError_forCallers _))

namespace Codec

variable {S : Schema}

/- Fields are written, or refused as one of their values. -/
theorem writeAttributes_failsOnly
    {s : Conversions}
    {P : Error → Prop}
    (hWrite : ∀ t value, FailsOnly P (s.write t value))
    (hField : ∀ id field cause, P cause → P (inField id field cause))
    (e : Entity S)
    (document : Document)
    (fields : List (AttributeBinding S)) :
    FailsOnly P (writeAttributes s e document fields) := by
  induction fields generalizing document with
  | nil => exact .ok _
  | cons field rest ih =>
      unfold writeAttributes
      split
      · exact ih _
      · apply FailsOnly.error
        apply hField
        exact hWrite _ _ _ ‹_›

/- Fields are read, or refused with explained errors. -/
theorem readAttributes_explained
    (s : Conversions)
    (document : Document)
    (e : Entity S)
    (fields : List (AttributeBinding S)) :
    FailsOnly s.Explains (readAttributes s document e fields) := by
  induction fields generalizing e with
  | nil => exact .ok _
  | cons field rest ih =>
      unfold readAttributes
      split
      · split
        · exact
            .error
              (.of_forCallers (CodecFault.toError_forCallers _))
        · exact ih _
      · rename_i value _
        split
        · exact ih _
        · refine .error (.of_sameKind ?_ (inField_sameKind _ _ _))
          have hRead :
              FailsOnly s.Explains (field.read s e value) :=
            .map (s.read_explained _ _) _
          exact hRead _ ‹_›

/- An entity is refused with an explained error. -/
theorem toDocument_explained
    (c : Codec T)
    (d : Descriptor S)
    (e : Entity S) :
    FailsOnly c.mapping.conversions.Explains
      (c.toDocument d e) := by
  apply FailsOnly.map
  apply writeAttributes_failsOnly
  · apply Conversions.write_failsOnly
    · intro fault
      exact .of_forCallers fault.toError_forCallers
    · intro cause hFails
      exact .of_failsWith hFails
  · intro id field cause hCause
    exact hCause.of_sameKind (inField_sameKind _ _ _)

/- A document of another type is refused. -/
theorem checkType_explained
    (s : Conversions)
    (c : Codec T)
    (d : Descriptor S)
    (id : Text)
    (document : Document) :
    FailsOnly s.Explains (c.checkType d id document) := by
  have hFault :
      ∀ fault : CodecFault,
        FailsOnly s.Explains (.error fault.toError : Result Unit) :=
    fun fault => .error (.of_forCallers fault.toError_forCallers)
  unfold checkType
  split
  · exact .ok _
  · split
    · split
      · exact .ok _
      · exact hFault _
    · exact hFault _
    · split
      · exact hFault _
      · exact .ok _

/- A payload is refused with an explained error. -/
theorem decode_explained
    (c : Codec T)
    (t : T)
    (id payload : Text)
    (cas : UInt64) :
    FailsOnly c.mapping.conversions.Explains
      (c.decode t id payload cas) := by
  have hDescriptor :=
    c.mapping.descriptor_explained c.mapping.conversions t
  have hDocument :
      FailsOnly c.mapping.conversions.Explains
        (c.documentOf t id payload cas) := by
    unfold documentOf
    refine .bind hDescriptor fun d => ?_
    refine .bind (Document.absorb_explained _ _ _) fun document => ?_
    exact .bind (checkType_explained _ _ _ _ _) fun _ => .ok _
  have hEntity :
      ∀ document,
        FailsOnly c.mapping.conversions.Explains
          (c.entityOf t document) := by
    intro document
    unfold entityOf
    refine .bind hDescriptor fun d => ?_
    refine .bind (readAttributes_explained _ _ _ _) fun e => ?_
    unfold readVersion
    split
    · exact .ok _
    · split
      · exact d.withToken_explained _ _ _
      · exact .ok _
  unfold decode
  refine .bind hDocument fun document => ?_
  refine .bind (hEntity document) fun e => ?_
  exact .bind hDescriptor fun d => d.withToken_explained _ _ _

end Codec

end DocumentMapper
