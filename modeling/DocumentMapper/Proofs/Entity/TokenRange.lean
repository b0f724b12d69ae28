import DocumentMapper.Proofs.Entity.Layout

/-
  Which tokens a member can hold.

  A signed member holds the tokens up to the largest signed
  number, every other member holds all of them. A member that
  is negative or empty has no token. Of two tokens that are
  given one after the other, a member holds the second one.

  Key definitions include:
    * `TokenType.isSigned`, `TokenType.Exceeds`
    * `TokenType.IsUnset`
    * `Descriptor.Overwrites`

  Main statements include:
    * `TokenType.ofToken?_eq_none_iff`
    * `TokenType.token_eq_none_iff`
    * `Descriptor.withToken_exact`
    * `Descriptor.holds_iff`
    * `Descriptor.holds_zero`
    * `Descriptor.overwrites_of_not_holds`
-/

namespace DocumentMapper

------------------------------------------------------------
-- Members
------------------------------------------------------------

/- Of two values for one member the second one counts. -/
theorem Entity.put_put
    {S : Schema}
    {t : FieldType}
    (e : Entity S)
    (m : Member S t)
    (first second : t.Value) :
    (e.put m first).put m second = e.put m second := by
  rcases m with ⟨i, rfl⟩
  ext j
  by_cases hIndex : i = j
  · subst hIndex
    simp [put]
  · simp [put, value_set_of_ne, hIndex]

------------------------------------------------------------
-- Tokens That Fit
------------------------------------------------------------

namespace TokenType

/- The members of the type hold signed numbers. -/
def isSigned : TokenType → Bool
  | .uint64 => false
  | .int64 => true
  | .optionalUInt64 => false
  | .optionalInt64 => true

/- The token is larger than every number of a signed member. -/
def Exceeds
    (type : TokenType)
    (token : UInt64) : Prop :=
  type.isSigned ∧ Int64.maxValue.toInt < token.toNat

instance
    (type : TokenType)
    (token : UInt64) : Decidable (type.Exceeds token) :=
  inferInstanceAs (Decidable (_ ∧ _))

/- The member is negative or empty. -/
def IsUnset : (type : TokenType) → type.fieldType.Value → Prop
  | .uint64, _ => False
  | .int64, n => n < 0
  | .optionalUInt64, n => n = none
  | .optionalInt64, n => ∀ k, n = some k → k < 0

/- A token fits a signed number unless it is larger than all. -/
theorem int64OfToken?_eq_none_iff
    {token : UInt64} :
    int64OfToken? token = none ↔
      Int64.maxValue.toInt < token.toNat := by
  have hInt : Int64.maxValue.toInt = 2 ^ 63 - 1 := by decide
  have hWord :
      Int64.maxValue.toUInt64.toNat = 2 ^ 63 - 1 := by decide
  have hOrder :
      Int64.maxValue.toUInt64 < token ↔
        Int64.maxValue.toInt < token.toNat := by
    rw [UInt64.lt_iff_toNat_lt, hInt, hWord]
    omega
  rw [← hOrder]
  unfold int64OfToken?
  split
  · exact iff_of_true rfl ‹_›
  · exact iff_of_false nofun ‹_›

/- A member cannot hold exactly the tokens that exceed it. -/
theorem ofToken?_eq_none_iff
    {type : TokenType}
    {token : UInt64} :
    type.ofToken? token = none ↔ type.Exceeds token := by
  cases type with
  | uint64 => simp [ofToken?, Exceeds, isSigned]
  | int64 =>
      simp [ofToken?, Exceeds, isSigned,
        int64OfToken?_eq_none_iff]
  | optionalUInt64 => simp [ofToken?, Exceeds, isSigned]
  | optionalInt64 =>
      simp [ofToken?, Exceeds, isSigned,
        int64OfToken?_eq_none_iff]

/- A signed number is no token exactly if it is negative. -/
theorem tokenOfInt64_eq_none_iff
    {n : Int64} :
    tokenOfInt64 n = none ↔ n < 0 := by
  simp [tokenOfInt64]

/- A member has no token exactly if it is negative or empty. -/
theorem token_eq_none_iff
    {type : TokenType}
    {v : type.fieldType.Value} :
    type.token v = none ↔ type.IsUnset v := by
  cases type with
  | uint64 => simp [token, IsUnset]
  | int64 => exact tokenOfInt64_eq_none_iff
  | optionalUInt64 => exact Iff.rfl
  | optionalInt64 =>
      show v.bind tokenOfInt64 = none ↔ ∀ k, v = some k → k < 0
      simp [Option.bind_eq_none_iff, tokenOfInt64_eq_none_iff]

end TokenType

------------------------------------------------------------
-- Fields for Tokens
------------------------------------------------------------

namespace Descriptor

variable {S : Schema}
variable {d : Descriptor S}
variable {name : Text}
variable {type : TokenType}
variable {m : Member S type.fieldType}

/-
  A token that exceeds its member is refused. Every other
  token is read back, and touches no other member.
-/
theorem withToken_exact
    (hVersion : d.version? = some ⟨name, .member type m⟩)
    (e : Entity S)
    (token : UInt64) :
    if type.Exceeds token then
      d.withToken e token =
        .error (VersionBinding.doesNotFit name token)
    else
      ∃ e',
        d.withToken e token = .ok e' ∧
          d.tokenOf e' = .ok (some token) ∧
          ∀ i, m.index ≠ i → e'.value i = e.value i := by
  have hBinding :
      d.withToken e token =
        VersionBinding.set (.member type m) name e token := by
    unfold withToken
    rw [hVersion]
  split
  · rename_i hExceeds
    have hNone := TokenType.ofToken?_eq_none_iff.mpr hExceeds
    rw [hBinding, VersionBinding.set, hNone]
  · rename_i hFits
    rw [← TokenType.ofToken?_eq_none_iff,
      ← ne_eq, Option.ne_none_iff_exists'] at hFits
    rcases hFits with ⟨v, hValue⟩
    have hSet : d.withToken e token = .ok (e.put m v) := by
      rw [hBinding, VersionBinding.set, hValue]
    exact
      ⟨_, hSet, tracksVersion_of_member hVersion _ _ _ hSet,
        fun i hNe => value_withToken_of_ne hVersion hNe hSet⟩

/- The field can hold exactly the tokens that fit its member. -/
theorem holds_iff
    (hVersion : d.version? = some ⟨name, .member type m⟩)
    {token : UInt64} :
    d.Holds token ↔ ¬ type.Exceeds token := by
  constructor
  · rintro ⟨e, e', hSet⟩ hExceeds
    have hExact := withToken_exact hVersion e token
    rw [if_pos hExceeds, hSet] at hExact
    cases hExact
  · intro hFits
    have hExact :=
      withToken_exact hVersion (Entity.initial S) token
    rw [if_neg hFits] at hExact
    rcases hExact with ⟨e', hSet, -⟩
    exact ⟨_, e', hSet⟩

/- The field can hold the token of a document that has none. -/
theorem holds_zero
    (d : Descriptor S) :
    d.Holds 0 := by
  unfold Holds withToken
  cases d.version? with
  | none => exact ⟨Entity.initial S, _, rfl⟩
  | some version =>
      rcases version with ⟨name, ⟨type, m⟩ | ⟨get, _ | set⟩⟩
      · cases type <;> exact ⟨Entity.initial S, _, rfl⟩
      · exact ⟨Entity.initial S, _, rfl⟩
      · exact ⟨Entity.initial S, _, rfl⟩

/- Only a member refuses a token, and then says so. -/
theorem member_of_not_holds
    {version : VersionField S}
    {token : UInt64}
    (hVersion : d.version? = some version)
    (hNot : ¬ d.Holds token) :
    ∃ type m, version.binding = .member type m := by
  rcases version with ⟨name, binding⟩
  cases binding with
  | member type m => exact ⟨type, m, rfl⟩
  | custom get set? =>
      refine absurd ⟨Entity.initial S, ?_⟩ hNot
      unfold withToken
      rw [hVersion]
      cases set? with
      | none => exact ⟨_, rfl⟩
      | some set => exact ⟨_, rfl⟩

/- A token that the field cannot hold is refused. -/
theorem withToken_of_not_holds
    {version : VersionField S}
    {token : UInt64}
    (hVersion : d.version? = some version)
    (hNot : ¬ d.Holds token)
    (e : Entity S) :
    d.withToken e token =
      .error (VersionBinding.doesNotFit version.name token) := by
  rcases member_of_not_holds hVersion hNot with
    ⟨type, m, hBinding⟩
  rcases version with ⟨name, binding⟩
  subst hBinding
  rw [holds_iff hVersion, Decidable.not_not] at hNot
  have hExact := withToken_exact hVersion e token
  rwa [if_pos hNot] at hExact

/- Of tokens given one after the other the last one counts. -/
def Overwrites
    (d : Descriptor S) : Prop :=
  ∀ e first e' token,
    d.withToken e first = .ok e' →
      d.withToken e' token = d.withToken e token

/- A member has room for one token. -/
theorem overwrites_of_member
    (hVersion : d.version? = some ⟨name, .member type m⟩) :
    d.Overwrites := by
  intro e first e' token hFirst
  unfold withToken at hFirst ⊢
  rw [hVersion] at hFirst ⊢
  dsimp only [VersionBinding.set] at hFirst ⊢
  split at hFirst
  · cases hFirst
    simp only [Entity.put_put]
  · cases hFirst

/- A field that refuses some token has room for one. -/
theorem overwrites_of_not_holds
    {version : VersionField S}
    {token : UInt64}
    (hVersion : d.version? = some version)
    (hNot : ¬ d.Holds token) :
    d.Overwrites := by
  rcases member_of_not_holds hVersion hNot with
    ⟨type, m, hBinding⟩
  rcases version with ⟨name, binding⟩
  subst hBinding
  exact overwrites_of_member hVersion

/- A member that is negative or empty reads as no token. -/
theorem tokenOf_eq_none_iff
    (hVersion : d.version? = some ⟨name, .member type m⟩)
    (e : Entity S) :
    d.tokenOf e = .ok none ↔ type.IsUnset (e.get m) := by
  unfold tokenOf
  rw [hVersion, ← TokenType.token_eq_none_iff]
  simp [VersionBinding.get]

end Descriptor

end DocumentMapper
