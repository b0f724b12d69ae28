import DocumentMapper.Entity.Descriptor

/-
  Version tokens in entities.

  Key definitions include:
    * `Descriptor.TracksVersion`
    * `Descriptor.KeyApart`

  Main statements include:
    * `Descriptor.tracksVersion_of_member`
    * `Descriptor.keyApart_of_ne`
-/

namespace DocumentMapper

namespace Descriptor

variable {S : Schema}

/- What was written as the version token is read back. -/
def TracksVersion
    (d : Descriptor S) : Prop :=
  ∀ e token e',
    d.withToken e token = .ok e' →
      d.tokenOf e' = .ok (some token)

/- The transaction key has a place of its own. -/
def KeyApart
    (d : Descriptor S) : Prop :=
  ∀ e key, d.tokenOf (d.withKey e key) = d.tokenOf e

/- A member reads back the token it was given. -/
theorem tracksVersion_of_member
    {d : Descriptor S}
    {name : Text}
    {type : TokenType}
    {m : Member S type.fieldType}
    (hVersion : d.version? = some ⟨name, .member type m⟩) :
    d.TracksVersion := by
  intro e token e' hSet
  unfold withToken at hSet
  rw [hVersion] at hSet
  dsimp only [VersionBinding.set] at hSet
  split at hSet
  · rename_i v hFits
    cases hSet
    unfold tokenOf
    rw [hVersion]
    simp [VersionBinding.get, TokenType.token_of_ofToken? hFits]
  · cases hSet

/- Members at different places do not disturb each other. -/
theorem keyApart_of_ne
    {d : Descriptor S}
    {name : Text}
    {type : TokenType}
    {m : Member S type.fieldType}
    {b : KeyBinding S}
    (hVersion : d.version? = some ⟨name, .member type m⟩)
    (hKey : d.key? = some b)
    (hNe : b.member.index ≠ m.index) :
    d.KeyApart := by
  intro e key
  unfold withKey tokenOf
  rw [hVersion, hKey]
  simp only [VersionBinding.get, KeyBinding.set]
  rw [Entity.get_put_of_ne _ _ _ _ hNe]

/- Without a key there is nothing to disturb. -/
theorem keyApart_of_none
    {d : Descriptor S}
    (hKey : d.key? = none) :
    d.KeyApart := by
  intro e key
  unfold withKey
  rw [hKey]

end Descriptor

end DocumentMapper
