import DocumentMapper.Mapping

/-
  What a mapping says of a registered type.

  Main statements include:
    * `Mapping.descriptor_eq_ok_iff`
    * `Mapping.idOf_eq`, `Mapping.tokenOf_eq`
-/

namespace DocumentMapper

namespace Mapping

variable {T : Type}
variable [EntityTypes T]
variable {m : Mapping T}
variable {t : T}
variable {d : Descriptor (EntityTypes.schema t)}

/- Asking for a descriptor succeeds where there is one. -/
theorem descriptor_eq_ok_iff :
    m.descriptor t = .ok d ↔ m.descriptor? t = some d := by
  unfold descriptor
  cases m.descriptor? t with
  | none => simp
  | some given => simp

/- The identifier is where the descriptor says. -/
theorem idOf_eq
    (h : m.descriptor t = .ok d)
    (e : EntityOf t) :
    m.idOf e = d.idOf e := by
  unfold idOf
  rw [descriptor_eq_ok_iff.mp h]
  rfl

/- The token is where the descriptor says; none counts as zero. -/
theorem tokenOf_eq
    (h : m.descriptor t = .ok d)
    (e : EntityOf t) :
    m.tokenOf e = (d.tokenOf e).map (·.getD 0) := by
  unfold tokenOf
  rw [descriptor_eq_ok_iff.mp h]

end Mapping

end DocumentMapper
