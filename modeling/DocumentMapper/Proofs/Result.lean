import DocumentMapper.Result

/-
  Results that hold a value, and results that hold an error.

  Key definitions include:
    * `Result.FailsOnly`

  Main statements include:
    * `Result.isOk_iff`
    * `Result.map_eq_ok_iff`
    * `Result.bind_eq_ok_iff`
    * `Result.FailsOnly.bind`
-/

namespace DocumentMapper

namespace Result

variable {α β : Type}

/- There is a value exactly if the result is one. -/
theorem isOk_iff
    {r : Result α} :
    r.isOk = true ↔ ∃ value, r = .ok value := by
  cases r with
  | ok value => simp [isOk]
  | error e => simp [isOk]

/- A changed value comes from a value. -/
theorem map_eq_ok_iff
    {r : Result α}
    {f : α → β}
    {value : β} :
    Except.map f r = .ok value ↔
      ∃ given, r = .ok given ∧ f given = value := by
  cases r with
  | ok given => simp [Except.map]
  | error e => simp [Except.map]

/- Both parts of a sequence have a value. -/
theorem bind_eq_ok_iff
    {r : Result α}
    {f : α → Result β}
    {value : β} :
    (r >>= f) = .ok value ↔
      ∃ given, r = .ok given ∧ f given = .ok value := by
  cases r with
  | ok given => simp [bind, Except.bind]
  | error e => simp [bind, Except.bind]

------------------------------------------------------------
-- Errors
------------------------------------------------------------

/- The result has such errors only. -/
def FailsOnly
    (P : Error → Prop)
    (r : Result α) : Prop :=
  ∀ e, r = .error e → P e

variable {P : Error → Prop}

theorem FailsOnly.ok
    (value : α) :
    FailsOnly P (.ok value : Result α) :=
  nofun

theorem FailsOnly.error
    {e : Error}
    (hError : P e) :
    FailsOnly P (.error e : Result α) := by
  rintro _ ⟨⟩
  exact hError

theorem FailsOnly.bind
    {r : Result α}
    {f : α → Result β}
    (hFirst : FailsOnly P r)
    (hSecond : ∀ value, FailsOnly P (f value)) :
    FailsOnly P (r >>= f) := by
  cases r with
  | ok value => exact hSecond value
  | error e => exact .error (hFirst e rfl)

theorem FailsOnly.map
    {r : Result α}
    (hFails : FailsOnly P r)
    (f : α → β) :
    FailsOnly P (Except.map f r) := by
  cases r with
  | ok value => exact .ok _
  | error e => exact .error (hFails e rfl)

end Result

end DocumentMapper
