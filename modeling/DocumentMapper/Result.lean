import DocumentMapper.Error.Basic

/-
  Results of operations.

  A result holds a value or an error. A status is the result
  of an operation that yields no value; there the code
  `success` stands for having succeeded, so an error with
  that code is no failure.

  Key definitions include:
    * `Result`, `Result.value?`, `Result.error?`
    * `Status`, `Status.toResult`
    * `Misuse`, `Misuse.message`
    * `Reply`, `Reply.throwing`
-/

namespace DocumentMapper

------------------------------------------------------------
-- Misuse
------------------------------------------------------------

/- Asking a result for what it does not hold. -/
inductive Misuse where
  | valueOfError (message : Text)
  | errorOfValue
  deriving DecidableEq, Repr

/- The wording of a misuse; a zero byte ends it. -/
def Misuse.message : Misuse → Text
  | .valueOfError message =>
      Text.lit "Result contains error: " ++ message.beforeZero
  | .errorOfValue => Text.lit "Result contains value"

------------------------------------------------------------
-- Results
------------------------------------------------------------

/- A value or an error, whatever the code of the error. -/
abbrev Result (α : Type) := Except Error α

namespace Result

variable {α : Type}

/- There is a value. -/
def isOk
    (r : Result α) : Bool :=
  match r with
  | .ok _ => true
  | .error _ => false

/- The value, for callers that know there is one. -/
def value?
    (r : Result α) : Except Misuse α :=
  match r with
  | .ok value => .ok value
  | .error e => .error (.valueOfError e.message)

/- The error, for callers that know there is one. -/
def error?
    (r : Result α) : Except Misuse Error :=
  match r with
  | .ok _ => .error .errorOfValue
  | .error e => .ok e

/- Change the error, if there is one. -/
def mapError
    (f : Error → Error)
    (r : Result α) : Result α :=
  match r with
  | .ok value => .ok value
  | .error e => .error (f e)

end Result

------------------------------------------------------------
-- Statuses
------------------------------------------------------------

/- The outcome of an operation without a value. -/
structure Status where
  error : Error
  deriving DecidableEq, Repr

namespace Status

/- Success, with nothing to say. -/
def success : Status :=
  ⟨⟨.success, [], .none, [], [], []⟩⟩

/- The operation succeeded. -/
def isOk
    (s : Status) : Bool :=
  s.error.code = .success

/- A status is a failure exactly if its code says so. -/
def toResult
    (s : Status) : Result Unit :=
  if s.isOk then .ok () else .error s.error

end Status

------------------------------------------------------------
-- Replies
------------------------------------------------------------

/-
  How a call of a collaborator ends: with a value, with an
  error, or by an exception.
-/
inductive Reply (α : Type) where
  | ok (value : α)
  | failed (e : Error)
  | threw (what : Text)
  deriving Repr

/-
  The reply of a collaborator that throws a message; a zero
  byte ends the message.
-/
def Reply.throwing
    {α : Type}
    (message : Text) : Reply α :=
  .threw message.beforeZero

end DocumentMapper
