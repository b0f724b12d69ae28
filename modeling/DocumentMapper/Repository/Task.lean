import DocumentMapper.Dialogue.Call

/-
  Tasks: conversations that keep transaction results and may
  fail.

  A task ends with a value, with an error for the caller, or
  with an exception of the application that is not caught.
  What it put into the registry stays there in every case.

  Key definitions include:
    * `Failure`
    * `Task`
    * `Task.ask`, `Task.ofStep`, `Task.ofResult`
    * `Task.inContext`
    * `Task.result`
    * `Task.saveResult`
-/

namespace DocumentMapper

/- How a task fails. -/
inductive Failure where
  | error (e : Error)
  | thrown (what : Text)
  deriving DecidableEq, Repr

/- A conversation with a registry of transaction results at hand. -/
abbrev Task
    (T : Type)
    [EntityTypes T]
    (K : Hooks T) : Type → Type :=
  ExceptT Failure
    (StateT ResultRegistry (Dialogue (Call T K) Call.Answer))

namespace Task

variable {T : Type}
variable [EntityTypes T]
variable {K : Hooks T}
variable {α : Type}

/- Ask one question. -/
def ask
    (c : Call T K) : Task T K c.Answer :=
  ExceptT.lift (StateT.lift (Dialogue.question c))

/- Fail with an error. -/
def fail
    (e : Error) : Task T K α :=
  throw (.error e)

/- A result, without asking anything. -/
def ofResult
    (r : Result α) : Task T K α :=
  match r with
  | .ok value => pure value
  | .error e => fail e

/- The value of an accessor that may throw. -/
def ofAccessor
    (r : Except Text α) : Task T K α :=
  match r with
  | .ok value => pure value
  | .error what => throw (.thrown what)

/- A step, which leaves the registry alone. -/
def ofStep
    (x : Step T K α) : Task T K α := do
  let r ← ExceptT.lift (StateT.lift x.run)
  ofResult r

/- The outcome of a task as a result; an exception goes on. -/
def result
    (x : Task T K α) : Task T K (Result α) :=
  ExceptT.mk do
    match ← x.run with
    | .ok value => pure (.ok (.ok value))
    | .error (.error e) => pure (.ok (.error e))
    | .error (.thrown what) => pure (.error (.thrown what))

/- Change the error of a task. -/
def mapError
    (f : Error → Error)
    (x : Task T K α) : Task T K α := do
  let r ← result x
  ofResult (Result.mapError f r)

/- Fill in the context that an error does not have yet. -/
def inContext
    (kind : RequestKind)
    (id collection : Text)
    (x : Task T K α) : Task T K α :=
  mapError (·.withContext kind.name id collection) x

/- The registry as it is. -/
def registry : Task T K ResultRegistry :=
  ExceptT.lift get

/- Keep a transaction result, and get its key. -/
def saveResult
    (result : GetResult) : Task T K Int64 :=
  ExceptT.lift (modifyGet (·.save (some result)))

end Task

end DocumentMapper
