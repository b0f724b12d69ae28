/-
  Dialogues: computations that ask questions.

  A dialogue is done with a value, or it asks a question and
  goes on with the answer. What a question does is left open;
  a handler that answers questions from a state runs a
  dialogue.

  Key definitions include:
    * `Dialogue`
    * `Dialogue.bind`
    * `Dialogue.run`

  Main statements include:
    * the laws of a monad
-/

namespace DocumentMapper

/- A computation with questions `C`, whose answers have types `A`. -/
inductive Dialogue
    (C : Type)
    (A : C → Type)
    (α : Type) : Type where
  | done (value : α)
  | ask (question : C) (next : A question → Dialogue C A α)

namespace Dialogue

variable {C : Type}
variable {A : C → Type}
variable {α β γ : Type}

------------------------------------------------------------
-- Sequencing
------------------------------------------------------------

/- Go on with a second dialogue when the first is done. -/
def bind
    (x : Dialogue C A α)
    (f : α → Dialogue C A β) : Dialogue C A β :=
  match x with
  | .done value => f value
  | .ask question next =>
      .ask question fun answer => (next answer).bind f

instance : Monad (Dialogue C A) where
  pure := .done
  bind := bind

/- Ask one question, and be done with its answer. -/
def question
    (c : C) : Dialogue C A (A c) :=
  .ask c .done

@[simp]
theorem done_bind
    (value : α)
    (f : α → Dialogue C A β) :
    (done value : Dialogue C A α) >>= f = f value :=
  rfl

@[simp]
theorem ask_bind
    (c : C)
    (next : A c → Dialogue C A α)
    (f : α → Dialogue C A β) :
    (ask c next) >>= f =
      ask c fun answer => next answer >>= f :=
  rfl

/- Being done is neutral on the right. -/
theorem bind_done
    (x : Dialogue C A α) :
    x.bind done = x := by
  induction x with
  | done value => rfl
  | ask c next ih =>
      exact congrArg (ask c) (funext ih)

/- Sequencing is associative. -/
theorem bind_assoc
    (x : Dialogue C A α)
    (f : α → Dialogue C A β)
    (g : β → Dialogue C A γ) :
    (x.bind f).bind g = x.bind fun a => (f a).bind g := by
  induction x with
  | done value => rfl
  | ask c next ih =>
      exact congrArg (ask c) (funext ih)

instance : LawfulMonad (Dialogue C A) :=
  LawfulMonad.mk' _ bind_done (fun _ _ => rfl) bind_assoc

------------------------------------------------------------
-- Running
------------------------------------------------------------

/- Answer all questions from a state. -/
def run
    {W : Type}
    (handle : (c : C) → StateM W (A c))
    (x : Dialogue C A α) : StateM W α :=
  match x with
  | .done value => pure value
  | .ask question next => do
      let answer ← handle question
      (next answer).run handle

end Dialogue

end DocumentMapper
