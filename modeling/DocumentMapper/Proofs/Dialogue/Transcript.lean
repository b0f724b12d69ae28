import DocumentMapper.Dialogue.Basic

/-
  Transcripts of dialogues.

  A transcript lists the questions of a dialogue with the
  answers they got. Nothing is assumed of the answers, so
  that what holds of all transcripts holds whoever answers.

  Key definitions include:
    * `Exchange`
    * `Dialogue.Ends`
    * `Dialogue.transcript`

  Main statements include:
    * `Dialogue.ends_bind_iff`
    * `Dialogue.ends_transcript`
-/

namespace DocumentMapper

/- A question and the answer it got. -/
structure Exchange
    {C : Type}
    (A : C → Type) : Type where
  question : C
  answer : A question

namespace Dialogue

variable {C : Type}
variable {A : C → Type}
variable {α β : Type}

------------------------------------------------------------
-- Ends of Dialogues
------------------------------------------------------------

/-
  With the answers of the transcript, the dialogue asks the
  questions of the transcript and is done with the value.
-/
inductive Ends :
    Dialogue C A α → List (Exchange A) → α → Prop where
  | done (value : α) :
      Ends (.done value) [] value
  | ask
      {question : C}
      {next : A question → Dialogue C A α}
      (answer : A question)
      {rest : List (Exchange A)}
      {value : α}
      (hRest : Ends (next answer) rest value) :
      Ends (.ask question next)
        (⟨question, answer⟩ :: rest) value

/- A dialogue that is done asks nothing. -/
@[simp]
theorem ends_done_iff
    {value result : α}
    {transcript : List (Exchange A)} :
    Ends (.done value) transcript result ↔
      transcript = [] ∧ result = value := by
  constructor
  · intro h
    cases h
    exact ⟨rfl, rfl⟩
  · rintro ⟨rfl, rfl⟩
    exact .done _

/- A question comes first in every transcript. -/
theorem ends_ask_iff
    {question : C}
    {next : A question → Dialogue C A α}
    {transcript : List (Exchange A)}
    {result : α} :
    Ends (.ask question next) transcript result ↔
      ∃ answer rest,
        transcript = ⟨question, answer⟩ :: rest ∧
          Ends (next answer) rest result := by
  constructor
  · intro h
    cases h with
    | ask answer hRest => exact ⟨answer, _, rfl, hRest⟩
  · rintro ⟨answer, rest, rfl, hRest⟩
    exact .ask answer hRest

/- One question ends with its answer. -/
theorem ends_question_iff
    {question : C}
    {transcript : List (Exchange A)}
    {answer : A question} :
    Ends (Dialogue.question question) transcript answer ↔
      transcript = [⟨question, answer⟩] := by
  rw [Dialogue.question, ends_ask_iff]
  constructor
  · rintro ⟨given, rest, rfl, hRest⟩
    rcases ends_done_iff.mp hRest with ⟨rfl, rfl⟩
    rfl
  · rintro rfl
    exact ⟨answer, [], rfl, .done _⟩

/-
  The transcript of a sequence falls into those of its two
  parts.
-/
theorem ends_bind_iff
    {x : Dialogue C A α}
    {f : α → Dialogue C A β}
    {transcript : List (Exchange A)}
    {result : β} :
    Ends (x >>= f) transcript result ↔
      ∃ first value second,
        transcript = first ++ second ∧
          Ends x first value ∧
          Ends (f value) second result := by
  induction x generalizing transcript with
  | done value =>
      rw [done_bind]
      constructor
      · intro h
        exact ⟨[], value, transcript, rfl, .done _, h⟩
      · rintro ⟨first, given, second, rfl, hFirst, hSecond⟩
        rcases ends_done_iff.mp hFirst with ⟨rfl, rfl⟩
        exact hSecond
  | ask question next ih =>
      rw [ask_bind, ends_ask_iff]
      constructor
      · rintro ⟨answer, rest, rfl, hRest⟩
        rcases (ih answer).mp hRest with
          ⟨first, value, second, rfl, hFirst, hSecond⟩
        exact
          ⟨⟨question, answer⟩ :: first, value, second, rfl,
            .ask answer hFirst, hSecond⟩
      · rintro ⟨first, value, second, rfl, hFirst, hSecond⟩
        rcases ends_ask_iff.mp hFirst with
          ⟨answer, rest, rfl, hRest⟩
        exact
          ⟨answer, rest ++ second, rfl,
            (ih answer).mpr
              ⟨rest, value, second, rfl, hRest, hSecond⟩⟩

------------------------------------------------------------
-- Transcripts of Runs
------------------------------------------------------------

/- What is asked and answered when a handler runs a dialogue. -/
def transcript
    {W : Type}
    (handle : (c : C) → StateM W (A c))
    (x : Dialogue C A α)
    (w : W) : List (Exchange A) :=
  match x with
  | .done _ => []
  | .ask question next =>
      let (answer, w) := handle question w
      ⟨question, answer⟩ ::
        (next answer).transcript handle w

/- Every run of a handler has a transcript. -/
theorem ends_transcript
    {W : Type}
    (handle : (c : C) → StateM W (A c))
    (x : Dialogue C A α)
    (w : W) :
    x.Ends (x.transcript handle w) (x.run handle w).1 := by
  induction x generalizing w with
  | done value => exact .done value
  | ask question next ih =>
      exact .ask _ (ih _ _)

end Dialogue

end DocumentMapper
