import DocumentMapper.Proofs.Dialogue.Quiet

/-
  Courses of conversations.

  Who watches a conversation from outside sees the resolver,
  the executors, the listeners and the callbacks. What is seen
  takes its course along a list of calls: each one follows
  when the one before it has succeeded, and nothing follows
  the first that fails.

  Key definitions include:
    * `Call.isObserved`, `observed`
    * `failed`, `Flawless`
    * `Course`

  Main statements include:
    * `Course.append`, `Course.extend`
    * `Course.stops`
-/

namespace DocumentMapper

variable {T : Type}
variable [EntityTypes T]
variable {K : Hooks T}
variable {α β : Type}

------------------------------------------------------------
-- What Is Observed
------------------------------------------------------------

/- Somebody else is called, who may fail. -/
def Call.isObserved : Call T K → Bool
  | .resolve _ => true
  | .submit _ _ => true
  | .notify _ _ => true
  | .runBefore _ _ _ _ => true
  | .runAfter _ _ _ _ _ => true
  | _ => false

/- The exchanges that are observed. -/
def observed
    (transcript : Transcript T K) : Transcript T K :=
  transcript.filter (·.question.isObserved)

/- The questions of a transcript. -/
def questions
    (transcript : Transcript T K) : List (Call T K) :=
  transcript.map (·.question)

@[simp]
theorem observed_nil :
    observed ([] : Transcript T K) = [] :=
  rfl

@[simp]
theorem observed_append
    (first second : Transcript T K) :
    observed (first ++ second) =
      observed first ++ observed second :=
  List.filter_append ..

@[simp]
theorem questions_nil :
    questions ([] : Transcript T K) = [] :=
  rfl

@[simp]
theorem questions_append
    (first second : Transcript T K) :
    questions (first ++ second) =
      questions first ++ questions second :=
  List.map_append ..

------------------------------------------------------------
-- Failing
------------------------------------------------------------

/- A value was returned. -/
def Reply.isOk
    (reply : Reply α) : Bool :=
  match reply with
  | .ok _ => true
  | .failed _ => false
  | .threw _ => false

/- There is no failure; an error whose code is success is none. -/
def Reply.passes
    (reply : Reply Unit) : Bool :=
  match reply with
  | .ok _ => true
  | .failed e => Status.isOk ⟨e⟩
  | .threw _ => false

/- Listeners that pass do not end a delivery. -/
theorem Reply.ofListener_isOk
    (reply : Reply Unit)
    (stage : Stage) :
    (reply.ofListener stage).isOk = reply.passes := by
  rcases reply with ⟨⟩ | e | what
  · rfl
  · unfold ofListener Status.toResult passes
    dsimp only
    cases Status.isOk ⟨e⟩ <;> rfl
  · rfl

/- The one who was called failed. -/
def failed
    (x : Exchange (Call.Answer (T := T) (K := K))) : Bool :=
  match x with
  | ⟨.resolve _, reply⟩ => !Reply.isOk reply
  | ⟨.submit _ _, reply⟩ => !Reply.isOk reply
  | ⟨.notify _ _, reply⟩ => !Reply.passes reply
  | ⟨.runBefore _ _ _ _, reply⟩ => !Reply.isOk reply
  | ⟨.runAfter _ _ _ _ _, reply⟩ => !Reply.passes reply
  | _ => false

/- Nobody failed. -/
def Flawless
    (transcript : Transcript T K) : Prop :=
  ∀ x ∈ transcript, failed x = false

theorem Flawless.nil :
    Flawless ([] : Transcript T K) :=
  fun _ hMem => absurd hMem List.not_mem_nil

theorem Flawless.cons
    {x : Exchange (Call.Answer (T := T) (K := K))}
    {rest : Transcript T K}
    (hFirst : failed x = false)
    (hRest : Flawless rest) :
    Flawless (x :: rest) :=
  List.forall_mem_cons.mpr ⟨hFirst, hRest⟩

theorem Flawless.append
    {first second : Transcript T K}
    (hFirst : Flawless first)
    (hSecond : Flawless second) :
    Flawless (first ++ second) :=
  List.forall_mem_append.mpr ⟨hFirst, hSecond⟩

------------------------------------------------------------
-- Courses
------------------------------------------------------------

/-
  What is heard takes its course along the calls. All of them
  are made and nobody fails; or the last one that is made
  fails, and so does the whole. Where there may be a gap, the
  whole may fail between two calls.
-/
inductive Course
    (gap : Prop)
    (calls : List (Call T K)) :
    Transcript T K → Except Failure α → Prop where
  | whole
      {heard : Transcript T K}
      {value : α}
      (hCalls : questions heard = calls)
      (hFlawless : Flawless heard) :
      Course gap calls heard (.ok value)
  | failed
      {heard : Transcript T K}
      {x : Exchange (Call.Answer (T := T) (K := K))}
      {e : Error}
      (hCalls : questions (heard ++ [x]) <+: calls)
      (hFlawless : Flawless heard)
      (hFailed : DocumentMapper.failed x = true) :
      Course gap calls (heard ++ [x]) (.error (.error e))
  | cut
      {heard : Transcript T K}
      {failure : Failure}
      (hGap : gap)
      (hCalls : questions heard <+: calls)
      (hFlawless : Flawless heard) :
      Course gap calls heard (.error failure)

namespace Course

variable {gap : Prop}
variable {calls more : List (Call T K)}
variable {heard later : Transcript T K}
variable {outcome : Except Failure α}

/- Nothing is called. -/
theorem nil
    {value : α} :
    Course gap ([] : List (Call T K)) [] (.ok value) :=
  .whole rfl .nil

/- The calls are made in order. -/
theorem order
    (h : Course gap calls heard outcome) :
    questions heard <+: calls := by
  cases h with
  | whole hCalls hFlawless => exact hCalls ▸ List.prefix_refl _
  | failed hCalls hFlawless hFailed => exact hCalls
  | cut hGap hCalls hFlawless => exact hCalls

/- With a value in the end, all calls are made and succeed. -/
theorem of_ok
    {value : α}
    (h : Course gap calls heard (.ok value)) :
    questions heard = calls ∧ Flawless heard := by
  generalize hOutcome : Except.ok value = outcome at h
  cases h with
  | whole hCalls hFlawless => exact ⟨hCalls, hFlawless⟩
  | failed hCalls hFlawless hFailed => cases hOutcome
  | cut hGap hCalls hFlawless => cases hOutcome

/- A second course follows one that succeeds. -/
theorem append
    {value : β}
    (hFirst : Course gap calls heard (.ok value))
    (hSecond : Course gap more later outcome) :
    Course gap (calls ++ more) (heard ++ later) outcome := by
  rcases hFirst.of_ok with ⟨rfl, hHeard⟩
  cases hSecond with
  | whole hCalls hFlawless =>
      exact
        .whole (by rw [questions_append, hCalls])
          (hHeard.append hFlawless)
  | failed hCalls hFlawless hFailed =>
      rw [← List.append_assoc]
      refine .failed ?_ (hHeard.append hFlawless) hFailed
      rw [List.append_assoc, questions_append]
      exact (List.prefix_append_right_inj _).mpr hCalls
  | cut hGap hCalls hFlawless =>
      refine .cut hGap ?_ (hHeard.append hFlawless)
      rw [questions_append]
      exact (List.prefix_append_right_inj _).mpr hCalls

/- The first call succeeds. -/
theorem cons
    (x : Exchange (Call.Answer (T := T) (K := K)))
    (hFirst : DocumentMapper.failed x = false)
    (hRest : Course gap calls heard outcome) :
    Course gap (x.question :: calls) (x :: heard) outcome :=
  have hSingle :
      Course gap [x.question] [x] (.ok () : Except _ Unit) :=
    .whole rfl (.cons hFirst .nil)
  hSingle.append hRest

/- The first call fails. -/
theorem of_failed
    (x : Exchange (Call.Answer (T := T) (K := K)))
    {e : Error}
    (hFailed : DocumentMapper.failed x = true)
    (more : List (Call T K)) :
    Course gap (x.question :: more) [x]
      (.error (.error e) : Except _ α) :=
  have hPrefix :
      questions ([] ++ [x]) <+: x.question :: more :=
    List.prefix_append [x.question] more
  .failed hPrefix .nil hFailed

/- Nothing follows a course that fails. -/
theorem extend
    {failure : Failure}
    (h :
      Course gap calls heard (.error failure : Except _ α))
    (more : List (Call T K)) :
    Course gap (calls ++ more) heard
      (.error failure : Except _ β) := by
  generalize hOutcome : Except.error failure = outcome at h
  cases h with
  | whole hCalls hFlawless => cases hOutcome
  | failed hCalls hFlawless hFailed =>
      cases hOutcome
      exact
        .failed (hCalls.trans (List.prefix_append _ _)) hFlawless
          hFailed
  | cut hGap hCalls hFlawless =>
      cases hOutcome
      exact
        .cut hGap (hCalls.trans (List.prefix_append _ _))
          hFlawless

/- Which value there is in the end does not matter. -/
theorem of_value
    {value : α}
    (h : Course gap calls heard (.ok value))
    (other : β) :
    Course gap calls heard (.ok other) :=
  .whole h.of_ok.1 h.of_ok.2

/- Which error there is in the end does not matter. -/
theorem of_error
    {cause e : Error}
    (h :
      Course gap calls heard
        (.error (.error cause) : Except _ α)) :
    Course gap calls heard (.error (.error e) : Except _ β) := by
  generalize hOutcome : Except.error (Failure.error cause) =
    outcome at h
  cases h with
  | whole hCalls hFlawless => cases hOutcome
  | failed hCalls hFlawless hFailed =>
      exact .failed hCalls hFlawless hFailed
  | cut hGap hCalls hFlawless =>
      exact .cut hGap hCalls hFlawless

/- Context does not change a course. -/
theorem inContext
    (kind : RequestKind)
    (id collection : Text)
    (h : Course gap calls heard outcome) :
    Course gap calls heard
      (outcome.mapError (Failure.inContext kind id collection)) := by
  cases h with
  | whole hCalls hFlawless => exact .whole hCalls hFlawless
  | failed hCalls hFlawless hFailed =>
      exact .failed hCalls hFlawless hFailed
  | cut hGap hCalls hFlawless =>
      exact .cut hGap hCalls hFlawless

/- A course without gaps is one where there may be gaps. -/
theorem mono
    {gap' : Prop}
    (hGap : gap → gap')
    (h : Course gap calls heard outcome) :
    Course gap' calls heard outcome := by
  cases h with
  | whole hCalls hFlawless => exact .whole hCalls hFlawless
  | failed hCalls hFlawless hFailed =>
      exact .failed hCalls hFlawless hFailed
  | cut hOwn hCalls hFlawless =>
      exact .cut (hGap hOwn) hCalls hFlawless

/- Without a gap, who fails with an error has heard of a failure. -/
theorem not_flawless
    {failure : Failure}
    (h :
      Course False calls heard (.error failure : Except _ α)) :
    ¬ Flawless heard := by
  generalize hOutcome : Except.error failure = outcome at h
  cases h with
  | whole hCalls hFlawless => cases hOutcome
  | failed hCalls hFlawless hFailed =>
      intro hAll
      rw [hAll _ (by simp)] at hFailed
      cases hFailed
  | cut hGap hCalls hFlawless => exact hGap.elim

/- Nothing follows a failing step, and the whole fails. -/
theorem stops
    {earlier : Transcript T K}
    {x : Exchange (Call.Answer (T := T) (K := K))}
    (h : Course gap calls (earlier ++ x :: later) outcome)
    (hFailed : DocumentMapper.failed x = true) :
    later = [] ∧ Flawless earlier ∧
      ∃ e, outcome = .error (.error e) := by
  have hNot :
      ∀ {flawless : Transcript T K},
        Flawless flawless → x ∉ flawless := by
    intro flawless hFlawless hMem
    rw [hFlawless x hMem] at hFailed
    cases hFailed
  generalize hAll : earlier ++ x :: later = all at h
  cases h with
  | whole hCalls hFlawless =>
      exact absurd (by simp [← hAll]) (hNot hFlawless)
  | cut hGap hCalls hFlawless =>
      exact absurd (by simp [← hAll]) (hNot hFlawless)
  | @failed own y e hCalls hFlawless hLast =>
      rcases List.eq_nil_or_concat later with
        rfl | ⟨rest, last, rfl⟩
      · rcases List.append_inj' hAll rfl with ⟨rfl, -⟩
        exact ⟨rfl, hFlawless, _, rfl⟩
      · have hInit :
            (earlier ++ x :: rest) ++ [last] = own ++ [y] := by
          simpa using hAll
        rcases List.append_inj' hInit rfl with ⟨rfl, -⟩
        exact absurd (by simp) (hNot hFlawless)

end Course

end DocumentMapper
