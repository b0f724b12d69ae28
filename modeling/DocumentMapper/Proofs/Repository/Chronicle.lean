import DocumentMapper.Proofs.Repository.Keeping

/-
  Chronicles: what happens to a registry.

  Operations are carried out on a registry one after the
  other, by whatever repositories, and others may call it in
  between. To the registry an operation is nothing but a
  number of results to keep, so an entry that nobody drops is
  there for good, and every entry that is there has come from
  somewhere.

  Key definitions include:
    * `OperationRun`, `Happening`
    * `Chronicle`

  Main statements include:
    * `OperationRun.exists_kept`
    * `Chronicle.exists_calls`
    * `Chronicle.find?`
    * `Chronicle.exists_origin`
    * `Chronicle.attempt_ne_of_erased`
-/

namespace DocumentMapper

variable {T : Type}
variable [EntityTypes T]
variable {K : Hooks T}

------------------------------------------------------------
-- Operations
------------------------------------------------------------

/- An operation that was carried out, and how it ended. -/
structure OperationRun
    (T : Type)
    [EntityTypes T]
    (K : Hooks T) where
  repo : Repository T
  scope : CallScope
  op : Operation T
  before : ResultRegistry
  transcript : Transcript T K
  outcome : Except Failure op.Outcome
  after : ResultRegistry
  ends :
    (repo.perform scope op).Ends before transcript outcome after

namespace OperationRun

/- The operation has put the result under the key. -/
def Issued
    (run : OperationRun T K)
    (key : Int64)
    (result : GetResult) : Prop :=
  (key, some result) ∈ run.after.entries ∧
    (key, some result) ∉ run.before.entries

/- All that an operation does to a registry is to keep results. -/
theorem exists_kept
    (run : OperationRun T K) :
    ∃ kept : List GetResult,
      kept ⊆ resultsOf run.transcript ∧
        run.after = run.before.keepAll kept := by
  rcases run with ⟨repo, scope, op, before, transcript, _, after, h⟩
  by_cases hSingle : op.IsSingle
  · exact
      ⟨_, Operation.keeps_subset,
        Repository.ends_perform_keeps hSingle h⟩
  · cases op with
    | findAll t ids options =>
        rcases Repository.ends_findAll_findsAll h with
          ⟨runs, rfl, hRuns⟩
        refine ⟨_, ?_, hRuns.after_eq⟩
        intro result hMem
        rcases List.mem_flatMap.mp hMem with ⟨run, hRun, hKept⟩
        rw [resultsOf_flatten, List.flatMap_map]
        exact
          List.mem_flatMap.mpr
            ⟨run, hRun, Operation.keeps_subset hKept⟩
    | _ => exact absurd trivial hSingle

/- A result that was put there was handed out to the operation. -/
theorem Issued.mem_resultsOf
    {run : OperationRun T K}
    {key : Int64}
    {result : GetResult}
    (h : run.Issued key result) :
    result ∈ resultsOf run.transcript := by
  rcases run.exists_kept with ⟨kept, hSubset, hKept⟩
  rcases h with ⟨hAfter, hBefore⟩
  rw [hKept] at hAfter
  rcases ResultRegistry.mem_entries_keepAll hAfter with
    hOld | ⟨_, hMem, hSame⟩
  · exact absurd hOld hBefore
  · cases hSame
    exact hSubset hMem

end OperationRun

------------------------------------------------------------
-- Happenings
------------------------------------------------------------

/- An operation is carried out, or somebody else calls. -/
inductive Happening
    (T : Type)
    [EntityTypes T]
    (K : Hooks T) where
  | operation (run : OperationRun T K)
  | call (c : RegistryCall)

/- Neither the key nor the attempt is dropped. -/
def Happening.Spares
    (key : Int64)
    (attempt : Attempt) : Happening T K → Prop
  | .operation _ => True
  | .call c => c.Spares key attempt

/-
  The happenings lead from one registry to the other, each
  from the registry that the one before it has left.
-/
inductive Chronicle :
    ResultRegistry → List (Happening T K) →
      ResultRegistry → Prop where
  | nil
      (registry : ResultRegistry) :
      Chronicle registry [] registry
  | operation
      (run : OperationRun T K)
      {rest : List (Happening T K)}
      {after : ResultRegistry}
      (hRest : Chronicle run.after rest after) :
      Chronicle run.before (.operation run :: rest) after
  | call
      (before : ResultRegistry)
      (c : RegistryCall)
      {rest : List (Happening T K)}
      {after : ResultRegistry}
      (hRest : Chronicle (before.call c) rest after) :
      Chronicle before (.call c :: rest) after

namespace Chronicle

variable {before after : ResultRegistry}
variable {happenings : List (Happening T K)}
variable {key : Int64}
variable {result : GetResult}

/- What happens first leads to where the rest begins. -/
theorem of_append
    {earlier later : List (Happening T K)}
    (h : Chronicle before (earlier ++ later) after) :
    ∃ between,
      Chronicle before earlier between ∧
        Chronicle between later after := by
  induction earlier generalizing before with
  | nil => exact ⟨before, .nil before, h⟩
  | cons x rest ih =>
      cases h with
      | operation run hRest =>
          rcases ih hRest with ⟨between, hFirst, hLater⟩
          exact ⟨between, .operation run hFirst, hLater⟩
      | call _ c hRest =>
          rcases ih hRest with ⟨between, hFirst, hLater⟩
          exact ⟨between, .call before c hFirst, hLater⟩

/-
  To the registry everything that happens is a call, and
  operations only make calls that keep something.
-/
theorem exists_calls
    (h : Chronicle before happenings after) :
    ∃ calls,
      after = before.callAll calls ∧
        ∀ c ∈ calls,
          (∃ result?, c = .save result?) ∨
            .call c ∈ happenings := by
  induction h with
  | nil registry => exact ⟨[], rfl, nofun⟩
  | operation run hRest ih =>
      rcases ih with ⟨calls, rfl, hCalls⟩
      rcases run.exists_kept with ⟨kept, -, hKept⟩
      refine
        ⟨kept.map (fun result => .save (some result)) ++ calls,
          ?_, ?_⟩
      · rw [hKept, ResultRegistry.callAll_append]
        rfl
      · intro c hMem
        rcases List.mem_append.mp hMem with hOwn | hLater
        · rcases List.mem_map.mp hOwn with ⟨own, -, rfl⟩
          exact .inl ⟨_, rfl⟩
        · exact (hCalls c hLater).imp_right (List.mem_cons_of_mem _)
  | call before c hRest ih =>
      rcases ih with ⟨calls, rfl, hCalls⟩
      refine ⟨c :: calls, rfl, ?_⟩
      intro other hMem
      rcases List.mem_cons.mp hMem with rfl | hLater
      · exact .inr List.mem_cons_self
      · exact
          (hCalls other hLater).imp_right
            (List.mem_cons_of_mem _)

/- An entry that nobody drops is there for good. -/
theorem find?
    (h : Chronicle before happenings after)
    (hFind : before.find? key = some result)
    (hSpares : ∀ x ∈ happenings, x.Spares key result.attempt) :
    after.find? key = some result := by
  rcases h.exists_calls with ⟨calls, rfl, hCalls⟩
  refine ResultRegistry.find?_callAll hFind ?_
  intro c hMem
  rcases hCalls c hMem with ⟨result?, rfl⟩ | hCall
  · exact trivial
  · exact hSpares _ hCall

/-
  If others do not keep anything, an entry has been there from
  the beginning, or an operation has put it there.
-/
theorem exists_origin
    (h : Chronicle before happenings after)
    (hErases : ∀ c, .call c ∈ happenings → c.saved? = none)
    (hEntry : (key, some result) ∈ after.entries) :
    (key, some result) ∈ before.entries ∨
      ∃ run, .operation run ∈ happenings ∧
        run.Issued key result := by
  induction h with
  | nil registry => exact .inl hEntry
  | operation run hRest ih =>
      have hLater :=
        ih (fun c hMem => hErases c (List.mem_cons_of_mem _ hMem))
          hEntry
      rcases hLater with hAfter | ⟨later, hMem, hIssued⟩
      · by_cases hBefore : (key, some result) ∈ run.before.entries
        · exact .inl hBefore
        · exact .inr ⟨run, List.mem_cons_self, hAfter, hBefore⟩
      · exact .inr ⟨later, List.mem_cons_of_mem _ hMem, hIssued⟩
  | call before c hRest ih =>
      have hLater :=
        ih (fun c hMem => hErases c (List.mem_cons_of_mem _ hMem))
          hEntry
      rcases hLater with hCalled | ⟨later, hMem, hIssued⟩
      · rcases ResultRegistry.mem_entries_call hCalled with
          hBefore | hSaved
        · exact .inl hBefore
        · rw [hErases c List.mem_cons_self] at hSaved
          cases hSaved
      · exact .inr ⟨later, List.mem_cons_of_mem _ hMem, hIssued⟩

/-
  When the entries of an attempt are dropped and no operation
  is handed a result of it any more, there is none.
-/
theorem attempt_ne_of_erased
    {dropped : Attempt}
    (h :
      Chronicle before
        (.call (.eraseOfAttempt dropped) :: happenings) after)
    (hErases : ∀ c, .call c ∈ happenings → c.saved? = none)
    (hOver :
      ∀ run, .operation run ∈ happenings →
        ∀ result ∈ resultsOf run.transcript,
          result.attempt ≠ dropped)
    (hEntry : (key, some result) ∈ after.entries) :
    result.attempt ≠ dropped := by
  cases h with
  | call _ _ hRest =>
      rcases hRest.exists_origin hErases hEntry with
        hLeft | ⟨run, hMem, hIssued⟩
      · exact
          ResultRegistry.attempt_ne_of_mem_eraseOfAttempt hLeft
      · exact hOver run hMem result hIssued.mem_resultsOf

end Chronicle

end DocumentMapper
