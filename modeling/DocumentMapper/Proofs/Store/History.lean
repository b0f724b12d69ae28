import DocumentMapper.Proofs.Dialogue.Quiet
import DocumentMapper.Proofs.Session.Runs
import DocumentMapper.Proofs.Store.Ledger
import DocumentMapper.Repository.Operation

/-
  Histories: operations of many clients on one store.

  The questions of all operations come in one order, in which
  those of each operation are a beginning of one of its
  transcripts. A request is carried out by the store at the
  moment of its question; everybody else answers at will.

  The registry of an operation is the one it would see if it
  ran alone. Since it looks at the entries before its request
  and takes keys after it, this covers what others may do to
  the registry meanwhile.

  Key definitions include:
    * `Activity`
    * `Ledger.Runs`
    * `History`
    * `History.Serving`
    * `History.Finished`
    * `Session.history`

  Main statements include:
    * `Ledger.Runs.consistent`
    * `History.exists_serving`
    * `Session.history_finished`
-/

namespace DocumentMapper

variable {T : Type}
variable [EntityTypes T]
variable {K : Hooks T}
variable {I : Type}

------------------------------------------------------------
-- Runs of a Store
------------------------------------------------------------

/- What is asked and answered, and in which operation. -/
abbrev Trace
    (T : Type)
    [EntityTypes T]
    (K : Hooks T)
    (I : Type) : Type :=
  List (I × Exchange (Call.Answer (T := T) (K := K)))

/-
  The store carries out the requests of a trace one after the
  other.
-/
inductive Ledger.Runs :
    Ledger → Trace T K I → Ledger → Prop where
  | done (l : Ledger) : Runs l [] l
  | asked
      {l l' : Ledger}
      {i : I}
      {x : Exchange (Call.Answer (T := T) (K := K))}
      {rest : Trace T K I}
      (hOther : submission? x = none)
      (hRest : Runs l rest l') :
      Runs l ((i, x) :: rest) l'
  | served
      {l between l' : Ledger}
      {i : I}
      {attempt? : Option Attempt}
      {request : Request}
      {reply : Reply StoreRecord}
      {rest : Trace T K I}
      (hServes : l.Serves attempt? request reply between)
      (hRest : Runs between rest l') :
      Runs l ((i, ⟨.submit attempt? request, reply⟩) :: rest) l'

namespace Ledger

variable {l l' : Ledger}
variable {trace : Trace T K I}

/- A run keeps store and history consistent. -/
theorem Runs.consistent
    (hRuns : l.Runs trace l')
    (h : l.Consistent) :
    l'.Consistent := by
  induction hRuns with
  | done l => exact h
  | asked hOther hRest ih => exact ih h
  | served hServes hRest ih => exact ih (hServes.consistent h)

/- A run falls into its parts. -/
theorem Runs.of_append
    {earlier later : Trace T K I}
    (hRuns : l.Runs (earlier ++ later) l') :
    ∃ between, l.Runs earlier between ∧
      between.Runs later l' := by
  induction earlier generalizing l with
  | nil => exact ⟨l, .done l, hRuns⟩
  | cons x rest ih =>
      cases hRuns with
      | asked hOther hRest =>
          rcases ih hRest with ⟨between, hFirst, hSecond⟩
          exact ⟨between, .asked hOther hFirst, hSecond⟩
      | served hServes hRest =>
          rcases ih hRest with ⟨between, hFirst, hSecond⟩
          exact ⟨between, .served hServes hFirst, hSecond⟩

end Ledger

------------------------------------------------------------
-- Histories
------------------------------------------------------------

/- An operation of a client, with all that it starts from. -/
structure Activity
    (T : Type)
    [EntityTypes T] where
  repo : Repository T
  scope : CallScope
  registry : ResultRegistry
  op : Operation T

/- What the operation does. -/
def Activity.task
    (a : Activity T) : Task T K a.op.Outcome :=
  a.repo.perform a.scope a.op

/- What is asked and answered in one operation. -/
def Trace.of
    [DecidableEq I]
    (trace : Trace T K I)
    (i : I) : Transcript T K :=
  (trace.filter (·.1 = i)).map (·.2)

/-
  Operations that run against one store, in any order: some
  are finished, some have only begun.
-/
structure History
    (T : Type)
    [EntityTypes T]
    (K : Hooks T)
    (I : Type)
    [DecidableEq I] where
  store : MemoryStore
  activity : I → Activity T
  trace : Trace T K I
  final : Ledger
  runs : (Ledger.opening store).Runs trace final
  conforms :
    ∀ i, ∃ rest outcome after,
      (activity i).task.Ends (activity i).registry
        (trace.of i ++ rest) outcome after

namespace History

variable [DecidableEq I]

/- The operation is done, with this outcome. -/
def Finished
    (h : History T K I)
    (i : I)
    (a : Activity T)
    (outcome : Except Failure a.op.Outcome) : Prop :=
  h.activity i = a ∧
    ∃ after,
      a.task.Ends a.registry (h.trace.of i) outcome after

/- The moment at which a request of an operation is carried out. -/
structure Serving
    (h : History T K I)
    (i : I) where
  earlier : Trace T K I
  later : Trace T K I
  attempt? : Option Attempt
  request : Request
  reply : Reply StoreRecord
  before : Ledger
  after : Ledger
  trace_eq :
    h.trace =
      earlier ++
        (i, ⟨.submit attempt? request, reply⟩) :: later
  reached : (Ledger.opening h.store).Runs earlier before
  serves : before.Serves attempt? request reply after
  continues : after.Runs later h.final

variable {h : History T K I}
variable {i : I}

/- The store is what its history says. -/
theorem Serving.consistent
    (s : h.Serving i) :
    s.before.Consistent :=
  s.reached.consistent (Ledger.consistent_opening _)

/- What an operation was asked and answered is in the trace. -/
theorem mem_of_iff
    {trace : Trace T K I}
    {x : Exchange (Call.Answer (T := T) (K := K))} :
    x ∈ trace.of i ↔ (i, x) ∈ trace := by
  simp [Trace.of]

/- The request that is carried out belongs to the operation. -/
theorem Serving.mem
    (s : h.Serving i) :
    ⟨.submit s.attempt? s.request, s.reply⟩ ∈
      h.trace.of i := by
  rw [mem_of_iff, s.trace_eq]
  simp

/- Every request of an operation is carried out at some moment. -/
theorem exists_serving
    {attempt? : Option Attempt}
    {request : Request}
    {reply : Reply StoreRecord}
    (hMem :
      ⟨.submit attempt? request, reply⟩ ∈ h.trace.of i) :
    ∃ s : h.Serving i,
      s.attempt? = attempt? ∧ s.request = request ∧
        s.reply = reply := by
  rcases List.append_of_mem (mem_of_iff.mp hMem) with
    ⟨earlier, later, hTrace⟩
  have hRuns := h.runs
  rw [hTrace] at hRuns
  rcases hRuns.of_append with ⟨before, hEarlier, hLater⟩
  cases hLater with
  | asked hOther hRest => cases hOther
  | @served _ after _ _ _ _ _ _ hServes hRest =>
      exact
        ⟨{ earlier, later, attempt?, request, reply, before
           after
           trace_eq := hTrace
           reached := hEarlier
           serves := hServes
           continues := hRest }, rfl, rfl, rfl⟩

end History

------------------------------------------------------------
-- Histories of Sessions
------------------------------------------------------------

namespace Session

/- An operation that a session is about to carry out. -/
def activity
    (s : Session T)
    (scope : CallScope)
    (op : Operation T) : Activity T :=
  ⟨s.repository, scope, s.registry, op⟩

/- All that is asked and answered in the one operation. -/
def soloTrace
    (s : Session T)
    (a : Activity T) : Trace T (scriptedHooks T) Unit :=
  (s.transcriptOf a.task).map fun x => ((), x)

/- Nothing else is asked or answered. -/
theorem soloTrace_of
    (s : Session T)
    (a : Activity T) :
    (s.soloTrace a).of () = s.transcriptOf a.task := by
  simp [soloTrace, Trace.of, Function.comp_def]

/- A session that carries out one operation on its store. -/
def history
    (s : Session T)
    (scope : CallScope)
    (op : Operation T)
    (final : Ledger)
    (hRuns :
      (Ledger.opening s.store.memory).Runs
        (s.soloTrace (s.activity scope op)) final) :
    History T (scriptedHooks T) Unit where
  store := s.store.memory
  activity _ := s.activity scope op
  trace := s.soloTrace (s.activity scope op)
  final := final
  runs := hRuns
  conforms _ :=
    ⟨[], _, _, by
      rw [List.append_nil, soloTrace_of]
      exact ends_work s (s.activity scope op).task⟩

/- The one operation is finished. -/
theorem history_finished
    {s : Session T}
    {scope : CallScope}
    {op : Operation T}
    {final : Ledger}
    (hRuns :
      (Ledger.opening s.store.memory).Runs
        (s.soloTrace (s.activity scope op)) final) :
    (s.history scope op final hRuns).Finished ()
      (s.activity scope op)
      (work (s.activity scope op).task s).1 := by
  have hEnds := ends_work s (s.activity scope op).task
  rw [← soloTrace_of] at hEnds
  exact ⟨rfl, _, hEnds⟩

end Session

end DocumentMapper
