import DocumentMapper.Proofs.Dialogue.Quiet
import DocumentMapper.Proofs.Store.Ledger

/-
  Executors that keep what they are given.

  An executor keeps the payload of a write that it accepts,
  under the token that it assigns, echoes the identifier, and
  answers a get with what it keeps. When it refuses a request,
  which tokens it assigns, and what a removal does is open.

  Key definitions include:
    * `Shelf`
    * `Shelf.Serves`, `Shelf.Runs`
    * `MemoryStore.shelf`

  Main statements include:
    * `Shelf.Runs.of_append`, `Shelf.Runs.append`
    * `Shelf.Runs.serves`
    * `MemoryStore.shelf_serves_ok`
-/

namespace DocumentMapper

variable {T : Type}
variable [EntityTypes T]
variable {K : Hooks T}

/-
  What executors keep: for an attempt or for none, by the
  qualified name of the collection and by the identifier.
-/
abbrev Shelf : Type :=
  Option Attempt → Text → Text → Option StoredDocument

namespace Shelf

/- What is kept where a request goes to. -/
def document?
    (shelf : Shelf)
    (attempt? : Option Attempt)
    (r : Request) : Option StoredDocument :=
  shelf attempt? r.collection.qualified r.id

/-
  One request: an accepted write is kept with its token, and
  what is kept is shown.
-/
structure Serves
    (shelf : Shelf)
    (attempt? : Option Attempt)
    (r : Request)
    (reply : Reply StoreRecord)
    (after : Shelf) : Prop where
  stores :
    ∀ record payload,
      r.kind = .insert ∨ r.kind = .upsert ∨
          r.kind = .replace →
        r.payload? = some payload →
          reply = .ok record →
            record.id = r.id ∧
              after.document? attempt? r =
                some ⟨payload, record.cas⟩
  shows :
    ∀ document,
      r.kind = .get →
        shelf.document? attempt? r = some document →
          ∃ record,
            reply = .ok record ∧
              record.content? = some document.payload ∧
              record.cas = document.cas

------------------------------------------------------------
-- Runs
------------------------------------------------------------

/- The executors carry out requests one after the other. -/
inductive Runs :
    Shelf → Transcript T K → Shelf → Prop where
  | done (shelf : Shelf) : Runs shelf [] shelf
  | asked
      {shelf after : Shelf}
      {x : Exchange (Call.Answer (T := T) (K := K))}
      {rest : Transcript T K}
      (hOther : submission? x = none)
      (hRest : Runs shelf rest after) :
      Runs shelf (x :: rest) after
  | served
      {shelf between after : Shelf}
      {attempt? : Option Attempt}
      {request : Request}
      {reply : Reply StoreRecord}
      {rest : Transcript T K}
      (hServes : shelf.Serves attempt? request reply between)
      (hRest : Runs between rest after) :
      Runs shelf (⟨.submit attempt? request, reply⟩ :: rest)
        after

variable {shelf after : Shelf}
variable {transcript : Transcript T K}
variable {attempt? : Option Attempt}
variable {request : Request}
variable {reply : Reply StoreRecord}

/- A run falls into its parts. -/
theorem Runs.of_append
    {earlier later : Transcript T K}
    (hRuns : shelf.Runs (earlier ++ later) after) :
    ∃ between,
      shelf.Runs earlier between ∧ between.Runs later after := by
  induction earlier generalizing shelf with
  | nil => exact ⟨shelf, .done shelf, hRuns⟩
  | cons x rest ih =>
      cases hRuns with
      | asked hOther hRest =>
          rcases ih hRest with ⟨between, hFirst, hSecond⟩
          exact ⟨between, .asked hOther hFirst, hSecond⟩
      | served hServes hRest =>
          rcases ih hRest with ⟨between, hFirst, hSecond⟩
          exact ⟨between, .served hServes hFirst, hSecond⟩

/- A run may go on with another one. -/
theorem Runs.append
    {between : Shelf}
    {later : Transcript T K}
    (hRuns : shelf.Runs transcript between)
    (hLater : between.Runs later after) :
    shelf.Runs (transcript ++ later) after := by
  induction hRuns with
  | done shelf => exact hLater
  | asked hOther hRest ih => exact .asked hOther (ih hLater)
  | served hServes hRest ih => exact .served hServes (ih hLater)

/- Without requests nothing changes. -/
theorem Runs.eq_of_submissions_eq_nil
    (hRuns : shelf.Runs transcript after)
    (hNone : submissions transcript = []) :
    after = shelf := by
  induction hRuns with
  | done shelf => rfl
  | asked hOther hRest ih =>
      unfold submissions at hNone ih
      rw [List.filterMap_cons_none hOther] at hNone
      exact ih hNone
  | served hServes hRest ih => cases hNone

/- The one request of a run is carried out. -/
theorem Runs.serves
    (hRuns : shelf.Runs transcript after)
    (hOne : submissions transcript = [(attempt?, request)])
    (hMem : ⟨.submit attempt? request, reply⟩ ∈ transcript) :
    shelf.Serves attempt? request reply after := by
  induction hRuns with
  | done shelf => cases hOne
  | @asked shelf after x rest hOther hRest ih =>
      unfold submissions at hOne ih
      rw [List.filterMap_cons_none hOther] at hOne
      rcases List.mem_cons.mp hMem with rfl | hMem
      · cases hOther
      · exact ih hOne hMem
  | @served shelf between after _ _ given rest hServes hRest ih =>
      have hNone : submissions rest = [] :=
        (List.cons_eq_cons.mp hOne).2
      rcases hRest.eq_of_submissions_eq_nil hNone with rfl
      rcases List.mem_cons.mp hMem with hSame | hMem
      · cases hSame
        exact hServes
      · have hSome := mem_submissions_iff.mpr ⟨reply, hMem⟩
        rw [hNone] at hSome
        cases hSome

end Shelf

------------------------------------------------------------
-- The Store in Memory
------------------------------------------------------------

namespace MemoryStore

/- A store keeps the same for all attempts. -/
def shelf
    (s : MemoryStore) : Shelf :=
  fun _ collection id => s.document? (placeOf collection id)

variable {s store : MemoryStore}
variable {attempt? : Option Attempt}
variable {r : Request}
variable {record : StoreRecord}

/- A request that is carried out keeps or shows its document. -/
theorem shelf_serves_ok
    (h : s.perform attempt? r = .ok (record, store)) :
    s.shelf.Serves attempt? r (.ok record) store.shelf where
  stores given payload hKind hPayload hReply := by
    cases hReply
    have hPut : (record, store) = s.put attempt? r := by
      rcases perform_ok_cases h with
        ⟨hOther, -⟩ | ⟨-, hPut⟩ | ⟨hOther, -⟩
      · rcases hOther with hOther | hOther <;>
          simp [hOther] at hKind
      · exact hPut
      · simp [hOther] at hKind
    rcases Prod.mk.inj hPut with ⟨rfl, rfl⟩
    refine ⟨rfl, ?_⟩
    have hFound := document?_put s attempt? r r.place
    rw [if_pos rfl, hPayload] at hFound
    exact hFound
  shows document hKind hFound := by
    rcases perform_get hKind h with
      ⟨given, hGiven, hContent, hCas, -⟩
    have hSame : some given = some document :=
      hGiven.symm.trans hFound
    cases hSame
    exact ⟨_, rfl, hContent, hCas⟩

/- A request that fails has nothing to keep or to show. -/
theorem shelf_serves_failed
    {e : Error}
    (h : s.perform attempt? r = .error e) :
    s.shelf.Serves attempt? r (.failed e) s.shelf where
  stores given payload hKind hPayload hReply := by
    cases hReply
  shows document hKind hFound := by
    have hRequire : s.require r = .ok document :=
      require_eq_ok_iff.mpr hFound
    unfold perform at h
    rw [hKind] at h
    dsimp only at h
    rw [hRequire] at h
    cases h

end MemoryStore

end DocumentMapper
