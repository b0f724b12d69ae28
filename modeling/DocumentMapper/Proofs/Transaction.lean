import DocumentMapper.Proofs.Association
import DocumentMapper.Transaction
import Mathlib.Algebra.Group.Nat.Defs

/-
  The registry of transaction results under sequences of
  calls.

  A registry is only ever changed by keeping a result, by
  dropping the entry of a key, and by dropping the entries of
  an attempt. From the empty registry the issued keys are the
  numbers from one on, up to the largest one of their type;
  until then a key is issued once, and its entry stays until
  it is dropped.

  Key definitions include:
    * `RegistryCall`, `RegistryCall.Spares`
    * `ResultRegistry.call`, `ResultRegistry.callAll`
    * `ResultRegistry.issues`
    * `ResultRegistry.keepAll`

  Main statements include:
    * `ResultRegistry.keys_issues`
    * `ResultRegistry.entries_callAll_sublist`
    * `ResultRegistry.mem_entries_callAll`
    * `ResultRegistry.nextKey_fresh`
    * `ResultRegistry.find?_callAll`
-/

namespace DocumentMapper

------------------------------------------------------------
-- Calls
------------------------------------------------------------

/- A change of a registry. -/
inductive RegistryCall where
  | save (result? : Option GetResult)
  | erase (key : Int64)
  | eraseOfAttempt (attempt : Attempt)
  deriving DecidableEq, Repr

namespace RegistryCall

/- What is kept, if the call keeps something. -/
def saved? : RegistryCall → Option (Option GetResult)
  | .save result? => some result?
  | .erase _ => none
  | .eraseOfAttempt _ => none

/- The call drops neither the key nor the attempt. -/
def Spares
    (key : Int64)
    (attempt : Attempt) : RegistryCall → Prop
  | .save _ => True
  | .erase dropped => dropped ≠ key
  | .eraseOfAttempt dropped => dropped ≠ attempt

end RegistryCall

namespace ResultRegistry

/- The registry after a call. -/
def call
    (r : ResultRegistry) : RegistryCall → ResultRegistry
  | .save result? => (r.save result?).2
  | .erase key => (r.erase key).2
  | .eraseOfAttempt attempt => (r.eraseOfAttempt attempt).2

/- The registry after several calls. -/
def callAll
    (r : ResultRegistry)
    (calls : List RegistryCall) : ResultRegistry :=
  calls.foldl call r

/- The keys that calls are given, with what is kept under them. -/
def issues
    (r : ResultRegistry) :
    List RegistryCall → List (Int64 × Option GetResult)
  | [] => []
  | c :: rest =>
      (c.saved?.map (r.nextKey, ·)).toList ++
        issues (r.call c) rest

/- Who keeps something is given the key that is issued. -/
@[simp]
theorem issues_save
    {r : ResultRegistry}
    {result? : Option GetResult}
    {calls : List RegistryCall} :
    r.issues (.save result? :: calls) =
      ((r.save result?).1, result?) ::
        (r.save result?).2.issues calls :=
  rfl

/- Keep results one after the other. -/
def keepAll
    (r : ResultRegistry)
    (results : List GetResult) : ResultRegistry :=
  r.callAll (results.map fun result => .save (some result))

variable {r : ResultRegistry}
variable {c : RegistryCall}
variable {calls others : List RegistryCall}
variable {key : Int64}
variable {result : GetResult}

@[simp]
theorem callAll_nil : r.callAll [] = r :=
  rfl

@[simp]
theorem callAll_cons :
    r.callAll (c :: calls) = (r.call c).callAll calls :=
  rfl

@[simp]
theorem callAll_append :
    r.callAll (calls ++ others) =
      (r.callAll calls).callAll others :=
  List.foldl_append

/- What is issued first does not depend on what comes later. -/
theorem issues_append :
    r.issues (calls ++ others) =
      r.issues calls ++ (r.callAll calls).issues others := by
  induction calls generalizing r with
  | nil => rfl
  | cons c rest ih =>
      rw [List.cons_append, issues, issues, ih,
        List.append_assoc]
      rfl

@[simp]
theorem keepAll_nil : r.keepAll [] = r :=
  rfl

@[simp]
theorem keepAll_cons
    {results : List GetResult} :
    r.keepAll (result :: results) =
      (r.save (some result)).2.keepAll results :=
  rfl

@[simp]
theorem keepAll_append
    {first second : List GetResult} :
    r.keepAll (first ++ second) =
      (r.keepAll first).keepAll second := by
  unfold keepAll
  rw [List.map_append, callAll_append]

------------------------------------------------------------
-- Keys
------------------------------------------------------------

/- A call that keeps something is given the next key. -/
theorem nextKey_call
    {n : Nat}
    (hNext : r.nextKey = .ofNat n) :
    (r.call c).nextKey =
      .ofNat (n + c.saved?.toList.length) := by
  cases c with
  | save result? =>
      show r.nextKey + 1 = _
      rw [hNext, Int64.ofNat_add]
      rfl
  | erase key => exact hNext
  | eraseOfAttempt attempt => exact hNext

/- Keys are issued one after the other. -/
theorem keys_issues
    {n : Nat}
    (hNext : r.nextKey = .ofNat n) :
    Association.keys (r.issues calls) =
      (List.range' n (r.issues calls).length).map
        Int64.ofNat := by
  induction calls generalizing r n with
  | nil => rfl
  | cons c rest ih =>
      have hRest := ih (nextKey_call (c := c) hNext)
      rw [issues]
      cases hSaved : c.saved? with
      | none =>
          rw [hSaved] at hRest
          exact hRest
      | some result? =>
          rw [hSaved] at hRest
          have hFirst : r.nextKey = .ofNat n := hNext
          simp only [Association.keys] at hRest
          simp [Association.keys, hRest, hFirst,
            List.range'_succ]

/- The next key comes after the issued ones. -/
theorem nextKey_callAll
    {n : Nat}
    (hNext : r.nextKey = .ofNat n) :
    (r.callAll calls).nextKey =
      .ofNat (n + (r.issues calls).length) := by
  induction calls generalizing r n with
  | nil => exact hNext
  | cons c rest ih =>
      rw [callAll_cons, ih (nextKey_call hNext), issues,
        List.length_append, ← Nat.add_assoc]
      cases c.saved? <;> rfl

/- A call leaves entries of before, and at most one new one. -/
theorem entries_call_sublist :
    (r.call c).entries.Sublist
      (r.entries ++ (c.saved?.map (r.nextKey, ·)).toList) := by
  cases c with
  | save result? =>
      by_cases hTaken :
          (Association.lookup? r.nextKey r.entries).isSome
      · have hSame :
            (r.call (.save result?)).entries = r.entries :=
          if_pos hTaken
        rw [hSame]
        exact List.sublist_append_left _ _
      · have hNew :
            (r.call (.save result?)).entries =
              r.entries ++ [(r.nextKey, result?)] :=
          if_neg hTaken
        rw [hNew]
        exact List.Sublist.refl _
  | erase key =>
      apply List.Sublist.trans _ (List.sublist_append_left _ _)
      exact Association.erase_sublist key r.entries
  | eraseOfAttempt attempt =>
      apply List.Sublist.trans _ (List.sublist_append_left _ _)
      exact List.filter_sublist

/- What calls leave was there before, or is issued, in this order. -/
theorem entries_callAll_sublist :
    (r.callAll calls).entries.Sublist
      (r.entries ++ r.issues calls) := by
  induction calls generalizing r with
  | nil => exact List.sublist_append_left _ _
  | cons c rest ih =>
      rw [callAll_cons, issues, ← List.append_assoc]
      apply ih.trans
      exact entries_call_sublist.append_right _

/- Nothing is found in a registry but what was kept. -/
theorem mem_entries_call
    {entry : Int64 × Option GetResult}
    (h : entry ∈ (r.call c).entries) :
    entry ∈ r.entries ∨
      entry ∈ (c.saved?.map (r.nextKey, ·)).toList :=
  List.mem_append.mp (entries_call_sublist.subset h)

/- Nothing is found after several calls but what was kept. -/
theorem mem_entries_callAll
    {entry : Int64 × Option GetResult}
    (h : entry ∈ (r.callAll calls).entries) :
    entry ∈ r.entries ∨ entry ∈ r.issues calls :=
  List.mem_append.mp (entries_callAll_sublist.subset h)

/- Every result that is kept is given a key. -/
theorem length_issues_saves
    {results : List GetResult} :
    (r.issues
        (results.map fun result =>
          .save (some result))).length =
      results.length := by
  induction results generalizing r with
  | nil => rfl
  | cons result rest ih =>
      rw [List.map_cons, issues_save, List.length_cons, ih,
        List.length_cons]

/- What is issued was given to a call to keep. -/
theorem saved_of_mem_issues
    {entry : Int64 × Option GetResult}
    (h : entry ∈ r.issues calls) :
    ∃ c ∈ calls, c.saved? = some entry.2 := by
  induction calls generalizing r with
  | nil => cases h
  | cons c rest ih =>
      rw [issues] at h
      rcases List.mem_append.mp h with hFirst | hRest
      · rcases Option.map_eq_some_iff.mp
            (Option.mem_toList.mp hFirst) with
          ⟨result?, hSaved, rfl⟩
        exact ⟨c, List.mem_cons_self, hSaved⟩
      · rcases ih hRest with ⟨other, hMem, hSaved⟩
        exact ⟨other, List.mem_cons_of_mem _ hMem, hSaved⟩

/- Keeping results adds no others. -/
theorem mem_entries_keepAll
    {entry : Int64 × Option GetResult}
    {results : List GetResult}
    (h : entry ∈ (r.keepAll results).entries) :
    entry ∈ r.entries ∨ ∃ result ∈ results, entry.2 = some result := by
  rcases mem_entries_callAll h with hOld | hIssued
  · exact .inl hOld
  · rcases saved_of_mem_issues hIssued with ⟨c, hMem, hSaved⟩
    rcases List.mem_map.mp hMem with ⟨result, hResult, rfl⟩
    exact .inr ⟨result, hResult, (Option.some.inj hSaved).symm⟩

/- No entry of an attempt is left when its entries are dropped. -/
theorem attempt_ne_of_mem_eraseOfAttempt
    {attempt : Attempt}
    (h : (key, some result) ∈ (r.eraseOfAttempt attempt).2.entries) :
    result.attempt ≠ attempt := by
  have hLeft := (List.mem_filter.mp h).2
  simpa [isOfAttempt] using hLeft

/- What is found is an entry. -/
theorem mem_entries_of_find?
    (h : r.find? key = some result) :
    (key, some result) ∈ r.entries :=
  Association.mem_of_lookup? (Option.join_eq_some_iff.mp h)

------------------------------------------------------------
-- Fresh Keys
------------------------------------------------------------

/- Small numbers are different keys, and all of them positive. -/
theorem ofNat_inj_of_lt
    {m n : Nat}
    (hm : m < 2 ^ 63)
    (hn : n < 2 ^ 63)
    (h : Int64.ofNat m = Int64.ofNat n) :
    m = n := by
  have hInt := congrArg Int64.toInt h
  rw [Int64.toInt_ofNat_of_lt hm, Int64.toInt_ofNat_of_lt hn] at hInt
  exact Int.ofNat_inj.mp hInt

/-
  The next key of a registry that has issued few keys is
  positive, and was not issued before.
-/
theorem nextKey_fresh
    (hFew : (issues {} calls).length + 1 < 2 ^ 63) :
    0 < (callAll {} calls).nextKey ∧
      (callAll {} calls).nextKey ∉
        Association.keys (issues {} calls) := by
  have hStart : ({} : ResultRegistry).nextKey = .ofNat 1 := rfl
  rw [nextKey_callAll hStart, keys_issues hStart]
  constructor
  · rw [Int64.lt_iff_toInt_lt,
      Int64.toInt_ofNat_of_lt (by omega)]
    have hZero : (0 : Int64).toInt = 0 := rfl
    omega
  · intro hMem
    rcases List.mem_map.mp hMem with ⟨n, hRange, hSame⟩
    rw [List.mem_range'_1] at hRange
    have := ofNat_inj_of_lt (by omega) (by omega) hSame
    omega

/- A key that was not issued has no entry. -/
theorem lookup?_eq_none_of_not_issued
    (hNew : key ∉ Association.keys (issues {} calls)) :
    Association.lookup? key (callAll {} calls).entries = none := by
  rw [Association.lookup?_eq_none_iff]
  intro hMem
  rcases List.mem_map.mp hMem with ⟨entry, hEntry, rfl⟩
  rcases mem_entries_callAll hEntry with hNone | hIssued
  · exact absurd hNone List.not_mem_nil
  · exact hNew (List.mem_map_of_mem hIssued)

/- A result that is kept under a new key comes last. -/
theorem entries_save
    {result? : Option GetResult}
    (hNew : Association.lookup? r.nextKey r.entries = none) :
    (r.save result?).2.entries =
      r.entries ++ [(r.nextKey, result?)] := by
  unfold save
  rw [hNew]
  rfl

/- It is found under that key. -/
theorem find?_save
    (hNew : Association.lookup? r.nextKey r.entries = none) :
    (r.save (some result)).2.find? r.nextKey = some result := by
  unfold find?
  rw [entries_save hNew, Association.lookup?_append, hNew]
  simp [Association.lookup?]

------------------------------------------------------------
-- Entries That Stay
------------------------------------------------------------

/- A call that spares an entry does not hide it. -/
theorem find?_call
    (hFind : r.find? key = some result)
    (hSpares : c.Spares key result.attempt) :
    (r.call c).find? key = some result := by
  have hLookup :
      Association.lookup? key r.entries = some (some result) :=
    Option.join_eq_some_iff.mp hFind
  refine Option.join_eq_some_iff.mpr ?_
  cases c with
  | save result? =>
      show Association.lookup? key (r.save result?).2.entries = _
      unfold save
      dsimp only
      split
      · exact hLookup
      · rw [Association.lookup?_append, hLookup]
        rfl
  | erase dropped =>
      show Association.lookup? key (r.erase dropped).2.entries = _
      unfold erase
      rw [Association.lookup?_erase_of_ne hSpares, hLookup]
  | eraseOfAttempt attempt =>
      refine Association.lookup?_filter hLookup ?_
      simpa [isOfAttempt] using Ne.symm hSpares

/- Calls that spare an entry do not hide it. -/
theorem find?_callAll
    (hFind : r.find? key = some result)
    (hSpares : ∀ c ∈ calls, c.Spares key result.attempt) :
    (r.callAll calls).find? key = some result := by
  induction calls generalizing r with
  | nil => exact hFind
  | cons c rest ih =>
      rw [List.forall_mem_cons] at hSpares
      exact ih (find?_call hFind hSpares.1) hSpares.2

/- Keeping results changes no entry that was there. -/
theorem entries_prefix_keepAll
    {results : List GetResult} :
    r.entries <+: (r.keepAll results).entries := by
  induction results generalizing r with
  | nil => exact List.prefix_refl _
  | cons result rest ih =>
      refine List.IsPrefix.trans ?_ ih
      show r.entries <+: (r.save (some result)).2.entries
      unfold save
      dsimp only
      split
      · exact List.prefix_refl _
      · exact List.prefix_append _ _

end ResultRegistry

end DocumentMapper
