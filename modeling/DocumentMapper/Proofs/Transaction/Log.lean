import DocumentMapper.Proofs.Transaction
import Mathlib.Data.Set.Card

/-
  The registry as a view of the log of its calls.

  The log of a registry is the list of all calls that changed
  it. A result is live under a key when a call of the log kept
  it and was given that key, and no later call dropped the key
  or the attempt of the result. Liveness looks at the log
  only; the registry finds, counts and drops the live results
  and nothing else.

  Key definitions include:
    * `ResultRegistry.Live`
    * `Sample.visits`

  Main statements include:
    * `ResultRegistry.live_append_iff`
    * `ResultRegistry.find?_call_iff`
    * `ResultRegistry.find?_callAll_iff`
    * `ResultRegistry.countP_entries_callAll`
    * `ResultRegistry.refines_log`
-/

namespace DocumentMapper

------------------------------------------------------------
-- Counting Keys
------------------------------------------------------------

namespace Association

variable {α β : Type}

/- Entries under distinct keys are as many as their keys. -/
theorem countP_eq_ncard_keys
    {entries : List (α × β)}
    (hNodup : (keys entries).Nodup)
    (p : α × β → Bool) :
    entries.countP p =
      {key : α |
        ∃ value, (key, value) ∈ entries ∧
          p (key, value) = true}.ncard := by
  classical
  have hPassing : (keys (entries.filter p)).Nodup := by
    apply List.Nodup.sublist _ hNodup
    exact List.filter_sublist.map Prod.fst
  have hKeys :
      {key : α |
        ∃ value, (key, value) ∈ entries ∧
          p (key, value) = true} =
        ((keys (entries.filter p)).toFinset : Set α) := by
    ext key
    simp [keys]
  rw [hKeys, Set.ncard_coe_finset,
    List.toFinset_card_of_nodup hPassing, keys,
    List.length_map, List.countP_eq_length_filter]

end Association

namespace ResultRegistry

variable {r : ResultRegistry}
variable {c : RegistryCall}
variable {calls : List RegistryCall}
variable {key : Int64}
variable {attempt : Attempt}
variable {result : GetResult}

------------------------------------------------------------
-- Issued Keys
------------------------------------------------------------

/- As many keys are issued as results are kept. -/
theorem length_issues :
    (r.issues calls).length =
      (calls.filterMap RegistryCall.saved?).length := by
  induction calls generalizing r with
  | nil => rfl
  | cons c rest ih =>
      rw [issues, List.length_append, ih, List.filterMap_cons]
      cases c.saved? with
      | none => exact Nat.zero_add _
      | some result? => exact Nat.add_comm _ _

/- Numbers in the range of keys keep their order as keys. -/
theorem ofNat_lt_ofNat
    {m n : Nat}
    (hLess : m < n)
    (hBound : n < 2 ^ 63) :
    Int64.ofNat m < Int64.ofNat n := by
  have hSmaller : m < 2 ^ 63 := by omega
  rw [Int64.lt_iff_toInt_lt,
    Int64.toInt_ofNat_of_lt hSmaller,
    Int64.toInt_ofNat_of_lt hBound]
  exact Int.ofNat_lt.mpr hLess

/- Issued keys are positive. -/
theorem pos_of_mem_keys_issues
    (hFew : (issues {} calls).length < 2 ^ 63)
    (hMem : key ∈ Association.keys (issues {} calls)) :
    0 < key := by
  rw [keys_issues (n := 1) rfl] at hMem
  rcases List.mem_map.mp hMem with ⟨n, hRange, hKey⟩
  rw [List.mem_range'_1] at hRange
  have hBound : n < 2 ^ 63 := by omega
  rw [← hKey]
  exact ofNat_lt_ofNat (m := 0) hRange.1 hBound

/- Keys are issued in increasing order. -/
theorem pairwise_keys_issues
    (hFew : (issues {} calls).length < 2 ^ 63) :
    (Association.keys (issues {} calls)).Pairwise (· < ·) := by
  rw [keys_issues (n := 1) rfl, List.pairwise_map]
  apply List.Pairwise.imp_of_mem _ List.pairwise_lt_range'
  intro m n hFirst hSecond hLess
  rw [List.mem_range'_1] at hSecond
  have hBound : n < 2 ^ 63 := by omega
  exact ofNat_lt_ofNat hLess hBound

/- No two entries share a key. -/
theorem nodup_keys_callAll
    (hFew : (issues {} calls).length < 2 ^ 63) :
    (Association.keys (callAll {} calls).entries).Nodup := by
  have hIssued :
      (Association.keys (issues {} calls)).Nodup := by
    apply (pairwise_keys_issues hFew).imp
    intro first second hLess hSame
    subst hSame
    exact Int64.lt_irrefl hLess
  apply List.Nodup.sublist _ hIssued
  exact entries_callAll_sublist.map Prod.fst

/- Under distinct keys, what is there is found. -/
theorem find?_eq_some_iff
    (hNodup : (Association.keys r.entries).Nodup) :
    r.find? key = some result ↔
      (key, some result) ∈ r.entries := by
  rw [← Association.lookup?_eq_some_iff hNodup]
  exact Option.join_eq_some_iff

/- The key that is issued next is not taken. -/
theorem nextKey_untaken
    (hFew : (issues {} calls).length + 1 < 2 ^ 63) :
    Association.lookup? (callAll {} calls).nextKey
      (callAll {} calls).entries = none :=
  lookup?_eq_none_of_not_issued (nextKey_fresh hFew).2

------------------------------------------------------------
-- Live Results
------------------------------------------------------------

/-
  A call of the log kept the result and was given the key,
  and no later call dropped the key or the attempt.
-/
def Live
    (calls : List RegistryCall)
    (key : Int64)
    (result : GetResult) : Prop :=
  ∃ earlier later,
    calls = earlier ++ .save (some result) :: later ∧
      ((callAll {} earlier).save (some result)).1 = key ∧
      ∀ c ∈ later, c.Spares key result.attempt

/- Nothing is live in the empty log. -/
theorem not_live_nil : ¬ Live [] key result := by
  rintro ⟨earlier, later, hCalls, -⟩
  exact absurd hCalls.symm (by simp)

/-
  After one more call, a result is live that was so before
  and is spared, or that the call keeps.
-/
theorem live_append_iff :
    Live (calls ++ [c]) key result ↔
      (Live calls key result ∧ c.Spares key result.attempt) ∨
        (c = .save (some result) ∧
          (callAll {} calls).nextKey = key) := by
  constructor
  · rintro ⟨earlier, later, hCalls, hKey, hSpares⟩
    rcases List.eq_nil_or_concat later with
      hNone | ⟨before, last, hLater⟩
    · subst hNone
      rcases List.append_inj' hCalls rfl with ⟨hEarlier, hLast⟩
      subst hEarlier
      exact .inr ⟨(List.cons.inj hLast).1, hKey⟩
    · rw [List.concat_eq_append] at hLater
      subst hLater
      rw [← List.cons_append, ← List.append_assoc] at hCalls
      rcases List.append_inj' hCalls rfl with ⟨hBefore, hLast⟩
      have hCall : c = last := (List.cons.inj hLast).1
      subst hCall
      rw [List.forall_mem_append] at hSpares
      refine .inl ⟨⟨earlier, before, hBefore, hKey, hSpares.1⟩, ?_⟩
      exact hSpares.2 c List.mem_cons_self
  · rintro (⟨⟨earlier, later, hCalls, hKey, hSpares⟩, hLast⟩ |
      ⟨hCall, hKey⟩)
    · subst hCalls
      refine ⟨earlier, later ++ [c], ?_, hKey, ?_⟩
      · rw [List.append_assoc, List.cons_append]
      · rw [List.forall_mem_append, List.forall_mem_singleton]
        exact ⟨hSpares, hLast⟩
    · subst hCall
      refine ⟨calls, [], rfl, hKey, ?_⟩
      intro other hOther
      exact absurd hOther List.not_mem_nil

/-
  What a registry finds after a call was found before and is
  spared, or is kept by the call: the step of the view.
-/
theorem find?_call_iff
    (hNodup : (Association.keys r.entries).Nodup)
    (hUntaken :
      c.saved? ≠ none →
        Association.lookup? r.nextKey r.entries = none) :
    (r.call c).find? key = some result ↔
      (r.find? key = some result ∧
          c.Spares key result.attempt) ∨
        (c = .save (some result) ∧ r.nextKey = key) := by
  constructor
  · intro hFind
    have hEntry := mem_entries_of_find? hFind
    cases c with
    | save result? =>
        have hNone := hUntaken (Option.some_ne_none _)
        change _ ∈ (r.save result?).2.entries at hEntry
        rw [entries_save hNone, List.mem_append,
          List.mem_singleton] at hEntry
        rcases hEntry with hOld | hNew
        · refine .inl ⟨?_, trivial⟩
          exact (find?_eq_some_iff hNodup).mpr hOld
        · rcases Prod.mk.inj hNew with ⟨hKey, hResult⟩
          rw [← hResult]
          exact .inr ⟨rfl, hKey.symm⟩
    | erase dropped =>
        change _ ∈ Association.erase dropped r.entries at hEntry
        have hOld :=
          (Association.erase_sublist dropped r.entries).subset
            hEntry
        refine .inl ⟨?_, ?_⟩
        · exact (find?_eq_some_iff hNodup).mpr hOld
        · intro hSame
          subst hSame
          have hGone :=
            Association.lookup?_erase hNodup dropped dropped
          rw [if_pos rfl, Association.lookup?_eq_none_iff]
            at hGone
          exact hGone (List.mem_map_of_mem hEntry)
    | eraseOfAttempt attempt =>
        have hSpared := attempt_ne_of_mem_eraseOfAttempt hEntry
        have hOld := (List.mem_filter.mp hEntry).1
        refine .inl ⟨?_, hSpared.symm⟩
        exact (find?_eq_some_iff hNodup).mpr hOld
  · rintro (⟨hFind, hSpares⟩ | ⟨hCall, hKey⟩)
    · exact find?_call hFind hSpares
    · subst hCall hKey
      exact find?_save (hUntaken (Option.some_ne_none _))

/- After any log with few results, exactly the live ones are found. -/
theorem find?_callAll_iff
    (hFew : (issues {} calls).length < 2 ^ 63) :
    (callAll {} calls).find? key = some result ↔
      Live calls key result := by
  induction calls using List.reverseRecOn with
  | nil =>
      constructor
      · intro hFind
        exact absurd hFind (Option.some_ne_none _).symm
      · intro hLive
        exact absurd hLive not_live_nil
  | append_singleton calls c ih =>
      rw [issues_append, List.length_append] at hFew
      have hBefore : (issues {} calls).length < 2 ^ 63 := by
        omega
      rw [live_append_iff, callAll_append, ← ih hBefore]
      apply find?_call_iff (nodup_keys_callAll hBefore)
      intro hSaves
      apply nextKey_untaken
      rcases Option.ne_none_iff_exists'.mp hSaves with
        ⟨result?, hSaved⟩
      have hOne :
          (issues (callAll {} calls) [c]).length = 1 := by
        rw [issues, hSaved]
        rfl
      omega

/- No entry is empty when no empty result was kept. -/
theorem exists_of_mem_entries_callAll
    (hResults : .save none ∉ calls)
    {result? : Option GetResult}
    (hMem : (key, result?) ∈ (callAll {} calls).entries) :
    ∃ result, result? = some result := by
  cases result? with
  | some result => exact ⟨result, rfl⟩
  | none =>
      rcases mem_entries_callAll hMem with hOld | hIssued
      · exact absurd hOld List.not_mem_nil
      · rcases saved_of_mem_issues hIssued with
          ⟨c, hCall, hSaved⟩
        cases c with
        | save result? =>
            rw [Option.some.inj hSaved] at hCall
            exact absurd hCall hResults
        | erase key => exact nomatch hSaved
        | eraseOfAttempt attempt => exact nomatch hSaved

/- The entries with a property are the live results with it. -/
theorem countP_entries_callAll
    (hResults : .save none ∉ calls)
    (hFew : (issues {} calls).length < 2 ^ 63)
    (p : Int64 × Option GetResult → Bool) :
    (callAll {} calls).entries.countP p =
      {key | ∃ result, Live calls key result ∧
        p (key, some result) = true}.ncard := by
  have hNodup := nodup_keys_callAll hFew
  rw [Association.countP_eq_ncard_keys hNodup]
  congr 1
  ext key
  constructor
  · rintro ⟨result?, hMem, hPasses⟩
    rcases exists_of_mem_entries_callAll hResults hMem with
      ⟨result, hResult⟩
    subst hResult
    refine ⟨result, (find?_callAll_iff hFew).mp ?_, hPasses⟩
    exact (find?_eq_some_iff hNodup).mpr hMem
  · rintro ⟨result, hLive, hPasses⟩
    refine ⟨some result, ?_, hPasses⟩
    rw [← find?_eq_some_iff hNodup]
    exact (find?_callAll_iff hFew).mpr hLive

------------------------------------------------------------
-- The Registry and Its Log
------------------------------------------------------------

/-
  A registry shows its log and nothing else. Keys are issued
  in increasing order from the positive numbers, each one
  once. What is found under a key is the result that is live
  there, the size is the number of live keys, dropping a key
  tells whether it was live, and dropping an attempt counts
  its live results and keeps exactly the others.
-/
theorem refines_log
    (calls : List RegistryCall)
    (hResults : .save none ∉ calls)
    (hFew :
      (calls.filterMap RegistryCall.saved?).length < 2 ^ 63) :
    (∀ key ∈ Association.keys (issues {} calls), 0 < key) ∧
      (Association.keys (issues {} calls)).Pairwise (· < ·) ∧
      (∀ key result,
        (callAll {} calls).find? key = some result ↔
          Live calls key result) ∧
      (callAll {} calls).size =
        {key | ∃ result, Live calls key result}.ncard ∧
      (∀ key,
        ((callAll {} calls).erase key).1 = true ↔
          ∃ result, Live calls key result) ∧
      (∀ attempt,
        ((callAll {} calls).eraseOfAttempt attempt).1 =
            {key | ∃ result, Live calls key result ∧
              result.attempt = attempt}.ncard ∧
          ∀ key result,
            ((callAll {} calls).eraseOfAttempt attempt).2.find?
                key = some result ↔
              Live calls key result ∧
                result.attempt ≠ attempt) := by
  rw [← length_issues (r := {})] at hFew
  have hNodup := nodup_keys_callAll hFew
  refine ⟨?_, pairwise_keys_issues hFew, ?_, ?_, ?_, ?_⟩
  · intro key hMem
    exact pos_of_mem_keys_issues hFew hMem
  · intro key result
    exact find?_callAll_iff hFew
  · have hCount :=
      countP_entries_callAll hResults hFew fun _ => true
    simpa [size] using hCount
  · intro key
    constructor
    · intro hErased
      rcases Option.isSome_iff_exists.mp hErased with
        ⟨result?, hLookup⟩
      rcases exists_of_mem_entries_callAll hResults
          (Association.mem_of_lookup? hLookup) with
        ⟨result, hResult⟩
      subst hResult
      refine ⟨result, (find?_callAll_iff hFew).mp ?_⟩
      exact Option.join_eq_some_iff.mpr hLookup
    · rintro ⟨result, hLive⟩
      have hFind := (find?_callAll_iff hFew).mpr hLive
      apply Option.isSome_iff_exists.mpr
      exact ⟨_, Option.join_eq_some_iff.mp hFind⟩
  · intro attempt
    constructor
    · have hCount :=
        countP_entries_callAll hResults hFew
          (isOfAttempt attempt)
      simpa [eraseOfAttempt, isOfAttempt] using hCount
    · intro key result
      have hStep :
          ((callAll {} calls).call (.eraseOfAttempt attempt)).find?
              key = some result ↔ _ :=
        find?_call_iff hNodup fun hSaves => absurd rfl hSaves
      rw [find?_callAll_iff hFew] at hStep
      simpa [RegistryCall.Spares, call, eq_comm] using hStep

end ResultRegistry

/- A result that an attempt left behind for a document. -/
def Sample.leftBy
    (attempt id : String) : GetResult where
  id := Text.lit id
  cas := 7
  scope := Text.lit "_default"
  collection := Text.lit "_default"
  attempt := Text.lit attempt
  content := Text.lit "\x7b\x7d"

/-
  Two attempts leave results behind; one result is dropped by
  its key, one attempt is dropped and then leaves another one.
-/
def Sample.visits : List RegistryCall :=
  [.save (some (leftBy "T1" "p1")),
    .save (some (leftBy "T2" "p2")),
    .save (some (leftBy "T1" "p2")),
    .erase 1,
    .eraseOfAttempt (Text.lit "T2"),
    .save (some (leftBy "T2" "p3"))]

namespace ResultRegistry

/- Of four results, the third and the fourth are live in the end. -/
theorem refines_log_of_visits :
    (RegistryCall.save none ∉ Sample.visits ∧
        (Sample.visits.filterMap RegistryCall.saved?).length <
          2 ^ 63) ∧
      Association.keys (issues {} Sample.visits) =
        [1, 2, 3, 4] ∧
      Live Sample.visits 3 (Sample.leftBy "T1" "p2") ∧
      Live Sample.visits 4 (Sample.leftBy "T2" "p3") ∧
      (¬ ∃ result, Live Sample.visits 1 result) ∧
      (¬ ∃ result, Live Sample.visits 2 result) ∧
      {key | ∃ result, Live Sample.visits key result}.ncard =
        2 ∧
      {key | ∃ result, Live Sample.visits key result ∧
        result.attempt = Text.lit "T2"}.ncard = 1 := by
  have hResults : RegistryCall.save none ∉ Sample.visits := by
    decide
  have hFew :
      (Sample.visits.filterMap RegistryCall.saved?).length <
        2 ^ 63 := by
    decide
  rcases refines_log Sample.visits hResults hFew with
    ⟨-, -, hFind, hSize, hErase, hAttempt⟩
  refine ⟨⟨hResults, hFew⟩, by decide, ?_, ?_, ?_, ?_, ?_, ?_⟩
  · exact (hFind 3 _).mp (by decide)
  · exact (hFind 4 _).mp (by decide)
  · rw [← hErase 1]
    decide
  · rw [← hErase 2]
    decide
  · rw [← hSize]
    decide
  · rw [← (hAttempt _).1]
    decide

end ResultRegistry

end DocumentMapper
