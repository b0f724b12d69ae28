import DocumentMapper.Association

/-
  Entries that are bound one after the other, and entries
  that stay.

  Main statements include:
    * `Association.mem_assign`, `Association.mem_merge`
    * `Association.merge_of_nodup`
    * `Association.mem_keys_merge_iff`
    * `Association.keys_merge`
    * `Association.lookup?_append`
    * `Association.lookup?_merge`
    * `Association.lookup?_eq_some_iff`
    * `Association.lookup?_erase_of_ne`
    * `Association.erase_sublist`
    * `Association.lookup?_filter`
    * `Association.merge_merge`, `Association.merge_again`
    * `Association.keys_merge_of_nodup`
-/

namespace DocumentMapper

namespace Association

variable {α β : Type}
variable [DecidableEq α]
variable {key : α}
variable {value : β}
variable {entries updates : List (α × β)}

/- Binding a key adds no entry but the new one. -/
theorem mem_assign
    {entry : α × β}
    (h : entry ∈ assign key value entries) :
    entry = (key, value) ∨ entry ∈ entries := by
  induction entries with
  | nil => simp_all [assign]
  | cons head rest ih =>
      rcases head with ⟨k, v⟩
      rw [assign] at h
      split at h
      · rename_i hKey
        rcases List.mem_cons.mp h with rfl | h
        · exact .inl (hKey ▸ rfl)
        · exact .inr (List.mem_cons_of_mem _ h)
      · rcases List.mem_cons.mp h with rfl | h
        · exact .inr List.mem_cons_self
        · exact (ih h).imp_right (List.mem_cons_of_mem _)

/- Merging adds no entries but the updates. -/
theorem mem_merge
    {entry : α × β}
    (h : entry ∈ merge entries updates) :
    entry ∈ entries ∨ entry ∈ updates := by
  induction updates generalizing entries with
  | nil => exact .inl h
  | cons update rest ih =>
      rcases ih h with hEntry | hRest
      · rcases mem_assign hEntry with rfl | hOld
        · exact .inr List.mem_cons_self
        · exact .inl hOld
      · exact .inr (List.mem_cons_of_mem _ hRest)

/- A new key is bound at the end. -/
theorem assign_of_not_mem
    (h : key ∉ keys entries) :
    assign key value entries = entries ++ [(key, value)] := by
  induction entries with
  | nil => rfl
  | cons head rest ih =>
      rcases head with ⟨k, v⟩
      simp only [keys, List.map_cons, List.mem_cons, not_or] at h
      rw [assign, if_neg (Ne.symm h.1), ih h.2]
      rfl

/- Entries under new, distinct keys are bound as they stand. -/
theorem merge_of_nodup
    (h : (keys (entries ++ updates)).Nodup) :
    merge entries updates = entries ++ updates := by
  induction updates generalizing entries with
  | nil => simp [merge]
  | cons update rest ih =>
      rcases update with ⟨key, value⟩
      have hNew : key ∉ keys entries := by
        intro hMem
        rw [keys, List.map_append, List.nodup_append] at h
        exact h.2.2 key hMem key (by simp) rfl
      show merge (assign key value entries) rest = _
      rw [assign_of_not_mem hNew, ih]
      · simp
      · simpa using h

/- Binding entries one after the other adds no keys but theirs. -/
theorem mem_keys_merge_iff :
    key ∈ keys (merge entries updates) ↔
      key ∈ keys entries ∨ key ∈ keys updates := by
  induction updates generalizing entries with
  | nil => simp [merge, keys]
  | cons update rest ih =>
      rcases update with ⟨k, v⟩
      show key ∈ keys (merge (assign k v entries) rest) ↔ _
      rw [ih, keys_assign]
      split
      · rename_i hOld
        constructor
        · rintro (hEntry | hRest)
          · exact .inl hEntry
          · exact .inr (List.mem_cons_of_mem _ hRest)
        · rintro (hEntry | hUpdate)
          · exact .inl hEntry
          · rcases List.mem_cons.mp hUpdate with hSame | hRest
            · rw [hSame]
              exact .inl hOld
            · exact .inr hRest
      · simp [keys, or_assoc]

omit [DecidableEq α] in
/- A list without repetition is its own list of distinct elements. -/
theorem eraseDups_of_nodup
    [BEq α]
    [LawfulBEq α]
    {names : List α}
    (h : names.Nodup) :
    names.eraseDups = names := by
  induction names with
  | nil => exact List.eraseDups_nil
  | cons name rest ih =>
      rw [List.nodup_cons] at h
      have hOthers : rest.filter (fun b => !b == name) = rest := by
        rw [List.filter_eq_self]
        intro other hMem
        have hNe : other ≠ name := fun hEq => h.1 (hEq ▸ hMem)
        simpa using hNe
      rw [List.eraseDups_cons, hOthers, ih h.2]

/-
  Binding a key comes to appending it to the keys, as far as
  the first place of each one is concerned.
-/
theorem eraseDups_keys_assign
    [BEq α]
    [LawfulBEq α]
    (names : List α) :
    (keys (assign key value entries) ++ names).eraseDups =
      (keys entries ++ key :: names).eraseDups := by
  rw [keys_assign]
  split
  · rename_i hOld
    rw [List.eraseDups_append, List.eraseDups_append,
      List.removeAll, List.removeAll, List.filter_cons_of_neg]
    simpa using hOld
  · rw [List.append_assoc]
    rfl

/-
  Entries that are bound one after the other have the keys of
  both lists, each at its first place.
-/
theorem keys_merge
    [BEq α]
    [LawfulBEq α]
    (h : (keys entries).Nodup) :
    keys (merge entries updates) =
      (keys entries ++ keys updates).eraseDups := by
  induction updates generalizing entries with
  | nil =>
      rw [show keys ([] : List (α × β)) = [] from rfl,
        List.append_nil, eraseDups_of_nodup h]
      rfl
  | cons update rest ih =>
      rcases update with ⟨k, v⟩
      show keys (merge (assign k v entries) rest) = _
      rw [ih (nodup_assign h), eraseDups_keys_assign]
      rfl

/- The entries of the first list answer first. -/
theorem lookup?_append :
    lookup? key (entries ++ updates) =
      (lookup? key entries).or (lookup? key updates) := by
  induction entries with
  | nil => rfl
  | cons head rest ih =>
      rcases head with ⟨k, v⟩
      by_cases hKey : k = key
      · simp [lookup?, hKey]
      · simpa [lookup?, hKey] using ih

/- Of the values that a key is bound to, the last one counts. -/
theorem lookup?_merge :
    lookup? key (merge entries updates) =
      (lookup? key updates.reverse).or (lookup? key entries) := by
  induction updates generalizing entries with
  | nil => rfl
  | cons update rest ih =>
      rcases update with ⟨k, v⟩
      show lookup? key (merge (assign k v entries) rest) = _
      rw [ih, lookup?_assign, List.reverse_cons, lookup?_append,
        Option.or_assoc]
      by_cases hKey : k = key <;> simp [lookup?, hKey]

/- What is found is an entry. -/
theorem mem_of_lookup?
    (h : lookup? key entries = some value) :
    (key, value) ∈ entries := by
  induction entries with
  | nil => cases h
  | cons head rest ih =>
      rcases head with ⟨k, v⟩
      rw [lookup?] at h
      split at h
      · rename_i hKey
        cases h
        rw [hKey]
        exact List.mem_cons_self
      · exact List.mem_cons_of_mem _ (ih h)

/- Under distinct keys every entry answers for its key. -/
theorem lookup?_eq_some_iff
    (hNodup : (keys entries).Nodup) :
    lookup? key entries = some value ↔
      (key, value) ∈ entries := by
  constructor
  · exact mem_of_lookup?
  · intro hMem
    induction entries with
    | nil => exact absurd hMem List.not_mem_nil
    | cons head rest ih =>
        rcases head with ⟨k, v⟩
        rw [keys, List.map_cons, List.nodup_cons] at hNodup
        by_cases hKey : k = key
        · subst hKey
          rcases List.mem_cons.mp hMem with hHead | hRest
          · rw [lookup?, if_pos rfl, (Prod.mk.inj hHead).2]
          · have hAgain := List.mem_map_of_mem (f := Prod.fst) hRest
            exact absurd hAgain hNodup.1
        · rw [lookup?, if_neg hKey]
          apply ih hNodup.2
          rcases List.mem_cons.mp hMem with hHead | hRest
          · exact absurd (Prod.mk.inj hHead).1.symm hKey
          · exact hRest

/- Removing a key leaves the others alone. -/
theorem lookup?_erase_of_ne
    {other : α}
    (h : other ≠ key) :
    lookup? key (erase other entries) = lookup? key entries := by
  induction entries with
  | nil => rfl
  | cons head rest ih =>
      rcases head with ⟨k, v⟩
      by_cases hOther : k = other
      · simp [erase, lookup?, hOther, h]
      · simp [erase, lookup?, hOther, ih]

/- Removing a key adds nothing and keeps the order. -/
theorem erase_sublist
    (key : α)
    (entries : List (α × β)) :
    (erase key entries).Sublist entries := by
  induction entries with
  | nil => exact List.Sublist.refl _
  | cons head rest ih =>
      rcases head with ⟨k, v⟩
      by_cases hKey : k = key
      · rw [erase, if_pos hKey]
        exact List.sublist_cons_self _ _
      · rw [erase, if_neg hKey]
        exact ih.cons_cons _

/- An entry that passes a filter still answers for its key. -/
theorem lookup?_filter
    {p : α × β → Bool}
    (h : lookup? key entries = some value)
    (hPasses : p (key, value) = true) :
    lookup? key (entries.filter p) = some value := by
  induction entries with
  | nil => cases h
  | cons head rest ih =>
      rcases head with ⟨k, v⟩
      rw [lookup?] at h
      split at h
      · rename_i hKey
        cases hKey
        cases h
        rw [List.filter_cons_of_pos hPasses, lookup?, if_pos rfl]
      · rename_i hKey
        rw [List.filter_cons]
        split
        · rw [lookup?, if_neg hKey]
          exact ih h
        · exact ih h

------------------------------------------------------------
-- Laws of Merging
------------------------------------------------------------

/- Of two values for one key the second one is kept. -/
theorem assign_assign
    (first second : β) :
    assign key second (assign key first entries) =
      assign key second entries := by
  induction entries with
  | nil => simp [assign]
  | cons head rest ih =>
      rcases head with ⟨k, v⟩
      by_cases hKey : k = key
      · simp [assign, hKey]
      · simp [assign, hKey, ih]

/- A key that is bound to its own value changes nothing. -/
theorem assign_of_lookup?
    (h : lookup? key entries = some value) :
    assign key value entries = entries := by
  induction entries with
  | nil => cases h
  | cons head rest ih =>
      rcases head with ⟨k, v⟩
      by_cases hKey : k = key
      · rw [lookup?, if_pos hKey] at h
        rw [assign, if_pos hKey, Option.some.inj h]
      · rw [lookup?, if_neg hKey] at h
        rw [assign, if_neg hKey, ih h]

/- A bound key may be bound before another one or after it. -/
theorem assign_comm_of_mem
    {other : α}
    {w : β}
    (hBound : key ∈ keys entries)
    (hNe : key ≠ other) :
    assign key value (assign other w entries) =
      assign other w (assign key value entries) := by
  induction entries with
  | nil => exact absurd hBound List.not_mem_nil
  | cons head rest ih =>
      rcases head with ⟨k, v⟩
      by_cases hKey : k = key
      · subst hKey
        simp [assign, hNe]
      · have hRest : key ∈ keys rest :=
          (List.mem_cons.mp hBound).resolve_left (Ne.symm hKey)
        by_cases hOther : k = other
        · simp [assign, hOther, Ne.symm hNe]
        · simp [assign, hKey, hOther, ih hRest]

/- A bound key may be bound before others or after them. -/
theorem assign_merge_of_not_mem
    (hBound : key ∈ keys entries)
    (hOthers : key ∉ keys updates) :
    assign key value (merge entries updates) =
      merge (assign key value entries) updates := by
  induction updates generalizing entries with
  | nil => rfl
  | cons update rest ih =>
      rcases update with ⟨k, v⟩
      simp only [keys, List.map_cons, List.mem_cons, not_or]
        at hOthers
      have hStill : key ∈ keys (assign k v entries) := by
        rw [keys_assign]
        split
        · exact hBound
        · exact List.mem_append_left _ hBound
      show assign key value (merge (assign k v entries) rest) = _
      rw [ih hStill hOthers.2, assign_comm_of_mem hBound hOthers.1]
      rfl

/- Binding a key among the updates is binding it after them. -/
theorem merge_assign
    (h : (keys updates).Nodup) :
    merge entries (assign key value updates) =
      assign key value (merge entries updates) := by
  induction updates generalizing entries with
  | nil => rfl
  | cons update rest ih =>
      rcases update with ⟨k, v⟩
      rw [keys, List.map_cons, List.nodup_cons] at h
      by_cases hKey : k = key
      -- the new value takes the place of the old one, so the keys
      -- behind it are bound first on one side, last on the other
      · subst hKey
        have hBound : k ∈ keys (assign k v entries) := by
          rw [keys_assign]
          split
          · assumption
          · simp
        rw [assign, if_pos rfl]
        show merge (assign k value entries) rest =
          assign k value (merge (assign k v entries) rest)
        rw [assign_merge_of_not_mem hBound h.1, assign_assign]
      · rw [assign, if_neg hKey]
        exact ih h.2

/- Merging merged updates is merging them one after the other. -/
theorem merge_merge
    (h : (keys updates).Nodup)
    (more : List (α × β)) :
    merge entries (merge updates more) =
      merge (merge entries updates) more := by
  induction more generalizing updates with
  | nil => rfl
  | cons update rest ih =>
      rcases update with ⟨k, v⟩
      show merge entries (merge (assign k v updates) rest) =
        merge (assign k v (merge entries updates)) rest
      rw [ih (nodup_assign h), merge_assign h]

/- Entries that are bound already change nothing. -/
theorem merge_of_bound
    (h :
      ∀ entry ∈ updates,
        lookup? entry.1 entries = some entry.2) :
    merge entries updates = entries := by
  induction updates with
  | nil => rfl
  | cons update rest ih =>
      rw [List.forall_mem_cons] at h
      show merge (assign update.1 update.2 entries) rest = entries
      rw [assign_of_lookup? h.1, ih h.2]

/- Under distinct keys there is no last value but the first. -/
theorem lookup?_reverse
    (h : (keys updates).Nodup) :
    lookup? key updates.reverse = lookup? key updates := by
  have hReverse : (keys updates.reverse).Nodup := by
    rw [keys, List.map_reverse]
    exact List.pairwise_reverse.mpr (List.Pairwise.imp Ne.symm h)
  apply Option.ext
  intro value
  rw [lookup?_eq_some_iff h, lookup?_eq_some_iff hReverse,
    List.mem_reverse]

/- Updates under distinct keys answer for their keys. -/
theorem lookup?_merge_of_nodup
    (h : (keys updates).Nodup) :
    lookup? key (merge entries updates) =
      (lookup? key updates).or (lookup? key entries) := by
  rw [lookup?_merge, lookup?_reverse h]

/- Updates that are merged once more change nothing. -/
theorem merge_again
    (h : (keys updates).Nodup) :
    merge (merge entries updates) updates =
      merge entries updates := by
  apply merge_of_bound
  intro entry hMem
  rw [lookup?_merge_of_nodup h, (lookup?_eq_some_iff h).mpr hMem,
    Option.some_or]

/- The keys of updates that are new come last, in their order. -/
theorem keys_merge_of_nodup
    [BEq α]
    [LawfulBEq α]
    (hEntries : (keys entries).Nodup)
    (hUpdates : (keys updates).Nodup) :
    keys (merge entries updates) =
      keys entries ++
        (keys updates).filter (!(keys entries).contains ·) := by
  have hNew :
      ((keys updates).filter
        (!(keys entries).contains ·)).Nodup :=
    hUpdates.filter _
  rw [keys_merge hEntries, List.eraseDups_append,
    eraseDups_of_nodup hEntries]
  exact congrArg _ (eraseDups_of_nodup hNew)

end Association

end DocumentMapper
