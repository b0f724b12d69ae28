/-
  Association lists in insertion order.

  A list of pairs is read as a finite map whose keys keep the
  order in which they were first bound. Binding a key again
  keeps its place; removing it forgets the place.

  Key definitions include:
    * `Association.lookup?`
    * `Association.assign`
    * `Association.erase`
    * `Association.merge`

  Main statements include:
    * `Association.lookup?_assign`
    * `Association.keys_assign`
    * `Association.nodup_assign`
    * `Association.lookup?_erase`
-/

namespace DocumentMapper

namespace Association

variable {α β : Type}
variable [DecidableEq α]

------------------------------------------------------------
-- Operations
------------------------------------------------------------

/- The keys, in order. -/
def keys
    (entries : List (α × β)) : List α :=
  entries.map Prod.fst

/- The value of the first entry with a key. -/
def lookup?
    (key : α)
    (entries : List (α × β)) : Option β :=
  match entries with
  | [] => none
  | (k, v) :: rest =>
      if k = key then some v else lookup? key rest

/- Bind a key: a bound key keeps its place, a new one goes to the end. -/
def assign
    (key : α)
    (value : β)
    (entries : List (α × β)) : List (α × β) :=
  match entries with
  | [] => [(key, value)]
  | (k, v) :: rest =>
      if k = key then
        (k, value) :: rest
      else
        (k, v) :: assign key value rest

/- Drop the first entry with a key. -/
def erase
    (key : α)
    (entries : List (α × β)) : List (α × β) :=
  match entries with
  | [] => []
  | (k, v) :: rest =>
      if k = key then rest else (k, v) :: erase key rest

/- Bind the entries of a second list one after the other. -/
def merge
    (entries updates : List (α × β)) : List (α × β) :=
  updates.foldl (fun acc (k, v) => assign k v acc) entries

------------------------------------------------------------
-- Laws of Binding
------------------------------------------------------------

/- A key is bound exactly when it is among the keys. -/
theorem lookup?_eq_none_iff
    {key : α}
    {entries : List (α × β)} :
    lookup? key entries = none ↔ key ∉ keys entries := by
  induction entries with
  | nil => simp [lookup?, keys]
  | cons entry rest ih =>
      obtain ⟨k, v⟩ := entry
      by_cases h : k = key
      · simp [lookup?, keys, h]
      · simpa [lookup?, keys, h, Ne.symm h] using ih

/- Binding a key answers for that key and leaves the others alone. -/
theorem lookup?_assign
    (key other : α)
    (value : β)
    (entries : List (α × β)) :
    lookup? other (assign key value entries) =
      if key = other then
        some value
      else
        lookup? other entries := by
  induction entries with
  | nil => simp [assign, lookup?]
  | cons entry rest ih =>
      obtain ⟨k, v⟩ := entry
      by_cases h : k = key
      · subst h
        by_cases hOther : k = other <;>
          simp [assign, lookup?, hOther]
      · by_cases hOther : k = other
        · subst hOther
          simp [assign, lookup?, h, Ne.symm h]
        · simp [assign, lookup?, h, hOther, ih]

/- Binding keeps the order of the keys; a new key comes last. -/
theorem keys_assign
    (key : α)
    (value : β)
    (entries : List (α × β)) :
    keys (assign key value entries) =
      if key ∈ keys entries then
        keys entries
      else
        keys entries ++ [key] := by
  induction entries with
  | nil => simp [assign, keys]
  | cons entry rest ih =>
      obtain ⟨k, v⟩ := entry
      by_cases h : k = key
      · simp [assign, keys, h]
      · simp only [keys] at ih
        by_cases hMem : key ∈ rest.map Prod.fst <;>
          simp [assign, h, keys, ih, Ne.symm h, hMem]

/- Binding keeps the keys distinct. -/
theorem nodup_assign
    {key : α}
    {value : β}
    {entries : List (α × β)}
    (h : (keys entries).Nodup) :
    (keys (assign key value entries)).Nodup := by
  rw [keys_assign]
  split
  · exact h
  · rename_i hNew
    rw [List.nodup_append]
    refine ⟨h, by simp, ?_⟩
    intro a ha b hb
    rw [List.mem_singleton] at hb
    subst hb
    exact fun hEq => hNew (hEq ▸ ha)

/- Merging keeps the keys distinct. -/
theorem nodup_merge
    {entries : List (α × β)}
    (updates : List (α × β))
    (h : (keys entries).Nodup) :
    (keys (merge entries updates)).Nodup := by
  induction updates generalizing entries with
  | nil => exact h
  | cons update rest ih => exact ih (nodup_assign h)

------------------------------------------------------------
-- Laws of Removal
------------------------------------------------------------

/- Removing a key removes its first occurrence among the keys. -/
theorem keys_erase
    (key : α)
    (entries : List (α × β)) :
    keys (erase key entries) = (keys entries).erase key := by
  induction entries with
  | nil => simp [erase, keys]
  | cons entry rest ih =>
      obtain ⟨k, v⟩ := entry
      by_cases h : k = key
      · simp [erase, keys, h]
      · simp only [keys] at ih
        simp [erase, keys, h, ih]

/- Removing keeps the keys distinct. -/
theorem nodup_erase
    {key : α}
    {entries : List (α × β)}
    (h : (keys entries).Nodup) :
    (keys (erase key entries)).Nodup := by
  rw [keys_erase]
  exact h.erase key

/- Where keys are distinct, removing one unbinds it and no other. -/
theorem lookup?_erase
    {entries : List (α × β)}
    (h : (keys entries).Nodup)
    (key other : α) :
    lookup? other (erase key entries) =
      if key = other then none else lookup? other entries := by
  induction entries with
  | nil => simp [erase, lookup?]
  | cons entry rest ih =>
      obtain ⟨k, v⟩ := entry
      rw [keys, List.map_cons, List.nodup_cons] at h
      by_cases hKey : k = key
      · subst hKey
        by_cases hOther : k = other
        · subst hOther
          simpa [erase] using lookup?_eq_none_iff.mpr h.1
        · simp [erase, lookup?, hOther]
      · by_cases hOther : k = other
        · subst hOther
          simp [erase, lookup?, hKey, Ne.symm hKey]
        · simp [erase, lookup?, hKey, hOther, ih h.2]

end Association

end DocumentMapper
