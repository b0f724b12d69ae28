import DocumentMapper.Text.Basic

/-
  Maps from texts, with their entries in byte order.

  Entries stand in ascending order of their keys, so that
  equal maps have equal entries.

  Key definitions include:
    * `TextMap`
    * `TextMap.insert`, `TextMap.erase`
    * `TextMap.get?`
    * `TextMap.ofList`

  Main statements include:
    * `TextMap.get?_insert`
    * `TextMap.get?_erase`
-/

namespace DocumentMapper

/- A map from texts; the keys ascend. -/
structure TextMap (α : Type) where
  entries : List (Text × α)
  sorted : entries.Pairwise fun a b => a.1 < b.1

namespace TextMap

variable {α β : Type}

------------------------------------------------------------
-- Operations
------------------------------------------------------------

/- The map without entries. -/
def empty : TextMap α :=
  ⟨[], .nil⟩

instance : Inhabited (TextMap α) :=
  ⟨empty⟩

/- Put an entry at its place among ascending keys. -/
def insertEntry
    (key : Text)
    (value : α)
    (entries : List (Text × α)) : List (Text × α) :=
  match entries with
  | [] => [(key, value)]
  | (k, v) :: rest =>
      if key < k then
        (key, value) :: (k, v) :: rest
      else if key = k then
        (key, value) :: rest
      else
        (k, v) :: insertEntry key value rest

/- The keys after an insertion are the old ones and the new one. -/
theorem mem_insertEntry
    {key : Text}
    {value : α}
    {entries : List (Text × α)}
    {entry : Text × α}
    (h : entry ∈ insertEntry key value entries) :
    entry = (key, value) ∨ entry ∈ entries := by
  induction entries with
  | nil => simpa [insertEntry] using h
  | cons head rest ih =>
      obtain ⟨k, v⟩ := head
      rw [insertEntry] at h
      split at h
      · simpa using h
      · split at h
        · rcases List.mem_cons.mp h with rfl | h
          · exact .inl rfl
          · exact .inr (List.mem_cons_of_mem _ h)
        · rcases List.mem_cons.mp h with rfl | h
          · exact .inr List.mem_cons_self
          · exact (ih h).imp_right
              (List.mem_cons_of_mem _)

/- An insertion keeps the keys ascending. -/
theorem sorted_insertEntry
    {key : Text}
    {value : α}
    {entries : List (Text × α)}
    (h : entries.Pairwise fun a b => a.1 < b.1) :
    (insertEntry key value entries).Pairwise
      fun a b => a.1 < b.1 := by
  induction entries with
  | nil => simp [insertEntry]
  | cons head rest ih =>
      obtain ⟨k, v⟩ := head
      have hHead := (List.pairwise_cons.mp h).1
      have hRest := h.of_cons
      rw [insertEntry]
      split
      · rename_i hLess
        refine List.pairwise_cons.mpr ⟨?_, h⟩
        intro entry hEntry
        rcases List.mem_cons.mp hEntry with rfl | hEntry
        · exact hLess
        · exact List.lt_trans hLess (hHead _ hEntry)
      · split
        · rename_i hEq
          subst hEq
          exact List.pairwise_cons.mpr
            ⟨hHead, hRest⟩
        · rename_i hLess hEq
          refine List.pairwise_cons.mpr ⟨?_, ih hRest⟩
          intro entry hEntry
          rcases mem_insertEntry hEntry with rfl | hEntry
          · exact Std.lt_of_le_of_ne
              (Std.not_lt.mp hLess) (Ne.symm hEq)
          · exact hHead _ hEntry

/- Bind a key, in place of an older value. -/
def insert
    (m : TextMap α)
    (key : Text)
    (value : α) : TextMap α :=
  ⟨insertEntry key value m.entries,
    sorted_insertEntry m.sorted⟩

/- Drop the entry with a key. -/
def erase
    (m : TextMap α)
    (key : Text) : TextMap α :=
  ⟨m.entries.filter fun entry => entry.1 ≠ key,
    m.sorted.filter _⟩

/- The value of the first entry with a key. -/
def lookup?
    (key : Text)
    (entries : List (Text × α)) : Option α :=
  match entries with
  | [] => none
  | (k, v) :: rest =>
      if k = key then some v else lookup? key rest

/- The value under a key. -/
def get?
    (m : TextMap α)
    (key : Text) : Option α :=
  lookup? key m.entries

/- The map that results from binding entries one after the other. -/
def ofList
    (entries : List (Text × α)) : TextMap α :=
  entries.foldl (fun m (k, v) => m.insert k v) empty

------------------------------------------------------------
-- Laws
------------------------------------------------------------

/- A bound key answers with its value, the others as before. -/
theorem get?_insert
    (m : TextMap α)
    (key other : Text)
    (value : α) :
    (m.insert key value).get? other =
      if key = other then some value else m.get? other := by
  obtain ⟨entries, hSorted⟩ := m
  show lookup? other (insertEntry key value entries) =
    if key = other then
      some value
    else
      lookup? other entries
  clear hSorted
  induction entries with
  | nil => simp [insertEntry, lookup?]
  | cons head rest ih =>
      obtain ⟨k, v⟩ := head
      rw [insertEntry]
      split
      · simp [lookup?]
      · split
        · rename_i hEq
          subst hEq
          by_cases hOther : key = other <;>
            simp [lookup?, hOther]
        · rename_i hEq
          by_cases hOther : k = other
          · subst hOther
            simp [lookup?, hEq]
          · simp [lookup?, hOther, ih]

/- A dropped key has no value, the others answer as before. -/
theorem get?_erase
    (m : TextMap α)
    (key other : Text) :
    (m.erase key).get? other =
      if key = other then none else m.get? other := by
  obtain ⟨entries, hSorted⟩ := m
  show lookup? other (entries.filter _) =
    if key = other then none else lookup? other entries
  clear hSorted
  induction entries with
  | nil => simp [lookup?]
  | cons head rest ih =>
      obtain ⟨k, v⟩ := head
      by_cases hKey : k = key
      · subst hKey
        by_cases hOther : k = other
        · simpa [hOther] using ih
        · simpa [lookup?, hOther] using ih
      · by_cases hOther : k = other
        · subst hOther
          simp [lookup?, hKey, Ne.symm hKey]
        · simpa [lookup?, hKey, hOther] using ih

end TextMap

end DocumentMapper
