import DocumentMapper.Proofs.Json.RoundTrip

/-
  What values are read from texts.

  Whatever text it is, a value that is read can be written
  again: its strings are UTF-8, its fractions are finite, and
  the keys of its objects are distinct.

  Key definitions include:
    * `Json.Writable`

  Main statements include:
    * `Json.Writable.ofMembers`
    * `Json.readsWritable`
    * `Json.writable_of_parse?`
    * `Json.Writable.parse?_print?`
-/

namespace DocumentMapper

namespace Json

------------------------------------------------------------
-- Values That Can Be Written
------------------------------------------------------------

/- A value has a text, and survives in it. -/
structure Writable (j : Json) : Prop where
  printable : j.printable = true
  storable : j.Storable

/- Items can be printed one by one. -/
theorem itemsPrintable_iff
    {items : List Json} :
    itemsPrintable items = true ↔
      ∀ item ∈ items, item.printable = true := by
  induction items with
  | nil => simp [itemsPrintable]
  | cons item rest ih =>
      rw [itemsPrintable, Bool.and_eq_true, ih,
        List.forall_mem_cons]

/- Members can be printed one by one, with their keys. -/
theorem membersPrintable_iff
    {members : List (Text × Json)} :
    membersPrintable members = true ↔
      ∀ m ∈ members,
        m.1.isUtf8 = true ∧ m.2.printable = true := by
  induction members with
  | nil => simp [membersPrintable]
  | cons member rest ih =>
      rcases member with ⟨key, value⟩
      rw [membersPrintable, Bool.and_eq_true, Bool.and_eq_true, ih,
        List.forall_mem_cons]

/- An array of such values is one. -/
theorem Writable.array
    {items : List Json}
    (h : ∀ item ∈ items, item.Writable) :
    (Json.array items).Writable where
  printable := by
    rw [Json.printable]
    exact itemsPrintable_iff.mpr fun item hMem =>
      (h item hMem).printable
  storable :=
    storable_array_iff.mpr fun item hMem => (h item hMem).storable

/- So is the object that such members are bound to. -/
theorem Writable.ofMembers
    {members : List (Text × Json)}
    (h : ∀ m ∈ members, m.1.isUtf8 = true ∧ m.2.Writable) :
    (Json.ofMembers members).Writable := by
  have hBound :
      ∀ m ∈ Association.merge [] members,
        m.1.isUtf8 = true ∧ m.2.Writable := by
    intro m hMem
    rcases Association.mem_merge hMem with hNone | hMember
    · exact absurd hNone List.not_mem_nil
    · exact h m hMember
  refine ⟨?_, ?_⟩
  · rw [Json.ofMembers, Json.printable]
    apply membersPrintable_iff.mpr
    intro m hMem
    exact ⟨(hBound m hMem).1, (hBound m hMem).2.printable⟩
  · apply storable_object_iff.mpr
    refine ⟨Association.nodup_merge members List.nodup_nil, ?_⟩
    exact fun m hMem => (hBound m hMem).2.storable

/- The members of such an object have UTF-8 keys and such values. -/
theorem Writable.of_object
    {members : List (Text × Json)}
    (h : (Json.object members).Writable) :
    ∀ m ∈ members, m.1.isUtf8 = true ∧ m.2.Writable := by
  have hPrintable := h.printable
  rw [Json.printable, membersPrintable_iff] at hPrintable
  have hStorable := (storable_object_iff.mp h.storable).2
  intro m hMem
  exact
    ⟨(hPrintable m hMem).1, (hPrintable m hMem).2,
      hStorable m hMem⟩

/- Such a value is printed, and its text is read as its normal form. -/
theorem Writable.parse?_print?
    {j : Json}
    (h : j.Writable) :
    ∃ text,
      j.print? = some text ∧ parse? text = some j.normal := by
  refine ⟨j.render, ?_, parse?_render h.printable h.storable⟩
  rw [print?, if_pos h.printable]

------------------------------------------------------------
-- Leaves
------------------------------------------------------------

/- A string that is read is UTF-8. -/
theorem isUtf8_of_readString?
    {s chars rest : Text}
    (h : readString? s = some (chars, rest)) :
    chars.isUtf8 = true := by
  rcases Option.bind_eq_some_iff.mp h with ⟨⟨given, _⟩, -, hGiven⟩
  dsimp only at hGiven
  split at hGiven
  · rename_i hUtf8
    cases hGiven
    exact hUtf8
  · cases hGiven

/- A number that is read is finite. -/
theorem writable_of_toJson?
    {n : Numeral}
    {value : Json}
    (h : n.toJson? = some value) :
    value.Writable := by
  unfold Numeral.toJson? at h
  dsimp only at h
  split at h
  · cases h
    exact ⟨rfl, trivial, trivial⟩
  · split at h
    · cases h
      exact ⟨rfl, trivial, trivial⟩
    · split at h
      · rename_i hFinite
        cases h
        exact ⟨rfl, hFinite, trivial⟩
      · cases h

------------------------------------------------------------
-- Values, Items and Members
------------------------------------------------------------

/-
  Readers with that much fuel read such values only. Each of
  them calls the others with less fuel.
-/
structure ReadsWritable (fuel : Nat) : Prop where
  value :
    ∀ {s rest : Text} {value : Json},
      readValue? fuel s = some (value, rest) → value.Writable
  items :
    ∀ {s rest : Text} {items : List Json},
      readItems? fuel s = some (items, rest) →
        ∀ item ∈ items, item.Writable
  members :
    ∀ {s rest : Text} {members : List (Text × Json)},
      readMembers? fuel s = some (members, rest) →
        ∀ m ∈ members, m.1.isUtf8 = true ∧ m.2.Writable

variable {fuel : Nat}
variable {s rest : Text}

/- A value is a leaf, or an array or object of what is read in it. -/
theorem ReadsWritable.readValue?
    {value : Json}
    (hLess : ReadsWritable fuel)
    (h : Json.readValue? (fuel + 1) s = some (value, rest)) :
    value.Writable := by
  rw [readValue?.eq_def] at h
  dsimp only at h
  split at h
  · rcases Option.bind_eq_some_iff.mp h with
      ⟨⟨chars, _⟩, hChars, hString⟩
    cases hString
    exact ⟨isUtf8_of_readString? hChars, trivial, trivial⟩
  · split at h
    · cases h
      exact .array (List.forall_mem_nil _)
    · rcases Option.bind_eq_some_iff.mp h with
        ⟨⟨items, _⟩, hItems, hArray⟩
      cases hArray
      exact .array (hLess.items hItems)
  · split at h
    · cases h
      have hEmpty : (Json.ofMembers []).Writable :=
        .ofMembers (List.forall_mem_nil _)
      exact hEmpty
    · rcases Option.bind_eq_some_iff.mp h with
        ⟨⟨members, _⟩, hMembers, hObject⟩
      cases hObject
      exact .ofMembers (hLess.members hMembers)
  · split at h
    · cases h
      exact ⟨rfl, trivial, trivial⟩
    · split at h
      · cases h
        exact ⟨rfl, trivial, trivial⟩
      · split at h
        · cases h
          exact ⟨rfl, trivial, trivial⟩
        · rcases Option.bind_eq_some_iff.mp h with
            ⟨⟨numeral, _⟩, -, hRest⟩
          rcases Option.bind_eq_some_iff.mp hRest with
            ⟨number, hNumber, hValue⟩
          cases hValue
          exact writable_of_toJson? hNumber

/- Items are a first one and those behind its comma. -/
theorem ReadsWritable.readItems?
    {items : List Json}
    (hLess : ReadsWritable fuel)
    (h : Json.readItems? (fuel + 1) s = some (items, rest)) :
    ∀ item ∈ items, item.Writable := by
  rw [Json.readItems?] at h
  rcases Option.bind_eq_some_iff.mp h with
    ⟨⟨item, _⟩, hItem, hRest⟩
  have hFirst := hLess.value hItem
  dsimp only at hRest
  split at hRest
  · cases hRest
    exact List.forall_mem_singleton.mpr hFirst
  · rcases Option.bind_eq_some_iff.mp hRest with
      ⟨⟨others, _⟩, hOthers, hItems⟩
    cases hItems
    exact List.forall_mem_cons.mpr ⟨hFirst, hLess.items hOthers⟩
  · cases hRest

/- Members are a first one and those behind its comma. -/
theorem ReadsWritable.readMembers?
    {members : List (Text × Json)}
    (hLess : ReadsWritable fuel)
    (h : Json.readMembers? (fuel + 1) s = some (members, rest)) :
    ∀ m ∈ members, m.1.isUtf8 = true ∧ m.2.Writable := by
  rw [Json.readMembers?] at h
  split at h
  · rcases Option.bind_eq_some_iff.mp h with
      ⟨⟨key, _⟩, hKey, hColon⟩
    have hUtf8 := isUtf8_of_readString? hKey
    dsimp only at hColon
    split at hColon
    · rcases Option.bind_eq_some_iff.mp hColon with
        ⟨⟨value, _⟩, hValue, hRest⟩
      have hFirst := And.intro hUtf8 (hLess.value hValue)
      dsimp only at hRest
      split at hRest
      · cases hRest
        exact List.forall_mem_singleton.mpr hFirst
      · rcases Option.bind_eq_some_iff.mp hRest with
          ⟨⟨others, _⟩, hOthers, hMembers⟩
        cases hMembers
        exact
          List.forall_mem_cons.mpr ⟨hFirst, hLess.members hOthers⟩
      · cases hRest
    · cases hColon
  · cases h

/- Every reader reads such values only. -/
theorem readsWritable
    (fuel : Nat) :
    ReadsWritable fuel := by
  induction fuel with
  | zero =>
      refine ⟨?_, ?_, ?_⟩ <;> intro s rest _ h
      · rw [readValue?] at h
        cases h
      · rw [readItems?] at h
        cases h
      · rw [readMembers?] at h
        cases h
  | succ fuel ih =>
      exact ⟨ih.readValue?, ih.readItems?, ih.readMembers?⟩

/- What a whole text is read as can be written again. -/
theorem writable_of_parse?
    {value : Json}
    (h : parse? s = some value) :
    value.Writable := by
  unfold parse? at h
  split at h
  · rename_i given rest hRead
    split at h
    · cases h
      exact (readsWritable _).value hRead
    · cases h
  · cases h

end Json

end DocumentMapper
