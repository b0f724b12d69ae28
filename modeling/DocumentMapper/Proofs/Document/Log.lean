import DocumentMapper.Document.Basic
import DocumentMapper.Proofs.Association
import Mathlib.Data.List.Induction
import Mathlib.Tactic.Tauto

/-
  A document as a view of the log of its calls.

  The log lists all calls of a document in the order in which
  they were made; a document that is built from an object
  begins with the puts of its members. A key is present when
  no removal came after its last put. Its value is the one
  that was put last, its place is that of the first put since
  it was last absent. All of this looks at the log only; the
  document has the present keys in the order of their places,
  with their values, and nothing else.

  Key definitions include:
    * `DocumentCall`, `DocumentCall.ofContent`
    * `Document.call`, `Document.callAll`
    * `DocumentLog.Absent`
    * `DocumentLog.LastPut`
    * `DocumentLog.PresentSince`, `DocumentLog.Before`
    * `DocumentLog.Mirrors`

  Main statements include:
    * `DocumentLog.absent_append_iff`
    * `DocumentLog.lastPut_append_iff`
    * `DocumentLog.presentSince_append_iff`
    * `DocumentLog.Mirrors.sublist_iff`
    * `DocumentLog.Mirrors.call`
    * `DocumentLog.mirrors_callAll`
    * `Json.equalMembers_iff`
    * `Document.equal_iff`
    * `Document.entries_ofContent`
    * `Document.reflects_log`
-/

namespace DocumentMapper

------------------------------------------------------------
-- Calls
------------------------------------------------------------

/- What is done to a document. -/
inductive DocumentCall where
  | put (key : Text) (value : Json)
  | remove (key : Text)
  | get (key : Text)
  | contains (key : Text)
  | setId (id : Text)
  | setExpiry (expiry : Int64)

namespace DocumentCall

/- The call puts the key or removes it. -/
def Touches
    (key : Text) : DocumentCall → Prop
  | .put other _ => other = key
  | .remove other => other = key
  | _ => False

/- The identifier that the call sets. -/
def id? : DocumentCall → Option Text
  | .setId id => some id
  | _ => none

/- The expiry that the call sets. -/
def expiry? : DocumentCall → Option Int64
  | .setExpiry expiry => some expiry
  | _ => none

/-
  An object is built by putting its members one after the
  other; for other content nothing is put.
-/
def ofContent
    (content : Json) : List DocumentCall :=
  (content.members?.getD []).map fun member =>
    .put member.1 member.2

end DocumentCall

/- Removing a key leaves it out, and the others stay. -/
theorem Association.keys_erase_of_nodup
    {α β : Type}
    [DecidableEq α]
    {entries : List (α × β)}
    (h : (keys entries).Nodup)
    (key : α) :
    keys (erase key entries) =
      (keys entries).filter (· ≠ key) := by
  rw [keys_erase, h.erase_eq_filter]
  refine List.filter_congr fun other _ => ?_
  rw [decide_not]
  rfl

namespace Attributes

/- A key that is put keeps its place, or comes last. -/
theorem keys_put
    (a : Attributes)
    (key : Text)
    (value : Json) :
    (a.put key value).keys =
      if key ∈ a.keys then a.keys else a.keys ++ [key] := by
  have hAssign := Association.keys_assign key value a.entries
  by_cases hOld : key ∈ a.keys
  · rw [if_pos hOld]
    exact hAssign.trans (if_pos hOld)
  · rw [if_neg hOld]
    exact hAssign.trans (if_neg hOld)

/- It is among the keys then. -/
theorem mem_keys_put
    {a : Attributes}
    {key other : Text}
    {value : Json} :
    other ∈ (a.put key value).keys ↔
      other ∈ a.keys ∨ other = key := by
  rw [keys_put]
  split
  · rename_i hOld
    refine ⟨.inl, ?_⟩
    rintro (hOther | rfl)
    · exact hOther
    · exact hOld
  · rw [List.mem_append, List.mem_singleton]

/- A key that is erased is left out, and the others stay. -/
theorem keys_erase
    (a : Attributes)
    (key : Text) :
    (a.erase key).keys = a.keys.filter (· ≠ key) :=
  Association.keys_erase_of_nodup a.nodup key

end Attributes

namespace Document

/- The document after a call. -/
def call
    (d : Document) : DocumentCall → Document
  | .put key value => d.put key value
  | .remove key => (d.remove key).2
  | .get _ => d
  | .contains _ => d
  | .setId id => d.withId id
  | .setExpiry expiry => d.withExpiry expiry

/- The document after several calls. -/
def callAll
    (d : Document)
    (calls : List DocumentCall) : Document :=
  calls.foldl call d

@[simp]
theorem callAll_append
    (d : Document)
    (calls others : List DocumentCall) :
    d.callAll (calls ++ others) =
      (d.callAll calls).callAll others :=
  List.foldl_append

end Document

------------------------------------------------------------
-- Logs
------------------------------------------------------------

/- The calls of a document, in order. -/
abbrev DocumentLog := List DocumentCall

namespace DocumentLog

variable {log : DocumentLog}
variable {c : DocumentCall}
variable {key : Text}
variable {value : Json}
variable {place : Nat}

/- The key was removed after each of its puts. -/
def Absent
    (log : DocumentLog)
    (key : Text) : Prop :=
  ∀ earlier value later,
    log = earlier ++ .put key value :: later →
      .remove key ∈ later

/- The value was put under the key, which was then left alone. -/
def LastPut
    (log : DocumentLog)
    (key : Text)
    (value : Json) : Prop :=
  ∃ earlier later,
    log = earlier ++ .put key value :: later ∧
      ∀ c ∈ later, ¬ c.Touches key

/-
  The key was absent, was put at this place of the log, and
  was not removed since.
-/
def PresentSince
    (log : DocumentLog)
    (key : Text)
    (place : Nat) : Prop :=
  ∃ earlier value later,
    log = earlier ++ .put key value :: later ∧
      earlier.length = place ∧ Absent earlier key ∧
      .remove key ∉ later

/- The first key has been present for longer than the second one. -/
def Before
    (log : DocumentLog)
    (first second : Text) : Prop :=
  ∃ place₁ place₂,
    PresentSince log first place₁ ∧
      PresentSince log second place₂ ∧ place₁ < place₂

------------------------------------------------------------
-- One More Call
------------------------------------------------------------

/- A call of a longer log is its last one, or one of before. -/
theorem append_eq_append_cons_iff
    {earlier later : DocumentLog}
    {own : DocumentCall} :
    log ++ [c] = earlier ++ own :: later ↔
      (log = earlier ∧ c = own ∧ later = []) ∨
        ∃ between,
          log = earlier ++ own :: between ∧
            later = between ++ [c] := by
  constructor
  · intro hSplit
    rcases List.eq_nil_or_concat later with
      rfl | ⟨between, last, rfl⟩
    · rcases List.append_inj' hSplit rfl with ⟨hLog, hLast⟩
      exact .inl ⟨hLog, (List.cons.inj hLast).1, rfl⟩
    · rw [List.concat_eq_append] at hSplit ⊢
      rw [← List.cons_append, ← List.append_assoc] at hSplit
      rcases List.append_inj' hSplit rfl with ⟨hLog, hLast⟩
      rw [hLast]
      exact .inr ⟨between, hLog, rfl⟩
  · rintro (⟨rfl, rfl, rfl⟩ | ⟨between, rfl, rfl⟩)
    · rfl
    · rw [List.append_assoc, List.cons_append]

/- A key is absent when it is removed, or is not put again. -/
theorem absent_append_iff :
    Absent (log ++ [c]) key ↔
      c = .remove key ∨
        Absent log key ∧ ∀ value, c ≠ .put key value := by
  constructor
  · intro hAbsent
    by_cases hRemoves : c = .remove key
    · exact .inl hRemoves
    refine .inr ⟨?_, ?_⟩
    · rintro earlier value later rfl
      have hLater :=
        hAbsent earlier value (later ++ [c])
          (append_eq_append_cons_iff.mpr (.inr ⟨_, rfl, rfl⟩))
      rcases List.mem_append.mp hLater with hOld | hLast
      · exact hOld
      · exact absurd (List.mem_singleton.mp hLast).symm hRemoves
    · intro value hPut
      have hLater :=
        hAbsent log value []
          (append_eq_append_cons_iff.mpr (.inl ⟨rfl, hPut, rfl⟩))
      exact absurd hLater List.not_mem_nil
  · intro hStep earlier value later hSplit
    rcases append_eq_append_cons_iff.mp hSplit with
      ⟨-, hPut, -⟩ | ⟨between, hLog, rfl⟩
    · rcases hStep with hRemoves | ⟨-, hOther⟩
      · cases hRemoves.symm.trans hPut
      · exact absurd hPut (hOther value)
    · rw [List.mem_append, List.mem_singleton]
      rcases hStep with hRemoves | ⟨hAbsent, -⟩
      · exact .inr hRemoves.symm
      · exact .inl (hAbsent earlier value between hLog)

/- A value is the last one when it is put, or is left alone. -/
theorem lastPut_append_iff :
    LastPut (log ++ [c]) key value ↔
      c = .put key value ∨
        LastPut log key value ∧ ¬ c.Touches key := by
  constructor
  · rintro ⟨earlier, later, hSplit, hAlone⟩
    rcases append_eq_append_cons_iff.mp hSplit with
      ⟨-, hPut, -⟩ | ⟨between, hLog, rfl⟩
    · exact .inl hPut
    · rw [List.forall_mem_append, List.forall_mem_singleton]
        at hAlone
      exact .inr ⟨⟨earlier, between, hLog, hAlone.1⟩, hAlone.2⟩
  · rintro (rfl | ⟨⟨earlier, later, rfl, hAlone⟩, hLast⟩)
    · exact ⟨log, [], rfl, fun c hMem => nomatch hMem⟩
    · refine ⟨earlier, later ++ [c], ?_, ?_⟩
      · rw [List.append_assoc, List.cons_append]
      · rw [List.forall_mem_append, List.forall_mem_singleton]
        exact ⟨hAlone, hLast⟩

/-
  A key keeps its place until it is removed; an absent one is
  put at the end.
-/
theorem presentSince_append_iff :
    PresentSince (log ++ [c]) key place ↔
      PresentSince log key place ∧ c ≠ .remove key ∨
        (∃ value, c = .put key value) ∧ Absent log key ∧
          place = log.length := by
  constructor
  · rintro ⟨earlier, value, later, hSplit, hPlace, hAbsent, hStays⟩
    rcases append_eq_append_cons_iff.mp hSplit with
      ⟨rfl, hPut, -⟩ | ⟨between, hLog, rfl⟩
    · exact .inr ⟨⟨value, hPut⟩, hAbsent, hPlace.symm⟩
    · rw [List.mem_append, List.mem_singleton, not_or] at hStays
      exact
        .inl
          ⟨⟨earlier, value, between, hLog, hPlace, hAbsent,
              hStays.1⟩,
            Ne.symm hStays.2⟩
  · rintro (⟨⟨earlier, value, later, rfl, hPlace, hAbsent, hStays⟩,
        hOther⟩ |
      ⟨⟨value, rfl⟩, hAbsent, rfl⟩)
    · refine
        ⟨earlier, value, later ++ [c], ?_, hPlace, hAbsent, ?_⟩
      · rw [List.append_assoc, List.cons_append]
      · rw [List.mem_append, List.mem_singleton, not_or]
        exact ⟨hStays, Ne.symm hOther⟩
    · exact ⟨log, value, [], rfl, rfl, hAbsent, List.not_mem_nil⟩

------------------------------------------------------------
-- Keys That Are Present
------------------------------------------------------------

/- Nothing was put into a new log. -/
theorem absent_nil
    (key : Text) :
    Absent [] key := by
  intro earlier value later hSplit
  exact absurd hSplit.symm (by simp)

/- The keys that have a place are those that are not absent. -/
theorem exists_presentSince_iff :
    (∃ place, PresentSince log key place) ↔
      ¬ Absent log key := by
  induction log using List.reverseRecOn with
  | nil =>
      refine iff_of_false ?_ (not_not_intro (absent_nil key))
      rintro ⟨place, earlier, value, later, hSplit, -⟩
      exact absurd hSplit.symm (by simp)
  | append_singleton log c ih =>
      have hPuts :
          (∃ value, c = .put key value) → c ≠ .remove key := by
        rintro ⟨value, rfl⟩
        exact nofun
      simp only [presentSince_append_iff, absent_append_iff,
        exists_or, exists_and_right, exists_and_left,
        exists_eq, and_true, ih, ne_eq, ← not_exists]
      tauto

/- A key has at most one place. -/
theorem PresentSince.unique
    {other : Nat}
    (h : PresentSince log key place)
    (hOther : PresentSince log key other) :
    place = other := by
  induction log using List.reverseRecOn with
  | nil =>
      rcases h with ⟨earlier, value, later, hSplit, -⟩
      exact absurd hSplit.symm (by simp)
  | append_singleton log c ih =>
      rw [presentSince_append_iff] at h hOther
      rcases h with ⟨hOld, -⟩ | ⟨-, hAbsent, hPlace⟩ <;>
        rcases hOther with ⟨hOld', -⟩ | ⟨-, hAbsent', hPlace'⟩
      · exact ih hOld hOld'
      · exact absurd hAbsent' (exists_presentSince_iff.mp ⟨_, hOld⟩)
      · exact absurd hAbsent (exists_presentSince_iff.mp ⟨_, hOld'⟩)
      · rw [hPlace, hPlace']

/- The place of a key is a place of the log. -/
theorem PresentSince.lt_length
    (h : PresentSince log key place) :
    place < log.length := by
  rcases h with ⟨earlier, value, later, rfl, rfl, -⟩
  simp

/- Of two keys only one comes before the other. -/
theorem Before.asymm
    {first second : Text}
    (h : Before log first second) :
    ¬ Before log second first := by
  rintro ⟨other₂, other₁, hOther₂, hOther₁, hLess'⟩
  rcases h with ⟨place₁, place₂, hPlace₁, hPlace₂, hLess⟩
  rw [hOther₁.unique hPlace₁, hOther₂.unique hPlace₂] at hLess'
  omega

/- Keys that are not removed keep their order. -/
theorem Before.append
    {first second : Text}
    (h : Before log first second)
    (hFirst : c ≠ .remove first)
    (hSecond : c ≠ .remove second) :
    Before (log ++ [c]) first second := by
  rcases h with ⟨place₁, place₂, hPlace₁, hPlace₂, hLess⟩
  exact
    ⟨place₁, place₂,
      presentSince_append_iff.mpr (.inl ⟨hPlace₁, hFirst⟩),
      presentSince_append_iff.mpr (.inl ⟨hPlace₂, hSecond⟩),
      hLess⟩

/- An absent key that is put comes behind all others. -/
theorem before_put
    {other : Text}
    (hOther : ¬ Absent log other)
    (hAbsent : Absent log key) :
    Before (log ++ [.put key value]) other key := by
  rcases exists_presentSince_iff.mpr hOther with ⟨place, hPlace⟩
  exact
    ⟨place, log.length,
      presentSince_append_iff.mpr (.inl ⟨hPlace, nofun⟩),
      presentSince_append_iff.mpr
        (.inr ⟨⟨value, rfl⟩, hAbsent, rfl⟩),
      hPlace.lt_length⟩

------------------------------------------------------------
-- Mirroring
------------------------------------------------------------

/-
  The attributes are what the log says: the present keys in
  the order of their places, each with the value put last.
-/
structure Mirrors
    (log : DocumentLog)
    (a : Attributes) : Prop where
  get?_iff :
    ∀ key value, a.get? key = some value ↔ LastPut log key value
  mem_keys_iff : ∀ key, key ∈ a.keys ↔ ¬ Absent log key
  ordered : a.keys.Pairwise (Before log)

variable {a : Attributes}
variable {d : Document}

/- The attributes of a new log are none. -/
theorem mirrors_nil : Mirrors [] .empty where
  get?_iff key value := by
    refine iff_of_false nofun ?_
    rintro ⟨earlier, later, hSplit, -⟩
    exact absurd hSplit.symm (by simp)
  mem_keys_iff key :=
    iff_of_false List.not_mem_nil (not_not_intro (absent_nil key))
  ordered := .nil

/- A call that touches no key changes nothing. -/
theorem Mirrors.untouched
    (h : Mirrors log a)
    (hUntouched : ∀ key, ¬ c.Touches key) :
    Mirrors (log ++ [c]) a where
  get?_iff key value := by
    rw [lastPut_append_iff, h.get?_iff]
    constructor
    · intro hLast
      exact .inr ⟨hLast, hUntouched key⟩
    · rintro (rfl | ⟨hLast, -⟩)
      · exact absurd rfl (hUntouched key)
      · exact hLast
  mem_keys_iff key := by
    rw [absent_append_iff, h.mem_keys_iff]
    have hOther : c ≠ .remove key := by
      rintro rfl
      exact hUntouched key rfl
    have hNoPut : ∀ value, c ≠ .put key value := by
      rintro value rfl
      exact hUntouched key rfl
    tauto
  ordered := by
    have hOther : ∀ key, c ≠ .remove key := by
      rintro key rfl
      exact hUntouched key rfl
    exact
      h.ordered.imp fun hBefore =>
        hBefore.append (hOther _) (hOther _)

/- Putting a key binds it, at its place or at the end. -/
theorem Mirrors.put
    (h : Mirrors log a)
    (key : Text)
    (value : Json) :
    Mirrors (log ++ [.put key value]) (a.put key value) where
  get?_iff other found := by
    rw [Attributes.get?_put, lastPut_append_iff,
      ← h.get?_iff other found]
    by_cases hKey : key = other
    · subst hKey
      simp [DocumentCall.Touches]
    · simp [DocumentCall.Touches, hKey]
  mem_keys_iff other := by
    rw [Attributes.mem_keys_put, absent_append_iff,
      h.mem_keys_iff]
    by_cases hKey : other = key
    · subst hKey
      simp
    · have hOther :
          ∀ found,
            DocumentCall.put key value ≠ .put other found := by
        rintro found hSame
        exact hKey (DocumentCall.put.inj hSame).1.symm
      simp [hKey, hOther]
  ordered := by
    have hStill :
        a.keys.Pairwise (Before (log ++ [.put key value])) :=
      h.ordered.imp fun hBefore => hBefore.append nofun nofun
    rw [Attributes.keys_put]
    split
    · exact hStill
    · rename_i hNew
      rw [h.mem_keys_iff, not_not] at hNew
      rw [List.pairwise_append]
      refine ⟨hStill, List.pairwise_singleton _ _, ?_⟩
      intro other hOther last hLast
      rw [List.mem_singleton.mp hLast]
      exact before_put ((h.mem_keys_iff other).mp hOther) hNew

/- Removing a key unbinds it, and the others keep their order. -/
theorem Mirrors.erase
    (h : Mirrors log a)
    (key : Text) :
    Mirrors (log ++ [.remove key]) (a.erase key) where
  get?_iff other found := by
    rw [Attributes.get?_erase, lastPut_append_iff,
      ← h.get?_iff other found]
    by_cases hKey : key = other
    · simp [DocumentCall.Touches, hKey]
    · simp [DocumentCall.Touches, hKey]
  mem_keys_iff other := by
    rw [Attributes.keys_erase, List.mem_filter,
      absent_append_iff, h.mem_keys_iff]
    by_cases hKey : other = key
    · simp [hKey]
    · simp [hKey, Ne.symm hKey]
  ordered := by
    have hKept :
        (a.erase key).keys.Pairwise (Before log) := by
      rw [Attributes.keys_erase]
      exact h.ordered.filter _
    refine hKept.imp_of_mem ?_
    intro first second hFirst hSecond hBefore
    rw [Attributes.keys_erase, List.mem_filter] at hFirst hSecond
    refine hBefore.append ?_ ?_
    · rintro hSame
      cases hSame
      simp at hFirst
    · rintro hSame
      cases hSame
      simp at hSecond

/- Of two members of a list one stands in front of the other. -/
theorem pair_sublist_or
    {keys : List Text}
    {first second : Text}
    (hFirst : first ∈ keys)
    (hSecond : second ∈ keys)
    (hNe : first ≠ second) :
    [first, second].Sublist keys ∨
      [second, first].Sublist keys := by
  induction keys with
  | nil => exact absurd hFirst List.not_mem_nil
  | cons head rest ih =>
      rcases List.mem_cons.mp hFirst with rfl | hFirst'
      · have hRest := List.mem_of_ne_of_mem hNe.symm hSecond
        exact
          .inl ((List.singleton_sublist.mpr hRest).cons_cons _)
      rcases List.mem_cons.mp hSecond with rfl | hSecond'
      · exact
          .inr ((List.singleton_sublist.mpr hFirst').cons_cons _)
      · exact
          (ih hFirst' hSecond').imp (.cons head) (.cons head)

/- Keys stand in the order of their places. -/
theorem Mirrors.sublist_iff
    (h : Mirrors log a)
    {first second : Text} :
    [first, second].Sublist a.keys ↔
      Before log first second := by
  constructor
  · intro hSublist
    have hPair := h.ordered.sublist hSublist
    exact List.rel_of_pairwise_cons hPair List.mem_cons_self
  · intro hBefore
    have hAsymm := hBefore.asymm
    have hNe : first ≠ second := by
      rintro rfl
      exact hAsymm hBefore
    rcases hBefore with ⟨place₁, place₂, hPlace₁, hPlace₂, -⟩
    have hFirst : first ∈ a.keys :=
      (h.mem_keys_iff first).mpr
        (exists_presentSince_iff.mp ⟨_, hPlace₁⟩)
    have hSecond : second ∈ a.keys :=
      (h.mem_keys_iff second).mpr
        (exists_presentSince_iff.mp ⟨_, hPlace₂⟩)
    rcases pair_sublist_or hFirst hSecond hNe with
      hOrder | hOrder
    · exact hOrder
    · have hPair := h.ordered.sublist hOrder
      exact
        absurd
          (List.rel_of_pairwise_cons hPair List.mem_cons_self)
          hAsymm

/- One more call keeps a document the mirror of its log. -/
theorem Mirrors.call
    (h : Mirrors log d.content)
    (c : DocumentCall) :
    Mirrors (log ++ [c]) (d.call c).content := by
  cases c with
  | put key value => exact h.put key value
  | remove key => exact h.erase key
  | get key => exact h.untouched fun _ => not_false
  | contains key => exact h.untouched fun _ => not_false
  | setId id => exact h.untouched fun _ => not_false
  | setExpiry expiry => exact h.untouched fun _ => not_false

/- After all calls a document is the mirror of its log. -/
theorem mirrors_callAll
    (id : Text)
    (log : DocumentLog) :
    Mirrors log ((Document.ofId id).callAll log).content := by
  induction log using List.reverseRecOn with
  | nil => exact mirrors_nil
  | append_singleton log c ih =>
      rw [Document.callAll_append]
      exact ih.call c

end DocumentLog

------------------------------------------------------------
-- Equal Contents
------------------------------------------------------------

/-
  Members under distinct keys are equal exactly if they have
  the same keys in the same order, with equal values.
-/
theorem Json.equalMembers_iff
    {a b : List (Text × Json)}
    (ha : (Association.keys a).Nodup)
    (hb : (Association.keys b).Nodup) :
    equalMembers a b = true ↔
      Association.keys a = Association.keys b ∧
        ∀ key x y,
          Association.lookup? key a = some x →
            Association.lookup? key b = some y →
              x.equal y = true := by
  induction a generalizing b with
  | nil =>
      cases b with
      | nil => simp [equalMembers, Association.lookup?]
      | cons member rest =>
          simp [equalMembers, Association.keys]
  | cons member a ih =>
      rcases member with ⟨k, v⟩
      cases b with
      | nil => simp [equalMembers, Association.keys]
      | cons member b =>
          rcases member with ⟨l, w⟩
          simp only [Association.keys, List.map_cons,
            List.nodup_cons] at ha hb
          have ih := ih ha.2 hb.2
          simp only [Association.keys] at ih
          simp only [equalMembers, Association.keys,
            List.map_cons, List.cons.injEq, Bool.and_eq_true,
            beq_iff_eq, ih, Association.lookup?]
          constructor
          · rintro ⟨⟨rfl, hHead⟩, hKeys, hRest⟩
            refine ⟨⟨rfl, hKeys⟩, ?_⟩
            intro key x y hx hy
            by_cases hKey : k = key
            · rw [if_pos hKey] at hx hy
              cases hx
              cases hy
              exact hHead
            · rw [if_neg hKey] at hx hy
              exact hRest key x y hx hy
          · rintro ⟨⟨rfl, hKeys⟩, hValues⟩
            refine ⟨⟨rfl, ?_⟩, hKeys, ?_⟩
            · exact hValues k v w (if_pos rfl) (if_pos rfl)
            · intro key x y hx hy
              have hKey : k ≠ key := by
                rintro rfl
                have hEntry := Association.mem_of_lookup? hx
                exact ha.1 (List.mem_map_of_mem hEntry)
              apply hValues key x y
              · rw [if_neg hKey]
                exact hx
              · rw [if_neg hKey]
                exact hy

namespace Document

variable {a b : Document}

/-
  Documents are equal exactly if they have the same keys in
  the same order with equal values, the same identifier and
  the same expiry.
-/
theorem equal_iff :
    a.equal b = true ↔
      a.content.keys = b.content.keys ∧
        (∀ key x y,
          a.get? key = some x →
            b.get? key = some y → x.equal y = true) ∧
        a.id = b.id ∧ a.expiry = b.expiry := by
  have hContent :
      a.content.toJson.equal b.content.toJson =
        Json.equalMembers a.content.entries b.content.entries := by
    rw [Attributes.toJson, Attributes.toJson, Json.equal]
  rw [equal, hContent, Bool.and_eq_true, Bool.and_eq_true,
    beq_iff_eq, beq_iff_eq,
    Json.equalMembers_iff a.content.nodup b.content.nodup]
  constructor
  · rintro ⟨⟨hId, hKeys, hValues⟩, hExpiry⟩
    exact ⟨hKeys, hValues, hId, hExpiry⟩
  · rintro ⟨hKeys, hValues, hId, hExpiry⟩
    exact ⟨⟨hId, hKeys, hValues⟩, hExpiry⟩

------------------------------------------------------------
-- The Document and Its Log
------------------------------------------------------------

/- Content is built by calls. -/
theorem ofContent_eq
    (id : Text)
    (content : Json) :
    ofContent id content =
      (ofId id).callAll (DocumentCall.ofContent content) := by
  have hPuts :
      ∀ (members : List (Text × Json)) (d : Document),
        d.callAll
            (members.map fun member =>
              .put member.1 member.2) =
          { d with content := d.content.merge members } := by
    intro members
    induction members with
    | nil => exact fun d => rfl
    | cons member rest ih =>
        exact fun d => ih (d.put member.1 member.2)
  cases content with
  | object members => exact (hPuts members (ofId id)).symm
  | _ => rfl

/- The identifier is the one that was set last. -/
theorem id_callAll
    (d : Document)
    (calls : List DocumentCall) :
    (d.callAll calls).id =
      (calls.filterMap DocumentCall.id?).getLast?.getD d.id := by
  induction calls using List.reverseRecOn with
  | nil => rfl
  | append_singleton calls c ih =>
      rw [callAll_append, List.filterMap_append,
        List.getLast?_append]
      cases c with
      | setId id => rfl
      | _ => exact ih

/- The expiry is the one that was set last. -/
theorem expiry_callAll
    (d : Document)
    (calls : List DocumentCall) :
    (d.callAll calls).expiry =
      (calls.filterMap DocumentCall.expiry?).getLast?.getD
        d.expiry := by
  induction calls using List.reverseRecOn with
  | nil => rfl
  | append_singleton calls c ih =>
      rw [callAll_append, List.filterMap_append,
        List.getLast?_append]
      cases c with
      | setExpiry expiry => rfl
      | _ => exact ih

/-
  Members under distinct keys are the content as they stand;
  content of another kind is replaced by none.
-/
theorem entries_ofContent
    (id : Text)
    (content : Json) :
    (content.members? = none →
      (ofContent id content).content.entries = []) ∧
    ∀ members,
      content = .object members →
        (Association.keys members).Nodup →
          (ofContent id content).content.entries = members := by
  refine ⟨?_, ?_⟩
  · intro hKind
    cases content with
    | object members => exact absurd hKind nofun
    | _ => rfl
  · rintro members rfl hNodup
    exact Association.merge_of_nodup hNodup

/-
  Whatever a document is built from and whatever is done to it,
  it shows its log and nothing else. Its content is an object
  without repeated keys: the present keys in the order of their
  places, each with the value put last. A removal tells whether
  the key was there and leaves the others alone; identifier and
  expiry are the ones set last. Two documents are equal exactly
  if they end alike.
-/
theorem reflects_log
    (id : Text)
    (content : Json)
    (calls : List DocumentCall) :
    let log := DocumentCall.ofContent content ++ calls
    let d := (ofContent id content).callAll calls
    (content.members? = none →
      (ofContent id content).content.entries = []) ∧
    (∀ members,
      content = .object members →
        (Association.keys members).Nodup →
          (ofContent id content).content.entries = members) ∧
    (∃ members,
      d.content.toJson = .object members ∧
        (Association.keys members).Nodup) ∧
    DocumentLog.Mirrors log d.content ∧
    (∀ first second,
      [first, second].Sublist d.content.keys ↔
        DocumentLog.Before log first second) ∧
    (∀ key,
      (d.contains key = true ↔ key ∈ d.content.keys) ∧
      (d.contains key = true ↔ ∃ value, d.get? key = some value) ∧
      ((d.remove key).1 = true ↔ key ∈ d.content.keys) ∧
      (d.remove key).2.content.keys =
        d.content.keys.filter (· ≠ key) ∧
      ∀ other, key ≠ other →
        (d.remove key).2.get? other = d.get? other) ∧
    d.id = (calls.filterMap DocumentCall.id?).getLast?.getD id ∧
    d.expiry =
      (calls.filterMap DocumentCall.expiry?).getLast?.getD 0 ∧
    ∀ otherId otherContent otherCalls,
      let other :=
        (ofContent otherId otherContent).callAll otherCalls
      d.equal other = true ↔
        d.content.keys = other.content.keys ∧
          (∀ key x y,
            d.get? key = some x →
              other.get? key = some y → x.equal y = true) ∧
          d.id = other.id ∧ d.expiry = other.expiry := by
  intro log d
  have hPresent :
      ∀ key, d.contains key = true ↔ key ∈ d.content.keys :=
    fun key => d.content.get?_isSome_iff key
  have hBuilt : d = (ofId id).callAll log := by
    show (ofContent id content).callAll calls = _
    rw [ofContent_eq, callAll_append]
  have hMirrors : DocumentLog.Mirrors log d.content := by
    rw [hBuilt]
    exact DocumentLog.mirrors_callAll id log
  refine
    ⟨(entries_ofContent id content).1,
      (entries_ofContent id content).2,
      ⟨_, rfl, d.content.nodup⟩, hMirrors, ?_, ?_, ?_, ?_, ?_⟩
  · exact fun first second => hMirrors.sublist_iff
  · intro key
    refine
      ⟨hPresent key, Option.isSome_iff_exists, hPresent key,
        d.content.keys_erase key, ?_⟩
    intro other hOther
    exact
      (d.content.get?_erase key other).trans (if_neg hOther)
  · exact id_callAll (ofContent id content) calls
  · exact expiry_callAll (ofContent id content) calls
  · intro otherId otherContent otherCalls other
    exact equal_iff

/- A key that is put again keeps its place, a removed one loses it. -/
example :
    ((ofContent (.lit "a") .null).callAll
      [.put (.lit "k") .null, .put (.lit "l") .null,
        .put (.lit "k") (.bool true), .remove (.lit "l"),
        .put (.lit "m") .null,
        .put (.lit "l") .null]).content.keys =
      [.lit "k", .lit "m", .lit "l"] := by
  decide

end Document

end DocumentMapper
