import DocumentMapper.Text.Blank

/-
  Texts with blanks around them, and texts in lines.

  Whatever blanks stand around a text without blanks at its
  ends, trimming leaves that text. Lines that are joined are
  split into the same lines.

  Key definitions include:
    * `Text.AllBlank`, `Text.Bare`

  Main statements include:
    * `Text.trim_padded`
    * `Text.trim_append`
    * `Text.unquote_quoted`
    * `Text.split_intercalate`
-/

namespace DocumentMapper

namespace Text

variable {b mark : UInt8}
variable {before core rest s : Text}

------------------------------------------------------------
-- Blanks at the Ends
------------------------------------------------------------

/- There are only blanks. -/
def AllBlank
    (s : Text) : Prop :=
  ∀ b ∈ s, isBlank b = true

instance : Decidable (AllBlank s) :=
  decidable_of_iff (s.all isBlank = true) List.all_eq_true

/- A text that is not empty and has no blanks at its ends. -/
structure Bare (s : Text) : Prop where
  ne_nil : s ≠ []
  head : ∀ b ∈ s.head?, isBlank b = false
  last : ∀ b ∈ s.getLast?, isBlank b = false

/- The ends of a text can be looked at. -/
theorem bare_iff :
    Bare s ↔
      s ≠ [] ∧
        s.head?.any isBlank = false ∧
        s.getLast?.any isBlank = false := by
  have hEnd :
      ∀ edge? : Option UInt8,
        (∀ b ∈ edge?, isBlank b = false) ↔
          edge?.any isBlank = false := by
    intro edge?
    cases edge? <;> simp
  rw [← hEnd, ← hEnd]
  exact
    ⟨fun h => ⟨h.ne_nil, h.head, h.last⟩,
      fun h => ⟨h.1, h.2.1, h.2.2⟩⟩

instance : Decidable (Bare s) :=
  decidable_of_iff' _ bare_iff

/- Blanks in front are dropped. -/
theorem trimLeft_append
    (hBefore : AllBlank before)
    (s : Text) :
    trimLeft (before ++ s) = trimLeft s := by
  induction before with
  | nil => rfl
  | cons b rest ih =>
      rw [AllBlank, List.forall_mem_cons] at hBefore
      rw [List.cons_append, trimLeft,
        List.dropWhile_cons_of_pos hBefore.1]
      exact ih hBefore.2

/- Another byte in front stays. -/
theorem trimLeft_cons
    (hb : isBlank b = false)
    (s : Text) :
    trimLeft (b :: s) = b :: s := by
  rw [trimLeft, List.dropWhile_cons_of_neg]
  simp [hb]

/- Blanks at the end are dropped. -/
theorem trimRight_append
    {after : Text}
    (hAfter : AllBlank after)
    (s : Text) :
    trimRight (s ++ after) = trimRight s := by
  have hReverse : AllBlank after.reverse :=
    fun b hMem => hAfter b (List.mem_reverse.mp hMem)
  rw [trimRight, List.reverse_append]
  exact congrArg List.reverse (trimLeft_append hReverse s.reverse)

/- Of blanks alone nothing is left. -/
theorem trimRight_of_allBlank
    (h : AllBlank s) :
    trimRight s = [] :=
  trimRight_append h []

/- Only blanks are dropped at the end. -/
theorem exists_trimRight
    (s : Text) :
    ∃ after, AllBlank after ∧ s = trimRight s ++ after := by
  refine ⟨(s.reverse.takeWhile isBlank).reverse, ?_, ?_⟩
  · intro b hMem
    exact
      List.all_eq_true.mp List.all_takeWhile b
        (List.mem_reverse.mp hMem)
  · rw [trimRight, ← List.reverse_append,
      List.takeWhile_append_dropWhile, List.reverse_reverse]

/- Trimming twice is trimming once. -/
theorem trimRight_trimRight
    (s : Text) :
    trimRight (trimRight s) = trimRight s := by
  rcases exists_trimRight s with ⟨after, hAfter, hSplit⟩
  calc
    trimRight (trimRight s) = trimRight (trimRight s ++ after) :=
      (trimRight_append hAfter _).symm
    _ = trimRight s := by rw [← hSplit]

/- What stands behind another byte is trimmed by itself. -/
theorem trimRight_append_cons
    (hb : isBlank b = false)
    (before rest : Text) :
    trimRight (before ++ b :: rest) =
      before ++ b :: trimRight rest := by
  have hKept :
      ∀ t : Text,
        (t ++ b :: before.reverse).dropWhile isBlank =
          t.dropWhile isBlank ++ b :: before.reverse := by
    intro t
    induction t with
    | nil => exact trimLeft_cons hb _
    | cons c t ih =>
        by_cases hc : isBlank c = true
        · rw [List.cons_append, List.dropWhile_cons_of_pos hc,
            List.dropWhile_cons_of_pos hc, ih]
        · rw [List.cons_append, List.dropWhile_cons_of_neg hc,
            List.dropWhile_cons_of_neg hc]
          rfl
  rw [trimRight, trimRight, List.reverse_append,
    List.reverse_cons, List.append_assoc, List.singleton_append,
    hKept]
  simp

------------------------------------------------------------
-- Padded Texts
------------------------------------------------------------

/- A text with a byte in front that is no blank. -/
theorem Bare.exists_cons
    (h : Bare core) :
    ∃ b rest, core = b :: rest ∧ isBlank b = false := by
  cases core with
  | nil => exact absurd rfl h.ne_nil
  | cons b rest => exact ⟨b, rest, rfl, h.head b rfl⟩

/- A text with a byte at its end that is no blank. -/
theorem Bare.exists_concat
    (h : Bare core) :
    ∃ rest b, core = rest ++ [b] ∧ isBlank b = false := by
  refine
    ⟨core.dropLast, core.getLast h.ne_nil,
      (List.dropLast_concat_getLast h.ne_nil).symm, ?_⟩
  exact h.last _ (List.getLast?_eq_some_getLast h.ne_nil)

/- Bytes at both ends that are no blanks make such a text. -/
theorem bare_of_ends
    {first last : UInt8}
    (hFirst : isBlank first = false)
    (hLast : isBlank last = false)
    (s : Text) :
    Bare (first :: (s ++ [last])) where
  ne_nil := nofun
  head b hMem := by
    cases hMem
    exact hFirst
  last b hMem := by
    rw [← List.cons_append, List.getLast?_concat] at hMem
    cases hMem
    exact hLast

/- Behind blanks, a text stays with what is left behind it. -/
theorem trim_append
    (hBefore : AllBlank before)
    (hCore : Bare core)
    (rest : Text) :
    trim (before ++ (core ++ rest)) = core ++ trimRight rest := by
  rw [trim, trimLeft_append hBefore]
  have hStays : trimLeft (core ++ rest) = core ++ rest := by
    rcases hCore.exists_cons with ⟨b, tail, rfl, hb⟩
    exact trimLeft_cons hb _
  rcases hCore.exists_concat with ⟨init, b, rfl, hb⟩
  rw [hStays, List.append_assoc, List.singleton_append,
    trimRight_append_cons hb, List.append_assoc,
    List.singleton_append]

/- Between blanks, a text stays alone. -/
theorem trim_padded
    {after : Text}
    (hBefore : AllBlank before)
    (hCore : Bare core)
    (hAfter : AllBlank after) :
    trim (before ++ (core ++ after)) = core := by
  rw [trim_append hBefore hCore, trimRight_of_allBlank hAfter,
    List.append_nil]

/- Blanks behind a text are dropped. -/
theorem Bare.trim_append
    {after : Text}
    (hCore : Bare core)
    (hAfter : AllBlank after) :
    trim (core ++ after) = core := by
  have hEmpty : AllBlank [] := nofun
  exact trim_padded hEmpty hCore hAfter

/- A text without blanks at its ends is left as it is. -/
theorem Bare.trim
    (hCore : Bare core) :
    trim core = core := by
  have hEmpty : AllBlank [] := nofun
  have hTrimmed := hCore.trim_append hEmpty
  rwa [List.append_nil] at hTrimmed

/- Blanks alone leave nothing. -/
theorem trim_of_allBlank
    (h : AllBlank s) :
    trim s = [] := by
  have hNone := trimLeft_append h []
  rw [List.append_nil] at hNone
  rw [trim, hNone]
  rfl

/- Quotes are no blanks. -/
theorem isBlank_of_isQuote
    (hMark : isQuote mark = true) :
    isBlank mark = false := by
  rcases of_decide_eq_true hMark with rfl | rfl <;> decide

/- A text between quotes has no blanks at its ends. -/
theorem bare_quoted
    (hMark : isQuote mark = true)
    (s : Text) :
    Bare (mark :: (s ++ [mark])) :=
  bare_of_ends (isBlank_of_isQuote hMark)
    (isBlank_of_isQuote hMark) s

/- A pair of quotes is taken off. -/
theorem unquote_quoted
    (hMark : isQuote mark = true)
    (s : Text) :
    unquote (mark :: (s ++ [mark])) = s := by
  have hBare := bare_quoted hMark s
  unfold unquote
  rw [hBare.trim]
  dsimp only
  rw [if_pos hMark, dropLast?, List.getLast?_concat, if_pos rfl,
    List.dropLast_concat]
  rfl

/- Where a text starts with another byte, no quotes are taken off. -/
theorem unquote_append
    (hCore : Bare core)
    (hPlain : ∀ b ∈ core.head?, isQuote b = false)
    (rest : Text) :
    unquote (core ++ rest) = core ++ trimRight rest := by
  have hEmpty : AllBlank [] := nofun
  have hTrim : trim (core ++ rest) = core ++ trimRight rest :=
    trim_append hEmpty hCore rest
  rcases hCore.exists_cons with ⟨b, tail, rfl, -⟩
  have hQuote := hPlain b rfl
  unfold unquote
  rw [hTrim]
  exact if_neg (Bool.eq_false_iff.mp hQuote)

------------------------------------------------------------
-- Lines
------------------------------------------------------------

/- A text without the mark is one piece. -/
theorem split_of_not_mem
    (h : mark ∉ s) :
    split mark s = [s] := by
  induction s with
  | nil => rfl
  | cons b rest ih =>
      rw [List.mem_cons, not_or] at h
      rw [split, if_neg (Ne.symm h.1), ih h.2]

/- There is a piece, even if it is empty. -/
theorem split_ne_nil
    (mark : UInt8)
    (s : Text) :
    split mark s ≠ [] := by
  cases s with
  | nil => nofun
  | cons b rest =>
      rw [split]
      by_cases hMark : b = mark
      · rw [if_pos hMark]
        nofun
      · rw [if_neg hMark]
        cases split mark rest <;> nofun

/- A mark divides the pieces before it from those behind it. -/
theorem split_append
    (mark : UInt8)
    (s rest : Text) :
    split mark (s ++ mark :: rest) =
      split mark s ++ split mark rest := by
  induction s with
  | nil => exact if_pos rfl
  | cons b tail ih =>
      rw [List.cons_append, split, split]
      by_cases hMark : b = mark
      · rw [if_pos hMark, if_pos hMark, ih]
        rfl
      · rw [if_neg hMark, if_neg hMark, ih]
        cases hTail : split mark tail with
        | nil => exact absurd hTail (split_ne_nil mark tail)
        | cons piece pieces => rfl

/- A piece ends at the first mark. -/
theorem split_append_cons
    (h : mark ∉ s)
    (rest : Text) :
    split mark (s ++ mark :: rest) = s :: split mark rest := by
  rw [split_append, split_of_not_mem h]
  rfl

/- Pieces that are joined are split again. -/
theorem split_intercalate
    {pieces : List Text}
    (hSome : pieces ≠ [])
    (h : ∀ piece ∈ pieces, mark ∉ piece) :
    split mark ([mark].intercalate pieces) = pieces := by
  induction pieces with
  | nil => exact absurd rfl hSome
  | cons piece rest ih =>
      rw [List.forall_mem_cons] at h
      cases rest with
      | nil =>
          rw [List.intercalate_singleton]
          exact split_of_not_mem h.1
      | cons next others =>
          rw [List.intercalate_cons_cons, List.append_assoc,
            List.singleton_append, split_append_cons h.1,
            ih nofun h.2]

end Text

end DocumentMapper
