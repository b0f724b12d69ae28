import DocumentMapper.Config.Section
import DocumentMapper.Proofs.Text.Trimming

/-
  Quotes within a value, and where a comment behind it starts.

  A quote that opens stays open up to the same mark, wherever
  it stands in a value. A number sign starts a comment only
  while no quote is open, so that it matters whether quotes
  come in pairs.

  Key definitions include:
    * `OpenQuote.behind`
    * `QuotesPaired`

  Main statements include:
    * `quotesPaired_iff`
    * `beforeComment_append`
    * `trimRight_beforeComment`
-/

namespace DocumentMapper

variable {b mark : UInt8}
variable {quote : OpenQuote}
variable {s : Text}

------------------------------------------------------------
-- Open Quotes
------------------------------------------------------------

/- The quote that is open behind a text. -/
def OpenQuote.behind
    (quote : OpenQuote)
    (s : Text) : OpenQuote :=
  s.foldl OpenQuote.after quote

/- Blanks are neither quotes nor the start of a comment. -/
theorem isQuote_of_isBlank
    (h : Text.isBlank b = true) :
    Text.isQuote b = false ∧ b ≠ 0x23 := by
  have hBlank : b = 0x20 ∨ (0x09 ≤ b ∧ b ≤ 0x0D) :=
    of_decide_eq_true h
  rcases hBlank with rfl | ⟨-, hLess⟩
  · decide
  · have hNe : ∀ c : UInt8, 0x0D < c → b ≠ c := by
      rintro c hGreater rfl
      exact absurd hLess (UInt8.not_le.mpr hGreater)
    refine ⟨?_, hNe 0x23 (by decide)⟩
    exact
      decide_eq_false
        (not_or_intro (hNe 0x22 (by decide)) (hNe 0x27 (by decide)))

/- A number sign is no quote. -/
theorem ne_numberSign_of_isQuote
    (h : Text.isQuote mark = true) :
    mark ≠ 0x23 := by
  rintro rfl
  exact absurd h (by decide)

namespace OpenQuote

theorem behind_cons
    (quote : OpenQuote)
    (b : UInt8)
    (rest : Text) :
    behind quote (b :: rest) = behind (after quote b) rest :=
  rfl

theorem behind_append
    (quote : OpenQuote)
    (s rest : Text) :
    behind quote (s ++ rest) = behind (behind quote s) rest :=
  List.foldl_append

/- Only its own mark closes a quote. -/
theorem after_of_ne
    (h : b ≠ mark) :
    after (some mark) b = some mark :=
  if_neg h

/- A quote stays open where its mark does not stand. -/
theorem behind_of_not_mem
    (h : mark ∉ s) :
    behind (some mark) s = some mark := by
  induction s with
  | nil => rfl
  | cons b rest ih =>
      rw [List.mem_cons, not_or] at h
      rw [behind_cons, after_of_ne (Ne.symm h.1), ih h.2]

/- No quote is open to begin with. -/
theorem isQuote_of_mem_none :
    ∀ opened ∈ (none : OpenQuote),
      Text.isQuote opened = true := by
  intro opened hOpened
  cases hOpened

/- What is open is a quote. -/
theorem isQuote_of_behind
    (hQuote : ∀ opened ∈ quote, Text.isQuote opened = true)
    (h : behind quote s = some mark) :
    Text.isQuote mark = true := by
  induction s generalizing quote with
  | nil => exact hQuote mark h
  | cons b rest ih =>
      refine ih ?_ h
      intro opened hOpened
      cases quote with
      | some current =>
          rw [after] at hOpened
          split at hOpened
          · cases hOpened
          · exact hQuote opened hOpened
      | none =>
          rw [after] at hOpened
          split at hOpened
          · rename_i hOpens
            cases hOpened
            exact hOpens
          · cases hOpened

/- Text without quotes neither opens nor closes one. -/
theorem behind_of_plain
    (hQuote : ∀ opened ∈ quote, Text.isQuote opened = true)
    (hPlain : ∀ b ∈ s, Text.isQuote b = false) :
    behind quote s = quote := by
  cases quote with
  | some mark =>
      apply behind_of_not_mem
      intro hMem
      have hClosing := hPlain mark hMem
      rw [hQuote mark rfl] at hClosing
      cases hClosing
  | none =>
      induction s with
      | nil => rfl
      | cons b rest ih =>
          rw [List.forall_mem_cons] at hPlain
          rw [behind_cons, after, hPlain.1,
            if_neg Bool.false_ne_true, ih hPlain.2]

/- Blanks do so even less. -/
theorem behind_of_allBlank
    (hQuote : ∀ opened ∈ quote, Text.isQuote opened = true)
    (hBlank : s.AllBlank) :
    behind quote s = quote :=
  behind_of_plain hQuote fun b hMem =>
    (isQuote_of_isBlank (hBlank b hMem)).1

end OpenQuote

------------------------------------------------------------
-- Pairs of Quotes
------------------------------------------------------------

/-
  Each quote is closed by the next mark of its kind; what
  stands between the two does not count.
-/
inductive QuotesPaired : Text → Prop where
  | nil : QuotesPaired []
  | plain
      {b : UInt8}
      {rest : Text}
      (hPlain : Text.isQuote b = false)
      (hRest : QuotesPaired rest) :
      QuotesPaired (b :: rest)
  | quoted
      {mark : UInt8}
      {inside rest : Text}
      (hMark : Text.isQuote mark = true)
      (hInside : mark ∉ inside)
      (hRest : QuotesPaired rest) :
      QuotesPaired (mark :: (inside ++ mark :: rest))

/- Behind pairs of quotes none is open. -/
theorem QuotesPaired.behind_eq
    (h : QuotesPaired s) :
    OpenQuote.behind none s = none := by
  induction h with
  | nil => rfl
  | @plain b rest hPlain hRest ih =>
      rw [OpenQuote.behind_cons, OpenQuote.after, hPlain,
        if_neg Bool.false_ne_true, ih]
  | @quoted mark inside rest hMark hInside hRest ih =>
      have hOpens : OpenQuote.after none mark = some mark :=
        if_pos hMark
      have hCloses : OpenQuote.after (some mark) mark = none :=
        if_pos rfl
      rw [OpenQuote.behind_cons, hOpens, OpenQuote.behind_append,
        OpenQuote.behind_of_not_mem hInside,
        OpenQuote.behind_cons, hCloses, ih]

/-
  Where no quote is open at the end, an open one is closed on
  the way, and everything else comes in pairs.
-/
theorem paired_of_behind
    (s : Text) :
    (OpenQuote.behind none s = none → QuotesPaired s) ∧
      ∀ mark,
        OpenQuote.behind (some mark) s = none →
          ∃ inside rest,
            s = inside ++ mark :: rest ∧ mark ∉ inside ∧
              QuotesPaired rest := by
  induction s with
  | nil => exact ⟨fun _ => .nil, nofun⟩
  | cons b rest ih =>
      constructor
      · intro hNone
        rw [OpenQuote.behind_cons] at hNone
        cases hQuote : Text.isQuote b with
        | true =>
            have hOpens : OpenQuote.after none b = some b :=
              if_pos hQuote
            rw [hOpens] at hNone
            rcases ih.2 b hNone with
              ⟨inside, later, rfl, hInside, hLater⟩
            exact .quoted hQuote hInside hLater
        | false =>
            have hStays : OpenQuote.after none b = none :=
              if_neg (Bool.eq_false_iff.mp hQuote)
            rw [hStays] at hNone
            exact .plain hQuote (ih.1 hNone)
      · intro mark hClosed
        rw [OpenQuote.behind_cons] at hClosed
        by_cases hMark : b = mark
        · subst hMark
          have hCloses : OpenQuote.after (some b) b = none :=
            if_pos rfl
          rw [hCloses] at hClosed
          exact ⟨[], rest, rfl, List.not_mem_nil, ih.1 hClosed⟩
        · rw [OpenQuote.after_of_ne hMark] at hClosed
          rcases ih.2 mark hClosed with
            ⟨inside, later, rfl, hInside, hLater⟩
          refine ⟨b :: inside, later, rfl, ?_, hLater⟩
          rw [List.mem_cons, not_or]
          exact ⟨Ne.symm hMark, hInside⟩

/- Quotes come in pairs exactly if none is open at the end. -/
theorem quotesPaired_iff :
    QuotesPaired s ↔ OpenQuote.behind none s = none :=
  ⟨QuotesPaired.behind_eq, (paired_of_behind s).1⟩

instance : Decidable (QuotesPaired s) :=
  decidable_of_iff' _ quotesPaired_iff

------------------------------------------------------------
-- Comments
------------------------------------------------------------

/- Text without a number sign is no comment. -/
theorem beforeComment_append
    (h : 0x23 ∉ s)
    (quote : OpenQuote)
    (rest : Text) :
    beforeComment quote (s ++ rest) =
      s ++ beforeComment (quote.behind s) rest := by
  induction s generalizing quote with
  | nil => rfl
  | cons b tail ih =>
      rw [List.mem_cons, not_or] at h
      rw [List.cons_append, beforeComment,
        if_neg (fun hStarts => h.1 hStarts.2.symm), ih h.2]
      rfl

/- Behind an open quote no byte starts a comment. -/
theorem beforeComment_cons_of_open
    (mark b : UInt8)
    (rest : Text) :
    beforeComment (some mark) (b :: rest) =
      b :: beforeComment (OpenQuote.after (some mark) b) rest :=
  if_neg fun hStarts => Option.some_ne_none mark hStarts.1

/- A number sign between quotes starts none. -/
theorem beforeComment_inside
    (h : mark ∉ s)
    (rest : Text) :
    beforeComment (some mark) (s ++ rest) =
      s ++ beforeComment (some mark) rest := by
  induction s with
  | nil => rfl
  | cons b tail ih =>
      rw [List.mem_cons, not_or] at h
      rw [List.cons_append, beforeComment_cons_of_open,
        OpenQuote.after_of_ne (Ne.symm h.1), ih h.2]
      rfl

/- Blanks neither start a comment nor change what is open. -/
theorem beforeComment_blanks
    {gap : Text}
    (hGap : gap.AllBlank)
    (quote : OpenQuote)
    (hQuote : ∀ opened ∈ quote, Text.isQuote opened = true)
    (rest : Text) :
    beforeComment quote (gap ++ rest) =
      gap ++ beforeComment quote rest := by
  have hNone : 0x23 ∉ gap :=
    fun hMem => (isQuote_of_isBlank (hGap _ hMem)).2 rfl
  rw [beforeComment_append hNone,
    OpenQuote.behind_of_allBlank hQuote hGap]

/- A comment starts in a text, or what follows is read as well. -/
theorem beforeComment_append_cases
    (quote : OpenQuote)
    (s rest : Text) :
    beforeComment quote (s ++ rest) = beforeComment quote s ∨
      beforeComment quote s = s ∧
        beforeComment quote (s ++ rest) =
          s ++ beforeComment (quote.behind s) rest := by
  induction s generalizing quote with
  | nil => exact .inr ⟨rfl, rfl⟩
  | cons b tail ih =>
      rw [List.cons_append, beforeComment, beforeComment]
      split
      · exact .inl rfl
      · rcases ih (quote.after b) with hCut | ⟨hWhole, hMore⟩
        · exact .inl (congrArg (b :: ·) hCut)
        · refine .inr ⟨congrArg (b :: ·) hWhole, ?_⟩
          rw [hMore]
          rfl

/- It does not matter whether blanks at the end are read. -/
theorem trimRight_beforeComment
    (quote : OpenQuote)
    (s : Text) :
    Text.trimRight (beforeComment quote (Text.trimRight s)) =
      Text.trimRight (beforeComment quote s) := by
  rcases Text.exists_trimRight s with ⟨blanks, hBlank, hSplit⟩
  have hBlanks :
      ∀ opened : OpenQuote, beforeComment opened blanks = blanks := by
    intro opened
    have hNone : 0x23 ∉ blanks :=
      fun hMem => (isQuote_of_isBlank (hBlank _ hMem)).2 rfl
    have hRead := beforeComment_append hNone opened []
    rw [List.append_nil] at hRead
    rw [hRead]
    exact List.append_nil _
  have hCases :=
    beforeComment_append_cases quote (Text.trimRight s) blanks
  rw [← hSplit, hBlanks] at hCases
  rcases hCases with hCut | ⟨hWhole, hMore⟩
  · rw [hCut]
  · rw [hWhole, hMore, Text.trimRight_append hBlank]

end DocumentMapper
