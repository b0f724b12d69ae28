import DocumentMapper.Proofs.Association
import DocumentMapper.Proofs.Json.Numerals
import DocumentMapper.Proofs.Json.Strings

/-
  Values that are written and read back.

  The text of every printable value can be read. A value that
  survives is read as its normal form.

  Main statements include:
    * `Json.readValue?_render`
    * `Json.parse?_render_reread`, `Json.parse?_of_eq_render`
    * `Json.parse?_render`
-/

namespace DocumentMapper

namespace Json

------------------------------------------------------------
-- First Bytes
------------------------------------------------------------

/- A byte that opens a value: no blank, no mark, no bracket. -/
structure Opens (b : UInt8) : Prop where
  notBlank : isBlank b = false
  notBracket : b ≠ 0x5D
  notMark : b ≠ 0xEF

/- A text that begins with a byte that opens a value. -/
def OpensText
    (s : Text) : Prop :=
  ∃ b tail, s = b :: tail ∧ Opens b

/- A byte that a number begins with. -/
def OpensNumber
    (b : UInt8) : Prop :=
  b = 0x2D ∨ Text.isDigit b = true

/- No other byte opens a number. -/
theorem OpensNumber.ne
    {b : UInt8}
    (h : OpensNumber b)
    (c : UInt8)
    (hMinus : c ≠ 0x2D)
    (hDigit : Text.isDigit c = false) :
    b ≠ c := by
  rintro rfl
  rcases h with hSame | hSame
  · exact hMinus hSame
  · rw [hDigit] at hSame
    cases hSame

/- Numbers are values. -/
theorem OpensNumber.opens
    {b : UInt8}
    (h : OpensNumber b) :
    Opens b where
  notBlank := by
    simp [isBlank, h.ne 0x20 (by decide) (by decide),
      h.ne 0x09 (by decide) (by decide),
      h.ne 0x0A (by decide) (by decide),
      h.ne 0x0D (by decide) (by decide)]
  notBracket := h.ne _ (by decide) (by decide)
  notMark := h.ne _ (by decide) (by decide)

/- What is read as a number begins with a digit or a minus sign. -/
theorem head_of_readNumeral?
    {s : Text}
    {result : Numeral × Text}
    (h : readNumeral? s = some result) :
    ∃ b tail, s = b :: tail ∧ OpensNumber b := by
  cases s with
  | nil => simp [readNumeral?, readMinus, readDigits?] at h
  | cons b tail =>
      refine ⟨b, tail, rfl, ?_⟩
      by_cases hMinus : b = 0x2D
      · exact .inl hMinus
      · right
        by_contra hDigit
        have hStart : readMinus (b :: tail) = (false, b :: tail) := by
          unfold readMinus
          split
          · simp_all
          · rfl
        simp [readNumeral?, hStart, readDigits?, hDigit] at h

/- The text of a number begins with a digit or a minus sign. -/
theorem ReadsNumber.head
    {j : Json}
    (h : ReadsNumber j) :
    ∃ b tail, j.render = b :: tail ∧ OpensNumber b := by
  obtain ⟨n, hRead, -⟩ := h [] (by simp [Follows])
  rw [List.append_nil] at hRead
  exact head_of_readNumeral? hRead

/- The text of a value begins with a byte that opens values. -/
theorem opensText_render
    (j : Json) :
    OpensText j.render := by
  have hNumber :
      ReadsNumber j → OpensText j.render := by
    intro h
    rcases h.head with ⟨b, tail, hText, hByte⟩
    exact ⟨b, tail, hText, hByte.opens⟩
  cases j with
  | null => exact ⟨0x6E, _, rfl, ⟨rfl, by decide, by decide⟩⟩
  | bool b =>
      cases b with
      | true => exact ⟨0x74, _, rfl, ⟨rfl, by decide, by decide⟩⟩
      | false => exact ⟨0x66, _, rfl, ⟨rfl, by decide, by decide⟩⟩
  | unsigned n => exact hNumber (readsNumber_unsigned n)
  | signed n => exact hNumber (readsNumber_signed n)
  | real x =>
      by_cases hFinite : x.isFinite = true
      · exact hNumber (readsNumber_real hFinite)
      · refine ⟨0x6E, Text.lit "ull", ?_,
          ⟨rfl, by decide, by decide⟩⟩
        rw [render, renderReal, if_neg hFinite]
        decide
  | string s => exact ⟨0x22, _, rfl, ⟨rfl, by decide, by decide⟩⟩
  | array items =>
      refine ⟨0x5B, renderItems items ++ [0x5D], ?_,
        ⟨rfl, by decide, by decide⟩⟩
      rw [render]
      rfl
  | object members =>
      refine ⟨0x7B, renderMembers members ++ [0x7D], ?_,
        ⟨rfl, by decide, by decide⟩⟩
      rw [render]
      rfl

/- There are no blanks before a value. -/
theorem skipBlanks_of_opensText
    {s : Text}
    (h : OpensText s)
    (rest : Text) :
    skipBlanks (s ++ rest) = s ++ rest := by
  rcases h with ⟨b, tail, rfl, hOpens⟩
  simp [skipBlanks, hOpens.notBlank]

------------------------------------------------------------
-- Scalars
------------------------------------------------------------

/- The text of a number is read as its normal form. -/
theorem readValue?_number
    {j : Json}
    {rest : Text}
    (h : ReadsNumber j)
    (hFollows : Follows rest)
    (fuel : Nat) :
    readValue? (fuel + 1) (j.render ++ rest) =
      some (j.normal, rest) := by
  rcases h rest hFollows with ⟨n, hRead, hValue⟩
  rcases h.head with ⟨b, tail, hText, hByte⟩
  have hBlanks :=
    skipBlanks_of_opensText ⟨b, tail, hText, hByte.opens⟩ rest
  have hOther :
      ∀ (first : UInt8) (word : Text), b ≠ first →
        Text.stripPrefix? (first :: word) (b :: (tail ++ rest)) =
          none := by
    intro first word hNe
    rw [Text.stripPrefix?, if_neg hNe.symm]
  have hNull := hOther 0x6E (Text.lit "ull")
    (hByte.ne 0x6E (by decide) (by decide))
  have hTrue := hOther 0x74 (Text.lit "rue")
    (hByte.ne 0x74 (by decide) (by decide))
  have hFalse := hOther 0x66 (Text.lit "alse")
    (hByte.ne 0x66 (by decide) (by decide))
  rw [readValue?.eq_def]
  dsimp only
  rw [hBlanks]
  rw [hText, List.cons_append] at hRead ⊢
  split
  · next hText =>
      exact absurd (List.cons.inj hText).1
        (hByte.ne 0x22 (by decide) (by decide))
  · next hText =>
      exact absurd (List.cons.inj hText).1
        (hByte.ne 0x5B (by decide) (by decide))
  · next hText =>
      exact absurd (List.cons.inj hText).1
        (hByte.ne 0x7B (by decide) (by decide))
  · have hWord : Text.lit "null" = 0x6E :: Text.lit "ull" := by
      decide
    have hWord' : Text.lit "true" = 0x74 :: Text.lit "rue" := by
      decide
    have hWord'' : Text.lit "false" = 0x66 :: Text.lit "alse" := by
      decide
    rw [hWord, hNull, hWord', hTrue, hWord'', hFalse, hRead]
    simp [hValue]

/- The text of null is read as null. -/
theorem readValue?_null
    (fuel : Nat)
    (rest : Text) :
    readValue? (fuel + 1) (Json.null.render ++ rest) =
      some (.null, rest) := by
  rw [readValue?.eq_def]
  rfl

/- The text of a truth value is read as that value. -/
theorem readValue?_bool
    (b : Bool)
    (fuel : Nat)
    (rest : Text) :
    readValue? (fuel + 1) ((Json.bool b).render ++ rest) =
      some (.bool b, rest) := by
  rw [readValue?.eq_def]
  cases b <;> rfl

/- The text of a string is read as the string. -/
theorem readValue?_string
    {s : Text}
    (hUtf8 : s.isUtf8 = true)
    (fuel : Nat)
    (rest : Text) :
    readValue? (fuel + 1) ((Json.string s).render ++ rest) =
      some (.string s, rest) := by
  have hText :
      (Json.string s).render ++ rest =
        0x22 :: (s.flatMap escapeByte ++ 0x22 :: rest) := by
    simp [render, renderString]
  rw [hText, readValue?.eq_def]
  show (readString? _ >>= _) = _
  rw [readString?_escaped rest hUtf8]
  rfl

------------------------------------------------------------
-- Arrays and Objects
------------------------------------------------------------

/- Items are separated by a comma. -/
theorem renderItems_cons_cons
    (item next : Json)
    (rest : List Json) :
    renderItems (item :: next :: rest) =
      item.render ++ 0x2C :: renderItems (next :: rest) := by
  rw [renderItems]
  simp

/- Members are separated by a comma. -/
theorem renderMembers_cons_cons
    (key : Text)
    (value : Json)
    (next : Text × Json)
    (rest : List (Text × Json)) :
    renderMembers ((key, value) :: next :: rest) =
      renderString key ++ 0x3A :: value.render ++
        0x2C :: renderMembers (next :: rest) := by
  rw [renderMembers]
  simp

/- The text of items begins with a byte that opens a value. -/
theorem opensText_renderItems
    {items : List Json}
    (hSome : items ≠ []) :
    OpensText (renderItems items) := by
  rcases items with _ | ⟨item, rest⟩
  · exact absurd rfl hSome
  · rcases opensText_render item with ⟨b, tail, hText, hOpens⟩
    cases rest with
    | nil => exact ⟨b, tail, hText, hOpens⟩
    | cons next rest =>
        refine ⟨b, tail ++ 0x2C :: renderItems (next :: rest),
          ?_, hOpens⟩
        rw [renderItems_cons_cons, hText]
        rfl

/- The text of members begins with a quote. -/
theorem renderMembers_eq_cons
    {members : List (Text × Json)}
    (hSome : members ≠ []) :
    ∃ tail, renderMembers members = 0x22 :: tail := by
  rcases members with _ | ⟨⟨key, value⟩, _ | ⟨next, rest⟩⟩
  · exact absurd rfl hSome
  · exact ⟨_, rfl⟩
  · exact ⟨_, rfl⟩

mutual

/-
  The text of a printable value can be read. Every value takes
  two readers for each of its bytes at most, one for itself
  and one for its place in a list.
-/
theorem readValue?_render
    {j : Json}
    {rest : Text}
    {fuel : Nat}
    (hPrintable : j.printable = true)
    (hFollows : Follows rest)
    (hFuel : 2 * j.render.length ≤ fuel) :
    readValue? fuel (j.render ++ rest) = some (j.reread, rest) := by
  have hPositive : 0 < j.render.length := by
    rcases opensText_render j with ⟨b, tail, hText, -⟩
    rw [hText]
    exact Nat.succ_pos _
  obtain ⟨fuel, rfl⟩ : ∃ n, fuel = n + 1 :=
    ⟨fuel - 1, by omega⟩
  cases j with
  | null => exact readValue?_null fuel rest
  | bool b => exact readValue?_bool b fuel rest
  | unsigned n =>
      exact readValue?_number (readsNumber_unsigned n) hFollows fuel
  | signed n =>
      rw [reread, ← normal]
      exact readValue?_number (readsNumber_signed n) hFollows fuel
  | real x =>
      by_cases hFinite : x.isFinite = true
      · rw [reread, if_pos hFinite]
        exact readValue?_number (readsNumber_real hFinite)
          hFollows fuel
      · rw [reread, if_neg hFinite, render, renderReal,
          if_neg hFinite]
        exact readValue?_null fuel rest
  | string s => exact readValue?_string hPrintable fuel rest
  | array items =>
      rw [printable] at hPrintable
      rw [render, List.length_append, List.length_cons,
        List.length_singleton] at hFuel
      have hText :
          (Json.array items).render ++ rest =
            0x5B :: (renderItems items ++ 0x5D :: rest) := by
        simp [render]
      by_cases hSome : items = []
      · subst hSome
        rw [hText, readValue?.eq_def]
        rfl
      · have hItems :
            readItems? fuel (renderItems items ++ 0x5D :: rest) =
              some (rereadItems items, rest) :=
          readItems?_render hSome hPrintable rest (by omega)
        have hOpens := opensText_renderItems hSome
        have hBlanks :=
          skipBlanks_of_opensText hOpens (0x5D :: rest)
        rcases hOpens with ⟨b, tail, hFirst, hByte⟩
        have hOpen :
            ∀ s : Text, skipBlanks (0x5B :: s) = 0x5B :: s :=
          fun _ => rfl
        rw [hText, readValue?.eq_def]
        simp only [hOpen, hBlanks]
        rw [hFirst] at hItems ⊢
        split
        · next hEmpty =>
            exact absurd (List.cons.inj hEmpty).1 hByte.notBracket
        · rw [hItems]
          rfl
  | object members =>
      rw [printable] at hPrintable
      rw [render, List.length_append, List.length_cons,
        List.length_singleton] at hFuel
      have hText :
          (Json.object members).render ++ rest =
            0x7B :: (renderMembers members ++ 0x7D :: rest) := by
        simp [render]
      by_cases hSome : members = []
      · subst hSome
        rw [hText, readValue?.eq_def]
        rfl
      · have hRead :
            readMembers? fuel
                (renderMembers members ++ 0x7D :: rest) =
              some (rereadMembers members, rest) :=
          readMembers?_render hSome hPrintable rest (by omega)
        rcases renderMembers_eq_cons hSome with ⟨tail, hFirst⟩
        have hOpen :
            ∀ s : Text, skipBlanks (0x7B :: s) = 0x7B :: s :=
          fun _ => rfl
        have hQuote :
            ∀ s : Text, skipBlanks (0x22 :: s) = 0x22 :: s :=
          fun _ => rfl
        rw [hText, readValue?.eq_def]
        rw [hFirst] at hRead ⊢
        simp only [hOpen, List.cons_append, hQuote]
        rw [List.cons_append] at hRead
        split
        · next hEmpty =>
            exact absurd (List.cons.inj hEmpty).1 (by decide)
        · rw [hRead]
          rfl

/- The text of printable items can be read. -/
theorem readItems?_render
    {items : List Json}
    {fuel : Nat}
    (hSome : items ≠ [])
    (hPrintable : itemsPrintable items = true)
    (rest : Text)
    (hFuel : 2 * (renderItems items).length + 1 ≤ fuel) :
    readItems? fuel (renderItems items ++ 0x5D :: rest) =
      some (rereadItems items, rest) := by
  obtain ⟨fuel, rfl⟩ : ∃ n, fuel = n + 1 :=
    ⟨fuel - 1, by omega⟩
  rcases items with _ | ⟨item, _ | ⟨next, others⟩⟩
  · exact absurd rfl hSome
  · rw [renderItems] at hFuel ⊢
    rw [itemsPrintable, Bool.and_eq_true] at hPrintable
    have hFollows : Follows (0x5D :: rest) := by
      intro b hb
      cases hb
      decide
    have hItem :
        readValue? fuel (item.render ++ 0x5D :: rest) =
          some (item.reread, 0x5D :: rest) :=
      readValue?_render hPrintable.1 hFollows (by omega)
    rw [readItems?, hItem]
    rfl
  · rw [renderItems_cons_cons] at hFuel ⊢
    rw [itemsPrintable, Bool.and_eq_true] at hPrintable
    rw [List.length_append, List.length_cons] at hFuel
    have hFollows :
        Follows (0x2C :: (renderItems (next :: others) ++
          0x5D :: rest)) := by
      intro b hb
      cases hb
      decide
    have hItem :
        readValue? fuel (item.render ++ 0x2C ::
            (renderItems (next :: others) ++ 0x5D :: rest)) =
          some (item.reread, 0x2C ::
            (renderItems (next :: others) ++ 0x5D :: rest)) :=
      readValue?_render hPrintable.1 hFollows (by omega)
    have hOthers :
        readItems? fuel
            (renderItems (next :: others) ++ 0x5D :: rest) =
          some (rereadItems (next :: others), rest) :=
      readItems?_render (by simp) hPrintable.2 rest (by omega)
    have hComma :
        ∀ s : Text, skipBlanks (0x2C :: s) = 0x2C :: s :=
      fun _ => rfl
    rw [List.append_assoc, List.cons_append, readItems?, hItem]
    simp only [Option.bind_eq_bind, Option.bind_some, hComma]
    rw [hOthers]
    rfl

/- The text of printable members can be read. -/
theorem readMembers?_render
    {members : List (Text × Json)}
    {fuel : Nat}
    (hSome : members ≠ [])
    (hPrintable : membersPrintable members = true)
    (rest : Text)
    (hFuel : 2 * (renderMembers members).length + 1 ≤ fuel) :
    readMembers? fuel (renderMembers members ++ 0x7D :: rest) =
      some (rereadMembers members, rest) := by
  obtain ⟨fuel, rfl⟩ : ∃ n, fuel = n + 1 :=
    ⟨fuel - 1, by omega⟩
  have hQuote : ∀ s : Text, skipBlanks (0x22 :: s) = 0x22 :: s :=
    fun _ => rfl
  have hColon : ∀ s : Text, skipBlanks (0x3A :: s) = 0x3A :: s :=
    fun _ => rfl
  have hComma : ∀ s : Text, skipBlanks (0x2C :: s) = 0x2C :: s :=
    fun _ => rfl
  have hClose : ∀ s : Text, skipBlanks (0x7D :: s) = 0x7D :: s :=
    fun _ => rfl
  rcases members with _ | ⟨⟨key, value⟩, _ | ⟨next, others⟩⟩
  · exact absurd rfl hSome
  · rw [renderMembers] at hFuel ⊢
    rw [membersPrintable, Bool.and_eq_true,
      Bool.and_eq_true] at hPrintable
    rw [List.length_append, List.length_cons] at hFuel
    have hFollows : Follows (0x7D :: rest) := by
      intro b hb
      cases hb
      decide
    have hValue :
        readValue? fuel (value.render ++ 0x7D :: rest) =
          some (value.reread, 0x7D :: rest) :=
      readValue?_render hPrintable.1.2 hFollows (by omega)
    have hKey :=
      readString?_escaped
        (0x3A :: (value.render ++ 0x7D :: rest)) hPrintable.1.1
    have hText :
        renderString key ++ 0x3A :: value.render ++ 0x7D :: rest =
          0x22 :: (key.flatMap escapeByte ++ 0x22 ::
            0x3A :: (value.render ++ 0x7D :: rest)) := by
      simp [renderString]
    rw [hText, readMembers?]
    simp only [hQuote, hKey, Option.bind_eq_bind,
      Option.bind_some, hColon, hValue, hClose]
    rfl
  · rw [renderMembers_cons_cons] at hFuel ⊢
    rw [membersPrintable, Bool.and_eq_true,
      Bool.and_eq_true] at hPrintable
    simp only [List.length_append, List.length_cons] at hFuel
    have hFollows :
        Follows (0x2C :: (renderMembers (next :: others) ++
          0x7D :: rest)) := by
      intro b hb
      cases hb
      decide
    have hValue :
        readValue? fuel (value.render ++ 0x2C ::
            (renderMembers (next :: others) ++ 0x7D :: rest)) =
          some (value.reread, 0x2C ::
            (renderMembers (next :: others) ++ 0x7D :: rest)) :=
      readValue?_render hPrintable.1.2 hFollows (by omega)
    have hOthers :
        readMembers? fuel
            (renderMembers (next :: others) ++ 0x7D :: rest) =
          some (rereadMembers (next :: others), rest) :=
      readMembers?_render (by simp) hPrintable.2 rest (by omega)
    have hKey :=
      readString?_escaped
        (0x3A :: (value.render ++ 0x2C ::
          (renderMembers (next :: others) ++ 0x7D :: rest)))
        hPrintable.1.1
    have hText :
        renderString key ++ 0x3A :: value.render ++
            0x2C :: renderMembers (next :: others) ++
            0x7D :: rest =
          0x22 :: (key.flatMap escapeByte ++ 0x22 ::
            0x3A :: (value.render ++ 0x2C ::
              (renderMembers (next :: others) ++
                0x7D :: rest))) := by
      simp [renderString]
    rw [hText, readMembers?]
    simp only [hQuote, hKey, Option.bind_eq_bind,
      Option.bind_some, hColon, hValue, hComma, hOthers]
    rfl

end

------------------------------------------------------------
-- Whole Texts
------------------------------------------------------------

/- The text of every printable value can be read. -/
theorem parse?_render_reread
    {j : Json}
    (hPrintable : j.printable = true) :
    parse? j.render = some j.reread := by
  have hNoMark : skipMark j.render = j.render := by
    rcases opensText_render j with ⟨b, tail, hText, hOpens⟩
    rw [hText]
    unfold skipMark
    split
    · next hMark =>
        exact absurd (List.cons.inj hMark).1 hOpens.notMark
    · rfl
  have hRead :
      readValue? (2 * j.render.length + 2) (j.render ++ []) =
        some (j.reread, []) :=
    readValue?_render hPrintable (by simp [Follows]) (by omega)
  rw [List.append_nil] at hRead
  rw [parse?, hNoMark, hRead]
  rfl

/- A text that is the one of a printable value is read as it. -/
theorem parse?_of_eq_render
    {s : Text}
    {j : Json}
    (hText : s = j.render)
    (hPrintable : j.printable = true) :
    parse? s = some j.reread := by
  rw [hText]
  exact parse?_render_reread hPrintable

/- The text of a value that survives is read as its normal form. -/
theorem parse?_render
    {j : Json}
    (hPrintable : j.printable = true)
    (hStorable : j.Storable) :
    parse? j.render = some j.normal := by
  rw [← reread_eq_normal hStorable]
  exact parse?_render_reread hPrintable

end Json

end DocumentMapper
