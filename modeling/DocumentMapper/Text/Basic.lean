/-
  Byte strings, the text type of the whole library.

  Identifiers, attribute names, payloads and messages come
  from outside and need not be valid UTF-8, so a text is a
  plain list of bytes. Texts are ordered byte by byte.

  Key definitions include:
    * `Text`
    * `Text.lit`
    * `Text.quoted`
    * `Text.stripPrefix?`
    * `Text.split`
    * `Text.beforeZero`
-/

namespace DocumentMapper

------------------------------------------------------------
-- Texts
------------------------------------------------------------

/- A text is a list of bytes, with no promise that they are UTF-8. -/
abbrev Text := List UInt8

namespace Text

/- The UTF-8 bytes of a literal. -/
def lit
    (s : String) : Text :=
  s.toList.flatMap String.utf8EncodeChar

/-
  A text between single quotes, as messages show names and
  identifiers.
-/
def quoted
    (s : Text) : Text :=
  lit "'" ++ s ++ lit "'"

/- The rest of `s` behind `start`, if `s` begins with it. -/
def stripPrefix?
    (start s : Text) : Option Text :=
  match start, s with
  | [], rest => some rest
  | _ :: _, [] => none
  | a :: start, b :: rest =>
      if a = b then stripPrefix? start rest else none

/-
  Cut a text at the first occurrence of a byte; the byte
  itself is dropped.
-/
def cutAt?
    (mark : UInt8)
    (s : Text) : Option (Text × Text) :=
  match s with
  | [] => none
  | b :: rest =>
      if b = mark then
        some ([], rest)
      else
        (cutAt? mark rest).map fun (before, after) =>
          (b :: before, after)

/-
  The pieces of a text between occurrences of a byte; there
  is always one piece more than there are occurrences.
-/
def split
    (mark : UInt8)
    (s : Text) : List Text :=
  match s with
  | [] => [[]]
  | b :: rest =>
      if b = mark then
        [] :: split mark rest
      else
        match split mark rest with
        | [] => [[b]]
        | piece :: pieces => (b :: piece) :: pieces

/-
  The part of a text before its first zero byte, which is all
  that readers see who take such a byte for the end.
-/
def beforeZero
    (s : Text) : Text :=
  s.takeWhile fun b => b ≠ 0

/- ASCII `a` to `z` become upper case; every other byte stays. -/
def upperAscii
    (s : Text) : Text :=
  s.map fun b =>
    if 0x61 ≤ b ∧ b ≤ 0x7A then b - 0x20 else b

------------------------------------------------------------
-- Laws of Cutting
------------------------------------------------------------

/- A text begins with `start` exactly when it is `start` and the rest. -/
theorem stripPrefix?_eq_some_iff
    {start s rest : Text} :
    stripPrefix? start s = some rest ↔
      s = start ++ rest := by
  induction start generalizing s with
  | nil => simp [stripPrefix?, eq_comm]
  | cons a start ih =>
      cases s with
      | nil => simp [stripPrefix?]
      | cons b s =>
          by_cases h : a = b
          · subst h
            simp [stripPrefix?, ih]
          · simp [stripPrefix?, h, Ne.symm h]

/- A cut loses nothing but the mark, and cuts at its first occurrence. -/
theorem cutAt?_eq_some_iff
    {mark : UInt8}
    {s before after : Text} :
    cutAt? mark s = some (before, after) ↔
      s = before ++ mark :: after ∧ mark ∉ before := by
  induction s generalizing before with
  | nil => simp [cutAt?]
  | cons b s ih =>
      by_cases h : b = mark
      · subst h
        cases before with
        | nil => simp [cutAt?, eq_comm]
        | cons c before =>
            simp [cutAt?]
            grind
      · cases before with
        | nil => simp [cutAt?, h]
        | cons c before =>
            simp [cutAt?, h, ih]
            grind

end Text

end DocumentMapper
