import DocumentMapper.Text.Basic

/-
  Blanks around a text, and quotes around a value.

  Key definitions include:
    * `Text.isBlank`
    * `Text.trimLeft`, `Text.trimRight`, `Text.trim`
    * `Text.unquote`
-/

namespace DocumentMapper

namespace Text

------------------------------------------------------------
-- Trimming
------------------------------------------------------------

/- Space, tab, line feed, vertical tab, form feed and carriage return. -/
def isBlank
    (b : UInt8) : Bool :=
  b = 0x20 ∨ (0x09 ≤ b ∧ b ≤ 0x0D)

/- The text without blanks in front. -/
def trimLeft
    (s : Text) : Text :=
  s.dropWhile isBlank

/- The text without blanks at its end. -/
def trimRight
    (s : Text) : Text :=
  (s.reverse.dropWhile isBlank).reverse

/- The text without blanks around it. -/
def trim
    (s : Text) : Text :=
  trimRight (trimLeft s)

------------------------------------------------------------
-- Quotes
------------------------------------------------------------

/- The single and the double quote. -/
def isQuote
    (b : UInt8) : Bool :=
  b = 0x22 ∨ b = 0x27

/- The text without the last byte, if that is `mark`. -/
def dropLast?
    (mark : UInt8)
    (s : Text) : Option Text :=
  if s.getLast? = some mark then some s.dropLast else none

/-
  The trimmed text without one pair of equal quotes around
  it; a single quote mark is no pair.
-/
def unquote
    (s : Text) : Text :=
  match trim s with
  | [] => []
  | b :: rest =>
      if isQuote b then
        (dropLast? b rest).getD (b :: rest)
      else
        b :: rest

end Text

end DocumentMapper
