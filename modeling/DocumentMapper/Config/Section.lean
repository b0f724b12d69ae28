import DocumentMapper.Text.Blank
import DocumentMapper.TextMap

/-
  Configuration files: `key = value` lines under section
  headers.

  A section `[s]` may be opened any number of times. Before
  the first header, a key `s.k` belongs to the section `s` as
  well. Of two values for a key the later one counts. Lines
  of no known form are ignored.

  Key definitions include:
    * `ConfigLine`, `ConfigLine.read`
    * `readSection`
    * `readSetting`
-/

namespace DocumentMapper

------------------------------------------------------------
-- Lines
------------------------------------------------------------

/- What a line of a configuration file says. -/
inductive ConfigLine where
  | ignored
  | header (name : Text)
  | setting (key value : Text)
  deriving DecidableEq, Repr

/- Quoted text is open, with the mark that closes it, or not. -/
abbrev OpenQuote := Option UInt8

/- The quote that is open behind a byte. -/
def OpenQuote.after
    (quote : OpenQuote)
    (b : UInt8) : OpenQuote :=
  match quote with
  | some mark => if b = mark then none else some mark
  | none => if Text.isQuote b then some b else none

/- The part of a value before a `#` that stands outside of quotes. -/
def beforeComment
    (quote : OpenQuote)
    (s : Text) : Text :=
  match s with
  | [] => []
  | b :: rest =>
      if quote = none ∧ b = 0x23 then
        []
      else
        b :: beforeComment (quote.after b) rest

/- The value behind the equals sign of a line. -/
def readConfigValue
    (s : Text) : Text :=
  Text.unquote (Text.trim (beforeComment none s))

/- Read a line. -/
def ConfigLine.read
    (line : Text) : ConfigLine :=
  match Text.trim line with
  | [] => .ignored
  | 0x23 :: _ => .ignored
  | 0x5B :: rest =>
      match Text.cutAt? 0x5D rest with
      | some (name, _) => .header (Text.trim name)
      | none => .ignored
  | line =>
      match Text.cutAt? 0x3D line with
      | some (key, value) =>
          .setting (Text.trim key) (readConfigValue value)
      | none => .ignored

------------------------------------------------------------
-- Sections
------------------------------------------------------------

/-
  The name under which a setting belongs to a section, read
  while `current` is open.
-/
def settingName?
    (sectionName current key : Text) : Option Text :=
  if current = sectionName then
    some key
  else if current = [] then
    Text.stripPrefix? (sectionName ++ Text.lit ".") key
  else
    none

/- The settings of a section in lines read while `current` is open. -/
def collectSection
    (sectionName current : Text)
    (found : TextMap Text)
    (lines : List ConfigLine) : TextMap Text :=
  match lines with
  | [] => found
  | .ignored :: lines =>
      collectSection sectionName current found lines
  | .header name :: lines =>
      collectSection sectionName name found lines
  | .setting key value :: lines =>
      let found :=
        match settingName? sectionName current key with
        | some name => found.insert name value
        | none => found
      collectSection sectionName current found lines

/-
  The settings of one section of a file; before any header the
  section without name is open.
-/
def readSection
    (content sectionName : Text) : TextMap Text :=
  collectSection sectionName [] .empty
    ((Text.split 0x0A content).map ConfigLine.read)

/- One setting of a section; empty when it is absent. -/
def readSetting
    (content sectionName key : Text) : Text :=
  ((readSection content sectionName).get? key).getD []

end DocumentMapper
