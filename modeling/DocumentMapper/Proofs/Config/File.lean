import DocumentMapper.Proofs.Association
import DocumentMapper.Proofs.Config.Quotes

/-
  Well-formed configuration files, and what is read from them.

  A file is written as its parts: settings before the first
  header, under the name of the section, and then sections,
  which belong to the name that is looked for or to others.
  White space and comments may stand around everything. What
  is read back is what the parts bind, the last value of a
  key counting.

  Key definitions include:
    * `ConfigFile.KeyName`, `ConfigFile.SectionName`
    * `ConfigFile.Entry`, `ConfigFile.Part`
    * `ConfigFile`, `ConfigFile.text`, `ConfigFile.bindings`

  Main statements include:
    * `ConfigFile.read_header`, `ConfigFile.read_setting`
    * `ConfigFile.collect_entries`, `ConfigFile.collect_parts`
    * `ConfigFile.read_back`
-/

namespace DocumentMapper

namespace ConfigFile

------------------------------------------------------------
-- Pieces of Lines
------------------------------------------------------------

/- The byte between lines. -/
abbrev newline : UInt8 :=
  0x0A

/- White space within a line. -/
structure Gap where
  text : Text
  blank : Text.AllBlank text
  inLine : newline ∉ text

/- There is nothing but blanks in a gap. -/
theorem Gap.not_mem
    {b : UInt8}
    (gap : Gap)
    (h : Text.isBlank b = false) :
    b ∉ gap.text := by
  intro hMem
  rw [gap.blank b hMem] at h
  cases h

/- Any text within a line. -/
structure Words where
  text : Text
  inLine : newline ∉ text

/-
  A key: it is not empty, has no white space around it and no
  equals sign, and does not start like a comment or a header.
-/
structure KeyName where
  text : Text
  bare : text.Bare
  inLine : newline ∉ text
  noEquals : 0x3D ∉ text
  noComment : text.head? ≠ some 0x23
  noHeader : text.head? ≠ some 0x5B

/- The name of a section could be a key, and has no bracket. -/
structure SectionName extends KeyName where
  noBracket : 0x5D ∉ text

/- The name of another section. -/
structure ForeignName (s : SectionName) where
  text : Text
  bare : text.Bare
  inLine : newline ∉ text
  noBracket : 0x5D ∉ text
  other : text ≠ s.text

/- A value between two quotes that do not occur in it. -/
structure QuotedValue where
  mark : UInt8
  text : Text
  isQuote : Text.isQuote mark = true
  noMark : mark ∉ text
  inLine : newline ∉ text

/- The value with its quotes. -/
def QuotedValue.quoted
    (value : QuotedValue) : Text :=
  value.mark :: (value.text ++ [value.mark])

/- What may stand at the end of a line: white space and a comment. -/
structure Ending where
  gap : Gap
  comment? : Option Words

/- The ending as it is written. -/
def Ending.text
    (ending : Ending) : Text :=
  ending.gap.text ++
    match ending.comment? with
    | some words => 0x23 :: words.text
    | none => []

------------------------------------------------------------
-- Lines
------------------------------------------------------------

/- What stands around the name in a header. -/
structure Header where
  before : Gap
  opening : Gap
  closing : Gap
  ending : Ending

/- The header of a section, as it is written. -/
def Header.text
    (header : Header)
    (name : Text) : Text :=
  header.before.text ++ [0x5B] ++ header.opening.text ++ name ++
    header.closing.text ++ [0x5D] ++ header.ending.text

/- A key and its value. -/
structure Setting where
  before : Gap
  key : KeyName
  behindKey : Gap
  beforeValue : Gap
  value : QuotedValue
  ending : Ending

/- A setting as it is written, under a name for its key. -/
def Setting.text
    (setting : Setting)
    (name : KeyName) : Text :=
  setting.before.text ++ name.text ++ setting.behindKey.text ++
    [0x3D] ++ setting.beforeValue.text ++ setting.value.quoted ++
    setting.ending.text

/- A line that is not one of another section. -/
inductive Entry where
  | blank (gap : Gap)
  | comment (gap : Gap) (words : Words)
  | setting (line : Setting)

/- An entry as it is written, with its key named in some way. -/
def Entry.text
    (naming : KeyName → KeyName) : Entry → Text
  | .blank gap => gap.text
  | .comment gap words => gap.text ++ 0x23 :: words.text
  | .setting line => line.text (naming line.key)

/- What an entry binds. -/
def Entry.binding? : Entry → Option (Text × Text)
  | .setting line => some (line.key.text, line.value.text)
  | _ => none

/-
  A line that is no header: where it starts with a bracket,
  this is not closed.
-/
structure ForeignLine where
  text : Text
  inLine : newline ∉ text
  noHeader :
    ∀ rest, Text.trim text = 0x5B :: rest → 0x5D ∉ rest

------------------------------------------------------------
-- Files
------------------------------------------------------------

/-
  A section under the name that is looked for, or under
  another one; what stands in another one may be anything.
-/
inductive Part (s : SectionName) where
  | own (header : Header) (entries : List Entry)
  | foreign
      (header : Header)
      (name : ForeignName s)
      (lines : List ForeignLine)

/- The lines of a section. -/
def Part.lines
    {s : SectionName} : Part s → List Text
  | .own header entries =>
      header.text s.text :: entries.map (Entry.text id)
  | .foreign header name lines =>
      header.text name.text :: lines.map (·.text)

/- What a section binds for the name that is looked for. -/
def Part.bindings
    {s : SectionName} : Part s → List (Text × Text)
  | .own _ entries => entries.filterMap Entry.binding?
  | .foreign _ _ _ => []

/- The key of a section, as it is written at the top of a file. -/
def SectionName.dotted
    (s : SectionName)
    (key : KeyName) : KeyName where
  text := s.text ++ 0x2E :: key.text
  bare := by
    rcases s.bare.exists_cons with ⟨first, rest, hFirst, hBlank⟩
    rcases key.bare.exists_concat with ⟨init, last, hLast, hEnd⟩
    have hEnds := Text.bare_of_ends hBlank hEnd (rest ++ 0x2E :: init)
    rw [hFirst, hLast]
    simpa using hEnds
  inLine := by
    simp [newline, s.inLine, key.inLine]
  noEquals := by
    simp [s.noEquals, key.noEquals]
  noComment := by
    have hFirst := s.noComment
    rcases s.bare.exists_cons with ⟨first, rest, hText, -⟩
    rw [hText] at hFirst ⊢
    exact hFirst
  noHeader := by
    have hFirst := s.noHeader
    rcases s.bare.exists_cons with ⟨first, rest, hText, -⟩
    rw [hText] at hFirst ⊢
    exact hFirst

end ConfigFile

/-
  A file around a section: entries at its top, under the name
  of the section, and sections behind them.
-/
structure ConfigFile (s : ConfigFile.SectionName) where
  top : List ConfigFile.Entry
  parts : List (ConfigFile.Part s)

namespace ConfigFile

variable {s : SectionName}

/- The lines of a file. -/
def lines
    (file : ConfigFile s) : List Text :=
  file.top.map (Entry.text s.dotted) ++
    file.parts.flatMap (·.lines)

/- The text of a file: its lines with a newline between them. -/
def text
    (file : ConfigFile s) : Text :=
  [newline].intercalate file.lines

/- All that a file binds for the section, in order. -/
def bindings
    (file : ConfigFile s) : List (Text × Text) :=
  file.top.filterMap Entry.binding? ++
    file.parts.flatMap (·.bindings)

------------------------------------------------------------
-- Reading Lines
------------------------------------------------------------

/- What stands between quotes is no comment. -/
theorem beforeComment_quoted
    (value : QuotedValue)
    (rest : Text) :
    beforeComment none (value.quoted ++ rest) =
      value.quoted ++ beforeComment none rest := by
  have hOpens : OpenQuote.after none value.mark =
      some value.mark :=
    if_pos value.isQuote
  have hCloses : OpenQuote.after (some value.mark) value.mark =
      none :=
    if_pos rfl
  -- inside of the quotes, a number sign or the other quote is text
  have hInside := beforeComment_inside value.noMark
  rw [QuotedValue.quoted, List.cons_append, beforeComment,
    if_neg (fun h => ne_numberSign_of_isQuote value.isQuote h.2),
    hOpens, List.append_assoc, hInside, List.singleton_append,
    beforeComment_cons_of_open, hCloses]
  simp

/- Of an ending, blanks are left at most. -/
theorem beforeComment_ending
    (ending : Ending) :
    (beforeComment none (Text.trimRight ending.text)).AllBlank := by
  rcases ending with ⟨gap, _ | words⟩
  · rw [Ending.text, List.append_nil,
      Text.trimRight_of_allBlank gap.blank]
    exact nofun
  · rw [Ending.text, Text.trimRight_append_cons (by decide),
      beforeComment_blanks gap.blank none
        OpenQuote.isQuote_of_mem_none, beforeComment,
      if_pos ⟨rfl, rfl⟩, List.append_nil]
    exact gap.blank

/- A quoted value is read, whatever stands around it. -/
theorem readConfigValue_quoted
    (gap : Gap)
    (value : QuotedValue)
    (ending : Ending) :
    readConfigValue
        (gap.text ++
          (value.quoted ++ Text.trimRight ending.text)) =
      value.text := by
  have hBare : value.quoted.Bare :=
    Text.bare_quoted value.isQuote value.text
  rw [readConfigValue,
    beforeComment_blanks gap.blank none
      OpenQuote.isQuote_of_mem_none,
    beforeComment_quoted,
    Text.trim_padded gap.blank hBare (beforeComment_ending ending)]
  exact Text.unquote_quoted value.isQuote value.text

/- A bracket that is closed opens a section. -/
theorem read_of_bracket
    {line rest name after : Text}
    (hLine : Text.trim line = 0x5B :: rest)
    (hCut : Text.cutAt? 0x5D rest = some (name, after)) :
    ConfigLine.read line = .header (Text.trim name) := by
  unfold ConfigLine.read
  simp only [hLine, hCut]

/- Other lines with an equals sign are settings. -/
theorem read_of_equals
    {line key value : Text}
    (hNoComment : (Text.trim line).head? ≠ some 0x23)
    (hNoHeader : (Text.trim line).head? ≠ some 0x5B)
    (hCut :
      Text.cutAt? 0x3D (Text.trim line) = some (key, value)) :
    ConfigLine.read line =
      .setting (Text.trim key) (readConfigValue value) := by
  unfold ConfigLine.read
  split
  · rename_i hEmpty
    rw [hEmpty] at hCut
    cases hCut
  · rename_i hLine
    rw [hLine] at hNoComment
    exact absurd rfl hNoComment
  · rename_i hLine
    rw [hLine] at hNoHeader
    exact absurd rfl hNoHeader
  · rw [hCut]

/- Only a bracket that is closed opens a section. -/
theorem ForeignLine.not_header
    (line : ForeignLine)
    (name : Text) :
    ConfigLine.read line.text ≠ .header name := by
  unfold ConfigLine.read
  split
  · nofun
  · nofun
  · rename_i rest hLine
    have hOpen := line.noHeader rest hLine
    cases hCut : Text.cutAt? 0x5D rest with
    | none => nofun
    | some cut =>
        rcases Text.cutAt?_eq_some_iff.mp hCut with ⟨hRest, -⟩
        rw [hRest] at hOpen
        exact absurd (by simp) hOpen
  · split <;> nofun

/- A header is read as the name in it. -/
theorem read_header
    {name : Text}
    (header : Header)
    (hBare : name.Bare)
    (hBracket : 0x5D ∉ name) :
    ConfigLine.read (header.text name) = .header name := by
  have hTrim :
      Text.trim (header.text name) =
        0x5B ::
          ((header.opening.text ++ (name ++ header.closing.text)) ++
            0x5D :: Text.trimRight header.ending.text) := by
    have hBrackets :=
      Text.bare_of_ends (show Text.isBlank 0x5B = false by decide)
        (show Text.isBlank 0x5D = false by decide)
        (header.opening.text ++ (name ++ header.closing.text))
    have hTrimmed :=
      Text.trim_append header.before.blank hBrackets
        header.ending.text
    simpa [Header.text] using hTrimmed
  have hInside :
      0x5D ∉ header.opening.text ++ (name ++ header.closing.text) := by
    have hGap : ∀ gap : Gap, 0x5D ∉ gap.text :=
      fun gap => gap.not_mem (by decide)
    simp [hGap, hBracket]
  rw [read_of_bracket hTrim
      (Text.cutAt?_eq_some_iff.mpr ⟨rfl, hInside⟩),
    Text.trim_padded header.opening.blank hBare
      header.closing.blank]

/-
  A key, an equals sign and some text are a setting; of the
  blanks at the end none are read.
-/
theorem read_assignment
    {value : Text}
    (before behindKey beforeValue : Gap)
    (name : KeyName)
    (hValue : value.Bare)
    (ending : Text) :
    ConfigLine.read
        (before.text ++ name.text ++ behindKey.text ++ [0x3D] ++
          beforeValue.text ++ value ++ ending) =
      .setting name.text
        (readConfigValue
          (beforeValue.text ++
            (value ++ Text.trimRight ending))) := by
  have hTrim :
      Text.trim
          (before.text ++ name.text ++ behindKey.text ++ [0x3D] ++
            beforeValue.text ++ value ++ ending) =
        (name.text ++ behindKey.text) ++
          0x3D :: (beforeValue.text ++
            (value ++ Text.trimRight ending)) := by
    have hBare :
        (name.text ++ behindKey.text ++
          0x3D :: (beforeValue.text ++ value)).Bare := by
      rcases name.bare.exists_cons with ⟨first, rest, hName, hb⟩
      rcases hValue.exists_concat with ⟨init, last, hLast, hEnd⟩
      have hEnds :=
        Text.bare_of_ends hb hEnd
          (rest ++ behindKey.text ++
            0x3D :: (beforeValue.text ++ init))
      rw [hName, hLast]
      simpa using hEnds
    have hTrimmed := Text.trim_append before.blank hBare ending
    simpa using hTrimmed
  have hHead :
      (Text.trim
          (before.text ++ name.text ++ behindKey.text ++ [0x3D] ++
            beforeValue.text ++ value ++ ending)).head? =
        name.text.head? := by
    rcases name.bare.exists_cons with ⟨first, rest, hName, -⟩
    rw [hTrim, hName]
    rfl
  have hKey : 0x3D ∉ name.text ++ behindKey.text := by
    have hGap : 0x3D ∉ behindKey.text :=
      behindKey.not_mem (by decide)
    simp [name.noEquals, hGap]
  rw [read_of_equals (hHead ▸ name.noComment)
      (hHead ▸ name.noHeader)
      (Text.cutAt?_eq_some_iff.mpr ⟨hTrim, hKey⟩),
    name.bare.trim_append behindKey.blank]

/- A setting is read under the name of its key. -/
theorem read_setting
    (setting : Setting)
    (name : KeyName) :
    ConfigLine.read (setting.text name) =
      .setting name.text setting.value.text := by
  have hBare : setting.value.quoted.Bare :=
    Text.bare_quoted setting.value.isQuote setting.value.text
  rw [Setting.text, read_assignment _ _ _ name hBare,
    readConfigValue_quoted]

/- White space says nothing. -/
theorem read_blank
    (gap : Gap) :
    ConfigLine.read gap.text = .ignored := by
  unfold ConfigLine.read
  rw [Text.trim_of_allBlank gap.blank]

/- A comment says nothing. -/
theorem read_comment
    (gap : Gap)
    (words : Words) :
    ConfigLine.read (gap.text ++ 0x23 :: words.text) =
      .ignored := by
  have hTrim :
      Text.trim (gap.text ++ 0x23 :: words.text) =
        0x23 :: Text.trimRight words.text := by
    have hMark : Text.Bare [0x23] := by decide
    exact Text.trim_append gap.blank hMark words.text
  unfold ConfigLine.read
  simp only [hTrim]

------------------------------------------------------------
-- Collecting
------------------------------------------------------------

/- Bind keys one after the other. -/
def insertAll
    (found : TextMap Text)
    (bindings : List (Text × Text)) : TextMap Text :=
  bindings.foldl (fun m (k, v) => m.insert k v) found

variable {current : Text}
variable {found : TextMap Text}

/-
  Where keys are named as the section is looked for, entries
  bind what they bind.
-/
theorem collect_entries
    {naming : KeyName → KeyName}
    (hNaming :
      ∀ key,
        settingName? s.text current (naming key).text =
          some key.text)
    (entries : List Entry)
    (more : List ConfigLine) :
    collectSection s.text current found
        ((entries.map (Entry.text naming)).map ConfigLine.read ++
          more) =
      collectSection s.text current
        (insertAll found (entries.filterMap Entry.binding?))
        more := by
  induction entries generalizing found with
  | nil => rfl
  | cons entry rest ih =>
      rw [List.map_cons, List.map_cons, List.cons_append]
      cases entry with
      | blank gap =>
          rw [Entry.text, read_blank, collectSection, ih]
          rfl
      | comment gap words =>
          rw [Entry.text, read_comment, collectSection, ih]
          rfl
      | setting line =>
          rw [Entry.text, read_setting, collectSection, hNaming, ih]
          rfl

/- Under another name nothing is bound. -/
theorem collect_foreign
    (hSome : current ≠ [])
    (hOther : current ≠ s.text)
    (lines : List ForeignLine)
    (more : List ConfigLine) :
    collectSection s.text current found
        ((lines.map (·.text)).map ConfigLine.read ++ more) =
      collectSection s.text current found more := by
  induction lines with
  | nil => rfl
  | cons line rest ih =>
      rw [List.map_cons, List.map_cons, List.cons_append]
      cases hRead : ConfigLine.read line.text with
      | ignored =>
          rw [collectSection, ih]
      | header name => exact absurd hRead (line.not_header name)
      | setting key value =>
          have hNone : settingName? s.text current key = none := by
            rw [settingName?, if_neg hOther, if_neg hSome]
          rw [collectSection, hNone, ih]

/- Sections bind what they bind, one after the other. -/
theorem collect_parts
    (parts : List (Part s)) :
    collectSection s.text current found
        ((parts.flatMap (·.lines)).map ConfigLine.read) =
      insertAll found (parts.flatMap (·.bindings)) := by
  induction parts generalizing current found with
  | nil => rfl
  | cons part rest ih =>
      rw [List.flatMap_cons, List.map_append, List.flatMap_cons]
      cases part with
      | own header entries =>
          have hNaming :
              ∀ key : KeyName,
                settingName? s.text s.text (id key).text =
                  some key.text :=
            fun key => if_pos rfl
          rw [Part.lines, List.map_cons, List.cons_append,
            read_header header s.bare s.noBracket, collectSection,
            collect_entries hNaming, ih]
          exact List.foldl_append.symm
      | foreign header name lines =>
          rw [Part.lines, List.map_cons, List.cons_append,
            read_header header name.bare name.noBracket,
            collectSection, collect_foreign name.bare.ne_nil name.other,
            ih]
          rfl

/- Of the values that a key is bound to, the last one is found. -/
theorem get?_insertAll
    (bindings : List (Text × Text))
    (key : Text) :
    (insertAll found bindings).get? key =
      (Association.lookup? key bindings.reverse).or
        (found.get? key) := by
  induction bindings generalizing found with
  | nil => rfl
  | cons binding rest ih =>
      rcases binding with ⟨k, v⟩
      show (insertAll (found.insert k v) rest).get? key = _
      rw [ih, TextMap.get?_insert, List.reverse_cons,
        Association.lookup?_append, Option.or_assoc]
      by_cases hKey : k = key <;> simp [Association.lookup?, hKey]

------------------------------------------------------------
-- Whole Files
------------------------------------------------------------

/- An ending stays on its line. -/
theorem Ending.inLine
    (ending : Ending) :
    newline ∉ ending.text := by
  rcases ending with ⟨gap, _ | words⟩
  · rw [Ending.text, List.append_nil]
    exact gap.inLine
  · simp [Ending.text, newline, gap.inLine, words.inLine]

/- A header stays on its line. -/
theorem Header.inLine
    {name : Text}
    (header : Header)
    (hName : newline ∉ name) :
    newline ∉ header.text name := by
  simp [Header.text, newline, header.before.inLine,
    header.opening.inLine, header.closing.inLine,
    header.ending.inLine, hName]

/- A quoted value stays on its line. -/
theorem QuotedValue.quoted_inLine
    (value : QuotedValue) :
    newline ∉ value.quoted := by
  have hMark : newline ≠ value.mark := by
    rintro hNewline
    have hQuote := value.isQuote
    rw [← hNewline] at hQuote
    exact absurd hQuote (by decide)
  simp [QuotedValue.quoted, hMark, value.inLine]

/- An entry stays on its line. -/
theorem Entry.inLine
    (naming : KeyName → KeyName)
    (entry : Entry) :
    newline ∉ entry.text naming := by
  cases entry with
  | blank gap => exact gap.inLine
  | comment gap words =>
      simp [Entry.text, newline, gap.inLine, words.inLine]
  | setting line =>
      simp [Entry.text, Setting.text, newline, line.before.inLine,
        (naming line.key).inLine, line.behindKey.inLine,
        line.beforeValue.inLine, line.value.quoted_inLine,
        line.ending.inLine]

/- Everything in a file stays on its line. -/
theorem inLine_of_mem_lines
    {line : Text}
    {file : ConfigFile s}
    (hMem : line ∈ file.lines) :
    newline ∉ line := by
  rcases List.mem_append.mp hMem with hTop | hParts
  · rcases List.mem_map.mp hTop with ⟨entry, -, rfl⟩
    exact entry.inLine _
  · rcases List.mem_flatMap.mp hParts with ⟨part, -, hLine⟩
    cases part with
    | own header entries =>
        rcases List.mem_cons.mp hLine with rfl | hEntry
        · exact header.inLine s.inLine
        · rcases List.mem_map.mp hEntry with ⟨entry, -, rfl⟩
          exact entry.inLine _
    | foreign header name lines =>
        rcases List.mem_cons.mp hLine with rfl | hForeign
        · exact header.inLine name.inLine
        · rcases List.mem_map.mp hForeign with ⟨line, -, rfl⟩
          exact line.inLine

/- A file is read line by line. -/
theorem readSection_text
    (file : ConfigFile s) :
    readSection file.text s.text =
      collectSection s.text [] .empty
        (file.lines.map ConfigLine.read) := by
  unfold readSection text
  by_cases hSome : file.lines = []
  · rw [hSome]
    rfl
  · rw [Text.split_intercalate hSome fun _ => inLine_of_mem_lines]

/- At the top of a file, keys stand behind the name of the section. -/
theorem settingName?_dotted
    (key : KeyName) :
    settingName? s.text [] (s.dotted key).text = some key.text := by
  rw [settingName?, if_neg (Ne.symm s.bare.ne_nil), if_pos rfl]
  apply Text.stripPrefix?_eq_some_iff.mpr
  have hDot : Text.lit "." = [0x2E] := by decide
  simp [SectionName.dotted, hDot]

/-
  A well-formed file is read back: what is found under a
  section is what the file binds for it, and of the values of
  a key the last one counts, whatever form it has.
-/
theorem read_back
    (file : ConfigFile s) :
    readSection file.text s.text = .ofList file.bindings ∧
    ∀ key,
      (readSection file.text s.text).get? key =
          Association.lookup? key file.bindings.reverse ∧
        readSetting file.text s.text key =
          (Association.lookup? key file.bindings.reverse).getD
            [] := by
  have hRead :
      readSection file.text s.text =
        insertAll .empty file.bindings := by
    rw [readSection_text, lines, List.map_append,
      collect_entries settingName?_dotted, collect_parts]
    exact List.foldl_append.symm
  have hFound :
      ∀ key,
        (readSection file.text s.text).get? key =
          Association.lookup? key file.bindings.reverse := by
    intro key
    rw [hRead, get?_insertAll]
    exact Option.or_none
  refine ⟨hRead, fun key => ⟨hFound key, ?_⟩⟩
  rw [readSetting, hFound]

end ConfigFile

------------------------------------------------------------
-- A File
------------------------------------------------------------

namespace Sample

open ConfigFile

/- No white space. -/
def noGap : Gap :=
  ⟨[], nofun, nofun⟩

/- A space. -/
def space : Gap :=
  ⟨Text.lit " ", by decide, by decide⟩

/- An ending with a comment. -/
def remark : Ending :=
  ⟨space, some ⟨Text.lit " ours", by decide⟩⟩

/- The section of a mapping. -/
def mappingSection : SectionName where
  text := Text.lit "mapping"
  bare := by decide
  inLine := by decide
  noEquals := by decide
  noComment := by decide
  noHeader := by decide
  noBracket := by decide

/- The key of a scope. -/
def scopeKey : KeyName where
  text := Text.lit "scope"
  bare := by decide
  inLine := by decide
  noEquals := by decide
  noComment := by decide
  noHeader := by decide

/- Another section. -/
def otherSection : ForeignName mappingSection where
  text := Text.lit "other"
  bare := by decide
  inLine := by decide
  noBracket := by decide
  other := by decide

/- A scope between double quotes, with a comment behind it. -/
def scopeSetting
    (value : Text)
    (hMark : 0x22 ∉ value)
    (hLine : newline ∉ value) : Setting where
  before := noGap
  key := scopeKey
  behindKey := space
  beforeValue := space
  value := ⟨0x22, value, by decide, hMark, hLine⟩
  ending := remark

/-
  A file that gives a scope at its top and again in its
  section; what stands in another section looks like a scope.
-/
def scopeFile : ConfigFile mappingSection where
  top :=
    [.comment noGap ⟨Text.lit " top", by decide⟩,
      .setting
        (scopeSetting (Text.lit "a") (by decide) (by decide))]
  parts :=
    [.own ⟨noGap, space, space, remark⟩
        [.blank noGap,
          .setting
            (scopeSetting (Text.lit " b#=]' ") (by decide)
              (by decide))],
      .foreign ⟨noGap, noGap, noGap, ⟨noGap, none⟩⟩ otherSection
        [⟨Text.lit "scope = \"c\"", by decide, by
          have hText :
              Text.trim (Text.lit "scope = \"c\"") =
                Text.lit "scope = \"c\"" := by
            decide
          rw [hText]
          exact fun _ h => absurd (List.cons.inj h).1 (by decide)⟩]]

end Sample

namespace ConfigFile

open Sample in
/- The scope is the one that its section gives, as it is quoted. -/
theorem read_back_of_scope :
    scopeFile.text =
        Text.lit ("# top\nmapping.scope = \"a\" # ours\n" ++
          "[ mapping ] # ours\n\nscope = \" b#=]' \" # ours\n" ++
          "[other]\nscope = \"c\"") ∧
      readSetting scopeFile.text (Text.lit "mapping")
          (Text.lit "scope") =
        Text.lit " b#=]' " ∧
      (readSection scopeFile.text (Text.lit "mapping")).get?
          (Text.lit "other") =
        none := by
  rcases read_back scopeFile with ⟨-, hFound⟩
  exact
    ⟨by decide, (hFound (Text.lit "scope")).2,
      (hFound (Text.lit "other")).1⟩

end ConfigFile

end DocumentMapper
