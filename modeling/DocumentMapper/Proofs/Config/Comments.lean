import DocumentMapper.Proofs.Config.File

/-
  Comments behind values that are not quoted.

  A bare value ends where a comment starts, so that a line
  says the same with and without it, wherever the line stands
  in a file. But a quote mark within the value counts as well:
  if it is not closed there, the comment goes on inside of
  quotes and becomes a part of the value.

  Key definitions include:
    * `ConfigFile.BareValue`, `ConfigFile.BareSetting`
    * `ConfigFile.openSection`, `ConfigFile.settingsOf`
    * `ConfigFile.Surroundings`
    * `ConfigFile.BelongsTo`

  Main statements include:
    * `ConfigFile.read_bareSetting`
    * `ConfigFile.readSection_around`
    * `ConfigFile.comment_kept_out`
-/

namespace DocumentMapper

namespace ConfigFile

------------------------------------------------------------
-- Bare Values
------------------------------------------------------------

/-
  A value without quotes around it: there is no white space
  around it either, and no number sign in it.
-/
structure BareValue where
  text : Text
  bare : text.Bare
  inLine : newline ∉ text
  noComment : 0x23 ∉ text
  noQuote : ∀ b ∈ text.head?, Text.isQuote b = false

/- A key and its bare value. -/
structure BareSetting where
  before : Gap
  key : KeyName
  behindKey : Gap
  beforeValue : Gap
  value : BareValue

/- The setting as it is written, with something at its end. -/
def BareSetting.text
    (line : BareSetting)
    (ending : Ending) : Text :=
  line.before.text ++ line.key.text ++ line.behindKey.text ++
    [0x3D] ++ line.beforeValue.text ++ line.value.text ++
    ending.text

/- A bare value goes on up to a comment outside of quotes. -/
theorem readConfigValue_bare
    (gap : Gap)
    (value : BareValue)
    (rest : Text) :
    readConfigValue (gap.text ++ (value.text ++ rest)) =
      value.text ++
        Text.trimRight
          (beforeComment (OpenQuote.behind none value.text)
            rest) := by
  rw [readConfigValue,
    beforeComment_blanks gap.blank none
      OpenQuote.isQuote_of_mem_none,
    beforeComment_append value.noComment,
    Text.trim_append gap.blank value.bare,
    Text.unquote_append value.bare value.noQuote,
    Text.trimRight_trimRight]

/- A bare setting is read with what goes on behind its value. -/
theorem read_bareSetting
    (line : BareSetting)
    (ending : Ending) :
    ConfigLine.read (line.text ending) =
      .setting line.key.text
        (line.value.text ++
          Text.trimRight
            (beforeComment
              (OpenQuote.behind none line.value.text)
              (Text.trimRight ending.text))) := by
  rw [BareSetting.text, read_assignment _ _ _ _ line.value.bare,
    readConfigValue_bare]

/- Where quotes come in pairs, the value ends before the ending. -/
theorem read_of_paired
    {line : BareSetting}
    (hPaired : QuotesPaired line.value.text)
    (ending : Ending) :
    ConfigLine.read (line.text ending) =
      .setting line.key.text line.value.text := by
  rw [read_bareSetting, hPaired.behind_eq,
    Text.trimRight_of_allBlank (beforeComment_ending ending),
    List.append_nil]

/- White space behind a value is never a part of it. -/
theorem read_of_gap
    (line : BareSetting)
    (gap : Gap) :
    ConfigLine.read (line.text ⟨gap, none⟩) =
      .setting line.key.text line.value.text := by
  have hNothing :
      Text.trimRight (Ending.text ⟨gap, none⟩) = [] := by
    rw [Ending.text, List.append_nil,
      Text.trimRight_of_allBlank gap.blank]
  rw [read_bareSetting, hNothing]
  exact congrArg _ (List.append_nil _)

/- Where a quote is open, the comment is read like a value. -/
theorem read_of_open
    {line : BareSetting}
    {mark : UInt8}
    (hOpen :
      OpenQuote.behind none line.value.text = some mark)
    (gap : Gap)
    (words : Words) :
    ConfigLine.read (line.text ⟨gap, some words⟩) =
      .setting line.key.text
        (line.value.text ++
          (gap.text ++
            0x23 ::
              Text.trimRight
                (beforeComment (some mark) words.text))) := by
  have hMark : Text.isQuote mark = true :=
    OpenQuote.isQuote_of_behind OpenQuote.isQuote_of_mem_none
      hOpen
  have hQuote :
      ∀ opened ∈ some mark, Text.isQuote opened = true := by
    intro opened hOpened
    cases hOpened
    exact hMark
  have hBlank : Text.isBlank 0x23 = false := by decide
  have hInside :
      OpenQuote.after (some mark) 0x23 = some mark :=
    OpenQuote.after_of_ne
      (Ne.symm (ne_numberSign_of_isQuote hMark))
  rw [read_bareSetting, hOpen, Ending.text]
  dsimp only
  rw [Text.trimRight_append_cons hBlank,
    beforeComment_blanks gap.blank (some mark) hQuote,
    beforeComment_cons_of_open, hInside,
    Text.trimRight_append_cons hBlank,
    trimRight_beforeComment]

------------------------------------------------------------
-- Settings of a Section
------------------------------------------------------------

/- The section that is open behind lines: that of the last header. -/
def openSection
    (current : Text) : List ConfigLine → Text
  | [] => current
  | .header name :: lines => openSection name lines
  | .ignored :: lines => openSection current lines
  | .setting _ _ :: lines => openSection current lines

/- The settings of a section in lines, one after the other. -/
def settingsOf
    (sectionName current : Text) :
    List ConfigLine → List (Text × Text)
  | [] => []
  | .header name :: lines => settingsOf sectionName name lines
  | .ignored :: lines => settingsOf sectionName current lines
  | .setting key value :: lines =>
      ((settingName? sectionName current key).map
          (·, value)).toList ++
        settingsOf sectionName current lines

/- Lines bind the settings of a section in order. -/
theorem collectSection_eq
    (sectionName current : Text)
    (found : TextMap Text)
    (lines : List ConfigLine) :
    collectSection sectionName current found lines =
      insertAll found (settingsOf sectionName current lines) := by
  induction lines generalizing current found with
  | nil => rfl
  | cons line rest ih =>
      cases line with
      | ignored => exact ih current found
      | header name => exact ih name found
      | setting key value =>
          rw [collectSection, ih, settingsOf]
          cases settingName? sectionName current key <;> rfl

/- Later lines are read in the section that is open by then. -/
theorem settingsOf_append
    (sectionName current : Text)
    (lines more : List ConfigLine) :
    settingsOf sectionName current (lines ++ more) =
      settingsOf sectionName current lines ++
        settingsOf sectionName (openSection current lines)
          more := by
  induction lines generalizing current with
  | nil => rfl
  | cons line rest ih =>
      cases line with
      | ignored => exact ih current
      | header name => exact ih name
      | setting key value =>
          rw [List.cons_append, settingsOf, settingsOf, ih,
            List.append_assoc]
          rfl

/-
  A key belongs to a section under a name: in the open section
  under its own, and before any header under what stands
  behind the name of the section.
-/
inductive BelongsTo
    (sectionName : Text) : Text → Text → Text → Prop where
  | opened (key : Text) :
      BelongsTo sectionName sectionName key key
  | dotted
      (name : Text)
      (hSection : sectionName ≠ []) :
      BelongsTo sectionName []
        (sectionName ++ 0x2E :: name) name

theorem BelongsTo.settingName?_eq
    {sectionName current key name : Text}
    (h : BelongsTo sectionName current key name) :
    settingName? sectionName current key = some name := by
  cases h with
  | opened => exact if_pos rfl
  | dotted _ hSection =>
      have hDot : Text.lit "." = [0x2E] := by decide
      rw [settingName?, if_neg (Ne.symm hSection), if_pos rfl]
      apply Text.stripPrefix?_eq_some_iff.mpr
      rw [hDot, List.append_assoc]
      rfl

------------------------------------------------------------
-- Lines in a File
------------------------------------------------------------

/- The lines around one line of a file. -/
structure Surroundings where
  before : List Words
  behind : List Words

namespace Surroundings

/- The file with a line in the middle. -/
def text
    (around : Surroundings)
    (line : Text) : Text :=
  [newline].intercalate
    (around.before.map (·.text) ++
      line :: around.behind.map (·.text))

/- What lines say. -/
def read
    (lines : List Words) : List ConfigLine :=
  lines.map fun words => ConfigLine.read words.text

/- The section that is open where the line stands. -/
def current
    (around : Surroundings) : Text :=
  openSection [] (read around.before)

/- The settings of a section in front of the line. -/
def earlier
    (around : Surroundings)
    (sectionName : Text) : List (Text × Text) :=
  settingsOf sectionName [] (read around.before)

/- The settings of a section behind the line. -/
def later
    (around : Surroundings)
    (sectionName : Text) : List (Text × Text) :=
  settingsOf sectionName around.current (read around.behind)

end Surroundings

variable {around : Surroundings}
variable {sectionName name key value line : Text}

/- A file is read line by line, around a line as well. -/
theorem readSection_around
    (hLine : newline ∉ line)
    (sectionName : Text) :
    readSection (around.text line) sectionName =
      collectSection sectionName [] .empty
        (Surroundings.read around.before ++
          ConfigLine.read line ::
            Surroundings.read around.behind) := by
  have hLines :
      ∀ piece ∈
          around.before.map (·.text) ++
            line :: around.behind.map (·.text),
        newline ∉ piece := by
    intro piece hPiece
    rcases List.mem_append.mp hPiece with hBefore | hRest
    · rcases List.mem_map.mp hBefore with ⟨words, -, rfl⟩
      exact words.inLine
    · rcases List.mem_cons.mp hRest with rfl | hBehind
      · exact hLine
      · rcases List.mem_map.mp hBehind with ⟨words, -, rfl⟩
        exact words.inLine
  have hSays :
      ∀ lines : List Words,
        (lines.map (·.text)).map ConfigLine.read =
          Surroundings.read lines :=
    fun lines => List.map_map
  rw [readSection, Surroundings.text,
    Text.split_intercalate (by simp) hLines, List.map_append,
    List.map_cons, hSays, hSays]

/- The value of the last setting under a name is the one found. -/
theorem readSetting_around
    (hLine : newline ∉ line)
    (hRead : ConfigLine.read line = .setting key value)
    (hPlace : BelongsTo sectionName around.current key name)
    (hLast : ∀ given, (name, given) ∉ around.later sectionName) :
    readSetting (around.text line) sectionName name = value := by
  have hName :
      settingName? sectionName
          (openSection [] (Surroundings.read around.before))
          key =
        some name :=
    hPlace.settingName?_eq
  have hBound :
      readSection (around.text line) sectionName =
        insertAll .empty
          (around.earlier sectionName ++
            (name, value) :: around.later sectionName) := by
    rw [readSection_around hLine, hRead, collectSection_eq,
      settingsOf_append, settingsOf, hName]
    rfl
  have hNone :
      Association.lookup? name
          (around.later sectionName).reverse =
        none := by
    rw [Option.eq_none_iff_forall_not_mem]
    intro given hGiven
    exact
      hLast given
        (List.mem_reverse.mp (Association.mem_of_lookup? hGiven))
  rw [readSetting, hBound, get?_insertAll, List.reverse_append,
    List.reverse_cons, List.append_assoc,
    Association.lookup?_append, hNone]
  simp [Association.lookup?]

/- A bare setting stays on its line. -/
theorem BareSetting.inLine
    (line : BareSetting)
    (ending : Ending) :
    newline ∉ line.text ending := by
  simp [BareSetting.text, newline, line.before.inLine,
    line.key.inLine, line.behindKey.inLine,
    line.beforeValue.inLine, line.value.inLine, ending.inLine]

------------------------------------------------------------
-- Values With and Without a Comment
------------------------------------------------------------

/-
  A bare value is read as it stands. With a comment behind it,
  it is still read so exactly if its quotes come in pairs, and
  then the whole file says the same with and without the
  comment. Else the comment is read along, up to where another
  one starts outside of quotes.
-/
theorem comment_kept_out
    {line : BareSetting}
    (hPlace :
      BelongsTo sectionName around.current line.key.text name)
    (hLast : ∀ given, (name, given) ∉ around.later sectionName)
    (closing gap : Gap)
    (words : Words) :
    let plain := around.text (line.text ⟨closing, none⟩)
    let commented := around.text (line.text ⟨gap, some words⟩)
    readSetting plain sectionName name = line.value.text ∧
    (QuotesPaired line.value.text →
      ∀ other,
        readSection commented other = readSection plain other) ∧
    (readSetting commented sectionName name =
        line.value.text ↔
      QuotesPaired line.value.text) ∧
    ∀ mark,
      OpenQuote.behind none line.value.text = some mark →
        readSetting commented sectionName name =
          line.value.text ++
            (gap.text ++
              0x23 ::
                Text.trimRight
                  (beforeComment (some mark) words.text)) := by
  intro plain commented
  have hPlain :
      readSetting plain sectionName name = line.value.text :=
    readSetting_around (line.inLine _) (read_of_gap line closing)
      hPlace hLast
  have hOpen :
      ∀ mark,
        OpenQuote.behind none line.value.text = some mark →
          readSetting commented sectionName name =
            line.value.text ++
              (gap.text ++
                0x23 ::
                  Text.trimRight
                    (beforeComment (some mark) words.text)) :=
    fun mark hMark =>
      readSetting_around (line.inLine _)
        (read_of_open hMark gap words) hPlace hLast
  refine ⟨hPlain, ?_, ?_, hOpen⟩
  · intro hPaired other
    rw [readSection_around (line.inLine _),
      readSection_around (line.inLine _), read_of_gap,
      read_of_paired hPaired]
  · constructor
    · intro hSame
      rw [quotesPaired_iff, Option.eq_none_iff_forall_not_mem]
      intro mark hMark
      rw [hOpen mark hMark] at hSame
      simp at hSame
    · intro hPaired
      exact
        readSetting_around (line.inLine _)
          (read_of_paired hPaired _) hPlace hLast

end ConfigFile

------------------------------------------------------------
-- A Value With an Apostrophe
------------------------------------------------------------

namespace Sample

open ConfigFile

/- A scope that is not quoted. -/
def bareScope
    (value : BareValue) : BareSetting where
  before := noGap
  key := scopeKey
  behindKey := space
  beforeValue := space
  value := value

/- A value in which a quote is opened, and not closed. -/
def apostrophe : BareValue where
  text := Text.lit "it's"
  bare := by decide
  inLine := by decide
  noComment := by decide
  noQuote := by
    rintro b ⟨⟩
    decide

/- The header of the mapping is all that stands around the line. -/
def underMapping : Surroundings where
  before := [⟨Text.lit "[mapping]", by decide⟩]
  behind := []

end Sample

namespace ConfigFile

open Sample in
/- The comment becomes a part of the scope. -/
theorem comment_kept_out_of_apostrophe :
    let line := bareScope apostrophe
    let plain := underMapping.text (line.text ⟨noGap, none⟩)
    let commented := underMapping.text (line.text remark)
    plain = Text.lit "[mapping]
scope = it's" ∧
      commented = Text.lit "[mapping]
scope = it's # ours" ∧
      readSetting plain (Text.lit "mapping")
          (Text.lit "scope") =
        Text.lit "it's" ∧
      readSetting commented (Text.lit "mapping")
          (Text.lit "scope") =
        Text.lit "it's # ours" := by
  intro line plain commented
  have hPlace :
      BelongsTo (Text.lit "mapping") underMapping.current
        line.key.text (Text.lit "scope") :=
    .opened _
  have hLast :
      ∀ given,
        (Text.lit "scope", given) ∉
          underMapping.later (Text.lit "mapping") :=
    nofun
  rcases comment_kept_out hPlace hLast noGap space
      ⟨Text.lit " ours", by decide⟩ with
    ⟨hPlain, -, -, hOpen⟩
  exact
    ⟨by decide, by decide, hPlain,
      (hOpen 0x27 (by decide)).trans (by decide)⟩

end ConfigFile

end DocumentMapper
