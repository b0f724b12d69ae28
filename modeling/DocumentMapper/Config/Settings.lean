import DocumentMapper.Config.Environment
import DocumentMapper.Config.FileTree
import DocumentMapper.Config.Logging
import DocumentMapper.Config.Section
import DocumentMapper.Result
import DocumentMapper.Text.Decimal

/-
  The settings of the mapping layer and where they come from:
  the section `mapping` of a configuration file, overridden
  by environment variables.

  Key definitions include:
    * `Settings`
    * `SettingsFault`, `SettingsFault.message`
    * `configPath`, `chosenConfigPath`
    * `Settings.set`
    * `Settings.override`
    * `Settings.load`
    * `Settings.logLevel?`
-/

namespace DocumentMapper

------------------------------------------------------------
-- Settings
------------------------------------------------------------

/- Settings with their defaults; an expiry of zero means none. -/
structure Settings where
  scope : Text := Text.lit "_default"
  collection : Text := Text.lit "_default"
  typeKey : Text := Text.lit "_class"
  requireTypeMetadata : Bool := false
  defaultExpiry : Int64 := 0
  logLevel : Text := Text.lit "info"
  deriving DecidableEq, Repr, Inhabited

/- Why settings are not accepted. -/
inductive SettingsFault where
  | emptyName (key : Text)
  | badBoolean (key value : Text)
  | badSeconds (key value : Text)
  | unknownLevel (value : Text)
  | fileNotFound (path : Path)
  | metadataWithoutKey
  deriving DecidableEq, Repr

namespace SettingsFault

/- The wording of a fault. -/
def message : SettingsFault → Text
  | .emptyName key =>
      Text.lit "mapping." ++ key ++
        Text.lit " must not be empty"
  | .badBoolean key value =>
      Text.lit "Invalid boolean for mapping." ++ key ++
        Text.lit ": " ++ Text.quoted value
  | .badSeconds key value =>
      Text.lit "Invalid non-negative integer for mapping." ++
        key ++ Text.lit ": " ++ Text.quoted value
  | .unknownLevel value =>
      Text.lit "Unknown log level: " ++ Text.quoted value
  | .fileNotFound path =>
      Text.lit "Configuration file not found: " ++ path
  | .metadataWithoutKey =>
      Text.lit
        "require_type_metadata needs a non-empty type_key"

/- Every fault is an invalid argument. -/
def toError
    (fault : SettingsFault) : Error :=
  .invalidArgument fault.message

end SettingsFault

------------------------------------------------------------
-- Locating the File
------------------------------------------------------------

/-
  The configuration file: a given path, or else the standard
  place below the configuration directory. Without such a
  directory the path is empty.
-/
def configPath
    (env : Environment)
    (given : Path) : Path :=
  let below (directory : Path) : Path :=
    Path.join
      (Path.join directory (Text.lit "docbind"))
      (Text.lit "config.toml")
  if given ≠ [] then
    Path.expandHome env.home? given
  else
    match Environment.value? env.configHome?, env.home? with
    | some directory, _ => below directory
    | none, some home =>
        below (Path.join home (Text.lit ".config"))
    | none, none => []

/-
  The file to read: a given one, the one the environment
  names, the standard one.
-/
def chosenConfigPath
    (env : Environment)
    (given : Path) : Path :=
  if given ≠ [] then
    configPath env given
  else
    configPath env
      ((Environment.value? env.configFile?).getD [])

------------------------------------------------------------
-- Reading Values
------------------------------------------------------------

/- The accepted spellings of a boolean. -/
def readBoolean?
    (s : Text) : Option Bool :=
  if s = Text.lit "true" ∨ s = Text.lit "1" ∨
      s = Text.lit "yes" then
    some true
  else if s = Text.lit "false" ∨ s = Text.lit "0" ∨
      s = Text.lit "no" then
    some false
  else
    none

/-
  A whole number of seconds, from zero to the greatest signed
  64-bit number.
-/
def readSeconds?
    (s : Text) : Option Int64 :=
  match Text.readInt? s with
  | some n =>
      if 0 ≤ n ∧ n ≤ Int64.maxValue.toInt then
        some (Int64.ofInt n)
      else
        none
  | none => none

------------------------------------------------------------
-- Applying Values
------------------------------------------------------------

namespace Settings

/- Set the log level by name. -/
def withLogLevel
    (settings : Settings)
    (value : Text) : Except SettingsFault Settings :=
  match LogLevel.ofName? value with
  | some _ => .ok { settings with logLevel := value }
  | none => .error (.unknownLevel value)

/- Apply one setting of a file; unknown keys have no effect. -/
def set
    (settings : Settings)
    (key value : Text) : Except SettingsFault Settings :=
  if key = Text.lit "scope" then
    if value = [] then
      .error (.emptyName key)
    else
      .ok { settings with scope := value }
  else if key = Text.lit "collection" then
    if value = [] then
      .error (.emptyName key)
    else
      .ok { settings with collection := value }
  else if key = Text.lit "type_key" then
    .ok { settings with typeKey := value }
  else if key = Text.lit "require_type_metadata" then
    match readBoolean? value with
    | some b => .ok { settings with requireTypeMetadata := b }
    | none => .error (.badBoolean key value)
  else if key = Text.lit "default_expiry_seconds" then
    match readSeconds? value with
    | some n => .ok { settings with defaultExpiry := n }
    | none => .error (.badSeconds key value)
  else if key = Text.lit "log_level" then
    settings.withLogLevel value
  else
    .ok settings

/-
  Apply settings one after the other, up to the first that is
  not accepted.
-/
def setAll
    (settings : Settings)
    (entries : List (Text × Text)) :
    Except SettingsFault Settings :=
  match entries with
  | [] => .ok settings
  | (key, value) :: rest => do
      let settings ← settings.set key value
      settings.setAll rest

/- Let the environment have the last word on names and the log level. -/
def override
    (settings : Settings)
    (env : Environment) : Except SettingsFault Settings :=
  let settings :=
    { settings with
      scope :=
        (Environment.value? env.scope?).getD settings.scope
      collection :=
        (Environment.value? env.collection?).getD
          settings.collection }
  match Environment.value? env.logLevel? with
  | some level => settings.withLogLevel level
  | none => .ok settings

/-
  The settings of a file; a missing file is a fault only if it
  was named.
-/
def readFile
    (env : Environment)
    (tree : FileTree)
    (given : Path) : Except SettingsFault Settings :=
  let path := chosenConfigPath env given
  if tree.exists? path then
    Settings.setAll {}
      (readSection (tree.read path)
        (Text.lit "mapping")).entries
  else if given ≠ [] ∨
      (Environment.value? env.configFile?).isSome then
    .error (.fileNotFound path)
  else
    .ok {}

/-
  The settings in force: those of the file, overridden by the
  environment.
-/
def load
    (env : Environment)
    (tree : FileTree)
    (given : Path) : Except SettingsFault Settings := do
  let settings ← readFile env tree given
  let settings ← settings.override env
  if settings.requireTypeMetadata ∧ settings.typeKey = [] then
    .error .metadataWithoutKey
  else
    return settings

/- The log level that the settings ask for. -/
def logLevel?
    (settings : Settings) : Except SettingsFault LogLevel :=
  match LogLevel.ofName? settings.logLevel with
  | some level => .ok level
  | none => .error (.unknownLevel settings.logLevel)

end Settings

end DocumentMapper
