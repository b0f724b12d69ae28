import DocumentMapper.Proofs.Config.Keys

/-
  Which settings are in force, and when there are none.

  Of three sources the environment comes before the file, and
  the file before the defaults. A value of the file is checked
  even where the environment takes its place. Whether type
  metadata has its key depends on the file alone, since no
  variable touches either of them.

  Key definitions include:
    * `Settings.declared`
    * `Settings.Valid`
    * `Settings.Follows`

  Main statements include:
    * `Settings.load_eq_ok_iff`
    * `Settings.loaded_by_precedence`
-/

namespace DocumentMapper

namespace Settings

------------------------------------------------------------
-- Sources
------------------------------------------------------------

/- What the configuration file says; a missing one says nothing. -/
def declared
    (env : Environment)
    (tree : FileTree)
    (given : Path) : TextMap Text :=
  readSection (tree.read (chosenConfigPath env given))
    (Text.lit "mapping")

/- A file is named, by the caller or the environment, but missing. -/
def MissesFile
    (env : Environment)
    (tree : FileTree)
    (given : Path) : Prop :=
  (given ≠ [] ∨
      (Environment.value? env.configFile?).isSome) ∧
    tree.exists? (chosenConfigPath env given) = false

/- Each known key has a value in the file that it admits, if any. -/
def AdmitsAll
    (file : TextMap Text) : Prop :=
  ∀ key : SettingKey, ∀ value,
    file.get? key.name = some value → key.Admits value

/- The settings with the values of the environment. -/
def overridden
    (settings : Settings)
    (env : Environment) : Settings :=
  { settings with
    scope :=
      (Environment.value? env.scope?).getD settings.scope
    collection :=
      (Environment.value? env.collection?).getD
        settings.collection
    logLevel :=
      (Environment.value? env.logLevel?).getD
        settings.logLevel }

variable {env : Environment}
variable {tree : FileTree}
variable {given : Path}
variable {settings result : Settings}

/- The environment is refused for an unknown log level only. -/
theorem override_eq_ok_iff :
    settings.override env = .ok result ↔
      (∀ level,
        Environment.value? env.logLevel? = some level →
          SettingKey.Admits .logLevel level) ∧
        settings.overridden env = result := by
  rw [override, overridden]
  cases Environment.value? env.logLevel? with
  | none => simp
  | some level =>
      simp only [withLogLevel, SettingKey.Admits,
        Option.some.injEq, forall_eq', Option.getD_some,
        ← LogLevel.ofName?_isSome_iff]
      cases LogLevel.ofName? level <;> simp

/- A file that is missing says nothing. -/
theorem declared_of_missing
    (h : tree.exists? (chosenConfigPath env given) = false) :
    declared env tree given = .empty := by
  have hNone :
      tree.resolve? (chosenConfigPath env given) = none := by
    simpa [FileTree.exists?] using h
  rw [declared, FileTree.read, hNone]
  rfl

/- A file is applied unless it is named and missing. -/
theorem readFile_eq_ok_iff :
    readFile env tree given = .ok result ↔
      ¬MissesFile env tree given ∧
        setAll {} (declared env tree given).entries =
          .ok result := by
  rw [readFile, MissesFile]
  cases hExists :
      tree.exists? (chosenConfigPath env given) with
  | true => simp [declared]
  | false =>
      have hNothing :
          setAll {} (declared env tree given).entries =
            .ok {} := by
        rw [declared_of_missing hExists]
        rfl
      rw [hNothing, if_neg (by simp)]
      split
      · rename_i hNamed
        simp [hNamed]
      · rename_i hNamed
        simp [hNamed]

/- Each source is accepted, and so are the settings as a whole. -/
theorem load_eq_ok_iff_sources :
    load env tree given = .ok result ↔
      ∃ file,
        readFile env tree given = .ok file ∧
          file.override env = .ok result ∧
          ¬(result.requireTypeMetadata ∧
            result.typeKey = []) := by
  rw [load]
  cases readFile env tree given with
  | error fault => simp [bind, Except.bind]
  | ok file =>
      cases hEnv : file.override env with
      | error fault => simp [bind, Except.bind, hEnv]
      | ok settings =>
          simp only [bind, Except.bind, pure, Except.pure,
            hEnv, Except.ok.injEq, exists_eq_left']
          split
          · rename_i hMissing
            simp only [reduceCtorEq, false_iff, not_and]
            rintro rfl
            exact fun hNot => hNot hMissing.1 hMissing.2
          · rename_i hNotMissing
            simp only [Except.ok.injEq]
            exact
              ⟨fun hEq => ⟨hEq, hEq ▸ hNotMissing⟩, fun h => h.1⟩

/- The settings by the order of their sources. -/
def inForce
    (env : Environment)
    (file : TextMap Text) : Settings :=
  (updated {} fun key => file.get? key.name).overridden env

/-
  Settings are loaded unless one of the sources is refused, or
  they ask for type metadata without a key for it.
-/
theorem load_eq_ok_iff :
    load env tree given = .ok result ↔
      (¬MissesFile env tree given ∧
        AdmitsAll (declared env tree given) ∧
        (∀ level,
          Environment.value? env.logLevel? = some level →
            SettingKey.Admits .logLevel level) ∧
        ¬(result.requireTypeMetadata ∧
          result.typeKey = [])) ∧
        inForce env (declared env tree given) = result := by
  have hFile (file : Settings) :
      setAll {} (declared env tree given).entries = .ok file ↔
        AdmitsAll (declared env tree given) ∧
          (updated {} fun key =>
              (declared env tree given).get? key.name) =
            file :=
    setAll_eq_ok_iff (declared env tree given).sorted
  simp only [load_eq_ok_iff_sources, readFile_eq_ok_iff, hFile,
    override_eq_ok_iff, inForce]
  constructor
  · rintro ⟨_, ⟨hNamed, hAdmits, rfl⟩, ⟨hLevel, rfl⟩, hKey⟩
    exact ⟨⟨hNamed, hAdmits, hLevel, hKey⟩, rfl⟩
  · rintro ⟨⟨hNamed, hAdmits, hLevel, hKey⟩, rfl⟩
    exact
      ⟨_, ⟨hNamed, hAdmits, rfl⟩, ⟨hLevel, rfl⟩, hKey⟩

------------------------------------------------------------
-- Loading
------------------------------------------------------------

/- Settings that the mapping layer can work with. -/
structure Valid (settings : Settings) : Prop where
  scope : settings.scope ≠ []
  collection : settings.collection ≠ []
  expiry : 0 ≤ settings.defaultExpiry
  level : ∃ level, settings.logLevel? = .ok level
  typeKey :
    settings.requireTypeMetadata = true →
      settings.typeKey ≠ []

/-
  Settings in which the environment comes before a file, and
  the file before the defaults.
-/
structure Follows
    (settings : Settings)
    (env : Environment)
    (file : TextMap Text) : Prop where
  scope :
    settings.scope =
      ((Environment.value? env.scope?).or
        (file.get? (Text.lit "scope"))).getD
          (Text.lit "_default")
  collection :
    settings.collection =
      ((Environment.value? env.collection?).or
        (file.get? (Text.lit "collection"))).getD
          (Text.lit "_default")
  logLevel :
    settings.logLevel =
      ((Environment.value? env.logLevel?).or
        (file.get? (Text.lit "log_level"))).getD
          (Text.lit "info")
  typeKey :
    settings.typeKey =
      (file.get? (Text.lit "type_key")).getD
        (Text.lit "_class")
  requireTypeMetadata :
    settings.requireTypeMetadata = true ↔
      ∃ value ∈ affirmations,
        file.get? (Text.lit "require_type_metadata") =
          some value
  defaultExpiry :
    match file.get? (Text.lit "default_expiry_seconds") with
    | none => settings.defaultExpiry = 0
    | some value =>
        Text.readInt? value =
          some settings.defaultExpiry.toInt

/- A file asks for type metadata and takes the key for it away. -/
def WithholdsKey
    (file : TextMap Text) : Prop :=
  (∃ value ∈ affirmations,
      file.get? (Text.lit "require_type_metadata") =
        some value) ∧
    file.get? (Text.lit "type_key") = some []

variable {file : TextMap Text}

/- The settings in force follow the order of their sources. -/
theorem inForce_follows
    (env : Environment)
    (hAdmits : AdmitsAll file) :
    (inForce env file).Follows env file where
  scope := by
    cases h : Environment.value? env.scope? <;>
      simp [inForce, updated, overridden, SettingKey.name, h]
  collection := by
    cases h : Environment.value? env.collection? <;>
      simp [inForce, updated, overridden, SettingKey.name, h]
  logLevel := by
    cases h : Environment.value? env.logLevel? <;>
      simp [inForce, updated, overridden, SettingKey.name, h]
  typeKey := rfl
  requireTypeMetadata := by
    simp only [inForce, updated, overridden, SettingKey.name,
      ← readBoolean?_eq_some_true_iff]
    cases file.get? (Text.lit "require_type_metadata") with
    | none => simp
    | some value => cases h : readBoolean? value <;> simp [h]
  defaultExpiry := by
    cases hValue :
        file.get? (Text.lit "default_expiry_seconds") with
    | none =>
        simp [inForce, updated, overridden, SettingKey.name,
          hValue]
    | some value =>
        have hRead :=
          SettingKey.admits_defaultExpiry_iff.mp
            (hAdmits .defaultExpiry value hValue)
        rcases Option.isSome_iff_exists.mp hRead with
          ⟨seconds, hSeconds⟩
        simp only [inForce, updated, overridden,
          SettingKey.name, hValue, Option.bind_some, hSeconds,
          Option.getD_some]
        exact (readSeconds?_eq_some_iff.mp hSeconds).1

/- What holds of the values of all sources holds of the one in force. -/
theorem getD_or_of_forall
    {P : Text → Prop}
    {first? second? : Option Text}
    {last : Text}
    (hFirst : ∀ value, first? = some value → P value)
    (hSecond : ∀ value, second? = some value → P value)
    (hLast : P last) :
    P ((first?.or second?).getD last) := by
  cases first? with
  | some value => exact hFirst value rfl
  | none =>
      cases second? with
      | some value => exact hSecond value rfl
      | none => exact hLast

/- Settings from admissible sources can be worked with. -/
theorem Follows.valid
    (h : settings.Follows env file)
    (hAdmits : AdmitsAll file)
    (hLevel :
      ∀ level,
        Environment.value? env.logLevel? = some level →
          SettingKey.Admits .logLevel level)
    (hKey :
      ¬(settings.requireTypeMetadata ∧
        settings.typeKey = [])) :
    settings.Valid where
  scope := by
    rw [h.scope]
    exact getD_or_of_forall
      (fun _ => Environment.ne_nil_of_value?)
      (hAdmits .scope) (by decide)
  collection := by
    rw [h.collection]
    exact getD_or_of_forall
      (fun _ => Environment.ne_nil_of_value?)
      (hAdmits .collection) (by decide)
  expiry := by
    have hExpiry := h.defaultExpiry
    rw [Int64.le_iff_toInt_le, Int64.toInt_zero]
    split at hExpiry
    · rw [hExpiry]
      decide
    · rename_i value hValue
      rcases hAdmits .defaultExpiry value hValue with
        ⟨n, hRead, -⟩
      have hEq := Option.some.inj (hRead.symm.trans hExpiry)
      omega
  level := by
    have hKnown :
        SettingKey.Admits .logLevel settings.logLevel := by
      rw [h.logLevel]
      exact getD_or_of_forall hLevel (hAdmits .logLevel)
        ⟨.info, rfl⟩
    rcases Option.isSome_iff_exists.mp
        (LogLevel.ofName?_isSome_iff.mpr hKnown) with
      ⟨level, hName⟩
    exact ⟨level, by rw [logLevel?, hName]⟩
  typeKey := by simpa using hKey

/- The settings in force lack a key only if the file withholds it. -/
theorem Follows.withholdsKey_iff
    (h : settings.Follows env file) :
    settings.requireTypeMetadata = true ∧
        settings.typeKey = [] ↔
      WithholdsKey file := by
  have hKey :
      settings.typeKey = [] ↔
        file.get? (Text.lit "type_key") = some [] := by
    rw [h.typeKey]
    cases file.get? (Text.lit "type_key") with
    | none => simpa using (by decide : Text.lit "_class" ≠ [])
    | some value => simp
  rw [WithholdsKey, h.requireTypeMetadata, hKey]

/- Settings are loaded unless one of the sources is refused. -/
theorem exists_load_eq_ok_iff :
    (∃ settings, load env tree given = .ok settings) ↔
      ¬MissesFile env tree given ∧
        AdmitsAll (declared env tree given) ∧
        (∀ level,
          Environment.value? env.logLevel? = some level →
            SettingKey.Admits .logLevel level) ∧
        ¬WithholdsKey (declared env tree given) := by
  constructor
  · rintro ⟨settings, hLoad⟩
    rcases load_eq_ok_iff.mp hLoad with
      ⟨⟨hFile, hAdmits, hLevel, hKey⟩, rfl⟩
    rw [(inForce_follows env hAdmits).withholdsKey_iff] at hKey
    exact ⟨hFile, hAdmits, hLevel, hKey⟩
  · rintro ⟨hFile, hAdmits, hLevel, hKey⟩
    rw [← (inForce_follows env hAdmits).withholdsKey_iff] at hKey
    exact
      ⟨_, load_eq_ok_iff.mpr
        ⟨⟨hFile, hAdmits, hLevel, hKey⟩, rfl⟩⟩

/- There is a fault exactly if there are no settings. -/
theorem exists_load_eq_error_iff :
    (∃ fault, load env tree given = .error fault) ↔
      ¬∃ settings, load env tree given = .ok settings := by
  cases load env tree given <;> simp

/- A file is read alike if it says the same under the known keys. -/
theorem readFile_congr
    {other : FileTree}
    (hExists :
      other.exists? (chosenConfigPath env given) =
        tree.exists? (chosenConfigPath env given))
    (hSame :
      ∀ key : SettingKey,
        (declared env other given).get? key.name =
          (declared env tree given).get? key.name) :
    readFile env other given = readFile env tree given := by
  have hSet :
      setAll {} (declared env other given).entries =
        setAll {} (declared env tree given).entries :=
    setAll_congr {} hSame
  simp only [readFile, hExists]
  split
  · exact hSet
  · rfl

/-
  Loading gives settings that can be worked with and that follow
  the order of their sources: the environment, the file, the
  defaults. It fails with an invalid argument, and exactly if a
  named file is missing, a known key of the file has a value
  that it does not admit, the environment names no known log
  level, or the file asks for type metadata without a key.
  Nothing else in the file has an influence.
-/
theorem loaded_by_precedence
    (env : Environment)
    (tree : FileTree)
    (given : Path) :
    (∀ settings,
      load env tree given = .ok settings →
        settings.Valid ∧
          settings.Follows env (declared env tree given)) ∧
    (∀ fault,
      load env tree given = .error fault →
        fault.toError.code = .invalidArgument) ∧
    ((∃ fault, load env tree given = .error fault) ↔
      MissesFile env tree given ∨
        (∃ key : SettingKey, ∃ value,
          (declared env tree given).get? key.name =
              some value ∧
            ¬key.Admits value) ∨
        (∃ level,
          Environment.value? env.logLevel? = some level ∧
            ∀ known : LogLevel, known.name ≠ level) ∨
        WithholdsKey (declared env tree given)) ∧
    ∀ other : FileTree,
      other.exists? (chosenConfigPath env given) =
          tree.exists? (chosenConfigPath env given) →
        (∀ key : SettingKey,
          (declared env other given).get? key.name =
            (declared env tree given).get? key.name) →
        load env other given = load env tree given := by
  refine ⟨?_, ?_, ?_, ?_⟩
  · intro settings hLoad
    rcases load_eq_ok_iff.mp hLoad with
      ⟨⟨-, hAdmits, hLevel, hKey⟩, rfl⟩
    have hFollows := inForce_follows env hAdmits
    exact ⟨hFollows.valid hAdmits hLevel hKey, hFollows⟩
  · intro fault hLoad
    rfl
  · rw [exists_load_eq_error_iff, exists_load_eq_ok_iff]
    simp only [not_and_or, not_not, AdmitsAll, not_forall,
      SettingKey.Admits, not_exists, exists_prop]
  · intro other hExists hSame
    rw [load, load, readFile_congr hExists hSame]

------------------------------------------------------------
-- Example
------------------------------------------------------------

/- A file with a scope and a level, and a key that is not known. -/
def sampleTree : FileTree :=
  FileTree.put {} (Text.lit "/tmp/a")
    (Text.lit "[mapping]\nscope=a\nlog_level=warn\nhue=3")

/- An environment with a scope, and a level that does not count. -/
def sampleEnvironment : Environment :=
  { scope? := some (Text.lit "b"), logLevel? := some [] }

/- The scope comes from the environment, the level from the file. -/
def sampleSettings : Settings :=
  { scope := Text.lit "b", logLevel := Text.lit "warn" }

theorem loaded_by_precedence_of_sampleTree :
    load sampleEnvironment sampleTree (Text.lit "/tmp/a") =
        .ok sampleSettings ∧
      sampleSettings.Valid ∧
      sampleSettings.Follows sampleEnvironment
        (declared sampleEnvironment sampleTree
          (Text.lit "/tmp/a")) := by
  have hLoad :
      load sampleEnvironment sampleTree (Text.lit "/tmp/a") =
        .ok sampleSettings := by
    rfl
  exact
    ⟨hLoad,
      (loaded_by_precedence sampleEnvironment sampleTree
        (Text.lit "/tmp/a")).1 _ hLoad⟩

end Settings

end DocumentMapper
