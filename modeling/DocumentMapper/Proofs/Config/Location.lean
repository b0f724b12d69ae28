import DocumentMapper.Proofs.Config.Precedence

/-
  Where the configuration file is looked for, and which
  variables of the environment have a part in it.

  A variable that is set to the empty text counts as one that
  is not set, with one exception: an empty home directory is
  taken for a directory. It matters where a path begins with a
  tilde, and where nothing is named and there is no
  configuration directory, so that a file below the working
  directory is read.

  Key definitions include:
    * `Environment.Variable`, `Environment.Cleared`
    * `Environment.LosesHome`
    * `Environment.namedPath`, `Environment.UsesHome`

  Main statements include:
    * `chosenConfigPath_eq`
    * `configPath_cleared_iff`
    * `Settings.eq_of_load_eq_fileNotFound`
    * `Settings.load_cleared_iff`
    * `Settings.empty_as_unset_iff`
-/

namespace DocumentMapper

------------------------------------------------------------
-- Variables
------------------------------------------------------------

namespace Environment

/- The variables that the library reads. -/
inductive Variable where
  | home
  | configHome
  | configFile
  | scope
  | collection
  | logLevel
  deriving DecidableEq, Repr

/- What a variable is set to, if it is. -/
def get?
    (env : Environment) : Variable → Option Text
  | .home => env.home?
  | .configHome => env.configHome?
  | .configFile => env.configFile?
  | .scope => env.scope?
  | .collection => env.collection?
  | .logLevel => env.logLevel?

/-
  Some variables that are set to the empty text are no longer
  set; the others stay as they are.
-/
def Cleared
    (env cleared : Environment) : Prop :=
  ∀ v : Variable,
    cleared.get? v = env.get? v ∨
      env.get? v = some [] ∧ cleared.get? v = none

/- An empty home directory is no longer set. -/
def LosesHome
    (env cleared : Environment) : Prop :=
  env.home? = some [] ∧ cleared.home? = none

variable {env cleared : Environment}

/- Empty values do not count, whether they are set or not. -/
theorem Cleared.value?_eq
    (h : env.Cleared cleared)
    (v : Variable) :
    value? (cleared.get? v) = value? (env.get? v) := by
  rcases h v with hSame | ⟨hEmpty, hNone⟩
  · rw [hSame]
  · rw [hEmpty, hNone]
    rfl

/- The home directory stays, unless it is empty and taken away. -/
theorem Cleared.home?_eq
    (h : env.Cleared cleared)
    (hKept : ¬env.LosesHome cleared) :
    cleared.home? = env.home? :=
  (h .home).resolve_right hKept

end Environment

------------------------------------------------------------
-- Paths
------------------------------------------------------------

namespace Path

/- The path begins with a tilde. -/
def startsAtHome
    (p : Path) : Bool :=
  p.head? = some 0x7E

/- The configuration file of a configuration directory. -/
def configIn
    (directory : Path) : Path :=
  join (join directory (Text.lit "docbind"))
    (Text.lit "config.toml")

/- The configuration file below the working directory. -/
def localConfig : Path :=
  Text.lit ".config/docbind/config.toml"

variable {p : Path}

/- A tilde stands in front of the rest. -/
theorem exists_of_startsAtHome
    (h : startsAtHome p = true) :
    ∃ rest, p = 0x7E :: rest := by
  rw [startsAtHome, decide_eq_true_iff,
    List.head?_eq_some_iff] at h
  exact h

/- The tilde begins the first name of the path. -/
theorem components_tilde
    (rest : Text) :
    ∃ name pieces,
      components (0x7E :: rest) = (0x7E :: name) :: pieces := by
  have hMark : (0x7E : UInt8) ≠ 0x2F := by decide
  have hBefore :
      Text.beforeZero (0x7E :: rest) =
        0x7E :: Text.beforeZero rest :=
    rfl
  rw [components, hBefore, Text.split, if_neg hMark]
  split <;> exact ⟨_, _, rfl⟩

/- From nowhere, a path leads where it leads by itself. -/
theorem join_nil_left
    (p : Path) :
    join [] p = p := by
  rw [join, if_pos rfl, ite_self]

/- Without a home directory a path stays as it is. -/
theorem expandHome_none
    (p : Path) :
    expandHome none p = p := by
  unfold expandHome
  split
  · contradiction
  · rfl

/- Without a tilde in front a path stays as it is. -/
theorem expandHome_of_not_startsAtHome
    (home? : Option Path)
    (h : startsAtHome p = false) :
    expandHome home? p = p := by
  unfold expandHome
  split
  · rename_i rest home
    exact absurd h (by simp [startsAtHome])
  · rfl

/- Below an empty home directory only what stands behind is left. -/
theorem expandHome_empty
    (h : startsAtHome p = true) :
    expandHome (some []) p = p.drop 2 := by
  rcases exists_of_startsAtHome h with ⟨rest, rfl⟩
  exact join_nil_left _

/- So it makes a difference to a path that begins with a tilde. -/
theorem expandHome_none_eq_empty_iff :
    expandHome none p = expandHome (some []) p ↔
      ¬startsAtHome p = true := by
  rw [expandHome_none]
  cases hStarts : startsAtHome p with
  | true =>
      rw [expandHome_empty hStarts]
      rcases exists_of_startsAtHome hStarts with ⟨rest, rfl⟩
      have hShorter : rest.drop 1 ≠ 0x7E :: rest := by
        intro hSame
        have hLength := congrArg List.length hSame
        simp at hLength
      simpa using hShorter.symm
  | false =>
      rw [expandHome_of_not_startsAtHome _ hStarts]
      simp

end Path

namespace Environment

variable (env : Environment)

/- The path that the caller or else the environment names. -/
def namedPath
    (given : Path) : Path :=
  if given ≠ [] then given
  else (value? env.configFile?).getD []

/-
  The home directory has a part in where a path leads: it
  begins with a tilde, or it is empty and there is no
  configuration directory.
-/
def UsesHome
    (p : Path) : Prop :=
  Path.startsAtHome p = true ∨
    p = [] ∧ value? env.configHome? = none

end Environment

variable {env other cleared : Environment}
variable {given : Path}

/- Empty values do not name anything, whether they are set or not. -/
theorem Environment.Cleared.namedPath_eq
    (h : env.Cleared cleared)
    (given : Path) :
    cleared.namedPath given = env.namedPath given := by
  have hFile := h.value?_eq .configFile
  simp only [Environment.get?] at hFile
  rw [Environment.namedPath, Environment.namedPath, hFile]

/- Something is named unless the caller and the environment are silent. -/
theorem Environment.namedPath_ne_nil_iff :
    env.namedPath given ≠ [] ↔
      given ≠ [] ∨
        (Environment.value? env.configFile?).isSome := by
  rw [Environment.namedPath]
  by_cases hGiven : given = []
  · cases hFile : Environment.value? env.configFile? with
    | none => simp [hGiven]
    | some path =>
        simpa [hGiven] using Environment.ne_nil_of_value? hFile
  · simp [hGiven]

/- A path that is named is only expanded. -/
theorem configPath_of_ne_nil
    (h : given ≠ []) :
    configPath env given = Path.expandHome env.home? given :=
  if_pos h

/- Else the configuration directory comes first, and then the home. -/
theorem configPath_nil :
    configPath env [] =
      match Environment.value? env.configHome?, env.home? with
      | some directory, _ => Path.configIn directory
      | none, some home =>
          Path.configIn (Path.join home (Text.lit ".config"))
      | none, none => [] := by
  unfold configPath
  rw [if_neg fun h => h rfl]
  rfl

/- What is named is located like what is given. -/
theorem chosenConfigPath_eq
    (env : Environment)
    (given : Path) :
    chosenConfigPath env given =
      configPath env (env.namedPath given) := by
  unfold chosenConfigPath Environment.namedPath
  split <;> rfl

/- An empty home directory has its file below the working directory. -/
theorem configPath_of_emptyHome
    (hHome : env.home? = some [])
    (hDirectory : Environment.value? env.configHome? = none) :
    configPath env [] = Path.localConfig := by
  rw [configPath_nil, hDirectory, hHome]
  decide

/- Without any directory there is no path. -/
theorem configPath_of_noHome
    (hHome : env.home? = none)
    (hDirectory : Environment.value? env.configHome? = none) :
    configPath env [] = [] := by
  rw [configPath_nil, hDirectory, hHome]

/- A tilde is expanded alike unless an empty home is lost. -/
theorem expandHome_cleared_iff
    (h : env.Cleared cleared) :
    Path.expandHome cleared.home? given =
        Path.expandHome env.home? given ↔
      ¬(env.LosesHome cleared ∧
        Path.startsAtHome given = true) := by
  by_cases hLost : env.LosesHome cleared
  · rw [hLost.1, hLost.2, Path.expandHome_none_eq_empty_iff]
    simp [hLost]
  · simp [h.home?_eq hLost, hLost]

/- Where the home directory has no part, it does not matter. -/
theorem configPath_congr
    (hDirectory :
      Environment.value? other.configHome? =
        Environment.value? env.configHome?)
    (hHome :
      other.home? = env.home? ∨ ¬env.UsesHome given) :
    configPath other given = configPath env given := by
  by_cases hGiven : given = []
  · subst hGiven
    rw [configPath_nil, configPath_nil, hDirectory]
    rcases hHome with hSame | hUnused
    · rw [hSame]
    · cases hNone : Environment.value? env.configHome? with
      | none => exact absurd (.inr ⟨rfl, hNone⟩) hUnused
      | some directory => rfl
  · rw [configPath_of_ne_nil hGiven, configPath_of_ne_nil hGiven]
    rcases hHome with hSame | hUnused
    · rw [hSame]
    · have hStarts : Path.startsAtHome given = false :=
        Bool.eq_false_iff.mpr fun h => hUnused (.inl h)
      rw [Path.expandHome_of_not_startsAtHome _ hStarts,
        Path.expandHome_of_not_startsAtHome _ hStarts]

/- Where it has a part, it matters whether it is empty or not set. -/
theorem configPath_ne_of_losesHome
    (h : env.Cleared cleared)
    (hLost : env.LosesHome cleared)
    (hUsed : env.UsesHome given) :
    configPath cleared given ≠ configPath env given := by
  rcases hUsed with hStarts | ⟨rfl, hDirectory⟩
  · have hGiven : given ≠ [] := by
      rintro rfl
      cases hStarts
    rw [configPath_of_ne_nil hGiven, configPath_of_ne_nil hGiven,
      hLost.1, hLost.2, Ne, Path.expandHome_none_eq_empty_iff]
    exact fun hNot => hNot hStarts
  · have hCleared :
        Environment.value? cleared.configHome? = none :=
      (h.value?_eq .configHome).trans hDirectory
    rw [configPath_of_noHome hLost.2 hCleared,
      configPath_of_emptyHome hLost.1 hDirectory]
    decide

/- Two environments locate a file alike unless an empty home is lost. -/
theorem configPath_cleared_iff
    (h : env.Cleared cleared) :
    configPath cleared given = configPath env given ↔
      ¬(env.LosesHome cleared ∧ env.UsesHome given) := by
  constructor
  · rintro hSame ⟨hLost, hUsed⟩
    exact configPath_ne_of_losesHome h hLost hUsed hSame
  · intro hKept
    apply configPath_congr (h.value?_eq .configHome)
    by_cases hLost : env.LosesHome cleared
    · exact .inr fun hUsed => hKept ⟨hLost, hUsed⟩
    · exact .inl (h.home?_eq hLost)

------------------------------------------------------------
-- Trees
------------------------------------------------------------

/- A name with a tilde in front leads further down. -/
theorem Place.step_tilde
    (place : Place)
    (name : Text) :
    place.step (0x7E :: name) =
      { place with names := place.names ++ [0x7E :: name] } := by
  have hDot : Text.lit "." = [0x2E] := by decide
  have hDots : Text.lit ".." = [0x2E, 0x2E] := by decide
  simp [Place.step, hDot, hDots]

namespace FileTree

/- In an empty tree no path with a tilde in front leads to anything. -/
theorem exists?_of_startsAtHome
    {p : Path}
    (h : Path.startsAtHome p = true) :
    ({ origins := [] } : FileTree).exists? p = false := by
  rcases Path.exists_of_startsAtHome h with ⟨rest, rfl⟩
  rcases Path.components_tilde rest with
    ⟨name, pieces, hComponents⟩
  have hStart : Place.start (0x7E :: rest) = ⟨.above 0, []⟩ :=
    rfl
  rw [exists?, resolve?, locate?, hStart, hComponents]
  split_ifs
  · rfl
  · rw [follow?, Place.step_tilde]
    split_ifs
    · rfl
    · cases pieces with
      | nil => rfl
      | cons c others =>
          -- the walk ends, as there is no directory of that name
          have hNothing :
              ({ origins := [] } : FileTree).hasDirectory
                  ⟨.above 0, [0x7E :: name]⟩ =
                false :=
            rfl
          rw [follow?, List.nil_append, hNothing,
            if_pos (.inr Bool.false_ne_true)]
          rfl

/- A tree with nothing but the file below the working directory. -/
def withLocalConfig
    (content : Text) : FileTree :=
  { origins :=
      [(.above 0,
        .directory
          [(Text.lit ".config",
            .directory
              [(Text.lit "docbind",
                .directory
                  [(Text.lit "config.toml",
                    .file content)])])])] }

end FileTree

------------------------------------------------------------
-- Loading
------------------------------------------------------------

namespace Settings

variable {tree : FileTree}
variable {settings : Settings}

/- The environment overrides with what is not empty. -/
theorem override_cleared
    (h : env.Cleared cleared)
    (settings : Settings) :
    settings.override cleared = settings.override env := by
  have hScope := h.value?_eq .scope
  have hCollection := h.value?_eq .collection
  have hLevel := h.value?_eq .logLevel
  simp only [Environment.get?] at hScope hCollection hLevel
  rw [override, override, hScope, hCollection, hLevel]

/-
  Of an environment, loading depends on where the file is,
  whether it is named, and what overrides it.
-/
theorem load_congr
    (hPath :
      chosenConfigPath other given = chosenConfigPath env given)
    (hNamed :
      other.namedPath given ≠ [] ↔ env.namedPath given ≠ [])
    (hOverride :
      ∀ settings : Settings,
        settings.override other = settings.override env) :
    load other tree given = load env tree given := by
  rw [Environment.namedPath_ne_nil_iff,
    Environment.namedPath_ne_nil_iff] at hNamed
  simp only [load, readFile, hPath, hNamed, hOverride]

/- No setting is refused for a file that is not found. -/
theorem set_ne_fileNotFound
    (settings : Settings)
    (key value : Text)
    (path : Path) :
    settings.set key value ≠ .error (.fileNotFound path) := by
  -- one case for each key and each way its value is read
  unfold set withLogLevel
  repeat' split
  all_goals nofun

/- Nor are settings one after the other. -/
theorem setAll_ne_fileNotFound
    (settings : Settings)
    (entries : List (Text × Text))
    (path : Path) :
    settings.setAll entries ≠ .error (.fileNotFound path) := by
  induction entries generalizing settings with
  | nil => nofun
  | cons entry rest ih =>
      rcases entry with ⟨key, value⟩
      rw [setAll]
      cases hSet : settings.set key value with
      | error fault =>
          rintro ⟨⟩
          exact set_ne_fileNotFound settings key value path hSet
      | ok next => exact ih next

/- The environment is refused for a log level that is not known. -/
theorem unknownLevel_of_override_eq_error
    {fault : SettingsFault}
    (h : settings.override env = .error fault) :
    ∃ level, fault = .unknownLevel level := by
  unfold override withLogLevel at h
  cases hLevel : Environment.value? env.logLevel? with
  | none =>
      rw [hLevel] at h
      cases h
  | some level =>
      rw [hLevel] at h
      cases hName : LogLevel.ofName? level with
      | none =>
          simp only [hName, Except.error.injEq] at h
          exact ⟨level, h.symm⟩
      | some known => simp [hName] at h

/- What is not found is the file that was chosen. -/
theorem eq_of_load_eq_fileNotFound
    {path : Path}
    (h : load env tree given = .error (.fileNotFound path)) :
    path = chosenConfigPath env given := by
  rw [load] at h
  cases hRead : readFile env tree given with
  | error fault =>
      rw [hRead] at h
      cases h
      rw [readFile] at hRead
      split_ifs at hRead
      case pos =>
        exact absurd hRead (setAll_ne_fileNotFound _ _ _)
      case pos =>
        cases hRead
        rfl
  | ok file =>
      rw [hRead] at h
      cases hOverride : file.override env with
      | error fault =>
          simp only [bind, Except.bind, hOverride] at h
          cases h
          rcases unknownLevel_of_override_eq_error hOverride with
            ⟨level, hLevel⟩
          cases hLevel
      | ok settings =>
          simp only [bind, Except.bind, hOverride] at h
          split_ifs at h <;> cases h

/- Loading fails with the file. -/
theorem load_of_readFile_eq_error
    {fault : SettingsFault}
    (h : readFile env tree given = .error fault) :
    load env tree given = .error fault := by
  rw [load, h]
  rfl

/- A file that is named and missing is reported. -/
theorem load_of_named_missing
    (hNamed : env.namedPath given ≠ [])
    (hMissing :
      tree.exists? (chosenConfigPath env given) = false) :
    load env tree given =
      .error (.fileNotFound (chosenConfigPath env given)) := by
  apply load_of_readFile_eq_error
  rw [Environment.namedPath_ne_nil_iff] at hNamed
  simp [readFile, hMissing, hNamed]

/- Without a file the defaults are overridden. -/
theorem load_of_unnamed_missing
    (hNamed : env.namedPath given = [])
    (hMissing :
      tree.exists? (chosenConfigPath env given) = false) :
    load env tree given = ({} : Settings).override env := by
  have hSilent :=
    mt Environment.namedPath_ne_nil_iff.mpr
      (not_not_intro hNamed)
  have hRead : readFile env tree given = .ok {} := by
    simp [readFile, hMissing, hSilent]
  rw [load, hRead]
  unfold override withLogLevel
  cases Environment.value? env.logLevel? with
  | none => rfl
  | some level =>
      cases hName : LogLevel.ofName? level with
      | none =>
          simp only [hName]
          rfl
      | some known =>
          simp only [hName]
          rfl

/- A file below the working directory is refused for an empty scope. -/
theorem load_withLocalConfig
    (hPath : chosenConfigPath env given = Path.localConfig) :
    load env
        (.withLocalConfig (Text.lit "[mapping]\nscope="))
        given =
      .error (.emptyName (Text.lit "scope")) := by
  apply load_of_readFile_eq_error
  rw [readFile, hPath]
  rfl

/-
  Where the home directory has a part, some files tell an empty
  one from one that is not set.
-/
theorem exists_load_ne_of_losesHome
    (h : env.Cleared cleared)
    (hLost : env.LosesHome cleared)
    (hUsed : env.UsesHome (env.namedPath given)) :
    ∃ tree, load cleared tree given ≠ load env tree given := by
  have hPaths :
      chosenConfigPath cleared given ≠
        chosenConfigPath env given := by
    rw [chosenConfigPath_eq, chosenConfigPath_eq,
      h.namedPath_eq given]
    exact configPath_ne_of_losesHome h hLost hUsed
  rcases hUsed with hStarts | ⟨hNothing, hDirectory⟩
  · have hNamed : cleared.namedPath given ≠ [] := by
      rw [h.namedPath_eq given]
      intro hNil
      rw [hNil] at hStarts
      cases hStarts
    have hPath :
        chosenConfigPath cleared given =
          env.namedPath given := by
      rw [chosenConfigPath_eq, configPath_of_ne_nil hNamed,
        hLost.2, Path.expandHome_none, h.namedPath_eq given]
    -- what is named is missing, and not what the other one opens
    refine ⟨{ origins := [] }, fun hSame => ?_⟩
    have hMissing :
        ({ origins := [] } : FileTree).exists?
          (chosenConfigPath cleared given) = false := by
      rw [hPath]
      exact FileTree.exists?_of_startsAtHome hStarts
    rw [load_of_named_missing hNamed hMissing] at hSame
    exact hPaths (eq_of_load_eq_fileNotFound hSame.symm)
  · have hUnnamed : cleared.namedPath given = [] :=
      (h.namedPath_eq given).trans hNothing
    have hLocal :
        chosenConfigPath env given = Path.localConfig := by
      rw [chosenConfigPath_eq, hNothing,
        configPath_of_emptyHome hLost.1 hDirectory]
    have hNowhere : chosenConfigPath cleared given = [] := by
      rw [chosenConfigPath_eq, hUnnamed,
        configPath_of_noHome hLost.2
          ((h.value?_eq .configHome).trans hDirectory)]
    -- only one of the two finds the scope that is refused
    refine
      ⟨.withLocalConfig (Text.lit "[mapping]\nscope="),
        fun hSame => ?_⟩
    rw [load_withLocalConfig hLocal,
      load_of_unnamed_missing hUnnamed (by rw [hNowhere]; rfl)]
      at hSame
    rcases unknownLevel_of_override_eq_error hSame with
      ⟨level, hLevel⟩
    cases hLevel

/- Settings are loaded alike unless an empty home is lost. -/
theorem load_cleared_iff
    (h : env.Cleared cleared) :
    (∀ tree, load cleared tree given = load env tree given) ↔
      ¬(env.LosesHome cleared ∧
        env.UsesHome (env.namedPath given)) := by
  constructor
  · rintro hSame ⟨hLost, hUsed⟩
    rcases exists_load_ne_of_losesHome h hLost hUsed with
      ⟨tree, hDiffer⟩
    exact hDiffer (hSame tree)
  · intro hKept tree
    have hNames := h.namedPath_eq given
    have hPath :
        chosenConfigPath cleared given =
          chosenConfigPath env given := by
      rw [chosenConfigPath_eq, chosenConfigPath_eq, hNames]
      exact (configPath_cleared_iff h).mpr hKept
    exact
      load_congr hPath (by rw [hNames]) (override_cleared h)

/- A file that exists is loaded alike however it is chosen. -/
theorem load_of_exists
    {path : Path}
    (hPath :
      chosenConfigPath env path = chosenConfigPath env given)
    (hExists :
      tree.exists? (chosenConfigPath env given) = true) :
    load env tree given = load env tree path := by
  simp [load, readFile, hPath, hExists]

/-
  With an empty home directory and nothing else to go by, a
  file below the working directory is read if there is one.
-/
theorem load_of_emptyHome
    (hHome : env.home? = some [])
    (hDirectory : Environment.value? env.configHome? = none)
    (hNothing : env.namedPath given = [])
    (tree : FileTree) :
    load env tree given =
      if tree.exists? Path.localConfig then
        load env tree Path.localConfig
      else
        ({} : Settings).override env := by
  have hLocal :
      chosenConfigPath env given = Path.localConfig := by
    rw [chosenConfigPath_eq, hNothing,
      configPath_of_emptyHome hHome hDirectory]
  have hNamed :
      chosenConfigPath env Path.localConfig =
        chosenConfigPath env given :=
    hLocal.symm
  split_ifs with hExists
  · exact load_of_exists hNamed (hLocal ▸ hExists)
  · apply load_of_unnamed_missing hNothing
    rw [hLocal]
    exact Bool.eq_false_iff.mpr hExists

/- Without a home directory no file is read then. -/
theorem load_of_noHome
    (hHome : env.home? = none)
    (hDirectory : Environment.value? env.configHome? = none)
    (hNothing : env.namedPath given = [])
    (tree : FileTree) :
    load env tree given = ({} : Settings).override env := by
  apply load_of_unnamed_missing hNothing
  rw [chosenConfigPath_eq, hNothing,
    configPath_of_noHome hHome hDirectory]
  rfl

/-
  Variables that are set to the empty text count as not set,
  except for the home directory where it has a part in the
  path. Then other files are read, whatever the tree: with
  nothing else to go by, the one below the working directory.
-/
theorem empty_as_unset_iff
    (h : env.Cleared cleared)
    (given : Path) :
    (∀ settings : Settings,
        settings.override cleared = settings.override env) ∧
      (Path.expandHome cleared.home? given =
          Path.expandHome env.home? given ↔
        ¬(env.LosesHome cleared ∧
          Path.startsAtHome given = true)) ∧
      (configPath cleared given = configPath env given ↔
        ¬(env.LosesHome cleared ∧ env.UsesHome given)) ∧
      (chosenConfigPath cleared given =
          chosenConfigPath env given ↔
        ¬(env.LosesHome cleared ∧
          env.UsesHome (env.namedPath given))) ∧
      ((∀ tree, load cleared tree given = load env tree given) ↔
        ¬(env.LosesHome cleared ∧
          env.UsesHome (env.namedPath given))) ∧
      (env.LosesHome cleared →
        env.namedPath given = [] →
          Environment.value? env.configHome? = none →
            ∀ tree,
              load cleared tree given =
                  ({} : Settings).override env ∧
                load env tree given =
                  if tree.exists? Path.localConfig then
                    load env tree Path.localConfig
                  else
                    ({} : Settings).override env) := by
  refine
    ⟨override_cleared h, expandHome_cleared_iff h,
      configPath_cleared_iff h, ?_, load_cleared_iff h, ?_⟩
  · rw [chosenConfigPath_eq, chosenConfigPath_eq,
      h.namedPath_eq given]
    exact configPath_cleared_iff h
  · intro hLost hNothing hDirectory tree
    have hUnnamed : cleared.namedPath given = [] :=
      (h.namedPath_eq given).trans hNothing
    have hCleared :
        Environment.value? cleared.configHome? = none :=
      (h.value?_eq .configHome).trans hDirectory
    constructor
    · rw [load_of_noHome hLost.2 hCleared hUnnamed,
        override_cleared h]
    · exact load_of_emptyHome hLost.1 hDirectory hNothing tree

end Settings

namespace Sample

/- An environment in which the home directory is empty. -/
def homeless : Environment :=
  { home? := some [] }

end Sample

/- The scope of a file below the working directory is in force. -/
theorem Settings.empty_as_unset_iff_of_homeless :
    Sample.homeless.Cleared {} ∧
      Settings.load {}
          (.withLocalConfig
            (Text.lit "[mapping]\nscope = \"local\""))
          [] =
        .ok {} ∧
      Settings.load Sample.homeless
          (.withLocalConfig
            (Text.lit "[mapping]\nscope = \"local\""))
          [] =
        .ok { scope := Text.lit "local" } := by
  have hCleared : Sample.homeless.Cleared {} := by
    rintro ⟨⟩
    case home => exact .inr ⟨rfl, rfl⟩
    all_goals exact .inl rfl
  have hLost : Sample.homeless.LosesHome {} := ⟨rfl, rfl⟩
  have hLoads :=
    (Settings.empty_as_unset_iff hCleared []).2.2.2.2.2 hLost
      rfl rfl
      (.withLocalConfig
        (Text.lit "[mapping]\nscope = \"local\""))
  refine ⟨hCleared, hLoads.1.trans rfl, hLoads.2.trans ?_⟩
  rfl

end DocumentMapper
