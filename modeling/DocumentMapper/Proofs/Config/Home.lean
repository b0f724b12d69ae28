import DocumentMapper.Proofs.Config.Location
import DocumentMapper.Proofs.Text.Trimming

/-
  Paths below the home directory.

  A tilde in front of a path stands for the home directory,
  and the byte behind it is dropped with it. That byte is
  meant to be a slash; where it is another one, the path loses
  a byte of a name. What is left may still begin with a slash,
  and then it is an absolute path, so that the home directory
  is lost. In all other cases the path keeps what is written
  behind its tilde, and leads below the home directory.

  Key definitions include:
    * `Path.Mangled`
    * `Path.Keeps`
    * `Path.IsBelow`

  Main statements include:
    * `Path.IsBelow.locate?_eq`
    * `Path.keeps_expandHome_iff`
    * `Settings.load_of_resolve?_eq`
    * `Settings.expanded_unless_mangled`
-/

namespace DocumentMapper

------------------------------------------------------------
-- Walking
------------------------------------------------------------

namespace FileTree

variable {tree : FileTree}
variable {place : Place}
variable {components : List Text}

/- A walk goes on from where its first part leads. -/
theorem follow?_append
    (tree : FileTree)
    (place : Place)
    (before behind : List Text) :
    tree.follow? place (before ++ behind) =
      (tree.follow? place before).bind fun next =>
        tree.follow? next behind := by
  induction before generalizing place with
  | nil => rfl
  | cons c rest ih =>
      rw [List.cons_append, follow?, follow?]
      split_ifs
      · rfl
      · exact ih _

/- An empty component makes no difference where a walk goes on. -/
theorem follow?_stay
    (h : components ≠ []) :
    ((tree.follow? place [[]]).bind fun next =>
        tree.follow? next components) =
      tree.follow? place components := by
  cases components with
  | nil => exact absurd rfl h
  | cons c rest =>
      by_cases hDirectory : tree.hasDirectory place = true
      · simp [follow?, hDirectory, Place.step]
      · simp [follow?, hDirectory]

end FileTree

------------------------------------------------------------
-- Paths Below a Directory
------------------------------------------------------------

namespace Path

/-
  The path is that of a directory with the rest behind it, and
  a slash in between; one at the end of the directory will do.
-/
def IsBelow
    (home rest path : Path) : Prop :=
  path = home ++ 0x2F :: rest ∨
    home.getLast? = some 0x2F ∧ path = home ++ rest

variable {home rest path : Path}

/- A relative path is joined as one below. -/
theorem isBelow_join
    (hHome : home ≠ [])
    (hRelative : isAbsolute rest = false) :
    IsBelow home rest (join home rest) := by
  rw [join, if_neg (Bool.eq_false_iff.mp hRelative),
    if_neg hHome]
  split_ifs with hSlash
  · exact .inr ⟨hSlash, rfl⟩
  · exact .inl rfl

/- The rest stands at the end, behind a slash. -/
theorem IsBelow.suffix
    (h : IsBelow home rest path) :
    0x2F :: rest <:+ path := by
  rcases h with rfl | ⟨hSlash, rfl⟩
  · exact List.suffix_append home (0x2F :: rest)
  · rcases List.getLast?_eq_some_iff.mp hSlash with
      ⟨lead, rfl⟩
    rw [List.append_assoc]
    exact List.suffix_append lead (0x2F :: rest)

/- The directory stands in front. -/
theorem IsBelow.home_prefix
    (h : IsBelow home rest path) :
    home <+: path := by
  rcases h with rfl | ⟨-, rfl⟩ <;>
    exact List.prefix_append home _

/- No zero byte in front, none in what is read of it. -/
theorem beforeZero_append
    (hZero : 0 ∉ home)
    (rest : Text) :
    Text.beforeZero (home ++ rest) =
      home ++ Text.beforeZero rest := by
  refine List.takeWhile_append_of_pos fun b hMem => ?_
  have hNotZero : b ≠ 0 := fun hIs => hZero (hIs ▸ hMem)
  exact decide_eq_true hNotZero

/- A directory without a zero byte is read as a whole. -/
theorem beforeZero_of_not_mem
    (hZero : 0 ∉ home) :
    Text.beforeZero home = home := by
  have hNil : Text.beforeZero [] = [] := rfl
  have hAppend := beforeZero_append hZero []
  rwa [hNil, List.append_nil] at hAppend

/- A path has components. -/
theorem components_ne_nil
    (path : Path) :
    components path ≠ [] :=
  Text.split_ne_nil 0x2F _

/- Behind a slash, other components follow. -/
theorem components_append
    (hZero : 0 ∉ home)
    (rest : Path) :
    components (home ++ 0x2F :: rest) =
      components home ++ components rest := by
  have hSlash :
      Text.beforeZero (0x2F :: rest) =
        0x2F :: Text.beforeZero rest :=
    rfl
  rw [components, beforeZero_append hZero, hSlash,
    Text.split_append, components, components,
    beforeZero_of_not_mem hZero]

/- A walk along a path below passes through the directory. -/
theorem IsBelow.follow?_eq
    (h : IsBelow home rest path)
    (hZero : 0 ∉ home)
    (tree : FileTree)
    (place : Place) :
    tree.follow? place (components path) =
      (tree.follow? place (components home)).bind fun next =>
        tree.follow? next (components rest) := by
  rcases h with rfl | ⟨hSlash, rfl⟩
  · rw [components_append hZero, FileTree.follow?_append]
  · rcases List.getLast?_eq_some_iff.mp hSlash with
      ⟨lead, rfl⟩
    have hLead : 0 ∉ lead := fun hMem =>
      hZero (List.mem_append_left _ hMem)
    have hEmpty : components [] = [[]] := rfl
    rw [List.append_assoc, List.singleton_append,
      components_append hLead, components_append hLead, hEmpty,
      FileTree.follow?_append, FileTree.follow?_append,
      Option.bind_assoc]
    congr 1
    funext next
    exact
      (FileTree.follow?_stay (components_ne_nil rest)).symm

/-
  A path below a directory leads where the rest leads from the
  directory, unless it is too long as a whole.
-/
theorem IsBelow.locate?_eq
    (h : IsBelow home rest path)
    (hHome : home ≠ [])
    (hZero : 0 ∉ home)
    (hShort : isTooLong path = false)
    (tree : FileTree) :
    tree.locate? path =
      (tree.locate? home).bind fun place =>
        tree.follow? place (components rest) := by
  rcases h.home_prefix with ⟨behind, hPath⟩
  have hRead : Text.beforeZero path =
        home ++ Text.beforeZero behind := by
    rw [← hPath, beforeZero_append hZero]
  have hWhole : Text.beforeZero home = home :=
    beforeZero_of_not_mem hZero
  have hSome : Text.beforeZero path ≠ [] := by
    rw [hRead]
    exact List.append_ne_nil_of_left_ne_nil hHome _
  have hHomeShort : isTooLong home = false := by
    rw [isTooLong, decide_eq_false_iff_not, hRead,
      List.length_append] at hShort
    rw [isTooLong, decide_eq_false_iff_not, hWhole]
    omega
  have hStart : Place.start path = Place.start home := by
    rw [Place.start, Place.start, isAbsolute, isAbsolute,
      ← hPath, List.head?_append_of_ne_nil _ hHome]
  rw [FileTree.locate?, FileTree.locate?,
    if_neg (by simp [hSome, hShort]),
    if_neg (by simp [hWhole, hHome, hHomeShort]),
    h.follow?_eq hZero, hStart]

------------------------------------------------------------
-- Tildes
------------------------------------------------------------

/-
  Behind the tilde stands another byte than a slash, or a
  slash and an absolute path.
-/
def Mangled
    (p : Path) : Prop :=
  ∃ b rest,
    p = 0x7E :: b :: rest ∧
      (b ≠ 0x2F ∨ isAbsolute rest = true)

/- Nothing of the path is lost but a tilde in front. -/
def Keeps
    (p path : Path) : Prop :=
  if startsAtHome p then p.tail <:+ path else path = p

/- A byte behind the tilde is dropped, whatever it is. -/
theorem expandHome_tilde_cons
    (home rest : Path)
    (b : UInt8) :
    expandHome (some home) (0x7E :: b :: rest) =
      join home rest :=
  rfl

/- An absolute path takes the place of the home directory. -/
theorem join_of_isAbsolute
    (home : Path)
    (h : isAbsolute rest = true) :
    join home rest = rest :=
  if_pos h

/- Whether a path is mangled is up to what follows its tilde. -/
theorem mangled_cons_iff
    {b : UInt8} :
    Mangled (0x7E :: b :: rest) ↔
      b ≠ 0x2F ∨ isAbsolute rest = true := by
  constructor
  · rintro ⟨other, behind, hCons, hMangled⟩
    rw [List.cons.injEq, List.cons.injEq] at hCons
    rcases hCons with ⟨-, rfl, rfl⟩
    exact hMangled
  · exact fun hMangled => ⟨b, rest, rfl, hMangled⟩

/- A lone tilde and a path without one are not mangled. -/
theorem not_mangled_of_short
    (h : startsAtHome path = false ∨ path = [0x7E]) :
    ¬Mangled path := by
  rintro ⟨b, rest, rfl, -⟩
  rcases h with hStarts | hShort
  · cases hStarts
  · cases hShort

/- What is behind the tilde is kept where one slash is dropped. -/
theorem suffix_join_iff
    {b : UInt8}
    (hHome : home ≠ []) :
    b :: rest <:+ join home rest ↔
      ¬Mangled (0x7E :: b :: rest) := by
  rw [mangled_cons_iff, not_or, not_not, Bool.not_eq_true]
  cases hAbsolute : isAbsolute rest with
  | true =>
      rw [join_of_isAbsolute home hAbsolute]
      refine iff_of_false (fun hSuffix => ?_) nofun
      have hLength := hSuffix.length_le
      rw [List.length_cons] at hLength
      omega
  | false =>
      have hSlash := (isBelow_join hHome hAbsolute).suffix
      refine ⟨fun hSuffix => ⟨?_, rfl⟩, ?_⟩
      · -- two ends of one length are the same
        have hEnds : b :: rest <:+ 0x2F :: rest :=
          List.suffix_of_suffix_length_le hSuffix hSlash
            (Nat.le_refl _)
        have hSame := hEnds.eq_of_length rfl
        exact (List.cons.inj hSame).1
      · rintro ⟨rfl, -⟩
        exact hSlash

/- A path keeps what stands behind its tilde unless it is mangled. -/
theorem keeps_expandHome_iff
    (hHome : home ≠ [])
    (p : Path) :
    Keeps p (expandHome (some home) p) ↔ ¬Mangled p := by
  cases hStarts : startsAtHome p with
  | false =>
      rw [Keeps, hStarts,
        expandHome_of_not_startsAtHome _ hStarts]
      exact
        iff_of_true rfl (not_mangled_of_short (.inl hStarts))
  | true =>
      rcases exists_of_startsAtHome hStarts with ⟨rest, rfl⟩
      rw [Keeps, if_pos hStarts, List.tail_cons]
      cases rest with
      | nil =>
          exact
            iff_of_true List.nil_suffix
              (not_mangled_of_short (.inr rfl))
      | cons b rest =>
          rw [expandHome_tilde_cons]
          exact suffix_join_iff hHome

end Path

------------------------------------------------------------
-- Settings
------------------------------------------------------------

namespace Settings

variable {env : Environment}
variable {given home : Path}

/- Of all files, only the chosen one has a part in the settings. -/
theorem load_of_resolve?_eq
    {tree other : FileTree}
    (h :
      tree.resolve? (chosenConfigPath env given) =
        other.resolve? (chosenConfigPath env given)) :
    load env tree given = load env other given := by
  have hExists :
      tree.exists? (chosenConfigPath env given) =
        other.exists? (chosenConfigPath env given) := by
    rw [FileTree.exists?, FileTree.exists?, h]
  have hRead :
      tree.read (chosenConfigPath env given) =
        other.read (chosenConfigPath env given) := by
    rw [FileTree.read, FileTree.read, h]
  simp only [load, readFile, hExists, hRead]

/- A file that is named is looked for where its path leads. -/
theorem chosenConfigPath_of_named
    (h : env.namedPath given ≠ []) :
    chosenConfigPath env given =
      Path.expandHome env.home? (env.namedPath given) := by
  rw [chosenConfigPath_eq, configPath_of_ne_nil h]

/-
  A tilde is the home directory, and what follows its slash
  leads on from there. The byte behind the tilde is taken for
  that slash whatever it is, and an absolute path behind it
  takes the place of the home directory; only then something
  of the path is lost, and the file that is opened for the
  settings is not the one that is named.
-/
theorem expanded_unless_mangled
    (hHome : home ≠ []) :
    Path.expandHome (some home) [0x7E] =
        Path.expandHome (some home) [0x7E, 0x2F] ∧
      (∀ rest,
        Path.isAbsolute rest = false →
          let path :=
            Path.expandHome (some home) (0x7E :: 0x2F :: rest)
          Path.IsBelow home rest path ∧
            (0 ∉ home →
              Path.isTooLong path = false →
                ∀ tree : FileTree,
                  tree.locate? path =
                    (tree.locate? home).bind fun place =>
                      tree.follow? place
                        (Path.components rest))) ∧
      (∀ rest,
        Path.isAbsolute rest = true →
          Path.expandHome (some home) (0x7E :: 0x2F :: rest) =
            rest) ∧
      (∀ b rest,
        Path.expandHome (some home) (0x7E :: b :: rest) =
          Path.expandHome (some home) (0x7E :: 0x2F :: rest)) ∧
      (∀ p,
        Path.startsAtHome p = false →
          Path.expandHome (some home) p = p) ∧
      (∀ p,
        Path.Keeps p (Path.expandHome (some home) p) ↔
          ¬Path.Mangled p) ∧
      ∀ env given,
        env.home? = some home →
          env.namedPath given ≠ [] →
            (Path.Keeps (env.namedPath given)
                (chosenConfigPath env given) ↔
              ¬Path.Mangled (env.namedPath given)) ∧
              ∀ tree other : FileTree,
                tree.resolve? (chosenConfigPath env given) =
                    other.resolve?
                      (chosenConfigPath env given) →
                  load env tree given =
                    load env other given := by
  refine
    ⟨rfl, fun rest hRelative => ?_,
      fun rest hAbsolute =>
        Path.join_of_isAbsolute home hAbsolute,
      fun b rest => rfl,
      fun p => Path.expandHome_of_not_startsAtHome _,
      Path.keeps_expandHome_iff hHome,
      fun env given hEnv hNamed => ?_⟩
  · have hBelow := Path.isBelow_join hHome hRelative
    exact ⟨hBelow, hBelow.locate?_eq hHome⟩
  · rw [chosenConfigPath_of_named hNamed, hEnv]
    refine ⟨Path.keeps_expandHome_iff hHome _, ?_⟩
    rw [← hEnv, ← chosenConfigPath_of_named hNamed]
    exact fun tree other => load_of_resolve?_eq

end Settings

namespace Sample

/- An environment with a home directory. -/
def atHome : Environment :=
  { home? := some (Text.lit "/home/ann") }

end Sample

/- The home of another user is taken for a directory of one's own. -/
theorem Settings.expanded_unless_mangled_of_atHome :
    chosenConfigPath Sample.atHome (Text.lit "~bob/c.toml") =
        Text.lit "/home/ann/ob/c.toml" ∧
      ¬Path.Keeps (Text.lit "~bob/c.toml")
        (chosenConfigPath Sample.atHome
          (Text.lit "~bob/c.toml")) := by
  have hMangled : Path.Mangled (Text.lit "~bob/c.toml") :=
    ⟨0x62, Text.lit "ob/c.toml", by decide, .inl (by decide)⟩
  rcases Settings.expanded_unless_mangled
      (show Text.lit "/home/ann" ≠ [] by decide) with
    ⟨-, -, -, -, -, -, hNamed⟩
  have hKeeps :=
    (hNamed Sample.atHome (Text.lit "~bob/c.toml") rfl
      (by decide)).1
  exact ⟨by decide, fun hKept => hKeeps.mp hKept hMangled⟩

end DocumentMapper
