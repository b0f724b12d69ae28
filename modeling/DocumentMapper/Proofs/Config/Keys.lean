import DocumentMapper.Config.Settings
import Mathlib.Data.List.Sort

/-
  The keys that a configuration file can give values to, and
  what these values do.

  A key of the file is one of few that are known, or it has no
  effect. As each key stands in the file only once, the order
  of the keys does not matter: the settings are those that the
  file declares, key by key.

  Key definitions include:
    * `SettingKey`, `SettingKey.Admits`
    * `Settings.updated`

  Main statements include:
    * `Settings.setAll_eq_ok_iff`
    * `Settings.setAll_congr`
-/

namespace DocumentMapper

------------------------------------------------------------
-- Readings
------------------------------------------------------------

/- The spellings of a boolean that holds. -/
def affirmations : List Text :=
  [Text.lit "true", Text.lit "1", Text.lit "yes"]

/- The spellings of a boolean that does not hold. -/
def negations : List Text :=
  [Text.lit "false", Text.lit "0", Text.lit "no"]

/- A boolean holds exactly if it is spelled so. -/
theorem readBoolean?_eq_some_true_iff
    {value : Text} :
    readBoolean? value = some true ↔ value ∈ affirmations := by
  simp only [readBoolean?, affirmations, List.mem_cons,
    List.not_mem_nil, or_false]
  split
  · simpa
  · rename_i hNot
    split <;> simpa using hNot

/- The spellings of either kind are the readable ones. -/
theorem readBoolean?_isSome_iff
    {value : Text} :
    (readBoolean? value).isSome ↔
      value ∈ affirmations ∨ value ∈ negations := by
  simp only [readBoolean?, affirmations, negations,
    List.mem_cons, List.not_mem_nil, or_false]
  split
  · rename_i hTrue
    simp [hTrue]
  · rename_i hNotTrue
    split
    · rename_i hFalse
      simp [hFalse]
    · rename_i hNotFalse
      simp [hNotTrue, hNotFalse]

/- Seconds are read as the number that is written. -/
theorem readSeconds?_eq_some_iff
    {value : Text}
    {seconds : Int64} :
    readSeconds? value = some seconds ↔
      Text.readInt? value = some seconds.toInt ∧
        0 ≤ seconds := by
  have hSign : 0 ≤ seconds ↔ 0 ≤ seconds.toInt := by
    rw [Int64.le_iff_toInt_le, Int64.toInt_zero]
  rw [hSign, readSeconds?]
  cases Text.readInt? value with
  | none => simp
  | some n =>
      simp only [Option.some.injEq]
      constructor
      · intro h
        split at h
        · rename_i hRange
          cases h
          rw [Int64.toInt_ofInt_of_le
            (Int.le_trans (by decide) hRange.1)
            (Int.lt_of_le_of_lt hRange.2 (by decide))]
          exact ⟨rfl, hRange.1⟩
        · cases h
      · rintro ⟨rfl, hSign⟩
        rw [if_pos ⟨hSign, Int64.toInt_le seconds⟩,
          Int64.ofInt_toInt]

/- A level is known exactly by its name. -/
theorem LogLevel.ofName?_isSome_iff
    {value : Text} :
    (LogLevel.ofName? value).isSome ↔
      ∃ level : LogLevel, level.name = value := by
  have hAll : ∀ level : LogLevel, level ∈ LogLevel.all := by
    rintro ⟨⟩ <;> simp [LogLevel.all]
  simp [LogLevel.ofName?, List.find?_isSome, hAll]

/- A variable counts only with a value. -/
theorem Environment.ne_nil_of_value?
    {text? : Option Text}
    {value : Text}
    (h : Environment.value? text? = some value) :
    value ≠ [] := by
  simpa using (Option.filter_eq_some_iff.mp h).2

------------------------------------------------------------
-- Entries
------------------------------------------------------------

namespace TextMap

variable {α : Type}
variable {entries : List (Text × α)}
variable {key : Text}
variable {value : α}

/- Where keys ascend, a look-up finds each entry. -/
theorem lookup?_eq_some_iff
    (hSorted : entries.Pairwise fun a b => a.1 < b.1) :
    lookup? key entries = some value ↔
      (key, value) ∈ entries := by
  induction entries with
  | nil => simp [lookup?]
  | cons entry rest ih =>
      obtain ⟨k, v⟩ := entry
      have hLess := (List.pairwise_cons.mp hSorted).1
      rw [lookup?, List.mem_cons, Prod.mk.injEq]
      split
      · rename_i hKey
        subst hKey
        have hLater : (k, value) ∉ rest :=
          fun hMem => List.lt_irrefl k (hLess _ hMem)
        simp [hLater, eq_comm]
      · rename_i hKey
        simp [ih hSorted.of_cons, Ne.symm hKey]

/- Where keys ascend, the first of them does not come again. -/
theorem lookup?_eq_none_of_pairwise
    (hSorted :
      ((key, value) :: entries).Pairwise
        fun a b => a.1 < b.1) :
    lookup? key entries = none := by
  cases hFound : lookup? key entries with
  | none => rfl
  | some later =>
      have hMem :=
        (lookup?_eq_some_iff hSorted.of_cons).mp hFound
      exact absurd ((List.pairwise_cons.mp hSorted).1 _ hMem)
        (List.lt_irrefl key)

end TextMap

------------------------------------------------------------
-- Keys
------------------------------------------------------------

/- The settings that a file can declare. -/
inductive SettingKey where
  | scope
  | collection
  | typeKey
  | requireTypeMetadata
  | defaultExpiry
  | logLevel
  deriving DecidableEq

namespace SettingKey

/- The key under which a setting stands in a file. -/
def name : SettingKey → Text
  | .scope => Text.lit "scope"
  | .collection => Text.lit "collection"
  | .typeKey => Text.lit "type_key"
  | .requireTypeMetadata => Text.lit "require_type_metadata"
  | .defaultExpiry => Text.lit "default_expiry_seconds"
  | .logLevel => Text.lit "log_level"

/- The values that a setting can have. -/
def Admits : SettingKey → Text → Prop
  | .scope, value => value ≠ []
  | .collection, value => value ≠ []
  | .typeKey, _ => True
  | .requireTypeMetadata, value =>
      value ∈ affirmations ∨ value ∈ negations
  | .defaultExpiry, value =>
      ∃ n : Nat,
        Text.readInt? value = some (n : Int) ∧
          n ≤ Int64.maxValue.toInt
  | .logLevel, value => ∃ level : LogLevel, level.name = value

/- All keys. -/
def all : List SettingKey :=
  [.scope, .collection, .typeKey, .requireTypeMetadata,
    .defaultExpiry, .logLevel]

theorem mem_all
    (key : SettingKey) :
    key ∈ all := by
  cases key <;> simp [all]

/- The keys are told apart by their names. -/
theorem name_injective
    {a b : SettingKey}
    (h : a.name = b.name) :
    a = b := by
  cases a <;> cases b <;> first | rfl | exact absurd h (by decide)

/- A number of seconds is accepted exactly if it can be read. -/
theorem admits_defaultExpiry_iff
    {value : Text} :
    SettingKey.Admits .defaultExpiry value ↔
      (readSeconds? value).isSome := by
  rw [Option.isSome_iff_exists]
  constructor
  · rintro ⟨n, hRead, hBound⟩
    have hMax : Int64.maxValue.toInt = 9223372036854775807 := by
      decide
    have hInt : (Int64.ofInt n).toInt = n :=
      Int64.toInt_ofInt_of_le (by omega) (by omega)
    refine ⟨Int64.ofInt n, readSeconds?_eq_some_iff.mpr ?_⟩
    rw [hInt, Int64.le_iff_toInt_le, hInt, Int64.toInt_zero]
    exact ⟨hRead, Int.natCast_nonneg n⟩
  · rintro ⟨seconds, hSeconds⟩
    rcases readSeconds?_eq_some_iff.mp hSeconds with
      ⟨hRead, hSign⟩
    rw [Int64.le_iff_toInt_le, Int64.toInt_zero] at hSign
    rw [← Int.toNat_of_nonneg hSign] at hRead
    refine ⟨seconds.toInt.toNat, hRead, ?_⟩
    rw [Int.toNat_of_nonneg hSign]
    exact Int64.toInt_le seconds

end SettingKey

namespace Settings

------------------------------------------------------------
-- Applying the Values of a File
------------------------------------------------------------

/- The settings with the values that are declared for them. -/
def updated
    (settings : Settings)
    (declared? : SettingKey → Option Text) : Settings where
  scope := (declared? .scope).getD settings.scope
  collection := (declared? .collection).getD settings.collection
  typeKey := (declared? .typeKey).getD settings.typeKey
  requireTypeMetadata :=
    ((declared? .requireTypeMetadata).bind readBoolean?).getD
      settings.requireTypeMetadata
  defaultExpiry :=
    ((declared? .defaultExpiry).bind readSeconds?).getD
      settings.defaultExpiry
  logLevel := (declared? .logLevel).getD settings.logLevel

/- What the only entry of a file declares. -/
def single?
    (key : SettingKey)
    (value : Text) : SettingKey → Option Text :=
  fun other => if key = other then some value else none

/- A known key takes the values that it admits, and no others. -/
theorem set_name_eq_ok_iff
    {settings result : Settings}
    {key : SettingKey}
    {value : Text} :
    settings.set key.name value = .ok result ↔
      key.Admits value ∧
        settings.updated (single? key value) = result := by
  cases key with
  | scope =>
      rw [SettingKey.name, set, if_pos rfl]
      by_cases hEmpty : value = []
      · simp [SettingKey.Admits, hEmpty]
      · simp [SettingKey.Admits, hEmpty, updated, single?]
  | collection =>
      rw [SettingKey.name, set, if_neg (by decide), if_pos rfl]
      by_cases hEmpty : value = []
      · simp [SettingKey.Admits, hEmpty]
      · simp [SettingKey.Admits, hEmpty, updated, single?]
  | typeKey =>
      rw [SettingKey.name, set, if_neg (by decide),
        if_neg (by decide), if_pos rfl]
      simp [SettingKey.Admits, updated, single?]
  | requireTypeMetadata =>
      rw [SettingKey.name, set, if_neg (by decide),
        if_neg (by decide), if_neg (by decide), if_pos rfl,
        SettingKey.Admits, ← readBoolean?_isSome_iff]
      cases hRead : readBoolean? value with
      | none => simp
      | some b => simp [updated, single?, hRead]
  | defaultExpiry =>
      rw [SettingKey.name, set, if_neg (by decide),
        if_neg (by decide), if_neg (by decide),
        if_neg (by decide), if_pos rfl,
        SettingKey.admits_defaultExpiry_iff]
      cases hRead : readSeconds? value with
      | none => simp
      | some n => simp [updated, single?, hRead]
  | logLevel =>
      rw [SettingKey.name, set, if_neg (by decide),
        if_neg (by decide), if_neg (by decide),
        if_neg (by decide), if_neg (by decide), if_pos rfl,
        SettingKey.Admits, ← LogLevel.ofName?_isSome_iff,
        withLogLevel]
      cases LogLevel.ofName? value with
      | none => simp
      | some level => simp [updated, single?]

/- A key that is not known has no effect. -/
theorem set_of_forall_ne
    (settings : Settings)
    {key : Text}
    (value : Text)
    (h : ∀ known : SettingKey, known.name ≠ key) :
    settings.set key value = .ok settings := by
  have hScope := (h .scope).symm
  have hCollection := (h .collection).symm
  have hTypeKey := (h .typeKey).symm
  have hMetadata := (h .requireTypeMetadata).symm
  have hExpiry := (h .defaultExpiry).symm
  have hLevel := (h .logLevel).symm
  simp only [SettingKey.name] at *
  rw [set, if_neg hScope, if_neg hCollection, if_neg hTypeKey,
    if_neg hMetadata, if_neg hExpiry, if_neg hLevel]

/- What entries declare for each of the known keys. -/
def declaredIn?
    (entries : List (Text × Text)) : SettingKey → Option Text :=
  fun key => TextMap.lookup? key.name entries

/- The first entry of a known key declares the key. -/
theorem declaredIn?_cons
    (key other : SettingKey)
    (value : Text)
    (rest : List (Text × Text)) :
    declaredIn? ((key.name, value) :: rest) other =
      if key = other then
        some value
      else
        declaredIn? rest other := by
  by_cases hKey : key = other
  · simp [declaredIn?, TextMap.lookup?, hKey]
  · have hName : key.name ≠ other.name :=
      fun hEq => hKey (SettingKey.name_injective hEq)
    simp [declaredIn?, TextMap.lookup?, hKey, hName]

/- Later declarations are added to an earlier one of another key. -/
theorem updated_single?
    (settings : Settings)
    {key : SettingKey}
    (value : Text)
    {rest : List (Text × Text)}
    (h : TextMap.lookup? key.name rest = none) :
    (settings.updated (single? key value)).updated
        (declaredIn? rest) =
      settings.updated
        (declaredIn? ((key.name, value) :: rest)) := by
  have hNone : declaredIn? rest key = none := h
  cases key <;>
    simp [updated, single?, declaredIn?_cons, hNone]

/- All values are admitted if the first and the later ones are. -/
theorem admitted_cons_iff
    {key : SettingKey}
    {value : Text}
    {rest : List (Text × Text)}
    (h : TextMap.lookup? key.name rest = none) :
    (∀ other : SettingKey, ∀ given,
        declaredIn? ((key.name, value) :: rest) other =
            some given →
          other.Admits given) ↔
      key.Admits value ∧
        ∀ other : SettingKey, ∀ given,
          declaredIn? rest other = some given →
            other.Admits given := by
  simp only [declaredIn?_cons]
  constructor
  · intro hAll
    refine ⟨hAll key value (if_pos rfl), ?_⟩
    intro other given hGiven
    have hKey : key ≠ other := by
      rintro rfl
      rw [declaredIn?, h] at hGiven
      cases hGiven
    exact hAll other given (by rwa [if_neg hKey])
  · rintro ⟨hFirst, hOthers⟩ other given hGiven
    split at hGiven
    · rename_i hKey
      cases hGiven
      exact hKey ▸ hFirst
    · exact hOthers other given hGiven

/- All settings are applied if the first and the later ones are. -/
theorem setAll_cons_eq_ok_iff
    {settings result : Settings}
    {key value : Text}
    {rest : List (Text × Text)} :
    settings.setAll ((key, value) :: rest) = .ok result ↔
      ∃ given,
        settings.set key value = .ok given ∧
          given.setAll rest = .ok result := by
  rw [setAll]
  cases settings.set key value <;> simp [bind, Except.bind]

/-
  A file is applied exactly if each known key has a value that
  it admits. What stands under other keys does not matter.
-/
theorem setAll_eq_ok_iff
    {settings result : Settings}
    {entries : List (Text × Text)}
    (hSorted : entries.Pairwise fun a b => a.1 < b.1) :
    settings.setAll entries = .ok result ↔
      (∀ key : SettingKey, ∀ value,
        declaredIn? entries key = some value →
          key.Admits value) ∧
        settings.updated (declaredIn? entries) = result := by
  induction entries generalizing settings with
  | nil => simp [setAll, declaredIn?, TextMap.lookup?, updated]
  | cons entry rest ih =>
      obtain ⟨k, value⟩ := entry
      rw [setAll_cons_eq_ok_iff]
      by_cases hKnown : ∃ key : SettingKey, key.name = k
      · obtain ⟨key, rfl⟩ := hKnown
        have hFresh : TextMap.lookup? key.name rest = none :=
          TextMap.lookup?_eq_none_of_pairwise hSorted
        simp only [set_name_eq_ok_iff, ih hSorted.of_cons,
          admitted_cons_iff hFresh,
          ← updated_single? settings value hFresh]
        constructor
        · rintro ⟨_, ⟨hFirst, rfl⟩, hOthers, hResult⟩
          exact ⟨⟨hFirst, hOthers⟩, hResult⟩
        · rintro ⟨⟨hFirst, hOthers⟩, hResult⟩
          exact ⟨_, ⟨hFirst, rfl⟩, hOthers, hResult⟩
      · have hOther : ∀ key : SettingKey, key.name ≠ k :=
          fun key hEq => hKnown ⟨key, hEq⟩
        have hSame :
            declaredIn? ((k, value) :: rest) =
              declaredIn? rest := by
          funext key
          simp [declaredIn?, TextMap.lookup?,
            (hOther key).symm]
        simp [set_of_forall_ne settings value hOther, hSame,
          ih hSorted.of_cons]

------------------------------------------------------------
-- Other Keys
------------------------------------------------------------

/- The text is the name of a setting. -/
def isKnown
    (key : Text) : Bool :=
  SettingKey.all.any fun known => known.name = key

theorem isKnown_iff
    {key : Text} :
    isKnown key ↔ ∃ known : SettingKey, known.name = key := by
  simp [isKnown, SettingKey.mem_all]

/- Entries under other keys can be left out. -/
theorem setAll_filter_isKnown
    (settings : Settings)
    (entries : List (Text × Text)) :
    settings.setAll
        (entries.filter fun entry => isKnown entry.1) =
      settings.setAll entries := by
  induction entries generalizing settings with
  | nil => rfl
  | cons entry rest ih =>
      obtain ⟨key, value⟩ := entry
      by_cases hKnown : isKnown key
      · rw [List.filter_cons_of_pos (by simpa using hKnown),
          setAll, setAll]
        cases settings.set key value with
        | ok given => exact ih given
        | error fault => rfl
      · have hOther : ∀ known : SettingKey, known.name ≠ key :=
          fun known hEq => hKnown (isKnown_iff.mpr ⟨known, hEq⟩)
        rw [List.filter_cons_of_neg (by simpa using hKnown),
          ih, setAll, set_of_forall_ne settings value hOther]
        rfl

/- Maps that agree on the known keys have the same effect. -/
theorem setAll_congr
    (settings : Settings)
    {file other : TextMap Text}
    (h :
      ∀ key : SettingKey,
        other.get? key.name = file.get? key.name) :
    settings.setAll other.entries =
      settings.setAll file.entries := by
  have hSame :
      (other.entries.filter fun entry => isKnown entry.1) =
        file.entries.filter fun entry => isKnown entry.1 := by
    have : Std.Irrefl fun a b : Text × Text => a.1 < b.1 :=
      ⟨fun a => List.lt_irrefl a.1⟩
    have : Std.Antisymm fun a b : Text × Text => a.1 < b.1 :=
      ⟨fun a b hLess hMore =>
        absurd (List.lt_trans hLess hMore)
          (List.lt_irrefl a.1)⟩
    refine List.Pairwise.eq_of_mem_iff
      (other.sorted.filter _) (file.sorted.filter _) ?_
    rintro ⟨key, value⟩
    simp only [List.mem_filter, and_congr_left_iff,
      isKnown_iff]
    rintro ⟨known, rfl⟩
    rw [← TextMap.lookup?_eq_some_iff other.sorted,
      ← TextMap.lookup?_eq_some_iff file.sorted]
    exact Eq.congr_left (h known)
  rw [← setAll_filter_isKnown, hSame, setAll_filter_isKnown]

end Settings

end DocumentMapper
