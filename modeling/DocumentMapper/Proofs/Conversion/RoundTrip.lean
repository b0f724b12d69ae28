import DocumentMapper.Conversion.Basic
import DocumentMapper.Proofs.Json.Normal
import DocumentMapper.Proofs.Result
import Mathlib.Data.List.Forall2

/-
  Values that are written and read back.

  Where every registered conversion reads back what it wrote,
  so does the conversion of every type through its structure.

  Key definitions include:
    * `FieldType.Alike`
    * `Conversions.Storable`
    * `Conversions.Keeps`, `Conversions.WritesAlike`
    * `Conversions.ReadsBack`

  Main statements include:
    * `Conversions.ReadsBack.keeps`
    * `Conversions.ReadsBack.writesAlike`
-/

namespace DocumentMapper

------------------------------------------------------------
-- Values That Agree
------------------------------------------------------------

/-
  Two values are the same, JSON values inside of them up to
  the form of their whole numbers.
-/
def FieldType.Alike :
    (t : FieldType) → t.Value → t.Value → Prop
  | .json, a, b => a.normal = b.normal
  | .option t, a, b => Option.Rel (Alike t) a b
  | .list t, a, b => List.Forall₂ (Alike t) a b
  | .map t, a, b =>
      List.Forall₂ (fun x y => x.1 = y.1 ∧ Alike t x.2 y.2)
        a.entries b.entries
  | _, a, b => a = b

namespace Conversions

variable {s : Conversions}
variable {t : FieldType}

------------------------------------------------------------
-- Values That Can Be Kept
------------------------------------------------------------

/-
  A value can be kept: its fractions are finite, its points in
  time whole milliseconds, its JSON values survive as texts,
  and what an optional value holds is not written as null,
  which is how an absent one is written.
-/
def Storable
    (s : Conversions) : (t : FieldType) → t.Value → Prop
  | .double, x => x.isFinite = true
  | .float, x => x.isFinite = true
  | .time, t => 1000000 ∣ t.nanoseconds.toInt
  | .json, j => j.Storable
  | .option t, v =>
      ∀ w ∈ v, Storable s t w ∧
        (s.find? (.option t) = none → s.write t w ≠ .ok .null)
  | .list t, items => ∀ v ∈ items, Storable s t v
  | .map t, m => ∀ entry ∈ m.entries, Storable s t entry.2
  | _, _ => True

/- What is written of a type is read back after it was a text. -/
def Keeps
    (s : Conversions)
    (t : FieldType) : Prop :=
  ∀ v j, s.Storable t v → s.write t v = .ok j →
    j.Storable ∧
      ∃ w, s.read t j.normal = .ok w ∧ t.Alike w v

/- Values that agree are written as values that agree. -/
def WritesAlike
    (s : Conversions)
    (t : FieldType) : Prop :=
  ∀ v w j, t.Alike w v → s.write t v = .ok j →
    ∃ k, s.write t w = .ok k ∧ k.normal = j.normal

/-
  Every registered conversion reads back what it wrote. A
  conversion for a type that cannot be constructed never
  reads anything.
-/
def ReadsBack
    (s : Conversions) : Prop :=
  ∀ t, (s.find? t).isSome → s.Keeps t ∧ s.WritesAlike t

------------------------------------------------------------
-- Structure
------------------------------------------------------------

/- A type with a conversion of its own is written by it. -/
theorem write_of_find?
    {c : Conversion t}
    (h : s.find? t = some c)
    (v : t.Value) :
    s.write t v = c.write v := by
  rw [write.eq_def, h]

/- A constructible type with a conversion of its own is read by it. -/
theorem read_of_find?
    {c : Conversion t}
    (h : s.find? t = some c)
    (hConstructible : t.isConstructible = true)
    (value : Json) :
    s.read t value = c.read value := by
  rw [read.eq_def, h]
  exact if_pos hConstructible

/- Items are written one by one. -/
theorem writeItems_eq_ok_iff
    {α : Type}
    {write : α → Result Json}
    {items : List α}
    {js : List Json} :
    writeItems write items = .ok js ↔
      List.Forall₂ (fun v j => write v = .ok j) items js := by
  induction items generalizing js with
  | nil => simp [writeItems, eq_comm]
  | cons v rest ih =>
      rw [writeItems, List.forall₂_cons_left_iff]
      cases hWrite : write v with
      | error e => simp
      | ok j =>
          cases hRest : writeItems write rest with
          | error e =>
              simp only [reduceCtorEq, Except.ok.injEq, false_iff]
              rintro ⟨k, ks, -, hks, -⟩
              rw [← ih, hRest] at hks
              cases hks
          | ok given =>
              simp only [Except.ok.injEq]
              constructor
              · rintro rfl
                exact ⟨j, given, rfl, ih.mp hRest, rfl⟩
              · rintro ⟨k, ks, rfl, hks, rfl⟩
                rw [← ih, hRest] at hks
                cases hks
                rfl

/- Entries are written one by one, under their keys. -/
theorem writeEntries_eq_ok_iff
    {α : Type}
    {write : α → Result Json}
    {entries : List (Text × α)}
    {members : List (Text × Json)} :
    writeEntries write entries = .ok members ↔
      List.Forall₂
        (fun x m => x.1 = m.1 ∧ write x.2 = .ok m.2)
        entries members := by
  induction entries generalizing members with
  | nil => simp [writeEntries, eq_comm]
  | cons x rest ih =>
      rcases x with ⟨key, v⟩
      rw [writeEntries, List.forall₂_cons_left_iff]
      cases hWrite : write v with
      | error e => simp
      | ok j =>
          cases hRest : writeEntries write rest with
          | error e =>
              simp only [reduceCtorEq, Except.ok.injEq, false_iff]
              rintro ⟨m, ms, -, hms, -⟩
              rw [← ih, hRest] at hms
              cases hms
          | ok given =>
              simp only [Except.ok.injEq]
              constructor
              · rintro rfl
                exact ⟨(key, j), given, ⟨rfl, rfl⟩,
                  ih.mp hRest, rfl⟩
              · rintro ⟨⟨_, _⟩, ms, ⟨rfl, rfl⟩, hms, rfl⟩
                rw [← ih, hRest] at hms
                cases hms
                rfl

/- An absent value is written as null. -/
theorem write_none
    (h : s.find? (.option t) = none) :
    s.write (.option t) none =
      if s.supports t then
        .ok .null
      else
        .error (ConversionFault.unsupported t).toError := by
  rw [write.eq_def, h]

/- A present value is written as what it holds. -/
theorem write_some
    (h : s.find? (.option t) = none)
    (v : t.Value) :
    s.write (.option t) (some v) = s.write t v := by
  rw [write.eq_def, h]

/- A list is written item by item. -/
theorem write_list
    (h : s.find? (.list t) = none)
    (items : List t.Value) :
    s.write (.list t) items =
      (writeItems (s.write t) items).map .array := by
  rw [write.eq_def, h]

/- A map is written entry by entry. -/
theorem write_map
    (h : s.find? (.map t) = none)
    (m : TextMap t.Value) :
    s.write (.map t) m =
      (writeEntries (s.write t) m.entries).map .object := by
  rw [write.eq_def, h]

/- Null is read as an absent value. -/
theorem read_null
    (h : s.find? (.option t) = none) :
    s.read (.option t) .null = .ok none := by
  rw [read.eq_def, h]

/- Anything but null is read as a present value. -/
theorem read_some
    (h : s.find? (.option t) = none)
    {value : Json}
    (hNull : value ≠ .null) :
    s.read (.option t) value = (s.read t value).map some := by
  rw [read.eq_def, h]
  cases value with
  | null => contradiction
  | _ => rfl

/- A list is read item by item. -/
theorem read_list
    (h : s.find? (.list t) = none)
    (items : List Json) :
    s.read (.list t) (.array items) =
      readItems (s.read t) items := by
  rw [read.eq_def, h]

/- A map is read member by member. -/
theorem read_map
    (h : s.find? (.map t) = none)
    (members : List (Text × Json)) :
    s.read (.map t) (.object members) =
      readMembers (s.read t) .empty members := by
  rw [read.eq_def, h]

------------------------------------------------------------
-- Reading Back
------------------------------------------------------------

/- A list is read if each of its items is. -/
theorem readItems_of_forall₂
    {α : Type}
    {read : Json → Result α}
    {js : List Json}
    {ws : List α}
    (h : List.Forall₂ (fun j w => read j = .ok w) js ws) :
    readItems read js = .ok ws := by
  induction h with
  | nil => rfl
  | cons hItem _ ih => rw [readItems, hItem, ih]

/- Entries that are paired by their keys have the same ones. -/
theorem keys_eq_of_forall₂
    {α β : Type}
    {R : Text × α → Text × β → Prop}
    {xs : List (Text × α)}
    {ys : List (Text × β)}
    (h : List.Forall₂ (fun x y => x.1 = y.1 ∧ R x y) xs ys) :
    Association.keys xs = Association.keys ys := by
  induction h with
  | nil => rfl
  | cons hEntry _ ih =>
      exact List.cons_eq_cons.mpr ⟨hEntry.1, ih⟩

/- The keys of a map are distinct. -/
theorem nodup_keys
    {α : Type}
    (m : TextMap α) :
    (Association.keys m.entries).Nodup := by
  rw [Association.keys, List.Nodup, List.pairwise_map]
  refine m.sorted.imp fun hLt hEq => ?_
  rw [hEq] at hLt
  exact Std.lt_irrefl hLt

/- Entries with the keys of a map ascend as its entries do. -/
theorem ascending_of_keys_eq
    {α β : Type}
    {m : TextMap α}
    {entries : List (Text × β)}
    (h : Association.keys entries = Association.keys m.entries) :
    entries.Pairwise fun a b => a.1 < b.1 := by
  have hSorted :
      (Association.keys m.entries).Pairwise (· < ·) :=
    List.pairwise_map.mpr m.sorted
  rw [← h] at hSorted
  exact List.pairwise_map.mp hSorted

/- A key beyond all others is bound at the end. -/
theorem insertEntry_of_forall_lt
    {α : Type}
    {key : Text}
    {value : α}
    {entries : List (Text × α)}
    (h : ∀ entry ∈ entries, entry.1 < key) :
    TextMap.insertEntry key value entries =
      entries ++ [(key, value)] := by
  induction entries with
  | nil => rfl
  | cons entry rest ih =>
      rcases entry with ⟨k, v⟩
      rw [List.forall_mem_cons] at h
      have hNotLt : ¬ key < k := Std.not_gt_of_lt h.1
      have hNe : key ≠ k := fun hEq => by
        subst hEq
        exact hNotLt h.1
      rw [TextMap.insertEntry, if_neg hNotLt, if_neg hNe, ih h.2]
      rfl

/-
  Members with ascending keys are read behind the entries that
  were there before.
-/
theorem readMembers_of_forall₂
    {α : Type}
    {read : Json → Result α}
    {members : List (Text × Json)}
    {ws : List (Text × α)}
    (found : TextMap α)
    (hRead :
      List.Forall₂ (fun m w => m.1 = w.1 ∧ read m.2 = .ok w.2)
        members ws)
    (hSorted : ws.Pairwise fun a b => a.1 < b.1)
    (hFound : ∀ x ∈ found.entries, ∀ w ∈ ws, x.1 < w.1) :
    ∃ m,
      readMembers read found members = .ok m ∧
        m.entries = found.entries ++ ws := by
  induction hRead generalizing found with
  | nil => exact ⟨found, rfl, (List.append_nil _).symm⟩
  | @cons member w members ws hMember _ ih =>
      rcases member with ⟨key, j⟩
      rcases w with ⟨key', w⟩
      rcases hMember with ⟨hKey, hItem⟩
      dsimp only at hKey hItem
      subst hKey
      rw [List.pairwise_cons] at hSorted
      have hEnd :
          (found.insert key w).entries =
            found.entries ++ [(key, w)] :=
        insertEntry_of_forall_lt fun x hx =>
          hFound x hx _ List.mem_cons_self
      have hLess :
          ∀ x ∈ (found.insert key w).entries,
            ∀ y ∈ ws, x.1 < y.1 := by
        intro x hx y hy
        rw [hEnd, List.mem_append, List.mem_singleton] at hx
        rcases hx with hx | rfl
        · exact hFound x hx y (List.mem_cons_of_mem _ hy)
        · exact hSorted.1 y hy
      rcases ih (found.insert key w) hSorted.2 hLess with
        ⟨m, hReads, hEntries⟩
      refine ⟨m, ?_, ?_⟩
      · rw [readMembers, hItem]
        exact hReads
      · rw [hEntries, hEnd, List.append_assoc]
        rfl

/- Items that were written one by one are read back. -/
theorem keeps_items
    (ih : s.Keeps t)
    {items : List t.Value}
    {js : List Json}
    (hStorable : ∀ v ∈ items, s.Storable t v)
    (hWrite :
      List.Forall₂ (fun v j => s.write t v = .ok j) items js) :
    (∀ j ∈ js, j.Storable) ∧
      ∃ ws,
        List.Forall₂ (fun j w => s.read t j = .ok w)
            (Json.normalItems js) ws ∧
          List.Forall₂ t.Alike ws items := by
  induction hWrite with
  | nil => exact ⟨by simp, [], .nil, .nil⟩
  | cons hItem _ ihRest =>
      rw [List.forall_mem_cons] at hStorable
      rcases ih _ _ hStorable.1 hItem with ⟨hKept, w, hRead, hAlike⟩
      rcases ihRest hStorable.2 with ⟨hRest, ws, hReads, hAll⟩
      exact
        ⟨List.forall_mem_cons.mpr ⟨hKept, hRest⟩, w :: ws,
          .cons hRead hReads, .cons hAlike hAll⟩

/- Entries that were written one by one are read back. -/
theorem keeps_entries
    (ih : s.Keeps t)
    {entries : List (Text × t.Value)}
    {members : List (Text × Json)}
    (hStorable : ∀ x ∈ entries, s.Storable t x.2)
    (hWrite :
      List.Forall₂
        (fun x m => x.1 = m.1 ∧ s.write t x.2 = .ok m.2)
        entries members) :
    (∀ m ∈ members, m.2.Storable) ∧
      ∃ ws : List (Text × t.Value),
        List.Forall₂
            (fun m w => m.1 = w.1 ∧ s.read t m.2 = .ok w.2)
            (Json.normalMembers members) ws ∧
          List.Forall₂ (fun x y => x.1 = y.1 ∧ t.Alike x.2 y.2)
            ws entries := by
  induction hWrite with
  | nil => exact ⟨by simp, [], .nil, .nil⟩
  | @cons x m _ _ hEntry _ ihRest =>
      rw [List.forall_mem_cons] at hStorable
      rcases ih _ _ hStorable.1 hEntry.2 with
        ⟨hKept, w, hRead, hAlike⟩
      rcases ihRest hStorable.2 with ⟨hRest, ws, hReads, hAll⟩
      exact
        ⟨List.forall_mem_cons.mpr ⟨hKept, hRest⟩,
          (x.1, w) :: ws, .cons ⟨hEntry.1.symm, hRead⟩ hReads,
          .cons ⟨rfl, hAlike⟩ hAll⟩

/- An optional type is kept where its inner type is. -/
theorem keeps_option
    (hFind : s.find? (.option t) = none)
    (ih : s.Keeps t) :
    s.Keeps (.option t) := by
  intro v j hStorable hWrite
  cases v with
  | none =>
      rw [write_none hFind] at hWrite
      split at hWrite
      · cases hWrite
        exact ⟨⟨trivial, trivial⟩, none, read_null hFind, .none⟩
      · cases hWrite
  | some v =>
      rcases hStorable v rfl with ⟨hInner, hNull⟩
      rw [write_some hFind] at hWrite
      rcases ih _ _ hInner hWrite with ⟨hKept, w, hRead, hAlike⟩
      have hSome : j.normal ≠ .null := by
        rw [ne_eq, Json.normal_eq_null_iff]
        rintro rfl
        exact hNull hFind hWrite
      refine ⟨hKept, some w, ?_, .some hAlike⟩
      rw [read_some hFind hSome, hRead]
      rfl

/- A list type is kept where its inner type is. -/
theorem keeps_list
    (hFind : s.find? (.list t) = none)
    (ih : s.Keeps t) :
    s.Keeps (.list t) := by
  intro items j hStorable hWrite
  rw [write_list hFind] at hWrite
  rcases Result.map_eq_ok_iff.mp hWrite with ⟨js, hItems, rfl⟩
  rcases keeps_items ih hStorable
      (writeItems_eq_ok_iff.mp hItems) with
    ⟨hKept, ws, hRead, hAlike⟩
  refine ⟨Json.storable_array_iff.mpr hKept, ws, ?_, hAlike⟩
  rw [Json.normal, read_list hFind, readItems_of_forall₂ hRead]

/- A map type is kept where its inner type is. -/
theorem keeps_map
    (hFind : s.find? (.map t) = none)
    (ih : s.Keeps t) :
    s.Keeps (.map t) := by
  intro map j hStorable hWrite
  rw [write_map hFind] at hWrite
  rcases Result.map_eq_ok_iff.mp hWrite with
    ⟨members, hEntries, rfl⟩
  rw [writeEntries_eq_ok_iff] at hEntries
  rcases keeps_entries ih hStorable hEntries with
    ⟨hKept, ws, hReads, hAlike⟩
  rcases readMembers_of_forall₂ .empty hReads
      (ascending_of_keys_eq (keys_eq_of_forall₂ hAlike))
      nofun with
    ⟨m, hRead, hSame⟩
  have hKeys : (Association.keys members).Nodup := by
    rw [← keys_eq_of_forall₂ hEntries]
    exact nodup_keys map
  refine ⟨Json.storable_object_iff.mpr ⟨hKeys, hKept⟩, m, ?_, ?_⟩
  · rw [Json.normal, read_map hFind, hRead]
  · rw [FieldType.Alike, hSame]
    exact hAlike

/- Only types without a conversion need a look at their structure. -/
theorem ReadsBack.keeps_of_structure
    (h : s.ReadsBack)
    (hStructure : s.find? t = none → s.Keeps t) :
    s.Keeps t := by
  cases hFind : s.find? t with
  | none => exact hStructure hFind
  | some c => exact (h t (by simp [hFind])).1

/-
  Reading undoes writing for every type: by induction on the
  structure of the type, down to the registered conversions.
-/
theorem ReadsBack.keeps
    (h : s.ReadsBack)
    (t : FieldType) :
    s.Keeps t := by
  induction t with
  | option t ih =>
      exact h.keeps_of_structure fun hFind =>
        keeps_option hFind ih
  | list t ih =>
      exact h.keeps_of_structure fun hFind => keeps_list hFind ih
  | map t ih =>
      exact h.keeps_of_structure fun hFind => keeps_map hFind ih
  | _ =>
      apply h.keeps_of_structure
      intro hFind v j _ hWrite
      rw [write.eq_def, hFind] at hWrite
      cases hWrite

------------------------------------------------------------
-- Writing Again
------------------------------------------------------------

/- Items that agree are written alike. -/
theorem writesAlike_items
    (ih : s.WritesAlike t)
    {items others : List t.Value}
    {js : List Json}
    (hAlike : List.Forall₂ t.Alike others items)
    (hWrite :
      List.Forall₂ (fun v j => s.write t v = .ok j) items js) :
    ∃ ks,
      List.Forall₂ (fun v j => s.write t v = .ok j) others ks ∧
        Json.normalItems ks = Json.normalItems js := by
  induction hWrite generalizing others with
  | nil =>
      cases hAlike
      exact ⟨[], .nil, rfl⟩
  | cons hItem _ ihRest =>
      cases hAlike with
      | cons hFirst hOthers =>
          rcases ih _ _ _ hFirst hItem with ⟨k, hk, hNormal⟩
          rcases ihRest hOthers with ⟨ks, hks, hNormals⟩
          refine ⟨k :: ks, .cons hk hks, ?_⟩
          rw [Json.normalItems, Json.normalItems, hNormal,
            hNormals]

/- Entries that agree are written alike. -/
theorem writesAlike_entries
    (ih : s.WritesAlike t)
    {entries others : List (Text × t.Value)}
    {members : List (Text × Json)}
    (hAlike :
      List.Forall₂ (fun x y => x.1 = y.1 ∧ t.Alike x.2 y.2)
        others entries)
    (hWrite :
      List.Forall₂
        (fun x m => x.1 = m.1 ∧ s.write t x.2 = .ok m.2)
        entries members) :
    ∃ again,
      List.Forall₂
          (fun x m => x.1 = m.1 ∧ s.write t x.2 = .ok m.2)
          others again ∧
        Json.normalMembers again = Json.normalMembers members := by
  induction hWrite generalizing others with
  | nil =>
      cases hAlike
      exact ⟨[], .nil, rfl⟩
  | @cons x m _ _ hEntry _ ihRest =>
      cases hAlike with
      | cons hFirst hOthers =>
          rcases m with ⟨key, j⟩
          rcases ih _ _ _ hFirst.2 hEntry.2 with ⟨k, hk, hNormal⟩
          rcases ihRest hOthers with ⟨again, hAgain, hNormals⟩
          refine ⟨(key, k) :: again,
            .cons ⟨hFirst.1.trans hEntry.1, hk⟩ hAgain, ?_⟩
          rw [Json.normalMembers, Json.normalMembers, hNormal,
            hNormals]

/- An optional type is written alike where its inner type is. -/
theorem writesAlike_option
    (hFind : s.find? (.option t) = none)
    (ih : s.WritesAlike t) :
    s.WritesAlike (.option t) := by
  intro v w j hAlike hWrite
  cases hAlike with
  | none => exact ⟨j, hWrite, rfl⟩
  | some hInner =>
      rw [write_some hFind] at hWrite ⊢
      exact ih _ _ _ hInner hWrite

/- A list type is written alike where its inner type is. -/
theorem writesAlike_list
    (hFind : s.find? (.list t) = none)
    (ih : s.WritesAlike t) :
    s.WritesAlike (.list t) := by
  intro v w j hAlike hWrite
  rw [write_list hFind] at hWrite ⊢
  rcases Result.map_eq_ok_iff.mp hWrite with ⟨js, hItems, rfl⟩
  rcases writesAlike_items ih hAlike
      (writeItems_eq_ok_iff.mp hItems) with
    ⟨ks, hks, hNormal⟩
  refine ⟨.array ks, ?_, by rw [Json.normal, Json.normal, hNormal]⟩
  rw [writeItems_eq_ok_iff.mpr hks]
  rfl

/- A map type is written alike where its inner type is. -/
theorem writesAlike_map
    (hFind : s.find? (.map t) = none)
    (ih : s.WritesAlike t) :
    s.WritesAlike (.map t) := by
  intro v w j hAlike hWrite
  rw [write_map hFind] at hWrite ⊢
  rcases Result.map_eq_ok_iff.mp hWrite with
    ⟨members, hEntries, rfl⟩
  rcases writesAlike_entries ih hAlike
      (writeEntries_eq_ok_iff.mp hEntries) with
    ⟨again, hAgain, hNormal⟩
  refine ⟨.object again, ?_,
    by rw [Json.normal, Json.normal, hNormal]⟩
  rw [writeEntries_eq_ok_iff.mpr hAgain]
  rfl

/- Only types without a conversion need a look at their structure. -/
theorem ReadsBack.writesAlike_of_structure
    (h : s.ReadsBack)
    (hStructure : s.find? t = none → s.WritesAlike t) :
    s.WritesAlike t := by
  cases hFind : s.find? t with
  | none => exact hStructure hFind
  | some c => exact (h t (by simp [hFind])).2

/- Values of every type that agree are written alike. -/
theorem ReadsBack.writesAlike
    (h : s.ReadsBack)
    (t : FieldType) :
    s.WritesAlike t := by
  induction t with
  | option t ih =>
      exact h.writesAlike_of_structure fun hFind =>
        writesAlike_option hFind ih
  | list t ih =>
      exact h.writesAlike_of_structure fun hFind =>
        writesAlike_list hFind ih
  | map t ih =>
      exact h.writesAlike_of_structure fun hFind =>
        writesAlike_map hFind ih
  | _ =>
      refine h.writesAlike_of_structure
        fun hFind v w j _ hWrite => ?_
      rw [write.eq_def, hFind] at hWrite
      cases hWrite

end Conversions

end DocumentMapper
