import DocumentMapper.Proofs.Result
import DocumentMapper.Store.Memory
import Mathlib.Data.List.Nodup

/-
  Stores with the history of their changes.

  A ledger remembers which change of which document got which
  token. Every change gets a token that no change had before.
  The token of a document therefore names one change: that of
  this document which came last.

  Key definitions include:
    * `Change`
    * `Ledger`, `Ledger.opening`
    * `Ledger.IsFresh`
    * `Ledger.Serves`
    * `Ledger.Consistent`
    * `Ledger.IsCurrent`
    * `Ledger.Replaces`, `Ledger.Misses`

  Main statements include:
    * `Ledger.consistent_opening`
    * `Ledger.Serves.consistent`
    * `Ledger.Consistent.isCurrent`
    * `Ledger.Serves.replaces_or_misses`
-/

namespace DocumentMapper

------------------------------------------------------------
-- Requests of a Store
------------------------------------------------------------

namespace MemoryStore

/- The store, about to give the token to its next change. -/
def issuing
    (s : MemoryStore)
    (token : UInt64) : MemoryStore :=
  { s with nextCas := token }

variable {s store : MemoryStore}
variable {attempt? : Option Attempt}
variable {r : Request}
variable {record : StoreRecord}
variable {document : StoredDocument}

/- A document is required where there is one. -/
theorem require_eq_ok_iff :
    s.require r = .ok document ↔
      s.document? r.place = some document := by
  unfold require
  cases s.document? r.place with
  | none => simp
  | some given => simp

/-
  A request that is carried out looks, stores its payload, or
  drops its document.
-/
theorem perform_ok_cases
    (h : s.perform attempt? r = .ok (record, store)) :
    (r.kind = .get ∨ r.kind = .exists) ∧ store = s ∨
      (r.kind = .insert ∨ r.kind = .upsert ∨
          r.kind = .replace) ∧
        (record, store) = s.put attempt? r ∨
      r.kind = .remove ∧ (record, store) = s.drop r := by
  unfold perform at h
  cases hKind : r.kind with
  | «exists» =>
      rw [hKind] at h
      dsimp only at h
      split at h <;>
      · cases h
        exact .inl ⟨.inr rfl, rfl⟩
  | get =>
      rw [hKind] at h
      rcases Result.bind_eq_ok_iff.mp h with ⟨document, -, hOk⟩
      cases hOk
      exact .inl ⟨.inl rfl, rfl⟩
  | insert =>
      rw [hKind] at h
      dsimp only at h
      split at h
      · cases h
      · cases h
        exact .inr (.inl ⟨.inl rfl, rfl⟩)
  | upsert =>
      rw [hKind] at h
      cases h
      exact .inr (.inl ⟨.inr (.inl rfl), rfl⟩)
  | replace =>
      rw [hKind] at h
      rcases Result.bind_eq_ok_iff.mp h with ⟨document, -, hRest⟩
      rcases Result.bind_eq_ok_iff.mp hRest with ⟨_, -, hOk⟩
      cases hOk
      exact .inr (.inl ⟨.inr (.inr rfl), rfl⟩)
  | remove =>
      rw [hKind] at h
      rcases Result.bind_eq_ok_iff.mp h with ⟨document, -, hRest⟩
      rcases Result.bind_eq_ok_iff.mp hRest with ⟨_, -, hOk⟩
      cases hOk
      exact .inr (.inr ⟨rfl, rfl⟩)

/- What is got is the stored document, with its token. -/
theorem perform_get
    (hKind : r.kind = .get)
    (h : s.perform attempt? r = .ok (record, store)) :
    ∃ document,
      s.document? r.place = some document ∧
        record.content? = some document.payload ∧
        record.cas = document.cas ∧
        record.result? = resultFor attempt? r document := by
  unfold perform at h
  rw [hKind] at h
  rcases Result.bind_eq_ok_iff.mp h with ⟨document, hFound, hOk⟩
  cases hOk
  exact ⟨document, require_eq_ok_iff.mp hFound, rfl, rfl, rfl⟩

/-
  A replacement under a token finds the document with this
  token, finds it with another one, or does not find it.
-/
theorem perform_replace
    (hKind : r.kind = .replace)
    (hCas : r.cas ≠ 0) :
    s.perform attempt? r =
      match s.document? r.place with
      | none => .error (noDocument r.id)
      | some document =>
          if document.cas = r.cas then
            .ok (s.put attempt? r)
          else
            .error (tokenMismatch r.id) := by
  unfold perform require checkToken
  rw [hKind]
  cases s.document? r.place with
  | none => rfl
  | some document =>
      by_cases hSame : document.cas = r.cas
      · simp [hSame, bind, Except.bind, pure, Except.pure]
      · simp [hSame, hCas, Ne.symm hSame, bind, Except.bind]

end MemoryStore

------------------------------------------------------------
-- Ledgers
------------------------------------------------------------

/-
  A change of a document: its place, its token, and what is
  stored there now, if anything is.
-/
structure Change where
  place : Text
  token : UInt64
  payload? : Option Text
  deriving DecidableEq, Repr

/- The change that a request makes under a token, if it makes one. -/
def Request.change?
    (r : Request)
    (token : UInt64) : Option Change :=
  match r.kind with
  | .insert | .upsert | .replace =>
      some ⟨r.place, token, some (r.payload?.getD [])⟩
  | .remove => some ⟨r.place, token, none⟩
  | .get | .exists => none

/-
  A store, how it was in the beginning, and all changes since,
  the newest first.
-/
structure Ledger where
  origin : MemoryStore
  changes : List Change
  store : MemoryStore

namespace Ledger

/- Nothing has changed yet. -/
def opening
    (store : MemoryStore) : Ledger :=
  ⟨store, [], store⟩

/- No change and no document had the token before. -/
structure IsFresh
    (l : Ledger)
    (token : UInt64) : Prop where
  ne_zero : token ≠ 0
  changes : ∀ c ∈ l.changes, c.token ≠ token
  origin :
    ∀ place document,
      l.origin.document? place = some document →
        document.cas ≠ token

/-
  The ledger after a request, with the answer to it. A change
  gets a fresh token; a request that fails changes nothing.
-/
inductive Serves
    (l : Ledger)
    (attempt? : Option Attempt)
    (r : Request) : Reply StoreRecord → Ledger → Prop where
  | ok
      {token : UInt64}
      {record : StoreRecord}
      {store : MemoryStore}
      (hFresh : l.IsFresh token)
      (hPerform :
        (l.store.issuing token).perform attempt? r =
          .ok (record, store)) :
      Serves l attempt? r (.ok record)
        { l with
          store
          changes := (r.change? token).toList ++ l.changes }
  | failed
      {token : UInt64}
      {e : Error}
      (hFresh : l.IsFresh token)
      (hPerform :
        (l.store.issuing token).perform attempt? r =
          .error e) :
      Serves l attempt? r (.failed e) l

/- What the history says is stored at a place. -/
def expected?
    (l : Ledger)
    (place : Text) : Option StoredDocument :=
  match l.changes.find? (·.place = place) with
  | some c => c.payload?.map (⟨·, c.token⟩)
  | none => l.origin.document? place

/-
  The store is what the history says, and no token was given
  twice.
-/
structure Consistent
    (l : Ledger) : Prop where
  document? :
    ∀ place, l.store.document? place = l.expected? place
  distinct : (l.changes.map (·.token)).Nodup
  ne_zero : ∀ c ∈ l.changes, c.token ≠ 0
  foreign :
    ∀ c ∈ l.changes, ∀ place document,
      l.origin.document? place = some document →
        document.cas ≠ c.token

/- Without changes the store is as it was. -/
theorem consistent_opening
    (store : MemoryStore) :
    (opening store).Consistent where
  document? _ := rfl
  distinct := List.nodup_nil
  ne_zero := nofun
  foreign := nofun

variable {l l' : Ledger}
variable {attempt? : Option Attempt}
variable {r : Request}
variable {reply : Reply StoreRecord}

/- A change with a fresh token keeps the tokens distinct. -/
theorem Consistent.cons
    {token : UInt64}
    {c : Change}
    {store : MemoryStore}
    (h : l.Consistent)
    (hFresh : l.IsFresh token)
    (hToken : c.token = token)
    (hStore :
      ∀ place,
        store.document? place =
          if c.place = place then
            c.payload?.map (⟨·, token⟩)
          else
            l.store.document? place) :
    ({ l with store, changes := c :: l.changes } :
      Ledger).Consistent where
  document? := by
    intro place
    rw [hStore, expected?, List.find?_cons]
    by_cases hPlace : c.place = place
    · simp [hPlace, hToken]
    · simp only [hPlace, if_false, decide_false]
      exact h.document? place
  distinct := by
    rw [List.map_cons, List.nodup_cons]
    refine ⟨?_, h.distinct⟩
    intro hMem
    rcases List.mem_map.mp hMem with ⟨old, hOld, hSame⟩
    exact hFresh.changes old hOld (hSame.trans hToken)
  ne_zero := by
    intro old hOld
    rcases List.mem_cons.mp hOld with rfl | hOld
    · exact hToken ▸ hFresh.ne_zero
    · exact h.ne_zero old hOld
  foreign := by
    intro old hOld
    rcases List.mem_cons.mp hOld with rfl | hOld
    · exact hToken ▸ hFresh.origin
    · exact h.foreign old hOld

/- Serving a request keeps store and history consistent. -/
theorem Serves.consistent
    (hServes : l.Serves attempt? r reply l')
    (h : l.Consistent) :
    l'.Consistent := by
  cases hServes with
  | failed hFresh hPerform => exact h
  | @ok token record store hFresh hPerform =>
      rcases MemoryStore.perform_ok_cases hPerform with
        ⟨hKind, rfl⟩ | ⟨hKind, hPut⟩ | ⟨hKind, hDrop⟩
      · have hNone : r.change? token = none := by
          rcases hKind with hKind | hKind <;>
            simp [Request.change?, hKind]
        rw [hNone]
        exact ⟨h.document?, h.distinct, h.ne_zero, h.foreign⟩
      · have hSome :
            r.change? token =
              some
                ⟨r.place, token, some (r.payload?.getD [])⟩ := by
          rcases hKind with hKind | hKind | hKind <;>
            simp [Request.change?, hKind]
        rw [hSome]
        apply h.cons hFresh rfl
        intro place
        have hStore := congrArg Prod.snd hPut
        dsimp only at hStore ⊢
        rw [hStore, MemoryStore.document?_put]
        rfl
      · have hSome :
            r.change? token = some ⟨r.place, token, none⟩ := by
          simp [Request.change?, hKind]
        rw [hSome]
        apply h.cons hFresh rfl
        intro place
        have hStore := congrArg Prod.snd hDrop
        dsimp only at hStore ⊢
        rw [hStore, MemoryStore.document?_drop]
        rfl

/- A get or a write is answered with the token that is stored. -/
theorem Serves.stored_token
    {record : StoreRecord}
    (hServes : l.Serves attempt? r (.ok record) l')
    (hKind :
      r.kind = .get ∨ r.kind = .insert ∨ r.kind = .upsert ∨
        r.kind = .replace) :
    ∃ document,
      l'.store.document? r.place = some document ∧
        document.cas = record.cas ∧
        (attempt? = none → record.result? = none) := by
  cases hServes with
  | @ok token _ store hFresh hPerform =>
      rcases MemoryStore.perform_ok_cases hPerform with
        ⟨hLook, rfl⟩ | ⟨-, hPut⟩ | ⟨hRemove, -⟩
      · have hGet : r.kind = .get := by
          rcases hLook with hGet | hExists
          · exact hGet
          · simp [hExists] at hKind
        rcases MemoryStore.perform_get hGet hPerform with
          ⟨document, hFound, -, hCas, hResult⟩
        refine ⟨document, hFound, hCas.symm, ?_⟩
        rintro rfl
        exact hResult
      · cases hPut
        refine
          ⟨⟨r.payload?.getD [], token⟩, ?_, rfl, ?_⟩
        · have hStored :=
            MemoryStore.document?_put
              (l.store.issuing token) attempt? r r.place
          rwa [if_pos rfl] at hStored
        · rintro rfl
          rfl
      · simp [hRemove] at hKind

------------------------------------------------------------
-- Revisions
------------------------------------------------------------

/-
  The revision of a document with this token is the current
  one: no change of the document came after the change that
  got the token. If no change got it, then the document had it
  in the beginning and was never changed.
-/
structure IsCurrent
    (l : Ledger)
    (place : Text)
    (token : UInt64) : Prop where
  since :
    ∀ newer c older,
      l.changes = newer ++ c :: older →
        c.token = token →
          c.place = place ∧ ∀ x ∈ newer, x.place ≠ place
  origin :
    (∀ c ∈ l.changes, c.token ≠ token) →
      (∃ document,
          l.origin.document? place = some document ∧
            document.cas = token) ∧
        ∀ x ∈ l.changes, x.place ≠ place

/- A token leads to one place of the history. -/
theorem Consistent.split_unique
    (h : l.Consistent)
    {newer newer' older older' : List Change}
    {c c' : Change}
    (hFirst : l.changes = newer ++ c :: older)
    (hSecond : l.changes = newer' ++ c' :: older')
    (hToken : c.token = c'.token) :
    newer = newer' ∧ c = c' ∧ older = older' := by
  have hAt :
      (l.changes.map (·.token))[newer.length]? =
        some c.token := by
    simp [hFirst]
  have hAt' :
      (l.changes.map (·.token))[newer'.length]? =
        some c'.token := by
    simp [hSecond]
  have hBound :
      newer.length < (l.changes.map (·.token)).length := by
    simp [hFirst]
  have hLength : newer.length = newer'.length :=
    (List.getElem?_inj hBound h.distinct).mp
      (by rw [hAt, hAt', hToken])
  rcases List.append_inj (hFirst.symm.trans hSecond) hLength with
    ⟨hNewer, hRest⟩
  rcases List.cons.inj hRest with ⟨hChange, hOlder⟩
  exact ⟨hNewer, hChange, hOlder⟩

/- A stored token is that of the current revision. -/
theorem Consistent.isCurrent
    (h : l.Consistent)
    {place : Text}
    {document : StoredDocument}
    (hDocument : l.store.document? place = some document) :
    l.IsCurrent place document.cas := by
  rw [h.document?, expected?] at hDocument
  cases hFind : l.changes.find? (·.place = place) with
  | none =>
      rw [hFind] at hDocument
      have hNone : ∀ x ∈ l.changes, x.place ≠ place := by
        simpa using List.find?_eq_none.mp hFind
      constructor
      · intro newer c older hChanges hToken
        have hMem : c ∈ l.changes := by simp [hChanges]
        exact
          absurd hToken.symm (h.foreign c hMem _ _ hDocument)
      · exact fun _ => ⟨⟨document, hDocument, rfl⟩, hNone⟩
  | some last =>
      rw [hFind] at hDocument
      rcases Option.map_eq_some_iff.mp hDocument with
        ⟨payload, -, rfl⟩
      rcases List.find?_eq_some_iff_append.mp hFind with
        ⟨hPlace, newer, older, hChanges, hNewer⟩
      constructor
      · intro newer' c older' hChanges' hToken
        have hSplit :=
          h.split_unique hChanges hChanges' hToken.symm
        rcases hSplit with ⟨rfl, rfl, rfl⟩
        exact ⟨by simpa using hPlace, by simpa using hNewer⟩
      · intro hNone
        exact absurd rfl (hNone last (by simp [hChanges]))

------------------------------------------------------------
-- Replacements
------------------------------------------------------------

/-
  The document had the token that the request shows, and its
  revision was the current one. Now it has the payload of the
  request under a fresh token; all other documents are as
  before.
-/
structure Replaces
    (l : Ledger)
    (attempt? : Option Attempt)
    (r : Request)
    (reply : Reply StoreRecord)
    (l' : Ledger)
    (token : UInt64) : Prop where
  stored :
    ∃ document,
      l.store.document? r.place = some document ∧
        document.cas = r.cas
  current : l.IsCurrent r.place r.cas
  fresh : l.IsFresh token
  document? :
    ∀ place,
      l'.store.document? place =
        if r.place = place then
          some ⟨r.payload?.getD [], token⟩
        else
          l.store.document? place
  answered :
    ∃ record,
      reply = .ok record ∧ record.cas = token ∧
        (attempt? = none → record.result? = none)

/-
  The document had another token, or there was none. Nothing
  has changed.
-/
structure Misses
    (l : Ledger)
    (r : Request)
    (reply : Reply StoreRecord)
    (l' : Ledger) : Prop where
  stored :
    ∀ document,
      l.store.document? r.place = some document →
        document.cas ≠ r.cas
  unchanged : l' = l
  answered :
    reply =
      .failed
        (match l.store.document? r.place with
        | none => MemoryStore.noDocument r.id
        | some _ => MemoryStore.tokenMismatch r.id)

/- A replacement under a token replaces or misses. -/
theorem Serves.replaces_or_misses
    (hServes : l.Serves attempt? r reply l')
    (h : l.Consistent)
    (hKind : r.kind = .replace)
    (hCas : r.cas ≠ 0) :
    (∃ token, l.Replaces attempt? r reply l' token) ∨
      l.Misses r reply l' := by
  cases hFound : l.store.document? r.place with
  | none =>
      have hRefused :
          ∀ token,
            (l.store.issuing token).perform attempt? r =
              .error (MemoryStore.noDocument r.id) := by
        intro token
        rw [MemoryStore.perform_replace hKind hCas]
        exact hFound ▸ rfl
      right
      cases hServes with
      | ok hFresh hPerform =>
          cases (hRefused _).symm.trans hPerform
      | failed hFresh hPerform =>
          cases (hRefused _).symm.trans hPerform
          exact ⟨by simp [hFound], rfl, by rw [hFound]⟩
  | some document =>
      have hPerformed :
          ∀ token,
            (l.store.issuing token).perform attempt? r =
              if document.cas = r.cas then
                .ok ((l.store.issuing token).put attempt? r)
              else
                .error (MemoryStore.tokenMismatch r.id) := by
        intro token
        rw [MemoryStore.perform_replace hKind hCas]
        exact hFound ▸ rfl
      by_cases hSame : document.cas = r.cas
      · left
        cases hServes with
        | @ok token record store hFresh hPerform =>
            rw [hPerformed, if_pos hSame] at hPerform
            cases hPerform
            refine ⟨token, ⟨document, hFound, hSame⟩, ?_,
              hFresh, fun place => ?_, _, rfl, rfl, ?_⟩
            · exact hSame ▸ h.isCurrent hFound
            · exact MemoryStore.document?_put _ attempt? _ place
            · rintro rfl
              rfl
        | failed hFresh hPerform =>
            rw [hPerformed, if_pos hSame] at hPerform
            cases hPerform
      · right
        cases hServes with
        | ok hFresh hPerform =>
            rw [hPerformed, if_neg hSame] at hPerform
            cases hPerform
        | failed hFresh hPerform =>
            rw [hPerformed, if_neg hSame] at hPerform
            cases hPerform
            refine ⟨?_, rfl, by rw [hFound]⟩
            intro other hOther
            cases hFound.symm.trans hOther
            exact hSame

end Ledger

end DocumentMapper
