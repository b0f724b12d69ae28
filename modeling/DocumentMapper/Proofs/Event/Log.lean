import DocumentMapper.Event.Bus
import Mathlib.Data.Set.Card

/-
  The event bus as a view of the log of its changes.

  The log lists all calls that changed who is subscribed, in
  the order in which they took effect. A subscription is live
  when a call of the log made it and no later call dropped its
  number. Liveness looks at the log only; the bus holds,
  counts and drops the live subscriptions and nothing else.

  Key definitions include:
    * `BusChange`, `EventBus.change`, `EventBus.after`
    * `EventBus.issues`
    * `EventBus.Orderly`
    * `EventBus.Live`, `EventBus.Mirrors`

  Main statements include:
    * `EventBus.pairwise_issues`
    * `EventBus.live_append_iff`
    * `EventBus.mem_after_iff`
    * `EventBus.mirrors`
-/

namespace DocumentMapper

------------------------------------------------------------
-- Changes
------------------------------------------------------------

/- A call that changes who is subscribed to a bus. -/
inductive BusChange (L : Type) where
  | subscribe (stage? : Option Stage) (listener : L)
  | unsubscribe (id : UInt64)
  deriving DecidableEq

/- The call makes a subscription. -/
def BusChange.subscribes
    {L : Type} : BusChange L → Bool
  | .subscribe _ _ => true
  | .unsubscribe _ => false

namespace EventBus

variable {L : Type}
variable {bus : EventBus L}
variable {log : List (BusChange L)}
variable {c : BusChange L}
variable {s : Subscription L}
variable {n : Nat}

/- The bus after a call. -/
def change
    (bus : EventBus L)
    (c : BusChange L) : EventBus L :=
  match c with
  | .subscribe stage? listener =>
      (bus.subscribe stage? listener).2
  | .unsubscribe id => (bus.unsubscribe id).2

/- The bus after calls, which was new before them. -/
def after
    (log : List (BusChange L)) : EventBus L :=
  log.foldl change {}

/- How many subscriptions were made. -/
def made
    (log : List (BusChange L)) : Nat :=
  log.countP BusChange.subscribes

/- The numbers that were given out, in order. -/
def issues
    (bus : EventBus L)
    (log : List (BusChange L)) : List UInt64 :=
  match log with
  | [] => []
  | .subscribe stage? listener :: rest =>
      (bus.subscribe stage? listener).1 ::
        issues (bus.subscribe stage? listener).2 rest
  | .unsubscribe id :: rest =>
      issues (bus.unsubscribe id).2 rest

@[simp]
theorem after_append
    (c : BusChange L) :
    after (log ++ [c]) = (after log).change c :=
  List.foldl_concat change {} c log

/- A subscription counts, and nothing else does. -/
theorem made_append
    (c : BusChange L) :
    made (log ++ [c]) =
      made log + if c.subscribes then 1 else 0 := by
  rw [made, List.countP_append, List.countP_singleton]
  rfl

/- What was made before was made. -/
theorem made_le_of_prefix
    {now : List (BusChange L)}
    (h : now <+: log) :
    made now ≤ made log :=
  h.sublist.countP_le

/- Numbers are given out one after the other. -/
theorem issues_eq
    (hNext : bus.nextId = UInt64.ofNat n) :
    bus.issues log =
      (List.range' n (made log)).map UInt64.ofNat := by
  induction log generalizing bus n with
  | nil => rfl
  | cons c rest ih =>
      cases c with
      | subscribe stage? listener =>
          have hLater :
              (bus.subscribe stage? listener).2.nextId =
                UInt64.ofNat (n + 1) := by
            rw [UInt64.ofNat_add, ← hNext]
            rfl
          have hMade :
              made (.subscribe stage? listener :: rest) =
                made rest + 1 :=
            List.countP_cons_of_pos rfl
          rw [issues, ih hLater, hMade, List.range'_succ,
            List.map_cons, ← hNext]
          rfl
      | unsubscribe id => exact ih hNext

/- No number is given out twice. -/
theorem pairwise_issues
    (hFew : made log < 2 ^ 64) :
    (issues {} log).Pairwise (· < ·) := by
  rw [issues_eq (n := 1) rfl, List.pairwise_map]
  apply List.Pairwise.imp_of_mem _ List.pairwise_lt_range'
  intro first second hFirst hSecond hLess
  rw [List.mem_range'_1] at hFirst hSecond
  rw [UInt64.lt_iff_toNat_lt,
    UInt64.toNat_ofNat_of_lt' (by unfold UInt64.size; omega),
    UInt64.toNat_ofNat_of_lt' (by unfold UInt64.size; omega)]
  exact hLess

------------------------------------------------------------
-- Orderly Buses
------------------------------------------------------------

/-
  After `n` subscriptions the numbers ascend, and the next one
  is greater than all of them.
-/
structure Orderly
    (bus : EventBus L)
    (n : Nat) : Prop where
  next : bus.nextId = UInt64.ofNat (n + 1)
  ascending : (bus.subscriptions.map (·.id)).Pairwise (· < ·)
  bounded : ∀ s ∈ bus.subscriptions, s.id.toNat ≤ n

/- Where numbers ascend, each stands for one subscription. -/
theorem eraseP_eq_filter
    {subscriptions : List (Subscription L)}
    (hAscending :
      (subscriptions.map (·.id)).Pairwise (· < ·))
    (id : UInt64) :
    subscriptions.eraseP (fun s => s.id = id) =
      subscriptions.filter fun s => s.id ≠ id := by
  induction subscriptions with
  | nil => rfl
  | cons first rest ih =>
      rw [List.map_cons, List.pairwise_cons] at hAscending
      by_cases hFirst : first.id = id
      · rw [List.eraseP_cons_of_pos (by simpa using hFirst),
          List.filter_cons_of_neg (by simpa using hFirst)]
        symm
        apply List.filter_eq_self.mpr
        intro s hMem
        have hLess := hAscending.1 _ (List.mem_map_of_mem hMem)
        rw [hFirst] at hLess
        simpa using (UInt64.ne_of_lt hLess).symm
      · rw [List.eraseP_cons_of_neg (by simpa using hFirst),
          List.filter_cons_of_pos (by simpa using hFirst),
          ih hAscending.2]

namespace Orderly

/- Dropping a number drops its subscription and no other. -/
theorem unsubscribe
    (h : bus.Orderly n)
    (id : UInt64) :
    (bus.unsubscribe id).2.subscriptions =
      bus.subscriptions.filter fun s => s.id ≠ id :=
  eraseP_eq_filter h.ascending id

/- A bus stays orderly while there are numbers left. -/
theorem change
    (h : bus.Orderly n)
    (c : BusChange L)
    (hFew : n + (if c.subscribes then 1 else 0) < 2 ^ 64) :
    (bus.change c).Orderly
      (n + if c.subscribes then 1 else 0) := by
  cases c with
  | subscribe stage? listener =>
      have hNew : bus.nextId.toNat = n + 1 := by
        rw [h.next]
        exact UInt64.toNat_ofNat_of_lt' hFew
      refine ⟨?_, ?_, ?_⟩
      · change bus.nextId + 1 = UInt64.ofNat (n + 1 + 1)
        rw [h.next, UInt64.ofNat_add (n + 1)]
        rfl
      · have hAll :
            (bus.change (.subscribe stage? listener)).subscriptions =
              bus.subscriptions ++
                [⟨bus.nextId, stage?, listener⟩] :=
          rfl
        rw [hAll, List.map_append, List.pairwise_append]
        refine ⟨h.ascending, List.pairwise_singleton _ _, ?_⟩
        intro earlier hEarlier id hId
        rcases List.mem_map.mp hEarlier with ⟨s, hMem, rfl⟩
        rw [List.map_singleton, List.mem_singleton] at hId
        rw [hId, UInt64.lt_iff_toNat_lt, hNew]
        have hBound := h.bounded s hMem
        omega
      · intro s hMem
        rcases List.mem_append.mp hMem with hOld | hSame
        · have hBound := h.bounded s hOld
          exact Nat.le_succ_of_le hBound
        · rw [List.mem_singleton.mp hSame]
          exact Nat.le_of_eq hNew
  | unsubscribe id =>
      have hLeft := h.unsubscribe id
      refine ⟨h.next, ?_, ?_⟩
      · change
          ((bus.unsubscribe id).2.subscriptions.map
            (·.id)).Pairwise (· < ·)
        rw [hLeft]
        apply List.Pairwise.sublist _ h.ascending
        exact List.filter_sublist.map _
      · intro s hMem
        change s ∈ (bus.unsubscribe id).2.subscriptions at hMem
        rw [hLeft] at hMem
        exact h.bounded s (List.mem_filter.mp hMem).1

end Orderly

/- Every log with few subscriptions leaves an orderly bus. -/
theorem orderly_after
    (hFew : made log < 2 ^ 64) :
    (after log).Orderly (made log) := by
  induction log using List.reverseRecOn with
  | nil => exact ⟨rfl, List.Pairwise.nil, by simp [after]⟩
  | append_singleton log c ih =>
      rw [made_append] at hFew ⊢
      rw [after_append]
      exact (ih (by omega)).change c hFew

------------------------------------------------------------
-- Live Subscriptions
------------------------------------------------------------

/-
  A call of the log made the subscription and was given its
  number, and no later call dropped the number.
-/
def Live
    (log : List (BusChange L))
    (s : Subscription L) : Prop :=
  ∃ earlier later,
    log = earlier ++ .subscribe s.stage? s.listener :: later ∧
      ((after earlier).subscribe s.stage? s.listener).1 = s.id ∧
      .unsubscribe s.id ∉ later

/- Nothing is live in the empty log. -/
theorem not_live_nil : ¬ Live [] s := by
  rintro ⟨earlier, later, hLog, -⟩
  exact absurd hLog.symm (by simp)

/-
  After one more call, a subscription is live that was so
  before and is not dropped, or that the call makes.
-/
theorem live_append_iff :
    Live (log ++ [c]) s ↔
      (Live log s ∧ c ≠ .unsubscribe s.id) ∨
        (c = .subscribe s.stage? s.listener ∧
          (after log).nextId = s.id) := by
  constructor
  · rintro ⟨earlier, later, hLog, hId, hKept⟩
    rcases List.eq_nil_or_concat later with
      hNone | ⟨before, last, hLater⟩
    · subst hNone
      rcases List.append_inj' hLog rfl with ⟨hEarlier, hLast⟩
      subst hEarlier
      exact .inr ⟨(List.cons.inj hLast).1, hId⟩
    · rw [List.concat_eq_append] at hLater
      subst hLater
      rw [← List.cons_append, ← List.append_assoc] at hLog
      rcases List.append_inj' hLog rfl with ⟨hBefore, hLast⟩
      have hCall : c = last := (List.cons.inj hLast).1
      subst hCall
      rw [List.mem_append, List.mem_singleton, not_or] at hKept
      exact
        .inl ⟨⟨earlier, before, hBefore, hId, hKept.1⟩,
          Ne.symm hKept.2⟩
  · rintro (⟨⟨earlier, later, hLog, hId, hKept⟩, hLast⟩ |
      ⟨hCall, hId⟩)
    · subst hLog
      refine ⟨earlier, later ++ [c], ?_, hId, ?_⟩
      · rw [List.append_assoc, List.cons_append]
      · rw [List.mem_append, List.mem_singleton, not_or]
        exact ⟨hKept, Ne.symm hLast⟩
    · subst hCall
      exact ⟨log, [], rfl, hId, List.not_mem_nil⟩

/- The bus holds exactly the live subscriptions. -/
theorem mem_after_iff
    (hFew : made log < 2 ^ 64) :
    s ∈ (after log).subscriptions ↔ Live log s := by
  induction log using List.reverseRecOn with
  | nil =>
      constructor
      · intro hMem
        exact absurd hMem List.not_mem_nil
      · intro hLive
        exact absurd hLive not_live_nil
  | append_singleton log c ih =>
      rw [made_append] at hFew
      have hBefore : made log < 2 ^ 64 := by omega
      rw [live_append_iff, ← ih hBefore, after_append]
      cases c with
      | subscribe stage? listener =>
          change
            s ∈ (after log).subscriptions ++ [⟨_, _, _⟩] ↔ _
          rw [List.mem_append, List.mem_singleton]
          have hMade :
              s = ⟨(after log).nextId, stage?, listener⟩ ↔
                BusChange.subscribe stage? listener =
                    .subscribe s.stage? s.listener ∧
                  (after log).nextId = s.id := by
            obtain ⟨id, own?, own⟩ := s
            grind
          rw [hMade]
          simp
      | unsubscribe id =>
          change s ∈ ((after log).unsubscribe id).2.subscriptions ↔ _
          rw [(orderly_after hBefore).unsubscribe, List.mem_filter]
          simp [eq_comm (a := id)]

/- There are as many subscriptions as are live. -/
theorem count_after
    (hFew : made log < 2 ^ 64) :
    (after log).count = {s | Live log s}.ncard := by
  classical
  have hNodup : (after log).subscriptions.Nodup := by
    apply List.Nodup.of_map (·.id)
    apply (orderly_after hFew).ascending.imp
    exact UInt64.ne_of_lt
  have hLive :
      {s | Live log s} =
        ((after log).subscriptions.toFinset :
          Set (Subscription L)) := by
    ext s
    rw [List.coe_toFinset]
    exact (mem_after_iff hFew).symm
  rw [hLive, Set.ncard_coe_finset,
    List.toFinset_card_of_nodup hNodup]
  rfl

/- A number can be dropped exactly while its subscription is live. -/
theorem unsubscribe_eq_true_iff
    (hFew : made log < 2 ^ 64)
    (id : UInt64) :
    ((after log).unsubscribe id).1 = true ↔
      ∃ s, Live log s ∧ s.id = id := by
  simp only [EventBus.unsubscribe, List.any_eq_true,
    decide_eq_true_eq, mem_after_iff hFew]

/-
  What a bus shows of its log: the live subscriptions in the
  order of their numbers, and how many they are. Dropping a
  number tells whether it was live, and spares all others.
-/
structure Mirrors
    (log : List (BusChange L)) : Prop where
  members :
    ∀ s, s ∈ (after log).subscriptions ↔ Live log s
  ordered :
    ((after log).subscriptions.map (·.id)).Pairwise (· < ·)
  counted : (after log).count = {s | Live log s}.ncard
  dropped :
    ∀ id,
      ((after log).unsubscribe id).1 = true ↔
        ∃ s, Live log s ∧ s.id = id
  spared :
    ∀ id,
      ((after log).unsubscribe id).2.subscriptions =
        (after log).subscriptions.filter fun s => s.id ≠ id

/- As long as there are numbers left, a bus mirrors its log. -/
theorem mirrors
    (hFew : made log < 2 ^ 64) :
    Mirrors log where
  members _ := mem_after_iff hFew
  ordered := (orderly_after hFew).ascending
  counted := count_after hFew
  dropped := unsubscribe_eq_true_iff hFew
  spared := (orderly_after hFew).unsubscribe

end EventBus

end DocumentMapper
