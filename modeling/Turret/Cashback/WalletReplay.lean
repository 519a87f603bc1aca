import Turret.Cashback.Entitlements

/-! The replay seen from one wallet. The receipts of other wallets leave its
accounts and awards, so that a run of receipts is a run of the wallet's own
events; and after a replay the accounting always returns. -/

namespace Turret.Cashback

open Execution Function Uint256

variable {policy : Policy} {walletCap : Option ℕ} {timestamp : ℕ} {p q : Position} {s t : Replay}
  {b e : Address}

/-! ### The events of one wallet -/

/-- The replay treats the event under the wallet's accounts. -/
def Event.concerns (b : Address) : Event → Bool
  | .enrolled borrower _ _ _ => borrower = b
  | .borrowed borrower _ _ => borrower = b
  | .repaid borrower _ _ _ => borrower = b
  | .positionLoss borrower _ _ _ => borrower = b
  | .liquidated borrower _ => borrower = b
  | .published _ _ _ => false

/-- The events of a wallet, with their times. -/
def walletEvents (b : Address) (receipts : List Receipt) : List (ℕ × Event) :=
  receipts.flatMap fun receipt =>
    (receipt.events.filter (Event.concerns b)).map fun event => (receipt.timestamp, event)

/-- What an event that liquidates nothing does to the accounts and the awards of its wallet. -/
def walletStep (policy : Policy) (walletCap : Option ℕ)
    (view : (Address → Option Position) × ℤ) (entry : ℕ × Event) :
    Except ReplayError ((Address → Option Position) × ℤ) :=
  match entry.2.key with
  | none => pure view
  | some (_, e) => do
    let apr ← orRevert (policy.aprBps e) .unapprovedEngine
    let p ← accrue policy apr entry.1 ((view.1 e).getD (.opened entry.1))
    let (p, used) ← onEvent policy walletCap entry.1 [] view.2 p entry.2
    pure (update view.1 e (some p), used)

def Replay.view (b : Address) (s : Replay) : (Address → Option Position) × ℤ :=
  (s.positions b, s.awarded b)

theorem Replay.view_put {used : ℤ} :
    (s.put b e p used).view b = (update (s.positions b) e (some p), used) := by
  simp [Replay.view, Replay.put]

theorem Replay.view_put_other {c : Address} (other : c ≠ b) {used : ℤ} :
    (s.put c e p used).view b = s.view b := by
  simp [Replay.view, Replay.put, Ne.symm other]

theorem onEvent_unliquidated {liquidated : List (Address × Address)} {event : Event}
    {key : Address × Address} (own : event.key = some key) (alive : key ∉ liquidated) {used : ℤ} :
    onEvent policy walletCap timestamp liquidated used p event =
      onEvent policy walletCap timestamp [] used p event := by
  cases event with
  | repaid borrower engine principal interest =>
    obtain rfl := Option.some.inj own
    simp [onEvent, alive]
  | enrolled | borrowed | positionLoss | liquidated | published => rfl

theorem Event.key_concerns {event : Event} {c : Address} (own : event.key = some (c, e)) :
    event.concerns b = decide (c = b) := by
  cases event <;> simp_all [Event.key, Event.concerns]

/-- An event of the wallet that liquidates nothing is a step on the wallet's view. -/
theorem replayEvent_own {liquidated : List (Address × Address)} {event : Event}
    (own : event.key = some (b, e)) (alive : (b, e) ∉ liquidated)
    {v : (Address → Option Position) × ℤ} :
    (∃ t, replayEvent policy walletCap timestamp liquidated s event = .ok t ∧ t.view b = v) ↔
      walletStep policy walletCap (s.view b) (timestamp, event) = .ok v := by
  simp only [replayEvent, walletStep, own, bind_eq_ok, pure_eq_ok, Prod.exists,
    onEvent_unliquidated own alive]
  constructor
  · rintro ⟨t, ⟨apr, approved, p, accrued, q, used, done, rfl⟩, rfl⟩
    exact ⟨apr, approved, p, accrued, q, used, done, Replay.view_put.symm⟩
  · rintro ⟨apr, approved, p, accrued, q, used, done, rfl⟩
    exact ⟨_, ⟨apr, approved, p, accrued, q, used, done, rfl⟩, Replay.view_put⟩

/-- Events of other wallets, and those the replay ignores, leave the wallet's view. -/
theorem replayEvent_other {liquidated : List (Address × Address)} {event : Event}
    (other : ∀ e, event.key ≠ some (b, e))
    (done : replayEvent policy walletCap timestamp liquidated s event = .ok t) :
    t.view b = s.view b := by
  unfold replayEvent at done
  cases key : event.key with
  | none =>
    rw [key] at done
    obtain rfl := Except.ok.inj done
    rfl
  | some account =>
    obtain ⟨c, e⟩ := account
    rw [key] at done
    simp only [bind_eq_ok, pure_eq_ok, Prod.exists] at done
    obtain ⟨apr, -, p, -, q, used, -, rfl⟩ := done
    refine Replay.view_put_other fun same => other e ?_
    rw [key, same]

/-- The wallet is not liquidated in the events. -/
def Unliquidated (b : Address) (events : List Event) : Prop :=
  ∀ e, Event.liquidated b e ∉ events

theorem Unliquidated.alive {events : List Event} (h : Unliquidated b events) :
    (b, e) ∉ liquidatedIn events := by
  intro mem
  obtain ⟨event, listed, same⟩ := List.mem_filterMap.mp mem
  cases event with
  | liquidated borrower engine =>
    obtain ⟨rfl, rfl⟩ := Prod.mk.inj (Option.some.inj same)
    exact h engine listed
  | enrolled | borrowed | repaid | positionLoss | published => cases same

theorem events_view {liquidated : List (Address × Address)} (alive : ∀ e, (b, e) ∉ liquidated)
    {events : List Event} (unliquidated : Unliquidated b events)
    (done : events.foldlM (replayEvent policy walletCap timestamp liquidated) s = .ok t) :
    ((events.filter (Event.concerns b)).map fun event => (timestamp, event)).foldlM
      (walletStep policy walletCap) (s.view b) = .ok (t.view b) := by
  induction events generalizing s with
  | nil =>
    obtain rfl := Except.ok.inj done
    rfl
  | cons event events ih =>
    rw [List.foldlM_cons, bind_eq_ok] at done
    obtain ⟨m, first, later⟩ := done
    have rest := ih (fun e mem => unliquidated e (List.mem_cons_of_mem _ mem)) later
    cases key : event.key with
    | none =>
      have kept := replayEvent_other (b := b) (fun e => by rw [key]; exact nofun) first
      have foreign : event.concerns b = false := by
        cases event with
        | liquidated borrower engine =>
          refine decide_eq_false fun same => unliquidated engine ?_
          rw [same]
          exact List.mem_cons_self
        | published => rfl
        | enrolled | borrowed | repaid | positionLoss => cases key
      rw [List.filter_cons_of_neg (by rw [foreign]; exact Bool.false_ne_true), ← kept]
      exact rest
    | some account =>
      obtain ⟨c, e⟩ := account
      have own := Event.key_concerns (b := b) key
      by_cases same : c = b
      · subst same
        rw [List.filter_cons_of_pos (by rw [own]; exact decide_eq_true rfl), List.map_cons,
          List.foldlM_cons, bind_eq_ok]
        exact ⟨m.view c, (replayEvent_own key (alive e)).mp ⟨m, first, rfl⟩, rest⟩
      · have kept := replayEvent_other (b := b)
          (fun e' eq => same (Prod.mk.inj (Option.some.inj (key.symm.trans eq))).1) first
        rw [List.filter_cons_of_neg (by rw [own]; simpa using same), ← kept]
        exact rest

theorem receipts_view {receipts : List Receipt}
    (unliquidated : ∀ receipt ∈ receipts, Unliquidated b receipt.events)
    (done : receipts.foldlM (replayReceipt policy walletCap) s = .ok t) :
    (walletEvents b receipts).foldlM (walletStep policy walletCap) (s.view b) =
      .ok (t.view b) := by
  induction receipts generalizing s with
  | nil =>
    obtain rfl := Except.ok.inj done
    rfl
  | cons receipt receipts ih =>
    rw [List.foldlM_cons, bind_eq_ok] at done
    obtain ⟨m, first, later⟩ := done
    simp only [replayReceipt, bind_eq_ok] at first
    obtain ⟨-, -, first⟩ := first
    have alone := unliquidated receipt List.mem_cons_self
    have own := events_view (fun _ => alone.alive) alone first
    rw [walletEvents, List.flatMap_cons, List.foldlM_append, bind_eq_ok]
    exact ⟨m.view b, own, ih (fun r mem => unliquidated r (List.mem_cons_of_mem _ mem)) later⟩

theorem unliquidated_of_events {receipts : List Receipt}
    (h : ∀ entry ∈ walletEvents b receipts, ∀ e, entry.2 ≠ .liquidated b e) :
    ∀ receipt ∈ receipts, Unliquidated b receipt.events := by
  intro receipt mem e listed
  refine h (receipt.timestamp, .liquidated b e) ?_ e rfl
  refine List.mem_flatMap.mpr ⟨receipt, mem, List.mem_map.mpr ⟨_, ?_, rfl⟩⟩
  exact List.mem_filter.mpr ⟨listed, decide_eq_true rfl⟩

/-! ### What is accepted -/

/-- No account is ahead of the last receipt, and all are under approved engines. -/
structure Replay.Current (policy : Policy) (s : Replay) : Prop where
  safe : s.lastTimestamp ≤ MAX_SAFE_INTEGER
  updatedAt : ∀ b e p, s.positions b e = some p → p.updatedAt ≤ s.lastTimestamp
  approved : ∀ b e p, s.positions b e = some p → ∃ apr, policy.aprBps e = some apr

theorem onEvent_updatedAt {liquidated : List (Address × Address)} {used used' : ℤ} {event : Event}
    (done : onEvent policy walletCap timestamp liquidated used p event = .ok (q, used')) :
    q.updatedAt = p.updatedAt := by
  cases event with
  | enrolled borrower engine cap startsAt =>
    simp only [onEvent, onEnrolled, bind_eq_ok, pure_eq_ok, Prod.mk.injEq] at done
    obtain ⟨_, ⟨-, -, -, -, -, -, rfl⟩, rfl, -⟩ := done
    rfl
  | borrowed borrower engine amount =>
    simp only [onEvent, onBorrowed, bind_eq_ok, pure_eq_ok, Prod.mk.injEq] at done
    obtain ⟨_, ⟨-, -, rfl⟩, rfl, -⟩ := done
    rfl
  | repaid borrower engine principal interest =>
    simp only [onEvent, onRepaid, consumeInterest, repayPrincipal, bind_eq_ok, pure_eq_ok,
      Prod.mk.injEq] at done
    obtain ⟨-, -, -, -, _, ⟨-, -, _, -, rfl⟩, _, ⟨-, -, -, -, rfl⟩, rfl, -⟩ := done
    simp only [award]
    split <;> rfl
  | positionLoss borrower engine principal interest =>
    simp only [onEvent, onPositionLoss, bind_eq_ok, pure_eq_ok, Prod.mk.injEq] at done
    obtain ⟨_, ⟨-, -, -, -, -, -, -, -, rfl⟩, rfl, -⟩ := done
    rfl
  | liquidated | published =>
    obtain ⟨rfl, -⟩ := Prod.mk.inj (Except.ok.inj done)
    rfl

theorem replayEvent_current {liquidated : List (Address × Address)} {event : Event}
    (h : s.Current policy)
    (done : replayEvent policy walletCap s.lastTimestamp liquidated s event = .ok t) :
    t.Current policy ∧ t.lastTimestamp = s.lastTimestamp ∧ t.seen = s.seen := by
  unfold replayEvent at done
  cases own : event.key with
  | none =>
    rw [own] at done
    obtain rfl := Except.ok.inj done
    exact ⟨h, rfl, rfl⟩
  | some key =>
    obtain ⟨b, e⟩ := key
    rw [own] at done
    simp only [bind_eq_ok, pure_eq_ok, Prod.exists, orRevert_eq_ok] at done
    obtain ⟨apr, approved, p, accrued, q, used, changed, rfl⟩ := done
    have updated := onEvent_updatedAt changed
    obtain ⟨-, rfl⟩ := accrue_ok accrued
    refine ⟨⟨h.safe, fun c f r present => ?_, fun c f r present => ?_⟩, rfl, rfl⟩
    · rw [positions_put] at present
      split_ifs at present
      · obtain rfl := Option.some.inj present
        exact updated.le
      · exact h.updatedAt c f r present
    · rw [positions_put] at present
      split_ifs at present with same
      · exact ⟨apr, same.2 ▸ approved⟩
      · exact h.approved c f r present

theorem events_current {liquidated : List (Address × Address)} {events : List Event}
    (h : s.Current policy)
    (done : events.foldlM (replayEvent policy walletCap s.lastTimestamp liquidated) s = .ok t) :
    t.Current policy ∧ t.lastTimestamp = s.lastTimestamp ∧ t.seen = s.seen := by
  induction events generalizing s with
  | nil =>
    obtain rfl := Except.ok.inj done
    exact ⟨h, rfl, rfl⟩
  | cons event events ih =>
    rw [List.foldlM_cons, bind_eq_ok] at done
    obtain ⟨m, first, later⟩ := done
    obtain ⟨current, clock, seen⟩ := replayEvent_current h first
    rw [← clock] at later ⊢
    rw [← seen]
    exact ih current later

theorem replayReceipt_current {receipt : Receipt} (h : s.Current policy)
    (done : replayReceipt policy walletCap s receipt = .ok t) :
    t.Current policy ∧ t.lastTimestamp = receipt.timestamp ∧
      t.seen = receipt.transactionHash :: s.seen := by
  simp only [replayReceipt, bind_eq_ok, revertIf_eq_ok, not_or, not_lt] at done
  obtain ⟨-, ⟨safe, order, -⟩, folded⟩ := done
  have recorded : ({ s with
      seen := receipt.transactionHash :: s.seen
      lastTimestamp := receipt.timestamp } : Replay).Current policy :=
    ⟨safe, fun c f p present => (h.updatedAt c f p present).trans order, h.approved⟩
  exact events_current recorded folded

theorem receipts_current {receipts : List Receipt} (h : s.Current policy)
    (done : receipts.foldlM (replayReceipt policy walletCap) s = .ok t) : t.Current policy := by
  induction receipts generalizing s with
  | nil =>
    obtain rfl := Except.ok.inj done
    exact h
  | cons receipt receipts ih =>
    rw [List.foldlM_cons, bind_eq_ok] at done
    obtain ⟨m, first, later⟩ := done
    exact ih (replayReceipt_current h first).1 later

theorem Replay.current_initial : Replay.initial.Current policy where
  safe := Nat.zero_le _
  updatedAt := fun b e p h => by cases h
  approved := fun b e p h => by cases h

theorem rowsOf_accepts (h : s.Current policy) (order : s.lastTimestamp ≤ timestamp)
    (projected : Address → ℤ) (keys : List (Address × Address)) :
    ∃ rows, rowsOf policy walletCap timestamp s projected keys = .ok rows := by
  induction keys generalizing projected with
  | nil => exact ⟨[], rfl⟩
  | cons key rest ih =>
    rw [rowsOf]
    split
    · rename_i p present
      split
      · rename_i enrollment enrolled
        obtain ⟨apr, approved⟩ := h.approved _ _ _ present
        have current := (h.updatedAt _ _ _ present).trans order
        simp only [bind_eq_ok, pure_eq_ok, approved, orRevert_eq_ok, Option.some.injEq]
        have accrued : ∃ q, accrue policy apr timestamp p = .ok q := by
          simp only [accrue, bind_eq_ok, revertIf_eq_ok, pure_eq_ok, exists_const, not_lt]
          exact ⟨_, current, rfl⟩
        obtain ⟨q, accrued⟩ := accrued
        obtain ⟨rows, listed⟩ := ih (update projected key.1
          (rowOf policy walletCap timestamp (projected key.1) key enrollment q).2)
        exact ⟨_, apr, rfl, q, accrued, rows, listed, rfl⟩
      · exact ih projected
    · exact ih projected

/-- After a replay the accounting up to its last receipt returns. -/
theorem accountReceipts_accepts {receipts : List Receipt} (checked : checkPolicy policy = .ok walletCap)
    (replayed : replay policy walletCap receipts = .ok s) :
    ∃ rows, accountReceipts policy receipts none = .ok rows := by
  have current := receipts_current Replay.current_initial replayed
  obtain ⟨rows, listed⟩ : ∃ rows, rowsOf policy walletCap s.lastTimestamp s s.awarded
      (s.keys.insertionSort keyLe) = .ok rows := rowsOf_accepts current le_rfl ..
  refine ⟨rows, ?_⟩
  simp only [accountReceipts, bind_eq_ok, revertIf_eq_ok]
  exact ⟨walletCap, checked, s, replayed, (), not_or.mpr ⟨not_lt.mpr current.safe, lt_irrefl _⟩,
    listed⟩

end Turret.Cashback
