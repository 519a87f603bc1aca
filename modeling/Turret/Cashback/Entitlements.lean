import Turret.Cashback.ReplayBooks

/-! The entitlement law of the replay: confirmed rebates never go down as the
history grows, a wallet's rebates stay within the public cap, each is at most
its own cap and half of what was voluntarily paid, and no interest is lost in
the chunks. -/

namespace Turret.Cashback

open Execution Function Uint256

variable {policy : Policy} {walletCap : Option ℕ} {timestamp : ℕ} {s t u : Replay}
  {key : Address × Address} {b e : Address}

/-! ### Sums over the accounts of a wallet -/

def walletTotal (b : Address) (f : Address × Address → ℤ) (keys : List (Address × Address)) : ℤ :=
  ((keys.filter fun key => key.1 = b).map f).sum

theorem walletTotal_cons (f : Address × Address → ℤ) (keys : List (Address × Address)) :
    walletTotal b f (key :: keys) = (if key.1 = b then f key else 0) + walletTotal b f keys := by
  by_cases own : key.1 = b <;> simp [walletTotal, own]

theorem walletTotal_append_single (f : Address × Address → ℤ) (keys : List (Address × Address)) :
    walletTotal b f (keys ++ [key]) = walletTotal b f keys + if key.1 = b then f key else 0 := by
  by_cases own : key.1 = b <;> simp [walletTotal, own]

theorem walletTotal_congr {f g : Address × Address → ℤ} {keys : List (Address × Address)}
    (h : ∀ key ∈ keys, f key = g key) : walletTotal b f keys = walletTotal b g keys := by
  refine congrArg List.sum (List.map_congr_left fun key mem => h key ?_)
  exact (List.mem_filter.mp mem).1

/-- Changing one account moves its wallet's total by the change. -/
theorem walletTotal_update (f : Address × Address → ℤ) {keys : List (Address × Address)}
    (nodup : keys.Nodup) (mem : key ∈ keys) (v : ℤ) :
    walletTotal b (update f key v) keys =
      walletTotal b f keys + if key.1 = b then v - f key else 0 := by
  induction keys with
  | nil => exact absurd mem List.not_mem_nil
  | cons first rest ih =>
    obtain ⟨fresh, later⟩ := List.nodup_cons.mp nodup
    rw [walletTotal_cons, walletTotal_cons]
    by_cases same : first = key
    · subst same
      have others : walletTotal b (update f first v) rest = walletTotal b f rest :=
        walletTotal_congr fun k hk => update_of_ne (fun eq : k = first => fresh (eq ▸ hk)) ..
      rw [others, update_self]
      split_ifs <;> omega
    · have inner : key ∈ rest := (List.mem_cons.mp mem).resolve_left (Ne.symm same)
      rw [ih later inner, update_of_ne same]
      omega

/-! ### The replay -/

def confirmedAt (s : Replay) (key : Address × Address) : ℤ :=
  ((s.positions key.1 key.2).map Position.confirmed).getD 0

def paidAt (s : Replay) (key : Address × Address) : ℕ :=
  ((s.positions key.1 key.2).map Position.eligiblePaid).getD 0

structure Replay.Sound (walletCap : Option ℕ) (s : Replay) : Prop where
  positions : ∀ b e p, s.positions b e = some p → p.Sound walletCap
  mem_keys : ∀ key, key ∈ s.keys ↔ (s.positions key.1 key.2).isSome
  nodup : s.keys.Nodup
  awarded_eq : ∀ b, s.awarded b = walletTotal b (confirmedAt s) s.keys
  awarded_le : ∀ cap, walletCap = some cap → ∀ b, s.awarded b ≤ cap

theorem Replay.sound_initial : Replay.initial.Sound walletCap where
  positions := fun b e p h => by cases h
  mem_keys := fun key => by simp [Replay.initial]
  nodup := List.nodup_nil
  awarded_eq := fun b => rfl
  awarded_le := fun cap _ b => Int.natCast_nonneg cap

/-- Enrollments and awards of every account are kept; at most `paid` more interest is paid. -/
structure Grows (paid : Address × Address → ℕ) (s t : Replay) : Prop where
  kept : ∀ b e p, s.positions b e = some p → ∃ q, t.positions b e = some q ∧
    (∀ enrollment, p.enrollment = some enrollment → q.enrollment = some enrollment) ∧
    p.eligiblePaid ≤ q.eligiblePaid ∧ p.confirmed ≤ q.confirmed
  paid_le : ∀ key, paidAt t key ≤ paidAt s key + INTEREST_DENOMINATOR * paid key

theorem Grows.refl (s : Replay) : Grows (fun _ => 0) s s where
  kept := fun _ _ p h => ⟨p, h, fun _ same => same, le_rfl, le_rfl⟩
  paid_le := fun _ => le_rfl

theorem Grows.trans {paid paid' : Address × Address → ℕ} (h : Grows paid s t)
    (k : Grows paid' t u) : Grows (fun key => paid key + paid' key) s u where
  kept := by
    intro b e p hp
    obtain ⟨q, hq, enrolled, paidLe, confirmedLe⟩ := h.kept b e p hp
    obtain ⟨r, hr, enrolled', paidLe', confirmedLe'⟩ := k.kept b e q hq
    exact ⟨r, hr, fun _ same => enrolled' _ (enrolled _ same), paidLe.trans paidLe',
      confirmedLe.trans confirmedLe'⟩
  paid_le := by
    intro key
    have first := h.paid_le key
    have second := k.paid_le key
    rw [Nat.mul_add]
    omega

theorem positions_put {p : Position} {used : ℤ} (b' e' : Address) :
    (s.put b e p used).positions b' e' =
      if b' = b ∧ e' = e then some p else s.positions b' e' := by
  by_cases hb : b' = b
  · subst hb
    by_cases he : e' = e
    · subst he
      simp [Replay.put]
    · simp [Replay.put, he]
  · simp [Replay.put, hb]

theorem confirmedAt_put {p : Position} {used : ℤ} :
    confirmedAt (s.put b e p used) = update (confirmedAt s) (b, e) p.confirmed := by
  funext key
  by_cases same : key = (b, e)
  · subst same
    simp [confirmedAt, positions_put]
  · have other : ¬(key.1 = b ∧ key.2 = e) := fun both => same (Prod.ext both.1 both.2)
    rw [update_of_ne same, confirmedAt, positions_put, if_neg other, confirmedAt]

/-- Storing what an event made of its account. -/
theorem put_sound (h : s.Sound walletCap) {p q : Position} {used : ℤ} {paid : ℕ}
    (old : (s.positions b e).getD (.opened timestamp) = p)
    (moved : Moves walletCap paid p (s.awarded b) q used) :
    (s.put b e q used).Sound walletCap := by
  have before : confirmedAt s (b, e) = p.confirmed := by
    rw [← old, confirmedAt]
    cases s.positions b e <;> rfl
  have change := moved.used_eq
  refine ⟨fun b' e' p' hp => ?_, fun key => ?_, ?_, fun b' => ?_, fun cap hc b' => ?_⟩
  · rw [positions_put] at hp
    split_ifs at hp
    · obtain rfl := Option.some.inj hp
      exact moved.sound
    · exact h.positions b' e' p' hp
  · rw [positions_put]
    have members := h.mem_keys key
    by_cases same : key = (b, e)
    · subst same
      by_cases present : (s.positions b e).isSome
      · simp [Replay.put, present, (h.mem_keys (b, e)).mpr present]
      · simp [Replay.put, present]
    · have other : ¬(key.1 = b ∧ key.2 = e) := fun both => same (Prod.ext both.1 both.2)
      rw [if_neg other, ← members, Replay.put]
      dsimp only
      split_ifs <;> simp [same]
  · rw [Replay.put]
    dsimp only
    split_ifs with present
    · exact h.nodup
    · have fresh : (b, e) ∉ s.keys := fun mem => present ((h.mem_keys (b, e)).mp mem)
      exact List.nodup_append.mpr ⟨h.nodup, List.nodup_singleton _, by
        intro x hx y hy
        rw [List.mem_singleton.mp hy]
        exact fun eq => fresh (eq ▸ hx)⟩
  · have total := h.awarded_eq b'
    rw [confirmedAt_put]
    have keys_total : walletTotal b' (update (confirmedAt s) (b, e) q.confirmed)
        (s.put b e q used).keys =
        walletTotal b' (confirmedAt s) s.keys + if b = b' then q.confirmed - p.confirmed else 0 := by
      rw [Replay.put]
      dsimp only
      split_ifs with present own own
      · rw [walletTotal_update _ h.nodup ((h.mem_keys (b, e)).mpr present), before, if_pos own]
      · rw [walletTotal_update _ h.nodup ((h.mem_keys (b, e)).mpr present), if_neg own]
      all_goals
        have fresh : (b, e) ∉ s.keys := fun mem => present ((h.mem_keys (b, e)).mp mem)
        have others : walletTotal b' (update (confirmedAt s) (b, e) q.confirmed) s.keys =
            walletTotal b' (confirmedAt s) s.keys :=
          walletTotal_congr fun k hk => update_of_ne (fun eq : k = (b, e) => fresh (eq ▸ hk)) ..
        rw [walletTotal_append_single, others, update_self]
      · have none : s.positions b e = none := by simpa using present
        have zero : confirmedAt s (b, e) = 0 := by simp [confirmedAt, none]
        rw [if_pos own]
        omega
      · rw [if_neg own]
    rw [keys_total, ← total, Replay.put]
    dsimp only
    by_cases own : b' = b
    · subst own
      rw [update_self, if_pos rfl]
      omega
    · rw [update_of_ne own, if_neg (Ne.symm own), add_zero]
  · rw [Replay.put]
    dsimp only
    by_cases own : b' = b
    · subst own
      rw [update_self]
      exact moved.used_le cap hc
    · rw [update_of_ne own]
      exact h.awarded_le cap hc b'

theorem put_grows {p q : Position} {used : ℤ} {paid : Address × Address → ℕ}
    (old : (s.positions b e).getD (.opened timestamp) = p)
    (moved : Moves walletCap (INTEREST_DENOMINATOR * paid (b, e)) p (s.awarded b) q used) :
    Grows paid s (s.put b e q used) := by
  refine ⟨fun b' e' p' hp => ?_, fun key => ?_⟩
  · rw [positions_put]
    by_cases same : b' = b ∧ e' = e
    · obtain ⟨rfl, rfl⟩ := same
      rw [hp, Option.getD_some] at old
      subst old
      exact ⟨q, if_pos ⟨rfl, rfl⟩, moved.enrolled, moved.paid_le, moved.confirmed_le⟩
    · exact ⟨p', by rw [if_neg same, hp], fun _ eq => eq, le_rfl, le_rfl⟩
  · rw [paidAt, positions_put]
    by_cases same : key = (b, e)
    · subst same
      have before : paidAt s (b, e) = p.eligiblePaid := by
        rw [← old, paidAt]
        cases s.positions b e <;> rfl
      rw [if_pos ⟨rfl, rfl⟩, before]
      exact moved.paid_within
    · have other : ¬(key.1 = b ∧ key.2 = e) := fun both => same (Prod.ext both.1 both.2)
      rw [if_neg other]
      exact Nat.le_add_right ..

/-! ### Runs -/

theorem replayEvent_ok (h : s.Sound walletCap) {liquidated : List (Address × Address)}
    {event : Event} (done : replayEvent policy walletCap timestamp liquidated s event = .ok t) :
    t.Sound walletCap ∧ Grows (fun key => voluntary policy timestamp liquidated key event) s t ∧
      t.lastTimestamp = s.lastTimestamp := by
  unfold replayEvent at done
  cases own : event.key with
  | none =>
    rw [own] at done
    obtain rfl := Except.ok.inj done
    exact ⟨h, ⟨(Grows.refl s).kept, fun key => Nat.le_add_right ..⟩, rfl⟩
  | some key =>
    obtain ⟨b, e⟩ := key
    rw [own] at done
    simp only [bind_eq_ok, pure_eq_ok, Prod.exists] at done
    obtain ⟨apr, -, p, first, q, used, second, rfl⟩ := done
    have opened : ((s.positions b e).getD (.opened timestamp)).Sound walletCap := by
      cases present : s.positions b e with
      | none => exact Position.sound_opened timestamp
      | some p => exact h.positions b e p present
    have within : ∀ cap, walletCap = some cap → s.awarded b ≤ cap :=
      fun cap hc => h.awarded_le cap hc b
    have accrued := moves_accrue opened within first
    have moved := accrued.trans (moves_onEvent accrued.sound within own second)
    rw [Nat.zero_add] at moved
    exact ⟨put_sound h rfl moved, put_grows rfl moved, rfl⟩

theorem events_ok (h : s.Sound walletCap) {liquidated : List (Address × Address)}
    {events : List Event}
    (done : events.foldlM (replayEvent policy walletCap timestamp liquidated) s = .ok t) :
    t.Sound walletCap ∧
      Grows (fun key => (events.map (voluntary policy timestamp liquidated key)).sum) s t ∧
      t.lastTimestamp = s.lastTimestamp := by
  induction events generalizing s with
  | nil =>
    obtain rfl := Except.ok.inj done
    exact ⟨h, Grows.refl s, rfl⟩
  | cons event events ih =>
    rw [List.foldlM_cons, bind_eq_ok] at done
    obtain ⟨m, first, later⟩ := done
    obtain ⟨sound, grown, clock⟩ := replayEvent_ok h first
    obtain ⟨sound', grown', clock'⟩ := ih sound later
    exact ⟨sound', grown.trans grown', clock'.trans clock⟩

/-- The interest that an account repays voluntarily and in time in one transaction. -/
def receiptInterest (policy : Policy) (key : Address × Address) (receipt : Receipt) : ℕ :=
  (receipt.events.map
    (voluntary policy receipt.timestamp (liquidatedIn receipt.events) key)).sum

def voluntaryInterest (policy : Policy) (receipts : List Receipt) (key : Address × Address) : ℕ :=
  (receipts.map (receiptInterest policy key)).sum

theorem replayReceipt_ok (h : s.Sound walletCap) {receipt : Receipt}
    (done : replayReceipt policy walletCap s receipt = .ok t) :
    t.Sound walletCap ∧ Grows (receiptInterest policy · receipt) s t ∧
      s.lastTimestamp ≤ t.lastTimestamp := by
  simp only [replayReceipt, bind_eq_ok, revertIf_eq_ok, not_or] at done
  obtain ⟨-, ⟨-, order, -⟩, folded⟩ := done
  have recorded : ({ s with
      seen := receipt.transactionHash :: s.seen
      lastTimestamp := receipt.timestamp } : Replay).Sound walletCap :=
    ⟨h.positions, h.mem_keys, h.nodup, h.awarded_eq, h.awarded_le⟩
  obtain ⟨sound, grown, clock⟩ := events_ok recorded folded
  exact ⟨sound, ⟨grown.kept, grown.paid_le⟩, clock.ge.trans' (Nat.not_lt.mp order)⟩

theorem receipts_ok (h : s.Sound walletCap) {receipts : List Receipt}
    (done : receipts.foldlM (replayReceipt policy walletCap) s = .ok t) :
    t.Sound walletCap ∧ Grows (voluntaryInterest policy receipts) s t := by
  induction receipts generalizing s with
  | nil =>
    obtain rfl := Except.ok.inj done
    exact ⟨h, Grows.refl s⟩
  | cons receipt receipts ih =>
    rw [List.foldlM_cons, bind_eq_ok] at done
    obtain ⟨m, first, later⟩ := done
    obtain ⟨sound, grown, -⟩ := replayReceipt_ok h first
    obtain ⟨sound', grown'⟩ := ih sound later
    exact ⟨sound', grown.trans grown'⟩

theorem replay_sound {receipts : List Receipt} (done : replay policy walletCap receipts = .ok s) :
    s.Sound walletCap ∧ Grows (voluntaryInterest policy receipts) .initial s :=
  receipts_ok Replay.sound_initial done

variable {projected : Address → ℤ} {keys : List (Address × Address)} {rows : List Row} {row : Row}

/-- A row is computed from its account, brought up to date at the rate of its engine. -/
theorem mem_rowsOf_rate (done : rowsOf policy walletCap timestamp s projected keys = .ok rows)
    (mem : row ∈ rows) : ∃ key ∈ keys, ∃ p q enrollment apr used,
      s.positions key.1 key.2 = some p ∧ p.enrollment = some enrollment ∧
        policy.aprBps key.2 = some apr ∧ accrue policy apr timestamp p = .ok q ∧
        row = (rowOf policy walletCap timestamp used key enrollment q).1 := by
  induction keys generalizing projected rows with
  | nil =>
    obtain rfl := Except.ok.inj done
    exact absurd mem List.not_mem_nil
  | cons key rest ih =>
    rw [rowsOf] at done
    split at done
    · rename_i p present
      split at done
      · rename_i enrollment enrolled
        simp only [bind_eq_ok, pure_eq_ok] at done
        obtain ⟨apr, approved, q, accrued, later, tail, rfl⟩ := done
        rcases List.mem_cons.mp mem with rfl | mem
        · exact ⟨key, List.mem_cons_self, p, q, enrollment, apr, _, present, enrolled,
            (orRevert_eq_ok ..).mp approved, accrued, rfl⟩
        · obtain ⟨k, hk, found⟩ := ih tail mem
          exact ⟨k, List.mem_cons_of_mem _ hk, found⟩
      · obtain ⟨k, hk, found⟩ := ih done mem
        exact ⟨k, List.mem_cons_of_mem _ hk, found⟩
    · obtain ⟨k, hk, found⟩ := ih done mem
      exact ⟨k, List.mem_cons_of_mem _ hk, found⟩

theorem mem_rowsOf (done : rowsOf policy walletCap timestamp s projected keys = .ok rows)
    (mem : row ∈ rows) : ∃ key ∈ keys, ∃ p q enrollment apr used,
      s.positions key.1 key.2 = some p ∧ p.enrollment = some enrollment ∧
        accrue policy apr timestamp p = .ok q ∧
        row = (rowOf policy walletCap timestamp used key enrollment q).1 := by
  obtain ⟨key, hk, p, q, enrollment, apr, used, present, enrolled, -, accrued, same⟩ :=
    mem_rowsOf_rate done mem
  exact ⟨key, hk, p, q, enrollment, apr, used, present, enrolled, accrued, same⟩

@[simp] theorem rowOf_key {used : ℤ} {enrollment : Enrollment} {p : Position} :
    (rowOf policy walletCap timestamp used key enrollment p).1.borrower = key.1 ∧
      (rowOf policy walletCap timestamp used key enrollment p).1.engine = key.2 := by
  cases walletCap <;> exact ⟨rfl, rfl⟩

/-- Every enrolled account has a row. -/
theorem exists_row (done : rowsOf policy walletCap timestamp s projected keys = .ok rows)
    (mem : key ∈ keys) {p : Position} {enrollment : Enrollment}
    (present : s.positions key.1 key.2 = some p) (enrolled : p.enrollment = some enrollment) :
    ∃ row ∈ rows, row.borrower = key.1 ∧ row.engine = key.2 := by
  induction keys generalizing projected rows with
  | nil => exact absurd mem List.not_mem_nil
  | cons first rest ih =>
    rw [rowsOf] at done
    rcases List.mem_cons.mp mem with rfl | mem
    · rw [present] at done
      simp only [enrolled, bind_eq_ok, pure_eq_ok] at done
      obtain ⟨apr, -, q, accrued, later, tail, rfl⟩ := done
      exact ⟨_, List.mem_cons_self, rowOf_key⟩
    · split at done
      · split at done
        · simp only [bind_eq_ok, pure_eq_ok] at done
          obtain ⟨apr, -, q, accrued, later, tail, rfl⟩ := done
          obtain ⟨row, hr, same⟩ := ih tail mem
          exact ⟨row, List.mem_cons_of_mem _ hr, same⟩
        · exact ih done mem
      · exact ih done mem

/-- The confirmed rebate of a row. -/
def confirmedOf (walletCap : Option ℕ) (cap : ℕ) (p : Position) : ℤ :=
  match walletCap with
  | none => min cap (rebateOf p.eligiblePaid)
  | some _ => p.confirmed

theorem rowOf_confirmed {used : ℤ} {enrollment : Enrollment} {p : Position} :
    (rowOf policy walletCap timestamp used key enrollment p).1.confirmedRebate =
      confirmedOf walletCap enrollment.cap p := by
  cases walletCap <;> rfl

theorem accountReceipts_ok {receipts : List Receipt} {asOf : Option ℕ}
    (done : accountReceipts policy receipts asOf = .ok rows) :
    ∃ walletCap s timestamp, checkPolicy policy = .ok walletCap ∧
      replay policy walletCap receipts = .ok s ∧
      rowsOf policy walletCap timestamp s s.awarded (s.keys.insertionSort keyLe) = .ok rows := by
  simp only [accountReceipts, bind_eq_ok] at done
  obtain ⟨walletCap, checked, s, replayed, -, -, listed⟩ := done
  exact ⟨walletCap, s, _, checked, replayed, listed⟩

def samplePolicy : Policy where
  startsAt := 1000
  endsAt := 865000
  settlementDeadline := 3457000
  claimDeadline := 6049000
  rebateBps := 5000
  walletCap := some 25000000
  engines := [(7, 1000)]

end Turret.Cashback
