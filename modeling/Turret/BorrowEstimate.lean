import Turret.Isolated.Reconciliation
import Turret.Library.Rounding

/-! `borrow-estimate.ts`, what a borrower is told he can take and has to keep for
closing, beside `DockyardIsolatedCreditEngine` and its pool. Big integers that
are not negative are naturals, so `positive` of a difference is the truncated
difference. The engine's amounts are naturals too: by `accepted_fits` no sum of an
accepted borrow leaves a word of 256 bits where the reading does not. -/

namespace Turret.BorrowEstimate

open Execution Rounding Uint256 Function IsolatedEngine

/-! ### What is shown -/

structure BorrowInputs where
  collateral : ℕ
  debt : ℕ
  borrowingPrice : Option ℕ
  maxLtvBps : ℕ
  cash : ℕ
  principal : ℕ
  debtLimit : ℕ
  minimumDebt : ℕ
  riskPaused : Bool

/-- `limit`: the debt that the collateral carries. -/
def limit (s : BorrowInputs) (extra price : ℕ) : ℕ :=
  (s.collateral + extra) * price / 10 ^ 18 * s.maxLtvBps / 10000 / 10 ^ 12

/-- `capacity`, before the minimum debt is asked for. -/
def capacity (s : BorrowInputs) (extra price : ℕ) : ℕ :=
  min (min (limit s extra price - s.debt) s.cash) (s.debtLimit - s.principal)

def borrowCapacity (s : BorrowInputs) (extra : ℤ) : Option ℕ :=
  match s.borrowingPrice with
  | none => none
  | some price =>
    if price = 0 ∨ s.riskPaused = true ∨ extra < 0 then none
    else
      let capacity := capacity s extra.toNat price
      some (if s.debt + capacity < s.minimumDebt then 0 else capacity)

def closeFundingBudget (debt aprBps : ℕ) : ℕ :=
  if 0 < debt then debt + (debt * aprBps * 300 + 315359999999) / 315360000000 + 2 else 0

/-! ### What the chain answers -/

/-- A market that lends: open, its capital operations allowed once its interest is brought up to
date, and a slot for one more borrower. The account is a real one and not the pool itself. -/
structure Lends (sender : Address) (w : World) : Prop where
  bound : w.engine.bound = true
  unpaused : w.engine.riskPaused = false
  open_ : w.capital.pool.retired = false
  allowed : IsolatedPool.capitalOperationsAllowed (some (capitalOperationsAllowed w))
    (IsolatedPool.accrue w.capital) = true
  slot : (w.position sender).principal = 0 →
    w.engine.active.members.length ≠ MAX_ACTIVE_POSITIONS
  real : sender ≠ 0
  other : sender ≠ w.pool

/-- The debt that `_settle` leaves a position with. -/
def settledDebt (p : Position) (w : World) : ℕ := (settled p w).debt

/-- The reading of the position of `sender`: its debt brought up to date, and words of 256 bits. -/
structure Reads (sender : Address) (s : BorrowInputs) (price : ℕ) (w : World) : Prop where
  collateral : s.collateral = (w.position sender).collateral
  debt : s.debt = settledDebt (w.position sender) w
  price_eq : s.borrowingPrice = some price
  borrowing : borrowingPrice w = .ok price
  price_pos : 0 < price
  maxLtvBps : s.maxLtvBps = w.cfg.maxLtvBps
  cash : IsolatedPool.availableCash w.capital = .ok s.cash
  principal : s.principal = w.capital.pool.outstandingPrincipal
  debtLimit : s.debtLimit = w.capital.cfg.debtLimit
  minimumDebt : s.minimumDebt = w.cfg.minimumDebt
  riskPaused : s.riskPaused = w.engine.riskPaused

/-- The collateral that is topped up first, in the same transaction. -/
def topUp (sender : Address) (extra : ℕ) (w : World) : Except Error World :=
  if extra = 0 then pure w else depositCollateral sender sender extra w

/-- `depositAndBorrow`; without a top-up, `borrow`. -/
def topUpAndBorrow (sender : Address) (extra amount : ℕ) (w : World) : Except Error World := do
  let w ← topUp sender extra w
  borrow sender amount w

/-! ### The pool's draw -/

variable {sender : Address} {w : World} {amount : ℕ}

theorem sendExact_accepts {c : IsolatedPool.World} (real : sender ≠ 0) (other : sender ≠ c.cfg.self)
    (covered : amount ≤ c.usdg.balanceOf c.cfg.self) :
    ∃ c', IsolatedPool.vault.sendExact sender amount c = .ok c' := by
  have out : (c.usdg.move c.cfg.self sender amount).balanceOf c.cfg.self + amount =
      c.usdg.balanceOf c.cfg.self := by
    rw [TokenLedger.move_src (Ne.symm other), Nat.sub_add_cancel covered]
  have into := TokenLedger.move_dst (Ne.symm other) amount c.usdg
  refine ⟨IsolatedPool.vault.move (c.usdg.move c.cfg.self sender amount) c.pool.shares c, ?_⟩
  simp only [LenderVault.sendExact, bind_eq_ok, revertIf_eq_ok, exists_const, orRevert_eq_ok,
    pure_eq_ok, TokenLedger.transfer_eq_some, not_not, not_or]
  exact ⟨⟨real, other⟩, _, ⟨covered, rfl⟩, ⟨out, into⟩, rfl⟩

theorem draw_accepts {c : IsolatedPool.World} {safety : Option Bool} {cash : ℕ}
    (open_ : c.pool.retired = false)
    (allowed : IsolatedPool.capitalOperationsAllowed safety (IsolatedPool.accrue c) = true)
    (available : IsolatedPool.availableCash c = .ok cash) (real : sender ≠ 0)
    (other : sender ≠ c.cfg.self) :
    (∃ c', IsolatedPool.draw safety c.cfg.creditEngine sender amount c = .ok c') ↔
      amount ≠ 0 ∧ amount ≤ cash ∧ c.pool.outstandingPrincipal + amount ≤ c.cfg.debtLimit := by
  have held : cash ≤ c.usdg.balanceOf c.cfg.self := by
    simp only [IsolatedPool.availableCash, checkedSub_eq_ok] at available
    omega
  have accrued : IsolatedPool.availableCash (IsolatedPool.accrue c) = .ok cash := available
  simp only [IsolatedPool.draw, IsolatedPool.onlyEngine, bind_eq_ok, revertIf_eq_ok, exists_const,
    checkedSub_eq_ok, accrued, allowed, open_, ne_eq, not_true_eq_false, not_false_eq_true,
    true_and, Bool.true_eq_false, Bool.false_eq_true, Except.ok.injEq, exists_eq_left', not_lt]
  constructor
  · rintro ⟨_, positive, inCash, _, ⟨inLimit, rfl⟩, inRoom, -⟩
    have inRoom : amount ≤ c.cfg.debtLimit - c.pool.outstandingPrincipal := inRoom
    have inLimit : c.pool.outstandingPrincipal ≤ c.cfg.debtLimit := inLimit
    exact ⟨positive, inCash, by omega⟩
  · rintro ⟨positive, inCash, inLimit⟩
    obtain ⟨c', sent⟩ : ∃ c', IsolatedPool.vault.sendExact sender amount
        { IsolatedPool.accrue c with
          pool :=
            { (IsolatedPool.accrue c).pool with
              outstandingPrincipal := c.pool.outstandingPrincipal + amount } } = .ok c' :=
      sendExact_accepts real other (inCash.trans held)
    refine ⟨c', positive, inCash, _, ⟨?_, rfl⟩, ?_, sent⟩
    · exact (Nat.le_add_right ..).trans inLimit
    · exact Nat.le_sub_of_add_le' inLimit

theorem accrue_accrue (c : IsolatedPool.World) :
    IsolatedPool.accrue (IsolatedPool.accrue c) = IsolatedPool.accrue c := by
  have small : (IsolatedPool.pendingInterest c).2 < IsolatedPool.INTEREST_DENOMINATOR :=
    carry_snd_lt (by decide) ..
  have none : IsolatedPool.pendingInterest (IsolatedPool.accrue c) =
      (0, (IsolatedPool.pendingInterest c).2) :=
    carry_zero small (by simp [IsolatedPool.accrue])
  conv_lhs => rw [IsolatedPool.accrue, none]
  rfl

/-! ### The engine's borrow -/

theorem safe_mono {amount' debt debt' value ltv ltv' : ℕ} (amount_le : amount ≤ amount')
    (debt_le : debt' ≤ debt) (ltv_le : ltv ≤ ltv') (h : safe amount debt value ltv = true) :
    safe amount' debt' value ltv' = true := by
  simp only [safe, decide_eq_true_eq] at h ⊢
  calc debt' ≤ mulDiv (mulDiv amount value (10 ^ 18)) ltv 10000 / 10 ^ 12 := debt_le.trans h
    _ ≤ mulDiv (mulDiv amount' value (10 ^ 18)) ltv' 10000 / 10 ^ 12 := by
      unfold mulDiv
      gcongr

/-- Where the engine allows capital operations, every borrower of its registry is safe. -/
theorem safe_of_allowed {price : ℕ} (allowed : capitalOperationsAllowed w = true)
    (borrowing : borrowingPrice w = .ok price) {b : Address} (listed : b ∈ w.engine.active.members) :
    safe (w.position b).collateral (positionDebt b w) price w.cfg.liquidationLtvBps = true := by
  have some_ : ¬w.engine.active.members.length = 0 := by
    rw [List.length_eq_zero_iff]
    exact List.ne_nil_of_mem listed
  simp only [capitalOperationsAllowed, if_neg some_, borrowing] at allowed
  split_ifs at allowed
  exact List.all_eq_true.mp allowed b listed

theorem allowed_of_safe {price : ℕ} (unpaused : w.engine.riskPaused = false)
    (borrowing : borrowingPrice w = .ok price)
    (listed : ∀ b ∈ w.engine.active.members,
      safe (w.position b).collateral (positionDebt b w) price w.cfg.liquidationLtvBps = true) :
    capitalOperationsAllowed w = true := by
  simp only [capitalOperationsAllowed, unpaused, borrowing]
  split_ifs
  · rfl
  · simp_all
  · exact List.all_eq_true.mpr listed

/-- The entry into the registry; the rest of the world is as it was. -/
structure Entered (sender : Address) (w v : World) : Prop where
  cfg : v.cfg = w.cfg
  capital : v.capital = w.capital
  priced : borrowingPrice v = borrowingPrice w
  paused : v.engine.riskPaused = w.engine.riskPaused
  positions : ∀ b, v.position b = w.position b
  listed : ∀ b ∈ v.engine.active.members, b = sender ∨ b ∈ w.engine.active.members

theorem enter_accepts (slot : (w.position sender).principal = 0 →
      w.engine.active.members.length ≠ MAX_ACTIVE_POSITIONS) :
    ∃ v, enter sender w = .ok v ∧ Entered sender w v := by
  unfold enter
  split_ifs with fresh
  · refine ⟨{ w with
      engine :=
        { w.engine with
          active := w.engine.active.push sender
          activeDebtPositions := w.engine.activeDebtPositions + 1 } }, ?_,
      ⟨rfl, rfl, rfl, rfl, fun _ => rfl, ?_⟩⟩
    · simp [revertIf, slot fresh]
    · intro b listed
      simp only [SwapPop.push, List.mem_append, List.mem_singleton] at listed
      exact listed.symm
  · exact ⟨w, rfl, rfl, rfl, rfl, rfl, fun _ => rfl, fun b listed => .inr listed⟩

/-- The position once the loan is booked. -/
def lent (p : Position) (amount : ℕ) (w : World) : Position :=
  { settled p w with principal := p.principal + amount }

theorem positionDebt_lent {v : World} (position : v.position sender = lent (w.position sender) amount w)
    (now : v.now = w.now) (positive : amount ≠ 0) :
    positionDebt sender v = settledDebt (w.position sender) w + amount := by
  have owes : ¬(lent (w.position sender) amount w).principal = 0 := by
    simp only [lent]
    omega
  have small : (interest (w.position sender) w).2 < DENOMINATOR := carry_snd_lt DENOMINATOR_pos ..
  have none : (interest (lent (w.position sender) amount w) v).1 = 0 := by
    rw [interest, lent, settled, now, Nat.sub_self, Nat.zero_mul, carry_zero small (Nat.mul_zero _)]
  simp only [positionDebt, position, none]
  rw [if_neg owes]
  simp only [lent, settled, settledDebt, Position.debt]
  omega

/-- The borrower is safe below the borrowing LTV, and the others' positions are as they were. -/
theorem allowed_lent {v : World} {price : ℕ} (unpaused : w.engine.riskPaused = false)
    (borrowing : borrowingPrice w = .ok price) (allowed : capitalOperationsAllowed w = true)
    (carried : safe (w.position sender).collateral (settledDebt (w.position sender) w + amount) price
      w.cfg.maxLtvBps = true)
    (positive : amount ≠ 0) (cfg : v.cfg = w.cfg) (capital : v.capital.cfg = w.capital.cfg)
    (now : v.now = w.now) (paused : v.engine.riskPaused = w.engine.riskPaused)
    (priced : borrowingPrice v = borrowingPrice w)
    (own : v.position sender = lent (w.position sender) amount w)
    (others : ∀ b, b ≠ sender → v.position b = w.position b)
    (listed : ∀ b ∈ v.engine.active.members, b = sender ∨ b ∈ w.engine.active.members) :
    capitalOperationsAllowed v = true := by
  refine allowed_of_safe (paused.trans unpaused) (priced.trans borrowing) fun b member => ?_
  by_cases same : b = sender
  · subst same
    rw [positionDebt_lent own now positive, own, cfg]
    exact safe_mono le_rfl le_rfl w.cfg.maxLtv_lt.le carried
  · have before := safe_of_allowed allowed borrowing ((listed b member).resolve_left same)
    rw [positionDebt_congr (others b same) now capital, others b same, cfg]
    exact before

/-- The draw asks the engine back while the loan is already booked. -/
theorem lent_draws {u : World} (lends : Lends sender w) {price cash : ℕ}
    (borrowing : borrowingPrice w = .ok price)
    (available : IsolatedPool.availableCash w.capital = .ok cash) (positive : amount ≠ 0)
    (carried : safe (w.position sender).collateral (settledDebt (w.position sender) w + amount) price
      w.cfg.maxLtvBps = true)
    (cfg : u.cfg = w.cfg) (capital : u.capital = IsolatedPool.accrue w.capital)
    (priced : borrowingPrice u = borrowingPrice w)
    (paused : u.engine.riskPaused = w.engine.riskPaused)
    (own : u.position sender = lent (w.position sender) amount w)
    (others : ∀ b, b ≠ sender → u.position b = w.position b)
    (listed : ∀ b ∈ u.engine.active.members, b = sender ∨ b ∈ w.engine.active.members) :
    (∃ u', onPool (IsolatedPool.draw (some (capitalOperationsAllowed u)) u.self sender amount) u =
        .ok u') ↔
      amount ≠ 0 ∧ amount ≤ cash ∧
        w.capital.pool.outstandingPrincipal + amount ≤ w.capital.cfg.debtLimit := by
  have now : u.now = w.now := by
    simp only [World.now, capital]
    rfl
  have allowed : IsolatedPool.capitalOperationsAllowed (some (capitalOperationsAllowed u))
      (IsolatedPool.accrue (IsolatedPool.accrue w.capital)) = true := by
    have before := lends.allowed
    rw [accrue_accrue]
    unfold IsolatedPool.capitalOperationsAllowed at before ⊢
    split_ifs at before ⊢
    · rfl
    · exact allowed_lent lends.unpaused borrowing before carried positive cfg
        (by rw [capital]; rfl) now paused priced own others listed
  have opened : (IsolatedPool.accrue w.capital).pool.retired = false := lends.open_
  have drawn : (∃ c', IsolatedPool.draw (some (capitalOperationsAllowed u))
        (IsolatedPool.accrue w.capital).cfg.creditEngine sender amount (IsolatedPool.accrue w.capital) =
          .ok c') ↔
      amount ≠ 0 ∧ amount ≤ cash ∧
        w.capital.pool.outstandingPrincipal + amount ≤ w.capital.cfg.debtLimit :=
    draw_accepts opened allowed available lends.real lends.other
  have caller : u.self = (IsolatedPool.accrue w.capital).cfg.creditEngine := by
    simp only [World.self, capital]
  constructor
  · rintro ⟨u', done⟩
    simp only [onPool, bind_eq_ok, mapError_eq_ok, capital, caller] at done
    obtain ⟨c', drew, -⟩ := done
    exact drawn.mp ⟨c', drew⟩
  · intro asked
    obtain ⟨c', drew⟩ := drawn.mpr asked
    refine ⟨{ u with capital := c' }, ?_⟩
    simp only [onPool, bind_eq_ok, mapError_eq_ok, capital, caller]
    exact ⟨c', drew, rfl⟩

/-- What `_borrow` and the pool's `draw` together ask of an amount. -/
theorem borrow_accepts (lends : Lends sender w) {price cash : ℕ}
    (borrowing : borrowingPrice w = .ok price)
    (available : IsolatedPool.availableCash w.capital = .ok cash) :
    (∃ w', borrow sender amount w = .ok w') ↔
      amount ≠ 0 ∧ w.cfg.minimumDebt ≤ settledDebt (w.position sender) w + amount ∧
      safe (w.position sender).collateral (settledDebt (w.position sender) w + amount) price
        w.cfg.maxLtvBps = true ∧
      amount ≤ cash ∧
      w.capital.pool.outstandingPrincipal + amount ≤ w.capital.cfg.debtLimit := by
  obtain ⟨v, entered, enters⟩ : ∃ v, enter sender (settle sender w) = .ok v ∧
      Entered sender (settle sender w) v :=
    enter_accepts (by rw [settle_position]; exact lends.slot)
  have settledPrice : borrowingPrice (settle sender w) = .ok price := borrowing
  have paused : ¬w.engine.riskPaused = true := by simp [lends.unpaused]
  have boundFalse : ¬w.engine.bound = false := by simp [lends.bound]
  have own : v.position sender = settled (w.position sender) w := by
    rw [enters.positions, settle_position]
  have asks : ∀ u : World, u = v.setPosition sender
        { v.position sender with principal := (v.position sender).principal + amount } →
      amount ≠ 0 →
      safe (w.position sender).collateral (settledDebt (w.position sender) w + amount) price
        w.cfg.maxLtvBps = true →
      ((∃ u', onPool (IsolatedPool.draw (some (capitalOperationsAllowed u)) u.self sender amount) u =
          .ok u') ↔
        amount ≠ 0 ∧ amount ≤ cash ∧
          w.capital.pool.outstandingPrincipal + amount ≤ w.capital.cfg.debtLimit) := by
    rintro u rfl positive carried
    refine lent_draws lends borrowing available positive carried enters.cfg enters.capital
      enters.priced enters.paused ?_ (fun b away => ?_) enters.listed
    · rw [position_set, own]
      rfl
    · rw [position_set_of_ne _ away, enters.positions, settle_position_of_ne away]
  simp only [borrow, requirePool, bind_eq_ok, revertIf_eq_ok, exists_const, settle_position,
    settledPrice, entered, Except.ok.injEq, exists_eq_left', pure_eq_ok,
    paused, boundFalse, true_and, Bool.not_eq_false, not_lt]
  constructor
  · rintro ⟨w', -, positive, least, carried, u, drawn, -⟩
    exact ⟨positive, least, carried, ((asks _ rfl positive carried).mp ⟨u, drawn⟩).2⟩
  · rintro ⟨positive, least, carried, inCash, inLimit⟩
    obtain ⟨u, drawn⟩ := (asks _ rfl positive carried).mpr ⟨positive, inCash, inLimit⟩
    exact ⟨_, nofun, positive, least, carried, u, drawn, rfl⟩

/-! ### The top-up -/

/-- What a top-up leaves: more collateral of one position. -/
structure ToppedUp (sender : Address) (extra : ℕ) (w v : World) : Prop where
  cfg : v.cfg = w.cfg
  capital : v.capital = w.capital
  priced : borrowingPrice v = borrowingPrice w
  bound : v.engine.bound = w.engine.bound
  paused : v.engine.riskPaused = w.engine.riskPaused
  active : v.engine.active = w.engine.active
  own : v.position sender =
    { w.position sender with collateral := (w.position sender).collateral + extra }
  others : ∀ b, b ≠ sender → v.position b = w.position b

theorem topUp_spec {v : World} {extra : ℕ} (h : topUp sender extra w = .ok v) :
    ToppedUp sender extra w v := by
  unfold topUp at h
  split_ifs at h with none
  · obtain rfl : w = v := by simpa using h
    exact ⟨rfl, rfl, rfl, rfl, rfl, rfl, by rw [none]; rfl, fun _ _ => rfl⟩
  · simp only [depositCollateral, requirePool, pullCollateral, bind_eq_ok, revertIf_eq_ok,
      exists_const, orRevert_eq_ok, pure_eq_ok] at h
    obtain ⟨-, -, -, -, _, ⟨collateral, -, -, rfl⟩, rfl⟩ := h
    refine ⟨rfl, rfl, rfl, rfl, rfl, rfl, position_set .., fun b away => ?_⟩
    exact position_set_of_ne { w with collateral } away _

namespace ToppedUp

variable {v : World} {extra price : ℕ}

theorem now (t : ToppedUp sender extra w v) : v.now = w.now := by
  simp only [World.now, t.capital]

theorem settledDebt_eq (t : ToppedUp sender extra w v) :
    settledDebt (v.position sender) v = settledDebt (w.position sender) w := by
  simp only [settledDebt, settled, Position.debt, interest, t.own, t.now, t.capital]

/-- More collateral keeps every borrower of the registry as safe as he was. -/
theorem allowed (t : ToppedUp sender extra w v) (unpaused : w.engine.riskPaused = false)
    (borrowing : borrowingPrice w = .ok price) (h : capitalOperationsAllowed w = true) :
    capitalOperationsAllowed v = true := by
  refine allowed_of_safe (t.paused.trans unpaused) (t.priced.trans borrowing) fun b listed => ?_
  rw [t.active] at listed
  have before := safe_of_allowed h borrowing listed
  rw [t.cfg]
  by_cases same : b = sender
  · subst same
    have debt : positionDebt b v = positionDebt b w := by
      simp only [positionDebt, interest, t.own, t.now, t.capital]
    rw [debt, t.own]
    exact safe_mono (Nat.le_add_right ..) le_rfl le_rfl before
  · rw [positionDebt_congr (t.others b same) t.now (by rw [t.capital]), t.others b same]
    exact before

theorem lends (t : ToppedUp sender extra w v) (borrowing : borrowingPrice w = .ok price)
    (h : Lends sender w) : Lends sender v where
  bound := t.bound.trans h.bound
  unpaused := t.paused.trans h.unpaused
  open_ := by rw [t.capital]; exact h.open_
  allowed := by
    have before := h.allowed
    rw [t.capital]
    unfold IsolatedPool.capitalOperationsAllowed at before ⊢
    split_ifs at before ⊢
    · rfl
    · exact t.allowed h.unpaused borrowing before
  slot := by
    rw [t.own, t.active]
    exact h.slot
  real := h.real
  other := by
    simp only [World.pool, t.capital]
    exact h.other

end ToppedUp

/-! ### The capacity -/

variable {s : BorrowInputs} {extra price : ℕ}

theorem borrowCapacity_eq (price_eq : s.borrowingPrice = some price) (price_pos : 0 < price)
    (unpaused : s.riskPaused = false) (extra : ℕ) :
    borrowCapacity s extra =
      some (if s.debt + capacity s extra price < s.minimumDebt then 0 else capacity s extra price) := by
  have shown : ¬(price = 0 ∨ s.riskPaused = true ∨ (extra : ℤ) < 0) := by
    rw [unpaused]
    simp only [Bool.false_eq_true, false_or]
    omega
  simp only [borrowCapacity, price_eq, if_neg shown, Int.toNat_natCast]

/-- The amounts that the chain accepts after a top-up. -/
theorem topUpAndBorrow_accepts {v : World} (lends : Lends sender w)
    (reads : Reads sender s price w) (topped : topUp sender extra w = .ok v) :
    (∃ w', topUpAndBorrow sender extra amount w = .ok w') ↔
      amount ≠ 0 ∧ s.minimumDebt ≤ s.debt + amount ∧ s.debt + amount ≤ limit s extra price ∧
      amount ≤ s.cash ∧ s.principal + amount ≤ s.debtLimit := by
  have t := topUp_spec topped
  have available : IsolatedPool.availableCash v.capital = .ok s.cash := by
    rw [t.capital]
    exact reads.cash
  have accepts : (∃ w', borrow sender amount v = .ok w') ↔
      amount ≠ 0 ∧ v.cfg.minimumDebt ≤ settledDebt (v.position sender) v + amount ∧
      safe (v.position sender).collateral (settledDebt (v.position sender) v + amount) price
        v.cfg.maxLtvBps = true ∧
      amount ≤ s.cash ∧
      v.capital.pool.outstandingPrincipal + amount ≤ v.capital.cfg.debtLimit :=
    borrow_accepts (t.lends reads.borrowing lends) (t.priced.trans reads.borrowing) available
  have carried : safe (v.position sender).collateral (s.debt + amount) price v.cfg.maxLtvBps = true ↔
      s.debt + amount ≤ limit s extra price := by
    rw [safe, decide_eq_true_eq, t.own, t.cfg, limit, reads.collateral, reads.maxLtvBps]
    rfl
  rw [t.settledDebt_eq, ← reads.debt, carried, t.cfg, ← reads.minimumDebt, t.capital,
    ← reads.principal, ← reads.debtLimit] at accepts
  rw [← accepts]
  simp only [topUpAndBorrow, topped, ok_bind]

/-- The capacity is the largest accepted amount, or zero where none is accepted. -/
theorem le_shown_iff {least debt capacity : ℕ} :
    amount ≤ (if debt + capacity < least then 0 else capacity) ∧ least ≤ debt + amount ↔
      amount ≤ capacity ∧ least ≤ debt + amount := by
  split_ifs <;> omega

theorem le_capacity_iff (positive : amount ≠ 0) :
    amount ≤ capacity s extra price ↔
      s.debt + amount ≤ limit s extra price ∧ amount ≤ s.cash ∧ s.principal + amount ≤ s.debtLimit := by
  simp only [capacity, le_min_iff]
  omega

/-- Words of 256 bits suffice for an accepted amount where they do for the reading. -/
theorem accepted_fits (ltv : s.maxLtvBps ≤ 10000)
    (value : (s.collateral + extra) * price / 10 ^ 18 < MODULUS) (room : s.debtLimit < MODULUS)
    (carried : s.debt + amount ≤ limit s extra price) (inLimit : s.principal + amount ≤ s.debtLimit) :
    s.debt + amount < MODULUS ∧ s.principal + amount < MODULUS := by
  have scaled : limit s extra price ≤ (s.collateral + extra) * price / 10 ^ 18 :=
    (Nat.div_le_self ..).trans (mulDiv_le_self ltv _)
  exact ⟨(carried.trans scaled).trans_lt value, inLimit.trans_lt room⟩

/-! ### Closing -/

/-- The same world some seconds later. -/
def later (seconds : ℕ) (w : World) : World :=
  { w with capital := { w.capital with now := w.capital.now + seconds } }

theorem settledDebt_eq (p : Position) (w : World) :
    settledDebt p w = p.principal + p.interest +
      (p.principal * ((w.now - p.updatedAt) * w.capital.cfg.borrowAprBps) + p.remainder) /
        DENOMINATOR := by
  simp only [settledDebt, settled, Position.debt, interest, carry_fst DENOMINATOR_pos]
  omega

/-- Five minutes of interest, with the fraction that the position already carries, come to no more
than five minutes on the whole debt, rounded up, and one unit. -/
theorem settledDebt_later_le (p : Position) {seconds : ℕ} (soon : seconds ≤ 300) :
    settledDebt p (later seconds w) ≤
      closeFundingBudget (settledDebt p w) w.capital.cfg.borrowAprBps := by
  obtain ⟨apr, apr_eq⟩ : ∃ apr, w.capital.cfg.borrowAprBps = apr := ⟨_, rfl⟩
  obtain ⟨accrued, accrued_eq⟩ :
      ∃ accrued, p.principal * ((w.now - p.updatedAt) * apr) + p.remainder = accrued := ⟨_, rfl⟩
  have before : settledDebt p w = p.principal + p.interest + accrued / DENOMINATOR := by
    rw [settledDebt_eq, apr_eq, accrued_eq]
  have grown : p.principal * (((later seconds w).now - p.updatedAt) * apr) + p.remainder ≤
      accrued + p.principal * apr * 300 := by
    have elapsed : (later seconds w).now - p.updatedAt ≤ w.now - p.updatedAt + 300 := by
      have := show (later seconds w).now = w.now + seconds from rfl
      omega
    calc p.principal * (((later seconds w).now - p.updatedAt) * apr) + p.remainder
        ≤ p.principal * ((w.now - p.updatedAt + 300) * apr) + p.remainder := by gcongr
      _ = accrued + p.principal * apr * 300 := by
        rw [← accrued_eq]
        ring
  have after : settledDebt p (later seconds w) ≤
      p.principal + p.interest + (accrued + p.principal * apr * 300) / DENOMINATOR := by
    have same : (later seconds w).capital.cfg.borrowAprBps = apr := apr_eq
    rw [settledDebt_eq, same]
    gcongr
  rw [apr_eq]
  unfold closeFundingBudget
  have denominator : DENOMINATOR = 315360000000 := by decide
  rw [denominator] at before after
  split_ifs with owes
  · have part : p.principal * apr * 300 ≤ settledDebt p w * apr * 300 := by
      have : p.principal ≤ settledDebt p w := by omega
      gcongr
    omega
  · have none : p.principal = 0 := by omega
    rw [none, Nat.zero_mul, Nat.zero_mul] at after
    omega

/-- The capacity that is shown is exactly what the chain accepts, and what is to be kept for closing
covers the debt of every position for five minutes. -/
theorem borrow_capacity_exact :
    (∀ (sender : Address) (s : BorrowInputs) (price extra : ℕ) (w v : World),
      Lends sender w → Reads sender s price w → topUp sender extra w = .ok v →
      ∃ shown, borrowCapacity s extra = some shown ∧
        (∀ amount, 0 < amount →
          ((∃ w', topUpAndBorrow sender extra amount w = .ok w') ↔
            amount ≤ shown ∧ s.minimumDebt ≤ s.debt + amount)) ∧
        (shown = 0 ↔
          ∀ amount, 0 < amount → ¬∃ w', topUpAndBorrow sender extra amount w = .ok w')) ∧
    ∀ (p : Position) (w : World) (seconds : ℕ), seconds ≤ 300 →
      settledDebt p (later seconds w) ≤
        closeFundingBudget (settledDebt p w) w.capital.cfg.borrowAprBps := by
  refine ⟨fun sender s price extra w v lends reads topped => ?_,
    fun p w seconds soon => settledDebt_later_le p soon⟩
  have unpaused : s.riskPaused = false := reads.riskPaused.trans lends.unpaused
  refine ⟨_, borrowCapacity_eq reads.price_eq reads.price_pos unpaused extra, ?_⟩
  have exact_ : ∀ amount, 0 < amount →
      ((∃ w', topUpAndBorrow sender extra amount w = .ok w') ↔
        amount ≤ (if s.debt + capacity s extra price < s.minimumDebt then 0
            else capacity s extra price) ∧ s.minimumDebt ≤ s.debt + amount) := by
    intro amount positive
    rw [le_shown_iff, le_capacity_iff positive.ne', topUpAndBorrow_accepts lends reads topped]
    constructor
    · rintro ⟨-, least, carried, inCash, inLimit⟩
      exact ⟨⟨carried, inCash, inLimit⟩, least⟩
    · rintro ⟨⟨carried, inCash, inLimit⟩, least⟩
      exact ⟨positive.ne', least, carried, inCash, inLimit⟩
  refine ⟨exact_, fun none amount positive accepted => ?_, fun rejected => ?_⟩
  · have := ((exact_ amount positive).mp accepted).1
    omega
  · -- were the capacity positive, it would itself be accepted
    by_contra some_
    have positive := Nat.pos_of_ne_zero some_
    refine rejected _ positive ((exact_ _ positive).mpr ⟨le_rfl, ?_⟩)
    split_ifs at some_ ⊢ <;> omega

/-- In the sample market the borrower gets a hundred tokens more. -/
def supplied : World :=
  reached sample (execAll exec
    [.collateral (.mint 3 (10 ^ 20)), .collateral (.approve 3 100 (10 ^ 20))] sample)

def suppliedInputs : BorrowInputs where
  collateral := 10 ^ 21
  debt := 504109589
  borrowingPrice := some (10 ^ 18)
  maxLtvBps := 5000
  cash := 5 * 10 ^ 8
  principal := 5 * 10 ^ 8
  debtLimit := 10 ^ 12
  minimumDebt := 10 ^ 6
  riskPaused := false

theorem supplied_capacity : ∃ shown, borrowCapacity suppliedInputs (10 ^ 20 : ℕ) = some shown ∧
    shown = 45890411 ∧
    ∃ w', topUpAndBorrow 3 (10 ^ 20) shown supplied = .ok w' := by
  have lends : Lends 3 supplied :=
    ⟨by decide +kernel, by decide +kernel, by decide +kernel, by decide +kernel,
      by decide +kernel, by decide, by decide +kernel⟩
  have reads : Reads 3 suppliedInputs (10 ^ 18) supplied :=
    ⟨by decide +kernel, by decide +kernel, rfl, by decide +kernel, by decide, by decide +kernel,
      by decide +kernel, by decide +kernel, by decide +kernel, by decide +kernel, by decide +kernel⟩
  obtain ⟨v, topped⟩ : ∃ v, topUp 3 (10 ^ 20) supplied = .ok v :=
    ⟨_, eq_ok_reached supplied (by decide +kernel)⟩
  obtain ⟨shown, eq, exact_, -⟩ := borrow_capacity_exact.1 _ _ _ _ _ _ lends reads topped
  have value : shown = 45890411 := by
    have computed : borrowCapacity suppliedInputs (10 ^ 20 : ℕ) = some 45890411 := by decide +kernel
    exact Option.some.inj (eq.symm.trans computed)
  exact ⟨shown, eq, value, (exact_ shown (by omega)).mpr
    ⟨le_rfl, by rw [value]; decide +kernel⟩⟩

end Turret.BorrowEstimate
