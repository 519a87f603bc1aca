import Turret.Isolated.CapitalPool
import Turret.Library.LenderBooks

/-! Every call of the fixed-rate pool is one flow of its lenders' books, or the
write-off that `recognizeLoss` states. What the pool owes as fees is always
covered by the USDG it holds, so no view of it reverts. -/

namespace Turret.IsolatedPool

open Execution Rounding ERC4626

/-- Spendable cash, principal, interest brought up to the current time, and share supply. -/
def books (w : World) : LenderBooks where
  cash := w.usdg.balanceOf w.cfg.self - w.pool.protocolFees
  principal := w.pool.outstandingPrincipal
  interest := w.pool.interestReceivable + (pendingInterest w).1
  supply := w.pool.shares.totalSupply

def assets (w : World) : ℕ := (books w).value w.cfg.revenueFeeBps

/-- The interest owed in units of one `INTEREST_DENOMINATOR`-th, up to date. -/
def owed (w : World) : ℕ :=
  w.pool.interestReceivable * INTEREST_DENOMINATOR + w.pool.interestRemainder +
    w.pool.outstandingPrincipal * ((w.now - w.pool.lastAccrual) * w.cfg.borrowAprBps)

structure Sound (w : World) : Prop where
  fees_le : w.pool.protocolFees ≤ w.usdg.balanceOf w.cfg.self
  last_le : w.pool.lastAccrual ≤ w.now
  remainder_lt : w.pool.interestRemainder < INTEREST_DENOMINATOR
  principal_le : w.pool.outstandingPrincipal ≤ w.cfg.debtLimit
  no_allowance : ∀ spender, w.usdg.allowance w.cfg.self spender = 0

theorem Deployed.sound {w : World} (h : Deployed w) : Sound w where
  fees_le := by simp [h.pool_eq]
  last_le := by simp [h.pool_eq]
  remainder_lt := by simp [h.pool_eq, INTEREST_DENOMINATOR]
  principal_le := by simp [h.pool_eq]
  no_allowance := h.no_allowance

theorem denominator_pos : 0 < INTEREST_DENOMINATOR := by decide

theorem Config.fee_le_whole (c : Config) : c.revenueFeeBps ≤ 10000 := c.fee_le.trans (by decide)

@[simp] theorem accrue_cfg (w : World) : (accrue w).cfg = w.cfg := rfl
@[simp] theorem accrue_now (w : World) : (accrue w).now = w.now := rfl
@[simp] theorem accrue_usdg (w : World) : (accrue w).usdg = w.usdg := rfl
@[simp] theorem accrue_shares (w : World) : (accrue w).pool.shares = w.pool.shares := rfl
@[simp] theorem accrue_fees (w : World) :
    (accrue w).pool.protocolFees = w.pool.protocolFees := rfl
@[simp] theorem accrue_principal (w : World) :
    (accrue w).pool.outstandingPrincipal = w.pool.outstandingPrincipal := rfl
@[simp] theorem accrue_lastAccrual (w : World) : (accrue w).pool.lastAccrual = w.now := rfl

/-- Right after a checkpoint nothing is pending. -/
theorem pendingInterest_of_checkpointed {w : World} (h : w.pool.lastAccrual = w.now)
    (hr : w.pool.interestRemainder < INTEREST_DENOMINATOR) :
    pendingInterest w = (0, w.pool.interestRemainder) := by
  rw [pendingInterest, h, Nat.sub_self, Nat.zero_mul]
  exact carry_zero hr (Nat.mul_zero _)

theorem books_interest (w : World) : (books w).interest = owed w / INTEREST_DENOMINATOR := by
  simp only [books, pendingInterest, carry_fst denominator_pos, owed]
  rw [Nat.add_assoc, Nat.add_comm (_ * _) (_ + _), Nat.add_mul_div_right _ _ denominator_pos]
  simp only [Nat.add_comm]

@[simp] theorem owed_accrue (w : World) : owed (accrue w) = owed w := by
  have exact := carry_exact INTEREST_DENOMINATOR w.pool.outstandingPrincipal
    ((w.now - w.pool.lastAccrual) * w.cfg.borrowAprBps) w.pool.interestRemainder
  simp only [owed, accrue, pendingInterest, Nat.sub_self, Nat.zero_mul, Nat.mul_zero, Nat.add_mul]
  omega

/-- After a checkpoint all that is owed stands in the two stored fields. -/
theorem owed_of_accrue (w : World) :
    (accrue w).pool.interestReceivable * INTEREST_DENOMINATOR + (accrue w).pool.interestRemainder =
      owed w := by
  rw [← owed_accrue w]
  simp [owed]

theorem accrue_remainder_lt (w : World) :
    (accrue w).pool.interestRemainder < INTEREST_DENOMINATOR :=
  carry_snd_lt denominator_pos ..

/-- The books of a pool that was just checkpointed. -/
theorem books_of_checkpointed {w : World} (h : w.pool.lastAccrual = w.now)
    (hr : w.pool.interestRemainder < INTEREST_DENOMINATOR) :
    books w = ⟨w.usdg.balanceOf w.cfg.self - w.pool.protocolFees, w.pool.outstandingPrincipal,
      w.pool.interestReceivable, w.pool.shares.totalSupply⟩ := by
  simp only [books, pendingInterest_of_checkpointed h hr, Nat.add_zero]

@[simp] theorem books_accrue (w : World) : books (accrue w) = books w := by
  have settled := pendingInterest_of_checkpointed (w := accrue w) rfl (accrue_remainder_lt w)
  simp only [books, settled, Nat.add_zero]
  rfl

@[simp] theorem assets_accrue (w : World) : assets (accrue w) = assets w := by
  simp [assets]

theorem Sound.accrue {w : World} (h : Sound w) : Sound (accrue w) where
  fees_le := h.fees_le
  last_le := le_rfl
  remainder_lt := accrue_remainder_lt w
  principal_le := h.principal_le
  no_allowance := h.no_allowance

@[simp] theorem availableCash_eq_ok {w : World} {n : ℕ} :
    availableCash w = .ok n ↔
      w.pool.protocolFees ≤ w.usdg.balanceOf w.cfg.self ∧ (books w).cash = n := by
  simp [availableCash, books]

@[simp] theorem totalAssets_eq_ok {w : World} {n : ℕ} :
    totalAssets w = .ok n ↔
      w.pool.protocolFees ≤ w.usdg.balanceOf w.cfg.self ∧ assets w = n := by
  simp only [totalAssets, bind_eq_ok, availableCash_eq_ok, pure_eq_ok]
  constructor
  · rintro ⟨c, ⟨solvent, rfl⟩, rfl⟩
    exact ⟨solvent, rfl⟩
  · rintro ⟨solvent, rfl⟩
    exact ⟨_, ⟨solvent, rfl⟩, rfl⟩

theorem Sound.totalAssets {w : World} (h : Sound w) : totalAssets w = .ok (assets w) :=
  totalAssets_eq_ok.mpr ⟨h.fees_le, rfl⟩

/-! ### Moves of cash and shares -/

/-- Only cash and shares moved, to `usdg` and `shares`. -/
def moved (w : World) (usdg : TokenLedger Address) (shares : ShareLedger) : World :=
  { w with usdg, pool := { w.pool with shares } }

theorem books_moved (w : World) (usdg : TokenLedger Address) (shares : ShareLedger) :
    books (moved w usdg shares) =
      { books w with
        cash := usdg.balanceOf w.cfg.self - w.pool.protocolFees
        supply := shares.totalSupply } := rfl

theorem Sound.moved {w : World} (h : Sound w) {usdg : TokenLedger Address} {shares : ShareLedger}
    (covered : w.pool.protocolFees ≤ usdg.balanceOf w.cfg.self)
    (spent : ∀ a, usdg.allowance w.cfg.self a ≤ w.usdg.allowance w.cfg.self a) :
    Sound (moved w usdg shares) where
  fees_le := covered
  last_le := h.last_le
  remainder_lt := h.remainder_lt
  principal_le := h.principal_le
  no_allowance a := Nat.eq_zero_of_le_zero ((spent a).trans (h.no_allowance a).le)

theorem sendExact_ok {recipient : Address} {amount : ℕ} {w w' : World}
    (h : vault.sendExact recipient amount w = .ok w') :
    ∃ usdg, w' = { w with usdg } ∧
      usdg.balanceOf w.cfg.self + amount = w.usdg.balanceOf w.cfg.self ∧
      usdg.allowance = w.usdg.allowance :=
  LenderVault.sendExact_ok h

/-! ### Each call as a flow -/

structure FlowStep (w w' : World) : Prop where
  sound : Sound w'
  cfg_eq : w'.cfg = w.cfg
  flow : (books w).Flow w.cfg.revenueFeeBps virtualShares (books w')

/-- A flow that neither earns interest nor touches the fees booked. -/
structure QuietStep (w w' : World) : Prop extends FlowStep w w' where
  now_eq : w'.now = w.now
  owed_eq : owed w' = owed w
  fees_eq : w'.pool.protocolFees = w.pool.protocolFees

/-- A quiet flow that lends nothing and raises no allowance. -/
structure LenderStep (w w' : World) : Prop extends QuietStep w w' where
  principal_eq : w'.pool.outstandingPrincipal = w.pool.outstandingPrincipal
  allowance_le : ∀ a b, w'.usdg.allowance a b ≤ w.usdg.allowance a b

theorem QuietStep.interest_eq {w w' : World} (h : QuietStep w w') :
    (books w').interest = (books w).interest := by
  rw [books_interest, books_interest, h.owed_eq]

/-- A call checkpoints first, so it may be judged from the checkpointed state. -/
theorem LenderStep.of_accrue {w w' : World} (h : LenderStep (accrue w) w') : LenderStep w w' where
  sound := h.sound
  cfg_eq := h.cfg_eq
  flow := by
    have := h.flow
    rwa [books_accrue] at this
  now_eq := h.now_eq
  owed_eq := h.owed_eq.trans (owed_accrue w)
  fees_eq := h.fees_eq
  principal_eq := h.principal_eq
  allowance_le := h.allowance_le

theorem Sound.lender_refl {w : World} (h : Sound w) : LenderStep w w :=
  ⟨⟨⟨h, rfl, .rest⟩, rfl, rfl, rfl⟩, rfl, fun _ _ => le_rfl⟩

theorem Sound.booked_vault {w : World} (h : Sound w) :
    vault.Booked w w.cfg.revenueFeeBps w.pool.protocolFees (books w) where
  covered := h.fees_le
  cash_eq := rfl
  supply_eq := rfl
  value_eq _ valued := (totalAssets_eq_ok.mp valued).2
  spendable _ cash := (availableCash_eq_ok.mp cash).2

/-- A movement of the vault is a flow at the price of the checkpointed books. -/
theorem movement_lender {w w' : World} (hw : Sound w) (h : LenderVault.Movement vault w w') :
    LenderStep w w' := by
  rcases h.flow hw.accrue.booked_vault with
    ⟨usdg, shares, solvent, spent, flow, done⟩ | ⟨shares, supply, done⟩
  · obtain rfl := Except.ok.inj done
    exact .of_accrue ⟨⟨⟨hw.accrue.moved solvent (spent _), rfl, flow⟩, rfl, rfl, rfl⟩, rfl, spent⟩
  · subst done
    have sound : Sound (moved w w.usdg shares) := hw.moved hw.fees_le (fun _ => le_rfl)
    refine ⟨⟨⟨sound, rfl, ?_⟩, rfl, rfl, rfl⟩, rfl, fun _ _ => le_rfl⟩
    change (books w).Flow _ _ (books (moved w w.usdg shares))
    rw [books_moved, supply]
    exact .rest

/-! The engine's three calls checkpoint, then rewrite principal, receivable interest, fees
and losses. -/

def booked (w : World) (usdg : TokenLedger Address) (principal interest fees loss : ℕ) : World :=
  { accrue w with
    usdg
    pool :=
      { (accrue w).pool with
        outstandingPrincipal := principal
        interestReceivable := interest
        protocolFees := fees
        cumulativeLoss := loss } }

theorem books_booked (w : World) (usdg : TokenLedger Address) (principal interest fees loss : ℕ) :
    books (booked w usdg principal interest fees loss) =
      ⟨usdg.balanceOf w.cfg.self - fees, principal, interest, w.pool.shares.totalSupply⟩ :=
  books_of_checkpointed (w := booked w usdg principal interest fees loss) rfl
    (accrue_remainder_lt w)

theorem owed_booked (w : World) {usdg : TokenLedger Address} {principal interest fees loss : ℕ} :
    owed (booked w usdg principal interest fees loss) =
      interest * INTEREST_DENOMINATOR + (accrue w).pool.interestRemainder := by
  simp [owed, booked]

theorem Sound.booked {w : World} (h : Sound w) {usdg : TokenLedger Address}
    {principal interest fees loss : ℕ} (covered : fees ≤ usdg.balanceOf w.cfg.self)
    (limited : principal ≤ w.cfg.debtLimit)
    (spent : ∀ a, usdg.allowance w.cfg.self a ≤ w.usdg.allowance w.cfg.self a) :
    Sound (booked w usdg principal interest fees loss) where
  fees_le := covered
  last_le := le_rfl
  remainder_lt := accrue_remainder_lt w
  principal_le := limited
  no_allowance a := Nat.eq_zero_of_le_zero ((spent a).trans (h.no_allowance a).le)

theorem draw_ok {safety : Option Bool} {sender recipient : Address} {amount : ℕ} {w w' : World}
    (h : draw safety sender recipient amount w = .ok w') :
    ∃ usdg, w' = booked w usdg (w.pool.outstandingPrincipal + amount)
        (accrue w).pool.interestReceivable w.pool.protocolFees w.pool.cumulativeLoss ∧
      sender = w.cfg.creditEngine ∧ w.pool.retired = false ∧ 0 < amount ∧
      amount ≤ (books w).cash ∧ w.pool.outstandingPrincipal + amount ≤ w.cfg.debtLimit ∧
      usdg.balanceOf w.cfg.self + amount = w.usdg.balanceOf w.cfg.self ∧
      usdg.allowance = w.usdg.allowance := by
  simp only [draw, onlyEngine, bind_eq_ok, revertIf_eq_ok, exists_const, availableCash_eq_ok,
    checkedSub_eq_ok, ne_eq, not_not, not_lt, Bool.not_eq_true] at h
  obtain ⟨rfl, open_, -, positive, _, ⟨-, rfl⟩, funded, _, ⟨below, rfl⟩, room, sent⟩ := h
  obtain ⟨usdg, rfl, exact, spent⟩ := sendExact_ok sent
  rw [books_accrue] at funded
  simp only [accrue_principal, accrue_cfg] at below room
  exact ⟨usdg, rfl, rfl, open_, Nat.pos_of_ne_zero positive, funded, by omega, exact, spent⟩

theorem draw_books {safety : Option Bool} {sender recipient : Address} {amount : ℕ}
    {w w' : World} (hw : Sound w) (h : draw safety sender recipient amount w = .ok w') :
    Sound w' ∧ w'.cfg = w.cfg ∧ books w' = (books w).lend amount ∧ amount ≤ (books w).cash := by
  obtain ⟨usdg, rfl, -, -, -, funded, room, sent, spent⟩ := draw_ok h
  have covered := hw.fees_le
  have room' := funded
  change amount ≤ w.usdg.balanceOf w.cfg.self - w.pool.protocolFees at room'
  refine ⟨hw.booked (by omega) room (fun a => by rw [spent]), rfl, ?_, funded⟩
  have cash : usdg.balanceOf w.cfg.self - w.pool.protocolFees =
      w.usdg.balanceOf w.cfg.self - w.pool.protocolFees - amount := by omega
  rw [books_booked, cash]
  rfl

theorem repay_ok {sender : Address} {principal received : ℕ} {w w' : World}
    (h : repay sender principal received w = .ok w') :
    ∃ usdg, w' = booked w usdg (w.pool.outstandingPrincipal - principal)
        ((accrue w).pool.interestReceivable - received)
        (w.pool.protocolFees + (feeOn w (accrue w).pool.interestReceivable -
          feeOn w ((accrue w).pool.interestReceivable - received))) w.pool.cumulativeLoss ∧
      sender = w.cfg.creditEngine ∧ principal ≤ w.pool.outstandingPrincipal ∧
      received ≤ (accrue w).pool.interestReceivable ∧ 0 < principal + received ∧
      w.usdg.transferFrom w.cfg.self sender w.cfg.self (principal + received) = some usdg ∧
      usdg.balanceOf w.cfg.self = w.usdg.balanceOf w.cfg.self + (principal + received) := by
  simp only [repay, onlyEngine, bind_eq_ok, revertIf_eq_ok, exists_const, orRevert_eq_ok,
    pure_eq_ok, ne_eq, not_not, not_or, not_lt] at h
  obtain ⟨rfl, ⟨owed, accrued, positive⟩, usdg, pulled, exact, rfl⟩ := h
  exact ⟨usdg, rfl, rfl, owed, accrued, Nat.pos_of_ne_zero positive, pulled, exact⟩

/-- The fee on a repayment is part of the yield received. -/
theorem repay_fee_le {w : World} {received : ℕ}
    (h : received ≤ (accrue w).pool.interestReceivable) :
    feeOn w (accrue w).pool.interestReceivable -
      feeOn w ((accrue w).pool.interestReceivable - received) ≤ received :=
  LenderBooks.fee_sub_le w.cfg.fee_le_whole h

theorem repay_books {sender : Address} {principal received : ℕ} {w w' : World} (hw : Sound w)
    (h : repay sender principal received w = .ok w') :
    Sound w' ∧ w'.cfg = w.cfg ∧
      books w' = (books w).collect w.cfg.revenueFeeBps principal received ∧
      principal ≤ (books w).principal ∧ received ≤ (books w).interest := by
  obtain ⟨usdg, rfl, -, owed, accrued, -, pulled, exact⟩ := repay_ok h
  have covered := hw.fees_le
  have limited := hw.principal_le
  have fee_le := repay_fee_le accrued
  refine ⟨hw.booked (by omega) (by omega) (TokenLedger.transferFrom_allowance_le pulled _), rfl,
    ?_, owed, accrued⟩
  have cash : ∀ fee, fee ≤ received → usdg.balanceOf w.cfg.self - (w.pool.protocolFees + fee) =
      w.usdg.balanceOf w.cfg.self - w.pool.protocolFees + (principal + received) - fee := by
    intro fee _
    omega
  rw [books_booked, cash _ fee_le]
  rfl

/-- The one call that is not a flow: it writes off exactly what it states. -/
theorem recognizeLoss_ok {sender : Address} {principal interest : ℕ} {w w' : World}
    (h : recognizeLoss sender principal interest w = .ok w') :
    w' = booked w w.usdg (w.pool.outstandingPrincipal - principal)
        ((accrue w).pool.interestReceivable - interest) w.pool.protocolFees
        (w.pool.cumulativeLoss + (principal + interest)) ∧
      sender = w.cfg.creditEngine ∧ 0 < principal + interest ∧
      principal ≤ w.pool.outstandingPrincipal ∧
      interest ≤ (accrue w).pool.interestReceivable := by
  simp only [recognizeLoss, onlyEngine, bind_eq_ok, revertIf_eq_ok, exists_const, pure_eq_ok,
    ne_eq, not_not, not_or, not_lt] at h
  obtain ⟨rfl, ⟨positive, owed, accrued⟩, rfl⟩ := h
  exact ⟨rfl, rfl, Nat.pos_of_ne_zero positive, owed, accrued⟩

theorem recognizeLoss_books {sender : Address} {principal interest : ℕ} {w w' : World}
    (hw : Sound w) (h : recognizeLoss sender principal interest w = .ok w') :
    Sound w' ∧ w'.cfg = w.cfg ∧ books w' = (books w).writeOff principal interest ∧
      principal ≤ (books w).principal ∧ interest ≤ (books w).interest := by
  obtain ⟨rfl, -, -, owed, accrued⟩ := recognizeLoss_ok h
  have limited := hw.principal_le
  refine ⟨hw.booked hw.fees_le (by omega) (fun _ => le_rfl), rfl, ?_, owed, accrued⟩
  rw [books_booked]
  rfl

theorem claimRevenue_flow {w w' : World} (hw : Sound w) (h : claimRevenue w = .ok w') :
    FlowStep w w' ∧ books w' = books w := by
  simp only [claimRevenue, bind_eq_ok, revertIf_eq_ok, exists_const] at h
  obtain ⟨-, sent⟩ := h
  obtain ⟨usdg, rfl, exact, spent⟩ := sendExact_ok sent
  have same : books { w with usdg, pool := { w.pool with protocolFees := 0 } } = books w := by
    simp only [books, pendingInterest]
    congr 1
    simp only at exact
    omega
  refine ⟨⟨⟨Nat.zero_le _, hw.last_le, hw.remainder_lt, hw.principal_le, fun a => ?_⟩, rfl, ?_⟩,
    same⟩
  · rw [show ({ w with usdg, pool := { w.pool with protocolFees := 0 } } : World).usdg = usdg
      from rfl, spent]
    exact hw.no_allowance a
  · rw [same]
    exact .rest

/-- Interest never falls while time passes. -/
theorem elapse_books {w : World} (hw : Sound w) (seconds : ℕ) :
    ∃ n, books { w with now := w.now + seconds } =
      { books w with interest := (books w).interest + n } := by
  have last := hw.last_le
  have grows : (pendingInterest w).1 ≤
      (pendingInterest { w with now := w.now + seconds }).1 := by
    simp only [pendingInterest, carry_fst denominator_pos]
    refine Nat.div_le_div_right (Nat.add_le_add_right (Nat.mul_le_mul_left _ ?_) _)
    exact Nat.mul_le_mul_right _ (by omega)
  refine ⟨(pendingInterest { w with now := w.now + seconds }).1 - (pendingInterest w).1, ?_⟩
  simp only [books]
  rw [Nat.add_assoc, Nat.add_sub_cancel' grows]

theorem elapse_flow {w : World} (hw : Sound w) (seconds : ℕ) :
    FlowStep w { w with now := w.now + seconds } := by
  have last := hw.last_le
  obtain ⟨n, grown⟩ := elapse_books hw seconds
  refine ⟨⟨hw.fees_le, last.trans (Nat.le_add_right ..), hw.remainder_lt, hw.principal_le,
    hw.no_allowance⟩, rfl, ?_⟩
  rw [grown]
  exact .earn n

/-- USDG moved by others can only add to what the pool holds. -/
theorem gift_quiet {w : World} (hw : Sound w) {usdg : TokenLedger Address}
    (kept : w.usdg.balanceOf w.cfg.self ≤ usdg.balanceOf w.cfg.self)
    (spent : ∀ a, usdg.allowance w.cfg.self a ≤ w.usdg.allowance w.cfg.self a) :
    QuietStep w { w with usdg } := by
  have covered := hw.fees_le
  have sound : Sound (moved w usdg w.pool.shares) := hw.moved (by omega) spent
  refine ⟨⟨sound, rfl, ?_⟩, rfl, rfl, rfl⟩
  have given : (books w).Flow w.cfg.revenueFeeBps virtualShares _ :=
    .gift (usdg.balanceOf w.cfg.self - w.usdg.balanceOf w.cfg.self)
  have cash : usdg.balanceOf w.cfg.self - w.pool.protocolFees = (books w).cash +
      (usdg.balanceOf w.cfg.self - w.usdg.balanceOf w.cfg.self) := by
    simp only [books]
    omega
  rw [show books { w with usdg } = { books w with
    cash := usdg.balanceOf w.cfg.self - w.pool.protocolFees } from rfl, cash]
  exact given

def Op.isLoss : Op → Bool
  | .recognizeLoss .. => true
  | _ => false

/-- A call of the token by anyone but the pool: the pool's balance does not fall, and no
holder's allowances rise but the sender's own. -/
theorem exec_usdg {w w' : World} (hw : Sound w) {call : TokenCall Address}
    (h : exec (.usdg call) w = .ok w') :
    ∃ usdg, w' = { w with usdg } ∧ w.usdg.balanceOf w.cfg.self ≤ usdg.balanceOf w.cfg.self ∧
      (∀ a, usdg.allowance w.cfg.self a ≤ w.usdg.allowance w.cfg.self a) ∧
      ∀ x, call.sender ≠ some x → ∀ a, usdg.allowance x a ≤ w.usdg.allowance x a := by
  simp only [exec, bind_eq_ok, revertIf_eq_ok, exists_const, orRevert_eq_ok, pure_eq_ok] at h
  obtain ⟨away, usdg, moved, rfl⟩ := h
  exact ⟨usdg, rfl, (TokenCall.exec_closed moved away hw.no_allowance).1,
    TokenCall.exec_allowance_le moved away, fun x hx => TokenCall.exec_allowance_le moved hx⟩

def Op.isQuiet : Op → Bool
  | .claimRevenue | .repay .. | .recognizeLoss .. | .elapse .. => false
  | _ => true

theorem exec_quiet {w w' : World} (hw : Sound w) {op : Op} (hop : op.isQuiet = true)
    (h : exec op w = .ok w') : QuietStep w w' := by
  cases op with
  | claimRevenue | repay | recognizeLoss | elapse => cases hop
  | lender safety call => exact (movement_lender hw (LenderVault.call_movement h)).toQuietStep
  | accrueInterest =>
    rw [exec, pure_eq_ok] at h
    exact h ▸ (LenderStep.of_accrue hw.accrue.lender_refl).toQuietStep
  | draw safety sender recipient amount =>
    obtain ⟨sound, cfg_eq, result, funded⟩ := draw_books hw h
    have step : FlowStep w w' := ⟨sound, cfg_eq, result ▸ .lend amount funded⟩
    obtain ⟨_, rfl, -⟩ := draw_ok h
    exact ⟨step, rfl, (owed_booked w).trans (owed_of_accrue w), rfl⟩
  | retire sender =>
    simp only [exec, retire, bind_eq_ok, pure_eq_ok] at h
    obtain ⟨-, -, rfl⟩ := h
    have sound : Sound { w with pool := { w.pool with retired := true } } :=
      ⟨hw.fees_le, hw.last_le, hw.remainder_lt, hw.principal_le, hw.no_allowance⟩
    exact ⟨⟨sound, rfl, .rest⟩, rfl, rfl, rfl⟩
  | usdg call =>
    obtain ⟨usdg, rfl, kept, spent, -⟩ := exec_usdg hw h
    exact gift_quiet hw kept spent

/-- Every call but `recognizeLoss` is a flow of the lenders' books. -/
theorem exec_flow {w w' : World} (hw : Sound w) {op : Op} (hop : op.isLoss = false)
    (h : exec op w = .ok w') : FlowStep w w' := by
  cases op with
  | recognizeLoss => cases hop
  | claimRevenue => exact (claimRevenue_flow hw h).1
  | repay sender principal received =>
    obtain ⟨sound, cfg_eq, result, owed, accrued⟩ := repay_books hw h
    exact ⟨sound, cfg_eq, result ▸ .collect principal received owed accrued⟩
  | elapse seconds =>
    rw [exec, pure_eq_ok] at h
    exact h ▸ elapse_flow hw seconds
  | _ => exact (exec_quiet hw rfl h).toFlowStep

theorem exec_sound {w w' : World} (hw : Sound w) {op : Op} (h : exec op w = .ok w') :
    Sound w' ∧ w'.cfg = w.cfg := by
  by_cases hop : op.isLoss = false
  · have step := exec_flow hw hop h
    exact ⟨step.sound, step.cfg_eq⟩
  · cases op with
    | recognizeLoss sender principal interest =>
      have loss := recognizeLoss_books hw h
      exact ⟨loss.1, loss.2.1⟩
    | _ => exact absurd rfl hop

/-! ### Calls of others than the engine -/

/-- What the rest of the world can do between two calls of the engine: principal stays, and the
interest owed grows with time alone. -/
structure OutsideStep (w w' : World) : Prop where
  sound : Sound w'
  cfg_eq : w'.cfg = w.cfg
  now_le : w.now ≤ w'.now
  principal_eq : w'.pool.outstandingPrincipal = w.pool.outstandingPrincipal
  owed_eq : owed w' = owed w +
    w.pool.outstandingPrincipal * ((w'.now - w.now) * w.cfg.borrowAprBps)
  allowance_le : ∀ a, w'.usdg.allowance w.cfg.creditEngine a ≤
    w.usdg.allowance w.cfg.creditEngine a

theorem QuietStep.outside {w w' : World} (h : QuietStep w w')
    (principal : w'.pool.outstandingPrincipal = w.pool.outstandingPrincipal)
    (allowance : ∀ a, w'.usdg.allowance w.cfg.creditEngine a ≤
      w.usdg.allowance w.cfg.creditEngine a) : OutsideStep w w' :=
  ⟨h.sound, h.cfg_eq, h.now_eq.ge, principal, by simp [h.owed_eq, h.now_eq], allowance⟩

theorem owed_elapse {w : World} (hw : Sound w) (seconds : ℕ) :
    owed { w with now := w.now + seconds } =
      owed w + w.pool.outstandingPrincipal * (seconds * w.cfg.borrowAprBps) := by
  have last := hw.last_le
  simp only [owed]
  rw [show w.now + seconds - w.pool.lastAccrual = (w.now - w.pool.lastAccrual) + seconds by omega,
    Nat.add_mul, Nat.mul_add]
  simp only [Nat.add_assoc]

theorem exec_outside {w w' : World} (hw : Sound w) {op : Op}
    (hop : op.sender ≠ some w.cfg.creditEngine) (h : exec op w = .ok w') : OutsideStep w w' := by
  cases op with
  | draw safety sender recipient amount =>
    obtain ⟨_, -, byEngine, -⟩ := draw_ok h
    exact absurd (congrArg some byEngine) hop
  | repay sender principal received =>
    obtain ⟨_, -, byEngine, -⟩ := repay_ok h
    exact absurd (congrArg some byEngine) hop
  | recognizeLoss sender principal interest =>
    exact absurd (congrArg some (recognizeLoss_ok h).2.1) hop
  | retire sender =>
    simp only [exec, retire, onlyEngine, bind_eq_ok, revertIf_eq_ok, ne_eq, not_not] at h
    obtain ⟨_, byEngine, -⟩ := h
    exact absurd (congrArg some byEngine) hop
  | claimRevenue =>
    have flow := (claimRevenue_flow hw h).1
    simp only [exec, claimRevenue, bind_eq_ok, revertIf_eq_ok, exists_const] at h
    obtain ⟨usdg, rfl, -, spent⟩ := sendExact_ok h.2
    exact ⟨flow.sound, rfl, le_rfl, rfl, by simp [owed], fun a => by rw [← spent]⟩
  | elapse seconds =>
    rw [exec, pure_eq_ok] at h
    subst h
    refine ⟨(elapse_flow hw seconds).sound, rfl, Nat.le_add_right .., rfl, ?_, fun _ => le_rfl⟩
    rw [owed_elapse hw, Nat.add_sub_cancel_left]
  | usdg call =>
    obtain ⟨usdg, rfl, kept, spent, others⟩ := exec_usdg hw h
    exact (gift_quiet hw kept spent).outside rfl (others _ hop)
  | accrueInterest =>
    rw [exec, pure_eq_ok] at h
    have step := LenderStep.of_accrue hw.accrue.lender_refl
    exact h ▸ step.toQuietStep.outside step.principal_eq (step.allowance_le _)
  | lender safety call =>
    have step := movement_lender hw (LenderVault.call_movement h)
    exact step.toQuietStep.outside step.principal_eq (step.allowance_le _)

theorem Reachable.sound {w : World} (h : Reachable w) : Sound w := by
  obtain ⟨start, ops, deployed, run⟩ := h
  exact run.invariant Sound (fun _ _ _ hs step => (exec_sound hs step).1) deployed.sound

end Turret.IsolatedPool
