import Turret.Variable.Rate

/-! Every call of the variable-rate pool is one flow of its lenders' books, or
the write-off that `recognizeLoss` states. A refresh of the rate comes after a
checkpoint, so it moves neither the books, nor the interest owed, nor the rate
integral. -/

namespace Turret.VariablePool

open Execution Rounding ERC4626

/-- Spendable cash, principal, interest brought up to the current time, and share supply. -/
def books (w : World) : LenderBooks where
  cash := w.usdg.balanceOf w.cfg.self - w.pool.protocolFees
  principal := w.pool.outstandingPrincipal
  interest := w.pool.interestReceivable + (pendingInterest w).1
  supply := w.pool.shares.totalSupply

def assets (w : World) : ℕ := (books w).value w.cfg.revenueFeeBps

/-- The interest owed in units of one `INTEREST_DENOMINATOR`-th, up to date. -/
def owed (w : World) : ℕ :=
  w.pool.interestReceivable * INTEREST_DENOMINATOR + w.pool.interestRemainder +
    w.pool.outstandingPrincipal * ((w.now - w.pool.lastAccrual) * w.pool.borrowAprBps)

structure Sound (w : World) : Prop where
  fees_le : w.pool.protocolFees ≤ w.usdg.balanceOf w.cfg.self
  last_le : w.pool.lastAccrual ≤ w.now
  remainder_lt : w.pool.interestRemainder < INTEREST_DENOMINATOR
  base_le : w.cfg.baseAprBps ≤ w.pool.borrowAprBps
  le_max : w.pool.borrowAprBps ≤ w.cfg.maxAprBps
  no_allowance : ∀ spender, w.usdg.allowance w.cfg.self spender = 0

theorem Deployed.sound {w : World} (h : Deployed w) : Sound w := by
  obtain ⟨limit, -, pool_eq⟩ := h.pool_eq
  constructor
  · simp [pool_eq]
  · simp [pool_eq]
  · simp [pool_eq, INTEREST_DENOMINATOR]
  · simp [pool_eq]
  · simpa [pool_eq] using w.cfg.base_le.trans w.cfg.kink_le
  · exact h.no_allowance

theorem denominator_pos : 0 < INTEREST_DENOMINATOR := by decide

theorem Config.fee_le_whole (c : Config) : c.revenueFeeBps ≤ 10000 := c.fee_le.trans (by decide)

/-! ### Checkpoints -/

@[simp] theorem accrue_cfg (w : World) : (accrue w).cfg = w.cfg := rfl
@[simp] theorem accrue_now (w : World) : (accrue w).now = w.now := rfl
@[simp] theorem accrue_usdg (w : World) : (accrue w).usdg = w.usdg := rfl
@[simp] theorem accrue_shares (w : World) : (accrue w).pool.shares = w.pool.shares := rfl
@[simp] theorem accrue_fees (w : World) :
    (accrue w).pool.protocolFees = w.pool.protocolFees := rfl
@[simp] theorem accrue_principal (w : World) :
    (accrue w).pool.outstandingPrincipal = w.pool.outstandingPrincipal := rfl
@[simp] theorem accrue_lastAccrual (w : World) : (accrue w).pool.lastAccrual = w.now := rfl
@[simp] theorem accrue_debtLimit (w : World) : (accrue w).pool.debtLimit = w.pool.debtLimit := rfl

/-- The pool is at a checkpoint: nothing is pending. -/
structure Checkpointed (w : World) : Prop where
  last_eq : w.pool.lastAccrual = w.now
  remainder_lt : w.pool.interestRemainder < INTEREST_DENOMINATOR

namespace Checkpointed

variable {w : World}

theorem pendingInterest (h : Checkpointed w) :
    pendingInterest w = (0, w.pool.interestRemainder) := by
  rw [VariablePool.pendingInterest, h.last_eq, Nat.sub_self, Nat.zero_mul]
  exact carry_zero h.remainder_lt (Nat.mul_zero _)

theorem owed (h : Checkpointed w) :
    owed w = w.pool.interestReceivable * INTEREST_DENOMINATOR + w.pool.interestRemainder := by
  simp [VariablePool.owed, h.last_eq]

theorem currentRateIntegral (h : Checkpointed w) :
    currentRateIntegral w = w.pool.storedRateIntegral := by
  simp [VariablePool.currentRateIntegral, h.last_eq]

theorem books (h : Checkpointed w) :
    books w = ⟨w.usdg.balanceOf w.cfg.self - w.pool.protocolFees, w.pool.outstandingPrincipal,
      w.pool.interestReceivable, w.pool.shares.totalSupply⟩ := by
  simp only [VariablePool.books, h.pendingInterest, Nat.add_zero]

end Checkpointed

theorem books_interest (w : World) : (books w).interest = owed w / INTEREST_DENOMINATOR := by
  simp only [books, pendingInterest, carry_fst denominator_pos, owed]
  rw [Nat.add_assoc, Nat.add_comm (_ * _) (_ + _), Nat.add_mul_div_right _ _ denominator_pos]
  simp only [Nat.add_comm]

theorem accrue_remainder_lt (w : World) :
    (accrue w).pool.interestRemainder < INTEREST_DENOMINATOR :=
  carry_snd_lt denominator_pos ..

theorem accrue_checkpointed (w : World) : Checkpointed (accrue w) := ⟨rfl, accrue_remainder_lt w⟩

@[simp] theorem owed_accrue (w : World) : owed (accrue w) = owed w := by
  have exact := carry_exact INTEREST_DENOMINATOR w.pool.outstandingPrincipal
    ((w.now - w.pool.lastAccrual) * w.pool.borrowAprBps) w.pool.interestRemainder
  simp only [owed, accrue, pendingInterest, Nat.sub_self, Nat.zero_mul, Nat.mul_zero, Nat.add_mul]
  omega

/-- After a checkpoint all that is owed stands in the two stored fields. -/
theorem owed_of_accrue (w : World) :
    (accrue w).pool.interestReceivable * INTEREST_DENOMINATOR + (accrue w).pool.interestRemainder =
      owed w := by
  rw [← owed_accrue w, (accrue_checkpointed w).owed]

@[simp] theorem currentRateIntegral_accrue (w : World) :
    currentRateIntegral (accrue w) = currentRateIntegral w :=
  (accrue_checkpointed w).currentRateIntegral

@[simp] theorem books_accrue (w : World) : books (accrue w) = books w := by
  rw [(accrue_checkpointed w).books]
  rfl

@[simp] theorem assets_accrue (w : World) : assets (accrue w) = assets w := by
  simp [assets]

theorem Sound.accrue {w : World} (h : Sound w) : Sound (accrue w) where
  fees_le := h.fees_le
  last_le := le_rfl
  remainder_lt := accrue_remainder_lt w
  base_le := h.base_le
  le_max := h.le_max
  no_allowance := h.no_allowance

@[simp] theorem availableCash_eq_ok {w : World} {n : ℕ} :
    availableCash w = .ok n ↔
      w.pool.protocolFees ≤ w.usdg.balanceOf w.cfg.self ∧ (books w).cash = n := by
  simp [availableCash, books]

@[simp] theorem totalAssets_eq_ok {w : World} {n : ℕ} :
    totalAssets w = .ok n ↔
      w.pool.protocolFees ≤ w.usdg.balanceOf w.cfg.self ∧ assets w = n := by
  simp only [totalAssets, bind_eq_ok, availableCash_eq_ok, pure_eq_ok]
  constructor
  · rintro ⟨c, ⟨solvent, rfl⟩, rfl⟩
    exact ⟨solvent, rfl⟩
  · rintro ⟨solvent, rfl⟩
    exact ⟨_, ⟨solvent, rfl⟩, rfl⟩

theorem Sound.totalAssets {w : World} (h : Sound w) : totalAssets w = .ok (assets w) :=
  totalAssets_eq_ok.mpr ⟨h.fees_le, rfl⟩

/-! ### Refreshing the rate -/

/-- The rate the curve gives at the pool's present utilization. -/
def currentRate (w : World) : ℕ :=
  rate w.cfg (utilization w.pool.outstandingPrincipal (books w).cash)

def refreshed (w : World) : World :=
  { w with pool := { w.pool with borrowAprBps := currentRate w } }

/-- `borrowAprBps == rateAtUtilization(utilizationBps())`. -/
def Synced (w : World) : Prop := w.pool.borrowAprBps = currentRate w

theorem refreshed_synced (w : World) : Synced (refreshed w) := rfl

@[simp] theorem refreshRate_eq_ok {w w' : World} :
    refreshRate w = .ok w' ↔
      w.pool.protocolFees ≤ w.usdg.balanceOf w.cfg.self ∧ refreshed w = w' := by
  have inRange (principal cash : ℕ) : ¬10000 < utilization principal cash :=
    Nat.not_lt.mpr (utilization_le principal cash)
  simp only [refreshRate, utilizationBps, bind_eq_ok, availableCash_eq_ok, pure_eq_ok,
    rateAtUtilization_eq]
  constructor
  · rintro ⟨_, ⟨_, ⟨solvent, rfl⟩, rfl⟩, _, found, rfl⟩
    rw [if_neg (inRange _ _)] at found
    obtain rfl := Except.ok.inj found
    exact ⟨solvent, rfl⟩
  · rintro ⟨solvent, rfl⟩
    exact ⟨_, ⟨_, ⟨solvent, rfl⟩, rfl⟩, _, if_neg (inRange _ _), rfl⟩

section Refreshed

variable {w : World}

theorem Checkpointed.refreshed (h : Checkpointed w) : Checkpointed (refreshed w) :=
  ⟨h.last_eq, h.remainder_lt⟩

theorem books_refreshed (h : Checkpointed w) : books (refreshed w) = books w := by
  rw [h.refreshed.books, h.books]
  rfl

theorem owed_refreshed (h : Checkpointed w) : owed (refreshed w) = owed w := by
  rw [h.refreshed.owed, h.owed]
  rfl

theorem currentRateIntegral_refreshed (h : Checkpointed w) :
    currentRateIntegral (refreshed w) = currentRateIntegral w := by
  rw [h.refreshed.currentRateIntegral, h.currentRateIntegral]
  rfl

theorem Sound.refreshed (h : Sound w) : Sound (refreshed w) where
  fees_le := h.fees_le
  last_le := h.last_le
  remainder_lt := h.remainder_lt
  base_le := base_le_rate ..
  le_max := rate_le_max (utilization_le ..)
  no_allowance := h.no_allowance

end Refreshed

/-! ### A checkpoint, a rewrite of the ledger, and a fresh rate

Every call that moves cash or principal has this form. -/

def booked (w : World) (usdg : TokenLedger Address) (shares : ShareLedger)
    (principal interest remainder fees loss : ℕ) : World :=
  refreshed
    { accrue w with
      usdg
      pool :=
        { (accrue w).pool with
          shares
          outstandingPrincipal := principal
          interestReceivable := interest
          interestRemainder := remainder
          protocolFees := fees
          cumulativeLoss := loss } }

section BookedWorld

variable {w : World} {usdg : TokenLedger Address} {shares : ShareLedger}
  {principal interest remainder fees loss : ℕ}

theorem booked_checkpointed (small : remainder < INTEREST_DENOMINATOR) :
    Checkpointed (booked w usdg shares principal interest remainder fees loss) :=
  ⟨rfl, small⟩

theorem books_booked (small : remainder < INTEREST_DENOMINATOR) :
    books (booked w usdg shares principal interest remainder fees loss) =
      ⟨usdg.balanceOf w.cfg.self - fees, principal, interest, shares.totalSupply⟩ :=
  (booked_checkpointed small).books

theorem owed_booked (small : remainder < INTEREST_DENOMINATOR) :
    owed (booked w usdg shares principal interest remainder fees loss) =
      interest * INTEREST_DENOMINATOR + remainder :=
  (booked_checkpointed small).owed

/-- Whatever a call books, time already elapsed is priced at the old rate. -/
theorem currentRateIntegral_booked (small : remainder < INTEREST_DENOMINATOR) :
    currentRateIntegral (booked w usdg shares principal interest remainder fees loss) =
      currentRateIntegral w :=
  (booked_checkpointed small).currentRateIntegral

theorem Sound.booked (h : Sound w) (covered : fees ≤ usdg.balanceOf w.cfg.self)
    (small : remainder < INTEREST_DENOMINATOR)
    (spent : ∀ a, usdg.allowance w.cfg.self a ≤ w.usdg.allowance w.cfg.self a) :
    Sound (booked w usdg shares principal interest remainder fees loss) :=
  Sound.refreshed ⟨covered, le_rfl, small, h.base_le, h.le_max,
    fun a => Nat.eq_zero_of_le_zero ((spent a).trans (h.no_allowance a).le)⟩

end BookedWorld

/-- What stays of the remainder once `principal` is left. -/
def keptRemainder (principal remainder : ℕ) : ℕ := if principal = 0 then 0 else remainder

theorem keptRemainder_le (principal remainder : ℕ) :
    keptRemainder principal remainder ≤ remainder := by
  unfold keptRemainder
  split_ifs
  · exact Nat.zero_le _
  · exact le_rfl

theorem resetRemainder_eq (p : Pool) : resetRemainder p =
    { p with interestRemainder := keptRemainder p.outstandingPrincipal p.interestRemainder } := by
  unfold resetRemainder keptRemainder
  split_ifs <;> rfl

theorem sendExact_ok {recipient : Address} {amount : ℕ} {w w' : World}
    (h : vault.sendExact recipient amount w = .ok w') :
    ∃ usdg, w' = { w with usdg } ∧
      usdg.balanceOf w.cfg.self + amount = w.usdg.balanceOf w.cfg.self ∧
      usdg.allowance = w.usdg.allowance :=
  LenderVault.sendExact_ok h

/-! ### Each call as a flow -/

structure FlowStep (w w' : World) : Prop where
  sound : Sound w'
  cfg_eq : w'.cfg = w.cfg
  flow : (books w).Flow w.cfg.revenueFeeBps virtualShares (books w')

/-- A flow that neither earns interest nor touches the fees booked. -/
structure QuietStep (w w' : World) : Prop extends FlowStep w w' where
  now_eq : w'.now = w.now
  owed_eq : owed w' = owed w
  integral_eq : currentRateIntegral w' = currentRateIntegral w
  fees_eq : w'.pool.protocolFees = w.pool.protocolFees

/-- A quiet flow that lends nothing and raises no allowance. -/
structure LenderStep (w w' : World) : Prop extends QuietStep w w' where
  principal_eq : w'.pool.outstandingPrincipal = w.pool.outstandingPrincipal
  allowance_le : ∀ a b, w'.usdg.allowance a b ≤ w.usdg.allowance a b

theorem QuietStep.interest_eq {w w' : World} (h : QuietStep w w') :
    (books w').interest = (books w).interest := by
  rw [books_interest, books_interest, h.owed_eq]

theorem Sound.booked_vault {w : World} (h : Sound w) :
    vault.Booked w w.cfg.revenueFeeBps w.pool.protocolFees (books w) where
  covered := h.fees_le
  cash_eq := rfl
  supply_eq := rfl
  value_eq _ valued := (totalAssets_eq_ok.mp valued).2
  spendable _ cash := (availableCash_eq_ok.mp cash).2

/-- A checkpoint that moves only cash and shares. -/
theorem moved_step {w : World} (h : Sound w) {usdg : TokenLedger Address} {shares : ShareLedger}
    (covered : w.pool.protocolFees ≤ usdg.balanceOf w.cfg.self)
    (spent : ∀ a b, usdg.allowance a b ≤ w.usdg.allowance a b)
    (flow : (books w).Flow w.cfg.revenueFeeBps virtualShares
      { books w with
        cash := usdg.balanceOf w.cfg.self - w.pool.protocolFees
        supply := shares.totalSupply }) :
    LenderStep w (refreshed (vault.move usdg shares (accrue w))) := by
  have small := accrue_remainder_lt w
  change LenderStep w (booked w usdg shares w.pool.outstandingPrincipal
    (accrue w).pool.interestReceivable (accrue w).pool.interestRemainder w.pool.protocolFees
    w.pool.cumulativeLoss)
  refine ⟨⟨⟨h.booked covered small (spent _), rfl, ?_⟩, rfl, ?_, currentRateIntegral_booked small,
    rfl⟩, rfl, spent⟩
  · rw [books_booked small]
    exact flow
  · rw [owed_booked small, owed_of_accrue]

/-- Shares alone changed hands or were approved. -/
theorem reshared_step {w : World} (h : Sound w) {shares : ShareLedger}
    (supply : shares.totalSupply = w.pool.shares.totalSupply) :
    LenderStep w (vault.move w.usdg shares w) := by
  have sound : Sound (vault.move w.usdg shares w) :=
    ⟨h.fees_le, h.last_le, h.remainder_lt, h.base_le, h.le_max, h.no_allowance⟩
  have same : books (vault.move w.usdg shares w) = books w := by
    simp only [books, vault, supply]
    rfl
  exact ⟨⟨⟨sound, rfl, by rw [same]; exact .rest⟩, rfl, rfl, rfl, rfl⟩, rfl, fun _ _ => le_rfl⟩

theorem accrueInterest_ok {w w' : World} (h : accrueInterest w = .ok w') :
    w' = refreshed (accrue w) :=
  (refreshRate_eq_ok.mp h).2.symm

theorem accrueInterest_accepts {w : World} (h : Sound w) :
    accrueInterest w = .ok (refreshed (accrue w)) :=
  refreshRate_eq_ok.mpr ⟨h.fees_le, rfl⟩

theorem synchronized_step {w : World} (h : Sound w) : LenderStep w (refreshed (accrue w)) :=
  moved_step h h.fees_le (fun _ _ => le_rfl) .rest

/-- A movement of the vault is a flow at the price of the checkpointed books. -/
theorem movement_lender {w w' : World} (hw : Sound w) (h : LenderVault.Movement vault w w') :
    LenderStep w w' := by
  rcases h.flow hw.accrue.booked_vault with
    ⟨usdg, shares, solvent, spent, flow, done⟩ | ⟨shares, supply, done⟩
  · obtain ⟨-, rfl⟩ := refreshRate_eq_ok.mp done
    rw [books_accrue] at flow
    exact moved_step hw solvent spent flow
  · exact done ▸ reshared_step hw supply

theorem draw_ok {safety : Option Bool} {sender recipient : Address} {amount : ℕ} {w w' : World}
    (h : draw safety sender recipient amount w = .ok w') :
    ∃ usdg, w' = booked w usdg w.pool.shares (w.pool.outstandingPrincipal + amount)
        (accrue w).pool.interestReceivable (accrue w).pool.interestRemainder w.pool.protocolFees
        w.pool.cumulativeLoss ∧
      sender = w.cfg.creditEngine ∧ w.pool.retired = false ∧
      capitalOperationsAllowed safety (accrue w) = true ∧ 0 < amount ∧
      amount ≤ (books w).cash ∧ w.pool.outstandingPrincipal + amount ≤ w.pool.debtLimit ∧
      usdg.balanceOf w.cfg.self + amount = w.usdg.balanceOf w.cfg.self ∧
      usdg.allowance = w.usdg.allowance := by
  simp only [draw, onlyEngine, bind_eq_ok, revertIf_eq_ok, exists_const, availableCash_eq_ok,
    ne_eq, not_not, not_or, not_lt, not_le, Bool.not_eq_true, Bool.not_eq_false] at h
  obtain ⟨rfl, open_, allowed, positive, _, ⟨-, rfl⟩, funded, ⟨-, room⟩, v, sent, done⟩ := h
  obtain ⟨usdg, rfl, exact, spent⟩ := sendExact_ok sent
  obtain ⟨-, rfl⟩ := refreshRate_eq_ok.mp done
  rw [books_accrue] at funded
  simp only [accrue_principal, accrue_debtLimit] at room
  exact ⟨usdg, rfl, rfl, open_, allowed, Nat.pos_of_ne_zero positive, funded, by omega, exact,
    spent⟩

theorem draw_books {safety : Option Bool} {sender recipient : Address} {amount : ℕ}
    {w w' : World} (hw : Sound w) (h : draw safety sender recipient amount w = .ok w') :
    Sound w' ∧ w'.cfg = w.cfg ∧ books w' = (books w).lend amount ∧ amount ≤ (books w).cash := by
  obtain ⟨usdg, rfl, -, -, -, -, funded, -, sent, spent⟩ := draw_ok h
  have covered := hw.fees_le
  have room := funded
  change amount ≤ w.usdg.balanceOf w.cfg.self - w.pool.protocolFees at room
  have small := accrue_remainder_lt w
  refine ⟨hw.booked (by omega) small (fun a => by rw [spent]), rfl, ?_, funded⟩
  have cash : usdg.balanceOf w.cfg.self - w.pool.protocolFees =
      w.usdg.balanceOf w.cfg.self - w.pool.protocolFees - amount := by omega
  rw [books_booked small, cash]
  rfl

theorem repay_ok {sender : Address} {principal received : ℕ} {w w' : World}
    (h : repay sender principal received w = .ok w') :
    ∃ usdg, w' = booked w usdg w.pool.shares (w.pool.outstandingPrincipal - principal)
        ((accrue w).pool.interestReceivable - received)
        (keptRemainder (w.pool.outstandingPrincipal - principal)
          (accrue w).pool.interestRemainder)
        (w.pool.protocolFees + (feeOn w (accrue w).pool.interestReceivable -
          feeOn w ((accrue w).pool.interestReceivable - received))) w.pool.cumulativeLoss ∧
      sender = w.cfg.creditEngine ∧ principal ≤ w.pool.outstandingPrincipal ∧
      received ≤ (accrue w).pool.interestReceivable ∧ 0 < principal + received ∧
      w.usdg.transferFrom w.cfg.self sender w.cfg.self (principal + received) = some usdg ∧
      usdg.balanceOf w.cfg.self = w.usdg.balanceOf w.cfg.self + (principal + received) := by
  simp only [repay, onlyEngine, bind_eq_ok, revertIf_eq_ok, exists_const, orRevert_eq_ok,
    refreshRate_eq_ok, ne_eq, not_not, not_or, not_lt, resetRemainder_eq] at h
  obtain ⟨rfl, ⟨owes, accrued, positive⟩, usdg, pulled, exact, -, rfl⟩ := h
  exact ⟨usdg, rfl, rfl, owes, accrued, Nat.pos_of_ne_zero positive, pulled, exact⟩

/-- The fee on a repayment is part of the yield received. -/
theorem repay_fee_le {w : World} {received : ℕ}
    (h : received ≤ (accrue w).pool.interestReceivable) :
    feeOn w (accrue w).pool.interestReceivable -
      feeOn w ((accrue w).pool.interestReceivable - received) ≤ received :=
  LenderBooks.fee_sub_le w.cfg.fee_le_whole h

theorem repay_books {sender : Address} {principal received : ℕ} {w w' : World} (hw : Sound w)
    (h : repay sender principal received w = .ok w') :
    Sound w' ∧ w'.cfg = w.cfg ∧
      books w' = (books w).collect w.cfg.revenueFeeBps principal received ∧
      principal ≤ (books w).principal ∧ received ≤ (books w).interest := by
  obtain ⟨usdg, rfl, -, owes, accrued, -, pulled, exact⟩ := repay_ok h
  have covered := hw.fees_le
  have fee_le := repay_fee_le accrued
  have small := (keptRemainder_le (w.pool.outstandingPrincipal - principal) _).trans_lt
    (accrue_remainder_lt w)
  refine ⟨hw.booked (by omega) small (TokenLedger.transferFrom_allowance_le pulled _), rfl, ?_,
    owes, accrued⟩
  have cash : ∀ fee, fee ≤ received → usdg.balanceOf w.cfg.self - (w.pool.protocolFees + fee) =
      w.usdg.balanceOf w.cfg.self - w.pool.protocolFees + (principal + received) - fee := by
    intro fee _
    omega
  rw [books_booked small, cash _ fee_le]
  rfl

/-- The one call that is not a flow: it writes off exactly what it states. -/
theorem recognizeLoss_ok {sender : Address} {principal interest : ℕ} {w w' : World}
    (h : recognizeLoss sender principal interest w = .ok w') :
    w' = booked w w.usdg w.pool.shares (w.pool.outstandingPrincipal - principal)
        ((accrue w).pool.interestReceivable - interest)
        (keptRemainder (w.pool.outstandingPrincipal - principal)
          (accrue w).pool.interestRemainder) w.pool.protocolFees
        (w.pool.cumulativeLoss + (principal + interest)) ∧
      sender = w.cfg.creditEngine ∧ 0 < principal + interest ∧
      principal ≤ w.pool.outstandingPrincipal ∧
      interest ≤ (accrue w).pool.interestReceivable := by
  simp only [recognizeLoss, onlyEngine, bind_eq_ok, revertIf_eq_ok, exists_const,
    refreshRate_eq_ok, ne_eq, not_not, not_or, not_lt, resetRemainder_eq] at h
  obtain ⟨rfl, ⟨positive, owes, accrued⟩, -, rfl⟩ := h
  exact ⟨rfl, rfl, Nat.pos_of_ne_zero positive, owes, accrued⟩

theorem recognizeLoss_books {sender : Address} {principal interest : ℕ} {w w' : World}
    (hw : Sound w) (h : recognizeLoss sender principal interest w = .ok w') :
    Sound w' ∧ w'.cfg = w.cfg ∧ books w' = (books w).writeOff principal interest ∧
      principal ≤ (books w).principal ∧ interest ≤ (books w).interest := by
  obtain ⟨rfl, -, -, owes, accrued⟩ := recognizeLoss_ok h
  have small := (keptRemainder_le (w.pool.outstandingPrincipal - principal) _).trans_lt
    (accrue_remainder_lt w)
  refine ⟨hw.booked hw.fees_le small (fun _ => le_rfl), rfl, ?_, owes, accrued⟩
  rw [books_booked small]
  rfl

theorem claimRevenue_ok {w w' : World} (h : claimRevenue w = .ok w') :
    ∃ usdg, w' = { w with usdg, pool := { w.pool with protocolFees := 0 } } ∧
      usdg.balanceOf w.cfg.self + w.pool.protocolFees = w.usdg.balanceOf w.cfg.self ∧
      usdg.allowance = w.usdg.allowance := by
  simp only [claimRevenue, bind_eq_ok, revertIf_eq_ok, exists_const] at h
  exact sendExact_ok h.2

theorem claimRevenue_flow {w w' : World} (hw : Sound w) (h : claimRevenue w = .ok w') :
    FlowStep w w' ∧ books w' = books w := by
  obtain ⟨usdg, rfl, exact, spent⟩ := claimRevenue_ok h
  have same : books { w with usdg, pool := { w.pool with protocolFees := 0 } } = books w := by
    simp only [books, pendingInterest]
    congr 1
    omega
  have open_ : ∀ a, usdg.allowance w.cfg.self a = 0 := fun a => by rw [spent, hw.no_allowance]
  exact ⟨⟨⟨Nat.zero_le _, hw.last_le, hw.remainder_lt, hw.base_le, hw.le_max, open_⟩, rfl,
    by rw [same]; exact .rest⟩, same⟩

/-- Interest never falls while time passes. -/
theorem elapse_books {w : World} (hw : Sound w) (seconds : ℕ) :
    ∃ n, books { w with now := w.now + seconds } =
      { books w with interest := (books w).interest + n } := by
  have last := hw.last_le
  have grows : (pendingInterest w).1 ≤
      (pendingInterest { w with now := w.now + seconds }).1 := by
    simp only [pendingInterest, carry_fst denominator_pos]
    refine Nat.div_le_div_right (Nat.add_le_add_right (Nat.mul_le_mul_left _ ?_) _)
    exact Nat.mul_le_mul_right _ (by omega)
  refine ⟨(pendingInterest { w with now := w.now + seconds }).1 - (pendingInterest w).1, ?_⟩
  simp only [books]
  rw [Nat.add_assoc, Nat.add_sub_cancel' grows]

theorem elapse_flow {w : World} (hw : Sound w) (seconds : ℕ) :
    FlowStep w { w with now := w.now + seconds } := by
  have last := hw.last_le
  obtain ⟨n, grown⟩ := elapse_books hw seconds
  refine ⟨⟨hw.fees_le, last.trans (Nat.le_add_right ..), hw.remainder_lt, hw.base_le, hw.le_max,
    hw.no_allowance⟩, rfl, ?_⟩
  rw [grown]
  exact .earn n

/-- USDG moved by others can only add to what the pool holds. -/
theorem gift_quiet {w : World} (hw : Sound w) {usdg : TokenLedger Address}
    (kept : w.usdg.balanceOf w.cfg.self ≤ usdg.balanceOf w.cfg.self)
    (spent : ∀ a, usdg.allowance w.cfg.self a ≤ w.usdg.allowance w.cfg.self a) :
    QuietStep w { w with usdg } := by
  have covered := hw.fees_le
  have sound : Sound { w with usdg } :=
    ⟨covered.trans kept, hw.last_le, hw.remainder_lt, hw.base_le, hw.le_max,
      fun a => Nat.eq_zero_of_le_zero ((spent a).trans (hw.no_allowance a).le)⟩
  refine ⟨⟨sound, rfl, ?_⟩, rfl, rfl, rfl, rfl⟩
  have given : (books w).Flow w.cfg.revenueFeeBps virtualShares _ :=
    .gift (usdg.balanceOf w.cfg.self - w.usdg.balanceOf w.cfg.self)
  have cash : usdg.balanceOf w.cfg.self - w.pool.protocolFees = (books w).cash +
      (usdg.balanceOf w.cfg.self - w.usdg.balanceOf w.cfg.self) := by
    simp only [books]
    omega
  rw [show books { w with usdg } = { books w with
    cash := usdg.balanceOf w.cfg.self - w.pool.protocolFees } from rfl, cash]
  exact given

/-! ### The engine's switches: the debt limit, retirement, the settlement freeze -/

def Op.isSwitch : Op → Bool
  | .scheduleDebtLimit .. | .executeDebtLimit .. | .lowerDebtLimit .. | .cancelDebtLimit ..
  | .retire .. | .beginLiquidationSettlement .. | .endLiquidationSettlement .. => true
  | _ => false

/-- Only switches changed. -/
def switched (w : World) (limit pending validAfter : ℕ) (retired active : Bool) : World :=
  { w with
    pool :=
      { w.pool with
        debtLimit := limit
        pendingDebtLimit := pending
        debtLimitValidAfter := validAfter
        retired
        liquidationSettlementActive := active } }

theorem exec_switch {w w' : World} {op : Op} (hop : op.isSwitch = true) (h : exec op w = .ok w') :
    op.sender = some w.cfg.creditEngine ∧
      ∃ limit pending validAfter retired active,
        w' = switched w limit pending validAfter retired active := by
  cases op with
  | scheduleDebtLimit sender limit =>
    simp only [exec, scheduleDebtLimit, onlyEngine, bind_eq_ok, revertIf_eq_ok, exists_const,
      pure_eq_ok, ne_eq, not_not] at h
    obtain ⟨rfl, -, -, rfl⟩ := h
    exact ⟨rfl, _, _, _, _, _, rfl⟩
  | executeDebtLimit sender =>
    simp only [exec, executeDebtLimit, onlyEngine, bind_eq_ok, revertIf_eq_ok, exists_const,
      pure_eq_ok, ne_eq, not_not] at h
    obtain ⟨rfl, -, -, rfl⟩ := h
    exact ⟨rfl, _, _, _, _, _, rfl⟩
  | lowerDebtLimit sender limit =>
    simp only [exec, lowerDebtLimit, onlyEngine, bind_eq_ok, revertIf_eq_ok, exists_const,
      pure_eq_ok, ne_eq, not_not] at h
    obtain ⟨rfl, -, rfl⟩ := h
    exact ⟨rfl, _, _, _, _, _, rfl⟩
  | cancelDebtLimit sender | retire sender =>
    simp only [exec, cancelDebtLimit, retire, onlyEngine, bind_eq_ok, revertIf_eq_ok,
      exists_const, pure_eq_ok, ne_eq, not_not] at h
    obtain ⟨rfl, rfl⟩ := h
    exact ⟨rfl, _, _, _, _, _, rfl⟩
  | beginLiquidationSettlement sender | endLiquidationSettlement sender =>
    simp only [exec, beginLiquidationSettlement, endLiquidationSettlement, onlyEngine, bind_eq_ok,
      revertIf_eq_ok, exists_const, pure_eq_ok, ne_eq, not_not] at h
    obtain ⟨rfl, -, rfl⟩ := h
    exact ⟨rfl, _, _, _, _, _, rfl⟩
  | _ => cases hop

theorem switched_lender {w : World} (hw : Sound w) (limit pending validAfter : ℕ)
    (retired active : Bool) :
    LenderStep w (switched w limit pending validAfter retired active) :=
  ⟨⟨⟨⟨hw.fees_le, hw.last_le, hw.remainder_lt, hw.base_le, hw.le_max, hw.no_allowance⟩, rfl,
    .rest⟩, rfl, rfl, rfl, rfl⟩, rfl, fun _ _ => le_rfl⟩

theorem exec_switch_lender {w w' : World} (hw : Sound w) {op : Op} (hop : op.isSwitch = true)
    (h : exec op w = .ok w') : LenderStep w w' := by
  obtain ⟨-, limit, pending, validAfter, retired, active, rfl⟩ := exec_switch hop h
  exact switched_lender hw limit pending validAfter retired active

/-! ### Any call -/

def Op.isLoss : Op → Bool
  | .recognizeLoss .. => true
  | _ => false

/-- A call of the token by anyone but the pool: the pool's balance does not fall, and no
holder's allowances rise but the sender's own. -/
theorem exec_usdg {w w' : World} (hw : Sound w) {call : TokenCall Address}
    (h : exec (.usdg call) w = .ok w') :
    ∃ usdg, w' = { w with usdg } ∧ w.usdg.balanceOf w.cfg.self ≤ usdg.balanceOf w.cfg.self ∧
      (∀ a, usdg.allowance w.cfg.self a ≤ w.usdg.allowance w.cfg.self a) ∧
      ∀ x, call.sender ≠ some x → ∀ a, usdg.allowance x a ≤ w.usdg.allowance x a := by
  simp only [exec, bind_eq_ok, revertIf_eq_ok, exists_const, orRevert_eq_ok, pure_eq_ok] at h
  obtain ⟨away, usdg, moved, rfl⟩ := h
  exact ⟨usdg, rfl, (TokenCall.exec_closed moved away hw.no_allowance).1,
    TokenCall.exec_allowance_le moved away, fun x hx => TokenCall.exec_allowance_le moved hx⟩

def Op.isQuiet : Op → Bool
  | .claimRevenue | .repay .. | .recognizeLoss .. | .elapse .. => false
  | _ => true

theorem exec_quiet {w w' : World} (hw : Sound w) {op : Op} (hop : op.isQuiet = true)
    (h : exec op w = .ok w') : QuietStep w w' := by
  cases op with
  | claimRevenue | repay | recognizeLoss | elapse => cases hop
  | lender safety call => exact (movement_lender hw (LenderVault.call_movement h)).toQuietStep
  | accrueInterest => exact accrueInterest_ok h ▸ (synchronized_step hw).toQuietStep
  | draw safety sender recipient amount =>
    obtain ⟨sound, cfg_eq, result, funded⟩ := draw_books hw h
    have step : FlowStep w w' := ⟨sound, cfg_eq, result ▸ .lend amount funded⟩
    have small := accrue_remainder_lt w
    obtain ⟨_, rfl, -⟩ := draw_ok h
    exact ⟨step, rfl, (owed_booked small).trans (owed_of_accrue w),
      currentRateIntegral_booked small, rfl⟩
  | usdg call =>
    obtain ⟨usdg, rfl, kept, spent, -⟩ := exec_usdg hw h
    exact gift_quiet hw kept spent
  | _ => exact (exec_switch_lender hw rfl h).toQuietStep

/-- Every call but `recognizeLoss` is a flow of the lenders' books. -/
theorem exec_flow {w w' : World} (hw : Sound w) {op : Op} (hop : op.isLoss = false)
    (h : exec op w = .ok w') : FlowStep w w' := by
  cases op with
  | recognizeLoss => cases hop
  | claimRevenue => exact (claimRevenue_flow hw h).1
  | repay sender principal received =>
    obtain ⟨sound, cfg_eq, result, owed, accrued⟩ := repay_books hw h
    exact ⟨sound, cfg_eq, result ▸ .collect principal received owed accrued⟩
  | elapse seconds =>
    rw [exec, pure_eq_ok] at h
    exact h ▸ elapse_flow hw seconds
  | _ => exact (exec_quiet hw rfl h).toFlowStep

theorem exec_sound {w w' : World} (hw : Sound w) {op : Op} (h : exec op w = .ok w') :
    Sound w' ∧ w'.cfg = w.cfg := by
  by_cases hop : op.isLoss = false
  · have step := exec_flow hw hop h
    exact ⟨step.sound, step.cfg_eq⟩
  · cases op with
    | recognizeLoss sender principal interest =>
      have loss := recognizeLoss_books hw h
      exact ⟨loss.1, loss.2.1⟩
    | _ => exact absurd rfl hop

theorem Reachable.sound {w : World} (h : Reachable w) : Sound w := by
  obtain ⟨start, ops, deployed, run⟩ := h
  exact run.invariant Sound (fun _ _ _ hs step => (exec_sound hs step).1) deployed.sound

/-! ### Calls of others than the engine -/

/-- What the rest of the world can do between two calls of the engine: principal stays, and the
interest owed grows with the rate integral alone. -/
structure OutsideStep (w w' : World) : Prop where
  sound : Sound w'
  cfg_eq : w'.cfg = w.cfg
  now_le : w.now ≤ w'.now
  principal_eq : w'.pool.outstandingPrincipal = w.pool.outstandingPrincipal
  integral_le : currentRateIntegral w ≤ currentRateIntegral w'
  owed_eq : owed w' = owed w +
    w.pool.outstandingPrincipal * (currentRateIntegral w' - currentRateIntegral w)
  allowance_le : ∀ a, w'.usdg.allowance w.cfg.creditEngine a ≤
    w.usdg.allowance w.cfg.creditEngine a

theorem QuietStep.outside {w w' : World} (h : QuietStep w w')
    (principal : w'.pool.outstandingPrincipal = w.pool.outstandingPrincipal)
    (allowance : ∀ a, w'.usdg.allowance w.cfg.creditEngine a ≤
      w.usdg.allowance w.cfg.creditEngine a) : OutsideStep w w' :=
  ⟨h.sound, h.cfg_eq, h.now_eq.ge, principal, h.integral_eq.ge,
    by simp [h.owed_eq, h.integral_eq], allowance⟩

theorem currentRateIntegral_elapse {w : World} (hw : Sound w) (seconds : ℕ) :
    currentRateIntegral { w with now := w.now + seconds } =
      currentRateIntegral w + seconds * w.pool.borrowAprBps := by
  have last := hw.last_le
  simp only [currentRateIntegral]
  rw [show w.now + seconds - w.pool.lastAccrual = (w.now - w.pool.lastAccrual) + seconds by omega,
    Nat.add_mul, Nat.add_assoc]

theorem owed_elapse {w : World} (hw : Sound w) (seconds : ℕ) :
    owed { w with now := w.now + seconds } =
      owed w + w.pool.outstandingPrincipal * (seconds * w.pool.borrowAprBps) := by
  have last := hw.last_le
  simp only [owed]
  rw [show w.now + seconds - w.pool.lastAccrual = (w.now - w.pool.lastAccrual) + seconds by omega,
    Nat.add_mul, Nat.mul_add]
  simp only [Nat.add_assoc]

theorem exec_outside {w w' : World} (hw : Sound w) {op : Op}
    (hop : op.sender ≠ some w.cfg.creditEngine) (h : exec op w = .ok w') : OutsideStep w w' := by
  cases op with
  | draw safety sender recipient amount =>
    obtain ⟨_, -, byEngine, -⟩ := draw_ok h
    exact absurd (congrArg some byEngine) hop
  | repay sender principal received =>
    obtain ⟨_, -, byEngine, -⟩ := repay_ok h
    exact absurd (congrArg some byEngine) hop
  | recognizeLoss sender principal interest =>
    exact absurd (congrArg some (recognizeLoss_ok h).2.1) hop
  | claimRevenue =>
    have flow := (claimRevenue_flow hw h).1
    obtain ⟨usdg, rfl, -, spent⟩ := claimRevenue_ok h
    exact ⟨flow.sound, rfl, le_rfl, rfl, le_rfl, by simp [owed, currentRateIntegral],
      fun a => by rw [← spent]⟩
  | elapse seconds =>
    rw [exec, pure_eq_ok] at h
    subst h
    have integral := currentRateIntegral_elapse hw seconds
    refine ⟨(elapse_flow hw seconds).sound, rfl, Nat.le_add_right .., rfl, ?_, ?_,
      fun _ => le_rfl⟩
    · rw [integral]
      exact Nat.le_add_right ..
    · rw [owed_elapse hw, integral, Nat.add_sub_cancel_left]
  | usdg call =>
    obtain ⟨usdg, rfl, kept, spent, others⟩ := exec_usdg hw h
    exact (gift_quiet hw kept spent).outside rfl (others _ hop)
  | accrueInterest =>
    have step := synchronized_step hw
    exact accrueInterest_ok h ▸ step.toQuietStep.outside step.principal_eq (step.allowance_le _)
  | lender safety call =>
    have step := movement_lender hw (LenderVault.call_movement h)
    exact step.toQuietStep.outside step.principal_eq (step.allowance_le _)
  | _ => exact absurd (exec_switch rfl h).1 hop

end Turret.VariablePool
