import Turret.CreditVault.Calls

/-! Which unsafe positions can be resolved. A liquidation is paid up to the
discounted value of the collateral, in whole units of USDG, and a write-off
needs a position without collateral: collateral worth less than one unit is too
little for the one and too much for the other. -/

namespace Turret.CreditVault

open Execution Function Rounding Uint256 Finset

variable {w w' : World} {c b : Address} {m : Market} {p : Position}

/-- At the price, the position is unsafe. -/
structure UnsafeAt (c b : Address) (m : Market) (price : ℕ) (w : World) : Prop where
  listed : market c w = .ok m
  priced : validatedPrice false c m w = .ok price
  notSafe : isSafe w.cfg.usdgTo18Scale (w.position c b).collateral (w.position c b).debt price
    m.liquidationLtvBps = .ok false

/-- The liquidator can pay the whole debt. -/
structure Funded (liquidator c b : Address) (w : World) : Prop where
  balance : (w.position c b).debt ≤ (w.tokens w.cfg.usdg).balanceOf liquidator
  allowance : (w.position c b).debt ≤ (w.tokens w.cfg.usdg).allowance liquidator w.cfg.self

/-- `type(uint256).max`. -/
def UNLIMITED : ℕ := MODULUS - 1

/-- The liquidation without a limit succeeds and lowers the debt, or the owner writes it off. -/
def Resolves (liquidator recipient c b : Address) (w : World) : Prop :=
  (∃ w', liquidate liquidator c b UNLIMITED recipient w = .ok w' ∧
    (w'.position c b).debt < (w.position c b).debt) ∨
  ∃ w', writeOffBadDebt w.vault.owner c b w = .ok w' ∧ (w'.position c b).debt = 0

/-- No collateral is left, or enough for one unit of USDG and the bonus on it. -/
def NoDust (m : Market) (p : Position) (price : ℕ) : Prop :=
  p.collateral = 0 ∨
    10 ^ 12 * (BPS + m.liquidationBonusBps) ≤ p.collateral * price / USD_PRECISION * BPS

/-! ### The terms of a liquidation -/

theorem checkedMulDiv_of_lt {x y z : ℕ} {e : Error} (positive : 0 < z)
    (fits : mulDiv x y z < MODULUS) : checkedMulDiv x y z e = .ok (mulDiv x y z) :=
  (checkedMulDiv_eq_ok ..).mpr ⟨⟨positive.ne', fits⟩, rfl⟩

theorem validatedPrice_pos {borrowing : Bool} {price : ℕ}
    (h : validatedPrice borrowing c m w = .ok price) : 0 < price := by
  simp only [validatedPrice, bind_eq_ok, revertIf_eq_ok, pure_eq_ok] at h
  obtain ⟨⟨⟩, -, _, -, ⟨⟩, ne, rfl⟩ := h
  exact Nat.pos_of_ne_zero ne

theorem notSafe_parts {scale collateral debt price ltv : ℕ}
    (h : isSafe scale collateral debt price ltv = .ok false) :
    debt ≠ 0 ∧ mulDiv collateral price USD_PRECISION < MODULUS := by
  unfold isSafe at h
  split_ifs at h with zero
  · cases h
  · simp only [bind_eq_ok, checkedMulDiv_eq_ok] at h
    obtain ⟨_, ⟨⟨-, fits⟩, -⟩, -⟩ := h
    exact ⟨zero, fits⟩

/-- What the collateral covers, in units of USDG. -/
def covered (scale : ℕ) (m : Market) (p : Position) (price : ℕ) : ℕ :=
  mulDiv (mulDiv p.collateral price USD_PRECISION) BPS (BPS + m.liquidationBonusBps) / scale

theorem bonus_pos (m : Market) : 0 < BPS + m.liquidationBonusBps := by
  unfold BPS
  omega

theorem covered_pos_iff {scale price : ℕ} (positive : 0 < scale) :
    0 < covered scale m p price ↔ scale * (BPS + m.liquidationBonusBps) ≤
      p.collateral * price / USD_PRECISION * BPS := by
  unfold covered
  rw [Nat.div_pos_iff, and_iff_right positive, le_mulDiv_iff (bonus_pos m)]
  rfl

theorem liquidationTerms_ok {scale price : ℕ} (price_pos : 0 < price)
    (value_lt : mulDiv p.collateral price USD_PRECISION < MODULUS)
    (fits : p.collateral < MODULUS) (owes : p.debt ≠ 0) (some_ : 0 < covered scale m p price) :
    ∃ terms, liquidationTerms scale m p price UNLIMITED = .ok terms := by
  obtain ⟨value, value_eq⟩ : ∃ value, mulDiv p.collateral price USD_PRECISION = value := ⟨_, rfl⟩
  obtain ⟨paid, paid_eq⟩ : ∃ paid, mulDiv value BPS (BPS + m.liquidationBonusBps) = paid := ⟨_, rfl⟩
  rw [covered, value_eq, paid_eq] at some_
  rw [value_eq] at value_lt
  obtain ⟨repaid, repaid_eq⟩ : ∃ repaid, min (min UNLIMITED p.debt) (paid / scale) = repaid :=
    ⟨_, rfl⟩
  have unlimited : 0 < UNLIMITED := by
    simp only [UNLIMITED, MODULUS]
    omega
  have repaid_pos : repaid ≠ 0 := by omega
  have value_le : value * USD_PRECISION ≤ p.collateral * price := by
    rw [← value_eq]
    exact mulDiv_mul_le ..
  have paid_le : paid * (BPS + m.liquidationBonusBps) ≤ value * BPS := by
    rw [← paid_eq]
    exact mulDiv_mul_le ..
  have paid_le_value : paid ≤ value := by
    rw [← paid_eq]
    exact mulDiv_le_self (Nat.le_add_right ..) value
  have repaid_le : repaid * scale ≤ paid :=
    (Nat.mul_le_mul_right scale (repaid_eq ▸ min_le_right ..)).trans (Nat.div_mul_le_self ..)
  -- the bonus on the payment stays within the value of the collateral
  have seize_le : mulDiv (repaid * scale) (BPS + m.liquidationBonusBps) BPS ≤ value := by
    refine Nat.div_le_of_le_mul ?_
    rw [Nat.mul_comm BPS]
    exact (Nat.mul_le_mul_right _ repaid_le).trans paid_le
  have seized_le : mulDiv (mulDiv (repaid * scale) (BPS + m.liquidationBonusBps) BPS)
      USD_PRECISION price ≤ p.collateral := by
    refine Nat.div_le_of_le_mul ?_
    rw [Nat.mul_comm price]
    exact (Nat.mul_le_mul_right _ seize_le).trans value_le
  have mul_ok : checkedMul repaid scale Error.panic = .ok (repaid * scale) :=
    (checkedMul_eq_ok ..).mpr ⟨by omega, rfl⟩
  simp only [liquidationTerms]
  rw [checkedMulDiv_of_lt (by decide) (value_eq ▸ value_lt), value_eq, ok_bind,
    checkedMulDiv_of_lt (bonus_pos m) (by rw [paid_eq]; omega), paid_eq, ok_bind, repaid_eq,
    revertIf, if_neg repaid_pos, ok_bind, mul_ok, ok_bind,
    checkedMulDiv_of_lt (by decide) (by omega), ok_bind]
  split_ifs with all
  · exact ⟨_, rfl⟩
  · rw [checkedMulDiv_of_lt price_pos (by omega), ok_bind]
    exact ⟨_, rfl⟩

/-! ### Both ways out -/

theorem debt_le_market (sound : Sound w) (c b : Address) :
    (w.position c b).debt ≤ w.vault.marketDebt c := by
  rw [sound.booked.market c]
  exact le_sum (fun b => (w.position c b).debt) b

theorem debt_le_total (sound : Sound w) (c b : Address) :
    (w.position c b).debt ≤ w.vault.totalDebt := by
  rw [sound.booked.total]
  exact (le_sum (fun b => (w.position c b).debt) b).trans
    (le_sum (fun c => ∑ b, (w.position c b).debt) c)

theorem collateral_le_held (sound : Sound w) (c b : Address) (apart : c ≠ w.cfg.usdg) :
    (w.position c b).collateral ≤ held c w :=
  (le_sum (fun b => (w.position c b).collateral) b).trans (sound.custody c apart)

theorem removeDebt_ok {n : ℕ} (sound : Sound w) (le : n ≤ (w.position c b).debt) (p : Position) :
    ∃ u, removeDebt c n (w.setPosition c b p) = .ok u := by
  have market := le.trans (debt_le_market sound c b)
  have total := le.trans (debt_le_total sound c b)
  simp only [removeDebt, World.setPosition, bind_eq_ok, checkedSub_eq_ok, pure_eq_ok]
  exact ⟨_, _, ⟨market, rfl⟩, _, ⟨total, rfl⟩, rfl⟩

theorem writeOff_resolves (sound : Sound w) (owes : (w.position c b).debt ≠ 0)
    (none : (w.position c b).collateral = 0) :
    ∃ w', writeOffBadDebt w.vault.owner c b w = .ok w' ∧ (w'.position c b).debt = 0 := by
  obtain ⟨u, removed⟩ := removeDebt_ok (p := { w.position c b with debt := 0 }) sound
    (le_refl (w.position c b).debt)
  have done : writeOffBadDebt w.vault.owner c b w = .ok u := by
    simp only [writeOffBadDebt, onlyOwner, bind_eq_ok, revertIf_eq_ok]
    exact ⟨⟨⟩, by simp, ⟨⟩, by simp [none, owes], removed⟩
  refine ⟨u, done, ?_⟩
  rw [(writeOffBadDebt_settles sound.closed done).position, if_pos ⟨rfl, rfl⟩]

theorem pull_ok {token src : Address} {n : ℕ} (balance : n ≤ (w.tokens token).balanceOf src)
    (allowance : n ≤ (w.tokens token).allowance src w.cfg.self) :
    ∃ w', pull token src n w = .ok w' :=
  ⟨_, onToken_eq_ok.mpr
    ⟨_, (TokenLedger.transferFrom_eq_some ..).mpr ⟨⟨allowance, balance⟩, rfl⟩, rfl⟩⟩

theorem send_ok {token dst : Address} {n : ℕ} (enough : n ≤ held token w) :
    ∃ w', send token dst n w = .ok w' :=
  ⟨_, onToken_eq_ok.mpr ⟨_, (TokenLedger.transfer_eq_some ..).mpr ⟨enough, rfl⟩, rfl⟩⟩

theorem liquidate_resolves {liquidator recipient : Address} {price : ℕ} (sound : Sound w)
    (apart : c ≠ w.cfg.usdg) (unsafe_ : UnsafeAt c b m price w) (funded : Funded liquidator c b w)
    (some_recipient : recipient ≠ 0)
    (some_ : 0 < covered w.cfg.usdgTo18Scale m (w.position c b) price) :
    ∃ w', liquidate liquidator c b UNLIMITED recipient w = .ok w' ∧
      (w'.position c b).debt < (w.position c b).debt := by
  obtain ⟨owes, value_lt⟩ := notSafe_parts unsafe_.notSafe
  obtain ⟨⟨repaid, seized⟩, terms⟩ := liquidationTerms_ok
    (validatedPrice_pos unsafe_.priced) value_lt
    (lt_modulus_of_le_max (sound.collateral_fits c b)) owes some_
  obtain ⟨positive, owed, there⟩ := liquidationTerms_le terms
  obtain ⟨u, removed⟩ := removeDebt_ok
    (p := ⟨(w.position c b).collateral - seized, (w.position c b).debt - repaid⟩) sound owed
  have booked := rebooked_removeDebt (by simp only; omega) removed
  have balance : repaid ≤ (u.tokens w.cfg.usdg).balanceOf liquidator := by
    rw [booked.tokens]
    exact owed.trans funded.balance
  have allowance : repaid ≤ (u.tokens w.cfg.usdg).allowance liquidator u.cfg.self := by
    rw [booked.tokens, booked.cfg]
    exact owed.trans funded.allowance
  obtain ⟨x, pulled⟩ := pull_ok balance allowance
  have paid := pull_transferred (booked.closed sound.closed) pulled
  have enough : seized ≤ held c x := by
    rw [held_eq paid.cfg (paid.others c apart), booked.held]
    exact there.trans (collateral_le_held sound c b apart)
  obtain ⟨w', sent⟩ : ∃ w', send c recipient seized x = .ok w' := send_ok enough
  have done : liquidate liquidator c b UNLIMITED recipient w = .ok w' := by
    have pulled' : pull u.cfg.usdg liquidator repaid u = .ok x := by rw [booked.cfg, pulled]
    simp only [liquidate, bind_eq_ok, revertIf_eq_ok]
    exact ⟨⟨⟩, some_recipient, ⟨⟩, by decide, m, unsafe_.listed, price, unsafe_.priced, false,
      unsafe_.notSafe, ⟨⟩, by simp, (repaid, seized), terms, u, removed, x, pulled', sent⟩
  refine ⟨w', done, ?_⟩
  obtain ⟨n, k, n_pos, n_le, -, settles⟩ := liquidate_settles sound.closed done
  rw [settles.position, if_pos ⟨rfl, rfl⟩]
  simp only
  omega

/-- Dust closes both ways out. -/
theorem unresolved_of_dust {liquidator recipient : Address} {price : ℕ}
    (unsafe_ : UnsafeAt c b m price w) (some_ : (w.position c b).collateral ≠ 0)
    (none : covered w.cfg.usdgTo18Scale m (w.position c b) price = 0) :
    ¬Resolves liquidator recipient c b w := by
  rintro (⟨w', done, -⟩ | ⟨w', done, -⟩)
  · simp only [liquidate, bind_eq_ok] at done
    obtain ⟨⟨⟩, -, ⟨⟩, -, m', listed, price', priced, _, -, ⟨⟩, -, ⟨repaid, seized⟩, terms, -⟩ := done
    rw [unsafe_.listed] at listed
    cases listed
    rw [unsafe_.priced] at priced
    cases priced
    simp only [liquidationTerms, bind_eq_ok, checkedMulDiv_eq_ok, revertIf_eq_ok] at terms
    obtain ⟨_, ⟨-, rfl⟩, _, ⟨-, rfl⟩, ⟨⟩, positive, -⟩ := terms
    unfold covered at none
    omega
  · simp only [writeOffBadDebt, bind_eq_ok, revertIf_eq_ok] at done
    obtain ⟨⟨⟩, -, ⟨⟩, free, -⟩ := done
    exact free (.inl some_)

theorem usdgTo18Scale_eq (six : w.cfg.decimals w.cfg.usdg = 6) : w.cfg.usdgTo18Scale = 10 ^ 12 := by
  rw [Config.usdgTo18Scale, six]

/-- The debts are the sums of the positions' debts, and an unsafe position can be resolved
exactly where no dust of collateral is in the way. -/
theorem bad_debt_resolved (six : w.cfg.decimals w.cfg.usdg = 6) (reachable : Reachable w) :
    Booked w ∧ ∀ c b m price liquidator recipient, UnsafeAt c b m price w →
      Funded liquidator c b w → recipient ≠ 0 →
      (Resolves liquidator recipient c b w ↔ NoDust m (w.position c b) price) := by
  have sound := reachable.sound
  refine ⟨sound.booked, fun c b m price liquidator recipient unsafe_ funded some_recipient => ?_⟩
  have scale := usdgTo18Scale_eq six
  have apart : c ≠ w.cfg.usdg := by
    rintro rfl
    have eighteen := sound.decimals w.cfg.usdg (market_eq_ok.mp unsafe_.listed).1
    omega
  have pays_iff : 0 < covered (10 ^ 12) m (w.position c b) price ↔ _ :=
    covered_pos_iff (by decide)
  constructor
  · intro resolves
    by_contra dust
    simp only [NoDust, not_or] at dust
    refine unresolved_of_dust unsafe_ dust.1 ?_ resolves
    rw [scale]
    exact Nat.eq_zero_of_not_pos fun pays => dust.2 (pays_iff.mp pays)
  · rintro (none | worth)
    · exact .inr (writeOff_resolves sound (notSafe_parts unsafe_.notSafe).1 none)
    · refine .inl (liquidate_resolves sound apart unsafe_ funded some_recipient ?_)
      rw [scale]
      exact pays_iff.mpr worth

/-! A loan of 40 USDG on one token at 100 USDG. At 11 USDG the liquidator takes the token for 10
USDG, and the borrower then deposits the smallest unit of the token. -/

def answers (price : ℕ) : Outside where
  decimals := fun _ => some 18
  collateral := fun _ => some 3
  primaryOracle := fun _ => some 7
  maxDeviationBps := fun _ => some 100
  validatedPrice := fun _ _ => some price
  oraclePaused := fun _ => some false

def sampleConfig : Config where
  self := 1
  usdg := 2
  originationFeeBps := 0
  globalDebtCeiling := 10 ^ 12
  decimals := fun token => if token = 2 then 6 else 18
  usdg_ne_zero := Address.two_ne_zero
  decimals_le := by decide
  fee_le := by decide
  ceiling_ne_zero := (Nat.pow_pos (by decide)).ne'

def sampleStart : World where
  cfg := sampleConfig
  tokens := fun _ =>
    { balanceOf := fun a => if a = 1 then 0 else 2 * 10 ^ 18
      allowance := fun a spender => if a = 1 then 0 else if spender = 1 then 10 ^ 30 else 0 }
  outside := answers (100 * 10 ^ 18)
  vault := ⟨4, true, fun _ => noMarket, fun _ _ => noPosition, fun _ => 0, [], 0⟩

def crashOps : List Op :=
  [.addMarket 4 3 7 8 (10 ^ 12) 5000 7000 1000 100, .setMarketEnabled 4 3 true, .unpause 4,
    .fund 4 (10 ^ 9), .depositAndBorrow 5 3 (10 ^ 18) (40 * 10 ^ 6),
    .outside (answers (11 * 10 ^ 18))]

def crashed : World := reached sampleStart (execAll exec crashOps sampleStart)

def dustOps : List Op := crashOps ++ [.liquidate 6 3 5 UNLIMITED 6, .depositCollateral 5 3 1]

def dusty : World := reached sampleStart (execAll exec dustOps sampleStart)

theorem sampleStart_deployed : Deployed sampleStart where
  vault_eq := ⟨4, by decide, rfl⟩
  no_allowance := fun _ _ => rfl

theorem reachable_of_ops {ops : List Op} (ok : (execAll exec ops sampleStart).isOk = true) :
    Reachable (reached sampleStart (execAll exec ops sampleStart)) :=
  ⟨sampleStart, ops, sampleStart_deployed, run_of_execAll (eq_ok_reached _ ok)⟩

theorem crashed_unsafe : UnsafeAt 3 5 (crashed.vault.markets 3) (11 * 10 ^ 18) crashed where
  listed := market_eq_ok.mpr ⟨by decide +kernel, rfl⟩
  priced := by decide +kernel
  notSafe := by decide +kernel

theorem dusty_unsafe : UnsafeAt 3 5 (dusty.vault.markets 3) (11 * 10 ^ 18) dusty where
  listed := market_eq_ok.mpr ⟨by decide +kernel, rfl⟩
  priced := by decide +kernel
  notSafe := by decide +kernel

theorem crashed_resolved : Booked crashed ∧ Resolves 6 6 3 5 crashed := by
  have resolved := bad_debt_resolved (w := crashed) (by decide +kernel)
    (reachable_of_ops (by decide +kernel))
  refine ⟨resolved.1, (resolved.2 3 5 _ _ 6 6 crashed_unsafe ?_ (by decide)).mpr (.inr ?_)⟩
  · exact ⟨by decide +kernel, by decide +kernel⟩
  · decide +kernel

/-- 30 USDG of debt that neither a liquidation nor a write-off removes. -/
theorem dusty_unresolved :
    Reachable dusty ∧ UnsafeAt 3 5 (dusty.vault.markets 3) (11 * 10 ^ 18) dusty ∧
      Funded 6 3 5 dusty ∧ (dusty.position 3 5).debt = 30 * 10 ^ 6 ∧ ¬Resolves 6 6 3 5 dusty := by
  refine ⟨reachable_of_ops (by decide +kernel), dusty_unsafe,
    ⟨by decide +kernel, by decide +kernel⟩, by decide +kernel, ?_⟩
  exact unresolved_of_dust dusty_unsafe (by decide +kernel) (by decide +kernel)

end Turret.CreditVault
