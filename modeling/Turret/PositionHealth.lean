import Mathlib.Algebra.Order.Floor.Div
import Turret.CreditPosition
import Turret.CreditVault.Vault

/-! `position-health.mjs`, what a borrower is shown, and `liquidationQuote` of the
keeper's `risk.mjs`, beside the two contracts' tests of a position. Big integers
that are not negative are naturals; the debt is in units of USDG, of which a
dollar has `10 ^ 6`, and prices and values in `10 ^ 18`-ths. -/

namespace Turret.PositionHealth

open Execution Rounding Uint256

/-! ### The position as it is shown -/

def BPS : ℕ := 10000
def WAD : ℕ := 10 ^ 18
def SCALE : ℕ := 10 ^ 12

def ceil (a b : ℕ) : ℕ := (a + b - 1) / b

inductive Status
  | noDebt
  | unknown
  | eligible
  | critical
  | warning
  | healthy
  deriving DecidableEq

structure Health where
  status : Status
  ltvBps : Option ℕ
  bufferBps : Option ℕ
  liquidationPrice : Option ℕ
  deriving DecidableEq

/-- `safePrice`. -/
def safePrice (collateral debt liquidationLtvBps : ℕ) : ℕ :=
  ceil (ceil (debt * SCALE * BPS) liquidationLtvBps * WAD) collateral

/-- `bufferBps`: the fall of the price, in basis points, that the position can bear. -/
def buffer (price safePrice : ℕ) : ℕ :=
  if safePrice < price then (price - safePrice) * BPS / price else 0

/-- `eligible`. -/
def isEligible (collateral debt price liquidationLtvBps : ℕ) : Bool :=
  decide (collateral * price / WAD * liquidationLtvBps / BPS < debt * SCALE)

def statusOf (eligible : Bool) (bufferBps : ℕ) : Status :=
  if eligible then .eligible
  else if bufferBps ≤ 300 then .critical
  else if bufferBps ≤ 1000 then .warning
  else .healthy

def positionHealth (collateral debt : ℕ) (price : Option ℕ) (liquidationLtvBps : ℕ) : Health :=
  if debt = 0 then ⟨.noDebt, some 0, none, none⟩
  else match price with
    | none => ⟨.unknown, none, none, none⟩
    | some price =>
      if price = 0 ∨ liquidationLtvBps = 0 ∨ BPS ≤ liquidationLtvBps then ⟨.unknown, none, none, none⟩
      else if collateral = 0 then ⟨.eligible, none, some 0, none⟩
      else
        let value := collateral * price / WAD
        let safePrice := safePrice collateral debt liquidationLtvBps
        let eligible := isEligible collateral debt price liquidationLtvBps
        let bufferBps := buffer price safePrice
        { status := statusOf eligible bufferBps
          ltvBps := if 0 < value then some (ceil (debt * SCALE * BPS) value) else none
          bufferBps := some bufferBps
          liquidationPrice := some safePrice }

/-! ### The keeper's quote -/

structure LiquidationQuote where
  eligible : Bool
  repaid : ℕ
  seized : ℕ
  value : ℕ
  maximumDebt : ℕ
  collateralCap : ℕ
  badDebt : Bool

def liquidationQuote (collateral debt price ltvBps bonusBps scale maxRepay : ℕ) :
    LiquidationQuote :=
  let value := collateral * price / 10 ^ 18
  let maximumDebt := value * ltvBps / 10000
  let eligible := decide (maximumDebt < debt * scale)
  let collateralCap := value * 10000 / (10000 + bonusBps) / scale
  let repaid := if eligible then min (min maxRepay debt) collateralCap else 0
  let seizeValue := repaid * scale * (10000 + bonusBps) / 10000
  let seized :=
    if repaid = 0 then 0
    else if repaid = collateralCap then collateral
    else min collateral (seizeValue * 10 ^ 18 / price)
  { eligible, repaid, seized, value, maximumDebt, collateralCap
    badDebt := eligible && decide (repaid = 0) }

/-! ### The least safe price -/

theorem ceil_le_iff {a b q : ℕ} (positive : 0 < b) : ceil a b ≤ q ↔ a ≤ b * q := by
  rw [ceil, ← Nat.ceilDiv_eq_add_pred_div, ceilDiv_le_iff_le_mul positive]

variable {collateral debt price ltv : ℕ}

/-- The two ceilings invert the two floors exactly. -/
theorem safePrice_le_iff (collateral_pos : 0 < collateral) (ltv_pos : 0 < ltv) :
    safePrice collateral debt ltv ≤ price ↔
      debt * SCALE ≤ collateral * price / WAD * ltv / BPS := by
  have bps : 0 < BPS := by decide
  have wad : 0 < WAD := by decide
  calc safePrice collateral debt ltv ≤ price
      ↔ ceil (debt * SCALE * BPS) ltv * WAD ≤ collateral * price := ceil_le_iff collateral_pos
    _ ↔ ceil (debt * SCALE * BPS) ltv ≤ collateral * price / WAD := (Nat.le_div_iff_mul_le wad).symm
    _ ↔ debt * SCALE * BPS ≤ collateral * price / WAD * ltv := by
      rw [ceil_le_iff ltv_pos, Nat.mul_comm ltv]
    _ ↔ debt * SCALE ≤ collateral * price / WAD * ltv / BPS := (Nat.le_div_iff_mul_le bps).symm

theorem isEligible_iff (collateral_pos : 0 < collateral) (ltv_pos : 0 < ltv) :
    isEligible collateral debt price ltv = true ↔ price < safePrice collateral debt ltv := by
  rw [isEligible, decide_eq_true_eq, ← not_le, ← not_le,
    not_iff_not, safePrice_le_iff collateral_pos ltv_pos]

/-- The isolated engine compares in units of USDG, rounding the bound down once more. -/
theorem safe_iff (collateral_pos : 0 < collateral) (ltv_pos : 0 < ltv) :
    safe collateral debt price ltv = true ↔ safePrice collateral debt ltv ≤ price := by
  rw [safePrice_le_iff collateral_pos ltv_pos, safe, decide_eq_true_eq,
    Nat.le_div_iff_mul_le (by decide)]
  rfl

/-- The vault's test, where its arithmetic does not overflow. -/
theorem isSafe_eq_ok (collateral_pos : 0 < collateral) (debt_pos : 0 < debt) (ltv_pos : 0 < ltv)
    {result : Bool} :
    CreditVault.isSafe SCALE collateral debt price ltv = .ok result ↔
      (collateral * price / WAD < MODULUS ∧ collateral * price / WAD * ltv / BPS < MODULUS ∧
        debt * SCALE < MODULUS) ∧ (result = true ↔ safePrice collateral debt ltv ≤ price) := by
  simp only [CreditVault.isSafe, if_neg debt_pos.ne', bind_eq_ok, checkedMulDiv_eq_ok,
    checkedMul_eq_ok, pure_eq_ok]
  constructor
  · rintro ⟨_, ⟨⟨-, value⟩, rfl⟩, _, ⟨⟨-, bound⟩, rfl⟩, _, ⟨scaled, rfl⟩, rfl⟩
    refine ⟨⟨value, bound, scaled⟩, ?_⟩
    rw [safePrice_le_iff collateral_pos ltv_pos, decide_eq_true_eq]
    rfl
  · rintro ⟨⟨value, bound, scaled⟩, tested⟩
    refine ⟨_, ⟨⟨by decide, value⟩, rfl⟩, _, ⟨⟨by decide, bound⟩, rfl⟩, _, ⟨scaled, rfl⟩, ?_⟩
    rw [safePrice_le_iff collateral_pos ltv_pos] at tested
    rw [Bool.eq_iff_iff, tested, decide_eq_true_eq]
    rfl

/-- Up to the least safe price, a position of the vault does not overflow its test. -/
theorem isSafe_fits (collateral_pos : 0 < collateral) (ltv_pos : 0 < ltv) (ltv_lt : ltv < BPS)
    (collateral_fits : collateral ≤ UINT128_MAX) (debt_fits : debt ≤ UINT128_MAX)
    (le : price ≤ safePrice collateral debt ltv) :
    collateral * price / WAD < MODULUS ∧ collateral * price / WAD * ltv / BPS < MODULUS ∧
      debt * SCALE < MODULUS := by
  have least : collateral * safePrice collateral debt ltv <
      ceil (debt * SCALE * BPS) ltv * WAD + collateral := by
    have below := Nat.div_mul_le_self (ceil (debt * SCALE * BPS) ltv * WAD + collateral - 1) collateral
    rw [Nat.mul_comm] at below
    unfold safePrice
    rw [ceil]
    omega
  have whole : ceil (debt * SCALE * BPS) ltv ≤ debt * SCALE * BPS := by
    rw [ceil_le_iff ltv_pos]
    exact Nat.le_mul_of_pos_left _ ltv_pos
  have value_lt : collateral * price < (debt * SCALE * BPS) * WAD + collateral :=
    calc collateral * price ≤ collateral * safePrice collateral debt ltv :=
          Nat.mul_le_mul_left collateral le
      _ < ceil (debt * SCALE * BPS) ltv * WAD + collateral := least
      _ ≤ (debt * SCALE * BPS) * WAD + collateral := by gcongr
  have value : collateral * price / WAD < MODULUS := by
    unfold UINT128_MAX at collateral_fits debt_fits
    unfold SCALE BPS WAD at value_lt
    unfold WAD MODULUS
    omega
  refine ⟨value, ?_, ?_⟩
  · exact (mulDiv_le_self ltv_lt.le _).trans_lt value
  · unfold UINT128_MAX at debt_fits
    unfold SCALE MODULUS
    omega

/-! ### The status -/

theorem positionHealth_of_pos (debt_pos : 0 < debt) (price_pos : 0 < price)
    (collateral_pos : 0 < collateral) (ltv_pos : 0 < ltv) (ltv_lt : ltv < BPS) :
    (positionHealth collateral debt (some price) ltv).status =
        statusOf (isEligible collateral debt price ltv) (buffer price (safePrice collateral debt ltv)) ∧
      (positionHealth collateral debt (some price) ltv).liquidationPrice =
        some (safePrice collateral debt ltv) := by
  have valid : ¬(price = 0 ∨ ltv = 0 ∨ BPS ≤ ltv) := by omega
  simp only [positionHealth, if_neg debt_pos.ne', if_neg valid, if_neg collateral_pos.ne']
  trivial

theorem statusOf_eligible {eligible : Bool} {bufferBps : ℕ} :
    statusOf eligible bufferBps = .eligible ↔ eligible = true := by
  unfold statusOf
  split_ifs <;> simp_all

/-- The order of the states of a position with debt. -/
def Status.level : Status → ℕ
  | .eligible => 0
  | .critical => 1
  | .warning => 2
  | .healthy => 3
  | .noDebt => 4
  | .unknown => 5

theorem statusOf_level {eligible eligible' : Bool} {bufferBps bufferBps' : ℕ}
    (flag : eligible = true → eligible' = true) (le : bufferBps' ≤ bufferBps) :
    (statusOf eligible' bufferBps').level ≤ (statusOf eligible bufferBps).level := by
  unfold statusOf
  split_ifs with _ _ _ _ _ _ _ _ <;> simp only [Status.level] <;> first | omega | simp_all

theorem safePrice_mono {collateral' debt' : ℕ} (collateral_pos : 0 < collateral')
    (ltv_pos : 0 < ltv) (collateral_le : collateral' ≤ collateral) (debt_le : debt ≤ debt') :
    safePrice collateral debt ltv ≤ safePrice collateral' debt' ltv := by
  rw [safePrice_le_iff (collateral_pos.trans_le collateral_le) ltv_pos]
  have shrunk := (safePrice_le_iff collateral_pos ltv_pos).mp (le_refl (safePrice collateral' debt' ltv))
  calc debt * SCALE ≤ debt' * SCALE := Nat.mul_le_mul_right _ debt_le
    _ ≤ collateral' * safePrice collateral' debt' ltv / WAD * ltv / BPS := shrunk
    _ ≤ collateral * safePrice collateral' debt' ltv / WAD * ltv / BPS := by gcongr

theorem buffer_mono {price' least least' : ℕ} (price_le : price' ≤ price) (least_le : least ≤ least') :
    buffer price' least' ≤ buffer price least := by
  unfold buffer
  split_ifs with above' above
  · have positive : 0 < price := by omega
    rw [Nat.le_div_iff_mul_le positive]
    obtain ⟨q, q_eq⟩ : ∃ q, (price' - least') * BPS / price' = q := ⟨_, rfl⟩
    rw [q_eq]
    have kept : q * price' ≤ (price' - least') * BPS := q_eq ▸ Nat.div_mul_le_self ..
    have part : q ≤ BPS := by
      rw [← q_eq]
      exact Nat.div_le_of_le_mul (Nat.mul_le_mul_right _ (Nat.sub_le ..))
    obtain ⟨r, r_eq⟩ := Nat.exists_eq_add_of_le part
    -- what the buffer leaves of each price covers the least safe one
    have covers : least' * BPS ≤ r * price' := by
      rw [Nat.sub_mul] at kept
      have whole : price' * BPS = q * price' + r * price' := by rw [r_eq]; ring
      have inside := Nat.mul_le_mul_right BPS above'.le
      omega
    have still : least * BPS ≤ r * price :=
      calc least * BPS ≤ least' * BPS := Nat.mul_le_mul_right _ least_le
        _ ≤ r * price' := covers
        _ ≤ r * price := Nat.mul_le_mul_left _ price_le
    have whole : price * BPS = q * price + r * price := by rw [r_eq]; ring
    rw [Nat.sub_mul]
    omega
  · omega
  · exact Nat.zero_le _
  · exact le_rfl

/-- The state of a position with debt never improves as its collateral shrinks, its debt grows or
the price falls. -/
theorem status_never_improves {collateral' debt' price' : ℕ} (ltv_pos : 0 < ltv) (ltv_lt : ltv < BPS)
    (collateral_pos : 0 < collateral) (debt_pos : 0 < debt) (price_pos : 0 < price')
    (collateral_le : collateral' ≤ collateral) (debt_le : debt ≤ debt') (price_le : price' ≤ price) :
    (positionHealth collateral' debt' (some price') ltv).status.level ≤
      (positionHealth collateral debt (some price) ltv).status.level := by
  rcases Nat.eq_zero_or_pos collateral' with none | some_
  · have valid : ¬(price' = 0 ∨ ltv = 0 ∨ BPS ≤ ltv) := by omega
    have owes : debt' ≠ 0 := by omega
    simp only [positionHealth, if_neg owes, if_neg valid, if_pos none, Status.level]
    exact Nat.zero_le _
  · rw [(positionHealth_of_pos (debt_pos.trans_le debt_le) price_pos some_ ltv_pos ltv_lt).1,
      (positionHealth_of_pos debt_pos (price_pos.trans_le price_le) collateral_pos ltv_pos ltv_lt).1]
    have least : safePrice collateral debt ltv ≤ safePrice collateral' debt' ltv :=
      safePrice_mono some_ ltv_pos collateral_le debt_le
    refine statusOf_level (fun flag => ?_) (buffer_mono price_le least)
    rw [isEligible_iff collateral_pos ltv_pos] at flag
    rw [isEligible_iff some_ ltv_pos]
    omega

/-! ### Agreement -/

/-- The four tests of a position at a price. -/
structure TestsAgree (collateral debt ltv least price : ℕ) : Prop where
  shown : price < least ↔
    (positionHealth collateral debt (some price) ltv).status = .eligible
  keeper : ∀ bonusBps maxRepay, price < least ↔
    (liquidationQuote collateral debt price ltv bonusBps SCALE maxRepay).eligible = true
  vault : ∀ result, CreditVault.isSafe SCALE collateral debt price ltv = .ok result →
    (price < least ↔ result = false)
  engine : price < least ↔ safe collateral debt price ltv = false

theorem tests_agree (collateral_pos : 0 < collateral) (debt_pos : 0 < debt) (price_pos : 0 < price)
    (ltv_pos : 0 < ltv) (ltv_lt : ltv < BPS) :
    TestsAgree collateral debt ltv (safePrice collateral debt ltv) price where
  shown := by
    rw [(positionHealth_of_pos debt_pos price_pos collateral_pos ltv_pos ltv_lt).1,
      statusOf_eligible, isEligible_iff collateral_pos ltv_pos]
  keeper := fun bonusBps maxRepay => (isEligible_iff collateral_pos ltv_pos).symm
  vault := fun result tested => by
    have accepted := ((isSafe_eq_ok collateral_pos debt_pos ltv_pos).mp tested).2
    rw [← not_le, ← accepted, Bool.not_eq_true]
  engine := by
    rw [← not_le, ← safe_iff collateral_pos ltv_pos, Bool.not_eq_true]

/-- The liquidation price that is shown is the least price at which the contracts accept the
position, and below it all four tests reject it. A position of the vault has 128-bit amounts. -/
theorem liquidation_price_exact (collateral debt ltv : ℕ) (collateral_pos : 0 < collateral)
    (debt_pos : 0 < debt) (ltv_pos : 0 < ltv) (ltv_lt : ltv < BPS) :
    ∃ least,
      (∀ price, 0 < price →
        (positionHealth collateral debt (some price) ltv).liquidationPrice = some least ∧
          TestsAgree collateral debt ltv least price) ∧
      IsLeast {price | safe collateral debt price ltv = true} least ∧
      (collateral ≤ UINT128_MAX → debt ≤ UINT128_MAX →
        IsLeast {price | CreditVault.isSafe SCALE collateral debt price ltv = .ok true} least ∧
          ∀ price, price < least ↔
            CreditVault.isSafe SCALE collateral debt price ltv = .ok false) ∧
      ∀ collateral' debt' price price', collateral' ≤ collateral → debt ≤ debt' → 0 < price' →
        price' ≤ price →
        (positionHealth collateral' debt' (some price') ltv).status.level ≤
          (positionHealth collateral debt (some price) ltv).status.level := by
  refine ⟨safePrice collateral debt ltv, fun price price_pos => ⟨?_, ?_⟩, ⟨?_, ?_⟩,
    fun collateral_fits debt_fits => ⟨⟨?_, ?_⟩, fun price => ⟨?_, ?_⟩⟩,
    fun collateral' debt' price price' shrunk grown positive fallen =>
      status_never_improves ltv_pos ltv_lt collateral_pos debt_pos positive shrunk grown fallen⟩
  · exact (positionHealth_of_pos debt_pos price_pos collateral_pos ltv_pos ltv_lt).2
  · exact tests_agree collateral_pos debt_pos price_pos ltv_pos ltv_lt
  · exact (safe_iff collateral_pos ltv_pos).mpr le_rfl
  · exact fun price accepted => (safe_iff collateral_pos ltv_pos).mp accepted
  · have fits := isSafe_fits collateral_pos ltv_pos ltv_lt collateral_fits debt_fits le_rfl
    exact (isSafe_eq_ok collateral_pos debt_pos ltv_pos).mpr ⟨fits, by simp⟩
  · intro price accepted
    exact ((isSafe_eq_ok collateral_pos debt_pos ltv_pos).mp accepted).2.mp rfl
  · intro below
    have fits := isSafe_fits collateral_pos ltv_pos ltv_lt collateral_fits debt_fits below.le
    exact (isSafe_eq_ok collateral_pos debt_pos ltv_pos).mpr ⟨fits, by simpa using below⟩
  · intro rejected
    have tested := ((isSafe_eq_ok collateral_pos debt_pos ltv_pos).mp rejected).2
    simpa using tested

/-- Half a token with 30 USDG of debt, liquidated above 75%. -/
theorem liquidation_price_sample : ∃ least,
    (positionHealth (5 * 10 ^ 17) (30 * 10 ^ 6) (some (100 * 10 ^ 18)) 7500).liquidationPrice =
      some least ∧
    TestsAgree (5 * 10 ^ 17) (30 * 10 ^ 6) 7500 least (100 * 10 ^ 18) ∧
    IsLeast {price | safe (5 * 10 ^ 17) (30 * 10 ^ 6) price 7500 = true} least := by
  obtain ⟨least, shown, smallest, -⟩ :=
    liquidation_price_exact (5 * 10 ^ 17) (30 * 10 ^ 6) 7500
      (by decide) (by decide) (by decide) (by decide)
  exact ⟨least, (shown _ (by decide)).1, (shown _ (by decide)).2, smallest⟩

example : safePrice (5 * 10 ^ 17) (30 * 10 ^ 6) 7500 = 80 * 10 ^ 18 := by decide

end Turret.PositionHealth
