import Turret.CreditPosition

/-! The arithmetic of a liquidation, which both credit engines share: what collateral
covers with the bonus and what a payment takes are two sides of one division, and the
parts of a payment take at most one wei each more than the whole. -/

namespace Turret

open Rounding

/-- A micro-USDG with its bonus, in wei of collateral times the price. -/
def unitWorth (bonusBps : ℕ) : ℕ := 10 ^ 26 * (10000 + bonusBps)

theorem unitWorth_pos (bonusBps : ℕ) : 0 < unitWorth bonusBps :=
  Nat.mul_pos (by decide) (Nat.add_pos_left (by decide) _)

/-- The three divisions are one. -/
theorem coveredDebt_eq (bonusBps collateral value : ℕ) :
    coveredDebt bonusBps collateral value = mulDiv collateral value (unitWorth bonusBps) := by
  have worth : 10 ^ 18 * ((10000 + bonusBps) * 10 ^ 8) = unitWorth bonusBps := by
    rw [unitWorth]
    ring
  rw [coveredDebt, mulDiv, mulDiv, mulDiv, Nat.div_div_eq_div_mul]
  have one : collateral * value / 10 ^ 18 * 10000 / ((10000 + bonusBps) * 10 ^ 12) =
      collateral * value / 10 ^ 18 / ((10000 + bonusBps) * 10 ^ 8) := by
    rw [show (10000 + bonusBps) * 10 ^ 12 = (10000 + bonusBps) * 10 ^ 8 * 10000 by ring,
      Nat.mul_div_mul_right _ _ (by decide)]
  rw [one, Nat.div_div_eq_div_mul, worth]

/-- The first of the two divisions has no remainder. -/
theorem collateralForPayment_eq (bonusBps paid value : ℕ) :
    collateralForPayment bonusBps paid value = mulDivUp paid (unitWorth bonusBps) value := by
  have exact : mulDivUp (paid * 10 ^ 12) (10000 + bonusBps) 10000 =
      paid * (10 ^ 8 * (10000 + bonusBps)) := by
    have product : paid * 10 ^ 12 * (10000 + bonusBps) =
        paid * (10 ^ 8 * (10000 + bonusBps)) * 10000 := by ring
    rw [mulDivUp, product, Nat.mul_mod_left, if_pos rfl, Nat.add_zero,
      Nat.mul_div_left _ (by decide)]
  have worth : paid * (10 ^ 8 * (10000 + bonusBps)) * 10 ^ 18 = paid * unitWorth bonusBps := by
    rw [unitWorth]
    ring
  rw [collateralForPayment, exact, mulDivUp, mulDivUp, worth]

section Price

variable {bonusBps collateral paid value : ℕ} (positive : 0 < value)

include positive

/-- A payment is covered where the collateral it takes is there. -/
theorem le_coveredDebt_iff :
    paid ≤ coveredDebt bonusBps collateral value ↔
      collateralForPayment bonusBps paid value ≤ collateral := by
  rw [coveredDebt_eq, collateralForPayment_eq, le_mulDiv_iff (unitWorth_pos bonusBps),
    mulDivUp_le_iff positive]

theorem collateralForPayment_add_le (paid paid' : ℕ) :
    collateralForPayment bonusBps (paid + paid') value ≤
      collateralForPayment bonusBps paid value + collateralForPayment bonusBps paid' value := by
  simp only [collateralForPayment_eq]
  exact mulDivUp_add_le positive paid paid' _

theorem add_collateralForPayment_le (paid paid' : ℕ) :
    collateralForPayment bonusBps paid value + collateralForPayment bonusBps paid' value ≤
      collateralForPayment bonusBps (paid + paid') value + 1 := by
  simp only [collateralForPayment_eq]
  exact add_mulDivUp_le positive paid paid' _

theorem collateralForPayment_mono {paid' : ℕ} (h : paid ≤ paid') :
    collateralForPayment bonusBps paid value ≤ collateralForPayment bonusBps paid' value := by
  simp only [collateralForPayment_eq]
  exact mulDivUp_mono positive h _

theorem collateralForPayment_pos (pays : 0 < paid) :
    0 < collateralForPayment bonusBps paid value := by
  rw [collateralForPayment_eq]
  exact mulDivUp_pos positive (Nat.mul_pos pays (unitWorth_pos bonusBps))

/-- Where a wei is worth no more than a micro-USDG with its bonus, each of them takes some. -/
theorem collateralForPayment_lt_succ (fine : value ≤ unitWorth bonusBps) :
    collateralForPayment bonusBps paid value < collateralForPayment bonusBps (paid + 1) value := by
  have below := mulDivUp_mul_lt (a := paid) (b := unitWorth bonusBps) positive
  have above := le_mulDivUp_mul (a := paid + 1) (b := unitWorth bonusBps) positive
  rw [Nat.add_mul, Nat.one_mul] at above
  simp only [collateralForPayment_eq]
  exact Nat.lt_of_mul_lt_mul_right (a := value) (by omega)

end Price

theorem collateralForPayment_zero (bonusBps value : ℕ) :
    collateralForPayment bonusBps 0 value = 0 := by
  rw [collateralForPayment_eq, mulDivUp_zero_left]

/-! ### What a liquidation does -/

/-- How a payment and a seizure leave a position. -/
structure Liquidation (bonusBps minimumDebt value collateral debt paid seized : ℕ) : Prop where
  paid_pos : 0 < paid
  paid_le : paid ≤ debt
  seized_pos : 0 < seized
  seized_le : seized ≤ collateral
  /-- No more is taken than the payment is worth, unless nothing that is worth more would stay. -/
  bonus : seized ≤ collateralForPayment bonusBps paid value ∨
    seized = collateral ∧ collateral < collateralForPayment bonusBps (paid + 1) value
  /-- All collateral is taken for a part of the debt only where it covers no more. -/
  short : paid < debt → seized = collateral → coveredDebt bonusBps collateral value ≤ paid
  /-- What stays is enough for a further payment. -/
  rest : paid < debt → seized < collateral →
    seized = collateralForPayment bonusBps paid value ∧ minimumDebt ≤ debt - paid ∧
      collateralForPayment bonusBps minimumDebt value ≤ collateral - seized

def ExactlyOne (p q r : Prop) : Prop := p ∧ ¬q ∧ ¬r ∨ ¬p ∧ q ∧ ¬r ∨ ¬p ∧ ¬q ∧ r

theorem Liquidation.lt_succ {bonusBps minimumDebt value collateral debt paid seized : ℕ}
    (positive : 0 < value)
    (h : Liquidation bonusBps minimumDebt value collateral debt paid seized) :
    seized ≤ collateralForPayment bonusBps (paid + 1) value ∧
      (value ≤ unitWorth bonusBps → seized < collateralForPayment bonusBps (paid + 1) value) := by
  rcases h.bonus with worth | ⟨all, more⟩
  · exact ⟨worth.trans (collateralForPayment_mono positive (Nat.le_succ paid)),
      fun fine => worth.trans_lt (collateralForPayment_lt_succ positive fine)⟩
  · exact ⟨all ▸ more.le, fun _ => all ▸ more⟩

/-- The debt is paid, or all collateral is taken, or enough of both stays. -/
theorem Liquidation.ends {bonusBps minimumDebt value collateral debt paid seized : ℕ}
    (positive : 0 < value) (minimum : minimumDebt ≠ 0)
    (h : Liquidation bonusBps minimumDebt value collateral debt paid seized) :
    ExactlyOne (paid = debt) (paid < debt ∧ seized = collateral)
      (minimumDebt ≤ debt - paid ∧
        collateralForPayment bonusBps minimumDebt value ≤ collateral - seized) := by
  have reserve : 0 < collateralForPayment bonusBps minimumDebt value :=
    collateralForPayment_pos positive (Nat.pos_of_ne_zero minimum)
  have within := h.paid_le
  by_cases paid_all : paid = debt
  · exact .inl ⟨paid_all, by omega, by omega⟩
  by_cases everything : seized = collateral
  · exact .inr (.inl ⟨paid_all, ⟨by omega, everything⟩, by omega⟩)
  obtain ⟨-, debt_left, collateral_left⟩ :=
    h.rest (by omega) (lt_of_le_of_ne h.seized_le everything)
  exact .inr (.inr ⟨paid_all, fun all => everything all.2, debt_left, collateral_left⟩)

/-! ### Partial liquidations in a row -/

/-- A partial liquidation of a position, given as its collateral and its debt, under a quote. -/
def PartialLiquidation (quote : ℕ → ℕ → ℕ → ℕ × ℕ → Prop) (s l t : ℕ × ℕ) : Prop :=
  (∃ maxRepay, quote s.1 s.2 maxRepay l) ∧ l.1 < s.2 ∧ l.2 < s.1 ∧ t = (s.1 - l.2, s.2 - l.1)

/-- The value of `n` wei of collateral, rounded up to a micro-USDG. -/
def weiValue (n value : ℕ) : ℕ := mulDivUp n value (10 ^ 30)

theorem coveredDebt_add_le (bonusBps collateral n value : ℕ) :
    coveredDebt bonusBps (collateral + n) value ≤
      coveredDebt bonusBps collateral value + weiValue n value := by
  have unit : 10 ^ 30 ≤ unitWorth bonusBps := by
    rw [unitWorth]
    calc 10 ^ 30 = 10 ^ 26 * 10000 := by norm_num
      _ ≤ _ := Nat.mul_le_mul_left _ (Nat.le_add_right _ _)
  have worth : n * value ≤ weiValue n value * unitWorth bonusBps :=
    (le_mulDivUp_mul (by decide)).trans (Nat.mul_le_mul_left _ unit)
  rw [coveredDebt_eq, coveredDebt_eq]
  calc (collateral + n) * value / unitWorth bonusBps
      ≤ (collateral * value + weiValue n value * unitWorth bonusBps) / unitWorth bonusBps :=
        Nat.div_le_div_right (by rw [Nat.add_mul]; omega)
    _ = _ := Nat.add_mul_div_right _ _ (unitWorth_pos bonusBps)

section Split

variable {quote : ℕ → ℕ → ℕ → ℕ × ℕ → Prop} {bonusBps minimumDebt value : ℕ} {s t : ℕ × ℕ}
  {parts : List (ℕ × ℕ)}

/-- What a row of partial liquidations has paid and seized, and what is left. -/
structure SplitInto (bonusBps value : ℕ) (s : ℕ × ℕ) (parts : List (ℕ × ℕ)) (t : ℕ × ℕ) : Prop where
  paid : (parts.map Prod.fst).sum + t.2 = s.2
  seized : (parts.map Prod.snd).sum + t.1 = s.1
  bonus : ∀ rest, (parts.map Prod.snd).sum + collateralForPayment bonusBps rest value ≤
    collateralForPayment bonusBps ((parts.map Prod.fst).sum + rest) value + parts.length

/-- Each part takes what it is worth, which is at most one wei more than its share of the whole. -/
theorem split_parts (positive : 0 < value)
    (spec : ∀ collateral debt maxRepay paid seized, quote collateral debt maxRepay (paid, seized) →
      Liquidation bonusBps minimumDebt value collateral debt paid seized)
    (run : Execution.Run (PartialLiquidation quote) s parts t) :
    SplitInto bonusBps value s parts t := by
  induction run with
  | nil s =>
    refine ⟨Nat.zero_add _, Nat.zero_add _, fun rest => ?_⟩
    rw [List.map_nil, List.map_nil, List.sum_nil, Nat.zero_add, Nat.zero_add]
    exact Nat.le_add_right _ _
  | @cons s u t part parts first rest ih =>
    obtain ⟨⟨maxRepay, quoted⟩, less, some_left, rfl⟩ := first
    obtain ⟨paid, seized⟩ := part
    have outcome := spec _ _ _ _ _ quoted
    obtain ⟨worth, -, -⟩ := outcome.rest less some_left
    have paid_rest := ih.paid
    have seized_rest := ih.seized
    dsimp only at less some_left paid_rest seized_rest
    refine ⟨?_, ?_, fun owed => ?_⟩
    · simp only [List.map_cons, List.sum_cons]
      omega
    · simp only [List.map_cons, List.sum_cons]
      omega
    · have bonus := ih.bonus owed
      have sum := @add_collateralForPayment_le bonusBps _ positive paid
        ((parts.map Prod.fst).sum + owed)
      rw [← Nat.add_assoc] at sum
      simp only [List.map_cons, List.sum_cons, List.length_cons]
      omega

/-- A position that was covered stays so, but for one wei a part. -/
theorem SplitInto.covered (h : SplitInto bonusBps value s parts t)
    (covered : collateralForPayment bonusBps s.2 value ≤ s.1) :
    collateralForPayment bonusBps t.2 value ≤ t.1 + parts.length := by
  have seized := h.seized
  have bonus := h.bonus t.2
  rw [h.paid] at bonus
  omega

/-- What the lenders can still lose of it is no more than what these wei are worth. -/
theorem SplitInto.loss_le (h : SplitInto bonusBps value s parts t) (positive : 0 < value)
    (covered : collateralForPayment bonusBps s.2 value ≤ s.1) :
    t.2 ≤ coveredDebt bonusBps t.1 value + weiValue parts.length value :=
  ((le_coveredDebt_iff positive).mpr (h.covered covered)).trans
    (coveredDebt_add_le bonusBps t.1 parts.length value)

/-- What a row of partial liquidations can cost the lenders of a covered position. -/
structure Dust (quote : ℕ → ℕ → ℕ → ℕ × ℕ → Prop) (bonusBps value : ℕ) (s : ℕ × ℕ)
    (parts : List (ℕ × ℕ)) (t : ℕ × ℕ) : Prop where
  covered : collateralForPayment bonusBps t.2 value ≤ t.1 + parts.length
  paid : (parts.map Prod.fst).sum + t.2 = s.2
  seized : (parts.map Prod.snd).sum ≤
    collateralForPayment bonusBps (parts.map Prod.fst).sum value + parts.length
  /-- What is lost where all collateral is taken in the end. -/
  lost : ∀ maxRepay paid, quote t.1 t.2 maxRepay (paid, t.1) →
    t.2 - paid ≤ weiValue parts.length value

theorem dust_of_run (positive : 0 < value)
    (spec : ∀ collateral debt maxRepay paid seized, quote collateral debt maxRepay (paid, seized) →
      Liquidation bonusBps minimumDebt value collateral debt paid seized)
    (run : Execution.Run (PartialLiquidation quote) s parts t)
    (covered : collateralForPayment bonusBps s.2 value ≤ s.1) :
    Dust quote bonusBps value s parts t := by
  have split := split_parts positive spec run
  have bonus := split.bonus 0
  rw [collateralForPayment_zero] at bonus
  refine ⟨split.covered covered, split.paid, bonus, fun maxRepay paid quoted => ?_⟩
  have outcome := spec _ _ _ _ _ quoted
  have loss := split.loss_le positive covered
  by_cases less : paid < t.2
  · have short := outcome.short less rfl
    omega
  · omega

end Split

end Turret
