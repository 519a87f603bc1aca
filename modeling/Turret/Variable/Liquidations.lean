import Turret.Isolated.Liquidations
import Turret.Variable.Reconciliation

/-! The liquidation quotes of the two credit engines are one function of the position,
the price and the offer. -/

namespace Turret.VariableEngine

open Execution Rounding

/-- The fixed-rate market with the liquidation terms of this one. -/
structure SameTerms (fixed : IsolatedEngine.Config) (cfg : Config) : Prop where
  ltv : fixed.liquidationLtvBps = cfg.liquidationLtvBps
  bonus : fixed.bonusBps = cfg.bonusBps
  minimum : fixed.minimumDebt = cfg.minimumDebt

section Quote

variable {fixed : IsolatedEngine.Config} {cfg : Config} {collateral debt value maxRepay : ℕ}
  {r : ℕ × ℕ}

/-- Where less than the reserve is covered, nothing is covered beside the reserve. -/
theorem covered_beside_reserve {bonusBps reserve : ℕ} (positive : 0 < value)
    (short : coveredDebt bonusBps collateral value ≤ reserve)
    (within : collateralForPayment bonusBps reserve value < collateral) :
    coveredDebt bonusBps (collateral - collateralForPayment bonusBps reserve value) value = 0 := by
  by_contra some_covered
  have one : 1 ≤ coveredDebt bonusBps
      (collateral - collateralForPayment bonusBps reserve value) value := by omega
  have beside := (le_coveredDebt_iff positive).mp one
  have both := @collateralForPayment_add_le bonusBps _ positive reserve 1
  have more : reserve + 1 ≤ coveredDebt bonusBps collateral value :=
    (le_coveredDebt_iff positive).mpr (by omega)
  omega

theorem partialPayment_agree (same : SameTerms fixed cfg) (positive : 0 < value) {repayCap n p : ℕ}
    (cap : repayCap = min debt (max (coveredDebt cfg.bonusBps collateral value) 1))
    (within : n ≤ repayCap)
    (part : ¬(coveredDebt cfg.bonusBps collateral value < debt ∧ n = repayCap)) :
    IsolatedEngine.partialPayment fixed collateral debt value n = .ok p ↔
      partialPayment cfg collateral debt value repayCap n = .ok p := by
  unfold IsolatedEngine.partialPayment partialPayment
  rw [same.bonus, same.minimum]
  by_cases less : n < repayCap
  · have unpaid : n < debt := by omega
    rw [if_pos less, if_pos unpaid]
    simp only [bind_eq_ok, revertIf_eq_ok, exists_const, pure_eq_ok]
    by_cases small : repayCap ≤ cfg.minimumDebt
    · -- the fixed-rate engine finds nothing covered beside the reserve
      refine iff_of_false ?_ fun other => other.1 small
      rintro ⟨more, reserve, pays, -⟩
      have none : coveredDebt cfg.bonusBps
          (collateral - collateralForPayment cfg.bonusBps cfg.minimumDebt value) value = 0 :=
        covered_beside_reserve positive (by omega) (by omega)
      omega
    · have more : ¬debt ≤ cfg.minimumDebt := by omega
      simp only [small, more, not_false_eq_true, true_and]
  · have unpaid : ¬n < debt := by omega
    rw [if_neg less, if_neg unpaid, pure_eq_ok, pure_eq_ok]

/-- The two engines decide a partial liquidation by different tests and agree. -/
theorem quotes_agree (same : SameTerms fixed cfg) (positive : 0 < value) :
    IsolatedEngine.liquidationQuote fixed collateral debt value maxRepay = .ok r ↔
      liquidationQuote cfg collateral debt value maxRepay = .ok r := by
  have seizures : ∀ s, IsolatedEngine.seizure fixed collateral debt value
      (coveredDebt cfg.bonusBps collateral value)
      (min debt (max (coveredDebt cfg.bonusBps collateral value) 1))
      (min maxRepay (min debt (max (coveredDebt cfg.bonusBps collateral value) 1))) = .ok s ↔
      seizure cfg collateral debt value (coveredDebt cfg.bonusBps collateral value)
        (min debt (max (coveredDebt cfg.bonusBps collateral value) 1))
        (min maxRepay (min debt (max (coveredDebt cfg.bonusBps collateral value) 1))) = .ok s := by
    intro s
    unfold IsolatedEngine.seizure seizure
    split_ifs with all
    · rw [pure_eq_ok, pure_eq_ok]
    · simp only [bind_eq_ok, pure_eq_ok, same.bonus,
        partialPayment_agree same positive rfl (min_le_right _ _) all]
  unfold IsolatedEngine.liquidationQuote liquidationQuote
  simp only [bind_eq_ok, revertIf_eq_ok, exists_const, pure_eq_ok, same.ltv, same.bonus, seizures]

end Quote

/-- Every fixed-rate and variable-rate market on the same terms: at any positive price both engines
refuse a liquidation, or both take the same payment and the same collateral. -/
theorem liquidationQuotes_agree (fixed : IsolatedEngine.Config) (cfg : Config)
    (same : SameTerms fixed cfg) (collateral debt value maxRepay : ℕ) (positive : 0 < value) :
    (∃ paid seized,
      IsolatedEngine.liquidationQuote fixed collateral debt value maxRepay = .ok (paid, seized) ∧
      liquidationQuote cfg collateral debt value maxRepay = .ok (paid, seized)) ∨
    (∃ e, IsolatedEngine.liquidationQuote fixed collateral debt value maxRepay = .error e) ∧
      ∃ e, liquidationQuote cfg collateral debt value maxRepay = .error e := by
  have agree : ∀ r, IsolatedEngine.liquidationQuote fixed collateral debt value maxRepay = .ok r ↔
      liquidationQuote cfg collateral debt value maxRepay = .ok r :=
    fun r => quotes_agree same positive
  cases quoted : liquidationQuote cfg collateral debt value maxRepay with
  | ok r => exact .inl ⟨r.1, r.2, (agree r).mpr quoted, rfl⟩
  | error e =>
    cases other : IsolatedEngine.liquidationQuote fixed collateral debt value maxRepay with
    | ok r =>
      have both := (agree r).mp other
      rw [quoted] at both
      cases both
    | error e' => exact .inr ⟨⟨e', rfl⟩, e, rfl⟩

/-- A fixed-rate market on the terms of a variable-rate one. -/
def fixedTerms (cfg : Config) : IsolatedEngine.Config :=
  { IsolatedEngine.sampleConfig with
    staleness := 1
    maxLtvBps := cfg.maxLtvBps
    liquidationLtvBps := cfg.liquidationLtvBps
    bonusBps := cfg.bonusBps
    minimumDebt := cfg.minimumDebt
    staleness_ne_zero := Nat.one_ne_zero
    maxLtv_ne_zero := cfg.maxLtv_ne_zero
    maxLtv_lt := cfg.maxLtv_lt
    liquidationLtv_lt := cfg.liquidationLtv_lt
    bonus_le := cfg.bonus_le
    minimumDebt_ne_zero := cfg.minimumDebt_ne_zero
    bonus_room := cfg.bonus_room }

theorem sameTerms (cfg : Config) : SameTerms (fixedTerms cfg) cfg := ⟨rfl, rfl, rfl⟩

/-- A thousand tokens at sixty cents against five hundred USDG, of which a hundred are offered. -/
theorem sample_quotes_agree :
    (∃ paid seized,
      IsolatedEngine.liquidationQuote (fixedTerms sampleStart.cfg) (10 ^ 21) (5 * 10 ^ 8)
        (6 * 10 ^ 17) (10 ^ 8) = .ok (paid, seized) ∧
      liquidationQuote sampleStart.cfg (10 ^ 21) (5 * 10 ^ 8) (6 * 10 ^ 17) (10 ^ 8) =
        .ok (paid, seized)) ∨
    (∃ e, IsolatedEngine.liquidationQuote (fixedTerms sampleStart.cfg) (10 ^ 21) (5 * 10 ^ 8)
      (6 * 10 ^ 17) (10 ^ 8) = .error e) ∧
      ∃ e, liquidationQuote sampleStart.cfg (10 ^ 21) (5 * 10 ^ 8) (6 * 10 ^ 17) (10 ^ 8) =
        .error e :=
  liquidationQuotes_agree _ _ (sameTerms _) _ _ _ _ (by decide)

/-! ### Partial liquidations in a row -/

theorem liquidationQuote_spec {cfg : Config} {collateral debt value maxRepay paid seized : ℕ}
    (positive : 0 < value)
    (done : liquidationQuote cfg collateral debt value maxRepay = .ok (paid, seized)) :
    Liquidation cfg.bonusBps cfg.minimumDebt value collateral debt paid seized :=
  (IsolatedEngine.liquidationQuote_spec positive
    ((quotes_agree (sameTerms cfg) positive).mpr done)).2

def quotes (cfg : Config) (value : ℕ) (collateral debt maxRepay : ℕ) (l : ℕ × ℕ) : Prop :=
  liquidationQuote cfg collateral debt value maxRepay = .ok l

section Engine

variable {hook callback : World → Except Error World} {sender b : Address} {w w' v : World}
  {maxRepay minCollateral n m : ℕ}

/-- A loan that is paid in part, and still has collateral, stays. -/
theorem Concluded.position (h : Concluded b n w v) (less : n < (w.position b).debt)
    (backed : (w.position b).collateral ≠ 0) : v.position b = (w.position b).pay n := by
  cases h with
  | smaller capital log told step left backed done =>
    rw [done, rebooked_position]
  | ended capital active log G told removed step kept swept all done => omega

/-- What a liquidation of `b` did at this price, where it left debt and collateral. -/
structure Took (b : Address) (value n m : ℕ) (w w' : World) : Prop where
  quoted : ∃ maxRepay, quotes w.cfg value ((afterSettle b w).position b).collateral
    ((afterSettle b w).position b).debt maxRepay (n, m)
  left : n < ((afterSettle b w).position b).debt → m < ((afterSettle b w).position b).collateral →
    (w'.position b).collateral = ((afterSettle b w).position b).collateral - m ∧
      (w'.position b).debt = ((afterSettle b w).position b).debt - n

theorem seize_pay {p : Position} (within : n ≤ p.debt) :
    ((p.seize m).pay n).collateral = p.collateral - m ∧ ((p.seize m).pay n).debt = p.debt - n :=
  ⟨rfl, Nat.eq_sub_of_add_eq (Position.pay_debt within)⟩

theorem liquidate_took (h : Good w) (entered : w.engine.entered = true) (freezes : Freezes hook)
    (done : liquidate hook sender b maxRepay minCollateral w = .ok w') :
    ∃ value n m, price w = .ok value ∧ Took b value n m w w' := by
  simp only [liquidate, bind_eq_ok, Prod.exists] at done
  obtain ⟨v₀, n, m, release, v₁, settled, v₂, sent, last⟩ := done
  obtain ⟨-, -, ⟨value, priced, quoted⟩, -, rfl⟩ := releaseCollateral_ok h.ready release
  obtain ⟨positive, within, -⟩ := liquidationQuote_ok quoted
  have hs := h.afterSettle b
  have owes : ((afterSettle b w).position b).principal ≠ 0 := by
    rw [ne_eq, ← hs.debt_eq_zero]
    omega
  have concluded := settleLiquidation_ok (hs.payable_released owes)
    (by rw [released_position]; exact within) settled
  obtain ⟨collateral_eq, self_eq, flags_eq, ready⟩ := concluded.frame
  have calm : Calm v₁ := ⟨ready, fun a => by rw [collateral_eq, self_eq]; exact h.closed a⟩
  obtain ⟨t, frozen, -⟩ := sendCollateral_ok calm
    ((congrArg Prod.fst flags_eq).trans entered) freezes sent
  obtain rfl := endLiquidation_ok last
  refine ⟨value, n, m, priced, ⟨maxRepay, quoted⟩, fun less some_left => ?_⟩
  have position : v₁.position b = (((afterSettle b w).position b).seize m).pay n := by
    have paid := concluded.position (by rw [released_position]; exact less)
      (by rw [released_position]; exact Nat.sub_ne_zero_of_lt some_left)
    rwa [released_position] at paid
  have same : v₂.position b = v₁.position b := frozen.position_eq b
  change (v₂.position b).collateral = _ ∧ (v₂.position b).debt = _
  rw [same, position]
  exact seize_pay within

theorem liquidateWithCallback_took (h : Good w) (entered : w.engine.entered = true)
    (freezes : Freezes hook) (freezes' : Freezes callback)
    (done : liquidateWithCallback hook callback sender b maxRepay minCollateral w = .ok w') :
    ∃ value n m, price w = .ok value ∧ Took b value n m w w' := by
  simp only [liquidateWithCallback, bind_eq_ok, revertIf_eq_ok, exists_const, Prod.exists] at done
  obtain ⟨-, v₀, n, m, release, v₁, sent, y, called, v, settled, last⟩ := done
  obtain ⟨-, -, ⟨value, priced, quoted⟩, -, rfl⟩ := releaseCollateral_ok h.ready release
  obtain ⟨positive, within, -⟩ := liquidationQuote_ok quoted
  have hs := h.afterSettle b
  have owes : ((afterSettle b w).position b).principal ≠ 0 := by
    rw [ne_eq, ← hs.debt_eq_zero]
    omega
  -- what runs between the release and the payment leaves the position as it is
  obtain ⟨t, first, -⟩ := sendCollateral_ok
    (w := released b m true w.collateral (afterSettle b w)) ⟨hs.ready.withSettlement true, h.closed⟩
    entered freezes sent
  have second := freezes' _ _ first.calm (first.entered_eq.trans entered) called
  have frozen := first.trans second
  have before : y.position b = ((afterSettle b w).position b).seize m :=
    (frozen.position_eq b).trans released_position
  have payable := (hs.payable_released owes (m := m) (f := true) (t := t)).frozen frozen
  have concluded := settleLiquidation_ok payable (by rw [before]; exact within) settled
  obtain rfl := endLiquidation_ok last
  refine ⟨value, n, m, priced, ⟨maxRepay, quoted⟩, fun less some_left => ?_⟩
  have paid := concluded.position (by rw [before]; exact less)
    (by rw [before]; exact Nat.sub_ne_zero_of_lt some_left)
  rw [before] at paid
  change (v.position b).collateral = _ ∧ (v.position b).debt = _
  rw [paid]
  exact seize_pay within

end Engine

/-- Liquidating a covered position in parts costs the lenders at most a wei of collateral for each
part: under the quote of either engine, over any calls that liquidate a position of the fixed-rate
engine, and by what a liquidation of the variable one, with or without a callback, leaves. -/
theorem split_liquidations :
    (∀ (cfg : IsolatedEngine.Config) (value : ℕ) (s t : ℕ × ℕ) (parts : List (ℕ × ℕ)), 0 < value →
      Run (PartialLiquidation (IsolatedEngine.quotes cfg value)) s parts t →
      collateralForPayment cfg.bonusBps s.2 value ≤ s.1 →
      Dust (IsolatedEngine.quotes cfg value) cfg.bonusBps value s parts t) ∧
    (∀ (cfg : Config) (value : ℕ) (s t : ℕ × ℕ) (parts : List (ℕ × ℕ)), 0 < value →
      Run (PartialLiquidation (quotes cfg value)) s parts t →
      collateralForPayment cfg.bonusBps s.2 value ≤ s.1 →
      Dust (quotes cfg value) cfg.bonusBps value s parts t) ∧
    (∀ (w w' : IsolatedEngine.World) (b : Address) (value : ℕ) (parts : List (ℕ × ℕ)),
      IsolatedEngine.Reachable w → IsolatedEngine.price w = .ok value →
      Run (IsolatedEngine.partially b) w parts w' →
      collateralForPayment w.cfg.bonusBps (IsolatedEngine.owing b w).2 value ≤
        (IsolatedEngine.owing b w).1 →
      Dust (IsolatedEngine.quotes w.cfg value) w.cfg.bonusBps value (IsolatedEngine.owing b w) parts
        (IsolatedEngine.owing b w')) ∧
    (∀ (w w' : World) (hook callback : World → Except Error World) (sender b : Address)
      (maxRepay minCollateral : ℕ), Good w → w.engine.entered = true → Freezes hook →
      Freezes callback →
      liquidate hook sender b maxRepay minCollateral w = .ok w' ∨
        liquidateWithCallback hook callback sender b maxRepay minCollateral w = .ok w' →
      ∃ value n m, price w = .ok value ∧ Took b value n m w w') := by
  have fixed : ∀ (cfg : IsolatedEngine.Config) (value : ℕ) (s t : ℕ × ℕ) (parts : List (ℕ × ℕ)),
      0 < value → Run (PartialLiquidation (IsolatedEngine.quotes cfg value)) s parts t →
      collateralForPayment cfg.bonusBps s.2 value ≤ s.1 →
      Dust (IsolatedEngine.quotes cfg value) cfg.bonusBps value s parts t :=
    fun cfg value s t parts positive => dust_of_run positive fun _ _ _ _ _ quoted =>
      (IsolatedEngine.liquidationQuote_spec positive quoted).2
  refine ⟨fixed, fun cfg value s t parts positive => dust_of_run positive fun _ _ _ _ _ quoted =>
    liquidationQuote_spec positive quoted, fun w w' b value parts reachable priced run => ?_,
    fun w w' hook callback sender b maxRepay minCollateral h entered freezes freezes' done => ?_⟩
  · exact fixed w.cfg value _ _ parts (IsolatedEngine.price_pos priced)
      (IsolatedEngine.partially_run reachable.good priced run)
  · rcases done with done | done
    · exact liquidate_took h entered freezes done
    · exact liquidateWithCallback_took h entered freezes freezes' done

/-- Two hundred dollars in two parts, at sixty cents a token. -/
theorem sample_split_liquidations :
    Dust (quotes sampleStart.cfg (6 * 10 ^ 17)) 600 (6 * 10 ^ 17) (10 ^ 21, 5 * 10 ^ 8)
      [(10 ^ 8, 176666666666666666667), (5 * 10 ^ 7, 88333333333333333334)]
      (735 * 10 ^ 18 - 1, 35 * 10 ^ 7) := by
  refine split_liquidations.2.1 sampleStart.cfg _ _ _ _ (by decide) ?_ (by decide +kernel)
  refine .cons (t := (10 ^ 21 - 176666666666666666667, 4 * 10 ^ 8)) ?_ (.single ?_)
  · exact ⟨⟨10 ^ 8, by unfold quotes; decide +kernel⟩, by decide, by decide, rfl⟩
  · exact ⟨⟨5 * 10 ^ 7, by unfold quotes; decide +kernel⟩, by decide, by decide, rfl⟩

end Turret.VariableEngine
