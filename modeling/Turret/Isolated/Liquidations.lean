import Turret.Isolated.Reconciliation
import Turret.Liquidation

/-! Liquidations of the fixed-rate engine: what a quote promises, when there is one,
and what a liquidation leaves of the position. -/

namespace Turret.IsolatedEngine

open Execution Rounding Function
open IsolatedPool (CapitalStep owed)

section Quote

variable {cfg : Config} {collateral debt value maxRepay paid seized : ℕ}

theorem partialPayment_ok {n : ℕ} (done : partialPayment cfg collateral debt value n = .ok paid) :
    (n < debt → paid ≤ n ∧ 0 < paid ∧ paid ≤ debt - cfg.minimumDebt ∧ cfg.minimumDebt < debt ∧
      collateralForPayment cfg.bonusBps cfg.minimumDebt value < collateral ∧
      paid ≤ coveredDebt cfg.bonusBps
        (collateral - collateralForPayment cfg.bonusBps cfg.minimumDebt value) value) ∧
    (debt ≤ n → paid = n) := by
  unfold partialPayment at done
  split_ifs at done with part
  · simp only [bind_eq_ok, revertIf_eq_ok, exists_const, pure_eq_ok] at done
    omega
  · rw [pure_eq_ok] at done
    omega

/-- What a quote promises. -/
theorem liquidationQuote_spec (positive : 0 < value)
    (done : liquidationQuote cfg collateral debt value maxRepay = .ok (paid, seized)) :
    paid ≤ maxRepay ∧
      Liquidation cfg.bonusBps cfg.minimumDebt value collateral debt paid seized := by
  simp only [liquidationQuote, bind_eq_ok, revertIf_eq_ok, exists_const, pure_eq_ok, Prod.exists,
    Prod.mk.injEq] at done
  obtain ⟨-, some_paid, p, s, chosen, some_seized, rfl, rfl⟩ := done
  have beyond : ∀ n, coveredDebt cfg.bonusBps collateral value < n →
      collateral < collateralForPayment cfg.bonusBps n value := fun n more =>
    Nat.lt_of_not_le fun le => Nat.not_le.mpr more ((le_coveredDebt_iff positive).mpr le)
  unfold seizure at chosen
  split_ifs at chosen with all
  · -- all that is covered is paid, and all of the collateral is taken
    rw [pure_eq_ok, Prod.mk.injEq] at chosen
    obtain ⟨rfl, rfl⟩ := chosen
    refine ⟨min_le_left _ _, by omega, by omega, Nat.pos_of_ne_zero some_seized, le_rfl,
      .inr ⟨rfl, beyond _ (by omega)⟩, fun _ _ => by omega,
      fun _ less => absurd less (lt_irrefl _)⟩
  · simp only [bind_eq_ok, pure_eq_ok, Prod.mk.injEq] at chosen
    obtain ⟨n, limited, rfl, rfl⟩ := chosen
    obtain ⟨part, whole⟩ := partialPayment_ok limited
    by_cases less : min maxRepay (min debt (max (coveredDebt cfg.bonusBps collateral value) 1)) < debt
    · -- the reserve of the next payment stays
      obtain ⟨below, pays, keeps, more, reserve, covered⟩ := part less
      have taken := (le_coveredDebt_iff positive).mp covered
      have seized : min collateral (collateralForPayment cfg.bonusBps n value) =
          collateralForPayment cfg.bonusBps n value := min_eq_right (by omega)
      have kept : 0 < collateralForPayment cfg.bonusBps cfg.minimumDebt value :=
        collateralForPayment_pos positive (Nat.pos_of_ne_zero cfg.minimumDebt_ne_zero)
      refine ⟨below.trans (min_le_left _ _), pays, by omega, Nat.pos_of_ne_zero some_seized,
        min_le_left _ _, .inl (min_le_right _ _), fun _ all => by omega, fun _ _ => ?_⟩
      rw [seized]
      exact ⟨rfl, by omega, by omega⟩
    · have paid := whole (Nat.le_of_not_lt less)
      refine ⟨by omega, by omega, by omega, Nat.pos_of_ne_zero some_seized, min_le_left _ _,
        .inl (min_le_right _ _), fun unpaid => by omega, fun unpaid => by omega⟩

/-- An unsafe position can be liquidated by who offers its whole debt. A payment that the collateral
covers with the bonus is then possible, and earns the bonus. -/
theorem liquidationQuote_exposed (positive : 0 < value) (owes : debt ≠ 0) (backed : collateral ≠ 0)
    (exposed : safe collateral debt value cfg.liquidationLtvBps = false) (offers : debt ≤ maxRepay) :
    ∃ paid seized, liquidationQuote cfg collateral debt value maxRepay = .ok (paid, seized) ∧
      ∀ n, n ≠ 0 → n ≤ debt → collateralForPayment cfg.bonusBps n value ≤ collateral →
        n ≤ paid ∧ collateralForPayment cfg.bonusBps paid value ≤ seized := by
  simp only [liquidationQuote, bind_eq_ok, revertIf_eq_ok, exists_const, pure_eq_ok, Prod.exists]
  have market : ¬(debt = 0 ∨ safe collateral debt value cfg.liquidationLtvBps = true) := by
    rw [exposed]
    exact not_or.mpr ⟨owes, Bool.false_ne_true⟩
  have cap : min maxRepay (min debt (max (coveredDebt cfg.bonusBps collateral value) 1)) =
      min debt (max (coveredDebt cfg.bonusBps collateral value) 1) := by omega
  rw [cap]
  have pays : min debt (max (coveredDebt cfg.bonusBps collateral value) 1) ≠ 0 := by omega
  by_cases short : coveredDebt cfg.bonusBps collateral value < debt
  · refine ⟨min debt (max (coveredDebt cfg.bonusBps collateral value) 1), collateral,
      ⟨market, pays, _, _, if_pos ⟨short, rfl⟩, backed, rfl⟩, fun n some_debt within covers => ?_⟩
    have covered := (le_coveredDebt_iff positive).mpr covers
    have all : min debt (max (coveredDebt cfg.bonusBps collateral value) 1) =
        coveredDebt cfg.bonusBps collateral value := by omega
    rw [all]
    exact ⟨covered, (le_coveredDebt_iff positive).mp le_rfl⟩
  · have all : min debt (max (coveredDebt cfg.bonusBps collateral value) 1) = debt := by omega
    have taken : 0 < collateralForPayment cfg.bonusBps debt value :=
      collateralForPayment_pos positive (Nat.pos_of_ne_zero owes)
    have covers := (le_coveredDebt_iff positive).mp (Nat.le_of_not_lt short)
    rw [all]
    refine ⟨debt, collateralForPayment cfg.bonusBps debt value,
      ⟨market, owes, debt, _, ?_, Nat.ne_of_gt taken, rfl⟩, fun n _ within _ => ⟨within, le_rfl⟩⟩
    rw [seizure, if_neg fun part => short part.1, partialPayment, if_neg (lt_irrefl _)]
    simp only [bind_eq_ok, pure_eq_ok, Prod.mk.injEq]
    exact ⟨debt, rfl, rfl, min_eq_right covers⟩

end Quote

/-! ### What a liquidation leaves -/

variable {w w' u v : World} {b sender : Address}

/-- What the price is read from. -/
structure SameMarket (w w' : World) : Prop where
  cfg : w'.cfg = w.cfg
  primary : w'.primary = w.primary
  secondary : w'.secondary = w.secondary
  now : w'.now = w.now

theorem SameMarket.refl (w : World) : SameMarket w w := ⟨rfl, rfl, rfl, rfl⟩

theorem SameMarket.trans (h : SameMarket w v) (k : SameMarket v w') : SameMarket w w' :=
  ⟨k.cfg.trans h.cfg, k.primary.trans h.primary, k.secondary.trans h.secondary, k.now.trans h.now⟩

theorem SameMarket.price (h : SameMarket w w') : price w' = price w := by
  simp only [IsolatedEngine.price, read, h.cfg, h.primary, h.secondary, h.now]

/-- Only what is told of the position grows, and the market stays. -/
structure Ends (b : Address) (w w' : World) : Prop extends SameMarket w w' where
  collateral : (w'.position b).collateral = (w.position b).collateral
  updatedAt : (w'.position b).updatedAt = (w.position b).updatedAt
  remainder : (w'.position b).remainder ≤ (w.position b).remainder
  log : ∃ newer, w'.engine.log = newer ++ w.engine.log

theorem recognizeLoss_now {c d : IsolatedPool.World} {a : Address} {principal interest : ℕ}
    (done : IsolatedPool.recognizeLoss a principal interest c = .ok d) : d.now = c.now := by
  rw [(IsolatedPool.recognizeLoss_ok done).1]
  rfl

theorem recognizeShortfall_ends (done : recognizeShortfall b w = .ok w') :
    Ends b w w' ∧
      (w'.position b).debt = (if (w.position b).collateral = 0 then 0 else (w.position b).debt) ∧
      ((w.position b).collateral = 0 → 0 < (w.position b).debt → w'.engine.log =
        (w.now, .positionLoss b (w.position b).principal (w.position b).interest) ::
          w.engine.log) := by
  unfold recognizeShortfall at done
  dsimp only at done
  split at done
  · rename_i short
    simp only [onPool, bind_eq_ok, mapError_eq_ok, pure_eq_ok] at done
    obtain ⟨_, ⟨capital, lost, rfl⟩, rfl⟩ := done
    have now := recognizeLoss_now lost
    refine ⟨⟨⟨rfl, rfl, rfl, now⟩, ?_, ?_, ?_, ⟨[_], rfl⟩⟩, ?_, ?_⟩
    · simp [World.setPosition, World.position]
    · simp [World.setPosition, World.position]
    · simp [World.setPosition, World.position]
    · rw [if_pos short.1]
      simp [World.setPosition, World.position, Position.debt]
    · rintro - -
      exact congrArg (fun time => (time, _) :: w.engine.log) now
  · rename_i open_
    rw [pure_eq_ok] at done
    subst done
    refine ⟨⟨.refl w, rfl, rfl, le_rfl, [], rfl⟩, ?_, fun none owes => absurd ⟨none, owes⟩ open_⟩
    split <;> omega

theorem clearRoundingInterest_ends (done : clearRoundingInterest w = .ok w') :
    Ends b w w' ∧ w'.engine.positions = w.engine.positions := by
  unfold clearRoundingInterest at done
  split at done
  · simp only [onPool, bind_eq_ok, mapError_eq_ok, pure_eq_ok] at done
    obtain ⟨_, ⟨capital, lost, rfl⟩, rfl⟩ := done
    exact ⟨⟨⟨rfl, rfl, rfl, recognizeLoss_now lost⟩, rfl, rfl, le_rfl, [_], rfl⟩, rfl⟩
  · rw [pure_eq_ok] at done
    subst done
    exact ⟨⟨.refl w, rfl, rfl, le_rfl, [], rfl⟩, rfl⟩

theorem finish_ends (done : finish b w = .ok w') :
    Ends b w w' ∧ (w'.position b).debt = (w.position b).debt := by
  unfold finish at done
  dsimp only at done
  split at done
  · simp only [bind_eq_ok, checkedSub_eq_ok, orRevert_eq_ok] at done
    obtain ⟨count, -, active, -, cleared⟩ := done
    obtain ⟨ends, positions⟩ := clearRoundingInterest_ends (b := b) cleared
    have position : w'.position b = { w.position b with remainder := 0 } := by
      rw [World.position, positions]
      simp [World.setPosition]
    refine ⟨⟨⟨ends.cfg, ends.primary, ends.secondary, ends.now⟩, ?_, ?_, ?_, ends.log⟩, ?_⟩
    · rw [position]
    · rw [position]
    · rw [position]
      exact Nat.zero_le _
    · rw [position]
      rfl
  · rw [pure_eq_ok] at done
    subst done
    exact ⟨⟨.refl w, rfl, rfl, le_rfl, [], rfl⟩, rfl⟩

theorem read_pos {feed : Feed} {decimals value : ℕ} (done : read feed decimals w = .ok value) :
    0 < value := by
  simp only [read, bind_eq_ok, revertIf_eq_ok, orRevert_eq_ok, exists_const, pure_eq_ok,
    not_or, not_le] at done
  obtain ⟨_, -, -, data, -, ⟨positive, -⟩, rfl⟩ := done
  exact Nat.mul_pos (Int.pos_iff_toNat_pos.mp positive) (Nat.pow_pos (by decide))

theorem price_pos {value : ℕ} (done : price w = .ok value) : 0 < value := by
  simp only [price, bind_eq_ok, revertIf_eq_ok, exists_const, pure_eq_ok] at done
  obtain ⟨a, first, c, second, -, rfl⟩ := done
  exact lt_min (read_pos first) (read_pos second)

/-- A liquidation of `b` at this price, and the position it leaves. -/
structure Liquidated (b : Address) (value maxRepay n m : ℕ) (w w' : World) : Prop
    extends SameMarket w w' where
  quoted : liquidationQuote w.cfg (settled (w.position b) w).collateral
    (settled (w.position b) w).debt value maxRepay = .ok (n, m)
  collateral : (w'.position b).collateral = (settled (w.position b) w).collateral - m
  debt : (w'.position b).debt =
    if m = (settled (w.position b) w).collateral then 0 else (settled (w.position b) w).debt - n
  updatedAt : (w'.position b).updatedAt = w.now
  remainder : (w'.position b).remainder < DENOMINATOR
  /-- What is neither paid nor backed is recognized as a loss. -/
  lost : m = (settled (w.position b) w).collateral → n < (settled (w.position b) w).debt →
    ∃ newer earlier principal interest,
      principal + interest = (settled (w.position b) w).debt - n ∧ w'.engine.log =
        newer ++ (w.now, .positionLoss b principal interest) :: (earlier ++ w.engine.log)

theorem paid_position (capital : IsolatedPool.World) (n : ℕ) :
    (paid b sender n capital w).position b = (w.position b).pay n := by
  simp [paid, World.position]

/-- The end of a liquidation, from the position that was paid down and seized. -/
theorem concluded_spec {p : Position} (short : recognizeShortfall b (w.setPosition b p) = .ok u)
    (finished : finish b u = .ok v) :
    SameMarket w v ∧ (v.position b).collateral = p.collateral ∧
      (v.position b).debt = (if p.collateral = 0 then 0 else p.debt) ∧
      (v.position b).updatedAt = p.updatedAt ∧ (v.position b).remainder ≤ p.remainder ∧
      (p.collateral = 0 → 0 < p.debt → ∃ newer, v.engine.log =
        newer ++ (w.now, .positionLoss b p.principal p.interest) :: w.engine.log) := by
  obtain ⟨written, debt, loss⟩ := recognizeShortfall_ends short
  obtain ⟨ended, rest⟩ := finish_ends finished
  have collateral := ended.collateral.trans written.collateral
  have updatedAt := ended.updatedAt.trans written.updatedAt
  have remainder := ended.remainder.trans written.remainder
  rw [position_set] at collateral debt loss updatedAt remainder
  have set : SameMarket w (w.setPosition b p) := ⟨rfl, rfl, rfl, rfl⟩
  refine ⟨set.trans (written.toSameMarket.trans ended.toSameMarket), collateral, rest.trans debt,
    updatedAt, remainder, fun none owes => ?_⟩
  obtain ⟨newer, log⟩ := ended.log
  exact ⟨newer, log.trans (congrArg (newer ++ ·) (loss none owes))⟩

theorem liquidate_spec (h : Good w) {maxRepay minCollateral n m : ℕ}
    (done : liquidate sender b maxRepay minCollateral w = .ok (w', n, m)) :
    ∃ value, price w = .ok value ∧ Liquidated b value maxRepay n m w w' := by
  simp only [liquidate, requirePool, bind_eq_ok, revertIf_eq_ok, exists_const, pure_eq_ok,
    Prod.exists, Prod.mk.injEq] at done
  obtain ⟨-, value, priced, p, s, quoted, -, v, repaid, left, subtracted, x, short, y, finished, z,
    sent, rfl, rfl, rfl⟩ := done
  have market : SameMarket w (settle b w) := ⟨rfl, rfl, rfl, rfl⟩
  rw [market.price] at priced
  rw [settle_position] at quoted
  obtain ⟨-, outcome⟩ := liquidationQuote_spec (price_pos priced) quoted
  have debt_paid := Position.pay_debt outcome.paid_le
  obtain ⟨capital, rfl, step, -⟩ := repayPosition_ok (h.settle b) repaid
  rw [paid_position, settle_position] at subtracted short
  rw [checkedSub_eq_ok] at subtracted
  obtain ⟨within, rfl⟩ := subtracted
  obtain ⟨last, collateral, debt, updatedAt, remainder, loss⟩ := concluded_spec short finished
  obtain ⟨tokens, rfl, -⟩ := sendCollateral_ok sent
  have all : (settled (w.position b) w).collateral - s = 0 ↔
      s = (settled (w.position b) w).collateral := by
    change s ≤ (settled (w.position b) w).collateral at within
    omega
  refine ⟨value, priced, ⟨⟨last.cfg, last.primary, last.secondary, last.now.trans step.now_eq⟩,
    quoted, collateral, ?_, updatedAt,
    lt_of_le_of_lt remainder (carry_snd_lt DENOMINATOR_pos _ _ _), fun everything owes => ?_⟩⟩
  · refine debt.trans (if_congr all rfl ?_)
    change ((settled (w.position b) w).pay p).debt = _
    omega
  · have left : 0 < ((settled (w.position b) w).pay p).debt := by omega
    obtain ⟨newer, log⟩ := loss (all.mpr everything) left
    have now : (paid b sender p capital (settle b w)).now = w.now := step.now_eq
    refine ⟨(y.now, .liquidated b sender p s) :: newer,
      [(w.now, .repaid b sender (((settle b w).position b).principalPart p)
        (((settle b w).position b).interestPart p))],
      ((settled (w.position b) w).pay p).principal, ((settled (w.position b) w).pay p).interest,
      Nat.eq_sub_of_add_eq debt_paid, ?_⟩
    rw [now] at log
    exact congrArg ((y.now, CreditEvent.liquidated b sender p s) :: ·) log

theorem sendCollateral_accepts {dst : Address} {n : ℕ} (known : dst ≠ 0) (other : dst ≠ w.self)
    (held : n ≤ w.collateral.balanceOf w.self) : ∃ w', sendCollateral dst n w = .ok w' := by
  simp only [sendCollateral, bind_eq_ok, revertIf_eq_ok, exists_const, orRevert_eq_ok, pure_eq_ok,
    TokenLedger.transfer_eq_some, not_or, not_not]
  refine ⟨_, ⟨known, other⟩, _, ⟨held, rfl⟩, ⟨?_, TokenLedger.move_dst (Ne.symm other) _ _⟩, rfl⟩
  rw [TokenLedger.move_src (Ne.symm other), Nat.sub_add_cancel held]

/-- Whoever holds and approves the debt can liquidate an unsafe position. -/
theorem liquidate_unsafe (h : Good w) {maxRepay value : ℕ} (bound : w.engine.bound = true)
    (known : sender ≠ 0) (other : sender ≠ w.self) (priced : price w = .ok value)
    (owes : (settled (w.position b) w).debt ≠ 0) (backed : (w.position b).collateral ≠ 0)
    (exposed : safe (w.position b).collateral (settled (w.position b) w).debt value
      w.cfg.liquidationLtvBps = false)
    (offers : (settled (w.position b) w).debt ≤ maxRepay)
    (allowed : (settled (w.position b) w).debt ≤ w.usdg.allowance sender w.self)
    (held : (settled (w.position b) w).debt ≤ w.usdg.balanceOf sender) :
    ∃ w' n m, liquidate sender b maxRepay 0 w = .ok (w', n, m) := by
  obtain ⟨n, m, quoted, -⟩ :=
    @liquidationQuote_exposed w.cfg _ _ _ _ (price_pos priced) owes backed exposed offers
  obtain ⟨-, outcome⟩ := liquidationQuote_spec (price_pos priced) quoted
  have position := settle_position b w
  have within : n ≤ ((settle b w).position b).debt := position ▸ outcome.paid_le
  have seizable : m ≤ ((settle b w).position b).collateral := position ▸ outcome.seized_le
  have fits := outcome.paid_le
  have meaningful : m = ((settle b w).position b).collateral ∨ n = ((settle b w).position b).debt ∨
      n + (settle b w).cfg.minimumDebt ≤ ((settle b w).position b).debt := by
    rw [position]
    by_cases everything : m = (settled (w.position b) w).collateral
    · exact .inl everything
    by_cases all : n = (settled (w.position b) w).debt
    · exact .inr (.inl all)
    have rest := outcome.rest (by omega) (lt_of_le_of_ne outcome.seized_le everything)
    rw [settle_cfg]
    exact .inr (.inr (by omega))
  obtain ⟨v, repaid⟩ := repayPosition_funded (h.settle b) other outcome.paid_pos within
    (fits.trans allowed) (fits.trans held)
  obtain ⟨left, q, capital, active, count, log, done, cfg_eq, -⟩ := liquidate_conclude (h.settle b)
    (settle_current b w) bound outcome.paid_pos within seizable meaningful repaid
  obtain ⟨x, short, finished⟩ := (bind_eq_ok ..).mp done
  have custody : ((settle b w).position b).collateral ≤ w.collateral.balanceOf w.self := by
    rw [position]
    exact (le_sum (fun a => ((book w).loan a).collateral) b).trans h.book_sound.held
  have self : (rebooked b q capital (settle b w).collateral active count log (settle b w)).self =
      w.self := congrArg IsolatedPool.Config.creditEngine cfg_eq
  obtain ⟨z, sent⟩ := sendCollateral_accepts (w := rebooked b q capital (settle b w).collateral active
    count log (settle b w)) known (self ▸ other) (n := m) (self.symm ▸ seizable.trans custody)
  refine ⟨z.emit (.liquidated b sender n m), n, m, ?_⟩
  simp only [liquidate, requirePool, bind_eq_ok, revertIf_eq_ok, exists_const, pure_eq_ok,
    Prod.exists, Prod.mk.injEq, Bool.not_eq_false]
  refine ⟨bound, value, priced, n, m, ?_, Nat.not_lt_zero m, v, repaid, _, left, x, short, _, finished,
    z, sent, rfl, rfl, rfl⟩
  rw [position]
  exact quoted

/-! ### The contract of a liquidation -/

/-- What a liquidation promises to both sides, and when there is one. The bonus exceeds what was
paid by no more than one micro-USDG, or by one wei where a wei is worth more. -/
theorem liquidation_contract :
    (∀ (cfg : Config) (collateral debt value maxRepay paid seized : ℕ), 0 < value →
      liquidationQuote cfg collateral debt value maxRepay = .ok (paid, seized) →
      1 ≤ paid ∧ paid ≤ min maxRepay debt ∧ 1 ≤ seized ∧ seized ≤ collateral ∧
      seized ≤ collateralForPayment cfg.bonusBps (paid + 1) value ∧
      (value ≤ unitWorth cfg.bonusBps →
        seized < collateralForPayment cfg.bonusBps (paid + 1) value) ∧
      ExactlyOne (paid = debt) (paid < debt ∧ seized = collateral)
        (cfg.minimumDebt ≤ debt - paid ∧
          collateralForPayment cfg.bonusBps cfg.minimumDebt value ≤ collateral - seized)) ∧
    (∀ (cfg : Config) (collateral debt value maxRepay : ℕ), 0 < value → debt ≠ 0 →
      collateral ≠ 0 → safe collateral debt value cfg.liquidationLtvBps = false → debt ≤ maxRepay →
      ∃ paid seized, liquidationQuote cfg collateral debt value maxRepay = .ok (paid, seized) ∧
        (cfg.minimumDebt ≤ debt →
          collateralForPayment cfg.bonusBps cfg.minimumDebt value ≤ collateral →
          cfg.minimumDebt ≤ paid ∧ collateralForPayment cfg.bonusBps paid value ≤ seized)) ∧
    (∀ (w w' : World) (sender b : Address) (maxRepay minCollateral n m : ℕ), Reachable w →
      liquidate sender b maxRepay minCollateral w = .ok (w', n, m) →
      ∃ value, price w = .ok value ∧ 0 < value ∧ Liquidated b value maxRepay n m w w' ∧
        ExactlyOne (n = (settled (w.position b) w).debt ∧ (w'.position b).debt = 0)
          (n < (settled (w.position b) w).debt ∧ (w'.position b).collateral = 0 ∧
            (w'.position b).debt = 0)
          (w.cfg.minimumDebt ≤ (w'.position b).debt ∧
            collateralForPayment w.cfg.bonusBps w.cfg.minimumDebt value ≤
              (w'.position b).collateral)) ∧
    (∀ (w : World) (sender b : Address) (maxRepay value : ℕ), Reachable w → w.engine.bound = true →
      sender ≠ 0 → sender ≠ w.self → price w = .ok value → (settled (w.position b) w).debt ≠ 0 →
      (w.position b).collateral ≠ 0 →
      safe (w.position b).collateral (settled (w.position b) w).debt value
        w.cfg.liquidationLtvBps = false →
      (settled (w.position b) w).debt ≤ maxRepay →
      (settled (w.position b) w).debt ≤ w.usdg.allowance sender w.self →
      (settled (w.position b) w).debt ≤ w.usdg.balanceOf sender →
      ∃ w' n m, liquidate sender b maxRepay 0 w = .ok (w', n, m)) := by
  refine ⟨fun cfg collateral debt value maxRepay paid seized positive done => ?_,
    fun cfg collateral debt value maxRepay positive owes backed exposed offers => ?_,
    fun w w' sender b maxRepay minCollateral n m reachable done => ?_,
    fun w sender b maxRepay value reachable bound known other priced => ?_⟩
  · obtain ⟨below, outcome⟩ := liquidationQuote_spec positive done
    obtain ⟨bonus, fine⟩ := outcome.lt_succ positive
    exact ⟨outcome.paid_pos, le_min below outcome.paid_le, outcome.seized_pos, outcome.seized_le,
      bonus, fine, outcome.ends positive cfg.minimumDebt_ne_zero⟩
  · obtain ⟨paid, seized, done, each⟩ :=
      liquidationQuote_exposed positive owes backed exposed offers
    exact ⟨paid, seized, done, each _ cfg.minimumDebt_ne_zero⟩
  · obtain ⟨value, priced, ended⟩ := liquidate_spec reachable.good done
    have positive := price_pos priced
    obtain ⟨-, outcome⟩ := liquidationQuote_spec positive ended.quoted
    have minimum := w.cfg.minimumDebt_ne_zero
    have collateral := ended.collateral
    have debt := ended.debt
    have reserve : 0 < collateralForPayment w.cfg.bonusBps w.cfg.minimumDebt value :=
      collateralForPayment_pos positive (Nat.pos_of_ne_zero minimum)
    refine ⟨value, priced, positive, ended, ?_⟩
    rcases outcome.ends positive minimum with ⟨all, -, -⟩ | ⟨part, ⟨less, everything⟩, -⟩ |
      ⟨part, kept, debt_left, collateral_left⟩
    · have none : (w'.position b).debt = 0 := by
        split at debt <;> omega
      exact .inl ⟨⟨all, none⟩, fun other => by omega, fun other => by omega⟩
    · rw [if_pos everything] at debt
      rw [everything, Nat.sub_self] at collateral
      exact .inr (.inl ⟨fun other => part other.1, ⟨less, collateral, debt⟩, fun other => by omega⟩)
    · have stays : m ≠ (settled (w.position b) w).collateral := fun same => by omega
      rw [if_neg stays] at debt
      refine .inr (.inr ⟨fun other => part other.1, fun other => by omega, ?_, ?_⟩)
      · rwa [debt]
      · rwa [collateral]
  · exact liquidate_unsafe reachable.good bound known other priced

/-! ### Partial liquidations in a row -/

/-- The collateral and the debt of a position now. -/
def owing (b : Address) (w : World) : ℕ × ℕ :=
  ((settled (w.position b) w).collateral, (settled (w.position b) w).debt)

/-- A partial liquidation of `b`, by anyone. -/
def partially (b : Address) (w : World) (l : ℕ × ℕ) (w' : World) : Prop :=
  (∃ sender maxRepay minCollateral,
    liquidate sender b maxRepay minCollateral w = .ok (w', l.1, l.2)) ∧
    l.1 < (owing b w).2 ∧ l.2 < (owing b w).1

def quotes (cfg : Config) (value : ℕ) (collateral debt maxRepay : ℕ) (l : ℕ × ℕ) : Prop :=
  liquidationQuote cfg collateral debt value maxRepay = .ok l

theorem settled_current {p : Position} (current : p.updatedAt = w.now)
    (remainder : p.remainder < DENOMINATOR) : settled p w = p := by
  have none : interest p w = (0, p.remainder) := by
    rw [interest, current, Nat.sub_self, Nat.zero_mul]
    exact carry_zero remainder (Nat.mul_zero _)
  rw [settled, none]
  cases p
  simp_all

/-- A liquidation of the engine is one of the position, and leaves the position settled. -/
theorem partially_spec (h : Good w) {value : ℕ} (priced : price w = .ok value) {l : ℕ × ℕ}
    (step : partially b w l w') :
    PartialLiquidation (quotes w.cfg value) (owing b w) l (owing b w') ∧ Good w' ∧
      SameMarket w w' := by
  obtain ⟨⟨sender, maxRepay, minCollateral, done⟩, less, some_left⟩ := step
  obtain ⟨value', priced', ended⟩ := liquidate_spec h done
  obtain rfl : value = value' := Except.ok.inj (priced.symm.trans priced')
  have left : l.2 ≠ (settled (w.position b) w).collateral := Nat.ne_of_lt some_left
  have debt := ended.debt
  rw [if_neg left] at debt
  have same : settled (w'.position b) w' = w'.position b :=
    settled_current (ended.updatedAt.trans ended.now.symm) ended.remainder
  refine ⟨⟨⟨maxRepay, ended.quoted⟩, less, some_left, ?_⟩, (liquidate_step h done).good h,
    ended.toSameMarket⟩
  rw [owing, same, ended.collateral, debt]
  rfl

theorem partially_run (h : Good w) {value : ℕ} (priced : price w = .ok value)
    {parts : List (ℕ × ℕ)} (run : Run (partially b) w parts w') :
    Run (PartialLiquidation (quotes w.cfg value)) (owing b w) parts (owing b w') := by
  induction run with
  | nil w => exact .nil _
  | @cons w u w' l parts first rest ih =>
    obtain ⟨step, good, market⟩ := partially_spec h priced first
    have later := ih good (market.price.trans priced)
    rw [market.cfg] at later
    exact .cons step later

/-! The sample market after its price has fallen to seventy cents. -/

def droppedFeed : Feed := ⟨some 18, some ⟨2, 7 * 10 ^ 17, 1000, 2⟩⟩

def dropped : World := reached sample (exec (.feeds droppedFeed droppedFeed) sample)

theorem dropped_reachable : Reachable dropped := by
  obtain ⟨start, ops, deployed, run⟩ := sample_reachable
  exact ⟨start, _, deployed, run.snoc (eq_ok_reached _ (by decide +kernel))⟩

theorem dropped_liquidation_contract : ∃ w' n m,
    liquidate 4 3 (10 ^ 9) 0 dropped = .ok (w', n, m) ∧
      ∃ value, price dropped = .ok value ∧ Liquidated 3 value (10 ^ 9) n m dropped w' := by
  obtain ⟨-, -, outcome, accepts⟩ := liquidation_contract
  obtain ⟨w', n, m, done⟩ := accepts dropped 4 3 (10 ^ 9) (7 * 10 ^ 17) dropped_reachable
    (by decide +kernel) (by decide +kernel) (by decide +kernel) (by decide +kernel) (by decide +kernel)
    (by decide +kernel) (by decide +kernel) (by decide +kernel) (by decide +kernel)
    (by decide +kernel)
  obtain ⟨value, priced, -, ended, -⟩ := outcome dropped w' 4 3 (10 ^ 9) 0 n m dropped_reachable done
  exact ⟨w', n, m, done, value, priced, ended⟩

/-- A market of a token with few, precious units. -/
def preciousCfg : Config :=
  { sampleConfig with
    staleness := 1
    maxLtvBps := 7000
    liquidationLtvBps := 8000
    bonusBps := 1000
    minimumDebt := 1
    staleness_ne_zero := Nat.one_ne_zero
    maxLtv_ne_zero := by decide
    maxLtv_lt := by decide
    liquidationLtv_lt := by decide
    bonus_le := by decide
    minimumDebt_ne_zero := Nat.one_ne_zero
    bonus_room := by decide }

/-- A wei that is worth more than a micro-USDG is taken whole. -/
theorem precious_seizure :
    liquidationQuote preciousCfg 12 100 (10 ^ 31) 89 = .ok (89, 10) ∧
      ¬10 < collateralForPayment preciousCfg.bonusBps (89 + 1) (10 ^ 31) :=
  ⟨by decide +kernel, by decide +kernel⟩

end Turret.IsolatedEngine
