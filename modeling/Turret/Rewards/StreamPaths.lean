import Turret.Library.StreamShare
import Turret.Rewards.StreamRuns

/-! A reward stream refines a share that only time, stakes and fundings move. A
claim, whenever it is made, is an advance in time that the next one contains. -/

namespace Turret.RewardStream

open Execution Finset Function Rounding Uint256

variable {w w' : World} {a : Address} {amount : ℕ} {token : TokenLedger Address} {t : ℤ}

/-- The decay of a stream. -/
def Config.decay (cfg : Config) : Decay where
  left reserve active := reserve * (cfg.retention active.toNat : ℤ) / (RAY : ℤ)
  parts := PARTS

def share (w : World) : StreamShare Address where
  time := w.lastUpdate
  active := w.activeSeconds
  total := w.totalStaked
  weight a := w.stakedBalance a
  index := w.storedRewardPerToken
  remainder := w.indexRemainder
  reserve := w.anchorReserveRay
  anchor := w.anchorActiveSeconds
  released := w.accountedAnchorReleaseRay
  worth a := ((claims w a).worth w.storedRewardPerToken : ℕ)

/-! ### The present -/

theorem share_activeAt (h : Steady w) : (share w).activeAt w.now = activeAt w := by
  have updated := h.updated_le
  simp only [StreamShare.activeAt, share, activeAt, Nat.cast_eq_zero]
  split_ifs
  · rfl
  · push_cast [Nat.cast_sub updated]
    ring

theorem share_remainingAt (h : Steady w) :
    (share w).remainingAt w.cfg.decay w.now = remainingNow w := by
  have grown := h.anchored_le.trans le_activeAt
  have elapsed : ((activeAt w : ℤ) - w.anchorActiveSeconds).toNat =
      activeAt w - w.anchorActiveSeconds := by omega
  rw [StreamShare.remainingAt, share_activeAt h]
  simp only [Config.decay, share, elapsed, remainingNow, remainingAt, mulDiv]
  push_cast
  rfl

theorem share_emission (h : Steady w) (balanced : Balanced w) :
    (share w).emission w.cfg.decay w.now = emissionNow w := by
  rw [StreamShare.emission, share_remainingAt h]
  rw [Balanced] at balanced
  simp only [share]
  omega

theorem share_numerator (h : Steady w) (balanced : Balanced w) :
    (share w).numerator w.cfg.decay w.now = numeratorNow w := by
  rw [StreamShare.numerator, share_emission h balanced, numeratorNow]
  simp only [Config.decay, share]
  push_cast
  rfl

/-- An accrual advances the share to the present. -/
theorem share_advanced (h : Steady w) (balanced : Balanced w) :
    share (advanced w) = (share w).advance w.cfg.decay w.now := by
  have active := share_activeAt h
  have numerator := share_numerator h balanced
  have emission := share_emission h balanced
  refine StreamShare.ext rfl active.symm rfl rfl ?_ ?_ rfl rfl ?_ (funext fun a => ?_)
  · simp only [StreamShare.advance, numerator]
    simp only [share, advanced]
    push_cast
    rfl
  · simp only [StreamShare.advance, numerator]
    simp only [share, advanced]
    push_cast
    rfl
  · simp only [StreamShare.advance, emission]
    simp only [share, advanced]
    push_cast
    rfl
  · simp only [StreamShare.advance, numerator]
    simp only [share, claims_advanced, advanced_index]
    rw [IndexClaim.worth_add (c := claims w a) (h.paid_le a)]
    push_cast
    rfl

/-- A checkpoint settles an account, which is worth the same after it. -/
theorem share_checkpointed (a : Address) (w : World) :
    share (checkpointed a w) = share (advanced w) := by
  have worth (b : Address) : (claims (checkpointed a w) b).worth
      (checkpointed a w).storedRewardPerToken =
        (claims (advanced w) b).worth (advanced w).storedRewardPerToken := by
    rw [claims_checkpointed]
    by_cases hb : b = a
    · rw [hb, update_self]
      exact IndexClaim.worth_settle
    · rw [update_of_ne hb]
      rfl
  exact StreamShare.ext rfl rfl rfl rfl rfl rfl rfl rfl rfl (funext fun b => by
    simp only [share, worth])

theorem share_afterClaim (a : Address) (token : TokenLedger Address) (w : World) :
    share (afterClaim a token w) = share (advanced w) := by
  rw [← share_checkpointed a w]
  exact StreamShare.ext rfl rfl rfl rfl rfl rfl rfl rfl rfl (funext fun b => by
    simp only [share, claims_afterClaim]
    rfl)

/-- A change of stake after a checkpoint. -/
theorem share_restaked {staked total : ℕ} {change : ℤ}
    (current : w.paidPerToken a = w.storedRewardPerToken)
    (moved : (staked : ℤ) = w.stakedBalance a + change) (sum : (total : ℤ) = w.totalStaked + change) :
    share (restaked a staked total w) = (share w).apply (.weigh a change) := by
  refine StreamShare.ext rfl rfl sum (funext fun b => ?_) rfl rfl rfl rfl rfl (funext fun b => ?_)
  · simp only [share, restaked, StreamShare.apply]
    by_cases hb : b = a
    · rw [hb, update_self, update_self]
      exact moved
    · rw [update_of_ne hb, update_of_ne hb]
  · simp only [share, claims_restaked, StreamShare.apply]
    by_cases hb : b = a
    · rw [hb, update_self, restaked, current, IndexClaim.worth_of_paid, IndexClaim.worth]
      simp only [claims, current, Nat.sub_self, Nat.mul_zero, Nat.add_zero]
    · rw [update_of_ne hb]
      rfl

theorem share_afterStake (h : Steady w) (balanced : Balanced w) (a : Address) (amount : ℕ)
    (token : TokenLedger Address) :
    share (afterStake a amount token w) =
      ((share w).advance w.cfg.decay w.now).apply (.weigh a amount) := by
  rw [← share_advanced h balanced, ← share_checkpointed a w]
  exact share_restaked (checkpointed_current a w) (Nat.cast_add ..) (Nat.cast_add ..)

theorem share_afterUnstake (h : Steady w) (balanced : Balanced w)
    (within : amount ≤ w.stakedBalance a) (token : TokenLedger Address) :
    share (afterUnstake a amount token w) =
      ((share w).advance w.cfg.decay w.now).apply (.weigh a (-amount)) := by
  have part := le_sum w.stakedBalance a
  have total : amount ≤ w.totalStaked := (within.trans part).trans h.staked_eq.ge
  rw [← share_advanced h balanced, ← share_checkpointed a w]
  exact share_restaked (checkpointed_current a w) (Nat.cast_sub within) (Nat.cast_sub total)

/-- A new anchor. -/
theorem share_anchored {reserve : ℕ} {change : ℤ}
    (moved : (reserve : ℤ) = w.anchorReserveRay - w.accountedAnchorReleaseRay + change) :
    share (anchored reserve w) = (share w).apply (.fund change) :=
  StreamShare.ext rfl rfl rfl rfl rfl rfl moved rfl rfl rfl

theorem share_afterFunding (h : Steady w) (balanced : Balanced w) (amount : ℕ)
    (token : TokenLedger Address) :
    share (afterFunding amount token w) =
      ((share w).advance w.cfg.decay w.now).apply (.fund (amount * RAY : ℕ)) := by
  rw [← share_advanced h balanced]
  refine share_anchored (w := { advanced w with
    rewardToken := token, totalFunded := w.totalFunded + amount }) ?_
  rw [Balanced] at balanced
  simp only [advanced]
  omega

theorem share_afterRecovery (h : Steady w) (balanced : Balanced w)
    (within : amount * RAY ≤ remainingNow w) (token : TokenLedger Address) :
    share (afterRecovery amount token w) =
      ((share w).advance w.cfg.decay w.now).apply (.fund (-(amount * RAY : ℕ))) := by
  rw [← share_advanced h balanced]
  refine share_anchored (w := { advanced w with rewardToken := token }) ?_
  rw [Balanced] at balanced
  simp only [advanced]
  omega

/-! ### What the views show -/

theorem rewardPerToken_ok (h : Steady w) {index : ℕ} (done : rewardPerToken w = .ok index) :
    index = (advanced w).storedRewardPerToken ∧
      (index : ℤ) = ((share w).advance w.cfg.decay w.now).index := by
  rw [rewardPerToken] at done
  by_cases none : w.totalStaked = 0
  · rw [if_pos none] at done
    obtain rfl := Except.ok.inj done
    refine ⟨by rw [advanced_index, none, Nat.div_zero, Nat.add_zero], ?_⟩
    simp only [StreamShare.advance, share, none, Nat.cast_zero, Int.ediv_zero, add_zero]
  · rw [if_neg none] at done
    simp only [bind_eq_ok, checkedMul_eq_ok, checkedAdd_eq_ok] at done
    obtain ⟨stream, first, -, ⟨-, rfl⟩, -, ⟨-, rfl⟩, -, rfl⟩ := done
    obtain ⟨rfl, balanced⟩ := streamNow_ok first
    have same : w.storedRewardPerToken +
        (emissionNow w * PARTS + w.indexRemainder) / w.totalStaked =
          (advanced w).storedRewardPerToken := by
      rw [advanced_index, numeratorNow, Nat.mul_comm PARTS]
    refine ⟨same, ?_⟩
    rw [← share_advanced h balanced]
    exact congrArg _ same

theorem reserveRay_ok (h : Steady w) {reserve : ℕ} (done : reserveRay w = .ok reserve) :
    (reserve : ℤ) = (share w).remainingAt w.cfg.decay w.now := by
  simp only [reserveRay, bind_eq_ok, pure_eq_ok] at done
  obtain ⟨stream, first, rfl⟩ := done
  obtain ⟨rfl, -⟩ := streamNow_ok first
  exact (share_remainingAt h).symm

/-- What an account was paid and has earned is the whole units of what it is worth. -/
theorem earned_ok (h : Steady w) {n : ℕ} (done : earned a w = .ok n) :
    ((w.claimed a + n : ℕ) : ℤ) = ((share w).advance w.cfg.decay w.now).worth a / (SCALE : ℤ) := by
  simp only [earned, bind_eq_ok, pure_eq_ok, Prod.exists] at done
  obtain ⟨index, first, whole, fraction, second, rfl⟩ := done
  obtain ⟨same, shown⟩ := rewardPerToken_ok h first
  have settled := settlement_ok second
  have exact := settled_exact index a w
  have small := settled_snd_lt index a w
  rw [← settled] at exact small
  have worth : ((share w).advance w.cfg.decay w.now).worth a = ((claims w a).worth index : ℕ) := by
    have growth : (index : ℤ) = w.storedRewardPerToken +
        (share w).numerator w.cfg.decay w.now / (share w).total := shown
    have grown : w.storedRewardPerToken ≤ index := by
      rw [same, advanced_index]
      exact Nat.le_add_right ..
    obtain ⟨d, rfl⟩ := Nat.exists_eq_add_of_le grown
    have step : (share w).numerator w.cfg.decay w.now / (share w).total = d := by
      push_cast at growth
      linarith
    simp only [StreamShare.advance, step]
    rw [IndexClaim.worth_add (h.paid_le a)]
    simp only [share]
    push_cast
    rfl
  rw [worth, ← exact, Nat.add_comm (w.claimed a), ← Int.natCast_ediv]
  congr 1
  simp only at exact small ⊢
  rw [Nat.mul_add_div SCALE_pos, Nat.div_eq_of_lt small, Nat.add_zero]

end Turret.RewardStream
