import Turret.Rewards.RecoverableStaking
import Turret.Rewards.RecoverableSolvency

/-! A recovery takes back subsidy only. What the fees brought is the reserve
less the subsidy: at one moment only a distribution of fees moves it, and with
time it decays no faster than it would alone. -/

namespace Turret.RewardStream

open Execution Function Rounding

variable {w : World} {a : Address} {amount : ℕ} {token : TokenLedger Address}

/-! ### Right after an accrual -/

theorem activeAt_updated (h : w.lastUpdate = w.now) : activeAt w = w.activeSeconds := by
  rw [activeAt, h, Nat.sub_self, Nat.add_zero, ite_self]

theorem remainingNow_updated (h : w.lastUpdate = w.now) :
    remainingNow w = remainingAt w.activeSeconds w := by
  rw [remainingNow, activeAt_updated h]

theorem remainingNow_anchored (h : w.lastUpdate = w.now) (zero : w.cfg.retention 0 = RAY)
    (reserve : ℕ) : remainingNow (anchored reserve w) = reserve := by
  rw [remainingNow_updated (w := anchored reserve w) h]
  simp only [remainingAt, anchored, Nat.sub_self, zero, mulDiv]
  exact Nat.mul_div_cancel _ RAY_pos

/-- What is earned when nothing is emitted. -/
theorem earnedNow_still (h : Steady w) (still : emissionNow w = 0) (a : Address) :
    earnedNow a w = (settled w.storedRewardPerToken a w).1 := by
  rw [earnedNow, advanced_index, (h.no_emission still).1, Nat.add_zero]

theorem earnedNow_afterRecovery (h : Steady (afterRecovery amount token w))
    (zero : w.cfg.retention 0 = RAY) (a : Address) :
    earnedNow a (afterRecovery amount token w) = earnedNow a w := by
  have left := remainingNow_anchored (w := { advanced w with rewardToken := token }) rfl zero
    (remainingNow w - amount * RAY)
  have still : emissionNow (afterRecovery amount token w) = 0 := by
    rw [emissionNow, afterRecovery, left]
    simp only [anchored, Nat.sub_self]
  exact earnedNow_still h still a

end Turret.RewardStream

namespace Turret.RecoverableStaking

open Execution Finset Function Rounding Uint256
open RewardStream (Error RAY Steady Sound remainingNow remainingAt emissionNow earnedNow activeAt
  afterFunding afterRecovery activeAt_updated RAY_pos)

variable {w w' : World} {sender : Address} {amount : ℕ}

/-- The part of the unreleased reserve that fees have funded. -/
def feesNow (w : World) : ℕ := remainingNow w.stream - subsidyNow w

/-- The part of a decaying amount that is not of a given part of it decays like itself, up to one. -/
theorem mulDiv_sub_bounds {a s r c : ℕ} (part : s ≤ a) :
    mulDiv (a - s) r c ≤ mulDiv a r c - mulDiv s r c ∧
      mulDiv a r c - mulDiv s r c ≤ mulDiv (a - s) r c + 1 := by
  obtain ⟨d, rfl⟩ := Nat.exists_eq_add_of_le part
  have below : s * r / c + d * r / c ≤ (s * r + d * r) / c := Nat.div_add_div_le_add_div ..
  have above : (s * r + d * r) / c ≤ s * r / c + d * r / c + 1 := by
    rcases Nat.eq_zero_or_pos c with rfl | pos
    · simp
    · rw [Nat.add_div pos]
      split_ifs <;> omega
  rw [Nat.add_sub_cancel_left, mulDiv, mulDiv, mulDiv, Nat.add_mul]
  generalize s * r / c = x at *
  generalize d * r / c = y at *
  omega

theorem Solvent.fees_decay (h : Solvent w) :
    mulDiv (w.stream.anchorReserveRay - w.anchorSubsidyRay)
        (w.stream.cfg.retention (activeAt w.stream - w.stream.anchorActiveSeconds)) RAY ≤
      feesNow w ∧
      feesNow w ≤ mulDiv (w.stream.anchorReserveRay - w.anchorSubsidyRay)
        (w.stream.cfg.retention (activeAt w.stream - w.stream.anchorActiveSeconds)) RAY + 1 :=
  mulDiv_sub_bounds h.subsidy_le

/-! ### The fees at one moment -/

theorem subsidyNow_updated (h : w.stream.lastUpdate = w.stream.now) :
    subsidyNow w = mulDiv w.anchorSubsidyRay
      (w.stream.cfg.retention (w.stream.activeSeconds - w.stream.anchorActiveSeconds)) RAY := by
  rw [subsidyNow, activeAt_updated h]

/-- A call that accrues and leaves the anchor. -/
theorem feesNow_of_accrual {stream : RewardStream.World} (cfg : stream.cfg = w.stream.cfg)
    (updated : stream.lastUpdate = stream.now) (active : stream.activeSeconds = activeAt w.stream)
    (reserve : stream.anchorReserveRay = w.stream.anchorReserveRay)
    (anchor : stream.anchorActiveSeconds = w.stream.anchorActiveSeconds) :
    feesNow { w with stream } = feesNow w := by
  rw [feesNow, feesNow, subsidyNow_updated (w := { w with stream }) updated,
    RewardStream.remainingNow_updated updated, remainingAt]
  simp only [cfg, active, reserve, anchor]
  rfl

/-- A call that moves the anchor. -/
theorem feesNow_of_anchor (zero : w.stream.cfg.retention 0 = RAY)
    (updated : w.stream.lastUpdate = w.stream.now)
    (anchor : w.stream.anchorActiveSeconds = w.stream.activeSeconds) :
    feesNow w = w.stream.anchorReserveRay - w.anchorSubsidyRay := by
  rw [feesNow, subsidyNow_updated updated, RewardStream.remainingNow_updated updated, remainingAt]
  simp only [anchor, Nat.sub_self, zero, mulDiv, Nat.mul_div_cancel _ RAY_pos]

/-- What an operation adds to the part of the fees. -/
def Op.fees : Op → ℕ
  | .distribute _ amount => amount * RAY
  | _ => 0

/-- Time alone lets the fees decay. -/
def Op.atOnce : Op → Prop
  | .elapse .. => False
  | _ => True

theorem Solvent.fees_kept {op : Op} (h : Solvent w) (atOnce : op.atOnce)
    (done : RecoverableStaking.exec op w = .ok w') : feesNow w' = feesNow w + op.fees := by
  have steady := h.sound.toSteady
  have zero := h.sound.decays.zero
  have part := h.subsidyNow_le_remaining
  simp only [RecoverableStaking.exec, bind_eq_ok, revertIf_eq_ok, exists_const] at done
  obtain ⟨-, done⟩ := done
  cases op with
  | stake sender amount =>
    simp only [onStream, bind_eq_ok, pure_eq_ok] at done
    obtain ⟨stream, called, rfl⟩ := done
    obtain ⟨-, -, token, -, rfl⟩ := RewardStream.stake_ok steady called
    exact feesNow_of_accrual rfl rfl rfl rfl rfl
  | unstake sender amount =>
    simp only [onStream, bind_eq_ok, pure_eq_ok] at done
    obtain ⟨stream, called, rfl⟩ := done
    obtain ⟨-, -, token, -, rfl⟩ := RewardStream.unstake_ok steady called
    exact feesNow_of_accrual rfl rfl rfl rfl rfl
  | claim sender =>
    simp only [onStream, bind_eq_ok, pure_eq_ok] at done
    obtain ⟨stream, called, rfl⟩ := done
    obtain ⟨-, token, rfl, -⟩ := RewardStream.claim_ok steady called
    exact feesNow_of_accrual rfl rfl rfl rfl rfl
  | distribute sender amount =>
    obtain ⟨-, -, token, -, rfl⟩ := fund_result steady done
    rw [feesNow_of_anchor (w := afterFund amount _ token w) zero rfl rfl]
    simp only [afterFund, afterFunding, RewardStream.anchored, Op.fees, feesNow]
    simp only [Bool.false_eq_true, if_false, Nat.zero_mul, Nat.add_zero]
    omega
  | distributeSubsidy sender amount =>
    obtain ⟨-, -, token, -, rfl⟩ := fund_result steady done
    rw [feesNow_of_anchor (w := afterFund amount _ token w) zero rfl rfl]
    simp only [afterFund, afterFunding, RewardStream.anchored, Op.fees, feesNow]
    simp only [if_true, Nat.add_zero]
    exact Nat.add_sub_add_right ..
  | recoverSubsidy sender amount =>
    obtain ⟨⟨-, -, within, -⟩, -, token, -, rfl⟩ := recoverSubsidy_result steady done
    rw [feesNow_of_anchor (w := afterRecover amount token w) zero rfl rfl]
    simp only [afterRecover, afterRecovery, RewardStream.anchored, Op.fees, feesNow]
    omega
  | stakingToken call =>
    simp only [onStream, RewardStream.callStakingToken, bind_eq_ok, pure_eq_ok] at done
    obtain ⟨_, ⟨token, -, rfl⟩, rfl⟩ := done
    rfl
  | rewardToken call =>
    simp only [onStream, RewardStream.callRewardToken, bind_eq_ok, pure_eq_ok] at done
    obtain ⟨_, ⟨token, -, rfl⟩, rfl⟩ := done
    rfl
  | elapse seconds blocks => exact atOnce.elim

/-- The part of the fees, as the views show it. -/
def unreleasedFees (w : World) : Except Error ℕ := do
  let reserve ← RewardStream.reserveRay w.stream
  let subsidy ← subsidyReserveRay w
  checkedSub reserve subsidy .panic

theorem Solvent.unreleasedFees_eq (h : Solvent w) : unreleasedFees w = .ok (feesNow w) := by
  simp only [unreleasedFees, h.sound.reserveRay_eq, h.subsidyReserveRay_eq, ok_bind,
    checkedSub_eq_ok]
  exact ⟨h.subsidyNow_le_remaining, rfl⟩

/-! ### What subsidies have brought -/

def Op.subsidized : Op → ℕ
  | .distributeSubsidy _ amount => amount
  | _ => 0

theorem exec_subsidies {op : Op} (done : exec op w = .ok w') :
    w'.totalSubsidies = w.totalSubsidies + op.subsidized := by
  have onStream_kept {call : RewardStream.World → Except Error RewardStream.World}
      (called : onStream call w = .ok w') : w'.totalSubsidies = w.totalSubsidies := by
    rw [(onStream_ok called).2]
  simp only [exec, bind_eq_ok, revertIf_eq_ok, exists_const] at done
  obtain ⟨-, done⟩ := done
  cases op with
  | stake sender amount => exact onStream_kept done
  | unstake sender amount => exact onStream_kept done
  | claim sender => exact onStream_kept done
  | distribute sender amount => exact congrArg Counters.totalSubsidies (fund_ok done).2.2.1
  | distributeSubsidy sender amount => exact congrArg Counters.totalSubsidies (fund_ok done).2.2.1
  | recoverSubsidy sender amount =>
    exact congrArg Counters.totalSubsidies (recoverSubsidy_ok done).2.2.1
  | stakingToken call => exact onStream_kept done
  | rewardToken call => exact onStream_kept done
  | elapse seconds blocks => exact onStream_kept done

theorem run_subsidies {w₀ : World} {ops : List Op} (h : Deployed w₀)
    (run : Run (accepts exec) w₀ ops w) : w.totalSubsidies = (ops.map Op.subsidized).sum := by
  refine run.history (fun ops w => w.totalSubsidies = (ops.map Op.subsidized).sum)
    (fun before s op t kept step => ?_) h.subsidies_eq
  rw [exec_subsidies step, kept, List.map_append, List.sum_append, List.map_singleton,
    List.sum_singleton]

/-! ### Recoveries -/

namespace Solvent

variable (h : Solvent w)

include h

theorem recoverableSubsidy_eq : recoverableSubsidy w = .ok (subsidyNow w / RAY) := by
  rw [recoverableSubsidy, h.subsidyReserveRay_eq, ok_bind]
  rfl

theorem nothing_recoverable (none : w.totalSubsidies = 0) :
    recoverableSubsidy w = .ok 0 ∧ ∀ sender amount w',
      RecoverableStaking.exec (.recoverSubsidy sender amount) w ≠ .ok w' := by
  have funded := h.subsidy_funded
  rw [none, Nat.zero_mul] at funded
  have left : subsidyNow w = 0 := Nat.eq_zero_of_le_zero (h.subsidyNow_le.trans (by omega))
  refine ⟨by rw [h.recoverableSubsidy_eq, left, Nat.zero_div], fun sender amount w' done => ?_⟩
  simp only [RecoverableStaking.exec, bind_eq_ok, revertIf_eq_ok, exists_const] at done
  obtain ⟨⟨-, some, within, -⟩, -⟩ := recoverSubsidy_result h.sound.toSteady done.2
  rw [left] at within
  have product := Nat.eq_zero_of_le_zero within
  exact (Nat.mul_eq_zero.mp product).elim some RAY_pos.ne'

/-- What a claim pays is what the account has earned. -/
theorem claim_pays {a : Address} (apart : a ≠ w.self) :
    ∃ v, RecoverableStaking.exec (.claim a) w = .ok v ∧
      v.stream.claimed a = w.stream.claimed a + earnedNow a w.stream := by
  obtain ⟨v, done⟩ := h.claim_succeeds apart
  refine ⟨v, done, ?_⟩
  simp only [RecoverableStaking.exec, bind_eq_ok, revertIf_eq_ok, exists_const, onStream,
    pure_eq_ok] at done
  obtain ⟨-, stream, called, rfl⟩ := done
  obtain ⟨-, token, rfl, -⟩ := RewardStream.claim_ok h.sound.toSteady called
  simp only [RewardStream.afterClaim, update_self]

end Solvent

/-- A recovery is of subsidy not released yet, goes to the treasury, and takes nothing that any
account has earned. -/
theorem recovers_subsidy_only {w₀ w : World} {ops : List Op} (h : Deployed w₀)
    (decays : w₀.stream.cfg.Decays) (run : Run (accepts exec) w₀ ops w) :
    w.totalRecovered ≤ (ops.map Op.subsidized).sum ∧
      ((∀ op ∈ ops, op.subsidized = 0) → recoverableSubsidy w = .ok 0 ∧
        ∀ sender amount w', exec (.recoverSubsidy sender amount) w ≠ .ok w') ∧
      (∃ fees retention, unreleasedFees w = .ok fees ∧
        RewardStream.retentionNow w.stream = .ok retention ∧
        mulDiv (w.stream.anchorReserveRay - w.anchorSubsidyRay) retention RAY ≤ fees ∧
        fees ≤ mulDiv (w.stream.anchorReserveRay - w.anchorSubsidyRay) retention RAY + 1) ∧
      (∀ op w', op.atOnce → exec op w = .ok w' →
        ∃ fees, unreleasedFees w = .ok fees ∧ unreleasedFees w' = .ok (fees + op.fees)) ∧
      ∀ sender amount w', exec (.recoverSubsidy sender amount) w = .ok w' →
        (∃ left, subsidyReserveRay w = .ok left ∧ amount * RAY ≤ left) ∧
        w'.stream.rewardToken.balanceOf w.treasury =
          w.stream.rewardToken.balanceOf w.treasury + amount ∧
        (∃ fees, unreleasedFees w = .ok fees ∧ unreleasedFees w' = .ok fees) ∧
        ∀ a, ∃ earned, RewardStream.earned a w.stream = .ok earned ∧
          RewardStream.earned a w'.stream = .ok earned ∧
          (a ≠ w.self → ∃ v v', exec (.claim a) w = .ok v ∧ exec (.claim a) w' = .ok v' ∧
            v.stream.claimed a = w.stream.claimed a + earned ∧
            v'.stream.claimed a = w'.stream.claimed a + earned) := by
  have solvent := run_solvent h decays run
  have subsidies := run_subsidies h run
  have decayed := solvent.fees_decay
  refine ⟨subsidies ▸ solvent.recovered_le, fun none => ?_,
    ⟨_, _, solvent.unreleasedFees_eq, solvent.sound.retentionNow_eq, decayed⟩,
    fun op w' atOnce done => ?_, fun sender amount w' done => ?_⟩
  · refine solvent.nothing_recoverable (subsidies.trans (List.sum_eq_zero fun n mem => ?_))
    obtain ⟨op, listed, rfl⟩ := List.mem_map.mp mem
    exact none op listed
  · refine ⟨_, solvent.unreleasedFees_eq, ?_⟩
    rw [(solvent.exec done).unreleasedFees_eq, solvent.fees_kept atOnce done]
  · have after := solvent.exec done
    have atOnce : (Op.recoverSubsidy sender amount).atOnce := trivial
    have fees := solvent.fees_kept atOnce done
    simp only [exec, bind_eq_ok, revertIf_eq_ok, exists_const] at done
    obtain ⟨⟨-, -, within, -⟩, -, token, sent, rfl⟩ :=
      recoverSubsidy_result solvent.sound.toSteady done.2
    obtain ⟨-, received, -⟩ := TokenLedger.sendTo_paid sent
    refine ⟨⟨_, solvent.subsidyReserveRay_eq, within⟩, received, ⟨_, solvent.unreleasedFees_eq, ?_⟩,
      fun a => ⟨_, solvent.sound.earned_eq a, ?_, fun apart => ?_⟩⟩
    · rw [after.unreleasedFees_eq, fees]
      rfl
    · have same := RewardStream.earnedNow_afterRecovery after.sound.toSteady
        solvent.sound.decays.zero a
      rw [after.sound.earned_eq a]
      exact congrArg _ same
    · have same := RewardStream.earnedNow_afterRecovery after.sound.toSteady
        solvent.sound.decays.zero a
      obtain ⟨v, first, paid⟩ := solvent.claim_pays apart
      obtain ⟨v', second, paid'⟩ := after.claim_pays (a := a) apart
      exact ⟨v, v', first, second, paid, paid'.trans (congrArg _ same)⟩

theorem sample_recovers_subsidy_only : sample.totalRecovered ≤ 6 * 10 ^ 12 ∧
    ∃ w', exec (.recoverSubsidy 2 (5 * 10 ^ 12)) sample = .ok w' ∧
      w'.stream.rewardToken.balanceOf 3 = sample.stream.rewardToken.balanceOf 3 + 5 * 10 ^ 12 := by
  have law := recovers_subsidy_only sampleStart_deployed sampleConfig_decays sample_run
  have done := eq_ok_reached sample (x := exec (.recoverSubsidy 2 (5 * 10 ^ 12)) sample)
    (by decide +kernel)
  have treasury : sample.treasury = 3 := by decide +kernel
  have paid := (law.2.2.2.2 _ _ _ done).2.1
  rw [treasury] at paid
  exact ⟨law.1.trans (by decide), _, done, paid⟩

end Turret.RecoverableStaking
