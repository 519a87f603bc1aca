import Turret.Rewards.RecoverableStaking
import Turret.Rewards.StreamRuns

/-! Solvency of `TurretRecoverableStaking`. The subsidy decays with the reserve
it is part of and is never more than what subsidies brought less what was taken
back; a recovery is a withdrawal from the part of the reserve not released yet. -/

namespace Turret.RecoverableStaking

open Execution Finset Function Rounding Uint256
open RewardStream (Error RAY Sound remainingNow emissionNow earnedNow activeAt afterFunding
  afterRecovery RAY_pos)

variable {w w' : World} {sender : Address} {amount : ℕ}

/-- What is left of the subsidy at this moment. -/
def subsidyNow (w : World) : ℕ :=
  mulDiv w.anchorSubsidyRay
    (w.stream.cfg.retention (activeAt w.stream - w.stream.anchorActiveSeconds)) RAY

/-- What the contract was funded with and has not given back. -/
def net (w : World) : ℕ := w.stream.totalFunded - w.totalRecovered

structure Solvent (w : World) : Prop where
  sound : Sound (net w) w.stream
  subsidies_le : w.totalSubsidies ≤ w.stream.totalFunded
  subsidy_le : w.anchorSubsidyRay ≤ w.stream.anchorReserveRay
  subsidy_funded : w.anchorSubsidyRay + w.totalRecovered * RAY ≤ w.totalSubsidies * RAY

/-! ### What a success says -/

theorem subsidyReserveRay_ok {n : ℕ} (done : subsidyReserveRay w = .ok n) : n = subsidyNow w := by
  simp only [subsidyReserveRay, bind_eq_ok, checkedMulDiv_eq_ok] at done
  obtain ⟨retention, first, -, rfl⟩ := done
  rw [RewardStream.retentionNow_ok first]
  rfl

/-- A funding, and the part of it that is a subsidy. -/
def afterFund (amount subsidized : ℕ) (token : TokenLedger Address) (w : World) : World :=
  { w with
    stream := afterFunding amount token w.stream
    totalSubsidies := w.totalSubsidies + subsidized
    anchorSubsidyRay := subsidyNow w + subsidized * RAY }

def afterRecover (amount : ℕ) (token : TokenLedger Address) (w : World) : World :=
  { w with
    stream := afterRecovery amount token w.stream
    totalRecovered := w.totalRecovered + amount
    anchorSubsidyRay := subsidyNow w - amount * RAY }

theorem fund_result {subsidy : Bool} (h : RewardStream.Steady w.stream)
    (done : fund sender amount subsidy w = .ok w') :
    (sender = w.stream.cfg.distributor ∧ amount ≠ 0 ∧
        w.stream.totalFunded + amount ≤ UINT128_MAX) ∧
      RewardStream.Balanced w.stream ∧ ∃ token,
      w.stream.rewardToken.pullTo Error.erc20 Error.unsupportedTransfer w.self sender w.self amount =
        .ok token ∧ w' = afterFund amount (if subsidy then amount else 0) token w := by
  simp only [fund, RewardStream.checkFunding, bind_eq_ok, revertIf_eq_ok, checkedSub_eq_ok,
    checkedAdd_eq_ok, pure_eq_ok, exists_const, not_not, not_lt] at done
  obtain ⟨⟨byDistributor, some, room, ⟨fits, rfl⟩, within⟩, left, rest, stream, funded, -, ⟨-, rfl⟩,
    -, ⟨-, rfl⟩, rfl⟩ := done
  obtain rfl := subsidyReserveRay_ok rest
  obtain ⟨balanced, token, pulled, rfl⟩ := RewardStream.receiveFunding_result h funded
  exact ⟨⟨byDistributor, some, by omega⟩, balanced, token, pulled, rfl⟩

theorem recoverSubsidy_result (h : RewardStream.Steady w.stream)
    (done : recoverSubsidy sender amount w = .ok w') :
    (sender = w.stream.cfg.distributor ∧ amount ≠ 0 ∧ amount * RAY ≤ subsidyNow w ∧
        amount * RAY ≤ remainingNow w.stream) ∧
      RewardStream.Balanced w.stream ∧ ∃ token,
      w.stream.rewardToken.sendTo Error.erc20 Error.unsupportedTransfer w.self w.treasury amount =
        .ok token ∧ w' = afterRecover amount token w := by
  simp only [recoverSubsidy, bind_eq_ok, revertIf_eq_ok, checkedAdd_eq_ok, checkedMul_eq_ok,
    checkedSub_eq_ok, pure_eq_ok, exists_const, not_not, not_or, not_lt, Prod.exists] at done
  obtain ⟨byDistributor, left, rest, ⟨some, -⟩, stream, remaining, first, -, ⟨-, rfl⟩, -, ⟨-, rfl⟩,
    -, ⟨enough, rfl⟩, -, ⟨within, rfl⟩, token, sent, rfl⟩ := done
  obtain rfl := subsidyReserveRay_ok rest
  obtain ⟨rfl, rfl, balanced⟩ := RewardStream.accrue_ok h first
  exact ⟨⟨byDistributor, some, within, enough⟩, balanced, token,
    TokenLedger.sendExact_eq_ok.mp sent, rfl⟩

/-! ### What keeps the contract solvent -/

namespace Solvent

variable (h : Solvent w)

include h

theorem recovered_le : w.totalRecovered ≤ w.totalSubsidies := by
  have funded := h.subsidy_funded
  exact Nat.le_of_mul_le_mul_right (by omega) RAY_pos

theorem retention_le (n : ℕ) : w.stream.cfg.retention n ≤ RAY := by
  rw [← h.sound.decays.zero]
  exact h.sound.decays.antitone 0 n (Nat.zero_le n)

/-- The subsidy only decays. -/
theorem subsidyNow_le : subsidyNow w ≤ w.anchorSubsidyRay :=
  mulDiv_le_self (h.retention_le _) _

/-- The subsidy is part of the reserve at every moment. -/
theorem subsidyNow_le_remaining : subsidyNow w ≤ remainingNow w.stream :=
  mulDiv_mono h.subsidy_le ..

theorem subsidyReserveRay_eq : subsidyReserveRay w = .ok (subsidyNow w) := by
  have anchor := h.sound.anchor_lt
  have small := h.subsidyNow_le.trans h.subsidy_le
  simp only [subsidyReserveRay, h.sound.retentionNow_eq, ok_bind, checkedMulDiv_eq_ok]
  exact ⟨⟨RAY_pos.ne', small.trans_lt anchor⟩, rfl⟩

theorem of_stream {stream : RewardStream.World} (sound : Sound (net w) stream)
    (funded : stream.totalFunded = w.stream.totalFunded)
    (anchor : stream.anchorReserveRay = w.stream.anchorReserveRay) :
    Solvent { w with stream } := by
  refine ⟨?_, ?_, ?_, h.subsidy_funded⟩
  · rw [net, funded]
    exact sound
  · rw [funded]
    exact h.subsidies_le
  · rw [anchor]
    exact h.subsidy_le

theorem fund {subsidized : ℕ} {token : TokenLedger Address} (part : subsidized ≤ amount)
    (room : w.stream.totalFunded + amount ≤ UINT128_MAX)
    (pulled : w.stream.rewardToken.pullTo Error.erc20 Error.unsupportedTransfer w.self sender w.self
      amount = .ok token) : Solvent (afterFund amount subsidized token w) := by
  have sound := h.sound.funding room pulled
  have recovered := h.recovered_le.trans h.subsidies_le
  have more : net (afterFund amount subsidized token w) = net w + amount :=
    Nat.sub_add_comm recovered
  have left := h.subsidyNow_le
  have funded := h.subsidy_funded
  refine ⟨more ▸ sound, Nat.add_le_add h.subsidies_le part,
    Nat.add_le_add h.subsidyNow_le_remaining (Nat.mul_le_mul_right _ part), ?_⟩
  simp only [afterFund, Nat.add_mul]
  omega

theorem recover {token : TokenLedger Address} (within : amount * RAY ≤ subsidyNow w)
    (sent : w.stream.rewardToken.sendTo Error.erc20 Error.unsupportedTransfer w.self w.treasury
      amount = .ok token) : Solvent (afterRecover amount token w) := by
  have sound := h.sound.recovery (within.trans h.subsidyNow_le_remaining) sent
  have less : net (afterRecover amount token w) = net w - amount := (Nat.sub_sub ..).symm
  have left := h.subsidyNow_le
  have funded := h.subsidy_funded
  refine ⟨less ▸ sound, h.subsidies_le, Nat.sub_le_sub_right h.subsidyNow_le_remaining _, ?_⟩
  simp only [afterRecover, Nat.add_mul]
  omega

end Solvent

/-! ### Runs -/

theorem Solvent.exec {op : Op} (h : Solvent w) (done : exec op w = .ok w') : Solvent w' := by
  have steady := h.sound.toSteady
  simp only [RecoverableStaking.exec, bind_eq_ok, revertIf_eq_ok, exists_const] at done
  obtain ⟨away, done⟩ := done
  cases op with
  | stake sender amount =>
    simp only [onStream, bind_eq_ok, pure_eq_ok] at done
    obtain ⟨stream, called, rfl⟩ := done
    obtain ⟨⟨-, room⟩, -, token, pulled, rfl⟩ := RewardStream.stake_ok steady called
    exact h.of_stream (h.sound.stake room pulled) rfl rfl
  | unstake sender amount =>
    simp only [onStream, bind_eq_ok, pure_eq_ok] at done
    obtain ⟨stream, called, rfl⟩ := done
    obtain ⟨⟨-, within⟩, -, token, sent, rfl⟩ := RewardStream.unstake_ok steady called
    exact h.of_stream (h.sound.unstake within sent) rfl rfl
  | claim sender =>
    simp only [onStream, bind_eq_ok, pure_eq_ok] at done
    obtain ⟨stream, called, rfl⟩ := done
    obtain ⟨-, token, rfl, paid⟩ := RewardStream.claim_ok steady called
    exact h.of_stream (h.sound.claim paid) rfl rfl
  | distribute sender amount =>
    obtain ⟨⟨-, -, room⟩, -, token, pulled, rfl⟩ := fund_result steady done
    exact h.fund (Nat.zero_le _) room pulled
  | distributeSubsidy sender amount =>
    obtain ⟨⟨-, -, room⟩, -, token, pulled, rfl⟩ := fund_result steady done
    exact h.fund le_rfl room pulled
  | recoverSubsidy sender amount =>
    obtain ⟨⟨-, -, within, -⟩, -, token, sent, rfl⟩ := recoverSubsidy_result steady done
    exact h.recover within sent
  | stakingToken call =>
    simp only [onStream, RewardStream.callStakingToken, bind_eq_ok, orRevert_eq_ok,
      pure_eq_ok] at done
    obtain ⟨_, ⟨token, called, rfl⟩, rfl⟩ := done
    exact h.of_stream (h.sound.callStakingToken called away) rfl rfl
  | rewardToken call =>
    simp only [onStream, RewardStream.callRewardToken, bind_eq_ok, orRevert_eq_ok,
      pure_eq_ok] at done
    obtain ⟨_, ⟨token, called, rfl⟩, rfl⟩ := done
    exact h.of_stream (h.sound.callRewardToken called away) rfl rfl
  | elapse seconds blocks =>
    simp only [onStream, RewardStream.elapse, bind_eq_ok, revertIf_eq_ok, exists_const, not_le,
      pure_eq_ok] at done
    obtain ⟨_, ⟨fits, rfl⟩, rfl⟩ := done
    exact h.of_stream (h.sound.elapse fits) rfl rfl

theorem Deployed.solvent (h : Deployed w) (decays : w.stream.cfg.Decays) : Solvent w := by
  have sound := h.stream.sound decays
  have funded : w.stream.totalFunded = 0 := by rw [h.stream.storage_eq]; rfl
  refine ⟨?_, ?_, ?_, ?_⟩
  · rw [net, funded, Nat.zero_sub]
    exact sound
  · rw [h.subsidies_eq]
    exact Nat.zero_le _
  · rw [h.anchor_eq]
    exact Nat.zero_le _
  · rw [h.anchor_eq, h.recovered_eq, h.subsidies_eq, Nat.zero_add]

theorem run_solvent {w₀ : World} {ops : List Op} (h : Deployed w₀)
    (decays : w₀.stream.cfg.Decays) (run : Run (accepts exec) w₀ ops w) : Solvent w :=
  run.invariant Solvent (fun _ _ _ solvent step => solvent.exec step) (h.solvent decays)

/-! ### No call fails in its arithmetic -/

theorem onStream_ne_panic {call : RewardStream.World → Except Error RewardStream.World}
    (called : call w.stream ≠ .error .panic) : onStream call w ≠ .error .panic := by
  simp only [onStream, bind_ne_error, pure_ne_error, ne_eq, not_false_eq_true, implies_true,
    and_true]
  exact called

namespace Solvent

variable (h : Solvent w)

include h

theorem fund_ne_panic {subsidy : Bool} :
    RecoverableStaking.fund sender amount subsidy w ≠ .error .panic := by
  simp only [RecoverableStaking.fund, bind_ne_error]
  refine ⟨h.sound.checkFunding_ne_panic, fun _ checked => ⟨?_, fun left rest => ?_⟩⟩
  · rw [h.subsidyReserveRay_eq]
    simp
  simp only [RewardStream.checkFunding, bind_eq_ok, revertIf_eq_ok, checkedSub_eq_ok,
    exists_const, not_not, not_lt] at checked
  obtain ⟨-, -, _, ⟨fits, rfl⟩, within⟩ := checked
  have room : w.stream.totalFunded + amount ≤ UINT128_MAX := by omega
  obtain rfl := subsidyReserveRay_ok rest
  have part : (if subsidy then amount else 0) ≤ amount := by split_ifs <;> omega
  have scaled := Nat.mul_le_mul_right RAY part
  have subsidies := h.subsidies_le
  have word := lt_modulus_of_le_max room
  refine ⟨h.sound.receiveFunding_ne_panic room, fun stream received => ⟨?_, fun _ _ => ⟨?_, fun _ _ => pure_ne_error _ _⟩⟩⟩
  · rw [ne_eq, checkedAdd_eq_error]
    omega
  · have remaining := h.subsidyNow_le_remaining
    have balanced := h.sound.balanced
    have reserve := h.sound.reserve_eq
    have released := h.sound.accounted_le
    have ray := RewardStream.word_of_ray room
    have within_funded : RAY * net w ≤ RAY * w.stream.totalFunded :=
      Nat.mul_le_mul_left _ (Nat.sub_le ..)
    rw [Nat.mul_add, Nat.mul_comm RAY amount] at ray
    rw [ne_eq, checkedAdd_eq_error]
    omega

theorem recoverSubsidy_ne_panic :
    RecoverableStaking.recoverSubsidy sender amount w ≠ .error .panic := by
  simp only [RecoverableStaking.recoverSubsidy, bind_ne_error, h.subsidyReserveRay_eq,
    h.sound.accrue_eq, ne_eq, revertIf_eq_error, revertIf_eq_ok, reduceCtorEq, and_false,
    not_false_eq_true, true_and, Except.ok.injEq, pure_ne_error, not_or, not_lt]
  rintro - - left rfl - within ⟨stream, remaining⟩ same
  obtain ⟨rfl, rfl⟩ := Prod.mk.inj same
  have taken : amount * RAY ≤ subsidyNow w := (Nat.le_div_iff_mul_le RAY_pos).mp within.2
  have remaining := h.subsidyNow_le_remaining
  have anchor := h.sound.anchor_lt
  have small := h.subsidyNow_le.trans h.subsidy_le
  have subsidies := h.subsidies_le.trans h.sound.funded_le
  have funded := h.subsidy_funded
  have left := h.subsidyNow_le
  have recovered : w.totalRecovered + amount ≤ w.totalSubsidies := by
    refine Nat.le_of_mul_le_mul_right ?_ RAY_pos
    rw [Nat.add_mul]
    omega
  have word := lt_modulus_of_le_max (recovered.trans subsidies)
  refine ⟨by rw [checkedAdd_eq_error]; omega, fun _ _ => ⟨?_, fun _ product => ?_⟩⟩
  · rw [checkedMul, if_pos (by omega)]
    simp
  · obtain ⟨-, rfl⟩ := (checkedMul_eq_ok ..).mp product
    simp only [checkedSub_eq_error, and_true, not_lt]
    exact ⟨by omega, fun _ _ => ⟨taken, fun _ _ =>
      ⟨RewardStream.Sound.sendExact_ne_panic _ _ _ _, fun _ _ => trivial⟩⟩⟩

theorem exec_ne_panic (op : Op) : RecoverableStaking.exec op w ≠ .error .panic := by
  simp only [RecoverableStaking.exec, bind_ne_error, ne_eq, revertIf_eq_error, reduceCtorEq,
    and_false, not_false_eq_true, true_and]
  intro _ _
  cases op with
  | stake sender amount => exact onStream_ne_panic h.sound.stake_ne_panic
  | unstake sender amount => exact onStream_ne_panic h.sound.unstake_ne_panic
  | claim sender => exact onStream_ne_panic h.sound.claim_ne_panic
  | distribute sender amount => exact h.fund_ne_panic
  | distributeSubsidy sender amount => exact h.fund_ne_panic
  | recoverSubsidy sender amount => exact h.recoverSubsidy_ne_panic
  | stakingToken call =>
    exact onStream_ne_panic (by simp [RewardStream.callStakingToken])
  | rewardToken call =>
    exact onStream_ne_panic (by simp [RewardStream.callRewardToken])
  | elapse seconds blocks =>
    exact onStream_ne_panic (by simp [RewardStream.elapse])

theorem claim_succeeds (apart : sender ≠ w.self) :
    ∃ w', RecoverableStaking.exec (.claim sender) w = .ok w' := by
  obtain ⟨stream, called⟩ := h.sound.claim_succeeds apart
  have allowed : ¬(Op.claim sender).sender = some w.self := fun same => apart (Option.some.inj same)
  refine ⟨{ w with stream }, ?_⟩
  rw [RecoverableStaking.exec, revertIf, if_neg allowed, ok_bind]
  simp only [onStream, called, ok_bind, pure_eq_ok]

theorem unstake_succeeds (apart : sender ≠ w.self) (some : amount ≠ 0)
    (within : amount ≤ w.stream.stakedBalance sender)
    (later : w.stream.lastStakeBlock sender < w.stream.block) :
    ∃ w', RecoverableStaking.exec (.unstake sender amount) w = .ok w' := by
  obtain ⟨stream, called⟩ := h.sound.unstake_succeeds apart some within later
  have allowed : ¬(Op.unstake sender amount).sender = Option.some w.self :=
    fun same => apart (Option.some.inj same)
  refine ⟨{ w with stream }, ?_⟩
  rw [RecoverableStaking.exec, revertIf, if_neg allowed, ok_bind]
  simp only [onStream, called, ok_bind, pure_eq_ok]

end Solvent

/-! ### Solvency -/

/-- The books of the contract, with the stream and the earnings that its views return. -/
structure Solvency (w : World) (stream : RewardStream.Stream) (earnings : Address → ℕ) : Prop where
  recovered_le : w.totalRecovered ≤ w.stream.totalFunded
  accounted_le : w.stream.accountedAnchorReleaseRay ≤ w.stream.anchorReserveRay
  reserve_eq : w.stream.anchorReserveRay - w.stream.accountedAnchorReleaseRay + w.stream.releasedRay =
    (w.stream.totalFunded - w.totalRecovered) * RAY
  earned_le : (∑ a, (w.stream.claimed a + earnings a)) * RAY ≤ w.stream.releasedRay + stream.emission
  claimed_le : w.stream.totalClaimed ≤ w.stream.totalFunded - w.totalRecovered
  backed : w.stream.totalFunded - w.totalRecovered - w.stream.totalClaimed ≤
    w.stream.rewardToken.balanceOf w.self
  owed_le : ∑ a, earnings a ≤ w.stream.totalFunded - w.totalRecovered - w.stream.totalClaimed
  subsidy_le : w.anchorSubsidyRay ≤ w.stream.anchorReserveRay
  remainder_lt : 0 < w.stream.totalStaked → w.stream.indexRemainder < w.stream.totalStaked
  still : w.stream.totalStaked = 0 → stream.emission = 0

theorem Solvent.solvency (h : Solvent w) :
    Solvency w ⟨remainingNow w.stream, activeAt w.stream, emissionNow w.stream⟩
      (earnedNow · w.stream) := by
  have balanced := h.sound.balanced
  have reserve := h.sound.reserve_eq
  have owed := h.sound.sum_earned_le_net
  have backed := h.sound.backed
  have exact : net w = w.stream.totalFunded - w.totalRecovered := rfl
  refine
    { recovered_le := h.recovered_le.trans h.subsidies_le
      accounted_le := by omega
      reserve_eq := ?_
      earned_le := h.sound.sum_earned_le
      claimed_le := by omega
      backed := ?_
      owed_le := by omega
      subsidy_le := h.subsidy_le
      remainder_lt := fun some => h.sound.remainder_lt some.ne'
      still := h.sound.still }
  · rw [← exact, Nat.mul_comm]
    omega
  · rw [← exact]
    exact Nat.sub_le_iff_le_add.mpr backed

/-- In every reachable state the books balance, the views return, and no call fails in its
arithmetic: an account can always claim, and unstake from the next block on. -/
theorem recoverable_staking_solvent {w₀ w : World} {ops : List Op} (h : Deployed w₀)
    (decays : w₀.stream.cfg.Decays) (run : Run (accepts exec) w₀ ops w) :
    (∃ stream earnings, RewardStream.streamNow w.stream = .ok stream ∧
      (∀ a, RewardStream.earned a w.stream = .ok (earnings a)) ∧ Solvency w stream earnings) ∧
      (∃ left, subsidyReserveRay w = .ok left) ∧
      (∀ op, exec op w ≠ .error .panic) ∧
      (∀ a, a ≠ w.self → ∃ w', exec (.claim a) w = .ok w') ∧
      ∀ a amount, a ≠ w.self → amount ≠ 0 → amount ≤ w.stream.stakedBalance a →
        w.stream.lastStakeBlock a < w.stream.block → ∃ w', exec (.unstake a amount) w = .ok w' := by
  have solvent := run_solvent h decays run
  exact ⟨⟨_, _, solvent.sound.streamNow_eq, solvent.sound.earned_eq, solvent.solvency⟩,
    ⟨_, solvent.subsidyReserveRay_eq⟩, solvent.exec_ne_panic,
    fun _ apart => solvent.claim_succeeds apart,
    fun _ _ apart some within later => solvent.unstake_succeeds apart some within later⟩

/-- Compounding one step at a time, rounded down. -/
def samplePow (rate n base : ℕ) : ℕ := (fun z => z * rate / base)^[n] base

theorem samplePow_antitone {rate base m n : ℕ} (small : rate ≤ base) (h : m ≤ n) :
    samplePow rate n base ≤ samplePow rate m base := by
  refine antitone_nat_of_succ_le (f := fun n => samplePow rate n base) (fun n => ?_) h
  simp only [samplePow, iterate_succ_apply']
  exact mulDiv_le_self small _

def sampleConfig : RewardStream.Config where
  self := 1
  distributor := 2
  rpow := samplePow
  distributor_ne_zero := Address.two_ne_zero
  distributor_ne_self := Address.two_ne_one

theorem sampleConfig_decays : sampleConfig.Decays where
  zero := rfl
  antitone _ _ h := samplePow_antitone (by rw [RAY]; decide) h

def sampleStart : World :=
  ⟨RewardStream.constructed sampleConfig 1000 1 .empty .empty, 3, 0, 0, 0⟩

theorem sampleStart_deployed : Deployed sampleStart where
  stream := ⟨by decide, fun _ => rfl, fun _ => rfl, rfl⟩
  treasury_ne_zero := by decide
  treasury_ne_self := by decide
  subsidies_eq := rfl
  recovered_eq := rfl
  anchor_eq := rfl

/-- One staker, a subsidy and fees, and a second of decay. -/
def sampleOps : List Op :=
  [.rewardToken (.mint 2 (10 ^ 13)), .rewardToken (.approve 2 1 (10 ^ 13)),
    .stakingToken (.mint 4 10), .stakingToken (.approve 4 1 10), .stake 4 10,
    .distributeSubsidy 2 (6 * 10 ^ 12), .distribute 2 (3 * 10 ^ 12), .elapse 1 1]

def sample : World := reached sampleStart (execAll exec sampleOps sampleStart)

theorem sample_run : Run (accepts exec) sampleStart sampleOps sample :=
  run_of_execAll (eq_ok_reached sampleStart (by decide +kernel))

theorem sample_staking_solvent : ∃ w', exec (.claim 4) sample = .ok w' := by
  have solvent := recoverable_staking_solvent sampleStart_deployed sampleConfig_decays sample_run
  exact solvent.2.2.2.1 4 (by decide +kernel)

end Turret.RecoverableStaking
