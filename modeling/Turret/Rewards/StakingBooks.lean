import Turret.Library.StreamShare
import Turret.Rewards.TurretStaking

/-! The books of `TurretStaking`. What an account has received and is owed, to
the last part of the scale, is the sum over the fundings of its stake then
times the growth of the index: a checkpoint settles it, a change of stake
leaves it, a funding adds to it. -/

namespace Turret.TurretStaking

open Execution Finset Function Rounding Uint256

variable {w w' : World} {a sender : Address} {amount : ℕ} {token : TokenLedger Address}
  {fs : List Funding}

theorem SCALE_pos : 0 < SCALE := by
  rw [SCALE]
  decide

/-! ### One account -/

/-- What an account has received and is owed, in parts of the scale, with its stake. -/
def claims (w : World) (a : Address) : IndexClaim :=
  ⟨SCALE * (w.claimed a + w.accrued a) + w.fractionalReward a, w.stakedBalance a,
    w.paidPerToken a⟩

/-- The settlement of an account: whole units and the fraction carried on. -/
def settled (a : Address) (w : World) : ℕ × ℕ :=
  let gained := carry SCALE (w.stakedBalance a) (w.rewardPerToken - w.paidPerToken a)
    (w.fractionalReward a)
  (w.accrued a + gained.1, gained.2)

/-- What `earned` returns when nothing fails. -/
def earnedNow (a : Address) (w : World) : ℕ := (settled a w).1

theorem settlement_ok {result : ℕ × ℕ} (done : settlement a w = .ok result) :
    result = settled a w := by
  simp only [settlement, bind_eq_ok, checkedSub_eq_ok, checkedAdd_eq_ok, checkedMulDiv_eq_ok,
    pure_eq_ok] at done
  obtain ⟨-, ⟨-, rfl⟩, -, ⟨-, rfl⟩, -, ⟨-, rfl⟩, -, ⟨-, rfl⟩, -, ⟨-, rfl⟩, rfl⟩ := done
  rfl

/-- Whole units and fraction are what the account is worth, less what it claimed. -/
theorem settled_exact (a : Address) (w : World) :
    SCALE * (w.claimed a + earnedNow a w) + (settled a w).2 =
      (claims w a).worth w.rewardPerToken := by
  have exact := carry_exact SCALE (w.stakedBalance a) (w.rewardPerToken - w.paidPerToken a)
    (w.fractionalReward a)
  rw [Nat.mul_comm] at exact
  simp only [earnedNow, settled, claims, IndexClaim.worth, Nat.mul_add]
  omega

theorem settled_snd_lt (a : Address) (w : World) : (settled a w).2 < SCALE :=
  carry_snd_lt SCALE_pos ..

theorem earned_scale_le (a : Address) (w : World) :
    SCALE * (w.claimed a + earnedNow a w) ≤ (claims w a).worth w.rewardPerToken := by
  rw [← settled_exact]
  exact Nat.le_add_right ..

/-- `_checkpoint` when nothing fails. -/
def checkpointed (a : Address) (w : World) : World :=
  { w with
    accrued := update w.accrued a (earnedNow a w)
    fractionalReward := update w.fractionalReward a (settled a w).2
    paidPerToken := update w.paidPerToken a w.rewardPerToken }

theorem checkpoint_ok (done : checkpoint a w = .ok w') : w' = checkpointed a w := by
  simp only [checkpoint, bind_eq_ok, pure_eq_ok, Prod.exists] at done
  obtain ⟨whole, fraction, settles, rfl⟩ := done
  have result := settlement_ok settles
  rw [checkpointed, earnedNow, ← result]

theorem claims_checkpointed (a : Address) (w : World) :
    claims (checkpointed a w) = update (claims w) a ((claims w a).settle w.rewardPerToken) := by
  have exact := settled_exact a w
  funext b
  by_cases hb : b = a
  · subst hb
    simp only [claims, checkpointed, update_self, IndexClaim.settle, exact]
  · simp only [claims, checkpointed, update_of_ne hb]

/-! ### What each call does -/

def afterStake (a : Address) (amount : ℕ) (token : TokenLedger Address) (w : World) : World :=
  { checkpointed a w with
    stakingToken := token
    totalStaked := w.totalStaked + amount
    stakedBalance := update w.stakedBalance a (w.stakedBalance a + amount)
    lastStakeBlock := update w.lastStakeBlock a w.block }

def afterUnstake (a : Address) (amount : ℕ) (token : TokenLedger Address) (w : World) : World :=
  { checkpointed a w with
    stakingToken := token
    totalStaked := w.totalStaked - amount
    stakedBalance := update w.stakedBalance a (w.stakedBalance a - amount) }

/-- A claim of what the account has earned. -/
def afterClaim (a : Address) (token : TokenLedger Address) (w : World) : World :=
  { checkpointed a w with
    rewardToken := token
    totalClaimed := w.totalClaimed + earnedNow a w
    accrued := update w.accrued a 0
    claimed := update w.claimed a (w.claimed a + earnedNow a w) }

def fundingOf (amount : ℕ) (w : World) : Funding := ⟨amount, w.totalStaked, w.stakedBalance⟩

def afterFunding (amount : ℕ) (token : TokenLedger Address) (w : World) : World :=
  { w with
    rewardToken := token
    totalFunded := w.totalFunded + amount
    rewardPerToken := w.rewardPerToken + (fundingOf amount w).increment }

theorem checkpointed_accrued (a : Address) (w : World) :
    (checkpointed a w).accrued a = earnedNow a w :=
  update_self ..

theorem stake_ok (done : stake sender amount w = .ok w') :
    (amount ≠ 0 ∧ w.totalStaked + amount ≤ UINT128_MAX) ∧ ∃ token,
      w.stakingToken.pullTo Error.erc20 Error.unsupportedTransfer w.self sender w.self amount =
        .ok token ∧ w' = afterStake sender amount token w := by
  simp only [stake, bind_eq_ok, revertIf_eq_ok, checkedSub_eq_ok, checkedAdd_eq_ok, pure_eq_ok,
    exists_const] at done
  obtain ⟨some, room, ⟨fits, rfl⟩, within, v, checked, token, pulled, -, ⟨-, rfl⟩, -, ⟨-, rfl⟩,
    rfl⟩ := done
  obtain rfl := checkpoint_ok checked
  exact ⟨⟨some, by omega⟩, token, TokenLedger.pullExact_eq_ok.mp pulled, rfl⟩

theorem unstake_ok (done : unstake sender amount w = .ok w') :
    (amount ≠ 0 ∧ amount ≤ w.stakedBalance sender) ∧ ∃ token,
      w.stakingToken.sendTo Error.erc20 Error.unsupportedTransfer w.self sender amount =
        .ok token ∧ w' = afterUnstake sender amount token w := by
  simp only [unstake, bind_eq_ok, revertIf_eq_ok, checkedSub_eq_ok, pure_eq_ok, exists_const,
    not_or, not_lt] at done
  obtain ⟨within, -, v, checked, -, ⟨-, rfl⟩, -, ⟨-, rfl⟩, token, sent, rfl⟩ := done
  obtain rfl := checkpoint_ok checked
  exact ⟨within, token, TokenLedger.sendExact_eq_ok.mp sent, rfl⟩

/-- A claim of nothing pays nothing; it is one of zero as far as the books go. -/
theorem claim_ok (done : claim sender w = .ok w') : ∃ token, w' = afterClaim sender token w ∧
    (token = w.rewardToken ∧ earnedNow sender w = 0 ∨
      w.rewardToken.sendTo Error.erc20 Error.unsupportedTransfer w.self sender
        (earnedNow sender w) = .ok token) := by
  simp only [claim, bind_eq_ok] at done
  obtain ⟨v, checked, done⟩ := done
  obtain rfl := checkpoint_ok checked
  rw [checkpointed_accrued] at done
  split_ifs at done with none
  · obtain rfl := Except.ok.inj done
    refine ⟨w.rewardToken, ?_, .inl ⟨rfl, none⟩⟩
    rw [afterClaim, none, Nat.add_zero, Nat.add_zero, update_eq_self, checkpointed, none]
  · simp only [bind_eq_ok, checkedAdd_eq_ok, pure_eq_ok] at done
    obtain ⟨-, ⟨-, rfl⟩, token, sent, rfl⟩ := done
    refine ⟨token, ?_, .inr (TokenLedger.sendExact_eq_ok.mp sent)⟩
    simp only [afterClaim, checkpointed, update_idem]

theorem distribute_ok (done : distribute sender amount w = .ok w') :
    (w.totalStaked ≠ 0 ∧ w.totalFunded + amount ≤ UINT128_MAX) ∧ ∃ token,
      w.rewardToken.pullTo Error.erc20 Error.unsupportedTransfer w.self sender w.self amount =
        .ok token ∧ w' = afterFunding amount token w := by
  simp only [distribute, bind_eq_ok, revertIf_eq_ok, checkedSub_eq_ok, checkedAdd_eq_ok,
    checkedMulDiv_eq_ok, pure_eq_ok, exists_const] at done
  obtain ⟨-, some, -, room, ⟨fits, rfl⟩, within, token, pulled, -, ⟨-, rfl⟩, -, ⟨-, rfl⟩, -,
    ⟨-, rfl⟩, rfl⟩ := done
  exact ⟨⟨some, by omega⟩, token, TokenLedger.pullExact_eq_ok.mp pulled, rfl⟩

/-! ### The invariant -/

/-- What the fundings so far have brought to an account, in parts of the scale. -/
def brought (fs : List Funding) (a : Address) : ℕ := (fs.map fun f => f.staked a * f.increment).sum

structure Books (fs : List Funding) (w : World) : Prop where
  stakingToken_closed : ∀ a, w.stakingToken.allowance w.self a = 0
  rewardToken_closed : ∀ a, w.rewardToken.allowance w.self a = 0
  staked_eq : w.totalStaked = ∑ a, w.stakedBalance a
  staked_le : w.totalStaked ≤ UINT128_MAX
  staked_backed : w.totalStaked ≤ w.stakingToken.balanceOf w.self
  funded_le : w.totalFunded ≤ UINT128_MAX
  funded_eq : w.totalFunded = (fs.map Funding.amount).sum
  shared : ∀ f ∈ fs, f.totalStaked ≠ 0 ∧ f.totalStaked = ∑ a, f.staked a
  index_eq : w.rewardPerToken = (fs.map Funding.increment).sum
  paid_le : ∀ a, w.paidPerToken a ≤ w.rewardPerToken
  fraction_lt : ∀ a, w.fractionalReward a < SCALE
  exact : ∀ a, (claims w a).worth w.rewardPerToken = brought fs a
  claimed_eq : w.totalClaimed = ∑ a, w.claimed a
  backed : w.totalFunded ≤ w.rewardToken.balanceOf w.self + w.totalClaimed

theorem Deployed.books (h : Deployed w) : Books [] w := by
  have staking := h.stakingToken_closed
  have reward := h.rewardToken_closed
  rw [h.storage_eq]
  exact
    { stakingToken_closed := staking
      rewardToken_closed := reward
      staked_eq := sum_const_zero.symm
      staked_le := Nat.zero_le _
      staked_backed := Nat.zero_le _
      funded_le := Nat.zero_le _
      funded_eq := rfl
      shared := fun _ inside => absurd inside List.not_mem_nil
      index_eq := rfl
      paid_le := fun _ => le_rfl
      fraction_lt := fun _ => SCALE_pos
      exact := fun _ => by simp [claims, constructed, IndexClaim.worth, brought]
      claimed_eq := sum_const_zero.symm
      backed := Nat.zero_le _ }

/-- A checkpointed account may change its stake: nobody's worth moves. -/
theorem worth_restaked (a b : Address) (staked : ℕ) (h : w.paidPerToken a = w.rewardPerToken) :
    (claims { w with stakedBalance := update w.stakedBalance a staked } b).worth w.rewardPerToken =
      (claims w b).worth w.rewardPerToken := by
  by_cases hb : b = a
  · subst hb
    simp [claims, IndexClaim.worth, h]
  · simp [claims, update_of_ne hb]

namespace Books

variable (h : Books fs w)

include h

theorem checkpointed (a : Address) : Books fs (checkpointed a w) := by
  have same := claims_checkpointed a w
  refine
    { h with
      paid_le := fun b => ?_
      fraction_lt := fun b => ?_
      exact := fun b => ?_ }
  · by_cases hb : b = a
    · simp [TurretStaking.checkpointed, hb]
    · simpa [TurretStaking.checkpointed, hb] using h.paid_le b
  · by_cases hb : b = a
    · simpa [TurretStaking.checkpointed, hb] using settled_snd_lt a w
    · simpa [TurretStaking.checkpointed, hb] using h.fraction_lt b
  · rw [same]
    by_cases hb : b = a
    · rw [hb, update_self]
      exact IndexClaim.worth_settle.trans (h.exact a)
    · rw [update_of_ne hb]
      exact h.exact b

end Books

end Turret.TurretStaking
