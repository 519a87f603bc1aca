import Turret.Library.StreamShare
import Turret.Rewards.LenderRewards

/-! The books of the lender rewards. What every holder has earned and what the
running round has not yet allocated are covered by `reserved`, to the last
part of the scale; under that invariant no checked operation of a checkpoint
fails. -/

namespace Turret.LenderRewards

open Execution Finset Function Rounding Uint256

variable {w w' : World} {a : Address}

/-- `_scheduled` in the books' own arithmetic. -/
def scheduledNow (w : World) : ℕ :=
  if w.finalized = true then w.campaignEmitted
  else if w.now ≤ w.startsAt then 0
  else mulDiv w.campaignBudget (min w.now w.endsAt - w.startsAt) (w.endsAt - w.startsAt)

def emissionNow (w : World) : ℕ := scheduledNow w - w.campaignEmitted

/-- What the running round has not allocated. -/
def openBudget (w : World) : ℕ :=
  if w.finalized = true then 0 else w.campaignBudget - w.campaignAllocated

/-- The account of a holder in parts of a reward unit. -/
def claims (w : World) (a : Address) : IndexClaim :=
  ⟨w.accrued a * SCALE, w.stakedBalance a, w.paidPerShare a⟩

structure Sound (w : World) : Prop where
  stakingToken_closed : ∀ a, w.stakingToken.allowance w.self a = 0
  rewardToken_closed : ∀ a, w.rewardToken.allowance w.self a = 0
  staked_eq : w.totalStaked = ∑ a, w.stakedBalance a
  staked_le : w.totalStaked ≤ UINT128_MAX
  staked_backed : w.totalStaked ≤ w.stakingToken.balanceOf w.self
  paid_le : ∀ a, w.paidPerShare a ≤ w.rewardPerShare
  round : w.finalized = false →
    w.startsAt < w.endsAt ∧ w.campaignAllocated ≤ w.campaignEmitted ∧
      w.campaignEmitted ≤ scheduledNow w
  allocated_le : w.campaignAllocated ≤ w.campaignBudget
  budget_le : w.campaignBudget ≤ w.totalFunded
  funded_le : w.totalFunded ≤ w.cfg.lifetimeBudget
  covered : (∑ a, (claims w a).worth w.rewardPerShare) + openBudget w * SCALE ≤ w.reserved * SCALE
  reserved_le : w.reserved + w.totalClaimed ≤ w.totalFunded
  index_le : w.rewardPerShare + openBudget w * SCALE ≤ w.totalFunded * SCALE
  backed : w.reserved ≤ w.rewardToken.balanceOf w.self

theorem SCALE_pos : 0 < SCALE := by decide

theorem word_of_scaled {n : ℕ} (h : n ≤ UINT128_MAX) : n * SCALE < MODULUS := by
  simp only [UINT128_MAX, MODULUS, SCALE] at h ⊢
  omega

theorem Sound.funded_word (h : Sound w) : w.totalFunded ≤ UINT128_MAX :=
  h.funded_le.trans w.cfg.budget_le

/-! ### The schedule -/

theorem scheduledNow_le_budget (open_ : w.finalized = false) :
    scheduledNow w ≤ w.campaignBudget := by
  rw [scheduledNow, if_neg (by simp [open_])]
  split_ifs
  · exact Nat.zero_le _
  · exact mulDiv_le_self (Nat.sub_le_sub_right (min_le_right ..) _) _

/-- Time only adds to the schedule. -/
theorem scheduledNow_mono (seconds : ℕ) :
    scheduledNow w ≤ scheduledNow { w with now := w.now + seconds } := by
  simp only [scheduledNow]
  split_ifs with settled early later later
  · exact le_rfl
  · exact le_rfl
  · exact Nat.zero_le _
  · exact absurd ((Nat.le_add_right ..).trans later) early
  · exact Nat.div_le_div_right (Nat.mul_le_mul_left _ (by omega))

theorem Sound.emitted_le (h : Sound w) : w.campaignEmitted ≤ scheduledNow w := by
  by_cases settled : w.finalized = true
  · simp [scheduledNow, settled]
  · exact (h.round (by simpa using settled)).2.2

/-- Neither subtraction of the schedule underflows, nor does its quotient overflow. -/
theorem Sound.scheduled_eq (h : Sound w) : scheduled w = .ok (scheduledNow w) := by
  simp only [scheduled, scheduledNow]
  split_ifs with settled early
  · rfl
  · rfl
  · obtain ⟨ordered, -, -⟩ := h.round (by simpa using settled)
    have below : mulDiv w.campaignBudget (min w.now w.endsAt - w.startsAt)
        (w.endsAt - w.startsAt) ≤ w.campaignBudget :=
      mulDiv_le_self (Nat.sub_le_sub_right (min_le_right ..) _) _
    have word := lt_modulus_of_le_max (below.trans (h.budget_le.trans h.funded_word))
    simp only [bind_eq_ok, checkedSub_eq_ok, checkedMulDiv_eq_ok]
    exact ⟨_, ⟨by omega, rfl⟩, _, ⟨ordered.le, rfl⟩, ⟨by omega, word⟩, rfl⟩

/-- What a checkpoint emits is still open. -/
theorem Sound.emission_le (h : Sound w) : emissionNow w ≤ openBudget w := by
  by_cases settled : w.finalized = true
  · simp [emissionNow, scheduledNow, settled]
  · have open_ : w.finalized = false := by simpa using settled
    have limit := scheduledNow_le_budget open_
    obtain ⟨-, allocated, -⟩ := h.round open_
    rw [openBudget, if_neg settled, emissionNow]
    omega

/-! ### A checkpoint -/

/-- `_checkpoint` when nothing fails. -/
def checkpointed (w : World) : World :=
  if w.totalStaked = 0 then { w with campaignEmitted := scheduledNow w }
  else
    { w with
      campaignEmitted := scheduledNow w
      rewardPerShare := w.rewardPerShare + mulDiv (emissionNow w) SCALE w.totalStaked
      campaignAllocated := w.campaignAllocated + emissionNow w }

theorem Sound.allocated_add_le (h : Sound w) :
    w.campaignAllocated + emissionNow w ≤ w.campaignBudget := by
  by_cases settled : w.finalized = true
  · have none : emissionNow w = 0 := by simp [emissionNow, scheduledNow, settled]
    rw [none]
    exact h.allocated_le
  · have limit := h.emission_le
    have below := h.allocated_le
    rw [openBudget, if_neg settled] at limit
    omega

theorem mulDiv_scale_le (n scale d : ℕ) : mulDiv n scale d ≤ n * scale :=
  Nat.div_le_self ..

theorem Sound.index_add_le (h : Sound w) :
    w.rewardPerShare + mulDiv (emissionNow w) SCALE w.totalStaked ≤ w.totalFunded * SCALE := by
  have growth := mulDiv_scale_le (emissionNow w) SCALE w.totalStaked
  have within := Nat.mul_le_mul_right SCALE h.emission_le
  have limit := h.index_le
  omega

theorem Sound.checkpoint_eq (h : Sound w) : checkpoint w = .ok (checkpointed w) := by
  have emitted := h.emitted_le
  have index := h.index_add_le
  have word := word_of_scaled h.funded_word
  have small := lt_modulus_of_le_max
    (h.allocated_add_le.trans (h.budget_le.trans h.funded_word))
  simp only [checkpoint, checkpointed, h.scheduled_eq, ok_bind, bind_eq_ok, checkedSub_eq_ok]
  refine ⟨emissionNow w, ⟨emitted, rfl⟩, ?_⟩
  by_cases staked : w.totalStaked = 0
  · rw [if_neg (not_not.mpr staked), if_pos staked]
    rfl
  · rw [if_pos staked, if_neg staked]
    simp only [bind_eq_ok, checkedMulDiv_eq_ok, checkedAdd_eq_ok]
    exact ⟨_, ⟨⟨staked, by omega⟩, rfl⟩, _, ⟨by omega, rfl⟩, _, ⟨small, rfl⟩, rfl⟩

theorem checkpointed_frame : checkpointed w =
    { w with
      campaignEmitted := scheduledNow w
      rewardPerShare := (checkpointed w).rewardPerShare
      campaignAllocated := (checkpointed w).campaignAllocated } := by
  rw [checkpointed]
  split_ifs <;> rfl

theorem scheduledNow_checkpointed : scheduledNow (checkpointed w) = scheduledNow w := by
  rw [checkpointed_frame]
  simp only [scheduledNow]
  split_ifs <;> rfl

theorem emissionNow_checkpointed : emissionNow (checkpointed w) = 0 := by
  rw [emissionNow, scheduledNow_checkpointed, checkpointed_frame]
  exact Nat.sub_self _

/-- What is emitted while anyone has a stake leaves the open budget. -/
theorem openBudget_checkpointed (h : Sound w) :
    openBudget (checkpointed w) + (if w.totalStaked = 0 then 0 else emissionNow w) =
      openBudget w := by
  have limit := h.emission_le
  by_cases staked : w.totalStaked = 0
  · rw [checkpointed, if_pos staked, if_pos staked]
    rfl
  · rw [checkpointed, if_neg staked, if_neg staked]
    simp only [openBudget] at limit ⊢
    split_ifs at limit ⊢ <;> omega

/-- What each account would be worth after a checkpoint stays covered. -/
theorem Sound.worth_checkpointed_le (h : Sound w) :
    (∑ a, (claims (checkpointed w) a).worth (checkpointed w).rewardPerShare) +
      openBudget (checkpointed w) * SCALE ≤ w.reserved * SCALE := by
  have open_ := openBudget_checkpointed h
  have covered := h.covered
  have same : claims (checkpointed w) = claims w := by
    rw [checkpointed_frame]
    rfl
  rw [same]
  by_cases staked : w.totalStaked = 0
  · rw [if_pos staked, Nat.add_zero] at open_
    have index : (checkpointed w).rewardPerShare = w.rewardPerShare := by
      rw [checkpointed, if_pos staked]
    rw [open_, index]
    exact covered
  · rw [if_neg staked] at open_
    have index : (checkpointed w).rewardPerShare =
        w.rewardPerShare + mulDiv (emissionNow w) SCALE (∑ a, (claims w a).weight) := by
      rw [checkpointed, if_neg staked, h.staked_eq]
      rfl
    have shared := IndexClaim.sum_worth_share_le (claims w) h.paid_le (emissionNow w) SCALE
    have scaled := congrArg (· * SCALE) open_
    simp only [Nat.add_mul] at scaled
    rw [index]
    omega

theorem Sound.index_checkpointed_le (h : Sound w) :
    (checkpointed w).rewardPerShare + openBudget (checkpointed w) * SCALE ≤
      w.totalFunded * SCALE := by
  have growth := mulDiv_scale_le (emissionNow w) SCALE w.totalStaked
  have limit := h.index_le
  have scaled := congrArg (· * SCALE) (openBudget_checkpointed h)
  simp only [Nat.add_mul] at scaled
  by_cases staked : w.totalStaked = 0
  · have index : (checkpointed w).rewardPerShare = w.rewardPerShare := by
      rw [checkpointed, if_pos staked]
    rw [index]
    omega
  · have index : (checkpointed w).rewardPerShare =
        w.rewardPerShare + mulDiv (emissionNow w) SCALE w.totalStaked := by
      rw [checkpointed, if_neg staked]
    rw [if_neg staked] at scaled
    rw [index]
    omega

theorem le_checkpointed_index : w.rewardPerShare ≤ (checkpointed w).rewardPerShare := by
  rw [checkpointed]
  split_ifs
  · exact le_rfl
  · exact Nat.le_add_right ..

theorem checkpointed_allocated :
    (checkpointed w).campaignAllocated ≤ w.campaignAllocated + emissionNow w := by
  rw [checkpointed]
  split_ifs
  · exact Nat.le_add_right ..
  · exact le_rfl

theorem Sound.checkpointed (h : Sound w) : Sound (checkpointed w) := by
  have covered := h.worth_checkpointed_le
  have index := h.index_checkpointed_le
  have grown := le_checkpointed_index (w := w)
  have same := scheduledNow_checkpointed (w := w)
  have allocated := checkpointed_allocated (w := w)
  have within := h.allocated_add_le
  have emitted := h.emitted_le
  rw [checkpointed_frame] at covered index same ⊢
  refine
    { h with
      paid_le := fun a => (h.paid_le a).trans grown, round := fun running => ?_, covered
      allocated_le := allocated.trans within, index_le := index }
  obtain ⟨ordered, before, -⟩ := h.round running
  refine ⟨ordered, ?_, same.ge⟩
  simp only [emissionNow] at allocated
  show (LenderRewards.checkpointed w).campaignAllocated ≤ scheduledNow w
  omega

/-! ### One account -/

/-- `_update` when nothing fails. -/
def updated (a : Address) (w : World) : World :=
  let v := checkpointed w
  { v with
    accrued := update v.accrued a
      (v.accrued a + mulDiv (v.stakedBalance a) (v.rewardPerShare - v.paidPerShare a) SCALE)
    paidPerShare := update v.paidPerShare a v.rewardPerShare }

/-- What `earned` returns when nothing fails. -/
def earnedNow (a : Address) (w : World) : ℕ := (updated a w).accrued a

theorem earnedNow_eq : earnedNow a w = w.accrued a + mulDiv (w.stakedBalance a)
    ((checkpointed w).rewardPerShare - w.paidPerShare a) SCALE := by
  simp only [earnedNow, updated, update_self]
  rw [checkpointed_frame]

theorem earned_scale_le : earnedNow a w * SCALE ≤
    (claims (checkpointed w) a).worth (checkpointed w).rewardPerShare := by
  have floor := mulDiv_mul_le (w.stakedBalance a)
    ((checkpointed w).rewardPerShare - w.paidPerShare a) SCALE
  rw [earnedNow_eq, Nat.add_mul, claims, IndexClaim.worth, checkpointed_frame]
  exact Nat.add_le_add_left floor _

/-- Everyone's earnings, and what the round has yet to emit, are reserved. -/
theorem Sound.sum_earned_le (h : Sound w) :
    (∑ a, earnedNow a w) + (if w.finalized = true then 0 else w.campaignBudget - scheduledNow w) ≤
      w.reserved := by
  have covered := h.checkpointed.covered
  have round := h.checkpointed.round
  have each : (∑ a, earnedNow a w) * SCALE ≤
      ∑ a, (claims (LenderRewards.checkpointed w) a).worth
        (LenderRewards.checkpointed w).rewardPerShare := by
    rw [sum_mul]
    exact sum_le_sum fun a _ => earned_scale_le
  have open_ : (if w.finalized = true then 0 else w.campaignBudget - scheduledNow w) ≤
      openBudget (LenderRewards.checkpointed w) := by
    rw [checkpointed_frame] at round ⊢
    simp only [openBudget]
    split_ifs with settled
    · exact le_rfl
    · obtain ⟨-, allocated, -⟩ := round (by simpa using settled)
      exact Nat.sub_le_sub_left allocated _
  have scaled := Nat.mul_le_mul_right SCALE open_
  have kept : (LenderRewards.checkpointed w).reserved = w.reserved := by rw [checkpointed_frame]
  rw [kept] at covered
  refine Nat.le_of_mul_le_mul_right ?_ SCALE_pos
  rw [Nat.add_mul]
  omega

theorem Sound.earned_le (h : Sound w) (a : Address) : earnedNow a w ≤ w.reserved :=
  (le_sum (earnedNow · w) a).trans ((Nat.le_add_right ..).trans h.sum_earned_le)

theorem Sound.reserved_word (h : Sound w) : w.reserved ≤ UINT128_MAX :=
  (Nat.le_add_right ..).trans (h.reserved_le.trans h.funded_word)

theorem Sound.update_eq (h : Sound w) (a : Address) : updateAccount a w = .ok (updated a w) := by
  have word := lt_modulus_of_le_max ((h.earned_le a).trans h.reserved_word)
  have paid := h.checkpointed.paid_le a
  simp only [earnedNow, LenderRewards.updated, update_self] at word
  simp only [updateAccount, h.checkpoint_eq, ok_bind, bind_eq_ok, checkedSub_eq_ok,
    checkedMulDiv_eq_ok, checkedAdd_eq_ok]
  exact ⟨_, ⟨paid, rfl⟩, _, ⟨⟨SCALE_pos.ne', by omega⟩, rfl⟩, _, ⟨word, rfl⟩, rfl⟩

theorem Sound.perShare_eq (h : Sound w) :
    perShare w = .ok (LenderRewards.checkpointed w).rewardPerShare := by
  have emitted := h.emitted_le
  have index := h.index_add_le
  have funded := word_of_scaled h.funded_word
  rw [LenderRewards.checkpointed, perShare]
  by_cases staked : w.totalStaked = 0
  · rw [if_neg (not_not.mpr staked), if_pos staked]
    rfl
  · rw [if_pos staked, if_neg staked]
    simp only [h.scheduled_eq, bind_eq_ok, ok_bind, checkedSub_eq_ok, checkedMulDiv_eq_ok,
      checkedAdd_eq_ok]
    exact ⟨emissionNow w, ⟨emitted, rfl⟩, _, ⟨⟨staked, by omega⟩, rfl⟩, by omega, rfl⟩

theorem Sound.earned_eq (h : Sound w) (a : Address) : earned a w = .ok (earnedNow a w) := by
  have word := lt_modulus_of_le_max ((h.earned_le a).trans h.reserved_word)
  have paid := (h.paid_le a).trans le_checkpointed_index
  rw [earnedNow_eq] at word ⊢
  simp only [earned, h.perShare_eq, ok_bind, bind_eq_ok, checkedSub_eq_ok, checkedMulDiv_eq_ok,
    checkedAdd_eq_ok]
  exact ⟨_, ⟨paid, rfl⟩, _, ⟨⟨SCALE_pos.ne', by omega⟩, rfl⟩, word, rfl⟩

/-! ### Changing an account -/

theorem claims_updated (a : Address) (w : World) :
    claims (updated a w) = update (claims (checkpointed w)) a
      ⟨earnedNow a w * SCALE, w.stakedBalance a, (checkpointed w).rewardPerShare⟩ := by
  funext b
  by_cases hb : b = a
  · subst hb
    rw [update_self, earnedNow]
    simp only [claims, updated, update_self]
    rw [checkpointed_frame]
  · simp [claims, updated, hb]

theorem Sound.updated (h : Sound w) (a : Address) : Sound (updated a w) := by
  have base := h.checkpointed
  have sum := IndexClaim.sum_worth_update (LenderRewards.checkpointed w).rewardPerShare
    (claims (LenderRewards.checkpointed w)) a
    ⟨earnedNow a w * SCALE, w.stakedBalance a, (LenderRewards.checkpointed w).rewardPerShare⟩
  have floor := earned_scale_le (a := a) (w := w)
  have covered := base.covered
  rw [IndexClaim.worth_of_paid, ← claims_updated] at sum
  refine { base with paid_le := fun b => ?_, covered := ?_ }
  · simp only [LenderRewards.updated]
    by_cases hb : b = a
    · simp [hb]
    · simpa [hb] using base.paid_le b
  · show (∑ b, (claims (LenderRewards.updated a w) b).worth
        (LenderRewards.checkpointed w).rewardPerShare) +
      openBudget (LenderRewards.checkpointed w) * SCALE ≤
        (LenderRewards.checkpointed w).reserved * SCALE
    omega

/-! ### Ending a round -/

/-- `_finalize` when nothing fails. -/
def concluded (w : World) : World :=
  if w.finalized = true then w
  else { w with reserved := w.reserved - (w.campaignBudget - w.campaignAllocated), finalized := true }

theorem Sound.open_le (h : Sound w) : openBudget w ≤ w.reserved :=
  Nat.le_of_mul_le_mul_right ((Nat.le_add_left ..).trans h.covered) SCALE_pos

theorem Sound.finalize_eq (h : Sound w) : finalize w = .ok (concluded w) := by
  have within := h.open_le
  rw [finalize, concluded]
  split_ifs with settled
  · rfl
  · rw [openBudget, if_neg settled] at within
    simp only [bind_eq_ok, checkedSub_eq_ok]
    exact ⟨_, ⟨h.allocated_le, rfl⟩, _, ⟨within, rfl⟩, rfl⟩

theorem claims_concluded : claims (concluded w) = claims w := by
  rw [concluded]
  split_ifs <;> rfl

theorem openBudget_concluded : openBudget (concluded w) = 0 := by
  rw [concluded]
  split_ifs with settled <;> simp [openBudget, settled]

/-- Ending a round releases exactly what it had open. -/
theorem Sound.reserved_concluded (h : Sound w) : (concluded w).reserved + openBudget w = w.reserved := by
  have within := h.open_le
  rw [concluded]
  rw [openBudget] at within ⊢
  split_ifs at within ⊢
  · rfl
  · exact Nat.sub_add_cancel within

theorem concluded_frame : concluded w =
    { w with reserved := (concluded w).reserved, finalized := true } := by
  rw [concluded]
  split_ifs with settled
  · rw [← settled]
  · rfl

theorem Sound.concluded (h : Sound w) : Sound (concluded w) := by
  have covered := h.covered
  have released := h.reserved_concluded
  have index := h.index_le
  have less : (LenderRewards.concluded w).reserved ≤ w.reserved := by omega
  have scaled := congrArg (· * SCALE) released
  simp only [Nat.add_mul] at scaled
  have worth : (∑ a, (claims (LenderRewards.concluded w) a).worth w.rewardPerShare) +
      openBudget (LenderRewards.concluded w) * SCALE ≤
        (LenderRewards.concluded w).reserved * SCALE := by
    rw [claims_concluded, openBudget_concluded, Nat.zero_mul]
    omega
  have below : w.rewardPerShare + openBudget (LenderRewards.concluded w) * SCALE ≤
      w.totalFunded * SCALE := by
    rw [openBudget_concluded, Nat.zero_mul]
    omega
  rw [concluded_frame] at worth below ⊢
  exact
    { h with
      round := fun running => by cases running
      covered := worth
      reserved_le := (Nat.add_le_add_right less _).trans h.reserved_le
      index_le := below
      backed := less.trans h.backed }

theorem index_of_still (still : emissionNow w = 0) :
    (checkpointed w).rewardPerShare = w.rewardPerShare := by
  rw [checkpointed, still]
  split_ifs <;> simp

/-- An account's earnings depend on the index a checkpoint would reach and on its own entries. -/
theorem earnedNow_congr (still : emissionNow w' = 0)
    (index : w'.rewardPerShare = (checkpointed w).rewardPerShare)
    (accrued : w'.accrued = w.accrued) (staked : w'.stakedBalance = w.stakedBalance)
    (paid : w'.paidPerShare = w.paidPerShare) (a : Address) : earnedNow a w' = earnedNow a w := by
  rw [earnedNow_eq, earnedNow_eq, index_of_still still, index, accrued, staked, paid]

end Turret.LenderRewards
