import Turret.Rewards.LenderRewardsBooks

/-! Solvency of the lender rewards over whole runs. Each call keeps the books,
so no difference in the contract is ever negative, every claim pays what
`earned` shows, and ending, funding or sweeping a round takes nothing earned. -/

namespace Turret.LenderRewards

open Execution Finset Function Rounding Uint256

variable {w w' : World} {a : Address}

/-! ### What keeps the books -/

theorem updated_paid : (updated a w).paidPerShare a = (updated a w).rewardPerShare := by
  simp [updated]

/-- An account that is up to date may change its stake. -/
theorem Sound.restake (h : Sound w) (paid : w.paidPerShare a = w.rewardPerShare)
    {token : TokenLedger Address} {n total : ℕ}
    (closed : ∀ b, token.allowance w.self b = 0)
    (moved : total + w.stakedBalance a = w.totalStaked + n) (limit : total ≤ UINT128_MAX)
    (held : total ≤ token.balanceOf w.self) :
    Sound { w with
      stakingToken := token, stakedBalance := update w.stakedBalance a n, totalStaked := total } := by
  have sum := sum_update_add w.stakedBalance a n
  have staked := h.staked_eq
  have worth := IndexClaim.sum_worth_replace (claims w) paid (w.accrued a * SCALE) n
  have covered := h.covered
  have after : update (claims w) a ⟨w.accrued a * SCALE, n, w.rewardPerShare⟩ =
      claims { w with
        stakingToken := token, stakedBalance := update w.stakedBalance a n
        totalStaked := total } := by
    funext b
    by_cases hb : b = a
    · subst hb
      simp [claims, paid]
    · simp [claims, hb]
  rw [after] at worth
  rw [← Nat.add_right_cancel worth] at covered
  exact
    { h with
      stakingToken_closed := closed
      staked_eq := show total = ∑ b, update w.stakedBalance a n b by omega
      staked_le := limit
      staked_backed := held
      covered := covered }

/-- Paying out an account that is up to date. -/
theorem Sound.pay (h : Sound w) (paid : w.paidPerShare a = w.rewardPerShare)
    {token : TokenLedger Address} {reserved total : ℕ}
    (closed : ∀ b, token.allowance w.self b = 0)
    (lowered : reserved + w.accrued a = w.reserved) (raised : total = w.totalClaimed + w.accrued a)
    (held : reserved ≤ token.balanceOf w.self) :
    Sound { w with
      rewardToken := token, accrued := update w.accrued a 0, reserved := reserved
      totalClaimed := total } := by
  have worth := IndexClaim.sum_worth_replace (claims w) paid 0 (w.stakedBalance a)
  have settled : (claims w a).settled = w.accrued a * SCALE := rfl
  have covered := h.covered
  have scaled := congrArg (· * SCALE) lowered
  have limit := h.reserved_le
  simp only [Nat.add_mul] at scaled
  have after : update (claims w) a ⟨0, w.stakedBalance a, w.rewardPerShare⟩ =
      claims { w with
        rewardToken := token, accrued := update w.accrued a 0, reserved := reserved
        totalClaimed := total } := by
    funext b
    by_cases hb : b = a
    · subst hb
      simp [claims, paid]
    · simp [claims, hb]
  have left : (∑ b, (update (claims w) a ⟨0, w.stakedBalance a, w.rewardPerShare⟩ b).worth
      w.rewardPerShare) + openBudget w * SCALE ≤ reserved * SCALE := by
    omega
  rw [after] at left
  exact
    { h with
      rewardToken_closed := closed
      covered := left
      reserved_le := show reserved + total ≤ w.totalFunded by omega
      backed := held }

/-- Time passes. -/
theorem Sound.elapse (h : Sound w) (seconds : ℕ) : Sound { w with now := w.now + seconds } :=
  { h with
    round := fun running => by
      obtain ⟨ordered, allocated, emitted⟩ := h.round running
      exact ⟨ordered, allocated, emitted.trans (scheduledNow_mono seconds)⟩ }

theorem Sound.stakingToken_call (h : Sound w) {call : TokenCall Address}
    {token : TokenLedger Address} (away : call.sender ≠ some w.self)
    (called : call.exec w.stakingToken = some token) : Sound { w with stakingToken := token } :=
  { h with
    stakingToken_closed := TokenCall.exec_keeps_closed called away h.stakingToken_closed
    staked_backed :=
      h.staked_backed.trans (TokenCall.exec_closed called away h.stakingToken_closed).1 }

theorem Sound.rewardToken_call (h : Sound w) {call : TokenCall Address}
    {token : TokenLedger Address} (away : call.sender ≠ some w.self)
    (called : call.exec w.rewardToken = some token) : Sound { w with rewardToken := token } :=
  { h with
    rewardToken_closed := TokenCall.exec_keeps_closed called away h.rewardToken_closed
    backed := h.backed.trans (TokenCall.exec_closed called away h.rewardToken_closed).1 }

/-! ### Each call -/

@[simp] theorem checkpointed_self : (checkpointed w).self = w.self := by
  rw [checkpointed_frame]
  rfl

theorem updated_frame : updated a w =
    { checkpointed w with
      accrued := (updated a w).accrued
      paidPerShare := (updated a w).paidPerShare } := rfl

theorem updated_books : (updated a w).self = w.self ∧ (updated a w).reserved = w.reserved ∧
    (updated a w).totalStaked = w.totalStaked ∧ (updated a w).totalClaimed = w.totalClaimed ∧
    (updated a w).stakedBalance = w.stakedBalance ∧ (updated a w).rewardToken = w.rewardToken ∧
    (updated a w).stakingToken = w.stakingToken := by
  rw [updated_frame, checkpointed_frame]
  exact ⟨rfl, rfl, rfl, rfl, rfl, rfl, rfl⟩

theorem stake_sound {sender : Address} {shares : ℕ} (h : Sound w)
    (done : stake sender shares w = .ok w') : Sound w' := by
  simp only [stake, h.update_eq, ok_bind, bind_eq_ok, revertIf_eq_ok, exists_const,
    checkedAdd_eq_ok, pure_eq_ok, not_lt] at done
  obtain ⟨-, total, ⟨-, rfl⟩, limit, token, pulled, staked, ⟨-, rfl⟩, rfl⟩ := done
  have base := h.updated sender
  obtain ⟨received, closed⟩ := TokenLedger.pullTo_received pulled base.stakingToken_closed
  have backed := base.staked_backed
  obtain ⟨-, -, same, -⟩ := updated_books (a := sender) (w := w)
  exact base.restake updated_paid closed (by omega) limit (by omega)

theorem unstake_sound {sender : Address} {shares : ℕ} (h : Sound w)
    (done : unstake sender shares w = .ok w') : Sound w' := by
  simp only [unstake, h.update_eq, ok_bind, bind_eq_ok, revertIf_eq_ok, exists_const,
    checkedSub_eq_ok, pure_eq_ok, not_lt] at done
  obtain ⟨-, staked, ⟨some_, rfl⟩, total, ⟨enough, rfl⟩, token, sent, held, rfl⟩ := done
  have base := h.updated sender
  obtain ⟨-, -, kept⟩ := TokenLedger.sendTo_paid (TokenLedger.sendExact_eq_ok.mp sent)
  have limit := base.staked_le
  exact base.restake updated_paid (fun b => kept ▸ base.stakingToken_closed b) (by omega)
    (by omega) held

theorem claim_sound {sender : Address} (h : Sound w) (done : claim sender w = .ok w') :
    Sound w' := by
  have base := h.updated sender
  simp only [claim, h.update_eq, ok_bind] at done
  split_ifs at done with none
  · obtain rfl := Except.ok.inj done
    exact base
  · simp only [bind_eq_ok, revertIf_eq_ok, exists_const, checkedSub_eq_ok, checkedAdd_eq_ok,
      pure_eq_ok, not_lt] at done
    obtain ⟨reserved, ⟨enough, rfl⟩, total, ⟨-, rfl⟩, token, sent, held, rfl⟩ := done
    obtain ⟨-, -, kept⟩ := TokenLedger.sendTo_paid (TokenLedger.sendExact_eq_ok.mp sent)
    exact base.pay updated_paid (fun b => kept ▸ base.rewardToken_closed b)
      (Nat.sub_add_cancel enough) rfl held

theorem emissionNow_updated : emissionNow (updated a w) = 0 :=
  emissionNow_checkpointed

/-- A claim pays what `earned` shows, and is never refused. -/
theorem claim_pays {sender : Address} (h : Sound w) (other : sender ≠ w.self) :
    ∃ w', claim sender w = .ok w' ∧
      w'.rewardToken.balanceOf sender = w.rewardToken.balanceOf sender + earnedNow sender w ∧
      earnedNow sender w' = 0 := by
  have base := h.updated sender
  obtain ⟨self, reserved, -, claimed, -, token, -⟩ := updated_books (a := sender) (w := w)
  have amount : (updated sender w).accrued sender = earnedNow sender w := rfl
  have within := h.earned_le sender
  have backed := h.backed
  have total : w.totalClaimed + earnedNow sender w < MODULUS := by
    refine lt_modulus_of_le_max (le_trans ?_ (h.reserved_le.trans h.funded_word))
    omega
  have cleared : ∀ v, v.accrued sender = 0 → v.rewardPerShare = (updated sender w).rewardPerShare →
      v.paidPerShare = (updated sender w).paidPerShare → emissionNow v = 0 →
      earnedNow sender v = 0 := by
    intro v none index paid still
    rw [earnedNow_eq, index_of_still still, none, index, paid, updated_paid, Nat.sub_self]
    simp [mulDiv]
  simp only [claim, h.update_eq, ok_bind, amount]
  split_ifs with none
  · refine ⟨_, rfl, ?_, cleared _ (amount.trans none) rfl rfl emissionNow_updated⟩
    rw [token, none, Nat.add_zero]
  · have apart : w.self ≠ sender := Ne.symm other
    simp only [reserved, claimed, token, self, bind_eq_ok, checkedSub_eq_ok, checkedAdd_eq_ok,
      TokenLedger.sendExact_eq_ok, TokenLedger.sendTo_eq_ok, revertIf_eq_ok, exists_const,
      pure_eq_ok, not_lt]
    refine ⟨_, ⟨_, ⟨within, rfl⟩, _, ⟨total, rfl⟩, _, ⟨within.trans backed, .inl apart, rfl⟩, ?_, rfl⟩,
      TokenLedger.move_dst apart ..,
      cleared _ (update_self ..) rfl rfl (emissionNow_updated (a := sender))⟩
    rw [TokenLedger.move_src apart]
    omega

/-- Whoever has the stake gets it back. -/
theorem unstake_returns {sender : Address} {shares : ℕ} (h : Sound w) (other : sender ≠ w.self)
    (positive : shares ≠ 0) (enough : shares ≤ w.stakedBalance sender) :
    ∃ w', unstake sender shares w = .ok w' ∧
      w'.stakingToken.balanceOf sender = w.stakingToken.balanceOf sender + shares := by
  obtain ⟨self, -, total, -, staked, -, token⟩ := updated_books (a := sender) (w := w)
  have within : w.stakedBalance sender ≤ w.totalStaked :=
    h.staked_eq ▸ le_sum w.stakedBalance sender
  have backed := h.staked_backed
  have apart : w.self ≠ sender := Ne.symm other
  simp only [unstake, h.update_eq, ok_bind, self, total, staked, token, bind_eq_ok,
    checkedSub_eq_ok, TokenLedger.sendExact_eq_ok, TokenLedger.sendTo_eq_ok, revertIf_eq_ok,
    exists_const, pure_eq_ok, not_or, not_lt]
  refine ⟨_, ⟨⟨positive, enough⟩, _, ⟨enough, rfl⟩, _, ⟨enough.trans within, rfl⟩, _,
    ⟨(enough.trans within).trans backed, .inl apart, rfl⟩, ?_, rfl⟩, TokenLedger.move_dst apart ..⟩
  rw [TokenLedger.move_src apart]
  exact Nat.sub_le_sub_right backed _

theorem Sound.finalizeEnded_eq (h : Sound w) :
    finalizeEnded w = .ok (if w.endsAt ≤ w.now then LenderRewards.concluded w else w) := by
  rw [finalizeEnded]
  split_ifs
  · exact h.finalize_eq
  · rfl

theorem fundCampaign_sound {sender : Address} {budget start stop : ℕ} (h : Sound w)
    (done : fundCampaign sender budget start stop w = .ok w') : Sound w' := by
  simp only [fundCampaign, h.checkpoint_eq, h.checkpointed.finalize_eq, ok_bind, bind_eq_ok,
    revertIf_eq_ok, exists_const, checkedAdd_eq_ok, checkedSub_eq_ok, pure_eq_ok, not_or,
    not_lt, not_le] at done
  obtain ⟨-, -, -, -, total, ⟨-, rfl⟩, ⟨limit, -, ordered⟩, length, -, -, latest, -, -, token,
    pulled, reserved, ⟨-, rfl⟩, rfl⟩ := done
  have base := h.checkpointed.concluded
  obtain ⟨received, closed⟩ := TokenLedger.pullTo_received pulled base.rewardToken_closed
  have covered := base.covered
  have index := base.index_le
  have funded := base.reserved_le
  have backed := base.backed
  rw [openBudget_concluded, Nat.zero_mul] at covered index
  generalize concluded (checkpointed w) = v at *
  exact
    { base with
      rewardToken_closed := closed
      round := fun _ => ⟨ordered, le_rfl, Nat.zero_le _⟩
      allocated_le := Nat.zero_le _
      budget_le := Nat.le_add_left ..
      funded_le := limit
      covered := show (∑ a, (claims v a).worth v.rewardPerShare) + (budget - 0) * SCALE ≤
        (v.reserved + budget) * SCALE by rw [Nat.add_mul, Nat.sub_zero]; omega
      reserved_le := show v.reserved + budget + v.totalClaimed ≤ v.totalFunded + budget by omega
      index_le := show v.rewardPerShare + (budget - 0) * SCALE ≤
        (v.totalFunded + budget) * SCALE by rw [Nat.add_mul, Nat.sub_zero]; omega
      backed := show v.reserved + budget ≤ token.balanceOf v.self by omega }

theorem stopCampaign_ok {sender : Address} (h : Sound w) (done : stopCampaign sender w = .ok w') :
    w' = { concluded (checkpointed w) with endsAt := (concluded (checkpointed w)).now } := by
  simp only [stopCampaign, h.checkpoint_eq, h.checkpointed.finalize_eq, ok_bind, bind_eq_ok,
    revertIf_eq_ok, exists_const, pure_eq_ok] at done
  obtain ⟨-, -, -, rfl⟩ := done
  rfl

theorem stopCampaign_sound {sender : Address} (h : Sound w)
    (done : stopCampaign sender w = .ok w') : Sound w' := by
  obtain rfl := stopCampaign_ok h done
  have base := h.checkpointed.concluded
  have settled : (concluded (checkpointed w)).finalized = true := by rw [concluded_frame]
  exact { base with round := fun running => by cases settled.symm.trans running }

/-- The round after a sweep: concluded if its time is over. -/
def swept (w : World) : World :=
  if w.endsAt ≤ w.now then concluded (checkpointed w) else checkpointed w

theorem Sound.swept (h : Sound w) : Sound (swept w) := by
  rw [LenderRewards.swept]
  split_ifs
  · exact h.checkpointed.concluded
  · exact h.checkpointed

theorem swept_self : (swept w).self = w.self := by
  rw [swept]
  split_ifs
  · rw [concluded_frame, checkpointed_frame]
    rfl
  · exact checkpointed_self

theorem finalizeEnded_swept (h : Sound w) :
    finalizeEnded (checkpointed w) = .ok (swept w) := by
  rw [h.checkpointed.finalizeEnded_eq, swept]
  rw [checkpointed_frame]

theorem recoverUnallocated_ok {sender : Address} (h : Sound w)
    (done : recoverUnallocated sender w = .ok w') :
    ∃ token, w' = { swept w with rewardToken := token } ∧
      (∀ b, token.allowance w.self b = 0) ∧ (swept w).reserved ≤ token.balanceOf w.self := by
  have base := h.swept
  have self := swept_self (w := w)
  simp only [recoverUnallocated, h.checkpoint_eq, finalizeEnded_swept h, ok_bind, bind_eq_ok,
    checkedSub_eq_ok] at done
  obtain ⟨-, -, amount, ⟨enough, rfl⟩, done⟩ := done
  split_ifs at done with none
  · obtain rfl := Except.ok.inj done
    exact ⟨_, rfl, self ▸ base.rewardToken_closed, self ▸ base.backed⟩
  · simp only [bind_eq_ok, orRevert_eq_ok, TokenLedger.transfer_eq_some, revertIf_eq_ok,
      exists_const, pure_eq_ok, ne_eq, not_not] at done
    obtain ⟨token, ⟨-, rfl⟩, left, rfl⟩ := done
    exact ⟨_, rfl, self ▸ base.rewardToken_closed, self ▸ left.ge⟩

theorem recoverUnallocated_sound {sender : Address} (h : Sound w)
    (done : recoverUnallocated sender w = .ok w') : Sound w' := by
  obtain ⟨token, rfl, closed, backed⟩ := recoverUnallocated_ok h done
  have self := swept_self (w := w)
  exact
    { h.swept with
      rewardToken_closed := fun b => self ▸ closed b
      backed := self ▸ backed }

theorem exec_sound (h : Sound w) {op : Op} (done : exec op w = .ok w') : Sound w' := by
  simp only [exec, bind_eq_ok, revertIf_eq_ok, exists_const] at done
  obtain ⟨away, done⟩ := done
  cases op with
  | fundCampaign sender budget start stop => exact fundCampaign_sound h done
  | stake sender shares => exact stake_sound h done
  | unstake sender shares => exact unstake_sound h done
  | claim sender => exact claim_sound h done
  | stopCampaign sender => exact stopCampaign_sound h done
  | recoverUnallocated sender => exact recoverUnallocated_sound h done
  | elapse seconds =>
    obtain rfl := Except.ok.inj done
    exact h.elapse seconds
  | stakingToken call =>
    simp only [run, bind_eq_ok, orRevert_eq_ok, pure_eq_ok] at done
    obtain ⟨token, called, rfl⟩ := done
    exact h.stakingToken_call away called
  | rewardToken call =>
    simp only [run, bind_eq_ok, orRevert_eq_ok, pure_eq_ok] at done
    obtain ⟨token, called, rfl⟩ := done
    exact h.rewardToken_call away called

theorem Deployed.sound (h : Deployed w) : Sound w := by
  obtain ⟨staking, reward, storage⟩ := h
  rw [storage] at staking reward ⊢
  refine ⟨staking, reward, ?_, Nat.zero_le _, Nat.zero_le _, fun _ => le_rfl, ?_, le_rfl, le_rfl,
    Nat.zero_le _, ?_, le_rfl, ?_, Nat.zero_le _⟩
  · simp [constructed]
  · simp [constructed]
  · simp [constructed, claims, openBudget, IndexClaim.worth]
  · simp [constructed, openBudget]

theorem Reachable.sound (h : Reachable w) : Sound w := by
  obtain ⟨start, ops, deployed, run⟩ := h
  exact run.invariant Sound (fun _ _ _ sound done => exec_sound sound done) deployed.sound

/-! ### What the administrator's calls leave alone -/

theorem concluded_index : (concluded w).rewardPerShare = w.rewardPerShare := by
  rw [concluded_frame]

theorem emissionNow_settled (settled : w.finalized = true) : emissionNow w = 0 := by
  simp [emissionNow, scheduledNow, settled]

/-- The entries of the accounts, which only their holders' calls change. -/
structure SameAccounts (w w' : World) : Prop where
  accrued : w'.accrued = w.accrued
  stakedBalance : w'.stakedBalance = w.stakedBalance
  paidPerShare : w'.paidPerShare = w.paidPerShare

theorem sameAccounts_checkpointed : SameAccounts w (checkpointed w) := by
  rw [checkpointed_frame]
  exact ⟨rfl, rfl, rfl⟩

theorem sameAccounts_concluded : SameAccounts w (concluded (checkpointed w)) := by
  rw [concluded_frame, checkpointed_frame]
  exact ⟨rfl, rfl, rfl⟩

theorem sameAccounts_swept : SameAccounts w (swept w) := by
  rw [swept]
  split_ifs
  · exact sameAccounts_concluded
  · exact sameAccounts_checkpointed

theorem swept_index : (swept w).rewardPerShare = (checkpointed w).rewardPerShare := by
  rw [swept]
  split_ifs
  · exact concluded_index
  · rfl

theorem stopCampaign_earned {sender : Address} (h : Sound w)
    (done : stopCampaign sender w = .ok w') (a : Address) : earnedNow a w' = earnedNow a w := by
  have same := sameAccounts_concluded (w := w)
  have settled : w'.finalized = true := by
    rw [stopCampaign_ok h done, concluded_frame]
  have still := emissionNow_settled settled
  obtain rfl := stopCampaign_ok h done
  exact earnedNow_congr still concluded_index same.accrued same.stakedBalance same.paidPerShare a

theorem emissionNow_swept : emissionNow (swept w) = 0 := by
  rw [swept]
  split_ifs
  · exact emissionNow_settled (by rw [concluded_frame])
  · exact emissionNow_checkpointed

theorem recoverUnallocated_earned {sender : Address} (h : Sound w)
    (done : recoverUnallocated sender w = .ok w') (a : Address) :
    earnedNow a w' = earnedNow a w := by
  obtain ⟨token, rfl, -, -⟩ := recoverUnallocated_ok h done
  have same := sameAccounts_swept (w := w)
  have still : emissionNow { swept w with rewardToken := token } = 0 := emissionNow_swept (w := w)
  exact earnedNow_congr still swept_index same.accrued same.stakedBalance same.paidPerShare a

theorem fundCampaign_earned {sender : Address} {budget start stop : ℕ} (h : Sound w)
    (done : fundCampaign sender budget start stop w = .ok w') (a : Address) :
    earnedNow a w' = earnedNow a w := by
  simp only [fundCampaign, h.checkpoint_eq, h.checkpointed.finalize_eq, ok_bind, bind_eq_ok,
    revertIf_eq_ok, exists_const, checkedAdd_eq_ok, checkedSub_eq_ok, pure_eq_ok, not_or,
    not_lt, not_le] at done
  obtain ⟨-, -, -, -, total, -, ⟨-, notBefore, -⟩, length, -, -, latest, -, -, token,
    -, reserved, -, final⟩ := done
  have same := sameAccounts_concluded (w := w)
  have still : emissionNow w' = 0 := by
    rw [← final]
    simp only [emissionNow, scheduledNow, Nat.sub_zero]
    rw [if_neg Bool.false_ne_true, if_pos notBefore]
  have index : w'.rewardPerShare = (checkpointed w).rewardPerShare := by
    rw [← final]
    exact concluded_index
  have accounts : SameAccounts w w' := by
    rw [← final]
    exact ⟨same.accrued, same.stakedBalance, same.paidPerShare⟩
  exact earnedNow_congr still index accounts.accrued accounts.stakedBalance accounts.paidPerShare a

/-! ### No call fails for arithmetic -/

theorem fundCampaign_ne_underflow (h : Sound w) (sender : Address) (budget start stop : ℕ) :
    fundCampaign sender budget start stop w ≠ .error .underflow := by
  simp only [fundCampaign, onlyAdministrator, h.checkpoint_eq, h.checkpointed.finalize_eq, ok_bind,
    bind_ne_error, revertIf_eq_error, revertIf_eq_ok, checkedAdd_eq_error, checkedAdd_eq_ok,
    checkedSub_eq_error, checkedSub_eq_ok, ne_eq, reduceCtorEq, and_false, not_false_eq_true,
    implies_true, and_true, true_and, not_or, not_lt, not_le, pure_ne_error, not_and,
    TokenLedger.pullTo_ne_error]
  rintro - - - - - - - - - ⟨-, -, ordered⟩
  exact ordered.le

theorem stake_ne_underflow (h : Sound w) (sender : Address) (shares : ℕ) :
    stake sender shares w ≠ .error .underflow := by
  simp [stake, h.update_eq, bind_ne_error, TokenLedger.pullTo_ne_error]

/-- A stake whose total fits a word meets no other overflow. -/
theorem stake_ne_overflow (h : Sound w) (sender : Address) {shares : ℕ}
    (fits : w.totalStaked + shares < MODULUS) : stake sender shares w ≠ .error .overflow := by
  have within : w.stakedBalance sender ≤ w.totalStaked :=
    h.staked_eq ▸ le_sum w.stakedBalance sender
  obtain ⟨-, -, -, -, staked, -⟩ := updated_books (a := sender) (w := w)
  simp only [stake, h.update_eq, ok_bind, bind_ne_error, revertIf_eq_error, revertIf_eq_ok,
    checkedAdd_eq_error, staked, ne_eq, reduceCtorEq, and_false, not_false_eq_true, implies_true,
    and_true, true_and, TokenLedger.pullTo_ne_error, pure_ne_error]
  exact fun _ _ => ⟨by omega, fun _ _ _ _ _ _ => by omega⟩

theorem unstake_ne_arithmetic (h : Sound w) {sender : Address} (other : sender ≠ w.self)
    (shares : ℕ) {e : Error} (arithmetic : e = .underflow ∨ e = .overflow) :
    unstake sender shares w ≠ .error e := by
  by_cases valid : shares = 0 ∨ w.stakedBalance sender < shares
  · have refused : unstake sender shares w = .error .invalidAmount := by
      rw [unstake, revertIf, if_pos valid]
      rfl
    rw [refused]
    rcases arithmetic with rfl | rfl <;> simp
  · obtain ⟨positive, enough⟩ := not_or.mp valid
    obtain ⟨w', done, -⟩ := unstake_returns h other positive (Nat.le_of_not_lt enough)
    simp [done]

theorem stopCampaign_ne_underflow (h : Sound w) (sender : Address) :
    stopCampaign sender w ≠ .error .underflow := by
  simp [stopCampaign, onlyAdministrator, h.checkpoint_eq, h.checkpointed.finalize_eq,
    bind_ne_error]

theorem recoverUnallocated_ne_underflow (h : Sound w) (sender : Address) :
    recoverUnallocated sender w ≠ .error .underflow := by
  have backed := h.swept.backed
  simp only [recoverUnallocated, onlyAdministrator, h.checkpoint_eq, finalizeEnded_swept h, ok_bind,
    bind_ne_error, revertIf_eq_error, revertIf_eq_ok, checkedSub_eq_error, checkedSub_eq_ok, ne_eq,
    reduceCtorEq, and_false, not_false_eq_true, true_and, not_and]
  refine fun _ _ => ⟨fun short => absurd backed (Nat.not_le.mpr short), fun amount _ => ?_⟩
  split_ifs
  · exact pure_ne_error _ _
  · simp [bind_ne_error]

theorem exec_ne_underflow (h : Sound w) (op : Op) : exec op w ≠ .error .underflow := by
  simp only [exec, bind_ne_error, ne_eq, revertIf_eq_error, revertIf_eq_ok, reduceCtorEq, and_false,
    not_false_eq_true, true_and]
  intro _ away
  cases op with
  | fundCampaign sender budget start stop => exact fundCampaign_ne_underflow h sender budget start stop
  | stake sender shares => exact stake_ne_underflow h sender shares
  | unstake sender shares =>
    exact unstake_ne_arithmetic h (fun same => away (congrArg some same)) shares (.inl rfl)
  | claim sender =>
    obtain ⟨w', done, -⟩ := claim_pays h fun same => away (congrArg some same)
    simp [run, done]
  | stopCampaign sender => exact stopCampaign_ne_underflow h sender
  | recoverUnallocated sender => exact recoverUnallocated_ne_underflow h sender
  | elapse seconds => simp [run]
  | stakingToken call => simp [run]
  | rewardToken call => simp [run]

/-! ### The whole contract -/

def Op.isAdministration : Op → Bool
  | .fundCampaign .. | .stopCampaign _ | .recoverUnallocated _ => true
  | _ => false

theorem administration_earned (h : Sound w) {op : Op} (administration : op.isAdministration = true)
    (done : exec op w = .ok w') (a : Address) : earnedNow a w' = earnedNow a w := by
  simp only [exec, bind_eq_ok, revertIf_eq_ok, exists_const] at done
  obtain ⟨-, done⟩ := done
  cases op with
  | fundCampaign sender budget start stop => exact fundCampaign_earned h done a
  | stopCampaign sender => exact stopCampaign_earned h done a
  | recoverUnallocated sender => exact recoverUnallocated_earned h done a
  | _ => cases administration

/-- A round goes on as it was. -/
structure SameRound (w w' : World) : Prop where
  startsAt : w'.startsAt = w.startsAt
  endsAt : w'.endsAt = w.endsAt
  campaignBudget : w'.campaignBudget = w.campaignBudget
  finalized : w'.finalized = w.finalized
  scheduled : scheduledNow w' = scheduledNow w

theorem recoverUnallocated_round {sender : Address} (h : Sound w) (running : w.now < w.endsAt)
    (done : recoverUnallocated sender w = .ok w') : SameRound w w' := by
  obtain ⟨token, rfl, -, -⟩ := recoverUnallocated_ok h done
  have same := scheduledNow_checkpointed (w := w)
  rw [swept, if_neg (Nat.not_le.mpr running)]
  rw [checkpointed_frame] at same ⊢
  exact ⟨rfl, rfl, rfl, rfl, same⟩

/-- The reward balance covers what is reserved, and that covers everyone's earnings with what the
round has still to emit. No difference is negative, no holder is refused, and the administrator's
calls touch neither what is earned nor a round that is running. -/
theorem lender_rewards_solvent (h : Reachable w) :
    w.reserved ≤ w.rewardToken.balanceOf w.self ∧
    scheduled w = .ok (scheduledNow w) ∧
    (∀ a, earned a w = .ok (earnedNow a w)) ∧
    (w.finalized = false → scheduledNow w ≤ w.campaignBudget) ∧
    (∑ a, earnedNow a w) + (if w.finalized = true then 0 else w.campaignBudget - scheduledNow w) ≤
      w.reserved ∧
    (∀ op, exec op w ≠ .error .underflow) ∧
    (∀ sender shares, w.totalStaked + shares < MODULUS →
      exec (.stake sender shares) w ≠ .error .overflow) ∧
    (∀ sender shares, exec (.unstake sender shares) w ≠ .error .overflow) ∧
    (∀ sender, sender ≠ w.self → ∃ w', exec (.claim sender) w = .ok w' ∧
      w'.rewardToken.balanceOf sender = w.rewardToken.balanceOf sender + earnedNow sender w ∧
      earnedNow sender w' = 0) ∧
    (∀ sender shares, sender ≠ w.self → shares ≠ 0 → shares ≤ w.stakedBalance sender →
      ∃ w', exec (.unstake sender shares) w = .ok w' ∧
        w'.stakingToken.balanceOf sender = w.stakingToken.balanceOf sender + shares) ∧
    (∀ op w', op.isAdministration = true → exec op w = .ok w' →
      ∀ a, earnedNow a w' = earnedNow a w) ∧
    (w.finalized = false → w.now < w.endsAt →
      (∀ sender w', exec (.recoverUnallocated sender) w = .ok w' → SameRound w w') ∧
      ∀ sender budget start stop w', exec (.fundCampaign sender budget start stop) w ≠ .ok w') := by
  have sound := h.sound
  refine ⟨sound.backed, sound.scheduled_eq, sound.earned_eq, scheduledNow_le_budget,
    sound.sum_earned_le, exec_ne_underflow sound, fun sender shares fits => ?_,
    fun sender shares => ?_, fun sender other => ?_, fun sender shares other positive enough => ?_,
    fun op w' administration done => administration_earned sound administration done,
    fun open_ running => ⟨fun sender w' done => ?_, fun sender budget start stop w' done => ?_⟩⟩
  · simp only [exec, bind_ne_error, ne_eq, revertIf_eq_error, reduceCtorEq, and_false,
      not_false_eq_true, true_and]
    exact fun _ _ => stake_ne_overflow sound sender fits
  · simp only [exec, bind_ne_error, ne_eq, revertIf_eq_error, revertIf_eq_ok, reduceCtorEq,
      and_false, not_false_eq_true, true_and]
    exact fun _ away =>
      unstake_ne_arithmetic sound (fun same => away (congrArg some same)) shares (.inr rfl)
  · obtain ⟨w', done, paid, cleared⟩ := claim_pays sound other
    refine ⟨w', ?_, paid, cleared⟩
    simp only [exec, bind_eq_ok, revertIf_eq_ok, exists_const, Op.sender, Option.some.injEq]
    exact ⟨other, done⟩
  · obtain ⟨w', done, returned⟩ := unstake_returns sound other positive enough
    refine ⟨w', ?_, returned⟩
    simp only [exec, bind_eq_ok, revertIf_eq_ok, exists_const, Op.sender, Option.some.injEq]
    exact ⟨other, done⟩
  · simp only [exec, bind_eq_ok] at done
    obtain ⟨-, -, done⟩ := done
    exact recoverUnallocated_round sound running done
  · simp only [exec, run, fundCampaign, bind_eq_ok, revertIf_eq_ok] at done
    obtain ⟨-, -, -, -, -, refused, -⟩ := done
    exact refused ⟨open_, running⟩

/-! A round of a thousand seconds, half of it gone, with two stakers. -/

def sampleConfig : Config where
  self := 400
  administrator := 401
  lifetimeBudget := 10 ^ 24
  administrator_ne_zero := by decide
  budget_ne_zero := by decide
  budget_le := by decide

def sampleStart : World := constructed sampleConfig 5000 .empty .empty

def sampleOps : List Op :=
  [ .rewardToken (.mint 401 (10 ^ 20)), .rewardToken (.approve 401 400 (10 ^ 20)),
    .stakingToken (.mint 402 (10 ^ 18)), .stakingToken (.approve 402 400 (10 ^ 18)),
    .stakingToken (.mint 403 (10 ^ 18)), .stakingToken (.approve 403 400 (10 ^ 18)),
    .fundCampaign 401 (10 ^ 20) 5000 6000, .stake 402 (10 ^ 18), .elapse 250,
    .stake 403 (10 ^ 18), .elapse 250 ]

def sample : World := reached sampleStart (execAll exec sampleOps sampleStart)

theorem sample_reachable : Reachable sample :=
  ⟨sampleStart, sampleOps, ⟨fun _ => rfl, fun _ => rfl, rfl⟩,
    run_of_execAll (eq_ok_reached _ (by decide +kernel))⟩

/-- The first staker claims its quarter of the round and half of the next one. -/
theorem sample_solvent : earnedNow 402 sample = 375 * 10 ^ 17 ∧
    ∃ w', exec (.claim 402) sample = .ok w' ∧
      w'.rewardToken.balanceOf 402 = 375 * 10 ^ 17 := by
  have amount : earnedNow 402 sample = 375 * 10 ^ 17 := by decide +kernel
  have before : sample.rewardToken.balanceOf 402 = 0 := by decide +kernel
  obtain ⟨w', done, paid, -⟩ :=
    (lender_rewards_solvent sample_reachable).2.2.2.2.2.2.2.2.1 402 (by decide +kernel)
  exact ⟨amount, w', done, by rw [paid, amount, before, Nat.zero_add]⟩

/-- The check of a stake adds before it compares, so the largest amount panics. -/
theorem stake_overflows : ∃ w, Reachable w ∧
    exec (.stake 404 (2 ^ 256 - 1)) w = .error .overflow :=
  ⟨sample, sample_reachable, eq_error_of_failsWith (by decide +kernel)⟩

end Turret.LenderRewards
