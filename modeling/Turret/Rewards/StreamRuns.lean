import Turret.Rewards.StreamSolvency

/-! What each call of a reward stream does when it succeeds. Every one of them
accrues up to the present; a change of stake then drops what the index could
not share, and a funding or a recovery moves the anchor of the decay. -/

namespace Turret.RewardStream

open Execution Finset Function Rounding Uint256

variable {w w' : World} {a sender : Address} {amount : ℕ} {token : TokenLedger Address}

/-- An accrual at this moment does not underflow. -/
def Balanced (w : World) : Prop :=
  remainingNow w + w.accountedAnchorReleaseRay + emissionNow w = w.anchorReserveRay

/-- The decay starts anew from a reserve. -/
def anchored (reserve : ℕ) (w : World) : World :=
  { w with
    anchorReserveRay := reserve
    anchorActiveSeconds := w.activeSeconds
    accountedAnchorReleaseRay := 0 }

/-- The stake of an account and their total are set anew. -/
def restaked (a : Address) (staked total : ℕ) (w : World) : World :=
  { w with
    totalStaked := total
    indexRemainder := 0
    stakedBalance := update w.stakedBalance a staked }

def afterStake (a : Address) (amount : ℕ) (token : TokenLedger Address) (w : World) : World :=
  { restaked a (w.stakedBalance a + amount) (w.totalStaked + amount) (checkpointed a w) with
    stakingToken := token
    lastStakeBlock := update w.lastStakeBlock a w.block }

def afterUnstake (a : Address) (amount : ℕ) (token : TokenLedger Address) (w : World) : World :=
  { restaked a (w.stakedBalance a - amount) (w.totalStaked - amount) (checkpointed a w) with
    stakingToken := token }

/-- A claim of what the account has earned. -/
def afterClaim (a : Address) (token : TokenLedger Address) (w : World) : World :=
  { checkpointed a w with
    rewardToken := token
    totalClaimed := w.totalClaimed + earnedNow a w
    accrued := update (checkpointed a w).accrued a 0
    claimed := update w.claimed a (w.claimed a + earnedNow a w) }

def afterFunding (amount : ℕ) (token : TokenLedger Address) (w : World) : World :=
  anchored (remainingNow w + amount * RAY)
    { advanced w with rewardToken := token, totalFunded := w.totalFunded + amount }

/-- A recovery, as it shows in the stream. -/
def afterRecovery (amount : ℕ) (token : TokenLedger Address) (w : World) : World :=
  anchored (remainingNow w - amount * RAY) { advanced w with rewardToken := token }

theorem checkpointed_accrued (a : Address) (w : World) :
    (checkpointed a w).accrued a = earnedNow a w := by
  simp only [checkpointed, update_self]
  rfl

/-! ### What a success says -/

theorem stake_ok (h : Steady w) (done : stake sender amount w = .ok w') :
    (amount ≠ 0 ∧ w.totalStaked + amount ≤ UINT128_MAX) ∧ Balanced w ∧ ∃ token,
      w.stakingToken.pullTo Error.erc20 Error.unsupportedTransfer w.self sender w.self amount =
        .ok token ∧ w' = afterStake sender amount token w := by
  simp only [stake, bind_eq_ok, revertIf_eq_ok, checkedSub_eq_ok, checkedAdd_eq_ok, pure_eq_ok,
    exists_const] at done
  obtain ⟨some, room, ⟨fits, rfl⟩, within, v, checked, token, pulled, -, ⟨-, rfl⟩, -, ⟨-, rfl⟩,
    rfl⟩ := done
  obtain ⟨rfl, balanced⟩ := checkpoint_ok h checked
  exact ⟨⟨some, by omega⟩, balanced, token, TokenLedger.pullExact_eq_ok.mp pulled, rfl⟩

theorem unstake_ok (h : Steady w) (done : unstake sender amount w = .ok w') :
    (amount ≠ 0 ∧ amount ≤ w.stakedBalance sender) ∧ Balanced w ∧ ∃ token,
      w.stakingToken.sendTo Error.erc20 Error.unsupportedTransfer w.self sender amount =
        .ok token ∧ w' = afterUnstake sender amount token w := by
  simp only [unstake, bind_eq_ok, revertIf_eq_ok, checkedSub_eq_ok, pure_eq_ok, exists_const,
    not_or, not_lt] at done
  obtain ⟨within, -, v, checked, -, ⟨-, rfl⟩, -, ⟨-, rfl⟩, token, sent, rfl⟩ := done
  obtain ⟨rfl, balanced⟩ := checkpoint_ok h checked
  exact ⟨within, balanced, token, TokenLedger.sendExact_eq_ok.mp sent, rfl⟩

/-- A claim of nothing pays nothing; it is one of zero as far as the books go. -/
theorem claim_ok (h : Steady w) (done : claim sender w = .ok w') :
    Balanced w ∧ ∃ token, w' = afterClaim sender token w ∧
      (token = w.rewardToken ∧ earnedNow sender w = 0 ∨
        w.rewardToken.sendTo Error.erc20 Error.unsupportedTransfer w.self sender
          (earnedNow sender w) = .ok token) := by
  simp only [claim, bind_eq_ok] at done
  obtain ⟨v, checked, done⟩ := done
  obtain ⟨rfl, balanced⟩ := checkpoint_ok h checked
  rw [checkpointed_accrued] at done
  split_ifs at done with none
  · obtain rfl := Except.ok.inj done
    have still : update (checkpointed sender w).accrued sender 0 = (checkpointed sender w).accrued :=
      by rw [← none, ← checkpointed_accrued, update_eq_self]
    refine ⟨balanced, w.rewardToken, ?_, .inl ⟨rfl, none⟩⟩
    rw [afterClaim, still, none, Nat.add_zero, Nat.add_zero, update_eq_self]
    rfl
  · simp only [bind_eq_ok, checkedAdd_eq_ok, pure_eq_ok] at done
    obtain ⟨-, ⟨-, rfl⟩, token, sent, rfl⟩ := done
    exact ⟨balanced, token, rfl, .inr (TokenLedger.sendExact_eq_ok.mp sent)⟩

theorem receiveFunding_result (h : Steady w) (done : receiveFunding sender amount w = .ok w') :
    Balanced w ∧ ∃ token,
      w.rewardToken.pullTo Error.erc20 Error.unsupportedTransfer w.self sender w.self amount =
        .ok token ∧ w' = afterFunding amount token w := by
  simp only [receiveFunding, bind_eq_ok, checkedAdd_eq_ok, checkedMul_eq_ok, pure_eq_ok,
    Prod.exists] at done
  obtain ⟨v, _, first, token, pulled, -, ⟨-, rfl⟩, -, ⟨-, rfl⟩, -, ⟨-, rfl⟩, rfl⟩ := done
  obtain ⟨rfl, rfl, balanced⟩ := accrue_ok h first
  exact ⟨balanced, token, TokenLedger.pullExact_eq_ok.mp pulled, rfl⟩

/-! ### What keeps the stream steady -/

theorem Steady.anchored (h : Steady w) (zero : w.cfg.retention 0 = RAY) (reserve : ℕ) :
    Steady (anchored reserve w) := by
  refine { h with anchored_le := le_rfl, accounted_eq := ?_ }
  simp only [remainingAt, RewardStream.anchored, Nat.sub_self, zero, mulDiv]
  rw [Nat.mul_div_cancel _ RAY_pos, Nat.add_zero]

theorem Steady.restaked (h : Steady w) {staked total : ℕ}
    (exact : total + w.stakedBalance a = w.totalStaked + staked) :
    Steady (restaked a staked total w) := by
  have moved := sum_update_add w.stakedBalance a staked
  have sum := h.staked_eq
  refine
    { h with
      staked_eq := ?_
      remainder_lt := fun some => Nat.pos_of_ne_zero some
      remainder_eq := fun _ => rfl }
  simp only [RewardStream.restaked]
  omega

theorem Steady.stake (h : Steady w) (balanced : Balanced w) (a : Address) (amount : ℕ)
    (token : TokenLedger Address) : Steady (afterStake a amount token w) := by
  have base : Steady (RewardStream.restaked a (w.stakedBalance a + amount) (w.totalStaked + amount)
      (RewardStream.checkpointed a w)) := by
    refine (h.checkpointed balanced a).restaked ?_
    simp only [RewardStream.checkpointed, RewardStream.advanced]
    omega
  exact { base with }

theorem Steady.unstake (h : Steady w) (balanced : Balanced w)
    (within : amount ≤ w.stakedBalance a) (token : TokenLedger Address) :
    Steady (afterUnstake a amount token w) := by
  have part := le_sum w.stakedBalance a
  have sum := h.staked_eq
  have base : Steady (RewardStream.restaked a (w.stakedBalance a - amount) (w.totalStaked - amount)
      (RewardStream.checkpointed a w)) := by
    refine (h.checkpointed balanced a).restaked ?_
    simp only [RewardStream.checkpointed, RewardStream.advanced]
    omega
  exact { base with }

theorem Steady.claim (h : Steady w) (balanced : Balanced w) (a : Address)
    (token : TokenLedger Address) : Steady (afterClaim a token w) :=
  { h.checkpointed balanced a with }

theorem Steady.funding (h : Steady w) (zero : w.cfg.retention 0 = RAY) (balanced : Balanced w)
    (amount : ℕ) (token : TokenLedger Address) : Steady (afterFunding amount token w) :=
  have base : Steady
      { RewardStream.advanced w with
        rewardToken := token, totalFunded := w.totalFunded + amount } :=
    { h.advanced balanced with }
  base.anchored zero _

theorem Steady.recovery (h : Steady w) (zero : w.cfg.retention 0 = RAY) (balanced : Balanced w)
    (amount : ℕ) (token : TokenLedger Address) : Steady (afterRecovery amount token w) :=
  have base : Steady { RewardStream.advanced w with rewardToken := token } :=
    { h.advanced balanced with }
  base.anchored zero _

end Turret.RewardStream

/-! The calls of a reward stream keep it solvent, and none of them fails in its
arithmetic. -/

namespace Turret.RewardStream

open Execution Finset Function Rounding Uint256

variable {w w' : World} {a sender : Address} {amount net : ℕ} {token : TokenLedger Address}

theorem claims_restaked (a : Address) (staked total : ℕ) (w : World) :
    claims (restaked a staked total w) =
      update (claims w) a ⟨(claims w a).settled, staked, w.paidPerToken a⟩ := by
  funext b
  by_cases hb : b = a
  · subst hb
    simp only [claims, restaked, update_self]
  · simp only [claims, restaked, update_of_ne hb]

/-- A change of stake right after a checkpoint is worth nothing to anyone. -/
theorem sum_worth_restaked (staked total : ℕ) (current : w.paidPerToken a = w.storedRewardPerToken) :
    (∑ b, (claims (restaked a staked total w) b).worth w.storedRewardPerToken) =
      ∑ b, (claims w b).worth w.storedRewardPerToken := by
  have moved := IndexClaim.sum_worth_replace (claims w) (i := a) current (claims w a).settled staked
  rw [claims_restaked, current]
  exact Nat.add_right_cancel moved

theorem checkpointed_current (a : Address) (w : World) :
    (checkpointed a w).paidPerToken a = (checkpointed a w).storedRewardPerToken := by
  simp only [checkpointed, update_self]

namespace Sound

variable (h : Sound net w)

include h

/-- The remainder is dropped. -/
theorem covered_restaked (a : Address) (staked total : ℕ) :
    (∑ b, (claims (restaked a staked total (RewardStream.checkpointed a w)) b).worth
        (RewardStream.checkpointed a w).storedRewardPerToken) + 0 ≤
      PARTS * (RewardStream.checkpointed a w).releasedRay := by
  have covered := (h.checkpointed a).covered
  rw [sum_worth_restaked _ _ (checkpointed_current a w)]
  omega

theorem stake (room : w.totalStaked + amount ≤ UINT128_MAX)
    (pulled : w.stakingToken.pullTo Error.erc20 Error.unsupportedTransfer w.self a w.self amount =
      .ok token) : Sound net (afterStake a amount token w) := by
  have base := h.checkpointed a
  have steady := h.toSteady.stake h.balanced a amount token
  have covered := h.covered_restaked a (w.stakedBalance a + amount) (w.totalStaked + amount)
  obtain ⟨received, closed⟩ := TokenLedger.pullTo_received pulled h.stakingToken_closed
  have backed : w.totalStaked + amount ≤ token.balanceOf w.self := by
    rw [received]
    exact Nat.add_le_add_right h.staked_backed _
  exact
    { steady, base with
      stakingToken_closed := closed
      staked_le := room
      staked_backed := backed
      covered := covered }

theorem unstake (within : amount ≤ w.stakedBalance a)
    (sent : w.stakingToken.sendTo Error.erc20 Error.unsupportedTransfer w.self a amount =
      .ok token) : Sound net (afterUnstake a amount token w) := by
  have base := h.checkpointed a
  have steady := h.toSteady.unstake h.balanced within token
  have covered := h.covered_restaked a (w.stakedBalance a - amount) (w.totalStaked - amount)
  obtain ⟨paid, -, allowance⟩ := TokenLedger.sendTo_paid sent
  have backed : w.totalStaked - amount ≤ token.balanceOf w.self := by
    have before := h.staked_backed
    omega
  exact
    { steady, base with
      stakingToken_closed := fun b => by
        rw [← h.stakingToken_closed b, ← allowance]
        rfl
      staked_le := (Nat.sub_le ..).trans h.staked_le
      staked_backed := backed
      covered := covered }

end Sound

/-- A claim turns what is owed into what was received. -/
theorem claims_afterClaim (a : Address) (token : TokenLedger Address) (w : World) :
    claims (afterClaim a token w) = claims (checkpointed a w) := by
  have owed := checkpointed_accrued a w
  funext b
  by_cases hb : b = a
  · subst hb
    simp only [claims, afterClaim, update_self, owed]
    rw [Nat.zero_add, Nat.add_comm (w.claimed b)]
    rfl
  · simp only [claims, afterClaim, update_of_ne hb]
    rfl

namespace Sound

variable (h : Sound net w)

include h

theorem claim (paid : token = w.rewardToken ∧ earnedNow a w = 0 ∨
    w.rewardToken.sendTo Error.erc20 Error.unsupportedTransfer w.self a (earnedNow a w) =
      .ok token) : Sound net (afterClaim a token w) := by
  have base := h.checkpointed a
  have steady := h.toSteady.claim h.balanced a token
  have before := h.backed
  have covered := base.covered
  rw [← claims_afterClaim a token w] at covered
  have moved := sum_update_add w.claimed a (w.claimed a + earnedNow a w)
  have total := h.claimed_eq
  have claimed : w.totalClaimed + earnedNow a w =
      ∑ b, update w.claimed a (w.claimed a + earnedNow a w) b := by omega
  have token_kept : (∀ b, token.allowance w.self b = 0) ∧
      token.balanceOf w.self + earnedNow a w = w.rewardToken.balanceOf w.self := by
    obtain ⟨rfl, none⟩ | sent := paid
    · exact ⟨h.rewardToken_closed, by rw [none, Nat.add_zero]⟩
    · obtain ⟨paid, -, allowance⟩ := TokenLedger.sendTo_paid sent
      exact ⟨fun b => by rw [allowance, h.rewardToken_closed], paid⟩
  obtain ⟨closed, left⟩ := token_kept
  have backed : net ≤ token.balanceOf w.self + (w.totalClaimed + earnedNow a w) := by omega
  exact
    { steady, base with
      rewardToken_closed := closed
      covered := covered
      claimed_eq := claimed
      backed := backed }

theorem funding (room : w.totalFunded + amount ≤ UINT128_MAX)
    (pulled : w.rewardToken.pullTo Error.erc20 Error.unsupportedTransfer w.self a w.self amount =
      .ok token) : Sound (net + amount) (afterFunding amount token w) := by
  have base := h.advanced
  have steady := h.toSteady.funding h.decays.zero h.balanced amount token
  have balanced := h.balanced
  have reserve := h.reserve_eq
  have before := h.backed
  obtain ⟨received, closed⟩ := TokenLedger.pullTo_received pulled h.rewardToken_closed
  have split : remainingNow w + amount * RAY + (w.releasedRay + emissionNow w) =
      RAY * (net + amount) + 0 := by
    rw [Nat.mul_add, Nat.mul_comm RAY amount]
    omega
  have backed : net + amount ≤ token.balanceOf w.self + w.totalClaimed := by omega
  exact
    { steady, base with
      rewardToken_closed := closed
      funded_le := room
      net_le := Nat.add_le_add_right h.net_le _
      reserve_eq := split
      accounted_le := Nat.zero_le _
      backed := backed }

theorem recovery (within : amount * RAY ≤ remainingNow w)
    (sent : w.rewardToken.sendTo Error.erc20 Error.unsupportedTransfer w.self a amount =
      .ok token) : Sound (net - amount) (afterRecovery amount token w) := by
  have base := h.advanced
  have steady := h.toSteady.recovery h.decays.zero h.balanced amount token
  have balanced := h.balanced
  have reserve := h.reserve_eq
  have before := h.backed
  obtain ⟨paid, -, allowance⟩ := TokenLedger.sendTo_paid sent
  have split : remainingNow w - amount * RAY + (w.releasedRay + emissionNow w) =
      RAY * (net - amount) + 0 := by
    rw [Nat.mul_sub, Nat.mul_comm RAY amount]
    omega
  have backed : net - amount ≤ token.balanceOf w.self + w.totalClaimed := by omega
  exact
    { steady, base with
      rewardToken_closed := fun b => by
        rw [← h.rewardToken_closed b, ← allowance]
        rfl
      net_le := (Nat.sub_le ..).trans h.net_le
      reserve_eq := split
      accounted_le := Nat.zero_le _
      backed := backed }

theorem elapse {seconds blocks : ℕ} (fits : w.now + seconds < MODULUS) :
    Sound net { w with now := w.now + seconds, block := w.block + blocks } :=
  { h with
    updated_le := h.updated_le.trans (Nat.le_add_right ..)
    now_lt := fits }

theorem callStakingToken {call : TokenCall Address} (done : call.exec w.stakingToken = some token)
    (away : call.sender ≠ some w.self) : Sound net { w with stakingToken := token } :=
  { h with
    stakingToken_closed := TokenCall.exec_keeps_closed done away h.stakingToken_closed
    staked_backed :=
      h.staked_backed.trans (TokenCall.exec_closed done away h.stakingToken_closed).1 }

theorem callRewardToken {call : TokenCall Address} (done : call.exec w.rewardToken = some token)
    (away : call.sender ≠ some w.self) : Sound net { w with rewardToken := token } :=
  { h with
    rewardToken_closed := TokenCall.exec_keeps_closed done away h.rewardToken_closed
    backed := h.backed.trans (Nat.add_le_add_right
      (TokenCall.exec_closed done away h.rewardToken_closed).1 _) }

/-! ### No call fails in its arithmetic -/

omit h in
theorem pullExact_ne_panic (spender src dst : Address) (amount : ℕ) (t : TokenLedger Address) :
    t.pullExact Error.erc20 Error.unsupportedTransfer spender src dst amount ≠
      .error Error.panic := by
  simp [TokenLedger.pullExact, TokenLedger.pullTo, bind_ne_error]

omit h in
theorem sendExact_ne_panic (src dst : Address) (amount : ℕ) (t : TokenLedger Address) :
    t.sendExact Error.erc20 Error.unsupportedTransfer src dst amount ≠ .error Error.panic := by
  simp [TokenLedger.sendExact, TokenLedger.sendTo, bind_ne_error]

theorem stake_ne_panic : RewardStream.stake sender amount w ≠ .error .panic := by
  have staked := h.staked_le
  have part := le_sum w.stakedBalance sender
  have sum := h.staked_eq
  simp only [RewardStream.stake, bind_ne_error, h.checkpoint_eq, ne_eq, revertIf_eq_error,
    checkedSub_eq_error, checkedSub_eq_ok, revertIf_eq_ok, reduceCtorEq, and_false, and_true,
    not_false_eq_true, true_and, Except.ok.injEq, pure_ne_error]
  intro _ _
  refine ⟨by omega, ?_⟩
  rintro room ⟨-, rfl⟩ - within v rfl
  have fits := lt_modulus_of_le_max (a := w.totalStaked + amount) (by omega)
  refine ⟨pullExact_ne_panic _ _ _ _ _, fun token _ => ?_⟩
  simp only [RewardStream.checkpointed, RewardStream.advanced, checkedAdd_eq_error, and_true,
    not_le]
  exact ⟨by omega, fun _ _ => ⟨fits, fun _ _ => trivial⟩⟩

theorem unstake_ne_panic : RewardStream.unstake sender amount w ≠ .error .panic := by
  have part := le_sum w.stakedBalance sender
  have sum := h.staked_eq
  simp only [RewardStream.unstake, bind_ne_error, h.checkpoint_eq, ne_eq, revertIf_eq_error,
    revertIf_eq_ok, reduceCtorEq, and_false, not_false_eq_true, true_and, Except.ok.injEq,
    pure_ne_error, not_or, not_lt]
  rintro - within - - v rfl
  simp only [RewardStream.checkpointed, RewardStream.advanced, checkedSub_eq_error, and_true,
    not_lt]
  exact ⟨within.2, fun _ _ => ⟨by omega, fun _ _ => ⟨sendExact_ne_panic _ _ _ _, fun _ _ => trivial⟩⟩⟩

theorem claim_ne_panic : RewardStream.claim sender w ≠ .error .panic := by
  have earned := h.earned_le sender
  have word := lt_modulus_of_le_max (earned.trans h.net_word)
  simp only [RewardStream.claim, bind_ne_error, h.checkpoint_eq, ne_eq, reduceCtorEq,
    not_false_eq_true, true_and, Except.ok.injEq]
  rintro v rfl
  rw [checkpointed_accrued]
  split_ifs
  · simp
  · simp only [bind_ne_error, checkedAdd_eq_error, and_true, not_le, ne_eq, pure_ne_error,
      not_false_eq_true]
    refine ⟨?_, fun _ _ => ⟨sendExact_ne_panic _ _ _ _, fun _ _ => trivial⟩⟩
    rw [Nat.add_comm]
    exact word

theorem receiveFunding_ne_panic (room : w.totalFunded + amount ≤ UINT128_MAX) :
    receiveFunding sender amount w ≠ .error .panic := by
  have funded := lt_modulus_of_le_max room
  have ray := word_of_ray room
  have net := h.net_le
  have balanced := h.balanced
  have reserve := h.reserve_eq
  have released := h.accounted_le
  have left : remainingNow w + amount * RAY ≤ RAY * (w.totalFunded + amount) := by
    have grown := Nat.mul_le_mul_left RAY net
    rw [Nat.mul_add, Nat.mul_comm RAY amount]
    omega
  simp only [receiveFunding, bind_ne_error, h.accrue_eq, ne_eq, reduceCtorEq, not_false_eq_true,
    true_and, Except.ok.injEq]
  rintro ⟨v, _⟩ same
  obtain ⟨rfl, rfl⟩ := Prod.mk.inj same
  simp only [RewardStream.advanced, checkedAdd_eq_error, and_true, not_le, pure_ne_error,
    not_false_eq_true]
  refine ⟨pullExact_ne_panic _ _ _ _ _, fun _ _ => ⟨funded, fun _ _ => ⟨?_, fun added product => ?_⟩⟩⟩
  · rw [checkedMul, if_pos (by omega)]
    simp
  · obtain ⟨-, rfl⟩ := (checkedMul_eq_ok ..).mp product
    exact ⟨by omega, fun _ _ => trivial⟩

theorem checkFunding_ne_panic : checkFunding sender amount w ≠ .error .panic := by
  have funded := h.funded_le
  simp only [checkFunding, bind_ne_error, ne_eq, revertIf_eq_error, checkedSub_eq_error,
    reduceCtorEq, and_false, not_false_eq_true, and_true, true_and, not_lt]
  exact fun _ _ _ _ => ⟨funded, fun _ _ => trivial⟩

/-! ### What an account can always do -/

theorem claim_succeeds (apart : sender ≠ w.self) : ∃ w', RewardStream.claim sender w = .ok w' := by
  have earned := h.earned_le sender
  have word := lt_modulus_of_le_max (earned.trans h.net_word)
  have backed := h.backed
  rw [RewardStream.claim, h.checkpoint_eq, ok_bind]
  simp only [checkpointed_accrued]
  split_ifs
  · exact ⟨_, rfl⟩
  · have sent : w.rewardToken.sendExact Error.erc20 Error.unsupportedTransfer w.self sender
        (earnedNow sender w) = .ok (w.rewardToken.move w.self sender (earnedNow sender w)) :=
      TokenLedger.sendExact_eq_ok.mpr
        (TokenLedger.sendTo_eq_ok.mpr ⟨by omega, .inl apart.symm, rfl⟩)
    have counted : checkedAdd w.totalClaimed (earnedNow sender w) Error.panic =
        .ok (w.totalClaimed + earnedNow sender w) :=
      (checkedAdd_eq_ok ..).mpr ⟨by omega, rfl⟩
    simp only [bind_eq_ok, pure_eq_ok]
    exact ⟨_, _, counted, _, sent, rfl⟩

theorem unstake_succeeds (apart : sender ≠ w.self) (some : amount ≠ 0)
    (within : amount ≤ w.stakedBalance sender) (later : w.lastStakeBlock sender < w.block) :
    ∃ w', RewardStream.unstake sender amount w = .ok w' := by
  have part := le_sum w.stakedBalance sender
  have sum := h.staked_eq
  have backed := h.staked_backed
  have sent : w.stakingToken.sendExact Error.erc20 Error.unsupportedTransfer w.self sender amount =
      .ok (w.stakingToken.move w.self sender amount) :=
    TokenLedger.sendExact_eq_ok.mpr
      (TokenLedger.sendTo_eq_ok.mpr ⟨by omega, .inl apart.symm, rfl⟩)
  simp only [RewardStream.unstake, bind_eq_ok, revertIf_eq_ok, checkedSub_eq_ok, exists_const,
    not_or, not_lt, not_le, h.checkpoint_eq, Except.ok.injEq, exists_eq_left', pure_eq_ok]
  exact ⟨_, ⟨some, within⟩, later, _, ⟨within, rfl⟩, _, ⟨(within.trans part).trans sum.ge, rfl⟩, _,
    sent, rfl⟩

end Sound

/-- A stream starts with nothing. -/
theorem Deployed.sound (h : Deployed w) (decays : w.cfg.Decays) : Sound 0 w := by
  have now := h.now_lt
  have staking := h.stakingToken_closed
  have reward := h.rewardToken_closed
  have nothing (index : ℕ) : IndexClaim.worth index ⟨SCALE * (0 + 0) + 0, 0, 0⟩ = 0 := by
    simp only [IndexClaim.worth, Nat.zero_mul]
    rfl
  rw [h.storage_eq]
  exact
    { staked_eq := sum_const_zero.symm
      updated_le := le_rfl
      anchored_le := le_rfl
      accounted_eq := mulDiv_zero_left ..
      remainder_lt := fun some => absurd rfl some
      remainder_eq := fun _ => rfl
      paid_le := fun _ => le_rfl
      fraction_lt := fun _ => SCALE_pos
      decays := decays
      stakingToken_closed := staking
      rewardToken_closed := reward
      staked_le := Nat.zero_le _
      staked_backed := Nat.zero_le _
      funded_le := Nat.zero_le _
      net_le := le_rfl
      reserve_eq := rfl
      accounted_le := le_rfl
      covered := by
        simp only [claims, constructed, nothing, sum_const_zero]
        exact Nat.zero_le _
      index_le := Nat.zero_le _
      claimed_eq := sum_const_zero.symm
      backed := Nat.zero_le _
      active_le := Nat.zero_le _
      now_lt := now }

end Turret.RewardStream
