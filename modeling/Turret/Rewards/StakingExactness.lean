import Turret.Rewards.StakingBooks

/-! `TurretStaking` is exact: the books hold in every run, they leave less of
the fundings unshared than one base unit of the index for each unit staked,
and so no call fails in its arithmetic and every account is paid in whatever
order they claim. -/

namespace Turret.TurretStaking

open Execution Finset Function Rounding Uint256

variable {w w' : World} {a sender : Address} {amount : ℕ} {token : TokenLedger Address}
  {fs : List Funding}

namespace Books

variable (h : Books fs w)

include h

/-! ### What keeps the books -/

theorem stake (room : w.totalStaked + amount ≤ UINT128_MAX)
    (pulled : w.stakingToken.pullTo Error.erc20 Error.unsupportedTransfer w.self a w.self amount =
      .ok token) : Books fs (afterStake a amount token w) := by
  have base := h.checkpointed a
  have moved := sum_update_add w.stakedBalance a (w.stakedBalance a + amount)
  have sum := h.staked_eq
  obtain ⟨received, closed⟩ := TokenLedger.pullTo_received pulled h.stakingToken_closed
  have backed : w.totalStaked + amount ≤ token.balanceOf w.self := by
    rw [received]
    exact Nat.add_le_add_right h.staked_backed _
  exact
    { base with
      stakingToken_closed := closed
      staked_eq := by
        simp only [afterStake]
        omega
      staked_le := room
      staked_backed := backed
      exact := fun b => (worth_restaked a b _ (update_self ..)).trans (base.exact b) }

theorem unstake (within : amount ≤ w.stakedBalance a)
    (sent : w.stakingToken.sendTo Error.erc20 Error.unsupportedTransfer w.self a amount =
      .ok token) : Books fs (afterUnstake a amount token w) := by
  have base := h.checkpointed a
  have moved := sum_update_add w.stakedBalance a (w.stakedBalance a - amount)
  have part := le_sum w.stakedBalance a
  have sum := h.staked_eq
  obtain ⟨paid, -, allowance⟩ := TokenLedger.sendTo_paid sent
  have before := h.staked_backed
  exact
    { base with
      stakingToken_closed := fun b => by
        rw [← h.stakingToken_closed b, ← allowance]
        rfl
      staked_eq := by
        simp only [afterUnstake]
        omega
      staked_le := (Nat.sub_le ..).trans h.staked_le
      staked_backed := by
        change w.totalStaked - amount ≤ token.balanceOf w.self
        omega
      exact := fun b => (worth_restaked a b _ (update_self ..)).trans (base.exact b) }

/-- What is paid moves from what is owed to what was received. -/
theorem claim (paid : token = w.rewardToken ∧ earnedNow a w = 0 ∨
    w.rewardToken.sendTo Error.erc20 Error.unsupportedTransfer w.self a (earnedNow a w) =
      .ok token) : Books fs (afterClaim a token w) := by
  have base := h.checkpointed a
  have moved := sum_update_add w.claimed a (w.claimed a + earnedNow a w)
  have total := h.claimed_eq
  have before := h.backed
  have kept : (∀ b, token.allowance w.self b = 0) ∧
      token.balanceOf w.self + earnedNow a w = w.rewardToken.balanceOf w.self := by
    obtain ⟨rfl, none⟩ | sent := paid
    · exact ⟨h.rewardToken_closed, by rw [none, Nat.add_zero]⟩
    · obtain ⟨paid, -, allowance⟩ := TokenLedger.sendTo_paid sent
      exact ⟨fun b => by rw [allowance, h.rewardToken_closed], paid⟩
  obtain ⟨closed, left⟩ := kept
  have same : claims (afterClaim a token w) = claims (TurretStaking.checkpointed a w) := by
    funext b
    by_cases hb : b = a
    · subst hb
      simp only [claims, afterClaim, TurretStaking.checkpointed, update_self, Nat.add_zero]
    · simp only [claims, afterClaim, TurretStaking.checkpointed, update_of_ne hb]
  exact
    { base with
      rewardToken_closed := closed
      exact := fun b => by
        rw [same]
        exact base.exact b
      claimed_eq := by
        simp only [afterClaim]
        omega
      backed := by
        simp only [afterClaim]
        change w.totalFunded ≤ token.balanceOf w.self + (w.totalClaimed + earnedNow a w)
        omega }

theorem funding (some : w.totalStaked ≠ 0) (room : w.totalFunded + amount ≤ UINT128_MAX)
    (pulled : w.rewardToken.pullTo Error.erc20 Error.unsupportedTransfer w.self a w.self amount =
      .ok token) : Books (fs ++ [fundingOf amount w]) (afterFunding amount token w) := by
  have before := h.backed
  obtain ⟨received, closed⟩ := TokenLedger.pullTo_received pulled h.rewardToken_closed
  refine
    { h with
      rewardToken_closed := closed
      funded_le := room
      funded_eq := ?_
      shared := ?_
      index_eq := ?_
      paid_le := fun b => (h.paid_le b).trans (Nat.le_add_right ..)
      exact := fun b => ?_
      backed := ?_ }
  · rw [List.map_append, List.sum_append, ← h.funded_eq, List.map_singleton, List.sum_singleton]
    rfl
  · intro f inside
    rcases List.mem_append.mp inside with old | new
    · exact h.shared f old
    · rw [List.mem_singleton.mp new]
      exact ⟨some, h.staked_eq⟩
  · rw [List.map_append, List.sum_append, ← h.index_eq, List.map_singleton, List.sum_singleton]
    rfl
  · have added : (claims w b).worth (w.rewardPerToken + (fundingOf amount w).increment) =
        (claims w b).worth w.rewardPerToken + w.stakedBalance b * (fundingOf amount w).increment :=
      IndexClaim.worth_add (h.paid_le b)
    rw [brought, List.map_append, List.sum_append, ← brought, ← h.exact b, List.map_singleton,
      List.sum_singleton]
    exact added
  · change w.totalFunded + amount ≤ token.balanceOf w.self + w.totalClaimed
    omega

theorem callStakingToken {call : TokenCall Address} (done : call.exec w.stakingToken = some token)
    (away : call.sender ≠ some w.self) : Books fs { w with stakingToken := token } :=
  { h with
    stakingToken_closed := TokenCall.exec_keeps_closed done away h.stakingToken_closed
    staked_backed :=
      h.staked_backed.trans (TokenCall.exec_closed done away h.stakingToken_closed).1 }

theorem callRewardToken {call : TokenCall Address} (done : call.exec w.rewardToken = some token)
    (away : call.sender ≠ some w.self) : Books fs { w with rewardToken := token } :=
  { h with
    rewardToken_closed := TokenCall.exec_keeps_closed done away h.rewardToken_closed
    backed := h.backed.trans (Nat.add_le_add_right
      (TokenCall.exec_closed done away h.rewardToken_closed).1 _) }

/-- A call that funds nothing. -/
theorem plain : Books (fs ++ []) w := by
  rw [List.append_nil]
  exact h

theorem exec {op : Op} (done : exec op w = .ok w') : Books (fs ++ op.funding w) w' := by
  simp only [TurretStaking.exec, bind_eq_ok, revertIf_eq_ok, exists_const] at done
  obtain ⟨away, done⟩ := done
  cases op with
  | stake sender amount =>
    obtain ⟨⟨-, room⟩, token, pulled, rfl⟩ := stake_ok done
    exact (h.stake room pulled).plain
  | unstake sender amount =>
    obtain ⟨⟨-, within⟩, token, sent, rfl⟩ := unstake_ok done
    exact (h.unstake within sent).plain
  | distribute sender amount =>
    obtain ⟨⟨some, room⟩, token, pulled, rfl⟩ := distribute_ok done
    exact h.funding some room pulled
  | claim sender =>
    obtain ⟨token, rfl, paid⟩ := claim_ok done
    exact (h.claim paid).plain
  | stakingToken call =>
    simp only [TurretStaking.callStakingToken, bind_eq_ok, orRevert_eq_ok, pure_eq_ok] at done
    obtain ⟨token, called, rfl⟩ := done
    exact (h.callStakingToken called away).plain
  | rewardToken call =>
    simp only [TurretStaking.callRewardToken, bind_eq_ok, orRevert_eq_ok, pure_eq_ok] at done
    obtain ⟨token, called, rfl⟩ := done
    exact (h.callRewardToken called away).plain
  | mine blocks =>
    obtain rfl := (pure_eq_ok ..).mp done
    exact plain { h with }

end Books

theorem fundings_append {ops : List Op} (run : Run (accepts exec) w ops w') (more : List Op) :
    fundings w (ops ++ more) = fundings w ops ++ fundings w' more := by
  induction run with
  | nil s => rfl
  | cons first rest ih =>
    have first := first
    rw [accepts] at first
    simp only [List.cons_append, fundings, first, ih, List.append_assoc]

/-- The books of a run are those of its fundings. -/
theorem run_books {w₀ : World} {ops : List Op} (h : Deployed w₀) (run : Run (accepts exec) w₀ ops w) :
    Books (fundings w₀ ops) w := by
  have kept := run.history
    (fun before v => Run (accepts exec) w₀ before v ∧ Books (fundings w₀ before) v)
    (fun before v op v' ⟨reached, books⟩ done => ⟨reached.snoc done, by
      have more := books.exec done
      have one : fundings v [op] = op.funding v := by
        have same : TurretStaking.exec op v = .ok v' := done
        simp only [fundings, same, List.append_nil]
      rw [fundings_append reached, one]
      exact more⟩)
    ⟨.nil w₀, h.books⟩
  exact kept.2

/-! ### What is left unshared -/

/-- A funding shares all but less than one part of the scale for each unit staked. -/
theorem Funding.shared_le (f : Funding) : f.totalStaked * f.increment ≤ f.amount * SCALE := by
  rw [Nat.mul_comm]
  exact mulDiv_mul_le ..

theorem Funding.lt_shared {f : Funding} (some : f.totalStaked ≠ 0) :
    f.amount * SCALE < f.totalStaked * f.increment + f.totalStaked := by
  have exact := Nat.div_add_mod (f.amount * SCALE) f.totalStaked
  have rest := Nat.mod_lt (f.amount * SCALE) (Nat.pos_of_ne_zero some)
  rw [Funding.increment, mulDiv]
  omega

/-- All that fundings have brought, in parts of the scale. -/
def allBrought (fs : List Funding) : ℕ := (fs.map fun f => f.totalStaked * f.increment).sum

theorem sum_brought (shared : ∀ f ∈ fs, f.totalStaked = ∑ a, f.staked a) :
    ∑ a, brought fs a = allBrought fs := by
  induction fs with
  | nil => exact sum_const_zero
  | cons f fs ih =>
    have rest := ih fun g inside => shared g (List.mem_cons_of_mem _ inside)
    have head := shared f List.mem_cons_self
    have split (a : Address) : brought (f :: fs) a = f.staked a * f.increment + brought fs a :=
      List.sum_cons
    simp only [split, sum_add_distrib, rest, ← sum_mul, ← head]
    exact List.sum_cons.symm

theorem allBrought_le (fs : List Funding) :
    allBrought fs ≤ (fs.map Funding.amount).sum * SCALE := by
  induction fs with
  | nil => exact Nat.zero_le _
  | cons f fs ih =>
    have head := f.shared_le
    simp only [allBrought, List.map_cons, List.sum_cons, Nat.add_mul] at ih ⊢
    omega

theorem lt_allBrought (shared : ∀ f ∈ fs, f.totalStaked ≠ 0) :
    (fs.map Funding.amount).sum * SCALE <
      allBrought fs + (1 + (fs.map Funding.totalStaked).sum) := by
  induction fs with
  | nil => simp [allBrought]
  | cons f fs ih =>
    have rest := ih fun g inside => shared g (List.mem_cons_of_mem _ inside)
    have head := Funding.lt_shared (shared f List.mem_cons_self)
    simp only [allBrought, List.map_cons, List.sum_cons, Nat.add_mul] at rest ⊢
    omega

theorem sum_increment_le (shared : ∀ f ∈ fs, f.totalStaked ≠ 0) :
    (fs.map Funding.increment).sum ≤ allBrought fs := by
  induction fs with
  | nil => exact Nat.zero_le _
  | cons f fs ih =>
    have rest := ih fun g inside => shared g (List.mem_cons_of_mem _ inside)
    have head := Nat.le_mul_of_pos_left f.increment
      (Nat.pos_of_ne_zero (shared f List.mem_cons_self))
    simp only [allBrought, List.map_cons, List.sum_cons] at rest ⊢
    exact Nat.add_le_add head rest

theorem word_of_scaled {n : ℕ} (h : n ≤ UINT128_MAX) : n * SCALE + UINT128_MAX < MODULUS := by
  have scale : SCALE = 10 ^ 36 := by rw [SCALE]
  simp only [UINT128_MAX, MODULUS, scale] at h ⊢
  omega

theorem two_scales_lt : SCALE + SCALE < MODULUS := by
  rw [SCALE, MODULUS]
  decide

namespace Books

variable (h : Books fs w)

include h

theorem sum_worth : ∑ a, (claims w a).worth w.rewardPerToken = allBrought fs := by
  rw [← sum_brought fun f inside => (h.shared f inside).2]
  exact sum_congr rfl fun a _ => h.exact a

theorem sum_worth_le : ∑ a, (claims w a).worth w.rewardPerToken ≤ w.totalFunded * SCALE := by
  rw [h.sum_worth, h.funded_eq]
  exact allBrought_le fs

/-- What accounts received and are owed was funded. -/
theorem sum_earned_le : ∑ a, (w.claimed a + earnedNow a w) ≤ w.totalFunded := by
  refine Nat.le_of_mul_le_mul_left ?_ SCALE_pos
  rw [mul_sum, Nat.mul_comm SCALE]
  exact (sum_le_sum fun a _ => earned_scale_le a w).trans h.sum_worth_le

theorem sum_owed_le : (∑ a, earnedNow a w) + w.totalClaimed ≤ w.totalFunded := by
  have within := h.sum_earned_le
  rw [sum_add_distrib, ← h.claimed_eq] at within
  omega

theorem earned_le (a : Address) : earnedNow a w + w.totalClaimed ≤ w.totalFunded :=
  (Nat.add_le_add_right (le_sum (earnedNow · w) a) _).trans h.sum_owed_le

theorem settlement_eq (a : Address) : settlement a w = .ok (settled a w) := by
  have paid := h.paid_le a
  have word := lt_modulus_of_le_max
    ((Nat.le_add_right ..).trans ((h.earned_le a).trans h.funded_le))
  have fraction := h.fraction_lt a
  have scales := two_scales_lt
  have small := Nat.mod_lt (w.stakedBalance a * (w.rewardPerToken - w.paidPerToken a)) SCALE_pos
  simp only [earnedNow, settled, carry] at word
  have parts : ∀ x y z : ℕ, x + (y + z) < MODULUS → y < MODULUS ∧ y + z < MODULUS :=
    fun x y z fits => by omega
  obtain ⟨wholeWord, gainedWord⟩ := parts _ _ _ word
  simp only [settlement, bind_eq_ok, checkedSub_eq_ok, checkedAdd_eq_ok, checkedMulDiv_eq_ok,
    pure_eq_ok]
  exact ⟨_, ⟨paid, rfl⟩, _, ⟨by omega, rfl⟩, _, ⟨⟨SCALE_pos.ne', wholeWord⟩, rfl⟩, _,
    ⟨gainedWord, rfl⟩, _, ⟨word, rfl⟩, rfl⟩

theorem checkpoint_eq (a : Address) : checkpoint a w = .ok (TurretStaking.checkpointed a w) := by
  rw [checkpoint, h.settlement_eq a, ok_bind]
  rfl

theorem earned_eq (a : Address) : earned a w = .ok (earnedNow a w) := by
  rw [earned, h.settlement_eq a, ok_bind]
  rfl

/-! ### No call fails in its arithmetic -/

theorem stake_ne_panic : TurretStaking.stake sender amount w ≠ .error .panic := by
  have staked := h.staked_le
  have part := le_sum w.stakedBalance sender
  have sum := h.staked_eq
  simp only [TurretStaking.stake, bind_ne_error, h.checkpoint_eq, ne_eq, revertIf_eq_error,
    checkedSub_eq_error, checkedSub_eq_ok, revertIf_eq_ok, reduceCtorEq, and_false, and_true,
    not_false_eq_true, true_and, Except.ok.injEq, pure_ne_error]
  intro _ _
  refine ⟨by omega, ?_⟩
  rintro room ⟨-, rfl⟩ - within v rfl
  have fits := lt_modulus_of_le_max (a := w.totalStaked + amount) (by omega)
  refine ⟨by simp [TokenLedger.pullExact, TokenLedger.pullTo, bind_ne_error], fun token _ => ?_⟩
  simp only [TurretStaking.checkpointed, checkedAdd_eq_error, and_true, not_le]
  exact ⟨by omega, fun _ _ => ⟨fits, fun _ _ => trivial⟩⟩

theorem unstake_ne_panic : TurretStaking.unstake sender amount w ≠ .error .panic := by
  have part := le_sum w.stakedBalance sender
  have sum := h.staked_eq
  simp only [TurretStaking.unstake, bind_ne_error, h.checkpoint_eq, ne_eq, revertIf_eq_error,
    revertIf_eq_ok, reduceCtorEq, and_false, not_false_eq_true, true_and, Except.ok.injEq,
    pure_ne_error, not_or, not_lt]
  rintro - within - - v rfl
  simp only [TurretStaking.checkpointed, checkedSub_eq_error, and_true, not_lt]
  refine ⟨within.2, fun _ _ => ⟨by omega, fun _ _ => ⟨?_, fun _ _ => trivial⟩⟩⟩
  simp [TokenLedger.sendExact, TokenLedger.sendTo, bind_ne_error]

theorem claim_ne_panic : TurretStaking.claim sender w ≠ .error .panic := by
  have earned := h.earned_le sender
  have word := lt_modulus_of_le_max (earned.trans h.funded_le)
  simp only [TurretStaking.claim, bind_ne_error, h.checkpoint_eq, ne_eq, reduceCtorEq,
    not_false_eq_true, true_and, Except.ok.injEq]
  rintro v rfl
  rw [checkpointed_accrued]
  split_ifs
  · simp
  · simp only [bind_ne_error, checkedAdd_eq_error, and_true, not_le, ne_eq, pure_ne_error,
      not_false_eq_true]
    refine ⟨?_, fun _ _ => ⟨?_, fun _ _ => trivial⟩⟩
    · rw [Nat.add_comm]
      exact word
    · simp [TokenLedger.sendExact, TokenLedger.sendTo, bind_ne_error]

theorem index_le : w.rewardPerToken ≤ w.totalFunded * SCALE := by
  rw [h.index_eq, h.funded_eq]
  exact (sum_increment_le fun f inside => (h.shared f inside).1).trans (allBrought_le fs)

theorem distribute_ne_panic : TurretStaking.distribute sender amount w ≠ .error .panic := by
  have funded := h.funded_le
  have index := h.index_le
  simp only [TurretStaking.distribute, bind_ne_error, ne_eq, revertIf_eq_error,
    checkedSub_eq_error, checkedSub_eq_ok, revertIf_eq_ok, reduceCtorEq, and_false, and_true,
    not_false_eq_true, true_and, pure_ne_error]
  intro _ _ _ some _ _
  refine ⟨by omega, ?_⟩
  rintro room ⟨-, rfl⟩ - within
  have fits : w.totalFunded + amount ≤ UINT128_MAX := by omega
  have scaled := word_of_scaled fits
  have growth : mulDiv amount SCALE w.totalStaked ≤ amount * SCALE := Nat.div_le_self ..
  rw [Nat.add_mul] at scaled
  refine ⟨by simp [TokenLedger.pullExact, TokenLedger.pullTo, bind_ne_error], fun _ _ => ?_⟩
  simp only [checkedAdd_eq_error, and_true, not_le]
  refine ⟨lt_modulus_of_le_max fits, fun _ _ => ⟨?_, fun d product => ⟨?_, fun _ _ => trivial⟩⟩⟩
  · rw [checkedMulDiv, if_pos ⟨some, by omega⟩]
    simp
  · obtain ⟨-, rfl⟩ := (checkedMulDiv_eq_ok ..).mp product
    omega

theorem exec_ne_panic (op : Op) : TurretStaking.exec op w ≠ .error .panic := by
  simp only [TurretStaking.exec, bind_ne_error, ne_eq, revertIf_eq_error, reduceCtorEq,
    and_false, not_false_eq_true, true_and]
  intro _ _
  cases op with
  | stake sender amount => exact h.stake_ne_panic
  | unstake sender amount => exact h.unstake_ne_panic
  | distribute sender amount => exact h.distribute_ne_panic
  | claim sender => exact h.claim_ne_panic
  | stakingToken call => simp [TurretStaking.callStakingToken]
  | rewardToken call => simp [TurretStaking.callRewardToken]
  | mine blocks => simp

/-! ### Earnings -/

omit h in
/-- An account that is up to date has earned what it has accrued. -/
theorem earnedNow_current (current : w.paidPerToken a = w.rewardPerToken)
    (fraction : w.fractionalReward a < SCALE) : earnedNow a w = w.accrued a := by
  have none : w.stakedBalance a * (w.rewardPerToken - w.paidPerToken a) = 0 := by
    rw [current, Nat.sub_self, Nat.mul_zero]
  rw [earnedNow, settled, carry_zero fraction none]
  rfl

omit h in
/-- A stake earns nothing from what was funded before it. -/
theorem earnedNow_afterStake (a b : Address) (amount : ℕ) (token : TokenLedger Address) :
    earnedNow b (afterStake a amount token w) = earnedNow b w := by
  by_cases hb : b = a
  · subst hb
    have fraction : (afterStake b amount token w).fractionalReward b < SCALE := by
      simpa only [afterStake, TurretStaking.checkpointed, update_self] using settled_snd_lt b w
    rw [earnedNow_current (update_self ..) fraction]
    exact checkpointed_accrued b w
  · simp only [earnedNow, settled, afterStake, TurretStaking.checkpointed, update_of_ne hb]

omit h in
theorem earnedNow_afterClaim (a b : Address) (token : TokenLedger Address) :
    earnedNow b (afterClaim a token w) = if b = a then 0 else earnedNow b w := by
  by_cases hb : b = a
  · subst hb
    have fraction : (afterClaim b token w).fractionalReward b < SCALE := by
      simpa only [afterClaim, TurretStaking.checkpointed, update_self] using settled_snd_lt b w
    rw [earnedNow_current (update_self ..) fraction, if_pos rfl]
    exact update_self ..
  · rw [if_neg hb]
    simp only [earnedNow, settled, afterClaim, TurretStaking.checkpointed, update_of_ne hb]

end Books

/-- What claims leave to an account: what it received and what it has earned make the same. -/
structure Settles (a : Address) (w w' : World) : Prop where
  claimed_eq : w'.claimed a + earnedNow a w' = w.claimed a + earnedNow a w
  balance_eq : a ≠ w.self →
    w'.rewardToken.balanceOf a + earnedNow a w' = w.rewardToken.balanceOf a + earnedNow a w

namespace Books

variable (h : Books fs w)

include h

theorem claim_settles (apart : a ≠ w.self) : ∃ w', TurretStaking.exec (.claim a) w = .ok w' ∧
    w'.cfg = w.cfg ∧ (∀ b, Settles b w w') ∧
    ∀ b, earnedNow b w' = if b = a then 0 else earnedNow b w := by
  have earned := h.earned_le a
  have word := lt_modulus_of_le_max (earned.trans h.funded_le)
  have backed := h.backed
  have allowed : ¬(Op.claim a).sender = some w.self := fun same => apart (Option.some.inj same)
  let token := w.rewardToken.move w.self a (earnedNow a w)
  have claimed : TurretStaking.claim a w = .ok (afterClaim a token w) := by
    rw [TurretStaking.claim, h.checkpoint_eq, ok_bind]
    simp only [checkpointed_accrued]
    split_ifs with none
    · have still : token.balanceOf = w.rewardToken.balanceOf := by
        simp only [token, none]
        simp [TokenLedger.move]
      have same : token = w.rewardToken := congrArg (TokenLedger.mk · w.rewardToken.allowance) still
      rw [same, afterClaim, none, Nat.add_zero, Nat.add_zero, update_eq_self,
        TurretStaking.checkpointed, none]
      rfl
    · have sent : w.rewardToken.sendExact Error.erc20 Error.unsupportedTransfer w.self a
          (earnedNow a w) = .ok token :=
        TokenLedger.sendExact_eq_ok.mpr
          (TokenLedger.sendTo_eq_ok.mpr ⟨by omega, .inl apart.symm, rfl⟩)
      simp only [bind_eq_ok, checkedAdd_eq_ok, pure_eq_ok]
      refine ⟨_, ⟨by rw [Nat.add_comm]; exact word, rfl⟩, token, sent, ?_⟩
      simp only [afterClaim, TurretStaking.checkpointed, update_idem]
  refine ⟨afterClaim a token w, ?_, rfl, fun b => ⟨?_, fun other => ?_⟩,
    fun b => earnedNow_afterClaim a b token⟩
  · rw [TurretStaking.exec, revertIf, if_neg allowed, ok_bind]
    exact claimed
  · rw [earnedNow_afterClaim]
    by_cases hb : b = a
    · subst hb
      simp [afterClaim]
    · simp [afterClaim, hb]
  · rw [earnedNow_afterClaim]
    change token.balanceOf b + _ = _
    by_cases hb : b = a
    · subst hb
      rw [if_pos rfl, Nat.add_zero]
      exact TokenLedger.move_dst apart.symm ..
    · rw [if_neg hb, TokenLedger.move_other other hb]

end Books

/-- In every order, with repetitions too, each claim succeeds and pays what was earned. -/
theorem claims_settle (order : List Address) (h : Books fs w) (away : w.self ∉ order) :
    ∃ w', execAll exec (order.map .claim) w = .ok w' ∧ (∀ b, Settles b w w') ∧
      (∀ b, earnedNow b w = 0 → earnedNow b w' = 0) ∧ ∀ b ∈ order, earnedNow b w' = 0 := by
  induction order generalizing w fs with
  | nil => exact ⟨w, rfl, fun b => ⟨rfl, fun _ => rfl⟩, fun _ none => none,
      fun _ inside => absurd inside List.not_mem_nil⟩
  | cons a order ih =>
    obtain ⟨v, done, cfg, settles, left⟩ := h.claim_settles (a := a)
      fun same => away (same ▸ List.mem_cons_self)
    have self : v.self = w.self := congrArg Config.self cfg
    obtain ⟨w', rest, after, still, none⟩ := ih (h.exec done)
      fun inside => away (List.mem_cons_of_mem _ (self ▸ inside))
    refine ⟨w', ?_, fun b => ⟨(after b).claimed_eq.trans (settles b).claimed_eq, fun other => ?_⟩,
      fun b zero => still b ?_, fun b inside => ?_⟩
    · rw [List.map_cons, execAll, done, ok_bind]
      exact rest
    · exact ((after b).balance_eq (self ▸ other)).trans ((settles b).balance_eq other)
    · rw [left b, zero, ite_self]
    · rcases List.mem_cons.mp inside with same | later
      · exact still b (by rw [left b, if_pos same])
      · exact none b later

/-! ### Exactness -/

/-- What an account has received and is owed, to the last part of the scale. -/
def entitlement (w : World) (a : Address) : ℕ :=
  (w.claimed a + w.accrued a) * SCALE + w.fractionalReward a +
    w.stakedBalance a * (w.rewardPerToken - w.paidPerToken a)

structure Exact (fs : List Funding) (w : World) : Prop where
  paid_le : ∀ a, w.paidPerToken a ≤ w.rewardPerToken
  account_eq : ∀ a, entitlement w a = (fs.map fun f => f.staked a * f.increment).sum
  total_le : ∑ a, entitlement w a ≤ w.totalFunded * SCALE
  lt_total : w.totalFunded * SCALE <
    (∑ a, entitlement w a) + (1 + (fs.map Funding.totalStaked).sum)

theorem Books.exactness (h : Books fs w) : Exact fs w := by
  have each (a : Address) : entitlement w a = (claims w a).worth w.rewardPerToken := by
    rw [entitlement, Nat.mul_comm]
    rfl
  have total : ∑ a, entitlement w a = allBrought fs :=
    (sum_congr rfl fun a _ => each a).trans h.sum_worth
  refine ⟨h.paid_le, fun a => (each a).trans (h.exact a), ?_, ?_⟩
  · rw [total, h.funded_eq]
    exact allBrought_le fs
  · rw [total, h.funded_eq]
    exact lt_allBrought fun f inside => (h.shared f inside).1

/-- What the accounts have earned is theirs: all of it was funded, the contract holds it, and claims
pay it in every order. -/
structure Payable (w : World) (earnings : Address → ℕ) : Prop where
  funded : ∑ a, (w.claimed a + earnings a) ≤ w.totalFunded
  held : ∑ a, earnings a ≤ w.rewardToken.balanceOf w.self
  paid : ∀ order : List Address, w.self ∉ order →
    ∃ w', execAll exec (order.map .claim) w = .ok w' ∧ ∀ a ∈ order,
      w'.claimed a = w.claimed a + earnings a ∧
        w'.rewardToken.balanceOf a = w.rewardToken.balanceOf a + earnings a

theorem Books.payable (h : Books fs w) : Payable w (earnedNow · w) where
  funded := h.sum_earned_le
  held := by
    have owed := h.sum_owed_le
    have backed := h.backed
    omega
  paid order away := by
    obtain ⟨w', done, settles, -, none⟩ := claims_settle order h away
    refine ⟨w', done, fun a inside => ⟨?_, ?_⟩⟩
    · have received := (settles a).claimed_eq
      rwa [none a inside, Nat.add_zero] at received
    · have received := (settles a).balance_eq fun same => away (same ▸ inside)
      rwa [none a inside, Nat.add_zero] at received

/-- In every run. -/
theorem fixed_index_staking_exact {w₀ : World} {ops : List Op} (h : Deployed w₀)
    (run : Run (accepts exec) w₀ ops w) :
    Exact (fundings w₀ ops) w ∧
      (∃ earnings, (∀ a, earned a w = .ok (earnings a)) ∧ Payable w earnings) ∧
      (∀ a b amount w', exec (.stake a amount) w = .ok w' → earned b w' = earned b w) ∧
      ∀ op, exec op w ≠ .error .panic := by
  have books := run_books h run
  refine ⟨books.exactness, ⟨_, books.earned_eq, books.payable⟩, fun a b amount w' done => ?_,
    books.exec_ne_panic⟩
  have after := books.exec done
  simp only [exec, bind_eq_ok] at done
  obtain ⟨-, -, staked⟩ := done
  obtain ⟨-, token, -, rfl⟩ := stake_ok staked
  rw [after.earned_eq, books.earned_eq, Books.earnedNow_afterStake]

def sampleStart : World :=
  constructed ⟨1, 2, Address.two_ne_zero, Address.two_ne_one⟩ 7 .empty .empty

theorem sampleStart_deployed : Deployed sampleStart := ⟨fun _ => rfl, fun _ => rfl, rfl⟩

/-- Two stakers and two fundings, a claim between them. -/
def sampleOps : List Op :=
  [.rewardToken (.mint 2 20), .rewardToken (.approve 2 1 20), .stakingToken (.mint 4 5),
    .stakingToken (.mint 5 2), .stakingToken (.approve 4 1 5), .stakingToken (.approve 5 1 2),
    .stake 4 5, .distribute 2 11, .stake 5 2, .claim 4, .distribute 2 9, .mine 1, .unstake 4 3]

def sample : World := reached sampleStart (execAll exec sampleOps sampleStart)

theorem sample_run : Run (accepts exec) sampleStart sampleOps sample :=
  run_of_execAll (eq_ok_reached sampleStart (by decide +kernel))

theorem sample_fixed_index : ∃ w', execAll exec [.claim 5, .claim 4] sample = .ok w' := by
  have exact := fixed_index_staking_exact sampleStart_deployed sample_run
  obtain ⟨earnings, -, payable⟩ := exact.2.1
  obtain ⟨w', done, -⟩ := payable.paid [5, 4] (by decide +kernel)
  exact ⟨w', done⟩

end Turret.TurretStaking
