import Turret.Rewards.StreamBooks

/-! Solvency of a reward stream whose retention decays. `net` is what the
contract was funded with and has not given back: it is split exactly between
the reserve and what was released, and what all accounts ever received or are
owed stays within what was released. No checked operation of a call fails. -/

namespace Turret.RewardStream

open Execution Finset Function Rounding Uint256

variable {w w' : World} {a : Address} {net : ℕ}

/-- What is assumed of `rpow(RETENTION_PER_SECOND, n, RAY)`. -/
structure Config.Decays (cfg : Config) : Prop where
  zero : cfg.retention 0 = RAY
  antitone : ∀ m n, m ≤ n → cfg.retention n ≤ cfg.retention m

structure Sound (net : ℕ) (w : World) : Prop extends Steady w where
  decays : w.cfg.Decays
  stakingToken_closed : ∀ a, w.stakingToken.allowance w.self a = 0
  rewardToken_closed : ∀ a, w.rewardToken.allowance w.self a = 0
  staked_le : w.totalStaked ≤ UINT128_MAX
  staked_backed : w.totalStaked ≤ w.stakingToken.balanceOf w.self
  funded_le : w.totalFunded ≤ UINT128_MAX
  net_le : net ≤ w.totalFunded
  reserve_eq : w.anchorReserveRay + w.releasedRay = RAY * net + w.accountedAnchorReleaseRay
  accounted_le : w.accountedAnchorReleaseRay ≤ w.releasedRay
  covered : (∑ a, (claims w a).worth w.storedRewardPerToken) + w.indexRemainder ≤
    PARTS * w.releasedRay
  index_le : w.storedRewardPerToken ≤ PARTS * w.releasedRay
  claimed_eq : w.totalClaimed = ∑ a, w.claimed a
  backed : net ≤ w.rewardToken.balanceOf w.self + w.totalClaimed
  active_le : w.activeSeconds ≤ w.lastUpdate
  now_lt : w.now < MODULUS

theorem word_of_scaled {n : ℕ} (h : n ≤ UINT128_MAX) : SCALE * n + UINT128_MAX < MODULUS := by
  have scale : SCALE = 10 ^ 36 := by rw [SCALE]
  simp only [UINT128_MAX, MODULUS, scale] at h ⊢
  omega

theorem two_scales_lt : SCALE + SCALE < MODULUS := by
  rw [SCALE, MODULUS]
  decide

theorem word_of_ray {n : ℕ} (h : n ≤ UINT128_MAX) : RAY * n < MODULUS := by
  have ray : RAY = 10 ^ 27 := by rw [RAY]
  simp only [UINT128_MAX, MODULUS, ray] at h ⊢
  omega

theorem le_activeAt : w.activeSeconds ≤ activeAt w := by
  rw [activeAt]
  split_ifs
  · exact le_rfl
  · exact Nat.le_add_right ..

/-- The index grows by at most the whole emission. -/
theorem Steady.share_le (h : Steady w) :
    numeratorNow w / w.totalStaked ≤ PARTS * emissionNow w := by
  by_cases none : w.totalStaked = 0
  · rw [none, Nat.div_zero]
    exact Nat.zero_le _
  · have rest := h.remainder_lt none
    have grown := Nat.mul_le_mul_left (PARTS * emissionNow w) (Nat.pos_of_ne_zero none)
    refine Nat.lt_succ_iff.mp ((Nat.div_lt_iff_lt_mul (Nat.pos_of_ne_zero none)).mpr ?_)
    rw [numeratorNow, Nat.succ_mul]
    omega

namespace Sound

variable (h : Sound net w)

include h

theorem net_word : net ≤ UINT128_MAX := h.net_le.trans h.funded_le

/-- What has been released, and what is released now, is part of what was funded. -/
theorem balanced :
    remainingNow w + w.accountedAnchorReleaseRay + emissionNow w = w.anchorReserveRay := by
  have decayed : remainingNow w ≤ remainingAt w.activeSeconds w := by
    refine Nat.div_le_div_right (Nat.mul_le_mul_left _ (h.decays.antitone _ _ ?_))
    exact Nat.sub_le_sub_right le_activeAt _
  have exact := h.accounted_eq
  rw [emissionNow]
  omega

theorem released_le : w.releasedRay + emissionNow w ≤ RAY * net := by
  have balanced := h.balanced
  have reserve := h.reserve_eq
  omega

theorem released_parts_le : PARTS * (w.releasedRay + emissionNow w) ≤ SCALE * net := by
  rw [SCALE_eq, Nat.mul_assoc]
  exact Nat.mul_le_mul_left _ h.released_le

theorem remainder_le : w.indexRemainder ≤ UINT128_MAX := by
  by_cases none : w.totalStaked = 0
  · rw [h.remainder_eq none]
    exact Nat.zero_le _
  · exact (h.remainder_lt none).le.trans h.staked_le

theorem numerator_lt : numeratorNow w < MODULUS := by
  have released := h.released_parts_le
  have remainder := h.remainder_le
  have word := word_of_scaled h.net_word
  rw [Nat.mul_add] at released
  rw [numeratorNow]
  omega

theorem activeAt_le : activeAt w ≤ w.now := by
  have active := h.active_le
  have updated := h.updated_le
  rw [activeAt]
  split_ifs <;> omega

theorem activeNow_eq : activeNow w = .ok (activeAt w) := by
  have within := h.activeAt_le
  have now := h.now_lt
  rw [activeNow]
  rw [activeAt] at within ⊢
  by_cases none : w.totalStaked = 0
  · rw [if_neg (not_not.mpr none), if_pos none]
    rfl
  · rw [if_neg none] at within
    rw [if_pos none, if_neg none]
    simp only [bind_eq_ok, checkedSub_eq_ok, checkedAdd_eq_ok]
    exact ⟨_, ⟨h.updated_le, rfl⟩, by omega, rfl⟩

theorem retentionNow_eq :
    retentionNow w = .ok (w.cfg.retention (activeAt w - w.anchorActiveSeconds)) := by
  simp only [retentionNow, h.activeNow_eq, ok_bind, bind_eq_ok, checkedSub_eq_ok, pure_eq_ok]
  exact ⟨_, ⟨h.anchored_le.trans le_activeAt, rfl⟩, rfl⟩

theorem anchor_lt : w.anchorReserveRay < MODULUS := by
  have reserve := h.reserve_eq
  have accounted := h.accounted_le
  have word := word_of_ray h.net_word
  omega

theorem streamNow_eq :
    streamNow w = .ok ⟨remainingNow w, activeAt w, emissionNow w⟩ := by
  have balanced := h.balanced
  have anchor := h.anchor_lt
  have same : mulDiv w.anchorReserveRay
      (w.cfg.retention (activeAt w - w.anchorActiveSeconds)) RAY = remainingNow w := rfl
  simp only [streamNow, h.activeNow_eq, h.retentionNow_eq, ok_bind, bind_eq_ok, same,
    checkedMulDiv_eq_ok, checkedSub_eq_ok, pure_eq_ok]
  refine ⟨_, ⟨⟨RAY_pos.ne', by omega⟩, rfl⟩, _, ⟨by omega, rfl⟩, _, ⟨by omega, rfl⟩, ?_⟩
  rw [emissionNow]

theorem accrue_eq : accrue w = .ok (advanced w, remainingNow w) := by
  have numerator := h.numerator_lt
  have released := h.released_parts_le
  have within := h.released_le
  have accounted := h.accounted_le
  have word := word_of_scaled h.net_word
  have ray := word_of_ray h.net_word
  have index := h.index_le
  simp only [accrue, h.streamNow_eq, ok_bind, bind_eq_ok, pure_eq_ok, Prod.mk.injEq]
  refine ⟨advanced w, ?_, rfl, trivial⟩
  rw [distributeEmission]
  split_ifs with none
  · obtain ⟨whole, rest⟩ := h.no_emission none
    have none' : emissionNow w = 0 := none
    rw [advanced, whole, rest, none']
    rfl
  · have staked : w.totalStaked ≠ 0 := fun empty => none (h.still empty)
    have scaled : emissionNow w * PARTS + w.indexRemainder = numeratorNow w := by
      rw [numeratorNow, Nat.mul_comm]
    have share := h.share_le
    simp only [Nat.mul_add] at released
    simp only [bind_eq_ok, checkedMul_eq_ok, checkedAdd_eq_ok, checkedDiv_eq_ok, pure_eq_ok]
    refine ⟨_, ⟨by omega, rfl⟩, _, ⟨by omega, scaled⟩, _, ⟨staked, rfl⟩, _, ⟨by omega, rfl⟩, _,
      ⟨by omega, rfl⟩, _, ⟨by omega, rfl⟩, rfl⟩

end Sound

theorem PARTS_pos : 0 < PARTS := by
  rw [PARTS, SCALE, RAY]
  decide

theorem claims_advanced (w : World) : claims (advanced w) = claims w := rfl

theorem Steady.worth_advanced (h : Steady w) :
    (∑ a, (claims w a).worth (RewardStream.advanced w).storedRewardPerToken) +
        (RewardStream.advanced w).indexRemainder =
      (∑ a, (claims w a).worth w.storedRewardPerToken) + numeratorNow w := by
  have weights : ∑ a, (claims w a).weight = w.totalStaked := h.staked_eq.symm
  have parts := Nat.div_add_mod (numeratorNow w) w.totalStaked
  have moved := IndexClaim.sum_worth_add (claims w) h.paid_le (numeratorNow w / w.totalStaked)
  rw [weights] at moved
  rw [RewardStream.advanced]
  simp only
  rw [moved]
  omega

namespace Sound

variable (h : Sound net w)

include h

theorem covered_advanced :
    (∑ a, (claims w a).worth (advanced w).storedRewardPerToken) + (advanced w).indexRemainder ≤
      PARTS * (w.releasedRay + emissionNow w) := by
  have covered := h.covered
  rw [h.worth_advanced, numeratorNow, Nat.mul_add]
  omega

theorem index_advanced : (advanced w).storedRewardPerToken ≤
    PARTS * (w.releasedRay + emissionNow w) := by
  have index := h.index_le
  rw [advanced, Nat.mul_add]
  exact Nat.add_le_add index h.share_le

theorem advanced : Sound net (advanced w) := by
  have covered := h.covered_advanced
  have index := h.index_advanced
  have reserve := h.reserve_eq
  have steady := h.toSteady.advanced h.balanced
  have active := h.activeAt_le
  refine
    { steady with
      decays := h.decays
      stakingToken_closed := h.stakingToken_closed
      rewardToken_closed := h.rewardToken_closed
      staked_le := h.staked_le
      staked_backed := h.staked_backed
      funded_le := h.funded_le
      net_le := h.net_le
      reserve_eq := ?_
      accounted_le := Nat.add_le_add_right h.accounted_le _
      covered := covered
      index_le := index
      claimed_eq := ?_
      backed := h.backed
      active_le := active
      now_lt := h.now_lt }
  · rw [RewardStream.advanced]
    simp only
    omega
  · rw [RewardStream.advanced]
    exact h.claimed_eq

end Sound

/-! ### Earnings -/

/-- What `earned` returns when nothing fails. -/
def earnedNow (a : Address) (w : World) : ℕ := (settled (advanced w).storedRewardPerToken a w).1

theorem settled_scale_le (a : Address) (w : World) :
    SCALE * (w.claimed a + earnedNow a w) ≤
      (claims w a).worth (advanced w).storedRewardPerToken := by
  have exact := settled_exact (advanced w).storedRewardPerToken a w
  rw [Nat.add_comm (w.claimed a), earnedNow, ← exact]
  exact Nat.le_add_right ..

namespace Sound

variable (h : Sound net w)

include h

/-- All that accounts received or are owed was released. -/
theorem sum_earned_le :
    (∑ a, (w.claimed a + earnedNow a w)) * RAY ≤ w.releasedRay + emissionNow w := by
  have covered := h.covered_advanced
  have each : SCALE * ∑ a, (w.claimed a + earnedNow a w) ≤
      ∑ a, (claims w a).worth (RewardStream.advanced w).storedRewardPerToken := by
    rw [mul_sum]
    exact sum_le_sum fun a _ => settled_scale_le a w
  refine Nat.le_of_mul_le_mul_left ?_ PARTS_pos
  rw [Nat.mul_comm _ RAY, ← Nat.mul_assoc, ← SCALE_eq]
  omega

theorem sum_earned_le_net : (∑ a, earnedNow a w) + w.totalClaimed ≤ net := by
  have released := h.sum_earned_le.trans h.released_le
  rw [Nat.mul_comm RAY] at released
  have within := Nat.le_of_mul_le_mul_right released RAY_pos
  rw [sum_add_distrib, ← h.claimed_eq] at within
  omega

theorem earned_le (a : Address) : earnedNow a w + w.totalClaimed ≤ net :=
  (Nat.add_le_add_right (le_sum (earnedNow · w) a) _).trans h.sum_earned_le_net

theorem paid_le_advanced (a : Address) :
    w.paidPerToken a ≤ (RewardStream.advanced w).storedRewardPerToken :=
  (h.paid_le a).trans (Nat.le_add_right ..)

theorem settlement_eq (a : Address) :
    settlement a (RewardStream.advanced w).storedRewardPerToken w =
      .ok (settled (RewardStream.advanced w).storedRewardPerToken a w) := by
  have paid := h.paid_le_advanced a
  have word := lt_modulus_of_le_max
    ((Nat.le_add_right ..).trans ((h.earned_le a).trans h.net_word))
  have fraction := h.fraction_lt a
  have scales := two_scales_lt
  have small := Nat.mod_lt (w.stakedBalance a *
    ((RewardStream.advanced w).storedRewardPerToken - w.paidPerToken a)) SCALE_pos
  simp only [earnedNow, settled, carry] at word
  have parts : ∀ x y z : ℕ, x + (y + z) < MODULUS → y < MODULUS ∧ y + z < MODULUS :=
    fun x y z fits => by omega
  obtain ⟨wholeWord, gainedWord⟩ := parts _ _ _ word
  simp only [settlement, bind_eq_ok, checkedSub_eq_ok, checkedAdd_eq_ok, checkedMulDiv_eq_ok,
    pure_eq_ok]
  exact ⟨_, ⟨paid, rfl⟩, _, ⟨by omega, rfl⟩, _, ⟨⟨SCALE_pos.ne', wholeWord⟩, rfl⟩, _,
    ⟨gainedWord, rfl⟩, _, ⟨word, rfl⟩, rfl⟩

theorem checkpoint_eq (a : Address) : checkpoint a w = .ok (checkpointed a w) := by
  have settles := h.settlement_eq a
  simp only [checkpoint, h.accrue_eq, ok_bind, bind_eq_ok, pure_eq_ok, Prod.exists]
  exact ⟨_, _, settles, rfl⟩

theorem rewardPerToken_eq :
    rewardPerToken w = .ok (RewardStream.advanced w).storedRewardPerToken := by
  have numerator := h.numerator_lt
  have index := h.index_advanced
  have released := h.released_parts_le
  have word := word_of_scaled h.net_word
  rw [advanced_index] at index ⊢
  rw [rewardPerToken]
  by_cases none : w.totalStaked = 0
  · rw [if_pos none, none, Nat.div_zero, Nat.add_zero]
    rfl
  · have scaled : emissionNow w * PARTS + w.indexRemainder = numeratorNow w := by
      rw [numeratorNow, Nat.mul_comm]
    have product : emissionNow w * PARTS < MODULUS := by omega
    have total : emissionNow w * PARTS + w.indexRemainder < MODULUS := by omega
    rw [if_neg none, h.streamNow_eq, ok_bind]
    refine (bind_eq_ok ..).mpr ⟨_, (checkedMul_eq_ok ..).mpr ⟨product, rfl⟩, ?_⟩
    refine (bind_eq_ok ..).mpr ⟨_, (checkedAdd_eq_ok ..).mpr ⟨total, scaled⟩, ?_⟩
    exact (checkedAdd_eq_ok ..).mpr ⟨by omega, rfl⟩

theorem earned_eq (a : Address) : earned a w = .ok (earnedNow a w) := by
  simp only [earned, h.rewardPerToken_eq, ok_bind, bind_eq_ok, pure_eq_ok, Prod.exists]
  exact ⟨_, _, h.settlement_eq a, rfl⟩

theorem reserveRay_eq : reserveRay w = .ok (remainingNow w) := by
  simp only [reserveRay, h.streamNow_eq, ok_bind, pure_eq_ok]

/-! ### What keeps the books -/

theorem checkpointed (a : Address) : Sound net (checkpointed a w) := by
  have base := h.advanced
  have steady := h.toSteady.checkpointed h.balanced a
  have moved := IndexClaim.sum_worth_settle (RewardStream.advanced w).storedRewardPerToken
    (claims w) a
  have covered := base.covered
  rw [claims_advanced, ← moved, ← claims_checkpointed] at covered
  refine
    { steady with
      decays := base.decays
      stakingToken_closed := base.stakingToken_closed
      rewardToken_closed := base.rewardToken_closed
      staked_le := base.staked_le
      staked_backed := base.staked_backed
      funded_le := base.funded_le
      net_le := base.net_le
      reserve_eq := base.reserve_eq
      accounted_le := base.accounted_le
      covered := covered
      index_le := base.index_le
      claimed_eq := ?_
      backed := base.backed
      active_le := base.active_le
      now_lt := base.now_lt }
  rw [RewardStream.checkpointed]
  exact base.claimed_eq

end Sound

end Turret.RewardStream
