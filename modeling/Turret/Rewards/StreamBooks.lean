import Turret.Library.StreamShare
import Turret.Rewards.RewardStream

/-! The books of a reward stream. An accrual moves what the reserve has
released since the anchor into the index and carries the remainder; a
checkpoint settles one account to the last part of the scale. Neither loses
anything, whenever it is made. -/

namespace Turret.RewardStream

open Execution Finset Function Rounding Uint256

variable {w w' : World} {a : Address}

/-! ### The stream now -/

def activeAt (w : World) : ℕ :=
  if w.totalStaked = 0 then w.activeSeconds else w.activeSeconds + (w.now - w.lastUpdate)

def remainingAt (active : ℕ) (w : World) : ℕ :=
  mulDiv w.anchorReserveRay (w.cfg.retention (active - w.anchorActiveSeconds)) RAY

def remainingNow (w : World) : ℕ := remainingAt (activeAt w) w

def emissionNow (w : World) : ℕ :=
  w.anchorReserveRay - remainingNow w - w.accountedAnchorReleaseRay

/-- What the index shares out: the emission in parts of the scale, and the earlier remainder. -/
def numeratorNow (w : World) : ℕ := PARTS * emissionNow w + w.indexRemainder

/-- What holds of the stream between calls, whatever the retention is after its first second. -/
structure Steady (w : World) : Prop where
  staked_eq : w.totalStaked = ∑ a, w.stakedBalance a
  updated_le : w.lastUpdate ≤ w.now
  anchored_le : w.anchorActiveSeconds ≤ w.activeSeconds
  accounted_eq : remainingAt w.activeSeconds w + w.accountedAnchorReleaseRay = w.anchorReserveRay
  remainder_lt : w.totalStaked ≠ 0 → w.indexRemainder < w.totalStaked
  remainder_eq : w.totalStaked = 0 → w.indexRemainder = 0
  paid_le : ∀ a, w.paidPerToken a ≤ w.storedRewardPerToken
  fraction_lt : ∀ a, w.fractionalReward a < SCALE

theorem SCALE_pos : 0 < SCALE := by
  rw [SCALE]
  decide

theorem RAY_pos : 0 < RAY := by
  rw [RAY]
  decide

theorem SCALE_eq : SCALE = PARTS * RAY := by
  rw [PARTS, SCALE, RAY]
  decide

/-- Nothing is emitted while nothing is staked. -/
theorem Steady.still (h : Steady w) (none : w.totalStaked = 0) : emissionNow w = 0 := by
  have exact := h.accounted_eq
  rw [emissionNow, remainingNow, activeAt, if_pos none]
  omega

/-- The stream after `_accrue`. -/
def advanced (w : World) : World :=
  { w with
    activeSeconds := activeAt w
    lastUpdate := w.now
    storedRewardPerToken := w.storedRewardPerToken + numeratorNow w / w.totalStaked
    indexRemainder := numeratorNow w % w.totalStaked
    accountedAnchorReleaseRay := w.accountedAnchorReleaseRay + emissionNow w
    releasedRay := w.releasedRay + emissionNow w }

theorem advanced_index : (advanced w).storedRewardPerToken =
    w.storedRewardPerToken + numeratorNow w / w.totalStaked := by
  rw [advanced]

theorem activeNow_ok {n : ℕ} (done : activeNow w = .ok n) : n = activeAt w := by
  rw [activeNow] at done
  rw [activeAt]
  by_cases none : w.totalStaked = 0
  · rw [if_neg (not_not.mpr none)] at done
    rw [if_pos none]
    exact (Except.ok.inj done).symm
  · rw [if_pos none] at done
    simp only [bind_eq_ok, checkedSub_eq_ok, checkedAdd_eq_ok] at done
    obtain ⟨elapsed, ⟨-, rfl⟩, -, rfl⟩ := done
    rw [if_neg none]

theorem retentionNow_ok {n : ℕ} (done : retentionNow w = .ok n) :
    n = w.cfg.retention (activeAt w - w.anchorActiveSeconds) := by
  simp only [retentionNow, bind_eq_ok, checkedSub_eq_ok, pure_eq_ok] at done
  obtain ⟨active, first, elapsed, ⟨-, rfl⟩, rfl⟩ := done
  rw [activeNow_ok first]

theorem streamNow_ok {stream : Stream} (done : streamNow w = .ok stream) :
    stream = ⟨remainingNow w, activeAt w, emissionNow w⟩ ∧
      remainingNow w + w.accountedAnchorReleaseRay + emissionNow w = w.anchorReserveRay := by
  simp only [streamNow, bind_eq_ok, checkedMulDiv_eq_ok, checkedSub_eq_ok, pure_eq_ok] at done
  obtain ⟨active, first, retention, second, remaining, ⟨-, rfl⟩, released, ⟨within, rfl⟩, emission,
    ⟨enough, rfl⟩, rfl⟩ := done
  obtain rfl := activeNow_ok first
  obtain rfl := retentionNow_ok second
  have same : mulDiv w.anchorReserveRay
      (w.cfg.retention (activeAt w - w.anchorActiveSeconds)) RAY = remainingNow w := rfl
  rw [same] at within enough
  refine ⟨by rw [same]; rfl, ?_⟩
  rw [emissionNow]
  omega

theorem Steady.no_emission (h : Steady w) (none : emissionNow w = 0) :
    numeratorNow w / w.totalStaked = 0 ∧ numeratorNow w % w.totalStaked = w.indexRemainder := by
  rw [numeratorNow, none, Nat.mul_zero, Nat.zero_add]
  by_cases empty : w.totalStaked = 0
  · rw [empty, h.remainder_eq empty]
    exact ⟨rfl, rfl⟩
  · have small := h.remainder_lt empty
    exact ⟨Nat.div_eq_of_lt small, Nat.mod_eq_of_lt small⟩

theorem accrue_ok (h : Steady w) {v : World} {remaining : ℕ} (done : accrue w = .ok (v, remaining)) :
    v = advanced w ∧ remaining = remainingNow w ∧
      remainingNow w + w.accountedAnchorReleaseRay + emissionNow w = w.anchorReserveRay := by
  simp only [accrue, bind_eq_ok, pure_eq_ok, Prod.mk.injEq] at done
  obtain ⟨stream, first, u, second, rfl, rfl⟩ := done
  obtain ⟨rfl, balanced⟩ := streamNow_ok first
  refine ⟨?_, rfl, balanced⟩
  rw [distributeEmission] at second
  split_ifs at second with none
  · obtain rfl := Except.ok.inj second
    obtain ⟨whole, rest⟩ := h.no_emission none
    have none' : emissionNow w = 0 := none
    rw [advanced, whole, rest, none']
    rfl
  · simp only [bind_eq_ok, checkedMul_eq_ok, checkedAdd_eq_ok, checkedDiv_eq_ok,
      pure_eq_ok] at second
    obtain ⟨-, ⟨-, rfl⟩, numerator, ⟨-, rfl⟩, growth, ⟨-, rfl⟩, stored, ⟨-, rfl⟩, accounted,
      ⟨-, rfl⟩, released, ⟨-, rfl⟩, rfl⟩ := second
    rw [advanced, numeratorNow, Nat.mul_comm PARTS]

theorem remainingAt_advanced : remainingAt (advanced w).activeSeconds (advanced w) =
    remainingNow w := by
  rw [remainingNow, remainingAt, remainingAt, advanced]

theorem Steady.advanced (h : Steady w)
    (balanced : remainingNow w + w.accountedAnchorReleaseRay + emissionNow w = w.anchorReserveRay) :
    Steady (advanced w) := by
  have grown : w.activeSeconds ≤ activeAt w := by
    rw [activeAt]
    split_ifs
    · exact le_rfl
    · exact Nat.le_add_right ..
  have accounted := remainingAt_advanced (w := w)
  have rest := h.no_emission
  have still := h.still
  have empty := h.remainder_eq
  refine
    { staked_eq := ?_
      updated_le := le_rfl
      anchored_le := h.anchored_le.trans grown
      accounted_eq := ?_
      remainder_lt := fun staked => ?_
      remainder_eq := fun none => ?_
      paid_le := fun a => (h.paid_le a).trans ?_
      fraction_lt := h.fraction_lt }
  · simp only [RewardStream.advanced]
    exact h.staked_eq
  · rw [accounted]
    simp only [RewardStream.advanced]
    omega
  · simp only [RewardStream.advanced] at staked ⊢
    exact Nat.mod_lt _ (Nat.pos_of_ne_zero staked)
  · simp only [RewardStream.advanced] at none ⊢
    rw [(rest (still none)).2, empty none]
  · simp only [RewardStream.advanced]
    exact Nat.le_add_right ..

/-! ### One account -/

/-- What an account has received and is owed, in parts of the scale, with its stake. -/
def claims (w : World) (a : Address) : IndexClaim :=
  ⟨SCALE * (w.accrued a + w.claimed a) + w.fractionalReward a, w.stakedBalance a,
    w.paidPerToken a⟩

/-- The settlement of an account at an index: whole units and the fraction carried on. -/
def settled (index : ℕ) (a : Address) (w : World) : ℕ × ℕ :=
  let gained := carry SCALE (w.stakedBalance a) (index - w.paidPerToken a) (w.fractionalReward a)
  (w.accrued a + gained.1, gained.2)

theorem settlement_ok {index : ℕ} {result : ℕ × ℕ} (done : settlement a index w = .ok result) :
    result = settled index a w := by
  simp only [settlement, bind_eq_ok, checkedSub_eq_ok, checkedAdd_eq_ok, checkedMulDiv_eq_ok,
    pure_eq_ok] at done
  obtain ⟨-, ⟨-, rfl⟩, -, ⟨-, rfl⟩, -, ⟨-, rfl⟩, -, ⟨-, rfl⟩, -, ⟨-, rfl⟩, rfl⟩ := done
  rfl

/-- Whole units and fraction are what the account is worth at the index, less what it claimed. -/
theorem settled_exact (index : ℕ) (a : Address) (w : World) :
    SCALE * ((settled index a w).1 + w.claimed a) + (settled index a w).2 =
      (claims w a).worth index := by
  have exact := carry_exact SCALE (w.stakedBalance a) (index - w.paidPerToken a)
    (w.fractionalReward a)
  rw [Nat.mul_comm] at exact
  simp only [settled, claims, IndexClaim.worth, Nat.mul_add]
  omega

theorem settled_snd_lt (index : ℕ) (a : Address) (w : World) : (settled index a w).2 < SCALE :=
  carry_snd_lt SCALE_pos ..

/-- `_checkpoint` after the accrual. -/
def checkpointed (a : Address) (w : World) : World :=
  let v := advanced w
  { v with
    accrued := update v.accrued a (settled v.storedRewardPerToken a v).1
    fractionalReward := update v.fractionalReward a (settled v.storedRewardPerToken a v).2
    paidPerToken := update v.paidPerToken a v.storedRewardPerToken }

theorem checkpoint_ok (h : Steady w) (done : checkpoint a w = .ok w') :
    w' = checkpointed a w ∧
      remainingNow w + w.accountedAnchorReleaseRay + emissionNow w = w.anchorReserveRay := by
  simp only [checkpoint, bind_eq_ok, pure_eq_ok, Prod.exists] at done
  obtain ⟨v, remaining, first, whole, fraction, second, rfl⟩ := done
  obtain ⟨rfl, -, balanced⟩ := accrue_ok h first
  have result := settlement_ok second
  rw [checkpointed, ← result]
  exact ⟨rfl, balanced⟩

theorem claims_checkpointed (a : Address) (w : World) :
    claims (checkpointed a w) =
      update (claims w) a ((claims w a).settle (advanced w).storedRewardPerToken) := by
  have exact := settled_exact (advanced w).storedRewardPerToken a (advanced w)
  funext b
  by_cases hb : b = a
  · subst hb
    rw [update_self]
    simp only [claims, checkpointed, update_self, IndexClaim.settle, IndexClaim.mk.injEq]
    exact ⟨exact, rfl, trivial⟩
  · rw [update_of_ne hb]
    simp only [claims, checkpointed, update_of_ne hb]
    rfl

theorem Steady.checkpointed (h : Steady w)
    (balanced : remainingNow w + w.accountedAnchorReleaseRay + emissionNow w = w.anchorReserveRay)
    (a : Address) : Steady (checkpointed a w) := by
  have base := h.advanced balanced
  refine { base with paid_le := fun b => ?_, fraction_lt := fun b => ?_ }
  · simp only [RewardStream.checkpointed]
    by_cases hb : b = a
    · rw [hb, update_self]
    · rw [update_of_ne hb]
      exact base.paid_le b
  · simp only [RewardStream.checkpointed]
    by_cases hb : b = a
    · rw [hb, update_self]
      exact settled_snd_lt ..
    · rw [update_of_ne hb]
      exact base.fraction_lt b

end Turret.RewardStream
