import Turret.Variable.CapitalPool

/-! The utilization curve: on the whole range of utilizations it is defined,
increasing and between the base rate and the ceiling, so the sixteen bits of the
stored rate always hold it and refreshing the rate never fails. -/

namespace Turret.VariablePool

open Execution Rounding

/-- The curve as a function. -/
def rate (cfg : Config) (u : ℕ) : ℕ :=
  if u ≤ cfg.kinkUtilizationBps then
    cfg.baseAprBps + mulDiv (cfg.kinkAprBps - cfg.baseAprBps) u cfg.kinkUtilizationBps
  else
    cfg.kinkAprBps + mulDiv (cfg.maxAprBps - cfg.kinkAprBps) (u - cfg.kinkUtilizationBps)
      (10000 - cfg.kinkUtilizationBps)

variable {cfg : Config} {u v : ℕ}

theorem mulDiv_le_left {a b c : ℕ} (h : b ≤ c) : mulDiv a b c ≤ a :=
  mulDiv_le_self h a

theorem mulDiv_mono_right (a : ℕ) {b b' : ℕ} (h : b ≤ b') (c : ℕ) : mulDiv a b c ≤ mulDiv a b' c :=
  Nat.div_le_div_right (Nat.mul_le_mul_left a h)

theorem rate_below_kink (h : u ≤ cfg.kinkUtilizationBps) : rate cfg u ≤ cfg.kinkAprBps := by
  have part : mulDiv (cfg.kinkAprBps - cfg.baseAprBps) u cfg.kinkUtilizationBps ≤
      cfg.kinkAprBps - cfg.baseAprBps := mulDiv_le_left h
  have base := cfg.base_le
  rw [rate, if_pos h]
  omega

theorem rate_above_kink (h : cfg.kinkUtilizationBps < u) : cfg.kinkAprBps ≤ rate cfg u := by
  rw [rate, if_neg (Nat.not_le.mpr h)]
  exact Nat.le_add_right ..

theorem base_le_rate (cfg : Config) (u : ℕ) : cfg.baseAprBps ≤ rate cfg u := by
  unfold rate
  split_ifs
  · exact Nat.le_add_right ..
  · exact cfg.base_le.trans (Nat.le_add_right ..)

theorem rate_le_max (h : u ≤ 10000) : rate cfg u ≤ cfg.maxAprBps := by
  have kink := cfg.kink_le
  by_cases low : u ≤ cfg.kinkUtilizationBps
  · exact (rate_below_kink low).trans kink
  · have part : mulDiv (cfg.maxAprBps - cfg.kinkAprBps) (u - cfg.kinkUtilizationBps)
        (10000 - cfg.kinkUtilizationBps) ≤ cfg.maxAprBps - cfg.kinkAprBps :=
      mulDiv_le_left (by omega)
    rw [rate, if_neg low]
    omega

theorem rate_mono (h : u ≤ v) : rate cfg u ≤ rate cfg v := by
  by_cases low : v ≤ cfg.kinkUtilizationBps
  · rw [rate, rate, if_pos low, if_pos (h.trans low)]
    exact Nat.add_le_add_left (mulDiv_mono_right _ h _) _
  · by_cases low' : u ≤ cfg.kinkUtilizationBps
    · exact (rate_below_kink low').trans (rate_above_kink (Nat.lt_of_not_le low))
    · rw [rate, rate, if_neg low, if_neg low']
      exact Nat.add_le_add_left (mulDiv_mono_right _ (Nat.sub_le_sub_right h _) _) _

theorem uint16_rate (h : u ≤ 10000) : uint16 (rate cfg u) = rate cfg u := by
  have bounded : rate cfg u ≤ cfg.maxAprBps := rate_le_max h
  have max := cfg.max_le
  rw [uint16, Nat.mod_eq_of_lt]
  omega

/-- `rateAtUtilization` is the curve on `[0, 10000]`, and reverts beyond. -/
theorem rateAtUtilization_eq (cfg : Config) (u : ℕ) :
    rateAtUtilization cfg u = if 10000 < u then .error .invalidAmount else .ok (rate cfg u) := by
  by_cases h : 10000 < u
  · simp only [rateAtUtilization, revertIf, if_pos h, error_bind]
  · have cast : uint16 (rate cfg u) = rate cfg u := uint16_rate (Nat.not_lt.mp h)
    have passed : revertIf (10000 < u) PoolError.invalidAmount = .ok () :=
      (revertIf_eq_ok ..).mpr h
    refine Eq.trans ?_ (if_neg h).symm
    rw [rateAtUtilization, passed, ok_bind, ← cast]
    by_cases low : u ≤ cfg.kinkUtilizationBps
    · rw [rate, if_pos low, if_pos low]
      rfl
    · rw [rate, if_neg low, if_neg low]
      rfl

theorem utilization_le (principal cash : ℕ) : utilization principal cash ≤ 10000 := by
  unfold utilization
  split_ifs
  · exact Nat.zero_le _
  · exact Nat.div_le_of_le_mul (by omega)

end Turret.VariablePool
