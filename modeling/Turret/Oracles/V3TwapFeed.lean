import Mathlib.Tactic
import Turret.Library.Execution
import Turret.Library.Ledger
import Turret.Library.Rounding

/-! `IsolatedTickMath`: the square root of `1.0001 ^ tick` in Q64.96. The ratio
of a tick is a product of one rounded factor for each of its bits, and it falls
as the tick grows: from one tick to the next a block of low ones becomes a
single one above it, so that the two products differ only below that bit. -/

namespace Turret.TickMath

def MAX_TICK : ℤ := 887272

/-- `0x100000000000000000000000000000000`. -/
def UNIT : ℕ := 2 ^ 128

/-- The factors of the bits `0x1`, `0x2`, `0x4` and so on of a tick. -/
def FACTORS : List ℕ :=
  [0xfffcb933bd6fad37aa2d162d1a594001, 0xfff97272373d413259a46990580e213a,
   0xfff2e50f5f656932ef12357cf3c7fdcc, 0xffe5caca7e10e4e61c3624eaa0941cd0,
   0xffcb9843d60f6159c9db58835c926644, 0xff973b41fa98c081472e6896dfb254c0,
   0xff2ea16466c96a3843ec78b326b52861, 0xfe5dee046a99a2a811c461f1969c3053,
   0xfcbe86c7900a88aedcffc83b479aa3a4, 0xf987a7253ac413176f2b074cf7815e54,
   0xf3392b0822b70005940c7a398e4b70f3, 0xe7159475a2c29b7443b29c7fa6e889d9,
   0xd097f3bdfd2022b8845ad8f792aa5825, 0xa9f746462d870fdf8a65dc1f90e061e5,
   0x70d869a156d2a1b890bb3df62baf32f7, 0x31be135f97d08fd981231505542fcfa6,
   0x9aa508b5b7a84e1c677de54f3e99bc9, 0x5d6af8dedb81196699c329225ee604,
   0x2216e584f5fa1ea926041bedfe98, 0x48a170391f7dc42444e8fa2]

/-- Multiplies the ratio by the factor of every bit of the tick that is set, lowest first. -/
def multiply : List ℕ → ℕ → ℕ → ℕ
  | [], _, ratio => ratio
  | factor :: factors, absTick, ratio =>
    multiply factors (absTick / 2) (if absTick % 2 = 1 then ratio * factor / UNIT else ratio)

/-- The ratio of a negative tick, in Q128.128. -/
def ratioAt (absTick : ℕ) : ℕ := multiply FACTORS absTick UNIT

/-- `(ratio >> 32) + (ratio % (1 << 32) == 0 ? 0 : 1)`. -/
def roundUp (ratio : ℕ) : ℕ := ratio / 2 ^ 32 + if ratio % 2 ^ 32 = 0 then 0 else 1

/-- `none` where `|tick|` is above the limit. The result is cast to 160 bits. -/
def getSqrtRatioAtTick (tick : ℤ) : Option ℕ :=
  let absTick := tick.natAbs
  if MAX_TICK < absTick then none
  else
    let ratio := ratioAt absTick
    let ratio := if 0 < tick then (2 ^ 256 - 1) / ratio else ratio
    some (roundUp ratio % 2 ^ 160)

/-! ### The ratio falls with the tick -/

theorem multiply_mono (factors : List ℕ) (n : ℕ) {r s : ℕ} (h : r ≤ s) :
    multiply factors n r ≤ multiply factors n s := by
  induction factors generalizing n r s with
  | nil => exact h
  | cons factor factors ih =>
    refine ih _ ?_
    split_ifs
    · exact Nat.div_le_div_right (Nat.mul_le_mul_right factor h)
    · exact h

/-- The factor of each bit is at most the product of those below it. -/
def Falls : List ℕ → ℕ → Prop
  | [], _ => True
  | factor :: factors, below => factor ≤ below ∧ Falls factors (below * factor / UNIT)

instance decidableFalls : ∀ factors below, Decidable (Falls factors below)
  | [], _ => inferInstanceAs (Decidable True)
  | factor :: factors, below =>
    have := decidableFalls factors (below * factor / UNIT)
    inferInstanceAs (Decidable (_ ∧ _))

/-- The bits below are all clear in `n + 1` and all set in `n`. -/
theorem multiply_succ_le {factors : List ℕ} {below : ℕ} (falls : Falls factors below) {n : ℕ}
    (small : n + 1 < 2 ^ factors.length) :
    multiply factors (n + 1) UNIT ≤ multiply factors n below := by
  induction factors generalizing below n with
  | nil => exact absurd small (by simp)
  | cons factor factors ih =>
    obtain ⟨first, rest⟩ := falls
    simp only [multiply]
    rcases Nat.mod_two_eq_zero_or_one n with even | odd
    · -- the carry stops at this bit
      have same : (n + 1) / 2 = n / 2 := by omega
      have set : (n + 1) % 2 = 1 := by omega
      rw [if_pos set, if_neg (by omega), same]
      refine multiply_mono _ _ ?_
      rw [Nat.mul_comm, Nat.mul_div_cancel _ (by decide)]
      exact first
    · have next : (n + 1) / 2 = n / 2 + 1 := by omega
      have clear : ¬(n + 1) % 2 = 1 := by omega
      rw [if_neg clear, if_pos odd, next]
      refine ih rest ?_
      rw [List.length_cons, Nat.pow_succ] at small
      omega

theorem ratioAt_succ_le {n : ℕ} (small : n + 1 < 2 ^ 20) : ratioAt (n + 1) ≤ ratioAt n :=
  multiply_succ_le (by decide +kernel) small

theorem ratioAt_antitone {m n : ℕ} (h : m ≤ n) (small : n < 2 ^ 20) : ratioAt n ≤ ratioAt m := by
  induction n, h using Nat.le_induction with
  | base => exact le_rfl
  | succ n _ ih => exact (ratioAt_succ_le small).trans (ih (by omega))

theorem ratioAt_pos {n : ℕ} (h : (n : ℤ) ≤ MAX_TICK) : 0 < ratioAt n := by
  have last : 0 < ratioAt 887272 := by decide +kernel
  have small : n ≤ 887272 := by
    unfold MAX_TICK at h
    omega
  exact last.trans_le (ratioAt_antitone small (by decide))

/-! ### The square root ratio grows with the tick -/

/-- The ratio in Q128.128, before it is rounded to Q64.96. -/
def directed (tick : ℤ) : ℕ :=
  if 0 < tick then (2 ^ 256 - 1) / ratioAt tick.natAbs else ratioAt tick.natAbs

theorem directed_mono {s t : ℤ} (h : s ≤ t) (low : -MAX_TICK ≤ s) (high : t ≤ MAX_TICK) :
    directed s ≤ directed t := by
  unfold MAX_TICK at low high
  have positive : 0 < ratioAt t.natAbs := ratioAt_pos (by unfold MAX_TICK; omega)
  unfold directed
  split_ifs with s_pos t_pos t_pos
  · exact Nat.div_le_div_left (ratioAt_antitone (by omega) (by omega)) positive
  · omega
  · -- a ratio is at most the unit, its reciprocal at least
    have first : ratioAt t.natAbs ≤ ratioAt 1 := ratioAt_antitone (by omega) (by omega)
    calc ratioAt s.natAbs ≤ ratioAt 0 := ratioAt_antitone (Nat.zero_le _) (by omega)
      _ ≤ (2 ^ 256 - 1) / ratioAt 1 := by decide +kernel
      _ ≤ (2 ^ 256 - 1) / ratioAt t.natAbs := Nat.div_le_div_left first positive
  · exact ratioAt_antitone (by omega) (by omega)

theorem roundUp_mono {r s : ℕ} (h : r ≤ s) : roundUp r ≤ roundUp s := by
  have ceil (x : ℕ) : roundUp x = (x + (2 ^ 32 - 1)) / 2 ^ 32 := by
    unfold roundUp
    split_ifs <;> omega
  rw [ceil, ceil]
  exact Nat.div_le_div_right (by omega)

/-- The cast to 160 bits loses nothing. -/
theorem roundUp_directed_lt {t : ℤ} (low : -MAX_TICK ≤ t) (high : t ≤ MAX_TICK) :
    roundUp (directed t) < 2 ^ 160 :=
  calc roundUp (directed t) ≤ roundUp (directed MAX_TICK) :=
        roundUp_mono (directed_mono high low le_rfl)
    _ < 2 ^ 160 := by decide +kernel

theorem getSqrtRatioAtTick_eq {t : ℤ} (low : -MAX_TICK ≤ t) (high : t ≤ MAX_TICK) :
    getSqrtRatioAtTick t = some (roundUp (directed t)) := by
  have within : ¬MAX_TICK < t.natAbs := by omega
  simp only [getSqrtRatioAtTick, if_neg within]
  rw [← directed, Nat.mod_eq_of_lt (roundUp_directed_lt low high)]

example : getSqrtRatioAtTick (-MAX_TICK) = some 4295128739 := by decide +kernel

end Turret.TickMath

/-! `DockyardV3TwapFeed`: the price of the collateral in USDG over two pools, as
the mean of their ticks over a window. What a pool answers is not restricted; a
call of it may also revert. The accumulators of a pool are words of their ABI
widths, and their difference wraps. -/

namespace Turret.V3TwapFeed

open Execution Rounding

inductive Error
  | unavailable
  | thinLiquidity
  | spotDeviation
  /-- A call of a pool has reverted. -/
  | external
  deriving DecidableEq

structure Slot0 where
  tick : ℤ
  observationIndex : ℕ
  observationCardinality : ℕ
  unlocked : Bool

structure Observation where
  blockTimestamp : ℕ
  initialized : Bool

/-- What a pool answers now; `none` where the call reverts. -/
structure Pool where
  codehash : ℕ
  slot0 : Option Slot0
  observations : ℕ → Option Observation
  observe : List ℕ → Option (List (BitVec 56) × List (BitVec 160))
  liquidity : Option ℕ

/-- The immutables, with what the constructor checks of them. -/
structure Config where
  collateral : Address
  intermediate : Address
  usdg : Address
  firstCodeHash : ℕ
  secondCodeHash : ℕ
  window : ℕ
  maxObservationAge : ℕ
  maxSpotTickDeviation : ℕ
  firstMinLiquidity : ℕ
  secondMinLiquidity : ℕ
  collateral_ne_intermediate : collateral ≠ intermediate
  collateral_ne_usdg : collateral ≠ usdg
  intermediate_ne_usdg : intermediate ≠ usdg
  le_window : 300 ≤ window
  window_le : window ≤ 86400
  age_ne_zero : maxObservationAge ≠ 0
  age_le : maxObservationAge ≤ window
  deviation_ne_zero : maxSpotTickDeviation ≠ 0
  deviation_le : maxSpotTickDeviation ≤ 5000
  firstMin_ne_zero : firstMinLiquidity ≠ 0
  secondMin_ne_zero : secondMinLiquidity ≠ 0

structure World where
  cfg : Config
  now : ℕ
  firstPool : Pool
  secondPool : Pool

/-! ### Prices of ticks -/

/-- Neither product exceeds a word. -/
def valueOf (sqrt : ℕ) : ℕ :=
  if sqrt ≤ 2 ^ 128 - 1 then mulDiv (sqrt * sqrt) (10 ^ 30) (2 ^ 192)
  else mulDiv (mulDiv sqrt sqrt (2 ^ 64)) (10 ^ 30) (2 ^ 128)

/-- What `_quoteTicks` does with the chained tick. -/
def quoteTick (chained : ℤ) : Except Error ℕ := do
  revertIf (chained < -887272 ∨ 887272 < chained) .unavailable
  let sqrt ← orRevert (TickMath.getSqrtRatioAtTick chained) .external
  let value := valueOf sqrt
  revertIf (value = 0 ∨ 2 ^ 255 - 1 < value) .unavailable
  pure value

/-- `_quoteTicks`. -/
def quoteTicks (a b : ℤ) : Except Error ℕ := quoteTick (a + b)

/-! ### Observations -/

/-- `_lastObservation`. -/
def lastObservation (p : Pool) (w : World) : Except Error (ℤ × ℕ) := do
  let slot ← orRevert p.slot0 .external
  revertIf (slot.unlocked = false ∨ slot.observationCardinality < 2 ∨
    slot.observationCardinality ≤ slot.observationIndex ∨ 2 ^ 32 - 1 < w.now) .unavailable
  let last ← orRevert (p.observations slot.observationIndex) .external
  revertIf (last.initialized = false ∨ last.blockTimestamp = 0 ∨ w.now < last.blockTimestamp ∨
    w.cfg.maxObservationAge < w.now - last.blockTimestamp) .unavailable
  pure (slot.tick, last.blockTimestamp)

/-- `_observeDelta`. -/
def observeDelta (p : Pool) (minimum : ℕ) (w : World) : Except Error ℤ := do
  let (ticks, liquidities) ← orRevert (p.observe [w.cfg.window, 0]) .external
  match ticks, liquidities with
  | [tick₀, tick₁], [liquidity₀, liquidity₁] => do
    let liquidityDelta := liquidity₁ - liquidity₀
    revertIf (liquidityDelta = 0) .unavailable
    let harmonic := w.cfg.window * (2 ^ 160 - 1) / (liquidityDelta.toNat * 2 ^ 32)
    revertIf (harmonic < minimum) .thinLiquidity
    let liquidity ← orRevert p.liquidity .external
    revertIf (liquidity < minimum) .thinLiquidity
    pure (tick₁ - tick₀).toInt
  | _, _ => .error .unavailable

/-- The quotient is truncated towards zero, and one less where it was truncated upwards. -/
def roundedDown (delta : ℤ) (divisor : ℕ) : ℤ :=
  let quotient := delta.tdiv divisor
  if delta < 0 ∧ delta.tmod divisor ≠ 0 then quotient - 1 else quotient

def oriented (forward : Bool) (delta : ℤ) : ℤ := if forward then delta else -delta

structure Hop where
  meanTick : ℤ
  spotTick : ℤ
  updated : ℕ
  withinDeviation : Bool
  deriving DecidableEq

/-- `_comparisonHop`. -/
def comparisonHop (p : Pool) (minimum : ℕ) (forward : Bool) (w : World) : Except Error Hop := do
  let (spot, updated) ← lastObservation p w
  let delta ← observeDelta p minimum w
  let mean := roundedDown delta w.cfg.window
  revertIf (mean < -887272 ∨ 887272 < mean ∨ spot < -887272 ∨ 887272 < spot) .unavailable
  let withinDeviation := decide ((spot - mean).natAbs ≤ w.cfg.maxSpotTickDeviation)
  let directed := roundedDown (oriented forward delta) w.cfg.window
  revertIf (directed < -887272 ∨ 887272 < directed) .unavailable
  pure ⟨directed, oriented forward spot, updated, withinDeviation⟩

/-- `_consult`. -/
def consult (p : Pool) (minimum : ℕ) (forward : Bool) (w : World) : Except Error (ℤ × ℕ) := do
  let (spot, updated) ← lastObservation p w
  let delta ← observeDelta p minimum w
  let mean := roundedDown delta w.cfg.window
  revertIf (mean < -887272 ∨ 887272 < mean ∨ spot < -887272 ∨ 887272 < spot) .unavailable
  revertIf (w.cfg.maxSpotTickDeviation < (spot - mean).natAbs) .spotDeviation
  let quoteTick := roundedDown (oriented forward delta) w.cfg.window
  revertIf (quoteTick < -887272 ∨ 887272 < quoteTick) .unavailable
  pure (quoteTick, updated)

/-! ### The feed -/

structure RoundData where
  roundId : ℕ
  answer : ℤ
  startedAt : ℕ
  updatedAt : ℕ
  answeredInRound : ℕ
  deriving DecidableEq

def roundData (value updated : ℕ) : RoundData :=
  ⟨updated % 2 ^ 80, value, updated, updated, updated % 2 ^ 80⟩

structure Quotes where
  average : ℕ
  spot : ℕ
  updated : ℕ
  withinDeviation : Bool
  deriving DecidableEq

def checkCode (w : World) : Except Error Unit :=
  revertIf (w.firstPool.codehash ≠ w.cfg.firstCodeHash ∨
    w.secondPool.codehash ≠ w.cfg.secondCodeHash) .unavailable

/-- `collateral < intermediate`. -/
def firstForward (w : World) : Bool := decide (Fin.val w.cfg.collateral < Fin.val w.cfg.intermediate)

/-- `intermediate < usdg`. -/
def secondForward (w : World) : Bool := decide (Fin.val w.cfg.intermediate < Fin.val w.cfg.usdg)

def latestRoundData (w : World) : Except Error RoundData := do
  checkCode w
  let (a, ta) ← consult w.firstPool w.cfg.firstMinLiquidity (firstForward w) w
  let (b, tb) ← consult w.secondPool w.cfg.secondMinLiquidity (secondForward w) w
  let value ← quoteTicks a b
  pure (roundData value (min ta tb))

def guardedQuotes (w : World) : Except Error Quotes := do
  checkCode w
  let a ← comparisonHop w.firstPool w.cfg.firstMinLiquidity (firstForward w) w
  let b ← comparisonHop w.secondPool w.cfg.secondMinLiquidity (secondForward w) w
  let average ← quoteTicks a.meanTick b.meanTick
  let spot ← quoteTicks a.spotTick b.spotTick
  pure ⟨average, spot, min a.updated b.updated, a.withinDeviation && b.withinDeviation⟩

end Turret.V3TwapFeed
