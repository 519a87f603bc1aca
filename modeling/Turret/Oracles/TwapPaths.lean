import Turret.Oracles.V3TwapFeed

/-! The two paths of the feed. Both read the same hops: one rejects a hop whose
spot tick is too far from its mean, the other reports it. The tick of a hop is
its mean in the direction of the quote, rounded down, and the price is rounded
down after it. -/

namespace Turret.V3TwapFeed

open Execution Rounding

variable {w : World} {p : Pool} {minimum : ℕ} {forward : Bool}

/-! ### Ticks -/

theorem roundedDown_eq (delta : ℤ) {divisor : ℕ} (positive : 0 < divisor) :
    roundedDown delta divisor = delta / divisor := by
  have sign : (divisor : ℤ).sign = 1 := Int.sign_eq_one_of_pos (by exact_mod_cast positive)
  have exact_iff : (divisor : ℤ) ∣ delta ↔ delta.tmod divisor = 0 := Int.dvd_iff_tmod_eq_zero
  unfold roundedDown
  split_ifs with upwards
  · rw [Int.tdiv_eq_ediv, if_neg, sign, add_sub_cancel_right]
    rintro (up | divides)
    · exact absurd up (by omega)
    · exact upwards.2 (exact_iff.mp divides)
  · rw [Int.tdiv_eq_ediv, if_pos, add_zero]
    rw [exact_iff]
    omega

theorem window_pos (w : World) : 0 < w.cfg.window := by
  have := w.cfg.le_window
  omega

/-- The exact mean tick of a hop, in the direction of the quote. -/
def exactMean (delta : ℤ) (forward : Bool) (w : World) : ℚ :=
  (oriented forward delta : ℚ) / w.cfg.window

/-- The tick of a hop is its exact mean rounded down. -/
structure Floors (tick : ℤ) (mean : ℚ) : Prop where
  floor : tick = ⌊mean⌋
  le : (tick : ℚ) ≤ mean
  lt : mean < tick + 1

theorem floors_directed (delta : ℤ) (forward : Bool) (w : World) :
    Floors (roundedDown (oriented forward delta) w.cfg.window) (exactMean delta forward w) := by
  have floor : roundedDown (oriented forward delta) w.cfg.window = ⌊exactMean delta forward w⌋ := by
    rw [roundedDown_eq _ (window_pos w), exactMean, ← Rat.floor_intCast_div_natCast]
  refine ⟨floor, ?_, ?_⟩
  · rw [floor]
    exact Int.floor_le _
  · rw [floor]
    exact Int.lt_floor_add_one _

/-! ### Hops -/

/-- The tick of the pool now, in the direction of the quote. -/
def spotOf (p : Pool) (forward : Bool) : Option ℤ :=
  p.slot0.map fun slot => oriented forward slot.tick

theorem lastObservation_spot {spot : ℤ} {updated : ℕ}
    (h : lastObservation p w = .ok (spot, updated)) :
    spotOf p forward = some (oriented forward spot) := by
  simp only [lastObservation, bind_eq_ok, orRevert_eq_ok, revertIf_eq_ok, pure_eq_ok,
    Prod.mk.injEq] at h
  obtain ⟨slot, some_, -, -, -, -, -, -, rfl, -⟩ := h
  rw [spotOf, some_]
  rfl

/-- What both paths read of a hop. -/
structure HopRead (p : Pool) (minimum : ℕ) (forward : Bool) (w : World) (hop : Hop) : Prop where
  last : ∃ spot, lastObservation p w = .ok (spot, hop.updated) ∧
    hop.spotTick = oriented forward spot
  delta : ∃ delta, observeDelta p minimum w = .ok delta ∧
    hop.meanTick = roundedDown (oriented forward delta) w.cfg.window

theorem comparisonHop_read {hop : Hop} (h : comparisonHop p minimum forward w = .ok hop) :
    HopRead p minimum forward w hop := by
  simp only [comparisonHop, bind_eq_ok, revertIf_eq_ok, pure_eq_ok] at h
  obtain ⟨⟨spot, updated⟩, last, delta, observed, -, -, -, -, rfl⟩ := h
  exact ⟨⟨spot, last, rfl⟩, ⟨delta, observed, rfl⟩⟩

theorem HopRead.spot {hop : Hop} (h : HopRead p minimum forward w hop) :
    spotOf p forward = some hop.spotTick := by
  obtain ⟨spot, last, turned⟩ := h.last
  rw [turned]
  exact lastObservation_spot last

theorem HopRead.floors {hop : Hop} (h : HopRead p minimum forward w hop) :
    ∃ delta, observeDelta p minimum w = .ok delta ∧
      Floors hop.meanTick (exactMean delta forward w) := by
  obtain ⟨delta, observed, directed⟩ := h.delta
  exact ⟨delta, observed, directed ▸ floors_directed delta forward w⟩

/-- One path accepts a hop exactly where the other reports it within the deviation. -/
theorem consult_iff {tick : ℤ} {updated : ℕ} :
    consult p minimum forward w = .ok (tick, updated) ↔
      ∃ spot, comparisonHop p minimum forward w = .ok ⟨tick, spot, updated, true⟩ := by
  simp only [consult, comparisonHop, bind_eq_ok, revertIf_eq_ok, pure_eq_ok, Prod.mk.injEq,
    Hop.mk.injEq, decide_eq_true_eq, not_lt]
  constructor
  · rintro ⟨⟨spot, seen⟩, last, delta, observed, ⟨⟩, valid, ⟨⟩, near, ⟨⟩, inside, rfl, rfl⟩
    exact ⟨_, ⟨spot, seen⟩, last, delta, observed, ⟨⟩, valid, ⟨⟩, inside, rfl, rfl, rfl, near⟩
  · rintro ⟨-, ⟨spot, seen⟩, last, delta, observed, ⟨⟩, valid, ⟨⟩, inside, rfl, -, rfl, near⟩
    exact ⟨⟨spot, seen⟩, last, delta, observed, ⟨⟩, valid, ⟨⟩, near, ⟨⟩, inside, rfl, rfl⟩

theorem within_of_consult {hop : Hop} {a : ℤ × ℕ} (seen : comparisonHop p minimum forward w = .ok hop)
    (h : consult p minimum forward w = .ok a) : hop.withinDeviation = true := by
  obtain ⟨spot, same⟩ := consult_iff.mp h
  rw [same] at seen
  cases seen
  rfl

/-! ### Prices -/

theorem valueOf_mono {r s : ℕ} (h : r ≤ s) : valueOf r ≤ valueOf s := by
  have low {x y : ℕ} (le : x ≤ y) :
      mulDiv (x * x) (10 ^ 30) (2 ^ 192) ≤ mulDiv (y * y) (10 ^ 30) (2 ^ 192) :=
    mulDiv_mono (Nat.mul_le_mul le le) _ _
  have high {x y : ℕ} (le : x ≤ y) : mulDiv (mulDiv x x (2 ^ 64)) (10 ^ 30) (2 ^ 128) ≤
      mulDiv (mulDiv y y (2 ^ 64)) (10 ^ 30) (2 ^ 128) :=
    mulDiv_mono (Nat.div_le_div_right (Nat.mul_le_mul le le)) _ _
  unfold valueOf
  split_ifs with first second second
  · exact low h
  · -- the two formulas meet at `2 ^ 128`
    calc mulDiv (r * r) (10 ^ 30) (2 ^ 192) ≤ mulDiv (2 ^ 128 * 2 ^ 128) (10 ^ 30) (2 ^ 192) :=
          low (by omega)
      _ = mulDiv (mulDiv (2 ^ 128) (2 ^ 128) (2 ^ 64)) (10 ^ 30) (2 ^ 128) := by decide +kernel
      _ ≤ mulDiv (mulDiv s s (2 ^ 64)) (10 ^ 30) (2 ^ 128) := high (by omega)
  · omega
  · exact high h

/-- The price of an exact tick: it grows with the tick, and is the feed's at a whole tick. -/
structure ExtendsQuotes (price : ℚ → ℚ) : Prop where
  mono : Monotone price
  whole : ∀ (tick : ℤ) (value : ℕ), quoteTick tick = .ok value → price tick = value

/-- The feed's own price of an exact tick: that of the whole tick below it. -/
def floorPrice (mean : ℚ) : ℚ :=
  valueOf (TickMath.roundUp (TickMath.directed (max (-887272) (min ⌊mean⌋ 887272))))

theorem extends_floorPrice : ExtendsQuotes floorPrice where
  mono := fun first second le => by
    have floors : ⌊first⌋ ≤ ⌊second⌋ := Int.floor_mono le
    have ratio := TickMath.directed_mono (s := max (-887272) (min ⌊first⌋ 887272))
      (t := max (-887272) (min ⌊second⌋ 887272)) (by omega) (by unfold TickMath.MAX_TICK; omega)
      (by unfold TickMath.MAX_TICK; omega)
    exact Nat.cast_le.mpr (valueOf_mono (TickMath.roundUp_mono ratio))
  whole := fun tick value quoted => by
    simp only [quoteTick, bind_eq_ok, revertIf_eq_ok, orRevert_eq_ok, pure_eq_ok] at quoted
    obtain ⟨⟨⟩, inside, sqrt, at_tick, ⟨⟩, -, rfl⟩ := quoted
    have inside : -887272 ≤ tick ∧ tick ≤ 887272 := by omega
    rw [TickMath.getSqrtRatioAtTick_eq inside.1 inside.2, Option.some.injEq] at at_tick
    rw [floorPrice, Int.floor_intCast, min_eq_left inside.2, max_eq_right inside.1, at_tick]

/-! ### The paths -/

theorem guardedQuotes_eq_ok {q : Quotes} : guardedQuotes w = .ok q ↔
    checkCode w = .ok ⟨⟩ ∧
      ∃ a b, comparisonHop w.firstPool w.cfg.firstMinLiquidity (firstForward w) w = .ok a ∧
        comparisonHop w.secondPool w.cfg.secondMinLiquidity (secondForward w) w = .ok b ∧
        quoteTicks a.meanTick b.meanTick = .ok q.average ∧
        quoteTicks a.spotTick b.spotTick = .ok q.spot ∧
        q.updated = min a.updated b.updated ∧
        q.withinDeviation = (a.withinDeviation && b.withinDeviation) := by
  simp only [guardedQuotes, bind_eq_ok, pure_eq_ok]
  constructor
  · rintro ⟨⟨⟩, code, a, first, b, second, average, mean, spot, now, rfl⟩
    exact ⟨code, a, b, first, second, mean, now, rfl, rfl⟩
  · rintro ⟨code, a, b, first, second, mean, now, updated, within⟩
    exact ⟨⟨⟩, code, a, first, b, second, q.average, mean, q.spot, now, by rw [← updated, ← within]⟩

theorem latestRoundData_eq_ok {r : RoundData} : latestRoundData w = .ok r ↔
    checkCode w = .ok ⟨⟩ ∧
      ∃ a ta b tb value,
        consult w.firstPool w.cfg.firstMinLiquidity (firstForward w) w = .ok (a, ta) ∧
        consult w.secondPool w.cfg.secondMinLiquidity (secondForward w) w = .ok (b, tb) ∧
        quoteTicks a b = .ok value ∧ r = roundData value (min ta tb) := by
  simp only [latestRoundData, bind_eq_ok, pure_eq_ok]
  constructor
  · rintro ⟨⟨⟩, code, ⟨a, ta⟩, first, ⟨b, tb⟩, second, value, mean, rfl⟩
    exact ⟨code, a, ta, b, tb, value, first, second, mean, rfl⟩
  · rintro ⟨code, a, ta, b, tb, value, first, second, mean, rfl⟩
    exact ⟨⟨⟩, code, (a, ta), first, (b, tb), second, value, mean, rfl⟩

theorem latestRoundData_of_within {q : Quotes} (h : guardedQuotes w = .ok q)
    (within : q.withinDeviation = true) :
    latestRoundData w = .ok (roundData q.average q.updated) := by
  obtain ⟨code, a, b, first, second, mean, -, updated, both⟩ := guardedQuotes_eq_ok.mp h
  rw [both, Bool.and_eq_true] at within
  have consulted {p minimum forward} {hop : Hop}
      (seen : comparisonHop p minimum forward w = .ok hop) (near : hop.withinDeviation = true) :
      consult p minimum forward w = .ok (hop.meanTick, hop.updated) :=
    consult_iff.mpr ⟨hop.spotTick, by rw [seen, ← near]⟩
  exact latestRoundData_eq_ok.mpr ⟨code, a.meanTick, a.updated, b.meanTick, b.updated, q.average,
    consulted first within.1, consulted second within.2, mean, by rw [updated]⟩

theorem latestRoundData_of_apart {q : Quotes} (h : guardedQuotes w = .ok q)
    (apart : q.withinDeviation = false) (r : RoundData) : latestRoundData w ≠ .ok r := by
  intro succeeds
  obtain ⟨-, a, b, first, second, -, -, -, both⟩ := guardedQuotes_eq_ok.mp h
  obtain ⟨-, _, _, _, _, _, consulted, consulted', -⟩ := latestRoundData_eq_ok.mp succeeds
  rw [both, within_of_consult first consulted, within_of_consult second consulted'] at apart
  cases apart

/-- The spot ticks of the two pools, chained, have a price. -/
def SpotQuotable (w : World) : Prop :=
  ∃ a b value, spotOf w.firstPool (firstForward w) = some a ∧
    spotOf w.secondPool (secondForward w) = some b ∧ quoteTicks a b = .ok value

theorem guardedQuotes_of_latest {r : RoundData} (h : latestRoundData w = .ok r)
    (quotable : SpotQuotable w) : ∃ average spot,
      guardedQuotes w = .ok ⟨average, spot, r.updatedAt, true⟩ ∧ r.answer = average := by
  obtain ⟨code, a, ta, b, tb, value, first, second, mean, rfl⟩ := latestRoundData_eq_ok.mp h
  obtain ⟨sa, hop⟩ := consult_iff.mp first
  obtain ⟨sb, hop'⟩ := consult_iff.mp second
  obtain ⟨a', b', spot, at_a, at_b, quoted⟩ := quotable
  have first_spot := (comparisonHop_read hop).spot.symm.trans at_a
  have second_spot := (comparisonHop_read hop').spot.symm.trans at_b
  simp only [Option.some.injEq] at first_spot second_spot
  subst first_spot
  subst second_spot
  exact ⟨value, spot, guardedQuotes_eq_ok.mpr ⟨code, _, _, hop, hop', mean, quoted, rfl, rfl⟩, rfl⟩

/-! ### The spot ticks -/

/-- The pool with another current tick. -/
def Pool.withTick (tick : ℤ) (p : Pool) : Pool :=
  { p with slot0 := p.slot0.map fun slot => { slot with tick } }

/-- The state with other current ticks of the two pools. -/
def World.withTicks (first second : ℤ) (w : World) : World :=
  { w with
    firstPool := w.firstPool.withTick first
    secondPool := w.secondPool.withTick second }

theorem lastObservation_withTick {tick spot spot' : ℤ} {updated updated' : ℕ}
    (h : lastObservation p w = .ok (spot, updated))
    (k : lastObservation (p.withTick tick) w = .ok (spot', updated')) : updated = updated' := by
  simp only [lastObservation, Pool.withTick, bind_eq_ok, orRevert_eq_ok, revertIf_eq_ok, pure_eq_ok,
    Prod.mk.injEq, Option.map_eq_some_iff] at h k
  obtain ⟨slot, at_slot, ⟨⟩, -, last, seen, ⟨⟩, -, rfl, rfl⟩ := h
  obtain ⟨slot', ⟨original, at_original, rfl⟩, ⟨⟩, -, last', seen', ⟨⟩, -, rfl, rfl⟩ := k
  rw [at_slot] at at_original
  cases at_original
  rw [seen] at seen'
  cases seen'
  rfl

/-- What a hop says besides its spot is no matter of the current tick. -/
theorem comparisonHop_withTick {tick : ℤ} {a b : Hop}
    (h : comparisonHop p minimum forward w = .ok a)
    (k : comparisonHop (p.withTick tick) minimum forward w = .ok b) :
    a.meanTick = b.meanTick ∧ a.updated = b.updated := by
  obtain ⟨⟨spot, last, -⟩, ⟨delta, observed, mean⟩⟩ := comparisonHop_read h
  obtain ⟨⟨spot', last', -⟩, ⟨delta', observed', mean'⟩⟩ := comparisonHop_read k
  have same : observeDelta (p.withTick tick) minimum w = observeDelta p minimum w := rfl
  rw [same, observed] at observed'
  cases observed'
  exact ⟨mean.trans mean'.symm, lastObservation_withTick last last'⟩

theorem guardedQuotes_withTicks {first second : ℤ} {q q' : Quotes} (h : guardedQuotes w = .ok q)
    (k : guardedQuotes (w.withTicks first second) = .ok q') :
    q.average = q'.average ∧ q.updated = q'.updated := by
  obtain ⟨-, a, b, hop, hop', mean, -, updated, -⟩ := guardedQuotes_eq_ok.mp h
  obtain ⟨-, c, d, moved, moved', mean', -, updated', -⟩ := guardedQuotes_eq_ok.mp k
  obtain ⟨first_mean, first_time⟩ := comparisonHop_withTick hop moved
  obtain ⟨second_mean, second_time⟩ := comparisonHop_withTick hop' moved'
  rw [first_mean, second_mean, mean'] at mean
  exact ⟨(Except.ok.inj mean).symm, by rw [updated, updated', first_time, second_time]⟩

/-! ### The exact price -/

/-- The exact mean ticks of the two pools, in the direction of the quote. -/
structure Means (w : World) (first second : ℚ) : Prop where
  first : ∃ delta, observeDelta w.firstPool w.cfg.firstMinLiquidity w = .ok delta ∧
    first = exactMean delta (firstForward w) w
  second : ∃ delta, observeDelta w.secondPool w.cfg.secondMinLiquidity w = .ok delta ∧
    second = exactMean delta (secondForward w) w

/-- The price is that of a tick below the chained exact mean, by less than two. -/
theorem latestRoundData_price {r : RoundData} (h : latestRoundData w = .ok r) :
    ∃ first second a b value, Means w first second ∧ Floors a first ∧ Floors b second ∧
      quoteTicks a b = .ok value ∧ r.answer = value := by
  obtain ⟨-, a, ta, b, tb, value, consulted, consulted', mean, rfl⟩ := latestRoundData_eq_ok.mp h
  obtain ⟨_, hop⟩ := consult_iff.mp consulted
  obtain ⟨_, hop'⟩ := consult_iff.mp consulted'
  obtain ⟨delta, observed, floors⟩ := (comparisonHop_read hop).floors
  obtain ⟨delta', observed', floors'⟩ := (comparisonHop_read hop').floors
  exact ⟨_, _, a, b, value, ⟨⟨delta, observed, rfl⟩, ⟨delta', observed', rfl⟩⟩, floors, floors',
    mean, rfl⟩

/-- Whatever the price between two ticks is, the feed's is not above that of the exact mean. -/
theorem latestRoundData_le {r : RoundData} (h : latestRoundData w = .ok r) :
    ∃ first second, Means w first second ∧
      ∀ price, ExtendsQuotes price → (r.answer : ℚ) ≤ price (first + second) := by
  obtain ⟨first, second, a, b, value, means, below, below', quoted, answer⟩ :=
    latestRoundData_price h
  refine ⟨first, second, means, fun price ext => ?_⟩
  have chained : ((a + b : ℤ) : ℚ) ≤ first + second := by
    rw [Int.cast_add]
    exact add_le_add below.le below'.le
  calc (r.answer : ℚ) = price ((a + b : ℤ) : ℚ) := by
        rw [ext.whole (a + b) value quoted, answer, Int.cast_natCast]
    _ ≤ price (first + second) := ext.mono chained

/-- A tick that one of the paths reads of a hop, and its exact mean. -/
def FloorsMean (p : Pool) (minimum : ℕ) (forward : Bool) (w : World) (tick : ℤ) : Prop :=
  ∃ delta, observeDelta p minimum w = .ok delta ∧ Floors tick (exactMean delta forward w)

/-- The two paths of the feed agree, and round against the collateral. -/
theorem twap_paths_agree (w : World) :
    (∀ average spot updated, guardedQuotes w = .ok ⟨average, spot, updated, true⟩ →
      latestRoundData w = .ok (roundData average updated)) ∧
    (∀ average spot updated, guardedQuotes w = .ok ⟨average, spot, updated, false⟩ →
      ∃ e, latestRoundData w = .error e) ∧
    (∀ r, latestRoundData w = .ok r → SpotQuotable w → ∃ average spot,
      guardedQuotes w = .ok ⟨average, spot, r.updatedAt, true⟩ ∧ r.answer = average) ∧
    (∀ p minimum forward tick updated, consult p minimum forward w = .ok (tick, updated) →
      FloorsMean p minimum forward w tick) ∧
    (∀ p minimum forward hop, comparisonHop p minimum forward w = .ok hop →
      FloorsMean p minimum forward w hop.meanTick) ∧
    ExtendsQuotes floorPrice ∧
    ∀ r, latestRoundData w = .ok r → ∃ first second, Means w first second ∧
      ∀ price, ExtendsQuotes price → (r.answer : ℚ) ≤ price (first + second) := by
  refine ⟨fun average spot updated h => latestRoundData_of_within h rfl,
    fun average spot updated h => ?_, fun r h quotable => guardedQuotes_of_latest h quotable,
    fun p minimum forward tick updated h => ?_,
    fun p minimum forward hop h => (comparisonHop_read h).floors, extends_floorPrice,
    fun r h => latestRoundData_le h⟩
  · cases answered : latestRoundData w with
    | ok r => exact absurd answered (latestRoundData_of_apart h rfl r)
    | error e => exact ⟨e, rfl⟩
  · obtain ⟨spot, hop⟩ := consult_iff.mp h
    exact (comparisonHop_read hop).floors

/-! A pool that is quoted backwards: its mean tick of `-10/3` is rounded down to `-4`, and its
directed tick of `10/3` to `3`. -/

def samplePool : Pool where
  codehash := 1
  slot0 := some ⟨-3, 0, 2, true⟩
  observations := fun _ => some ⟨1000, true⟩
  observe := fun _ => some ([0, -1000], [0, 1])
  liquidity := some 1

def sample : World where
  cfg :=
    { collateral := 3, intermediate := 2, usdg := 1, firstCodeHash := 1, secondCodeHash := 1
      window := 300, maxObservationAge := 300, maxSpotTickDeviation := 5
      firstMinLiquidity := 1, secondMinLiquidity := 1
      collateral_ne_intermediate := by decide, collateral_ne_usdg := by decide
      intermediate_ne_usdg := by decide, le_window := by decide, window_le := by decide
      age_ne_zero := by decide, age_le := by decide, deviation_ne_zero := by decide
      deviation_le := by decide, firstMin_ne_zero := by decide, secondMin_ne_zero := by decide }
  now := 1100
  firstPool := samplePool
  secondPool := samplePool

example : consult samplePool 1 false sample = .ok (3, 1000) := by decide +kernel

example : latestRoundData sample = .ok (roundData 1000600150020001500060001000024 1000) := by
  decide +kernel

end Turret.V3TwapFeed
