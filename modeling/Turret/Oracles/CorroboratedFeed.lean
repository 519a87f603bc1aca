import Turret.Library.Rounding
import Turret.Oracles.TwapPaths

/-! `DockyardCorroboratedV3Feed`: the mean of the pools, corroborated by an
independent feed. What the feed answers is not restricted; a call of it may also
revert. -/

namespace Turret.CorroboratedFeed

open Execution Rounding Uint256 V3TwapFeed

inductive Error
  | unavailable
  | uncorroborated
  | dex (error : V3TwapFeed.Error)
  /-- A call of the feed has reverted. -/
  | external
  | panic
  deriving DecidableEq

structure Round where
  round : ℕ
  answer : ℤ
  updated : ℕ
  answered : ℕ

/-- What the feed answers now; `none` where the call reverts. -/
structure Feed where
  codehash : ℕ
  decimals : Option ℕ
  latestRoundData : Option Round

/-- The immutables, with what the constructor checks of them. -/
structure Config where
  dexCodeHash : ℕ
  referenceCodeHash : ℕ
  referenceDecimals : ℕ
  referenceMaxAge : ℕ
  agreementBps : ℕ
  decimals_le : referenceDecimals ≤ 18
  age_ne_zero : referenceMaxAge ≠ 0
  age_le : referenceMaxAge ≤ 60
  agreement_ne_zero : agreementBps ≠ 0
  agreement_le : agreementBps ≤ 500

structure World where
  cfg : Config
  dex : V3TwapFeed.World
  /-- The hash of the code of the mean's feed. -/
  dexCode : ℕ
  referenceFeed : Feed

/-- `block.timestamp`. -/
def World.now (w : World) : ℕ := w.dex.now

/-- `Math.mulDiv(a, b, c, Math.Rounding.Up)` with the checks of a word. -/
def checkedMulDivUp (a b c : ℕ) : Except Error ℕ :=
  if c ≠ 0 ∧ mulDivUp a b c < MODULUS then .ok (mulDivUp a b c) else .error .panic

/-- `_agree`. -/
def agree (a b : ℕ) (w : World) : Except Error Bool :=
  let low := min a b
  if low = 0 then pure false
  else do
    let apart ← checkedMulDivUp (max a b - low) 10000 low
    pure (decide (apart ≤ w.cfg.agreementBps))

structure Quote where
  value : ℕ
  updated : ℕ
  downwardGap : Bool
  deriving DecidableEq

/-- The price of the reference feed, and its time. -/
def reference (w : World) : Except Error (ℕ × ℕ) := do
  let data ← orRevert w.referenceFeed.latestRoundData .external
  revertIf (data.round = 0 ∨ data.answered < data.round ∨ data.answer ≤ 0 ∨ data.updated = 0 ∨
    w.now < data.updated ∨ w.cfg.referenceMaxAge < w.now - data.updated) .unavailable
  let price ← checkedMul data.answer.toNat (10 ^ (18 - w.cfg.referenceDecimals)) .panic
  revertIf (2 ^ 255 - 1 < price) .unavailable
  pure (price, data.updated)

/-- The branch where the mean is not confirmed. -/
def gap (average spot referencePrice updated : ℕ) (w : World) : Except Error Quote := do
  revertIf (average ≤ spot ∨ average ≤ referencePrice) .uncorroborated
  let near ← agree spot referencePrice w
  revertIf (near = false) .uncorroborated
  pure ⟨referencePrice, updated, true⟩

/-- `normal && _agree(average, referencePrice)`. -/
def confirms (dex : Quotes) (referencePrice : ℕ) (w : World) : Except Error Bool :=
  if dex.withinDeviation then agree dex.average referencePrice w else pure false

def checkCode (w : World) : Except Error Unit := do
  revertIf (w.dexCode ≠ w.cfg.dexCodeHash ∨ w.referenceFeed.codehash ≠ w.cfg.referenceCodeHash)
    .unavailable
  let decimals ← orRevert w.referenceFeed.decimals .external
  revertIf (decimals ≠ w.cfg.referenceDecimals) .unavailable

def quote (w : World) : Except Error Quote := do
  checkCode w
  let dex ← (guardedQuotes w.dex).mapError .dex
  let (referencePrice, refTime) ← reference w
  let updated := min dex.updated refTime
  let confirmed ← confirms dex referencePrice w
  if confirmed then pure ⟨min dex.average referencePrice, updated, false⟩
  else gap dex.average dex.spot referencePrice updated w

def latestRoundData (w : World) : Except Error RoundData := do
  let q ← quote w
  pure (roundData q.value q.updated)

/-! ### Agreement -/

/-- The two are within the configured part of the lower one. -/
def Near (a b : ℕ) (w : World) : Prop :=
  0 < min a b ∧ (max a b - min a b) * 10000 ≤ w.cfg.agreementBps * min a b

theorem near_of_agree {a b : ℕ} {w : World} (h : agree a b w = .ok true) : Near a b w := by
  simp only [agree] at h
  split_ifs at h with zero
  · simp at h
  · simp only [bind_eq_ok, pure_eq_ok, decide_eq_true_eq] at h
    obtain ⟨apart, rounded, le⟩ := h
    have positive : 0 < min a b := Nat.pos_of_ne_zero zero
    unfold checkedMulDivUp at rounded
    split_ifs at rounded with fits
    cases rounded
    exact ⟨positive, (mulDivUp_le_iff positive).mp le⟩

/-! ### What a quote says -/

/-- A quote and what it was made from. -/
structure Quoted (w : World) (average spot referencePrice : ℕ) (q : Quote) : Prop where
  dex : ∃ time within, guardedQuotes w.dex = .ok ⟨average, spot, time, within⟩ ∧
    ∃ refTime, reference w = .ok (referencePrice, refTime) ∧ q.updated = min time refTime
  value : q.value = min average referencePrice
  normal : q.downwardGap = false → Near average referencePrice w
  gap : q.downwardGap = true →
    referencePrice < average ∧ spot < average ∧ Near spot referencePrice w

theorem gap_eq_ok {average spot referencePrice updated : ℕ} {w : World} {q : Quote}
    (h : gap average spot referencePrice updated w = .ok q) :
    q = ⟨referencePrice, updated, true⟩ ∧ referencePrice < average ∧ spot < average ∧
      Near spot referencePrice w := by
  simp only [gap, bind_eq_ok, revertIf_eq_ok, pure_eq_ok, not_or, not_le] at h
  obtain ⟨⟨⟩, ⟨spot_lt, reference_lt⟩, near, agreed, ⟨⟩, kept, rfl⟩ := h
  rw [Bool.not_eq_false] at kept
  exact ⟨rfl, reference_lt, spot_lt, near_of_agree (kept ▸ agreed)⟩

theorem quote_quoted {w : World} {q : Quote} (h : quote w = .ok q) :
    ∃ average spot referencePrice, Quoted w average spot referencePrice q := by
  simp only [quote, bind_eq_ok, mapError_eq_ok] at h
  obtain ⟨⟨⟩, -, ⟨average, spot, time, within⟩, guarded, ⟨referencePrice, refTime⟩, referred,
    confirmed, agreed, made⟩ := h
  have sources : ∃ time' within', guardedQuotes w.dex = .ok ⟨average, spot, time', within'⟩ ∧
      ∃ refTime', reference w = .ok (referencePrice, refTime') ∧
        min time refTime = min time' refTime' := ⟨time, within, guarded, refTime, referred, rfl⟩
  cases confirmed with
  | true =>
    simp only [if_true, pure_eq_ok] at made
    subst made
    cases within with
    | true =>
      exact ⟨average, spot, referencePrice, sources, rfl, fun _ => near_of_agree agreed,
        fun gap => Bool.noConfusion gap⟩
    | false => simp [confirms] at agreed
  | false =>
    obtain ⟨rfl, below, spot_below, near⟩ := gap_eq_ok made
    exact ⟨average, spot, referencePrice, sources, (min_eq_right below.le).symm,
      fun level => Bool.noConfusion level, fun _ => ⟨below, spot_below, near⟩⟩

/-! ### Two states that differ only in the spot ticks -/

/-- The state with other current ticks of the two pools. -/
def World.withTicks (first second : ℤ) (w : World) : World :=
  { w with dex := w.dex.withTicks first second }

theorem Quoted.withTicks {w : World} {first second : ℤ} {q q' : Quote}
    {average spot referencePrice average' spot' referencePrice' : ℕ}
    (h : Quoted w average spot referencePrice q)
    (k : Quoted (w.withTicks first second) average' spot' referencePrice' q') :
    q.value = q'.value ∧ q.updated = q'.updated := by
  obtain ⟨time, within, guarded, refTime, referred, updated⟩ := h.dex
  obtain ⟨time', within', guarded', refTime', referred', updated'⟩ := k.dex
  have same : reference (w.withTicks first second) = reference w := rfl
  rw [same, referred] at referred'
  cases referred'
  obtain ⟨same_average, same_time⟩ := guardedQuotes_withTicks guarded guarded'
  simp only at same_average same_time
  subst same_average
  subst same_time
  exact ⟨h.value.trans k.value.symm, updated.trans updated'.symm⟩

/-- The spot ticks of the pools can make the feed revert or change its flag, and no more: the
value is the lower of the mean and the reference in both branches. -/
theorem spot_cannot_price (w : World) (first second : ℤ) :
    (∀ q q', quote w = .ok q → quote (w.withTicks first second) = .ok q' →
      q.value = q'.value ∧ q.updated = q'.updated) ∧
    (∀ r r', latestRoundData w = .ok r → latestRoundData (w.withTicks first second) = .ok r' →
      r = r') ∧
    ∀ q, quote w = .ok q → ∃ average spot referencePrice,
      Quoted w average spot referencePrice q := by
  have same {q q' : Quote} (h : quote w = .ok q) (k : quote (w.withTicks first second) = .ok q') :
      q.value = q'.value ∧ q.updated = q'.updated := by
    obtain ⟨_, _, _, quoted⟩ := quote_quoted h
    obtain ⟨_, _, _, quoted'⟩ := quote_quoted k
    exact quoted.withTicks quoted'
  refine ⟨fun q q' h k => same h k, fun r r' h k => ?_, fun q h => quote_quoted h⟩
  simp only [latestRoundData, bind_eq_ok, pure_eq_ok] at h k
  obtain ⟨q, quoted, rfl⟩ := h
  obtain ⟨q', quoted', rfl⟩ := k
  obtain ⟨value, updated⟩ := same quoted quoted'
  rw [value, updated]

/-! The reference has fallen below the mean; the spot has followed it in one state and not in
the other. -/

def sample (tick : ℤ) : World where
  cfg :=
    { dexCodeHash := 1, referenceCodeHash := 2, referenceDecimals := 18, referenceMaxAge := 60
      agreementBps := 500, decimals_le := le_rfl, age_ne_zero := by decide
      age_le := by decide, agreement_ne_zero := by decide, agreement_le := by decide }
  dex := V3TwapFeed.sample.withTicks tick tick
  dexCode := 1
  referenceFeed :=
    { codehash := 2, decimals := some 18
      latestRoundData := some ⟨1, 9 * 10 ^ 29, 1090, 1⟩ }

example : quote (sample 527) = .ok ⟨9 * 10 ^ 29, 1000, true⟩ := by decide +kernel

example : quote (sample (-3)) = .error .uncorroborated := by decide +kernel

end Turret.CorroboratedFeed
