import Mathlib.Data.List.Chain
import Turret.Library.Execution
import Turret.Library.Rounding

/-! `DockyardDualOracle`: the price of two sources, served after they have been
observed to agree for a while. What the token and the sources answer is free at
every call; times and products are far below the size of a word. -/

namespace Turret.DualOracle

open Execution Rounding

inductive Error
  | external
  | invalidPrice
  | stalePrice
  | priceDisagreement
  | marketClosed
  | recoveryPending
  | corporateActionPending
  deriving DecidableEq

structure Policy where
  primaryMaxAge : ℕ
  independentMaxAge : ℕ
  recoveryDelay : ℕ
  observationMaxGap : ℕ
  maxDeviationBps : ℕ
  maxConfidenceBps : ℕ
  minPublishers : ℕ
  borrowingSessions : ℕ
  liquidationSessions : ℕ

/-- The immutables, with what the constructor checks of them. -/
structure Config where
  policy : Policy
  primaryDecimals : ℕ
  primaryMaxAge_pos : 0 < policy.primaryMaxAge
  primaryMaxAge_le : policy.primaryMaxAge ≤ 86400
  independentMaxAge_pos : 0 < policy.independentMaxAge
  independentMaxAge_le : policy.independentMaxAge ≤ 60
  recoveryDelay_ge : 30 ≤ policy.recoveryDelay
  recoveryDelay_le : policy.recoveryDelay ≤ 3600
  observationMaxGap_ge : 10 ≤ policy.observationMaxGap
  observationMaxGap_le : policy.observationMaxGap ≤ 60
  maxDeviation_pos : 0 < policy.maxDeviationBps
  maxDeviation_le : policy.maxDeviationBps ≤ 500
  maxConfidence_pos : 0 < policy.maxConfidenceBps
  maxConfidence_le : policy.maxConfidenceBps ≤ 200
  minPublishers_ge : 2 ≤ policy.minPublishers
  borrowingSessions_pos : 0 < policy.borrowingSessions
  sessions_le : policy.borrowingSessions ||| policy.liquidationSessions ≤ 15
  sessions_sub : policy.borrowingSessions &&& policy.liquidationSessions = policy.borrowingSessions
  primaryDecimals_le : primaryDecimals ≤ 18

def MAX_REPORT_AGE : ℕ := 30

structure Round where
  round : ℕ
  answer : ℤ
  updated : ℕ
  answered : ℕ

/-- A report of the verifier. -/
structure Report where
  timestampUs : ℕ
  feedUpdateTimestampUs : ℕ
  price : ℤ
  confidence : ℕ
  publishers : ℕ
  exponent : ℤ
  session : ℕ

/-- What is answered in one call; `none` where the answer is a revert. -/
structure Reading where
  oraclePaused : Option Bool
  latestRoundData : Option Round
  report : Option Report
  effectiveAt : Option ℕ
  uiMultiplier : Option ℕ

structure Oracle where
  validSince : ℕ
  lastObservation : ℕ

def deployed : Oracle := ⟨0, 0⟩

variable (cfg : Config)

/-- `_fresh`. -/
def checkFresh (time maxAge now : ℕ) : Except Error Unit :=
  revertIf (time = 0 ∨ now < time ∨ maxAge ≤ now - time) .stalePrice

/-- `_freshMicroseconds`. -/
def checkFreshMicroseconds (time maxAge now : ℕ) : Except Error Unit :=
  revertIf (time = 0 ∨ now * 1000000 < time ∨ maxAge * 1000000 ≤ now * 1000000 - time) .stalePrice

/-- `_stockPrice`. -/
def stockPrice (r : Report) : Except Error ℕ := do
  revertIf (r.price ≤ 0 ∨ r.confidence = 0 ∨ 2 ^ 63 ≤ r.confidence ∨
    r.publishers < cfg.policy.minPublishers ∨ r.exponent < -18 ∨ 0 < r.exponent ∨
    r.price.toNat * cfg.policy.maxConfidenceBps < r.confidence * 10000) .invalidPrice
  pure (r.price.toNat * 10 ^ (18 + r.exponent).toNat)

structure Data where
  value : ℕ
  updatedAt : ℕ
  session : ℕ

def currentData (now : ℕ) (x : Reading) : Except Error Data := do
  let paused ← orRevert x.oraclePaused .external
  revertIf (paused = true) .invalidPrice
  let primary ← orRevert x.latestRoundData .external
  revertIf (primary.answer ≤ 0 ∨ primary.answered < primary.round) .invalidPrice
  checkFresh primary.updated cfg.policy.primaryMaxAge now
  let r ← orRevert x.report .external
  checkFreshMicroseconds r.timestampUs MAX_REPORT_AGE now
  checkFreshMicroseconds r.feedUpdateTimestampUs cfg.policy.independentMaxAge now
  let stock ← stockPrice cfg r
  revertIf (cfg.policy.liquidationSessions.testBit r.session = false) .marketClosed
  let effective ← orRevert x.effectiveAt .external
  revertIf (effective ≤ now ∧
    (primary.updated < effective ∨ r.feedUpdateTimestampUs / 1000000 < effective))
    .corporateActionPending
  let multiplier ← orRevert x.uiMultiplier .external
  revertIf (multiplier = 0 ∨ 10 ^ 30 < multiplier) .invalidPrice
  let independent := mulDiv stock multiplier (10 ^ 18)
  revertIf (independent = 0 ∨ 2 ^ 128 ≤ primary.answer.toNat) .invalidPrice
  let price := primary.answer.toNat * 10 ^ (18 - cfg.primaryDecimals)
  let low := min price independent
  let difference := if independent < price then price - independent else independent - price
  revertIf (cfg.policy.maxDeviationBps < mulDivUp difference 10000 low) .priceDisagreement
  pure ⟨low, min primary.updated (r.feedUpdateTimestampUs / 1000000), r.session⟩

/-- A call of `observe`, at the time of its block. -/
structure Call where
  now : ℕ
  reading : Reading

/-- The sources are valid and agree in this call. -/
def Call.valid (x : Call) : Bool := (currentData cfg x.now x.reading).isOk

def observe (x : Call) (o : Oracle) : Oracle :=
  match currentData cfg x.now x.reading with
  | .ok _ =>
    ⟨if o.validSince = 0 ∨ cfg.policy.observationMaxGap ≤ x.now - o.lastObservation then x.now
      else o.validSince, x.now⟩
  | .error _ => ⟨0, 0⟩

def validatedPrice (borrowing : Bool) (now : ℕ) (x : Reading) (o : Oracle) : Except Error (ℕ × ℕ) := do
  let data ← currentData cfg now x
  let mask := if borrowing then cfg.policy.borrowingSessions else cfg.policy.liquidationSessions
  revertIf (mask.testBit data.session = false) .marketClosed
  revertIf (o.validSince = 0 ∨ cfg.policy.observationMaxGap ≤ now - o.lastObservation ∨
    now - o.validSince < cfg.policy.recoveryDelay) .recoveryPending
  pure (data.value, data.updatedAt)

/-- The calls of `observe`, one after the other. -/
def observeAll (calls : List Call) : Oracle := calls.foldl (fun o x => observe cfg x o) deployed

/-! ### What is served -/

/-- Both sources are fresh at `now`, and the value is the lower of two prices that differ by no more
than the policy allows. -/
structure WithinLimits (now : ℕ) (x : Reading) (value updatedAt session : ℕ) : Prop where
  running : x.oraclePaused = some false
  sources : ∃ primary r multiplier, x.latestRoundData = some primary ∧ x.report = some r ∧
    x.uiMultiplier = some multiplier ∧ r.session = session ∧
    (primary.updated ≤ now ∧ now - primary.updated < cfg.policy.primaryMaxAge) ∧
    (r.timestampUs ≤ now * 1000000 ∧ now * 1000000 - r.timestampUs < MAX_REPORT_AGE * 1000000) ∧
    (r.feedUpdateTimestampUs ≤ now * 1000000 ∧
      now * 1000000 - r.feedUpdateTimestampUs < cfg.policy.independentMaxAge * 1000000) ∧
    updatedAt = min primary.updated (r.feedUpdateTimestampUs / 1000000) ∧
    ∃ price independent, price = primary.answer.toNat * 10 ^ (18 - cfg.primaryDecimals) ∧
      independent = mulDiv (r.price.toNat * 10 ^ (18 + r.exponent).toNat) multiplier (10 ^ 18) ∧
      value = min price independent ∧ 0 < value ∧
      (max price independent - min price independent) * 10000 ≤ cfg.policy.maxDeviationBps * value

theorem within_of_currentData {now : ℕ} {x : Reading} {data : Data}
    (h : currentData cfg now x = .ok data) :
    WithinLimits cfg now x data.value data.updatedAt data.session := by
  simp only [currentData, checkFresh, checkFreshMicroseconds, stockPrice, bind_eq_ok,
    orRevert_eq_ok, revertIf_eq_ok, pure_eq_ok, not_or, not_lt, not_le, Bool.not_eq_true] at h
  obtain ⟨paused, at_paused, -, running, primary, at_primary, -, ⟨positive, -⟩, -,
    ⟨-, reached, young⟩, r, at_report, -, ⟨-, reached', young'⟩, -, ⟨-, reached'', young''⟩,
    stock, ⟨-, -, rfl⟩, -, -, effective, -, -, -, multiplier, at_multiplier, -, -, -,
    ⟨independent, -⟩, -, near, rfl⟩ := h
  have price_pos : 0 < primary.answer.toNat * 10 ^ (18 - cfg.primaryDecimals) :=
    Nat.mul_pos (by omega) (Nat.pow_pos (by decide))
  refine ⟨at_paused.trans (congrArg some running), primary, r, multiplier, at_primary, at_report,
    at_multiplier, rfl, ⟨reached, young⟩, ⟨reached', young'⟩, ⟨reached'', young''⟩, rfl,
    _, _, rfl, rfl, rfl, lt_min price_pos (Nat.pos_of_ne_zero independent), ?_⟩
  generalize primary.answer.toNat * 10 ^ (18 - cfg.primaryDecimals) = price at *
  generalize mulDiv (r.price.toNat * 10 ^ (18 + r.exponent).toNat) multiplier (10 ^ 18) = other at *
  have bound := (mulDivUp_le_iff (lt_min price_pos (Nat.pos_of_ne_zero independent))).mp near
  refine le_trans (Nat.mul_le_mul_right _ ?_) bound
  split
  · rw [max_eq_left (by omega), min_eq_right (by omega)]
  · rw [max_eq_right (by omega), min_eq_left (by omega)]

/-! ### Recovery -/

/-- The last calls have all been valid, each soon after the one before. -/
structure Recovering (o : Oracle) (chain : List Call) : Prop where
  valid : ∀ x ∈ chain, x.valid cfg = true
  close : chain.IsChain fun x y => y.now - x.now < cfg.policy.observationMaxGap
  since : chain.head?.map Call.now = some o.validSince
  last : chain.getLast?.map Call.now = some o.lastObservation

variable {cfg}

/-- One call: the clock goes on with the calls before it, or starts again. -/
theorem Recovering.observe {o : Oracle} {calls : List Call} (x : Call)
    (h : o.validSince ≠ 0 → ∃ before chain, calls = before ++ chain ∧ Recovering cfg o chain)
    (running : (DualOracle.observe cfg x o).validSince ≠ 0) :
    ∃ before chain, calls ++ [x] = before ++ chain ∧
      Recovering cfg (DualOracle.observe cfg x o) chain := by
  unfold DualOracle.observe at running ⊢
  split at running
  · rename_i data read
    have valid : x.valid cfg = true := by
      rw [Call.valid, read]
      rfl
    by_cases restart : o.validSince = 0 ∨ cfg.policy.observationMaxGap ≤ x.now - o.lastObservation
    · refine ⟨calls, [x], rfl, ?_⟩
      simp only [if_pos restart]
      exact ⟨by simpa using valid, .singleton _, rfl, rfl⟩
    · obtain ⟨on, soon⟩ := not_or.mp restart
      obtain ⟨before, chain, split, all, close, since, last⟩ := h on
      refine ⟨before, chain ++ [x], by rw [split, List.append_assoc], ?_⟩
      simp only [if_neg restart]
      refine ⟨?_, ?_, ?_, by simp⟩
      · intro y mem
        rcases List.mem_append.mp mem with old | new
        · exact all y old
        · exact List.mem_singleton.mp new ▸ valid
      · refine List.IsChain.append close (.singleton x) fun y at_y z at_z => ?_
        cases Option.mem_some_iff.mp at_z
        have at_last : some y.now = some o.lastObservation := by
          rw [← last, Option.mem_def.mp at_y]
          rfl
        rw [Option.some.inj at_last]
        exact not_le.mp soon
      · rw [List.head?_append]
        cases chain with
        | nil => cases since
        | cons y ys => exact since
  · exact absurd rfl running

theorem recovering_observeAll (calls : List Call) (running : (observeAll cfg calls).validSince ≠ 0) :
    ∃ before chain, calls = before ++ chain ∧ Recovering cfg (observeAll cfg calls) chain := by
  induction calls using List.reverseRecOn with
  | nil => exact absurd rfl running
  | append_singleton calls x ih =>
    rw [observeAll, List.foldl_append] at running ⊢
    exact Recovering.observe x ih running

variable (cfg)

/-- A price is served only at the end of a chain of valid observations. -/
theorem served_after_recovery (calls : List Call) (now : ℕ) (later : ∀ x ∈ calls, x.now ≤ now)
    (borrowing : Bool) (reading : Reading) (value updatedAt : ℕ)
    (served : validatedPrice cfg borrowing now reading (observeAll cfg calls) = .ok (value, updatedAt)) :
    (∃ before chain first last, calls = before ++ chain ∧ (∀ x ∈ chain, x.valid cfg = true) ∧
      (chain.IsChain fun x y => y.now < x.now + cfg.policy.observationMaxGap) ∧
      chain.head? = some first ∧ first.now + cfg.policy.recoveryDelay ≤ now ∧
      chain.getLast? = some last ∧ now < last.now + cfg.policy.observationMaxGap) ∧
    ∃ session, WithinLimits cfg now reading value updatedAt session ∧
      (if borrowing then cfg.policy.borrowingSessions
        else cfg.policy.liquidationSessions).testBit session = true := by
  simp only [validatedPrice, bind_eq_ok, revertIf_eq_ok, pure_eq_ok, not_or, not_lt, not_le,
    Bool.not_eq_false] at served
  obtain ⟨data, read, -, open_, -, ⟨running, recent, recovered⟩, done⟩ := served
  cases done
  refine ⟨?_, data.session, within_of_currentData cfg read, open_⟩
  obtain ⟨before, chain, split, valid, close, since, last⟩ := recovering_observeAll calls running
  obtain ⟨first, at_first, first_now⟩ := Option.map_eq_some_iff.mp since
  obtain ⟨newest, at_last, last_now⟩ := Option.map_eq_some_iff.mp last
  have mem : ∀ x ∈ chain, x ∈ calls := fun x at_x => split ▸ List.mem_append_right _ at_x
  have first_le := later first (mem first (List.mem_of_mem_head? at_first))
  have last_le := later newest (mem newest (List.mem_of_getLast? at_last))
  refine ⟨before, chain, first, newest, split, valid, ?_, at_first, by omega, at_last, by omega⟩
  exact close.imp fun x y soon => by omega

/-! ### Four observations -/

def sampleConfig : Config where
  policy := ⟨3600, 30, 60, 40, 100, 100, 3, 1, 15⟩
  primaryDecimals := 8
  primaryMaxAge_pos := by decide
  primaryMaxAge_le := by decide
  independentMaxAge_pos := by decide
  independentMaxAge_le := by decide
  recoveryDelay_ge := by decide
  recoveryDelay_le := by decide
  observationMaxGap_ge := by decide
  observationMaxGap_le := by decide
  maxDeviation_pos := by decide
  maxDeviation_le := by decide
  maxConfidence_pos := by decide
  maxConfidence_le := by decide
  minPublishers_ge := by decide
  borrowingSessions_pos := by decide
  sessions_le := by decide
  sessions_sub := by decide
  primaryDecimals_le := by decide

/-- Both sources at about 200 USD, at the time `now`. -/
def sampleReading (now : ℕ) : Reading where
  oraclePaused := some false
  latestRoundData := some ⟨7, 20000000000, now, 7⟩
  report := some ⟨now * 1000000, now * 1000000, 20010, 10, 5, -2, 0⟩
  effectiveAt := some 0
  uiMultiplier := some (10 ^ 18)

/-- A paused token, and then three observations in a row. -/
def sampleCalls : List Call :=
  [⟨1000, { sampleReading 1000 with oraclePaused := some true }⟩, ⟨1010, sampleReading 1010⟩,
    ⟨1040, sampleReading 1040⟩, ⟨1070, sampleReading 1070⟩]

theorem sample_served_after_recovery :
    validatedPrice sampleConfig true 1080 (sampleReading 1080) (observeAll sampleConfig sampleCalls) =
      .ok (200 * 10 ^ 18, 1080) ∧
    ∃ before chain first last, sampleCalls = before ++ chain ∧
      (∀ x ∈ chain, x.valid sampleConfig = true) ∧
      (chain.IsChain fun x y => y.now < x.now + 40) ∧
      chain.head? = some first ∧ first.now + 60 ≤ 1080 ∧
      chain.getLast? = some last ∧ 1080 < last.now + 40 := by
  have served : validatedPrice sampleConfig true 1080 (sampleReading 1080)
      (observeAll sampleConfig sampleCalls) = .ok (200 * 10 ^ 18, 1080) := by
    rfl
  exact ⟨served, (served_after_recovery sampleConfig sampleCalls 1080 (by decide) true
    (sampleReading 1080) _ _ served).1⟩

end Turret.DualOracle
