import Mathlib.Data.Nat.Dist
import Turret.Oracles.StockTokenPriceFeed

/-! Every run of a `StockTokenPriceFeed`: where the candidate for a large move
comes from, and what may become of it before it is served. -/

namespace Turret.StockTokenPriceFeed

open Execution Rounding

variable {cfg : Config} {now : ℕ} {x : Reading} {s s' s₀ : Feed} {c : Call} {calls : List Call}

/-- The rounded comparison is the comparison of the fractions. -/
theorem deviationTooLargeFrom_iff (price referencePrice bps : ℕ) :
    deviationTooLargeFrom price referencePrice bps = true ↔
      referencePrice * bps < Nat.dist price referencePrice * BPS := by
  have apart : (if referencePrice < price then price - referencePrice else referencePrice - price) =
      Nat.dist price referencePrice := by
    unfold Nat.dist
    split <;> omega
  simp only [deviationTooLargeFrom, apart, decide_eq_true_eq]
  exact Nat.div_lt_iff_lt_mul (by decide)

/-- The feed takes no price for invalid unless both sources are. -/
theorem readOracle_of_invalid (read : readStockPrice cfg now x = .ok .invalid) :
    readOracle cfg .primary now x = .ok .invalid ∧ readOracle cfg .secondary now x = .ok .invalid := by
  simp only [readStockPrice, bind_eq_ok] at read
  obtain ⟨first, at_first, rest⟩ := read
  cases first with
  | valid price => simp at rest
  | temporaryUnavailable =>
    simp only [bind_eq_ok] at rest
    obtain ⟨second, -, rest⟩ := rest
    cases second <;> simp [unreadable] at rest
  | invalid =>
    simp only [bind_eq_ok] at rest
    obtain ⟨second, at_second, rest⟩ := rest
    cases second with
    | valid price => simp at rest
    | temporaryUnavailable => simp [unreadable] at rest
    | invalid => exact ⟨at_first, at_second⟩

theorem available_of_require {u : Unit} (h : requireSourcesAvailable cfg now x = .ok u) :
    sequencerIsHealthy cfg now x = .ok true ∧ x.oraclePaused = .returns false := by
  simp only [requireSourcesAvailable, bind_eq_ok, revertIf_eq_ok, Bool.not_eq_false, not_not] at h
  obtain ⟨healthy, at_healthy, -, rfl, paused, at_paused, rfl⟩ := h
  refine ⟨at_healthy, ?_⟩
  cases answer : x.oraclePaused with
  | returns paused =>
    rw [answer] at at_paused
    cases at_paused
    rfl
  | fails => simp [answer, Answer.attempt] at at_paused
  | outOfGas => simp [answer, Answer.attempt] at at_paused
  | malformed => simp [answer, Answer.attempt] at at_paused

/-! ### One call -/

/-- The candidate that this price confirms. -/
structure Confirms (cfg : Config) (p : Price) (now : ℕ) (candidate : Pending) : Prop where
  staged : candidate.price ≠ 0
  source : candidate.oracle = some p.source
  round : candidate.roundId < p.roundId
  delay : candidate.since + cfg.largeChangeConfirmationDelay ≤ now
  close : Nat.dist p.price candidate.price * BPS ≤ candidate.price * cfg.confirmationDeviationBps

theorem confirms_of_confirmed {p : Price} (h : largeChangeIsConfirmed cfg p now s = .ok true) :
    Confirms cfg p now s.pending := by
  unfold largeChangeIsConfirmed at h
  split at h
  · rename_i matching
    simp only [bind_eq_ok, pure_eq_ok, decide_eq_true_eq] at h
    obtain ⟨-, -, delay, near⟩ := h
    refine ⟨matching.1, matching.2.1.symm, matching.2.2, delay, ?_⟩
    rw [← Bool.not_eq_true, deviationTooLargeFrom_iff, not_lt] at near
    exact near
  · simp at h

/-- The price takes the place of the candidate. -/
def Replaces (cfg : Config) (p : Price) (candidate : Pending) : Prop :=
  candidate.price = 0 ∨ some p.source ≠ candidate.oracle ∨
    deviationTooLargeFrom p.price candidate.price cfg.confirmationDeviationBps = true

/-- All that a call which succeeds can do. -/
inductive Outcome (cfg : Config) (c : Call) (s : Feed) : Feed → Prop
  | frozen : c.op ≠ .stageLargePriceChange → s.usingLastGoodPrice = true → Outcome cfg c s s
  | shutDown : c.op ≠ .stageLargePriceChange → s.usingLastGoodPrice = false →
      sequencerIsHealthy cfg c.now c.reading = .ok true → c.reading.oraclePaused = .returns false →
      readStockPrice cfg c.now c.reading = .ok .invalid →
      Outcome cfg c s { s with usingLastGoodPrice := true }
  | accepted (p : Price) : c.op ≠ .stageLargePriceChange → s.usingLastGoodPrice = false →
      readStockPrice cfg c.now c.reading = .ok (.valid p) →
      (deviationTooLarge cfg p.price s = true → Confirms cfg p c.now s.pending) →
      Outcome cfg c s { s with pending := clearPendingPrice s.pending, lastGoodPrice := p.price }
  | kept (p : Price) : c.op = .stageLargePriceChange → s.usingLastGoodPrice = false →
      readStockPrice cfg c.now c.reading = .ok (.valid p) → ¬Replaces cfg p s.pending →
      Outcome cfg c s s
  | replaced (p : Price) : c.op = .stageLargePriceChange → s.usingLastGoodPrice = false →
      readStockPrice cfg c.now c.reading = .ok (.valid p) → Replaces cfg p s.pending →
      Outcome cfg c s { s with pending := ⟨p.price, c.now, p.roundId, some p.source⟩ }

theorem outcome_of_fetchPrice {served : ℕ × Bool} (fetches : c.op ≠ .stageLargePriceChange)
    (done : fetchPrice cfg c.now c.reading s = .ok (served, s')) : Outcome cfg c s s' := by
  unfold fetchPrice at done
  split at done
  · rename_i frozen
    cases done
    exact .frozen fetches frozen
  · rename_i live
    have live := Bool.not_eq_true _ ▸ live
    simp only [bind_eq_ok] at done
    obtain ⟨u, available, status, read, rest⟩ := done
    obtain ⟨healthy, running⟩ := available_of_require available
    cases status with
    | temporaryUnavailable => simp at rest
    | invalid =>
      simp only [shutdown, bind_eq_ok, pure_eq_ok] at rest
      obtain ⟨-, -, same⟩ := rest
      cases same
      exact .shutDown fetches live healthy running read
    | valid p =>
      simp only [acceptPrice, bind_eq_ok, pure_eq_ok] at rest
      obtain ⟨u, checked, same⟩ := rest
      cases same
      refine .accepted p fetches live read fun far => ?_
      simp only [checkChange, far, if_true, bind_eq_ok, revertIf_eq_ok, Bool.not_eq_false] at checked
      obtain ⟨confirmed, check, rfl⟩ := checked
      exact confirms_of_confirmed check

theorem outcome_of_stage {staged : ℕ × ℕ} (stages : c.op = .stageLargePriceChange)
    (done : stageLargePriceChange cfg c.now c.reading s = .ok (staged, s')) : Outcome cfg c s s' := by
  simp only [stageLargePriceChange, bind_eq_ok, revertIf_eq_ok, Bool.not_eq_true] at done
  obtain ⟨-, live, -, -, status, read, rest⟩ := done
  cases status with
  | temporaryUnavailable => simp at rest
  | invalid => simp at rest
  | valid p =>
    simp only [stagePrice, bind_eq_ok, pure_eq_ok, Prod.mk.injEq] at rest
    obtain ⟨-, -, -, rfl⟩ := rest
    split
    · rename_i replaces
      exact .replaced p stages live read replaces
    · rename_i keeps
      exact .kept p stages live read keeps

theorem outcome_of_exec (done : exec cfg c s = .ok s') : Outcome cfg c s s' := by
  unfold exec at done
  split at done
  all_goals
    rename_i is
    simp only [bind_eq_ok, pure_eq_ok] at done
    obtain ⟨⟨served, after⟩, call, rfl⟩ := done
  · exact outcome_of_fetchPrice (by simp [is]) call
  · exact outcome_of_fetchPrice (by simp [is]) call
  · exact outcome_of_stage is call

/-! ### Every run -/

/-- The call leaves the candidate, and serves no price. -/
def Quiet (cfg : Config) (c : Call) (s : Feed) : Prop :=
  (step cfg s c).pending = s.pending ∧
    (c.op ≠ .stageLargePriceChange → (exec cfg c s).isOk = false)

/-- The candidate has been recorded by one of the calls, and the calls after it have been quiet. -/
structure Recorded (cfg : Config) (s₀ : Feed) (before : List Call) (staged : Call)
    (between : List Call) (p : Price) (candidate : Pending) : Prop where
  op : staged.op = .stageLargePriceChange
  read : readStockPrice cfg staged.now staged.reading = .ok (.valid p)
  replaces : Replaces cfg p (runAll cfg before s₀).pending
  candidate_eq : candidate = ⟨p.price, staged.now, p.roundId, some p.source⟩
  stored : (runAll cfg (before ++ [staged]) s₀).pending = candidate
  quiet : ∀ b y b', between = b ++ y :: b' → Quiet cfg y (runAll cfg (before ++ staged :: b) s₀)

def Staged (cfg : Config) (s₀ : Feed) (calls : List Call) (candidate : Pending) : Prop :=
  ∃ before staged between p, calls = before ++ staged :: between ∧
    Recorded cfg s₀ before staged between p candidate

theorem runAll_append (calls later : List Call) :
    runAll cfg (calls ++ later) s₀ = runAll cfg later (runAll cfg calls s₀) :=
  List.foldl_append ..

theorem step_of_ok (done : exec cfg c s = .ok s') : step cfg s c = s' := by
  rw [step, done]

theorem step_of_error {e : Error} (reverts : exec cfg c s = .error e) : step cfg s c = s := by
  rw [step, reverts]

/-- A quiet call leaves a candidate as it has been recorded. -/
theorem Staged.quiet {candidate : Pending} (h : Staged cfg s₀ calls candidate)
    (quiet : Quiet cfg c (runAll cfg calls s₀)) : Staged cfg s₀ (calls ++ [c]) candidate := by
  obtain ⟨before, staged, between, p, rfl, recorded⟩ := h
  refine ⟨before, staged, between ++ [c], p, by simp, { recorded with quiet := ?_ }⟩
  intro b y b' split
  rcases List.eq_nil_or_concat b' with rfl | ⟨b'', z, rfl⟩
  · obtain ⟨rfl, last⟩ := List.append_inj' split rfl
    cases last
    exact quiet
  · rw [List.concat_eq_append, ← List.cons_append, ← List.append_assoc] at split
    exact recorded.quiet b y b'' (List.append_inj' split rfl).1

/-- What one call does to the candidate. -/
theorem staged_step (h : s.usingLastGoodPrice = false → s.pending.price ≠ 0 →
      Staged cfg s₀ calls s.pending) (reached : runAll cfg calls s₀ = s)
    (live : (step cfg s c).usingLastGoodPrice = false) (pending : (step cfg s c).pending.price ≠ 0) :
    Staged cfg s₀ (calls ++ [c]) (step cfg s c).pending := by
  cases result : exec cfg c s with
  | error e =>
    have same := step_of_error result
    rw [same] at live pending ⊢
    refine (h live pending).quiet ?_
    rw [reached]
    exact ⟨by rw [same], fun _ => by rw [result]; rfl⟩
  | ok s' =>
    have after := step_of_ok result
    rw [after] at live pending ⊢
    cases outcome_of_exec result with
    | frozen _ frozen => simp [frozen] at live
    | shutDown => simp at live
    | accepted p =>
      -- The candidate has been deleted.
      simp only [clearPendingPrice] at pending
      split at pending
      · contradiction
      · exact absurd rfl pending
    | kept p stages =>
      refine (h live pending).quiet ?_
      rw [reached]
      exact ⟨by rw [after], fun fetches => absurd stages fetches⟩
    | replaced p stages _ read replaces =>
      refine ⟨calls, c, [], p, rfl, stages, read, by rw [reached]; exact replaces, rfl, ?_, by simp⟩
      rw [runAll_append, reached]
      exact congrArg Feed.pending after

theorem staged_runAll (empty : s₀.pending.price = 0)
    (live : (runAll cfg calls s₀).usingLastGoodPrice = false)
    (pending : (runAll cfg calls s₀).pending.price ≠ 0) :
    Staged cfg s₀ calls (runAll cfg calls s₀).pending := by
  induction calls using List.reverseRecOn with
  | nil => exact absurd empty pending
  | append_singleton calls c ih =>
    rw [runAll_append] at live pending ⊢
    exact staged_step ih rfl live pending

/-- After the shutdown nothing changes. -/
theorem step_frozen (frozen : s.usingLastGoodPrice = true) : step cfg s c = s := by
  cases result : exec cfg c s with
  | error e => exact step_of_error result
  | ok s' =>
    rw [step_of_ok result]
    cases outcome_of_exec result with
    | frozen => rfl
    | shutDown _ live => simp [frozen] at live
    | accepted _ _ live => simp [frozen] at live
    | kept => rfl
    | replaced _ _ live => simp [frozen] at live

theorem runAll_frozen (frozen : s.usingLastGoodPrice = true) : runAll cfg calls s = s := by
  induction calls with
  | nil => rfl
  | cons c calls ih =>
    rw [runAll, List.foldl_cons, step_frozen frozen]
    exact ih

theorem fetchPrice_frozen (frozen : s.usingLastGoodPrice = true) :
    fetchPrice cfg now x s = .ok ((s.lastGoodPrice, false), s) := by
  rw [fetchPrice, if_pos frozen]
  rfl

/-- A feed is deployed without a candidate. -/
theorem pending_deploy (deployed : deploy cfg now x = .ok s) : s.pending.price = 0 := by
  simp only [deploy, bind_eq_ok] at deployed
  obtain ⟨paused, -, first, -, second, -, rest⟩ := deployed
  split at rest
  · cases rest
    rfl
  · simp at rest

/-- One call that moves the price too far confirms the candidate. -/
theorem confirms_of_moves
    (moves : s.lastGoodPrice * cfg.maxDeviationBps <
      Nat.dist (step cfg s c).lastGoodPrice s.lastGoodPrice * BPS) :
    c.op ≠ .stageLargePriceChange ∧ s.usingLastGoodPrice = false ∧
      ∃ p, readStockPrice cfg c.now c.reading = .ok (.valid p) ∧
        (step cfg s c).lastGoodPrice = p.price ∧ Confirms cfg p c.now s.pending := by
  have moved : (step cfg s c).lastGoodPrice ≠ s.lastGoodPrice := by
    intro same
    rw [same, Nat.dist_self, Nat.zero_mul] at moves
    exact absurd moves (Nat.not_lt_zero _)
  cases result : exec cfg c s with
  | error e => exact absurd (congrArg Feed.lastGoodPrice (step_of_error result)) moved
  | ok s' =>
    have after := step_of_ok result
    rw [after] at moves moved ⊢
    cases outcome_of_exec result with
    | frozen => exact absurd rfl moved
    | shutDown => exact absurd rfl moved
    | accepted p fetches live read confirms =>
      exact ⟨fetches, live, p, read, rfl, confirms ((deviationTooLargeFrom_iff ..).mpr moves)⟩
    | kept => exact absurd rfl moved
    | replaced => exact absurd rfl moved

/-- Staging what is close to the candidate leaves the candidate and its clock. -/
theorem step_stage_close {p : Price} (stages : c.op = .stageLargePriceChange)
    (read : readStockPrice cfg c.now c.reading = .ok (.valid p)) (staged : s.pending.price ≠ 0)
    (source : s.pending.oracle = some p.source)
    (close : Nat.dist p.price s.pending.price * BPS ≤ s.pending.price * cfg.confirmationDeviationBps) :
    step cfg s c = s := by
  have keeps : ¬Replaces cfg p s.pending := by
    rintro (none | other | far)
    · exact staged none
    · exact other source.symm
    · exact absurd ((deviationTooLargeFrom_iff ..).mp far) (not_lt.mpr close)
  cases result : exec cfg c s with
  | error e => exact step_of_error result
  | ok s' =>
    rw [step_of_ok result]
    cases outcome_of_exec result with
    | frozen => rfl
    | shutDown fetches => exact absurd stages fetches
    | accepted _ fetches => exact absurd stages fetches
    | kept => rfl
    | replaced p' _ _ read' replaces =>
      rw [read] at read'
      cases read'
      exact absurd replaces keeps

/-- A branch is shut down only where both sources are invalid, and keeps its price. -/
theorem invalid_of_shutDown (live : s.usingLastGoodPrice = false)
    (shut : (step cfg s c).usingLastGoodPrice = true) :
    sequencerIsHealthy cfg c.now c.reading = .ok true ∧ c.reading.oraclePaused = .returns false ∧
      readOracle cfg .primary c.now c.reading = .ok .invalid ∧
      readOracle cfg .secondary c.now c.reading = .ok .invalid ∧
      (step cfg s c).lastGoodPrice = s.lastGoodPrice := by
  cases result : exec cfg c s with
  | error e => rw [step_of_error result, live] at shut; cases shut
  | ok s' =>
    rw [step_of_ok result] at shut ⊢
    cases outcome_of_exec result with
    | shutDown _ _ healthy running read =>
      obtain ⟨first, second⟩ := readOracle_of_invalid read
      exact ⟨healthy, running, first, second, rfl⟩
    | frozen => rw [live] at shut; cases shut
    | accepted => rw [live] at shut; cases shut
    | kept => rw [live] at shut; cases shut
    | replaced => rw [live] at shut; cases shut

/-- A large move has been staged, for long enough and without a break. -/
theorem large_moves (cfg : Config) (deployedAt : ℕ) (x : Reading) (s₀ : Feed)
    (deployed : deploy cfg deployedAt x = .ok s₀) (calls : List Call) (s : Feed)
    (run : runAll cfg calls s₀ = s) :
    (∀ c, s.lastGoodPrice * cfg.maxDeviationBps <
        Nat.dist (step cfg s c).lastGoodPrice s.lastGoodPrice * BPS →
      c.op ≠ .stageLargePriceChange ∧ ∃ p, readStockPrice cfg c.now c.reading = .ok (.valid p) ∧
        (step cfg s c).lastGoodPrice = p.price ∧
        ∃ before staged between q, calls = before ++ staged :: between ∧
          Recorded cfg s₀ before staged between q s.pending ∧ q.source = p.source ∧
          q.roundId < p.roundId ∧ staged.now + cfg.largeChangeConfirmationDelay ≤ c.now ∧
          Nat.dist p.price q.price * BPS ≤ q.price * cfg.confirmationDeviationBps) ∧
    (∀ c p, c.op = .stageLargePriceChange →
      readStockPrice cfg c.now c.reading = .ok (.valid p) → s.pending.price ≠ 0 →
      s.pending.oracle = some p.source →
      Nat.dist p.price s.pending.price * BPS ≤ s.pending.price * cfg.confirmationDeviationBps →
      step cfg s c = s) ∧
    (∀ c e, exec cfg c s = .error e → step cfg s c = s) ∧
    (∀ c, s.usingLastGoodPrice = false → (step cfg s c).usingLastGoodPrice = true →
      sequencerIsHealthy cfg c.now c.reading = .ok true ∧
      c.reading.oraclePaused = .returns false ∧
      readOracle cfg .primary c.now c.reading = .ok .invalid ∧
      readOracle cfg .secondary c.now c.reading = .ok .invalid ∧
      (step cfg s c).lastGoodPrice = s.lastGoodPrice) ∧
    (s.usingLastGoodPrice = true → ∀ later now reading,
      fetchPrice cfg now reading (runAll cfg later s) = .ok ((s.lastGoodPrice, false), s)) := by
  refine ⟨fun c moves => ?_, fun c p => step_stage_close, fun c e => step_of_error,
    fun c => invalid_of_shutDown, fun frozen later now reading => ?_⟩
  · obtain ⟨fetches, live, p, read, served, confirms⟩ := confirms_of_moves moves
    refine ⟨fetches, p, read, served, ?_⟩
    have staged : Staged cfg s₀ calls s.pending := by
      rw [← run] at live confirms ⊢
      exact staged_runAll (pending_deploy deployed) live confirms.staged
    obtain ⟨before, stage, between, q, split, recorded⟩ := staged
    obtain ⟨-, source, round, delay, close⟩ := confirms
    rw [recorded.candidate_eq] at source round delay close
    exact ⟨before, stage, between, q, split, recorded, Option.some.inj source, round, delay, close⟩
  · rw [runAll_frozen frozen]
    exact fetchPrice_frozen frozen

/-! ### A move of a half -/

def sampleDecimals : ℕ := 8

def sampleConfig : Config where
  stalenessThreshold := 3600
  hasSequencerFeed := true
  sequencerGracePeriod := 60
  maxDeviationBps := 1000
  largeChangeConfirmationDelay := 300
  confirmationDeviationBps := 100
  oracleDecimals := sampleDecimals
  secondaryOracleDecimals := sampleDecimals
  stalenessThreshold_pos := by decide
  grace_pos := by decide
  maxDeviation_pos := by decide
  maxDeviation_le := by decide
  delay_pos := by decide
  confirmation_pos := by decide
  confirmation_le := by decide
  oracleDecimals_le := by decide
  secondaryOracleDecimals_le := by decide

/-- Both sources at the same round and price, at the time `now`. -/
def sampleReading (now round price : ℕ) : Reading :=
  let answer := Answer.returns ⟨round, price * 10 ^ 8, now, now, round⟩
  ⟨.returns ⟨1, 0, 1, 1, 1⟩, .returns false, answer, answer, true⟩

/-- The move is staged twice, and asked for too early. -/
def sampleCalls : List Call :=
  [⟨1000, .stageLargePriceChange, sampleReading 1000 2 300⟩,
    ⟨1100, .fetchPrice, sampleReading 1100 3 301⟩,
    ⟨1200, .stageLargePriceChange, sampleReading 1200 4 302⟩]

def sampleFeed : Feed := ⟨200 * 10 ^ 18, ⟨300 * 10 ^ 18, 1000, 2, some .primary⟩, false⟩

theorem sample_large_moves :
    runAll sampleConfig sampleCalls ⟨200 * 10 ^ 18, ⟨0, 0, 0, none⟩, false⟩ = sampleFeed ∧
    (step sampleConfig sampleFeed ⟨1300, .fetchPrice, sampleReading 1300 5 301⟩).lastGoodPrice =
      301 * 10 ^ 18 ∧
    ∃ before staged between, sampleCalls = before ++ staged :: between ∧
      staged.op = .stageLargePriceChange ∧ staged.now + 300 ≤ 1300 := by
  have run : runAll sampleConfig sampleCalls ⟨200 * 10 ^ 18, ⟨0, 0, 0, none⟩, false⟩ = sampleFeed := by
    decide +kernel
  obtain ⟨-, p, -, -, before, staged, between, q, split, recorded, -, -, delay, -⟩ :=
    (large_moves sampleConfig 500 (sampleReading 500 1 200) _ rfl sampleCalls _ run).1
      ⟨1300, .fetchPrice, sampleReading 1300 5 301⟩ (by decide +kernel)
  exact ⟨run, by decide +kernel, before, staged, between, split, recorded.op, delay⟩

end Turret.StockTokenPriceFeed
