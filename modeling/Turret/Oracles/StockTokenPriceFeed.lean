import Turret.Library.Execution
import Turret.Library.Rounding

/-! `StockTokenPriceFeed`: a price of two sources, where a large move is served
only after it has been staged and a later round confirms it. What the token, the
sources and the sequencer feed answer is free at every call. -/

namespace Turret.StockTokenPriceFeed

open Execution Rounding

def BPS : ℕ := 10000

inductive Error
  | invalidInitialPrice
  | insufficientGasForExternalCall
  | oracleTemporarilyUnavailable
  | largePriceChangeUnconfirmed
  | priceChangeDoesNotRequireConfirmation
  | invalidPriceForConfirmation
  | branchAlreadyShutDown
  | external
  | panic
  deriving DecidableEq

/-- The immutables, with what the constructor checks of them. -/
structure Config where
  stalenessThreshold : ℕ
  hasSequencerFeed : Bool
  sequencerGracePeriod : ℕ
  maxDeviationBps : ℕ
  largeChangeConfirmationDelay : ℕ
  confirmationDeviationBps : ℕ
  oracleDecimals : ℕ
  secondaryOracleDecimals : ℕ
  stalenessThreshold_pos : 0 < stalenessThreshold
  grace_pos : hasSequencerFeed = true → 0 < sequencerGracePeriod
  maxDeviation_pos : 0 < maxDeviationBps
  maxDeviation_le : maxDeviationBps ≤ BPS
  delay_pos : 0 < largeChangeConfirmationDelay
  confirmation_pos : 0 < confirmationDeviationBps
  confirmation_le : confirmationDeviationBps ≤ maxDeviationBps
  oracleDecimals_le : oracleDecimals ≤ 18
  secondaryOracleDecimals_le : secondaryOracleDecimals ≤ 18

/-! ### What is read -/

/-- What becomes of a call under `try`. -/
inductive Answer (α : Type)
  | returns (a : α)
  /-- The callee reverts, and the caller goes on. -/
  | fails
  /-- The callee reverts, and too little gas is left to go on. -/
  | outOfGas
  /-- What the callee returns does not decode, which is not caught. -/
  | malformed

structure Round where
  roundId : ℕ
  answer : ℤ
  startedAt : ℕ
  updatedAt : ℕ
  answeredInRound : ℕ

/-- What is answered in one call of the feed. -/
structure Reading where
  sequencer : Answer Round
  oraclePaused : Answer Bool
  primary : Answer Round
  secondary : Answer Round
  /-- `borrowerOperations.shutdownFromOracleFailure()` returns. -/
  shutdown : Bool

/-- `none` where the failure has been caught. -/
def Answer.attempt {α : Type} : Answer α → Except Error (Option α)
  | .returns a => pure (some a)
  | .fails => pure none
  | .outOfGas => .error .insufficientGasForExternalCall
  | .malformed => .error .external

inductive Source
  | primary
  | secondary
  deriving DecidableEq

/-- A status, with what a valid one comes with. -/
inductive Status (α : Type)
  | valid (a : α)
  | temporaryUnavailable
  | invalid
  deriving DecidableEq

structure Price where
  price : ℕ
  roundId : ℕ
  source : Source
  deriving DecidableEq

variable (cfg : Config)

def readRound (source : Source) (decimals now : ℕ) (round : Round) : Status Price :=
  if round.answer ≤ 0 ∨ round.updatedAt = 0 ∨ now < round.updatedAt ∨
      round.answeredInRound < round.roundId then
    .invalid
  else if cfg.stalenessThreshold ≤ now - round.updatedAt then
    .temporaryUnavailable
  else if (2 ^ 256 - 1) / 10 ^ (18 - decimals) < round.answer.toNat then
    .invalid
  else
    .valid ⟨round.answer.toNat * 10 ^ (18 - decimals), round.roundId, source⟩

/-- `_readStockPrice(oracle, decimals)`. -/
def readOracle (source : Source) (now : ℕ) (x : Reading) : Except Error (Status Price) := do
  let round ← (match source with
    | .primary => x.primary
    | .secondary => x.secondary).attempt
  let decimals := match source with
    | .primary => cfg.oracleDecimals
    | .secondary => cfg.secondaryOracleDecimals
  pure (round.elim .temporaryUnavailable (readRound cfg source decimals now))

/-- Neither source is valid. -/
def unreadable : Status Price → Status Price → Status Price
  | .invalid, .invalid => .invalid
  | _, _ => .temporaryUnavailable

/-- `_readStockPrice()`. -/
def readStockPrice (now : ℕ) (x : Reading) : Except Error (Status Price) := do
  match ← readOracle cfg .primary now x with
  | .valid price => pure (.valid price)
  | first =>
    match ← readOracle cfg .secondary now x with
    | .valid price => pure (.valid price)
    | second => pure (unreadable first second)

def sequencerIsHealthy (now : ℕ) (x : Reading) : Except Error Bool :=
  if cfg.hasSequencerFeed then do
    match ← x.sequencer.attempt with
    | some round =>
      pure (round.answer = 0 ∧ round.startedAt ≠ 0 ∧ round.startedAt ≤ now ∧
        cfg.sequencerGracePeriod < now - round.startedAt)
    | none => pure false
  else
    pure true

/-- `_requireSourcesAvailable`, which `fetchPrice` writes out. -/
def requireSourcesAvailable (now : ℕ) (x : Reading) : Except Error Unit := do
  let healthy ← sequencerIsHealthy cfg now x
  revertIf (healthy = false) .oracleTemporarilyUnavailable
  let paused ← x.oraclePaused.attempt
  revertIf (paused ≠ some false) .oracleTemporarilyUnavailable

/-! ### The feed -/

/-- The candidate for a large move; all zero where it is deleted. -/
structure Pending where
  price : ℕ
  since : ℕ
  roundId : ℕ
  oracle : Option Source
  deriving DecidableEq

structure Feed where
  lastGoodPrice : ℕ
  pending : Pending
  usingLastGoodPrice : Bool
  deriving DecidableEq

def deviationTooLargeFrom (price referencePrice deviationBps : ℕ) : Bool :=
  let difference :=
    if referencePrice < price then price - referencePrice else referencePrice - price
  mulDiv referencePrice deviationBps BPS < difference

def deviationTooLarge (price : ℕ) (s : Feed) : Bool :=
  deviationTooLargeFrom price s.lastGoodPrice cfg.maxDeviationBps

def largeChangeIsConfirmed (p : Price) (now : ℕ) (s : Feed) : Except Error Bool :=
  if s.pending.price ≠ 0 ∧ some p.source = s.pending.oracle ∧ s.pending.roundId < p.roundId then do
    revertIf (2 ^ 256 ≤ s.pending.since + cfg.largeChangeConfirmationDelay) .panic
    pure (s.pending.since + cfg.largeChangeConfirmationDelay ≤ now ∧
      deviationTooLargeFrom p.price s.pending.price cfg.confirmationDeviationBps = false)
  else
    pure false

def clearPendingPrice (p : Pending) : Pending :=
  if p.price = 0 then p else ⟨0, 0, 0, none⟩

def deploy (now : ℕ) (x : Reading) : Except Error Feed := do
  let paused ← x.oraclePaused.attempt
  let first ← readOracle cfg .primary now x
  let second ← readOracle cfg .secondary now x
  match paused, first, second with
  | some false, .valid initial, .valid _ => pure ⟨initial.price, ⟨0, 0, 0, none⟩, false⟩
  | _, _, _ => .error .invalidInitialPrice

/-- Nothing after the call of the branch reverts: it has been shut down where this returns. -/
def shutdown (x : Reading) (s : Feed) : Except Error ((ℕ × Bool) × Feed) := do
  revertIf (x.shutdown = false) .external
  pure ((s.lastGoodPrice, true), { s with usingLastGoodPrice := true })

def checkChange (p : Price) (now : ℕ) (s : Feed) : Except Error Unit :=
  if deviationTooLarge cfg p.price s then do
    let confirmed ← largeChangeIsConfirmed cfg p now s
    revertIf (confirmed = false) .largePriceChangeUnconfirmed
  else
    pure ()

/-- The end of `fetchPrice`, at a valid price. -/
def acceptPrice (p : Price) (now : ℕ) (s : Feed) : Except Error ((ℕ × Bool) × Feed) := do
  checkChange cfg p now s
  pure ((p.price, false), { s with pending := clearPendingPrice s.pending, lastGoodPrice := p.price })

def fetchPrice (now : ℕ) (x : Reading) (s : Feed) : Except Error ((ℕ × Bool) × Feed) :=
  if s.usingLastGoodPrice then
    pure ((s.lastGoodPrice, false), s)
  else do
    requireSourcesAvailable cfg now x
    match ← readStockPrice cfg now x with
    | .temporaryUnavailable => .error .oracleTemporarilyUnavailable
    | .invalid => shutdown x s
    | .valid p => acceptPrice cfg p now s

def fetchRedemptionPrice (now : ℕ) (x : Reading) (s : Feed) : Except Error ((ℕ × Bool) × Feed) :=
  fetchPrice cfg now x s

/-- The end of `stageLargePriceChange`, at a valid price. -/
def stagePrice (p : Price) (now : ℕ) (s : Feed) : Except Error ((ℕ × ℕ) × Feed) := do
  revertIf (deviationTooLarge cfg p.price s = false) .priceChangeDoesNotRequireConfirmation
  pure ((p.price, p.roundId),
    if s.pending.price = 0 ∨ some p.source ≠ s.pending.oracle ∨
        deviationTooLargeFrom p.price s.pending.price cfg.confirmationDeviationBps = true then
      { s with pending := ⟨p.price, now, p.roundId, some p.source⟩ }
    else s)

def stageLargePriceChange (now : ℕ) (x : Reading) (s : Feed) : Except Error ((ℕ × ℕ) × Feed) := do
  revertIf (s.usingLastGoodPrice = true) .branchAlreadyShutDown
  requireSourcesAvailable cfg now x
  match ← readStockPrice cfg now x with
  | .temporaryUnavailable => .error .oracleTemporarilyUnavailable
  | .invalid => .error .invalidPriceForConfirmation
  | .valid p => stagePrice cfg p now s

/-! ### Runs -/

inductive Op
  | fetchPrice
  | fetchRedemptionPrice
  | stageLargePriceChange
  deriving DecidableEq

/-- A call, at the time of its block. -/
structure Call where
  now : ℕ
  op : Op
  reading : Reading

def exec (c : Call) (s : Feed) : Except Error Feed :=
  match c.op with
  | .fetchPrice => do
    let (_, s') ← fetchPrice cfg c.now c.reading s
    pure s'
  | .fetchRedemptionPrice => do
    let (_, s') ← fetchRedemptionPrice cfg c.now c.reading s
    pure s'
  | .stageLargePriceChange => do
    let (_, s') ← stageLargePriceChange cfg c.now c.reading s
    pure s'

/-- A call that reverts leaves nothing behind. -/
def step (s : Feed) (c : Call) : Feed :=
  match exec cfg c s with
  | .ok s' => s'
  | .error _ => s

/-- The calls, one after the other. -/
def runAll (calls : List Call) (s : Feed) : Feed := calls.foldl (step cfg) s

end Turret.StockTokenPriceFeed
