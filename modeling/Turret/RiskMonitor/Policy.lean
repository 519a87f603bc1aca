import Turret.Oracles.Circuit
import Turret.RiskMonitor.Calendar

/-! `evaluateMarket` and `makeProof` of the risk monitor: a market is healthy
when a session is open, the quote is fresh and the primary feed agrees with it,
and what is signed of that is a short message for the guard. Times of the data
source are in milliseconds; numbers that are not integers do not come this far. -/

namespace Turret.RiskMonitor

open Execution Calendar

inductive Code
  | observationClockInvalid
  | closed (reason : Closed)
  | sessionChanged
  | sessionFeedMismatch
  | quoteOutsideSession
  | primaryInvalid
  | invalidHeartbeat
  | primaryStale
  | multiplierInvalid
  | corporateActionPending
  | priceDisagreement
  | extendedPriceDisagreement
  | quoteInvalid
  | invalidQuotePolicy
  | quoteMissing
  | quoteStale
  | quoteSpread
  | tradeQuoteDisagreement
  | encoding
  deriving DecidableEq

/-- A result that is not ok. -/
structure Fault where
  code : Code
  unsafePrice : Bool
  deriving DecidableEq

def fault (code : Code) : Fault := ⟨code, false⟩

def unsafeFault (code : Code) : Fault := ⟨code, true⟩

/-! ### The snapshot -/

def digits (cs : List Char) : ℤ := cs.foldl (fun n c => 10 * n + (c.toNat - 48 : ℕ)) 0

/-- `price18` of the text of a value: up to 8 decimals, in units of `10 ^ -18`. -/
def price18 (text : List Char) : Except Fault ℤ := do
  let whole := text.takeWhile Char.isDigit
  let fraction ← match text.dropWhile Char.isDigit with
    | [] => pure []
    | '.' :: fraction => do
      revertIf (fraction = [] ∨ 8 < fraction.length ∨ ¬fraction.all Char.isDigit) (fault .quoteInvalid)
      pure fraction
    | _ => .error (fault .quoteInvalid)
  revertIf (whole = []) (fault .quoteInvalid)
  let price := digits whole * 10 ^ 18 + digits fraction * 10 ^ (18 - fraction.length)
  revertIf (price ≤ 0 ∨ 10 ^ 30 < price) (fault .quoteInvalid)
  pure price

structure Trade where
  p : List Char
  /-- `Date.parse`; `none` where it is not a date. -/
  t : Option ℤ

structure Quote where
  bp : List Char
  ap : List Char
  t : Option ℤ

structure Snapshot where
  latestTrade : Option Trade
  latestQuote : Option Quote

inductive PriceBasis
  | mid
  | trade
  | freshest
  deriving DecidableEq

structure AdmissionLimits where
  maxAgeSeconds : ℤ
  maxSpreadBps : ℤ
  priceBasis : PriceBasis
  maxQuoteAgeSeconds : ℤ
  maxDeviationBps : ℤ

/-- The default limits of `validateSnapshot`. -/
def regularLimits : AdmissionLimits := ⟨60, 100, .mid, 60, 0⟩

structure ValidatedQuote where
  price : ℤ
  sourceTime : ℤ
  quoteTime : Option ℤ
  tradeTime : Option ℤ
  quoteValidUntil : Option ℤ
  bid : ℤ
  ask : ℤ

def validateSnapshot (snapshot : Option Snapshot) (now : ℤ) (limits : AdmissionLimits) :
    Except Fault ValidatedQuote := do
  let basis := limits.priceBasis
  revertIf (limits.maxAgeSeconds < 15 ∨ 60 < limits.maxAgeSeconds ∨ limits.maxSpreadBps < 1 ∨
    100 < limits.maxSpreadBps ∨ limits.maxQuoteAgeSeconds < 15 ∨
    (if basis = .mid then limits.maxAgeSeconds else 180) < limits.maxQuoteAgeSeconds)
    (fault .invalidQuotePolicy)
  let latestTrade ← orRevert (snapshot.bind Snapshot.latestTrade) (fault .quoteMissing)
  let latestQuote ← orRevert (snapshot.bind Snapshot.latestQuote) (fault .quoteMissing)
  let trade ← price18 latestTrade.p
  let bid ← price18 latestQuote.bp
  let ask ← price18 latestQuote.ap
  let tradeAt ← orRevert latestTrade.t (fault .quoteInvalid)
  let quoteAt ← orRevert latestQuote.t (fault .quoteInvalid)
  let tradePrice : Bool := decide (basis = .trade ∨ basis = .freshest ∧ quoteAt ≤ tradeAt)
  let swapped : Bool := decide (basis = .freshest) && !tradePrice
  let tradeAgeLimit := if swapped then limits.maxQuoteAgeSeconds else limits.maxAgeSeconds
  let quoteAgeLimit := if swapped then limits.maxAgeSeconds else limits.maxQuoteAgeSeconds
  revertIf ((now + 2) * 1000 < tradeAt ∨ (now + 2) * 1000 < quoteAt ∨
    tradeAgeLimit * 1000 ≤ now * 1000 - tradeAt ∨ quoteAgeLimit * 1000 ≤ now * 1000 - quoteAt)
    (fault .quoteStale)
  revertIf (ask < bid ∨ bid * limits.maxSpreadBps < (ask - bid) * 10000) (fault .quoteSpread)
  let mid := (bid + ask) / 2
  revertIf (min trade mid * 100 < |trade - mid| * 10000) (fault .tradeQuoteDisagreement)
  if basis = .mid then
    pure ⟨mid, min tradeAt quoteAt / 1000, none, none, none, bid, ask⟩
  else
    pure ⟨if tradePrice then trade else mid, (if tradePrice then tradeAt else quoteAt) / 1000,
      some (quoteAt / 1000), some (tradeAt / 1000),
      some (min quoteAt tradeAt / 1000 + limits.maxQuoteAgeSeconds), bid, ask⟩

/-! ### The market -/

inductive SourceFeed
  | iex
  | sip
  | boats
  deriving DecidableEq

/-- The round of the primary feed, its answer already normalised to 18 decimals. -/
structure Primary where
  round : ℕ
  answer : ℤ
  timestamp : ℕ
  answered : ℕ

/-- What the caller makes of a round of a feed. -/
def normalized (decimals : ℕ) (raw : Circuit.Round) : Primary :=
  ⟨raw.round, raw.answer * 10 ^ (18 - decimals), raw.updated, raw.answered⟩

structure Market where
  snapshot : Option Snapshot
  primary : Primary
  multiplier : ℕ
  effectiveAt : ℕ
  tokenPaused : Bool
  maxPriceAgeSeconds : ℤ
  sessionPolicy : SessionPolicy
  sourceFeed : SourceFeed
  admissionLimits : Option AdmissionLimits

/-- A result that is ok; the monitor sets `admissionValidUntil` after it has verified a sale. -/
structure Healthy (H : Type) where
  roundId : ℕ
  roundHash : H
  session : Session
  sourceTime : ℤ
  quoteMaxAgeSeconds : Option ℤ
  quoteValidUntil : Option ℤ
  sessionKey : ℤ × SessionKind × SourceFeed
  admissionValidUntil : Option ℤ

def MAX_SAFE_INTEGER : ℤ := 2 ^ 53 - 1

/-- The feeds of a kind of session. -/
def allowed : SessionKind → List SourceFeed
  | .overnight => [.boats]
  | .regular => [.iex, .sip]
  | _ => [.sip]

/-- The fields of a round as the encoder takes them. -/
def encodable (x : Primary) : Prop := x.round < 2 ^ 80 ∧ x.answer < 2 ^ 256 ∧ x.timestamp < 2 ^ 256

instance (x : Primary) : Decidable (encodable x) := inferInstanceAs (Decidable (_ ∧ _))

variable {H : Type}

def evaluateMarket (roundHash : ℕ → ℕ → ℕ → H) (m : Market) (now wallSeconds : ℤ) :
    Except Fault (Healthy H) := do
  revertIf (MAX_SAFE_INTEGER < |now| ∨ MAX_SAFE_INTEGER < |wallSeconds| ∨ wallSeconds + 2 < now ∨
    15 < wallSeconds - now) (fault .observationClockInvalid)
  let session ← (sessionAt now m.sessionPolicy).mapError (fault ∘ .closed)
  let completed ← (sessionAt wallSeconds m.sessionPolicy).mapError fun _ => fault .sessionChanged
  revertIf (completed.kind ≠ session.kind ∨ completed.tradeDate ≠ session.tradeDate)
    (fault .sessionChanged)
  revertIf (m.sourceFeed ∉ allowed session.kind) (fault .sessionFeedMismatch)
  let quote ← validateSnapshot m.snapshot wallSeconds (m.admissionLimits.getD regularLimits)
  revertIf (m.sessionPolicy = .equities24x5 ∧ (quote.sourceTime < session.sessionOpen ∨
    quote.quoteTime.getD quote.sourceTime < session.sessionOpen ∨
    quote.tradeTime.getD quote.sourceTime < session.sessionOpen)) (fault .quoteOutsideSession)
  let x := m.primary
  revertIf (m.tokenPaused = true ∨ x.round = 0 ∨ x.answer ≤ 0 ∨ x.answered < x.round)
    (unsafeFault .primaryInvalid)
  revertIf (m.maxPriceAgeSeconds < 60 ∨ 86400 < m.maxPriceAgeSeconds) (fault .invalidHeartbeat)
  revertIf (x.timestamp = 0 ∨ now < x.timestamp ∨
    m.maxPriceAgeSeconds ≤ wallSeconds - x.timestamp) (fault .primaryStale)
  revertIf (m.multiplier = 0 ∨ 10 ^ 30 < m.multiplier) (unsafeFault .multiplierInvalid)
  revertIf (m.effectiveAt ≤ wallSeconds ∧
    (x.timestamp < m.effectiveAt ∨ quote.sourceTime < m.effectiveAt))
    (unsafeFault .corporateActionPending)
  let independent := quote.price * m.multiplier / 10 ^ 18
  let low := min x.answer independent
  let diff := |x.answer - independent|
  revertIf (low ≤ 0 ∨ low * 200 < diff * 10000) (unsafeFault .priceDisagreement)
  revertIf (∃ limits ∈ m.admissionLimits, low * limits.maxDeviationBps < diff * 10000)
    (fault .extendedPriceDisagreement)
  revertIf (¬encodable x) (fault .encoding)
  pure
    { roundId := x.round
      roundHash := roundHash x.round x.answer.toNat x.timestamp
      session
      sourceTime := quote.sourceTime
      quoteMaxAgeSeconds := m.admissionLimits.map AdmissionLimits.maxAgeSeconds
      quoteValidUntil := m.admissionLimits.bind fun _ => quote.quoteValidUntil
      sessionKey := (session.tradeDate, session.kind, m.sourceFeed)
      admissionValidUntil := none }

/-! ### The proof -/

inductive ProofError
  | recoveryPending
  | quoteTooOldForApproval
  | encoding
  deriving DecidableEq

/-- `Math.min` with a number that may be missing. -/
def capped (n : ℤ) : Option ℤ → ℤ
  | some cap => min n cap
  | none => n

/-- An unsigned field of the message. -/
def unsigned (bits : ℕ) (n : ℤ) : Except ProofError ℕ :=
  if 0 ≤ n ∧ n < 2 ^ bits then .ok n.toNat else .error .encoding

/-- Until when a certificate made now may hold. -/
def expiry (result : Healthy H) (now : ℤ) : ℤ :=
  capped (capped (min (min (now + 45) (result.sourceTime + result.quoteMaxAgeSeconds.getD 60))
    result.session.sessionClose) result.admissionValidUntil) result.quoteValidUntil

/-- The window that is signed begins with the session, or two minutes ago where the session is
longer than the guard allows. -/
def windowOpen (session : Session) (now : ℤ) : ℤ :=
  if 23400 < session.sessionClose - session.sessionOpen then max session.sessionOpen (now - 120)
  else session.sessionOpen

/-- The message that `makeProof` signs. -/
def makeProof (result : Except Fault (Healthy H)) (epoch recoveryAt : ℕ) (now : ℤ) :
    Except ProofError (Circuit.Health H) := do
  let result ← result.mapError fun _ => .recoveryPending
  revertIf (now < recoveryAt) .recoveryPending
  let until_ := expiry result now
  revertIf (until_ - now < 15) .quoteTooOldForApproval
  let sessionOpen := windowOpen result.session now
  let sessionClose := min result.session.sessionClose (sessionOpen + 23400)
  let roundId ← unsigned 80 result.roundId
  let observedAt ← unsigned 64 now
  let validUntil ← unsigned 64 until_
  let sessionOpen ← unsigned 64 sessionOpen
  let sessionClose ← unsigned 64 sessionClose
  let epoch ← unsigned 64 epoch
  pure ⟨roundId, observedAt, validUntil, sessionOpen, sessionClose, result.roundHash, epoch⟩

end Turret.RiskMonitor
