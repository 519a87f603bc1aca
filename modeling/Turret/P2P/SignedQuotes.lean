import Turret.P2P.StandingOffers

/-! `quotes.mjs`: the signed quotes of a facility as they are read, assessed against
one observation of it, and counted together. Big integers that are not negative
are naturals. Addresses and hashes are compared without their case, so they are
the numbers they spell; the readers of `viem` and its typed-data hash are a
parameter. A quote that was read and is written back in decimals reads the same,
so a parsed envelope is not parsed again. -/

namespace Turret.SignedQuotes

open Execution Uint256 LenderFacility StandingOffers

def MAX_TIME : ℕ := 8640000000000
def FRESH_MS : ℕ := 30000
def MAX_SAFE_INTEGER : ℕ := 2 ^ 53 - 1

structure Viem where
  /-- The address that a text spells, where `isAddress` accepts it. -/
  address : String → Option Address
  bytes : String → Option Signature
  hashTypedData : ℕ → Address → Quote → ℕ

inductive QuoteError
  | canonicalAmount
  | invalidBorrower
  | invalidTerms
  | invalidEnvelope
  | ownFacility
  | invalidDraw
  deriving DecidableEq

/-! ### Reading -/

/-- A canonical decimal of one word. -/
def uint (value : String) : Except QuoteError {n : ℕ // n < MODULUS} :=
  if h : (isNatural value.toList = true ∧ value.toList.length ≤ 78) ∧
      digitsValue value.toList < MODULUS then
    .ok ⟨digitsValue value.toList, h.2⟩
  else .error .canonicalAmount

structure RawQuote where
  epoch : String
  nonce : String
  borrower : String
  capacity : String
  minDraw : String
  collateralForCapacity : String
  interestForCapacity : String
  duration : String
  validAfter : String
  expiresAt : String

structure RawEnvelope where
  schemaVersion : ℕ
  chainId : ℕ
  facility : String
  quote : RawQuote
  signature : String

/-- The terms that no quote may have. -/
def InvalidTerms (q : Quote) : Prop :=
  q.epoch = 0 ∨ q.capacity = 0 ∨ q.minDraw = 0 ∨ q.capacity < q.minDraw ∨
    q.collateralForCapacity = 0 ∨ MODULUS ≤ q.capacity + q.interestForCapacity ∨ q.duration = 0 ∨
    q.duration % 86400 ≠ 0 ∨ q.expiresAt ≤ q.validAfter ∨
    MAX_TIME < q.expiresAt + q.duration + 86400

instance (q : Quote) : Decidable (InvalidTerms q) := by
  unfold InvalidTerms
  infer_instance

def quoteValues (v : Viem) (quote : RawQuote) : Except QuoteError Quote := do
  let borrower ← orRevert (v.address quote.borrower) .invalidBorrower
  let epoch ← uint quote.epoch
  let nonce ← uint quote.nonce
  let capacity ← uint quote.capacity
  let minDraw ← uint quote.minDraw
  let collateral ← uint quote.collateralForCapacity
  let interest ← uint quote.interestForCapacity
  let duration ← uint quote.duration
  let validAfter ← uint quote.validAfter
  let expiresAt ← uint quote.expiresAt
  let q : Quote :=
    { epoch, nonce, borrower, capacity, minDraw
      collateralForCapacity := collateral
      interestForCapacity := interest
      duration, validAfter, expiresAt
      capacity_lt := capacity.2, collateral_lt := collateral.2, interest_lt := interest.2 }
  revertIf (InvalidTerms q) .invalidTerms
  pure q

structure Envelope where
  chainId : ℕ
  facility : Address
  quote : Quote
  signature : Signature

def parseSignedQuote (v : Viem) (value : RawEnvelope) : Except QuoteError Envelope := do
  revertIf (value.schemaVersion ≠ 1 ∨ MAX_SAFE_INTEGER < value.chainId ∨ value.chainId = 0)
    .invalidEnvelope
  let facility ← orRevert (v.address value.facility) .invalidEnvelope
  let signature ← orRevert (v.bytes value.signature) .invalidEnvelope
  revertIf (facility = 0 ∨ 4096 < signature.length) .invalidEnvelope
  let quote ← quoteValues v value.quote
  revertIf (quote.borrower = facility) .ownFacility
  pure { chainId := value.chainId, facility, quote, signature }

def quoteDigest (v : Viem) (e : Envelope) : ℕ := v.hashTypedData e.chainId e.facility e.quote

def ceilDiv (a b : ℕ) : ℕ := (a + b - 1) / b

structure DrawAmounts where
  principal : ℕ
  collateral : ℕ
  interest : ℕ
  repayment : ℕ
  fee : ℕ
  lenderRepayment : ℕ
  deriving DecidableEq

def drawAmounts (q : Quote) (principal feeBps : ℕ) : Except QuoteError DrawAmounts := do
  revertIf (principal = 0 ∨ q.capacity < principal ∨ 10000 < feeBps) .invalidDraw
  let collateral := ceilDiv (principal * q.collateralForCapacity) q.capacity
  let interest := ceilDiv (principal * q.interestForCapacity) q.capacity
  let fee := interest * feeBps / 10000
  pure ⟨principal, collateral, interest, principal + interest, fee, principal + interest - fee⟩

/-! ### Observations -/

structure Block where
  number : ℕ
  hash : ℕ
  timestamp : ℕ
  deriving DecidableEq

structure Observation where
  healthy : Bool
  facility : Address
  chainId : ℕ
  lender : Address
  paused : Bool
  epoch : ℕ
  idleCash : ℕ
  cashBalance : ℕ
  activePrincipal : ℕ
  unresolvedDefaultPrincipal : ℕ
  feeBps : ℕ
  limits : Limits
  block : Block
  signatureValid : Bool
  use : QuoteUse
  /-- In milliseconds, as `now` is. -/
  checkedAt : ℕ

/-- The integers of an observation. -/
def Observation.amounts (s : Observation) : List ℕ :=
  [s.epoch, s.idleCash, s.cashBalance, s.activePrincipal, s.unresolvedDefaultPrincipal, s.feeBps,
    s.limits.maxExposure, s.limits.minDraw, s.limits.maxDraw, s.limits.minDuration,
    s.limits.maxDuration, s.limits.maxQuoteLifetime, s.limits.minCollateralPerPrincipalWad,
    s.limits.minInterestBps, s.use.filled, s.block.number, s.block.timestamp]

def Fresh (s : Observation) (now : ℕ) : Prop :=
  now ≤ MAX_SAFE_INTEGER ∧ s.checkedAt ≤ now ∧ now - s.checkedAt < FRESH_MS ∧
    now < s.block.timestamp * 1000 + FRESH_MS ∧ s.block.timestamp * 1000 < now + FRESH_MS

def ValidLimits (p : Limits) : Prop :=
  0 < p.minDraw ∧ p.minDraw ≤ p.maxDraw ∧ p.maxDraw ≤ p.maxExposure ∧ 0 < p.minDuration ∧
    p.minDuration % 86400 = 0 ∧ p.minDuration ≤ p.maxDuration ∧ p.maxDuration % 86400 = 0 ∧
    p.maxDuration ≤ MAX_TIME - 86400 ∧ 0 < p.maxQuoteLifetime ∧
    0 < p.minCollateralPerPrincipalWad ∧ p.minInterestBps ≤ 10000

/-- `validObservation`. -/
def ValidObservation (s : Observation) (now : ℕ) : Prop :=
  s.healthy = true ∧ s.lender ≠ 0 ∧ s.facility ≠ 0 ∧ 0 < s.chainId ∧
    s.chainId ≤ MAX_SAFE_INTEGER ∧ (∀ value ∈ s.amounts, value < MODULUS) ∧ Fresh s now ∧
    s.feeBps ≤ 10000 ∧ s.epoch ≠ 0 ∧ ValidLimits s.limits

instance (s : Observation) (now : ℕ) : Decidable (ValidObservation s now) := by
  unfold ValidObservation Fresh ValidLimits
  infer_instance

/-! ### Assessment -/

inductive Status
  | unavailable
  | invalid
  | revoked
  | expired
  | scheduled
  | paused
  | filled
  | unfunded
  | available
  deriving DecidableEq

structure Availability where
  status : Status
  reason : Option String
  capacity : ℕ
  maxDraw : ℕ
  minDraw : ℕ
  borrowerEligible : Bool

def stop (status : Status) (reason : String) : Availability := ⟨status, some reason, 0, 0, 0, false⟩

namespace Observation

def exposure (s : Observation) : ℕ := s.activePrincipal + s.unresolvedDefaultPrincipal

def room (s : Observation) : ℕ :=
  if s.limits.maxExposure ≤ s.exposure then 0 else s.limits.maxExposure - s.exposure

/-- What a quote can still give here. -/
def capacity (s : Observation) (q : Quote) : ℕ :=
  min (min (q.capacity - s.use.filled) s.idleCash) s.room

end Observation

/-- The policy is checked on the whole quote. -/
def OutsidePolicy (q : Quote) (s : Observation) : Prop :=
  s.limits.maxQuoteLifetime < q.expiresAt - q.validAfter ∨ q.duration < s.limits.minDuration ∨
    s.limits.maxDuration < q.duration ∨
    q.collateralForCapacity * 10 ^ 18 < q.capacity * s.limits.minCollateralPerPrincipalWad ∨
    q.interestForCapacity * 10000 < q.capacity * s.limits.minInterestBps ∨ q.borrower = s.lender

instance (q : Quote) (s : Observation) : Decidable (OutsidePolicy q s) := by
  unfold OutsidePolicy
  infer_instance

/-- Whom a quote admits; an empty text of an account is none. -/
def eligible (v : Viem) (q : Quote) (s : Observation) : Option String → Bool
  | none => decide (q.borrower = 0)
  | some text =>
    match v.address text with
    | none => false
    | some account => decide (account ≠ 0 ∧ account ≠ s.lender ∧ account ≠ s.facility ∧
        (q.borrower = 0 ∨ q.borrower = account))

/-- What is left of a quote that may be drawn. -/
def assessCapacity (v : Viem) (q : Quote) (s : Observation) (account : Option String) :
    Availability :=
  let minimum := max q.minDraw s.limits.minDraw
  let maximum := min (s.capacity q) s.limits.maxDraw
  if maximum < minimum then
    { stop (if q.capacity - s.use.filled < minimum then .filled else .unfunded)
        "There is not enough remaining capacity for the minimum draw." with minDraw := minimum }
  else ⟨.available, none, s.capacity q, maximum, minimum, eligible v q s account⟩

/-- `assessQuote`, of an envelope that was read. -/
def assess (v : Viem) (e : Envelope) (s : Observation) (now : ℕ) (account : Option String) :
    Availability :=
  let q := e.quote
  if ¬ValidObservation s now ∨ s.facility ≠ e.facility ∨ s.chainId ≠ e.chainId then
    stop .unavailable "Fresh facility and signature checks are required."
  else if s.signatureValid = false then stop .revoked "The lender signature is no longer valid."
  else if q.epoch ≠ s.epoch ∨ s.use.cancelled = true ∨
      (0 < s.use.filled ∧ s.use.digest ≠ quoteDigest v e) then
    stop .revoked "This quote was replaced, revoked or cancelled."
  else if OutsidePolicy q s then
    stop .invalid "Quote rates or duration do not meet the current lender policy."
  else if q.expiresAt ≤ now / 1000 ∨ q.expiresAt ≤ s.block.timestamp then
    stop .expired "This quote expired."
  else if now / 1000 < q.validAfter ∨ s.block.timestamp < q.validAfter then
    stop .scheduled "This quote is not active yet."
  else if s.paused = true then stop .paused "The lender paused new loans."
  else if q.capacity < s.use.filled ∨ s.cashBalance < s.idleCash then
    stop .unavailable "Recorded capital or quote fills are not fully backed."
  else assessCapacity v q s account

def assessQuote (v : Viem) (value : RawEnvelope) (s : Observation) (now : ℕ)
    (account : Option String) : Availability :=
  match parseSignedQuote v value with
  | .error _ => stop .invalid "Invalid signed quote."
  | .ok e => assess v e s now account

/-! ### Summary -/

structure Row where
  envelope : RawEnvelope
  observation : Observation

/-- A row whose envelope was read. -/
structure Item where
  envelope : Envelope
  observation : Observation

def readRow (v : Viem) (row : Row) : Except QuoteError Item := do
  let envelope ← parseSignedQuote v row.envelope
  pure ⟨envelope, row.observation⟩

abbrev Key := ℕ × Address

def Item.key (item : Item) : Key := (item.envelope.chainId, item.envelope.facility)

/-- `groups.get(key).push(row)`; the groups stand in the order in which their keys came. -/
def addItem (groups : List (Key × List Item)) (item : Item) : List (Key × List Item) :=
  if groups.any (fun g => g.1 == item.key) then
    groups.map fun g => if g.1 = item.key then (g.1, g.2 ++ [item]) else g
  else groups ++ [(item.key, [item])]

/-- `stateKey`: the observation, without what is of one quote. -/
def SameState (s t : Observation) : Prop :=
  s.block = t.block ∧ s.epoch = t.epoch ∧ s.idleCash = t.idleCash ∧
    s.cashBalance = t.cashBalance ∧ s.activePrincipal = t.activePrincipal ∧
    s.unresolvedDefaultPrincipal = t.unresolvedDefaultPrincipal ∧
    s.limits.maxExposure = t.limits.maxExposure ∧ s.limits.minDraw = t.limits.minDraw ∧
    s.limits.maxDraw = t.limits.maxDraw ∧ s.limits.minDuration = t.limits.minDuration ∧
    s.limits.maxDuration = t.limits.maxDuration ∧
    s.limits.maxQuoteLifetime = t.limits.maxQuoteLifetime ∧
    s.limits.minCollateralPerPrincipalWad = t.limits.minCollateralPerPrincipalWad ∧
    s.limits.minInterestBps = t.limits.minInterestBps ∧ s.paused = t.paused ∧
    s.healthy = t.healthy ∧ s.lender = t.lender ∧ s.facility = t.facility ∧
    s.chainId = t.chainId ∧ s.feeBps = t.feeBps

instance (s t : Observation) : Decidable (SameState s t) := by
  unfold SameState
  infer_instance

structure Assessed where
  id : ℕ
  envelope : Envelope
  availability : Availability

def Assessed.counted (a : Assessed) : Bool :=
  decide (a.availability.status = .available) && a.availability.borrowerEligible

/-- What is kept under the nonce of a quote. -/
structure Seen where
  epoch : ℕ
  nonce : ℕ
  id : ℕ
  use : QuoteUse

def Item.seen (v : Viem) (item : Item) : Seen :=
  ⟨item.envelope.quote.epoch, item.envelope.quote.nonce, quoteDigest v item.envelope,
    item.observation.use⟩

def Seen.conflicts (previous next : Seen) : Bool :=
  decide (previous.id ≠ next.id ∨ previous.use.filled ≠ next.use.filled ∨
    previous.use.cancelled ≠ next.use.cancelled ∨ previous.use.digest ≠ next.use.digest)

/-- Each quote once; `none` where one nonce stands for two. -/
def collect (v : Viem) (now : ℕ) (account : Option String) :
    List Seen → List Item → Option (List Assessed)
  | _, [] => some []
  | nonces, item :: items =>
    match nonces.find? fun k => k.epoch == (item.seen v).epoch && k.nonce == (item.seen v).nonce with
    | some previous =>
      if previous.conflicts (item.seen v) then none else collect v now account nonces items
    | none => do
      let quotes ← collect v now account (item.seen v :: nonces) items
      some (⟨quoteDigest v item.envelope, item.envelope,
        assess v item.envelope item.observation now account⟩ :: quotes)

inductive SummaryStatus
  | unavailable
  | checked
  deriving DecidableEq

structure Summary where
  key : Key
  status : SummaryStatus
  capacity : ℕ
  quotes : List Assessed

/-- Each facility has one cash balance, regardless of how many signed quotes describe it. -/
def groupCapacity (first : Observation) (quotes : List Assessed) : ℕ :=
  let sum := ((quotes.filter Assessed.counted).map fun a => a.availability.capacity).sum
  if 0 < sum then min (min sum first.idleCash) first.room else 0

def summarizeGroup (v : Viem) (now : ℕ) (account : Option String) (key : Key) :
    List Item → Summary
  -- a group is made with its first item
  | [] => ⟨key, .unavailable, 0, []⟩
  | first :: others =>
    if (first :: others).any fun row => !decide (ValidObservation row.observation now) then
      ⟨key, .unavailable, 0, []⟩
    else if (first :: others).any fun row =>
        !decide (SameState row.observation first.observation) then
      ⟨key, .unavailable, 0, []⟩
    else
      match collect v now account [] (first :: others) with
      | none => ⟨key, .unavailable, 0, []⟩
      | some quotes =>
        if quotes.any fun a => decide (a.availability.status = .unavailable) then
          ⟨key, .unavailable, 0, quotes⟩
        else ⟨key, .checked, groupCapacity first.observation quotes, quotes⟩

def summarizeFacilities (v : Viem) (rows : List Row) (now : ℕ) (account : Option String) :
    Except QuoteError (List Summary) := do
  let items ← rows.mapM (readRow v)
  pure ((items.foldl addItem []).map fun g => summarizeGroup v now account g.1 g.2)

end Turret.SignedQuotes
