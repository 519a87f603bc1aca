import Turret.Library.Ledger
import Turret.Library.Rounding

/-! `accounting.mjs` of the borrower-cashback service: the replay of the
receipts of the approved engines and of the campaign. Times are JavaScript
numbers, amounts are big integers; addresses are in lower case already. -/

namespace Turret.Cashback

open Execution Function Uint256

inductive ReplayError
  | invalidLoanEstimate
  | invalidCampaign
  | invalidEngineApr
  | invalidPublicWalletCap
  | invalidReceiptAmount
  | receiptTimeMovedBackwards
  | paidInterestExceedsAccrual
  | divisionByZero
  | typeError
  | duplicateOrUnorderedReceipt
  | unapprovedEngine
  | invalidEnrollmentReceipt
  | publicEnrollmentCapMismatch
  | principalExceedsDraws
  | principalPaidBeforeInterest
  | lossDoesNotMatch
  | invalidAccountingTimestamp
  deriving DecidableEq

def INTEREST_DENOMINATOR : ℕ := 10000 * 365 * 86400

/-- `Number.MAX_SAFE_INTEGER`. -/
def MAX_SAFE_INTEGER : ℕ := 2 ^ 53 - 1

def PUBLIC_WALLET_CAP : ℕ := 25000000

/-- `amount`: a big integer that is a word. -/
def amount (value : ℤ) : Except ReplayError ℕ :=
  if 0 ≤ value ∧ value < MODULUS then .ok value.toNat else .error .invalidReceiptAmount

structure Policy where
  startsAt : ℕ
  endsAt : ℕ
  settlementDeadline : ℕ
  claimDeadline : ℕ
  rebateBps : ℕ
  walletCap : Option ℤ
  /-- The engines with their `aprBps`. -/
  engines : List (Address × ℕ)

/-- Of two entries for one address the later one counts. -/
def Policy.aprBps (policy : Policy) (engine : Address) : Option ℕ :=
  (policy.engines.reverse.find? fun entry => entry.1 = engine).map Prod.snd

/-- The campaign checks of `quoteCashback`. -/
def checkCampaign (policy : Policy) : Except ReplayError Unit := do
  revertIf (MAX_SAFE_INTEGER < policy.startsAt) .invalidLoanEstimate
  revertIf (MAX_SAFE_INTEGER < policy.endsAt ∨
    MAX_SAFE_INTEGER < policy.settlementDeadline ∨ MAX_SAFE_INTEGER < policy.claimDeadline ∨
    policy.endsAt ≤ policy.startsAt ∨ policy.settlementDeadline < policy.endsAt ∨
    policy.claimDeadline ≤ policy.settlementDeadline ∨ policy.rebateBps ≠ 5000) .invalidCampaign

/-- Interest in undivided units, and the part of it that may earn a rebate. -/
structure Chunk where
  total : ℕ
  eligible : ℕ
  deriving DecidableEq

structure Enrollment where
  startsAt : ℕ
  cap : ℕ

structure Position where
  principal : ℕ
  eligiblePrincipal : ℕ
  updatedAt : ℕ
  accrual : List Chunk
  eligiblePaid : ℕ
  confirmed : ℤ
  enrollment : Option Enrollment

inductive Event
  | enrolled (borrower engine : Address) (cap : ℤ) (startsAt : ℕ)
  | borrowed (borrower engine : Address) (amount : ℤ)
  | repaid (borrower engine : Address) (principal interest : ℤ)
  | positionLoss (borrower engine : Address) (principal interest : ℤ)
  | liquidated (borrower engine : Address)
  | published (root : String) (throughBlock : ℕ) (blockHash : String)

structure Receipt where
  timestamp : ℕ
  transactionHash : String
  events : List Event

structure Replay where
  positions : Address → Address → Option Position
  /-- The keys of the positions, in the order of insertion. -/
  keys : List (Address × Address)
  awarded : Address → ℤ
  seen : List String
  lastTimestamp : ℕ

def Replay.initial : Replay := ⟨fun _ _ => none, [], fun _ => 0, [], 0⟩

def Position.opened (timestamp : ℕ) : Position := ⟨0, 0, timestamp, [], 0, 0, none⟩

/-- The sum of the totals that `reduce` computes. -/
def unpaid (accrual : List Chunk) : ℕ := (accrual.map Chunk.total).sum

def unpaidEligible (accrual : List Chunk) : ℕ := (accrual.map Chunk.eligible).sum

/-! ### Accrual and payment of interest -/

/-- The boundaries between which interest accrues evenly. -/
def boundaries (policy : Policy) (updatedAt timestamp : ℕ) : List ℕ :=
  ([updatedAt, policy.startsAt, policy.endsAt, timestamp].filter
    fun t => updatedAt ≤ t ∧ t ≤ timestamp).insertionSort (· ≤ ·)

/-- The chunks between consecutive boundaries; an empty one is not kept. -/
def accrueBetween (policy : Policy) (apr : ℕ) (p : Position) : List ℕ → List Chunk
  | start :: stop :: rest =>
    let factor := (stop - start) * apr
    let total := p.principal * factor
    let eligible :=
      if policy.startsAt ≤ start ∧ stop ≤ policy.endsAt then p.eligiblePrincipal * factor else 0
    let later := accrueBetween policy apr p (stop :: rest)
    if 0 < total then ⟨total, eligible⟩ :: later else later
  | _ => []

def accrue (policy : Policy) (apr timestamp : ℕ) (p : Position) :
    Except ReplayError Position := do
  revertIf (timestamp < p.updatedAt) .receiptTimeMovedBackwards
  pure
    { p with
      accrual := p.accrual ++
        accrueBetween policy apr p (boundaries policy p.updatedAt timestamp)
      updatedAt := timestamp }

/-- The loop of `consumeInterest`: the oldest chunk pays first. Returns what is left of the
accrual and the eligible interest paid. -/
def consumeLoop (remaining : ℕ) (accrual : List Chunk) :
    Except ReplayError (List Chunk × ℕ) :=
  if remaining = 0 then .ok (accrual, 0)
  else match accrual with
    | [] => .error .typeError
    | chunk :: rest =>
      if chunk.total = 0 then .error .divisionByZero
      else do
        let used := min remaining chunk.total
        let eligible := chunk.eligible * used / chunk.total
        let left := ⟨chunk.total - used, chunk.eligible - eligible⟩
        let (accrual, later) ← consumeLoop (remaining - used)
          (if chunk.total - used = 0 then rest else left :: rest)
        pure (accrual, eligible + later)
termination_by remaining
decreasing_by
  have positive : 0 < min remaining chunk.total :=
    lt_min (Nat.pos_of_ne_zero ‹_›) (Nat.pos_of_ne_zero ‹_›)
  omega

def consumeInterest (paid : ℕ) (earns : Bool) (p : Position) : Except ReplayError Position := do
  let remaining := paid * INTEREST_DENOMINATOR
  revertIf (unpaid p.accrual < remaining) .paidInterestExceedsAccrual
  let (accrual, eligible) ← consumeLoop remaining p.accrual
  pure { p with accrual, eligiblePaid := if earns then p.eligiblePaid + eligible else p.eligiblePaid }

/-! ### Events -/

/-- Half of the eligible interest paid, in whole units. -/
def rebateOf (eligiblePaid : ℕ) : ℕ := eligiblePaid * 5000 / (INTEREST_DENOMINATOR * 10000)

/-- The award of a payment under the public wallet cap. -/
def award (walletCap : Option ℕ) (used : ℤ) (p : Position) : Position × ℤ :=
  match walletCap, p.enrollment with
  | some cap, some _ =>
    let earned : ℤ := min cap (rebateOf p.eligiblePaid)
    let delta := min (earned - p.confirmed) (cap - used)
    ({ p with confirmed := p.confirmed + delta }, used + delta)
  | _, _ => (p, used)

def onEnrolled (policy : Policy) (walletCap : Option ℕ) (timestamp startsAt : ℕ) (capValue : ℤ)
    (p : Position) : Except ReplayError Position := do
  let cap ← amount capValue
  revertIf (p.enrollment.isSome ∨ cap = 0 ∨ startsAt ≠ max timestamp policy.startsAt ∨
    policy.endsAt ≤ timestamp) .invalidEnrollmentReceipt
  revertIf (walletCap.isSome ∧ walletCap ≠ some cap) .publicEnrollmentCapMismatch
  pure { p with enrollment := some ⟨startsAt, cap⟩ }

/-- The draw is covered by an enrollment in force. -/
def covered (policy : Policy) (timestamp : ℕ) (p : Position) : Bool :=
  match p.enrollment with
  | some enrollment => decide (enrollment.startsAt ≤ timestamp ∧ timestamp < policy.endsAt)
  | none => false

def onBorrowed (policy : Policy) (timestamp : ℕ) (amountValue : ℤ) (p : Position) :
    Except ReplayError Position := do
  let drawn ← amount amountValue
  pure
    { p with
      principal := p.principal + drawn
      eligiblePrincipal :=
        if covered policy timestamp p then p.eligiblePrincipal + drawn else p.eligiblePrincipal }

/-- What a repayment does after the interest is consumed and the award made. -/
def repayPrincipal (principal : ℕ) (p : Position) : Except ReplayError Position := do
  revertIf (p.principal < principal) .principalExceedsDraws
  revertIf (0 < principal ∧ INTEREST_DENOMINATOR ≤ unpaid p.accrual) .principalPaidBeforeInterest
  pure
    { p with
      principal := p.principal - principal
      eligiblePrincipal := p.eligiblePrincipal - min principal p.eligiblePrincipal
      accrual :=
        if p.principal - principal = 0 ∧ unpaid p.accrual < INTEREST_DENOMINATOR then []
        else p.accrual }

def onRepaid (policy : Policy) (walletCap : Option ℕ) (timestamp : ℕ) (used : ℤ) (liquidated : Bool)
    (principalValue interestValue : ℤ) (p : Position) : Except ReplayError (Position × ℤ) := do
  let principal ← amount principalValue
  let interest ← amount interestValue
  let earns := p.enrollment.isSome && !liquidated && decide (timestamp ≤ policy.settlementDeadline)
  let p ← consumeInterest interest earns p
  let (p, used) := award walletCap used p
  let p ← repayPrincipal principal p
  pure (p, used)

def onPositionLoss (principalValue interestValue : ℤ) (p : Position) :
    Except ReplayError Position := do
  let principal ← amount principalValue
  revertIf (principal ≠ p.principal) .lossDoesNotMatch
  let interest ← amount interestValue
  revertIf (interest ≠ unpaid p.accrual / INTEREST_DENOMINATOR) .lossDoesNotMatch
  pure { p with principal := 0, eligiblePrincipal := 0, accrual := [] }

/-- The account of an event that is replayed. -/
def Event.key : Event → Option (Address × Address)
  | .enrolled borrower engine _ _ => some (borrower, engine)
  | .borrowed borrower engine _ => some (borrower, engine)
  | .repaid borrower engine _ _ => some (borrower, engine)
  | .positionLoss borrower engine _ _ => some (borrower, engine)
  | .liquidated _ _ => none
  | .published _ _ _ => none

/-- The accounts that a transaction liquidates. -/
def liquidatedIn (events : List Event) : List (Address × Address) :=
  events.filterMap fun
    | .liquidated borrower engine => some (borrower, engine)
    | _ => none

/-- What an event does to its account, which is up to date, and to the wallet's awards. -/
def onEvent (policy : Policy) (walletCap : Option ℕ) (timestamp : ℕ)
    (liquidated : List (Address × Address)) (used : ℤ) (p : Position) :
    Event → Except ReplayError (Position × ℤ)
  | .enrolled _ _ cap startsAt => do
    let p ← onEnrolled policy walletCap timestamp startsAt cap p
    pure (p, used)
  | .borrowed _ _ amount => do
    let p ← onBorrowed policy timestamp amount p
    pure (p, used)
  | .repaid borrower engine principal interest =>
    onRepaid policy walletCap timestamp used (decide ((borrower, engine) ∈ liquidated)) principal
      interest p
  | .positionLoss _ _ principal interest => do
    let p ← onPositionLoss principal interest p
    pure (p, used)
  | _ => pure (p, used)

def Replay.put (borrower engine : Address) (p : Position) (used : ℤ) (s : Replay) : Replay :=
  { s with
    positions := update s.positions borrower (update (s.positions borrower) engine (some p))
    keys := if (s.positions borrower engine).isSome then s.keys else s.keys ++ [(borrower, engine)]
    awarded := update s.awarded borrower used }

def replayEvent (policy : Policy) (walletCap : Option ℕ) (timestamp : ℕ)
    (liquidated : List (Address × Address)) (s : Replay) (event : Event) :
    Except ReplayError Replay :=
  match event.key with
  | none => pure s
  | some (borrower, engine) => do
    let apr ← orRevert (policy.aprBps engine) .unapprovedEngine
    let p := (s.positions borrower engine).getD (.opened timestamp)
    let p ← accrue policy apr timestamp p
    let (p, used) ← onEvent policy walletCap timestamp liquidated (s.awarded borrower) p event
    pure (s.put borrower engine p used)

def replayReceipt (policy : Policy) (walletCap : Option ℕ) (s : Replay) (receipt : Receipt) :
    Except ReplayError Replay := do
  revertIf (MAX_SAFE_INTEGER < receipt.timestamp ∨ receipt.timestamp < s.lastTimestamp ∨
    receipt.transactionHash = "" ∨ receipt.transactionHash ∈ s.seen) .duplicateOrUnorderedReceipt
  receipt.events.foldlM
    (replayEvent policy walletCap receipt.timestamp (liquidatedIn receipt.events))
    { s with
      seen := receipt.transactionHash :: s.seen
      lastTimestamp := receipt.timestamp }

/-- The checks of the policy, with the wallet cap. -/
def checkPolicy (policy : Policy) : Except ReplayError (Option ℕ) := do
  checkCampaign policy
  revertIf (∃ entry ∈ policy.engines, 10000 < entry.2) .invalidEngineApr
  match policy.walletCap with
  | none => pure none
  | some value => do
    let cap ← amount value
    revertIf (cap ≠ PUBLIC_WALLET_CAP) .invalidPublicWalletCap
    pure (some cap)

def replay (policy : Policy) (walletCap : Option ℕ) (receipts : List Receipt) :
    Except ReplayError Replay :=
  receipts.foldlM (replayReceipt policy walletCap) .initial

/-! ### The accounts -/

structure Row where
  borrower : Address
  engine : Address
  startsAt : ℕ
  cap : ℕ
  principal : ℕ
  eligiblePrincipal : ℕ
  unpaidInterest : ℕ
  estimatedRebate : ℤ
  confirmedRebate : ℤ
  eligiblePaidInterest : ℕ
  committedRebate : ℤ
  deriving DecidableEq

/-- The row of an account, with the wallet's projected awards after it. -/
def rowOf (policy : Policy) (walletCap : Option ℕ) (timestamp : ℕ) (used : ℤ)
    (key : Address × Address) (enrollment : Enrollment) (p : Position) : Row × ℤ :=
  let confirmedRebate : ℤ := match walletCap with
    | none => min enrollment.cap (rebateOf p.eligiblePaid)
    | some _ => p.confirmed
  let projected : ℤ :=
    if policy.settlementDeadline < timestamp then confirmedRebate
    else min enrollment.cap (rebateOf (p.eligiblePaid + unpaidEligible p.accrual))
  let (projected, used) := match walletCap with
    | none => (projected, used)
    | some cap =>
      let extra := min (projected - confirmedRebate) (cap - used)
      (confirmedRebate + extra, used + extra)
  (⟨key.1, key.2, enrollment.startsAt, enrollment.cap, p.principal, p.eligiblePrincipal,
    unpaid p.accrual / INTEREST_DENOMINATOR, projected - confirmedRebate, confirmedRebate,
    p.eligiblePaid / INTEREST_DENOMINATOR, projected⟩, used)

/-- The `map` over the sorted positions, with the projected awards of each wallet. -/
def rowsOf (policy : Policy) (walletCap : Option ℕ) (timestamp : ℕ) (s : Replay) :
    (Address → ℤ) → List (Address × Address) → Except ReplayError (List Row)
  | _, [] => pure []
  | projected, key :: rest =>
    match s.positions key.1 key.2 with
    | some p =>
      match p.enrollment with
      | some enrollment => do
        let apr ← orRevert (policy.aprBps key.2) .typeError
        let p ← accrue policy apr timestamp p
        let (row, used) := rowOf policy walletCap timestamp (projected key.1) key enrollment p
        let rows ← rowsOf policy walletCap timestamp s (update projected key.1 used) rest
        pure (row :: rows)
      | none => rowsOf policy walletCap timestamp s projected rest
    | none => rowsOf policy walletCap timestamp s projected rest

def keyLe (a b : Address × Address) : Prop :=
  Fin.val a.1 < Fin.val b.1 ∨ a.1 = b.1 ∧ Fin.val a.2 ≤ Fin.val b.2

instance : DecidableRel keyLe := fun _ _ => inferInstanceAs (Decidable (_ ∨ _))

def accountReceipts (policy : Policy) (receipts : List Receipt) (asOf : Option ℕ) :
    Except ReplayError (List Row) := do
  let walletCap ← checkPolicy policy
  let s ← replay policy walletCap receipts
  let timestamp := asOf.getD s.lastTimestamp
  revertIf (MAX_SAFE_INTEGER < timestamp ∨ timestamp < s.lastTimestamp) .invalidAccountingTimestamp
  rowsOf policy walletCap timestamp s s.awarded (s.keys.insertionSort keyLe)

end Turret.Cashback
