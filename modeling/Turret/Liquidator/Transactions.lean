import Turret.Liquidator.Store

/-! `transactions.mjs`: an intent is signed, stored and broadcast, and the
stored one is reconciled before the next is created. Each `await` of the chain
is a question, whose answer may be an error. -/

namespace Turret.Liquidator

open Tasks Tasks.Program

inductive Err
  | anotherKeeperOwns
  | leaseLost
  | pendingMustBeResolved
  | rpcDisagreement
  | typeError
  | receiptNotFound
  | receiptValidation
  | positionIsHealthy
  | invalidSimulation
  | other
  deriving DecidableEq

inductive Incident
  | broadcastUncertain
  | unknownPendingNonce
  | gasBudget
  | gasReserve
  | transactionRequiresReview
  | transactionReceiptMismatch
  | liquidationReceiptMismatch
  | transactionReverted
  | transactionReceiptIdentity
  | receiptReorg
  | nonceConsumed
  | pendingExecutionBlocked
  | transactionStuck
  | replacementBudget
  | capitalBudget
  | liquidationUnfunded
  | simulation
  deriving DecidableEq

structure Config where
  /-- `mode` is `execute`. -/
  execute : Bool
  chainId : ℕ
  vault : Address
  usdg : Address
  confirmations : ℕ
  replaceAfterMs : ℕ
  maxReplacements : ℕ
  maxRepay : ℕ
  dailyBudget : ℕ
  inventoryBudget : ℕ
  minEth : ℕ
  maxTxFee : ℕ
  maxDailyGas : ℕ
  collateralRecipient : Option Address
  executionGate : Option Address

inductive VaultEvent
  | liquidated (collateral borrower liquidator : Address) (repaid collateralSeized : ℕ)
  | other

/-- A log, with what `decodeEventLog` makes of it, if anything. -/
structure Log where
  address : Address
  event : Option VaultEvent

structure Receipt where
  transactionHash : Option String
  blockNumber : ℕ
  blockHash : String
  success : Bool
  gasUsed : ℕ
  effectiveGasPrice : ℕ
  logs : List Log

structure LiquidationResult where
  repaid : ℕ
  collateralSeized : ℕ
  usdgOut : Option ℕ

/-- The signer, and the method that a specialised worker overrides. -/
structure Keeper where
  config : Config
  account : Address
  signTransaction : Request → String
  keccak256 : String → String
  liquidationResult : Receipt → Tx → Option LiquidationResult

/-- The last matching event of the vault. -/
def liquidationResult (config : Config) (account : Address) (receipt : Receipt) (tx : Tx) :
    Option LiquidationResult :=
  (receipt.logs.filterMap fun entry =>
    if entry.address ≠ config.vault then none
    else match entry.event with
      | some (.liquidated collateral borrower liquidator repaid collateralSeized) =>
        if borrower = tx.borrower ∧ collateral = tx.collateral ∧ liquidator = account then
          some ⟨repaid, collateralSeized, none⟩
        else none
      | _ => none).getLast?

/-- What `prepareTransactionRequest` returns. -/
structure Prepared where
  target : Address
  data : Calldata
  value : ℕ
  gas : Option ℕ
  gasPrice : Option ℕ
  maxFeePerGas : Option ℕ
  maxPriorityFeePerGas : Option ℕ
  nonce : ℕ

inductive BlockTag
  | latest
  | pending

inductive Query
  | consistent
  | transactionCount (tag : BlockTag)
  | balance
  | prepareTransactionRequest (target : Address) (data : Calldata) (value nonce : ℕ)
  | signTransaction (request : Request)
  | randomUUID
  | sendRawTransaction (raw : String)
  | transactionReceipt (hash : String)
  | blockHash (number : ℕ)
  | confirmationDetails (receipt : Receipt) (tx : Tx)
  | usdgBalance
  | allowance
  | simulateApprove (maxRepay : ℤ)
  | simulate (data : Calldata)
  | liveness

def Query.Result : Query → Type
  | consistent => Bool
  | transactionCount _ => ℕ
  | balance => ℕ
  | prepareTransactionRequest _ _ _ _ => Prepared
  | signTransaction _ => String
  | randomUUID => ℕ
  | sendRawTransaction _ => Unit
  | transactionReceipt _ => Receipt
  | blockHash _ => String
  | confirmationDetails _ _ => Unit
  | usdgBalance => ℕ
  | allowance => ℕ
  | simulateApprove _ => Unit
  | simulate _ => ℕ × ℕ
  | liveness => String

def Answer (q : Query) : Type := Except Err q.Result

abbrev Prog := Program World Query Answer Err

def call (q : Query) : Prog q.Result := Program.call q

def chainConsistent : Prog Bool := call .consistent
def getTransactionCount (tag : BlockTag) : Prog ℕ := call (.transactionCount tag)
def getBalance : Prog ℕ := call .balance
def prepareTransactionRequest (target : Address) (data : Calldata) (value nonce : ℕ) :
    Prog Prepared := call (.prepareTransactionRequest target data value nonce)
def signTransaction (request : Request) : Prog String := call (.signTransaction request)
def randomUUID : Prog ℕ := call .randomUUID
def sendRawTransaction (raw : String) : Prog (Except Err Unit) := question (Query.sendRawTransaction raw)
def getTransactionReceipt (hash : String) : Prog (Except Err Receipt) :=
  question (Query.transactionReceipt hash)
def getBlockHash (number : ℕ) : Prog String := call (.blockHash number)
def confirmationDetails (receipt : Receipt) (tx : Tx) : Prog (Except Err Unit) :=
  question (Query.confirmationDetails receipt tx)
def usdgBalance : Prog ℕ := call .usdgBalance
def usdgAllowance : Prog ℕ := call .allowance
def simulateApprove (maxRepay : ℤ) : Prog Unit := call (.simulateApprove maxRepay)
def simulateContract (data : Calldata) : Prog (ℕ × ℕ) := call (.simulate data)
def fetchLiveness : Prog String := call .liveness

/-! ### The store, as the process `owner` uses it -/

def dateNow : Prog ℕ := do
  let s ← look
  pure s.now

def acquireLease (owner : ℕ) : Prog Unit := do
  let now ← dateNow
  attempt fun s =>
    if ∃ row ∈ s.lease, row.owner ≠ owner ∧ now < row.expires then .error .anotherKeeperOwns
    else .ok ((), { s with lease := some ⟨owner, now + 120000⟩ })

def assertLease (owner : ℕ) : Prog Unit := do
  let now ← dateNow
  let s ← look
  throwIf (¬s.holdsLease owner now) .leaseLost

def saveTx (owner : ℕ) (tx : Tx) : Prog Unit := do
  assertLease owner
  modify (World.upsert tx)

def pendingTx : Prog (Option Tx) := do
  let s ← look
  pure s.pendingTx

def budgets : Prog Budgets := do
  let now ← dateNow
  let s ← look
  pure (s.budgets now)

def setRetry (collateral borrower : Address) (time : ℕ) : Prog Unit :=
  modify fun s =>
    { s with
      retry := Function.update s.retry collateral
        (Function.update (s.retry collateral) borrower time) }

/-! ### Broadcast and submission -/

variable (k : Keeper) (owner : ℕ)

def broadcast (tx : Tx) : Prog (List Incident) := do
  assertLease owner
  let last ← lift (Execution.orRevert tx.attempts.getLast? .typeError)
  modify fun s => { s with sent := s.sent ++ [last.raw] }
  let sent ← sendRawTransaction last.raw
  match sent with
  | .ok _ => pure []
  | .error _ => pure [.broadcastUncertain]

def makeAttempt (request : Request) : Prog Attempt := do
  assertLease owner
  modify fun s => { s with signed := s.signed ++ [request] }
  let raw ← signTransaction request
  let signedAt ← dateNow
  pure ⟨raw, k.keccak256 raw, signedAt⟩

/-- The fields that the kinds of intents add. -/
structure Details where
  collateral : Address
  borrower : Address
  maxRepay : ℤ
  recipient : Option Address

/-- The request that is signed, with a fifth more gas than estimated. -/
def requestOf (p : Prepared) (gas : ℕ) : Request :=
  ⟨k.config.chainId, p.target, p.data, p.value, gas * 120 / 100, p.gasPrice, p.maxFeePerGas,
    p.maxPriorityFeePerGas, p.nonce⟩

def newTx (id : ℕ) (kind : Kind) (createdAt : ℕ) (request : Request) (reserve : ℕ)
    (details : Details) (attempt : Attempt) : Tx :=
  ⟨id, kind, .pending, createdAt, request, reserve, details.collateral, details.borrower,
    details.maxRepay, details.recipient, [attempt], none, none, none, none, none, false, none⟩

/-- The end of `submit`: the intent is signed, stored and then broadcast. -/
def createIntent (kind : Kind) (details : Details) (request : Request) (reserve : ℕ) :
    Prog (List Incident) := do
  let id ← randomUUID
  let createdAt ← dateNow
  let attempt ← makeAttempt k owner request
  let tx := newTx id kind createdAt request reserve details attempt
  saveTx owner tx
  broadcast owner tx

def submit (kind : Kind) (target : Address) (data : Calldata) (details : Details) (value : ℕ) :
    Prog (List Incident) :=
  if k.config.execute = false then pure []
  else do
    let open_ ← pendingTx
    throwIf open_.isSome .pendingMustBeResolved
    let consistent ← chainConsistent
    throwIf (consistent = false) .rpcDisagreement
    let latest ← getTransactionCount .latest
    let pending ← getTransactionCount .pending
    let balance ← getBalance
    if latest ≠ pending then pure [.unknownPendingNonce]
    else do
      let prepared ← prepareTransactionRequest target data value pending
      let gas ← lift (Execution.orRevert prepared.gas .typeError)
      let request := requestOf k prepared gas
      let reserve ← lift (Execution.orRevert (feeReserve request) .typeError)
      let spent ← budgets
      if k.config.maxTxFee < reserve ∨ (k.config.maxDailyGas : ℤ) < spent.gas + reserve then
        pure [.gasBudget]
      else if balance < reserve + value + k.config.minEth then pure [.gasReserve]
      else createIntent k owner kind details request reserve

/-! ### Recovery -/

structure Head where
  number : ℕ

/-- What the loop of `recover` has seen without a receipt to settle by. -/
structure Sightings where
  orphan : Bool
  unconfirmed : Bool
  wrongHash : Bool

/-- The loop over the attempts, up to the first confirmed receipt. -/
def findReceipt (head : Head) : List Attempt → Sightings → Prog (Option Receipt × Sightings)
  | [], seen => pure (none, seen)
  | attempt :: rest, seen => do
    let candidate ← getTransactionReceipt attempt.hash
    match candidate with
    | .error e => if e = .receiptNotFound then findReceipt head rest seen else .fail e
    | .ok candidate =>
      if candidate.transactionHash ≠ some attempt.hash then
        findReceipt head rest { seen with wrongHash := true }
      else do
        let canonical ← getBlockHash candidate.blockNumber
        if canonical ≠ candidate.blockHash then
          findReceipt head rest { seen with orphan := true }
        else if head.number < candidate.blockNumber + k.config.confirmations then
          findReceipt head rest { seen with unconfirmed := true }
        else pure (some candidate, seen)

/-- The fields that every receipt sets. -/
def withReceipt (tx : Tx) (receipt : Receipt) (hash : String) : Tx :=
  { tx with
    receipt := some ⟨hash, receipt.blockNumber, receipt.blockHash⟩
    actualGas := some (receipt.gasUsed * receipt.effectiveGasPrice)
    status := if receipt.success then .confirmed else .reverted }

/-- The result that a confirmed liquidation must show. -/
def expectedResult (tx : Tx) (receipt : Receipt) : Option LiquidationResult :=
  (k.liquidationResult receipt tx).filter fun event =>
    0 < event.repaid ∧ (event.repaid : ℤ) ≤ tx.maxRepay ∧ 0 < event.collateralSeized

def withResult (tx : Tx) (event : LiquidationResult) : Tx :=
  { tx with
    actualRepay := some event.repaid
    collateralSeized := some event.collateralSeized
    usdgOut := event.usdgOut <|> tx.usdgOut
    inventoryRecovered := event.usdgOut.isSome || tx.inventoryRecovered }

/-- The end of the settlement: the time is taken when it is observed. -/
def finalize (tx : Tx) : Prog (List Incident) := do
  let settledAt ← dateNow
  let tx := { tx with settledAt := some settledAt }
  saveTx owner tx
  if tx.status = .reverted then do
    let now ← dateNow
    setRetry tx.collateral tx.borrower (now + 60000)
    pure [.transactionReverted]
  else pure []

def block (tx : Tx) (incident : Incident) : Prog (List Incident) := do
  saveTx owner { tx with status := .blocked }
  pure [incident]

/-- A receipt is there. -/
def settle (tx : Tx) (receipt : Receipt) (hash : String) : Prog (List Incident) := do
  let tx := withReceipt tx receipt hash
  if tx.status = .confirmed then do
    let details ← confirmationDetails receipt tx
    match details with
    | .error e =>
      if e = .receiptValidation then block owner tx .transactionReceiptMismatch else .fail e
    | .ok _ =>
      if tx.kind = .liquidation then
        match expectedResult k tx receipt with
        | none => block owner tx .liquidationReceiptMismatch
        | some event => finalize owner (withResult tx event)
      else finalize owner tx
  else finalize owner tx

/-- The fee of a replacement: a fifth more, and one. -/
def bumped (price : Option ℕ) : Option ℕ := price.map fun p => p * 120 / 100 + 1

def replacementOf (request : Request) : Request :=
  { request with
    gasPrice := bumped request.gasPrice
    maxFeePerGas := bumped request.maxFeePerGas
    maxPriorityFeePerGas := bumped request.maxPriorityFeePerGas }

/-- The intent is unmined for long enough: sign it again at a higher fee. -/
def replace (tx : Tx) : Prog (List Incident) := do
  let request := replacementOf tx.request
  let reserve ← lift (Execution.orRevert (feeReserve request) .typeError)
  let spent ← budgets
  let balance ← getBalance
  if k.config.maxTxFee < reserve ∨
      (k.config.maxDailyGas : ℤ) < spent.gas - tx.feeReserve + reserve ∨
      balance < reserve + request.value + k.config.minEth then
    pure [.replacementBudget]
  else do
    let attempt ← makeAttempt k owner request
    let tx := { tx with request, feeReserve := reserve, attempts := tx.attempts ++ [attempt] }
    saveTx owner tx
    broadcast owner tx

/-- No receipt, and none in sight. -/
def rebroadcast (canBroadcast : Bool) (tx : Tx) : Prog (List Incident) := do
  let nonce ← getTransactionCount .latest
  if tx.request.nonce < nonce then block owner tx .nonceConsumed
  else do
    let now ← dateNow
    let last ← lift (Execution.orRevert tx.attempts.getLast? .typeError)
    if canBroadcast = false ∨ k.config.execute = false then pure [.pendingExecutionBlocked]
    else if now < last.signedAt + k.config.replaceAfterMs then broadcast owner tx
    else if k.config.maxReplacements < tx.attempts.length then pure [.transactionStuck]
    else replace k owner tx

def recover (head : Head) (canBroadcast : Bool) : Prog (List Incident) := do
  let open_ ← pendingTx
  match open_ with
  | none => pure []
  | some tx =>
    if tx.status = .blocked then pure [.transactionRequiresReview]
    else do
      let found ← findReceipt k head tx.attempts ⟨false, false, false⟩
      match found with
      | (some receipt, _) =>
        let hash ← lift (Execution.orRevert receipt.transactionHash .typeError)
        settle k owner tx receipt hash
      | (none, seen) =>
        if seen.wrongHash then pure [.transactionReceiptIdentity]
        else if seen.orphan then pure [.receiptReorg]
        else if seen.unconfirmed then pure []
        else rebroadcast k owner canBroadcast tx

/-! ### Liquidation -/

structure Candidate where
  collateral : Address
  borrower : Address
  repaid : ℤ

def calldataOf (c : Candidate) (maxRepay : ℤ) (proof : Option String) : Calldata :=
  let recipient := k.config.collateralRecipient.getD k.account
  match proof with
  | some proof => .liquidateChecked c.collateral c.borrower maxRepay recipient proof
  | none => .liquidate c.collateral c.borrower maxRepay recipient

def livenessProof : Prog (Option String) :=
  if k.config.executionGate.isSome then do
    let proof ← fetchLiveness
    pure (some proof)
  else pure none

/-- The body of the `try`. -/
def simulateAndSubmit (c : Candidate) (maxRepay : ℤ) : Prog (List Incident) := do
  let proof ← livenessProof k
  let data := calldataOf k c maxRepay proof
  let result ← simulateContract data
  throwIf (result.1 = 0 ∨ maxRepay < result.1 ∨ result.2 = 0) .invalidSimulation
  submit k owner .liquidation k.config.vault data
    ⟨c.collateral, c.borrower, maxRepay, some (k.config.collateralRecipient.getD k.account)⟩ 0

/-- The `catch`. -/
def onFailure (c : Candidate) (e : Err) : Prog (List Incident) := do
  let now ← dateNow
  setRetry c.collateral c.borrower (now + 30000)
  if e = .positionIsHealthy then pure [] else pure [.simulation]

def approve (c : Candidate) (maxRepay : ℤ) : Prog (List Incident) := do
  let data := Calldata.approve k.config.vault maxRepay
  let _ ← simulateApprove maxRepay
  submit k owner .approval k.config.usdg data ⟨c.collateral, c.borrower, 0, none⟩ 0

def liquidate (c : Candidate) : Prog (List Incident) :=
  if k.config.execute = false then pure []
  else do
    let open_ ← pendingTx
    if open_.isSome then pure []
    else do
      let s ← look
      let now ← dateNow
      if now < s.retry c.collateral c.borrower then pure []
      else do
        let spent ← budgets
        let balance ← usdgBalance
        let remainingDaily := k.config.dailyBudget - spent.daily
        let remainingInventory := k.config.inventoryBudget - spent.inventory
        if remainingDaily ≤ 0 ∨ remainingInventory ≤ 0 then pure [.capitalBudget]
        else do
          let maxRepay := min (min (min (min c.repaid k.config.maxRepay) remainingDaily)
            remainingInventory) balance
          if maxRepay ≤ 0 then pure [.liquidationUnfunded]
          else do
            let allowance ← usdgAllowance
            if (allowance : ℤ) < maxRepay then approve k owner c maxRepay
            else (simulateAndSubmit k owner c maxRepay).orElse (onFailure c)

/-! ### The processes -/

inductive Call
  | acquireLease
  | recover (head : Head) (canBroadcast : Bool)
  | liquidate (candidate : Candidate)

/-- What the environment does: time passes, a process renews its lease or gives it up. -/
inductive Event
  | time (ms : ℕ)
  | renewLease (owner : ℕ)
  | close (owner : ℕ)

def environment : Event → World → Option World
  | .time ms, s => if s.now + ms ≤ MAX_DATE then some { s with now := s.now + ms } else none
  | .renewLease owner, s =>
    if s.holdsLease owner s.now then some { s with lease := some ⟨owner, s.now + 120000⟩ } else none
  | .close owner, s =>
    some { s with lease := s.lease.filter fun row => row.owner ≠ owner }

/-- A receipt that names a signed request was charged no more than it reserves, a signature is the
signer's, and an identifier is fresh. -/
def answers (s : World) : (q : Query) → Answer q → Prop
  | .transactionReceipt _, .ok receipt => ∀ request, ∀ reserve ∈ feeReserve request,
      receipt.transactionHash = some (k.keccak256 (k.signTransaction request)) →
        receipt.gasUsed * receipt.effectiveGasPrice ≤ reserve
  | .signTransaction request, .ok raw => raw = k.signTransaction request
  | .randomUUID, .ok id => ∀ tx ∈ s.txs, tx.id ≠ id
  | _, _ => True

end Turret.Liquidator
