import Turret.Library.Client
import Turret.Library.DecimalText

/-! The audit of a treasury's fee journal: `facility-fee-audit.mjs` and
`fee-reconciliation.mjs`. Addresses, hashes and call data are text in lower
case, as every comparison of them ignores the case. The client library's codecs
are a parameter, and the check of the token against its baseline, which reads
the same chain and is cached, is one request. -/

namespace Turret.FeeIntents

open Client HexText

abbrev Address := String
abbrev Hash := String

def maxSafeInteger : ℕ := 2 ^ 53 - 1

def uintMax : ℕ := 2 ^ 256 - 1

inductive Err
  | invalidOptions
  | identityChanged
  | database
  | constraint
  | unknownIntent
  | unexpectedState
  | journalChanged
  | alreadyActive
  | nothingToReserve
  | feesChanged
  | nonceUnavailable
  | invalidHash
  | submissionChain
  | transactionMismatch
  | notSigning
  | changedDuringRecovery
  | changedDuringConfirmation
  | invalidJournal
  | invalidConfiguration
  | tokenBaseline
  | unqualifiedToken
  | invalidFacility
  | chainMismatch
  | unavailable
  | checkpointAhead
  | identity
  | tokenVerification
  | router
  | checkpoint
  | recipient
  | receipt
  | feeEvent
  | unrepaidLoan
  | duplicateReceipt
  | transferMismatch
  | noFee
  | invalidRemittance
  | assignment
  | remittanceCall
  | remittanceMismatch
  | routingEvent
  | stakingTransfer
  | unjournaled
  | stale
  | rpc
  deriving DecidableEq

/-! ### The configuration and the journal -/

structure Facility where
  address : Address
  runtimeHash : Hash
  deriving DecidableEq

structure Component where
  address : Address
  runtimeHash : Hash
  deriving DecidableEq

structure Token where
  address : Address
  runtimeHash : Hash
  implementationSlot : Hash
  beaconSlot : Hash
  decimals : ℕ
  checks : List String
  beacon : Option Component
  implementation : Option Component
  deriving DecidableEq

structure TokenBaseline where
  schemaVersion : ℕ
  chainId : ℕ
  blockNumber : ℕ
  blockHash : Hash
  tokens : List Token
  deriving DecidableEq

structure Config where
  chainId : ℕ
  facilities : List Facility
  treasury : Address
  router : Address
  staking : Address
  usdg : Address
  routerRuntimeHash : Hash
  stakingRuntimeHash : Hash
  usdgRuntimeHash : Hash
  tokenBaseline : TokenBaseline
  deriving DecidableEq

/-- The checkpoint. -/
structure Baseline where
  blockNumber : ℕ
  blockHash : Hash
  totalTreasuryReported : ℕ
  deriving DecidableEq

structure Remittance where
  hash : Hash
  collectionIds : List String
  deriving DecidableEq

structure Journal where
  schemaVersion : ℕ
  baseline : Baseline
  collectionHashes : List Hash
  remittances : List Remittance
  deriving DecidableEq

/-! ### The chain -/

structure Block where
  number : Option ℕ
  hash : Option Hash
  timestamp : ℕ
  deriving DecidableEq

structure Log where
  address : Address
  topics : List String
  data : String
  logIndex : ℕ
  deriving DecidableEq

inductive ReceiptStatus
  | success
  | reverted
  deriving DecidableEq

structure Receipt where
  status : ReceiptStatus
  transactionHash : Hash
  blockNumber : ℕ
  blockHash : Hash
  transactionIndex : ℕ
  sender : Address
  recipient : Option Address
  logs : List Log
  deriving DecidableEq

structure Transaction where
  hash : Hash
  sender : Address
  recipient : Option Address
  nonce : ℕ
  value : ℕ
  input : String
  deriving DecidableEq

/-- What the audit reads of a loan. -/
structure Loan where
  vault : Address
  status : ℕ
  deriving DecidableEq

inductive Event
  | feeCollected (id : ℕ) (recipient : Address) (amount : ℕ)
  | transfer (sender recipient : Address) (value : ℕ)
  | claimedFeesForwarded (treasuryReportedFees stakerShare : ℕ)
  deriving DecidableEq

inductive Call
  | forwardClaimedFees (grossFees : ℕ)
  | other
  deriving DecidableEq

/-- The client library. -/
structure Viem where
  keccak256 : String → Hash
  decodeEventLog : List String → String → Option Event
  decodeFunctionData : String → Option Call
  encodeForwardClaimedFees : ℕ → String

inductive AddressGetter
  | treasury
  | rewardToken
  | staking
  | distributor
  | feeRecipient
  | loanToken
  deriving DecidableEq

inductive UintGetter
  | stakerShareBps
  | totalCollected
  | totalTreasuryReported
  | totalDistributed
  | balanceOf (account : Address)
  | allowance (owner spender : Address)
  deriving DecidableEq

inductive Request
  | now
  | chainId
  | latestBlock
  | block (number : ℕ)
  | code (address : Address) (block : ℕ)
  | readAddress (contract : Address) (getter : AddressGetter) (block : ℕ)
  | readUint (contract : Address) (getter : UintGetter) (block : ℕ)
  | loan (facility : Address) (id block : ℕ)
  | inspectTokenBaseline (token : Token) (block : Block)
  | transactionReceipt (hash : Hash)
  | transaction (hash : Hash)
  | pendingTransactionCount (account : Address)
  deriving DecidableEq

def Answer : Request → Type
  | .now => ℕ
  | .chainId => ℕ
  | .latestBlock => Block
  | .block _ => Block
  | .code _ _ => Option String
  | .readAddress _ _ _ => Address
  | .readUint _ _ _ => ℕ
  | .loan _ _ _ => Loan
  | .inspectTokenBaseline _ _ => Option String
  | .transactionReceipt _ => Receipt
  | .transaction _ => Transaction
  | .pendingTransactionCount _ => ℕ

abbrev ChainClient := Answers Request Answer Err

abbrev Audit := Reading Request Answer Err

def ask (q : Request) : Audit (Answer q) := request q

variable (viem : Viem)

/-! ### The events of a receipt -/

def eventsAt (receipt : Receipt) (address : Address) : List (Event × ℕ) :=
  receipt.logs.filterMap fun log =>
    if log.address = address then
      (viem.decodeEventLog log.topics log.data).map fun event => (event, log.logIndex)
    else none

structure FeeLog where
  id : ℕ
  recipient : Address
  amount : ℕ
  logIndex : ℕ
  deriving DecidableEq

def feesCollected (receipt : Receipt) (facility : Address) : List FeeLog :=
  (eventsAt viem receipt facility).filterMap fun event =>
    match event with
    | (.feeCollected id recipient amount, logIndex) => some ⟨id, recipient, amount, logIndex⟩
    | _ => none

/-- The tokens that went from one account to another. -/
def transferred (receipt : Receipt) (token sender recipient : Address) : ℕ :=
  ((eventsAt viem receipt token).filterMap fun event =>
    match event.1 with
    | .transfer a b value => if a = sender ∧ b = recipient then some value else none
    | _ => none).sum

structure Routed where
  treasuryReportedFees : ℕ
  stakerShare : ℕ
  deriving DecidableEq

def claimedFeesForwarded (receipt : Receipt) (router : Address) : List Routed :=
  (eventsAt viem receipt router).filterMap fun event =>
    match event.1 with
    | .claimedFeesForwarded fees share => some ⟨fees, share⟩
    | _ => none

/-! ### The token baseline -/

/-- Twelve zero bytes stand before the address of a slot. -/
def slotPadded (slot : Hash) : Bool := isHash slot && ((slot.toList.drop 2).take 24).all (· == '0')

def slotAddress (slot : Hash) : Option Address :=
  if (slot.toList.drop 2).all (· == '0') then none
  else some (String.ofList ('0' :: 'x' :: slot.toList.drop 26))

def componentAt (component : Option Component) (address : Option Address) : Bool :=
  match component, address with
  | some c, some a => c.address == a
  | none, none => true
  | _, _ => false

def validComponent (component : Component) : Bool :=
  isHex 40 component.address && isHash component.runtimeHash

def Token.valid (token : Token) : Bool :=
  isHex 40 token.address && isHash token.runtimeHash && decide (token.decimals ≤ 36) &&
  decide token.checks.Nodup &&
  token.checks.all (["paused", "tokenPaused", "isFrozen", "isBlocked"].contains ·) &&
  slotPadded token.implementationSlot && slotPadded token.beaconSlot &&
  !((slotAddress token.implementationSlot).isSome && (slotAddress token.beaconSlot).isSome) &&
  componentAt token.beacon (slotAddress token.beaconSlot) &&
  (if (slotAddress token.beaconSlot).isSome then token.implementation.isSome
    else componentAt token.implementation (slotAddress token.implementationSlot)) &&
  token.beacon.all validComponent && token.implementation.all validComponent

def validateTokenBaseline (value : TokenBaseline) (chainId : ℕ) : Bool :=
  value.schemaVersion == 1 && value.chainId == chainId && decide (value.tokens.length ≤ 250) &&
  isHash value.blockHash && decide (value.tokens.map Token.address).Nodup &&
  value.tokens.all Token.valid

/-! ### The reconciliation -/

def confirmations : ℕ := 2

def validConfiguration (config : Config) (journal : Journal) : Bool :=
  decide (1 ≤ config.chainId ∧ config.chainId ≤ maxSafeInteger) &&
  decide (config.facilities.length ≤ 100) &&
  [config.treasury, config.router, config.staking, config.usdg].all isAccount &&
  [config.routerRuntimeHash, config.stakingRuntimeHash, config.usdgRuntimeHash].all isHash &&
  decide (journal.collectionHashes.length ≤ 100) && journal.collectionHashes.all isHash &&
  decide journal.collectionHashes.Nodup && decide (journal.remittances.length ≤ 100) &&
  isHash journal.baseline.blockHash

/-- The facilities are accounts with a code hash, each registered once. -/
def validFacilities (facilities : List Facility) : Bool :=
  facilities.all (fun entry => isAccount entry.address && isHash entry.runtimeHash) &&
  decide (facilities.map Facility.address).Nodup

/-- `Math.abs(now - timestamp * 1000) >= 30000`, in milliseconds. -/
def staleAt (now timestamp : ℕ) : Bool :=
  decide (30000 ≤ now - timestamp * 1000 ∨ 30000 ≤ timestamp * 1000 - now)

def checkCode (address : Address) (expected : Hash) (block : ℕ) : Audit Unit := do
  let found : Option String ← ask (.code address block)
  let code ← orThrow found .identity
  throwIf (viem.keccak256 code ≠ expected) .identity

def checkUSDG (token : Token) (block : Block) : Audit Unit := do
  let reason : Option String ← ask (.inspectTokenBaseline token block)
  throwIf (reason ≠ none) .tokenVerification

/-- What the audit has fixed before it reads any receipt. -/
structure Context where
  config : Config
  token : Token
  start : ℕ
  head : ℕ

/-- A receipt that is confirmed, canonical and after the checkpoint. -/
def receipt (x : Context) (hash : Hash) : Audit Receipt := do
  let value : Receipt ← ask (.transactionReceipt hash)
  throwIf (value.status ≠ .success ∨ value.transactionHash ≠ hash ∨
    isHash value.blockHash = false ∨ maxSafeInteger < value.transactionIndex ∨
    value.blockNumber ≤ x.start ∨ x.head < value.blockNumber + confirmations) .receipt
  let block : Block ← ask (.block value.blockNumber)
  throwIf (block.hash ≠ some value.blockHash) .receipt
  let again : Block ← ask (.block value.blockNumber)
  checkUSDG x.token again
  pure value

structure Collected where
  id : String
  facility : Address
  loanId : ℕ
  amount : ℕ
  transactionHash : Hash
  logIndex : ℕ
  blockNumber : ℕ
  blockHash : Hash
  deriving DecidableEq

def collectionId (chainId : ℕ) (facility : Address) (hash : Hash) (logIndex : ℕ) : String :=
  toString chainId ++ ":" ++ facility ++ ":" ++ hash ++ ":" ++ toString logIndex

/-- The sums by vault, in the order of their first entries. -/
def addTo : List (Address × ℕ) → Address → ℕ → List (Address × ℕ)
  | [], vault, amount => [(vault, amount)]
  | (key, sum) :: rest, vault, amount =>
    if key = vault then (key, sum + amount) :: rest else (key, sum) :: addTo rest vault amount

/-- The fees that one facility collected in a receipt. -/
def collectLogs (x : Context) (entry : Facility) (value : Receipt) :
    List FeeLog → List Collected → List (Address × ℕ) →
    Audit (List Collected × List (Address × ℕ))
  | [], collections, vaults => pure (collections, vaults)
  | log :: logs, collections, vaults => do
    throwIf (log.recipient ≠ x.config.treasury ∨ log.amount = 0 ∨ maxSafeInteger < log.logIndex)
      .feeEvent
    let loan : Loan ← ask (.loan entry.address log.id value.blockNumber)
    throwIf (isAccount loan.vault = false ∨ loan.status ≠ 2) .unrepaidLoan
    let id := collectionId x.config.chainId entry.address value.transactionHash log.logIndex
    throwIf (id ∈ collections.map Collected.id) .duplicateReceipt
    collectLogs x entry value logs
      (collections ++ [⟨id, entry.address, log.id, log.amount, value.transactionHash, log.logIndex,
        value.blockNumber, value.blockHash⟩])
      (addTo vaults loan.vault log.amount)

def collectFacilities (x : Context) (value : Receipt) :
    List Facility → List Collected → Audit (List Collected)
  | [], collections => pure collections
  | entry :: entries, collections => do
    let logs := feesCollected viem value entry.address
    if logs = [] then collectFacilities x value entries collections
    else do
      checkCode viem entry.address entry.runtimeHash value.blockNumber
      let (collections, vaults) ← collectLogs x entry value logs collections []
      throwIf (vaults.any fun vault =>
        transferred viem value x.config.usdg vault.1 x.config.treasury != vault.2) .transferMismatch
      collectFacilities x value entries collections

/-- The fees of all receipts, and the receipts. -/
def collect (x : Context) :
    List Hash → List Collected → List (Hash × Receipt) →
    Audit (List Collected × List (Hash × Receipt))
  | [], collections, receipts => pure (collections, receipts)
  | hash :: hashes, collections, receipts => do
    let value ← receipt x hash
    let after ← collectFacilities viem x value x.config.facilities collections
    throwIf (after.length = collections.length) .noFee
    collect x hashes after (receipts ++ [(hash, value)])

/-- The fees are collected, not assigned yet, and collected before they were forwarded. -/
def assign (collections : List Collected) (receipts : List (Hash × Receipt)) (value : Receipt) :
    List String → List String → ℕ → Audit (List String × ℕ)
  | [], assigned, gross => pure (assigned, gross)
  | id :: ids, assigned, gross => do
    let collected ← orThrow (collections.find? (·.id = id)) .assignment
    throwIf (id ∈ assigned ∨ value.blockNumber < collected.blockNumber ∨
      collected.blockNumber = value.blockNumber ∧ value.transactionIndex ≤
        (receipts.lookup collected.transactionHash).elim 0 Receipt.transactionIndex) .assignment
    assign collections receipts value ids (assigned ++ [id]) (gross + collected.amount)

/-- The treasury sent exactly these fees to the router, which sent the stakers' share on. -/
def checkRemittance (x : Context) (record : Remittance) (value : Receipt) (gross : ℕ) :
    Audit Unit := do
  let tx : Transaction ← ask (.transaction record.hash)
  let call ← orThrow (viem.decodeFunctionData tx.input) .remittanceCall
  throwIf (tx.sender ≠ x.config.treasury ∨ tx.recipient ≠ some x.config.router ∨
    value.sender ≠ x.config.treasury ∨ value.recipient ≠ some x.config.router ∨
    tx.hash ≠ record.hash ∨ tx.value ≠ 0 ∨ call ≠ .forwardClaimedFees gross) .remittanceMismatch
  match claimedFeesForwarded viem value x.config.router with
  | [routed] => do
    throwIf (routed.treasuryReportedFees ≠ gross ∨ routed.stakerShare < gross / 2 ∨
      (gross + 1) / 2 < routed.stakerShare) .routingEvent
    throwIf (transferred viem value x.config.usdg x.config.treasury x.config.router ≠
      routed.stakerShare) .stakingTransfer
    throwIf (transferred viem value x.config.usdg x.config.router x.config.staking ≠
      routed.stakerShare) .stakingTransfer
  | _ => orThrow none .routingEvent

structure Assigned where
  ids : List String
  hashes : List Hash
  forwarded : ℕ

def remit (x : Context) (collections : List Collected) (receipts : List (Hash × Receipt)) :
    List Remittance → Assigned → Audit Assigned
  | [], kept => pure kept
  | record :: records, kept => do
    throwIf (isHash record.hash = false ∨ record.hash ∈ kept.hashes ∨ record.collectionIds = [])
      .invalidRemittance
    let value ← receipt x record.hash
    checkCode viem x.config.router x.config.routerRuntimeHash value.blockNumber
    checkCode viem x.config.staking x.config.stakingRuntimeHash value.blockNumber
    let (ids, gross) ← assign collections receipts value record.collectionIds kept.ids 0
    checkRemittance viem x record value gross
    remit x collections receipts records
      ⟨ids, kept.hashes ++ [record.hash], kept.forwarded + gross⟩

structure Plan where
  sender : Address
  recipient : Address
  value : ℕ
  data : String
  deriving DecidableEq

structure Report where
  chainId : ℕ
  blockNumber : ℕ
  blockHash : Hash
  checkedAt : ℕ
  collected : ℕ
  forwarded : ℕ
  unassigned : List Collected
  gross : ℕ
  expectedStakerShare : ℕ
  maximumStakerShare : ℕ
  treasuryBalance : ℕ
  treasuryAllowance : ℕ
  routerTotalCollected : ℕ
  routerTotalTreasuryReported : ℕ
  readyToForward : Bool
  plan : Option Plan
  deriving DecidableEq

/-- The counters of the router, and what the treasury could pay. -/
structure Counters where
  collected : ℕ
  reported : ℕ
  distributed : ℕ
  balance : ℕ
  allowance : ℕ

def checkFacilities (x : Context) : List Facility → Audit Unit
  | [] => pure ()
  | entry :: entries => do
    let feeRecipient : Address ← ask (.readAddress entry.address .feeRecipient x.head)
    throwIf (feeRecipient ≠ x.config.treasury) .recipient
    let loanToken : Address ← ask (.readAddress entry.address .loanToken x.head)
    throwIf (loanToken ≠ x.config.usdg) .recipient
    checkFacilities x entries

def checkCodes (block : ℕ) : List Facility → Audit Unit
  | [] => pure ()
  | entry :: entries => do
    checkCode viem entry.address entry.runtimeHash block
    checkCodes block entries

/-- The addresses and counters of the router at the head. -/
def readRouter (config : Config) (head : ℕ) : Audit Counters := do
  let treasury : Address ← ask (.readAddress config.router .treasury head)
  let usdg : Address ← ask (.readAddress config.router .rewardToken head)
  let staking : Address ← ask (.readAddress config.router .staking head)
  let distributor : Address ← ask (.readAddress config.staking .distributor head)
  let share : ℕ ← ask (.readUint config.router .stakerShareBps head)
  let collected : ℕ ← ask (.readUint config.router .totalCollected head)
  let reported : ℕ ← ask (.readUint config.router .totalTreasuryReported head)
  let distributed : ℕ ← ask (.readUint config.router .totalDistributed head)
  let balance : ℕ ← ask (.readUint config.usdg (.balanceOf config.treasury) head)
  let allowance : ℕ ← ask
    (.readUint config.usdg (.allowance config.treasury config.router) head)
  throwIf (treasury ≠ config.treasury ∨ usdg ≠ config.usdg ∨ staking ≠ config.staking ∨
    distributor ≠ config.router ∨ share ≠ 5000 ∨ distributed ≠ (collected + reported) / 2) .router
  pure ⟨collected, reported, distributed, balance, allowance⟩

def checkBaseline (config : Config) (baseline : Baseline) : Audit Unit := do
  let block : Block ← ask (.block baseline.blockNumber)
  throwIf (block.hash ≠ some baseline.blockHash) .checkpoint
  let reported : ℕ ← ask (.readUint config.router .totalTreasuryReported baseline.blockNumber)
  throwIf (reported ≠ baseline.totalTreasuryReported) .checkpoint

/-- The configuration and the token that it names. -/
def checkConfiguration (config : Config) (journal : Journal) : Audit Token := do
  throwIf (validConfiguration config journal = false) .invalidConfiguration
  throwIf (validateTokenBaseline config.tokenBaseline config.chainId = false) .tokenBaseline
  let token ← orThrow (config.tokenBaseline.tokens.find? (·.address = config.usdg))
    .unqualifiedToken
  throwIf (token.decimals ≠ 6 ∨ token.runtimeHash ≠ config.usdgRuntimeHash) .unqualifiedToken
  throwIf (validFacilities config.facilities = false) .invalidFacility
  pure token

/-- The latest block, its number and its hash. -/
def readHead (config : Config) (baseline : Baseline) : Audit (Block × ℕ × Hash) := do
  let chainId : ℕ ← ask .chainId
  throwIf (chainId ≠ config.chainId) .chainMismatch
  let latest : Block ← ask .latestBlock
  let head ← orThrow latest.number .unavailable
  let headHash ← orThrow latest.hash .unavailable
  let before : ℕ ← ask .now
  throwIf (staleAt before latest.timestamp = true) .unavailable
  throwIf (uintMax < baseline.blockNumber ∨ uintMax < baseline.totalTreasuryReported)
    .invalidConfiguration
  throwIf (head < baseline.blockNumber) .checkpointAhead
  pure (latest, head, headHash)

def checkContracts (config : Config) (token : Token) (latest : Block) (head : ℕ) :
    Audit Unit := do
  checkUSDG token latest
  checkCode viem config.router config.routerRuntimeHash head
  checkCode viem config.staking config.stakingRuntimeHash head
  checkCode viem config.usdg config.usdgRuntimeHash head
  checkCodes viem head config.facilities

/-- The head is still there, and not old; the time of the check. -/
def checkHead (latest : Block) (head : ℕ) (headHash : Hash) : Audit ℕ := do
  let final : Block ← ask (.block head)
  throwIf (final.hash ≠ some headHash) .stale
  let after : ℕ ← ask .now
  throwIf (staleAt after latest.timestamp = true) .stale
  ask .now

def reconcileFacilityFees (config : Config) (journal : Journal) : Audit Report := do
  let token ← checkConfiguration config journal
  let (latest, head, headHash) ← readHead config journal.baseline
  checkContracts viem config token latest head
  let counters ← readRouter config head
  checkBaseline config journal.baseline
  let x : Context := ⟨config, token, journal.baseline.blockNumber, head⟩
  checkFacilities x config.facilities
  let (collections, receipts) ← collect viem x journal.collectionHashes [] []
  let kept ← remit viem x collections receipts journal.remittances ⟨[], [], 0⟩
  throwIf (counters.reported ≠ journal.baseline.totalTreasuryReported + kept.forwarded) .unjournaled
  let unassigned := collections.filter fun c => c.id ∉ kept.ids
  let gross := (unassigned.map Collected.amount).sum
  let checkedAt : ℕ ← checkHead latest head headHash
  pure {
    chainId := config.chainId
    blockNumber := head
    blockHash := headHash
    checkedAt := checkedAt
    collected := (collections.map Collected.amount).sum
    forwarded := kept.forwarded
    unassigned := unassigned
    gross := gross
    expectedStakerShare := (gross + (counters.collected + counters.reported) % 2) / 2
    maximumStakerShare := (gross + 1) / 2
    treasuryBalance := counters.balance
    treasuryAllowance := counters.allowance
    routerTotalCollected := counters.collected
    routerTotalTreasuryReported := counters.reported
    readyToForward := decide (0 < gross ∧ gross ≤ counters.balance ∧
      (gross + 1) / 2 ≤ counters.allowance)
    plan := if gross = 0 then none else
      some ⟨config.treasury, config.router, 0, viem.encodeForwardClaimedFees gross⟩ }

/-- The report, as far as the intents read it. -/
def Report.sourceCollectionIds (report : Report) : List String :=
  report.unassigned.map Collected.id

def auditFeeJournal (config : Config) (journal : Journal) : Audit Report := do
  throwIf (journal.schemaVersion ≠ 1) .invalidJournal
  reconcileFacilityFees viem config journal

end Turret.FeeIntents
