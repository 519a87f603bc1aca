import Turret.ActiveLoans.Market
import Turret.Library.Tasks
import Turret.Library.Execution

/-! The index of the active loans of one market, in `p2p-loan-index.mjs`.
`pending` lets one call for a market run at a time (a call for the same target
shares its result, any other waits), so that a process is a sequence of calls;
a restart is a new process. Block numbers and offer identifiers are numbers,
hashes are in lower case, and the reads of one batch are made one after the
other. A write that fails leaves the file as it was: it is renamed whole. -/

namespace Turret.ActiveLoans

open Execution Branches Tasks Tasks.Program

inductive Err
  | invalidIdentifier
  | differentBlock
  | busy
  | wrongChain
  | outsideHistory
  | runtimeVerification
  | checkpointMismatch
  | invalidCheckpoint
  | invalidOfferCounter
  | chainChanged
  | pageTooLarge
  | invalidEventPage
  | inconsistentEvents
  | capacityReached
  | invalidLoanState
  | rpc
  | persistence
  deriving DecidableEq

structure Checkpoint (H : Type) where
  blockNumber : ℕ
  blockHash : H
  activeIds : List ℕ
  deriving DecidableEq

/-- What is cached and persisted for a market. -/
structure Saved (H : Type) where
  schemaVersion : ℕ
  chainId : ℕ
  market : Address
  startBlock : ℕ
  runtimeHash : String
  checkpoints : List (Checkpoint H)

structure Registered where
  address : Address
  chainId : ℕ
  startBlock : ℕ
  runtimeHash : String

/-- The configuration, for one registered market, and the hashes. -/
structure Index (H : Type) where
  market : Registered
  persistence : Bool
  pageSize : ℕ
  maxPages : ℕ
  retainedCheckpoints : ℕ
  maxActiveCandidates : ℕ
  maxLogsPerPage : ℕ
  maxConcurrentSync : ℕ
  pageSize_pos : 0 < pageSize
  maxPages_pos : 0 < maxPages
  retained_pos : 0 < retainedCheckpoints
  keccak256 : String → String
  hash : List Block → H

/-- The chain with the chains since the call began, the process, the target of the call that is
pending in it, its cache, and the file. -/
structure World (H : Type) where
  trace : Trace Block
  process : ℕ
  pending : Option (Option ℕ)
  cache : Option (Saved H)
  persisted : Option (Saved H)

structure Loan where
  id : ℕ
  lender : Address
  borrower : Address
  deriving DecidableEq

inductive SyncStatus
  | ready
  | syncing
  deriving DecidableEq

/-- `indexedThrough` is `-1` where nothing is indexed and the market starts at block 0. -/
structure Snapshot (H : Type) where
  blockNumber : ℕ
  blockHash : H
  indexedThrough : ℤ
  complete : Bool
  status : SyncStatus
  loans : List Loan

inductive Query
  | running
  | chainId
  | latestBlock
  | block (number : ℕ)
  | code (block : ℕ)
  | nextOfferId (block : ℕ)
  | logs (fromBlock toBlock : ℕ)
  | offer (id block : ℕ)
  | read
  | write

variable {H : Type}

def Query.Value (H : Type) : Query → Type
  | running => ℕ
  | chainId => ℕ
  | latestBlock => Header H
  | block _ => Header H
  | code _ => Option String
  | nextOfferId _ => ℕ
  | logs _ _ => List (Log H Event)
  | offer _ _ => Offer
  | read => Unit
  | write => Unit

def Answer (H : Type) (q : Query) : Type := Except Err (q.Value H)

abbrev Prog (H : Type) := Program (World H) Query (Answer H) Err

def call (q : Query) : Prog H (q.Value H) := Program.call q

def readRunning : Prog H ℕ := call .running
def getChainId : Prog H ℕ := call .chainId
def getLatest : Prog H (Header H) := call .latestBlock
def getBlock (number : ℕ) : Prog H (Header H) := call (.block number)
def getCode (block : ℕ) : Prog H (Option String) := call (.code block)
def readNextOfferId (block : ℕ) : Prog H ℕ := call (.nextOfferId block)
def getLogs (fromBlock toBlock : ℕ) : Prog H (List (Log H Event)) := call (.logs fromBlock toBlock)
def readOffer (id block : ℕ) : Prog H Offer := call (.offer id block)

variable (x : Index H)

/-! ### Checkpoints -/

def initial : Saved H :=
  ⟨1, x.market.chainId, x.market.address, x.market.startBlock, x.market.runtimeHash, []⟩

/-- The points ascend from `least` on, and each is well formed. -/
def checkPoints : ℕ → List (Checkpoint H) → Except Err Unit
  | _, [] => pure ()
  | least, point :: rest => do
    revertIf (2 ^ 256 ≤ point.blockNumber ∨ ∃ id ∈ point.activeIds, 2 ^ 256 ≤ id) .invalidIdentifier
    revertIf (point.blockNumber < least ∨ x.maxActiveCandidates < point.activeIds.length ∨
      ¬point.activeIds.Nodup ∨ 0 ∈ point.activeIds) .invalidCheckpoint
    checkPoints (point.blockNumber + 1) rest

def validateSaved : Option (Saved H) → Except Err (Saved H)
  | none => pure (initial x)
  | some saved => do
    let expected := initial x
    revertIf (saved.schemaVersion ≠ expected.schemaVersion ∨ saved.chainId ≠ expected.chainId ∨
      saved.market ≠ expected.market ∨ saved.startBlock ≠ expected.startBlock ∨
      saved.runtimeHash ≠ expected.runtimeHash) .checkpointMismatch
    revertIf (x.retainedCheckpoints < saved.checkpoints.length) .invalidCheckpoint
    checkPoints x x.market.startBlock saved.checkpoints
    pure saved

/-- `cache.get`, or else what is persisted. -/
def load : Prog H (Saved H) := do
  let s ← look
  match s.cache with
  | some saved => pure saved
  | none =>
    if x.persistence then do
      call .read
      let s ← look
      lift (validateSaved x s.persisted)
    else lift (validateSaved x none)

/-- What the next call will load, where nothing fails. -/
def World.stored (x : Index H) (s : World H) : Option (Saved H) :=
  s.cache.or (if x.persistence then s.persisted else none)

/-- `persistence.write`, and then `cache.set`. -/
def World.store (x : Index H) (v : Saved H) (s : World H) : World H :=
  { s with persisted := if x.persistence then some v else s.persisted, cache := some v }

def store (v : Saved H) : Prog H Unit :=
  if x.persistence then do
    call .write
    modify (World.store x v)
  else modify (World.store x v)

/-! ### Reading the chain -/

def canonical (number : ℕ) : Prog H (Header H) := do
  let block ← getBlock number
  throwIf (block.number ≠ number) .differentBlock
  pure block

def targetBlock (number : ℕ) (latest : Header H) : Prog H (Header H) :=
  if number = latest.number then pure latest else canonical number

variable [DecidableEq H]

/-- The block is still on the chain. -/
def unchanged (hd : Header H) : Prog H Unit := do
  let observed ← canonical hd.number
  throwIf (observed.hash ≠ hd.hash) .chainChanged

/-- The saved points through the newest one that is on the chain and not above the target, the
newest first. -/
def rewind (target : Header H) : List (Checkpoint H) → Prog H (List (Checkpoint H))
  | [] => pure []
  | point :: older =>
    if target.number < point.blockNumber then rewind target older
    else do
      let observed ← canonical point.blockNumber
      if observed.hash = point.blockHash then pure (point :: older) else rewind target older

/-- The checks of the logs of a page, in the order that the node lists them. -/
def checkLogs (fromBlock toBlock : ℕ) (before : List (Log H Event)) :
    List (Log H Event) → Except Err Unit
  | [] => pure ()
  | log :: rest => do
    revertIf (log.blockNumber < fromBlock ∨ toBlock < log.blockNumber ∨ log.event.id = 0)
      .invalidEventPage
    revertIf (∃ other ∈ before, other.blockNumber = log.blockNumber ∧
      (other.logIndex = log.logIndex ∨ other.blockHash ≠ log.blockHash)) .inconsistentEvents
    checkLogs fromBlock toBlock (before ++ [log]) rest

/-- Every block that a log names is on the chain. -/
def checkBlocks : List (Header H) → Prog H Unit
  | [] => pure ()
  | hd :: rest => do
    unchanged hd
    checkBlocks rest

/-- `active.add` and `active.delete`. -/
def record (active : List ℕ) (e : Event) : List ℕ :=
  match e.eventName with
  | .OfferAccepted => if e.id ∈ active then active else active ++ [e.id]
  | .LoanRepaid => active.filter (· ≠ e.id)
  | .LoanDefaulted => active.filter (· ≠ e.id)

def idsSorted (ids : List ℕ) : List ℕ := ids.insertionSort (· ≤ ·)

/-- `values.slice(-count)`. -/
def lastOf {α : Type} (count : ℕ) (values : List α) : List α := values.drop (values.length - count)

/-- The next block to index, the loans active before it, and the checkpoints to keep. -/
structure Progress (H : Type) where
  next : ℕ
  active : List ℕ
  checkpoints : List (Checkpoint H)

/-- One page. -/
def page (saved : Saved H) (historical : Bool) (target : Header H) (p : Progress H) :
    Prog H (Progress H) := do
  let toBlock := min (p.next + x.pageSize - 1) target.number
  let last ← canonical toBlock
  let logs ← getLogs p.next toBlock
  throwIf (x.maxLogsPerPage < logs.length) .pageTooLarge
  lift (checkLogs p.next toBlock [] logs)
  checkBlocks (logs.map fun log => (⟨log.blockNumber, log.blockHash⟩ : Header H)).eraseDups
  let active := (sortLogs logs).foldl (fun active log => record active log.event) p.active
  throwIf (x.maxActiveCandidates < active.length) .capacityReached
  unchanged ⟨toBlock, last.hash⟩
  unchanged target
  let checkpoints := lastOf x.retainedCheckpoints
    (p.checkpoints ++ [⟨toBlock, last.hash, idsSorted active⟩])
  if historical then pure ⟨toBlock + 1, active, checkpoints⟩
  else do
    store x { saved with checkpoints }
    pure ⟨toBlock + 1, active, checkpoints⟩

def pages (saved : Saved H) (historical : Bool) (target : Header H) :
    ℕ → Progress H → Prog H (Progress H)
  | 0, p => pure p
  | n + 1, p =>
    if p.next ≤ target.number then do
      let p ← page x saved historical target p
      pages saved historical target n p
    else pure p

/-- The candidates that are active at the target. -/
def readLoans (target : Header H) : List ℕ → Prog H (List Loan)
  | [] => pure []
  | id :: rest => do
    let offer ← readOffer id target.number
    throwIf (offer.lender = zero ∨ offer.borrower = zero ∨ offer.status.code < 2 ∨
      4 < offer.status.code) .invalidLoanState
    let loans ← readLoans target rest
    pure (if offer.status = .active then ⟨id, offer.lender, offer.borrower⟩ :: loans else loans)

/-! ### The call -/

/-- No offer has been created at the target. -/
def emptyMarket (saved : Saved H) (target : Header H) : Prog H (Snapshot H) := do
  unchanged target
  if ∃ point ∈ saved.checkpoints, target.number < point.blockNumber then pure ()
  else store x { initial x with checkpoints := [⟨target.number, target.hash, []⟩] }
  unchanged target
  pure ⟨target.number, target.hash, target.number, true, .ready, []⟩

def discover (requested : Option ℕ) (saved : Saved H) (target : Header H) : Prog H (Snapshot H) := do
  let kept ← rewind target saved.checkpoints.reverse
  let checkpoints := kept.reverse
  let start : Progress H :=
    match kept.head? with
    | some point => ⟨point.blockNumber + 1, point.activeIds, checkpoints⟩
    | none => ⟨x.market.startBlock, [], checkpoints⟩
  let historical := decide (requested ≠ none ∧
    ∃ point ∈ saved.checkpoints, target.number < point.blockNumber)
  let p ← pages x saved historical target x.maxPages start
  let loans ← readLoans target (idsSorted p.active)
  unchanged target
  let complete := decide (p.next = target.number + 1)
  pure ⟨target.number, target.hash, p.next - 1, complete, if complete then .ready else .syncing,
    loans⟩

def perform (requested : Option ℕ) : Prog H (Snapshot H) := do
  let chainId ← getChainId
  throwIf (chainId ≠ x.market.chainId) .wrongChain
  let latest ← getLatest
  let number := requested.getD latest.number
  throwIf (latest.number < number ∨ number < x.market.startBlock) .outsideHistory
  let target ← targetBlock number latest
  let code ← getCode target.number
  throwIf (code.map x.keccak256 ≠ some x.market.runtimeHash) .runtimeVerification
  let saved ← load x
  let nextOfferId ← readNextOfferId target.number
  throwIf (nextOfferId < 1 ∨ 2 ^ 256 ≤ nextOfferId) .invalidOfferCounter
  if nextOfferId = 1 then emptyMarket x saved target else discover x requested saved target

/-- `pending.set`; the chains are kept from here on. -/
def World.begin (requested : Option ℕ) (s : World H) : World H :=
  { s with pending := some requested, trace := ⟨s.trace.chain, [s.trace.chain]⟩ }

/-- `pending.delete`. -/
def World.finish (s : World H) : World H := { s with pending := none }

def syncMarket (requested : Option ℕ) : Prog H (Snapshot H) := do
  throwIf (∃ number ∈ requested, 2 ^ 256 ≤ number) .invalidIdentifier
  let running ← readRunning
  throwIf (x.maxConcurrentSync ≤ running) .busy
  modify (World.begin requested)
  (do
    let snapshot ← perform x requested
    modify World.finish
    pure snapshot).orElse fun e => do
      modify World.finish
      .fail e

/-! ### The environment -/

/-- The answers of the node are those of the chain as it is now; the logs may come in any order,
and of a block that the chain does not have it may say anything. -/
def answers (x : Index H) (s : World H) : (q : Query) → Answer H q → Prop
  | .read, .error e => e = .persistence
  | .write, .error e => e = .persistence
  | _, .error e => e = .rpc
  | .latestBlock, .ok hd => hd.number + 1 = s.trace.chain.length ∧ Names x.hash hd s.trace.chain
  | .block number, .ok hd => hd.number = number ∧ Names x.hash hd s.trace.chain
  | .nextOfferId block, .ok next => block < s.trace.chain.length →
      ∀ m, marketAt (s.trace.chain.take (block + 1)) = some m → next = m.nextOfferId
  | .logs fromBlock toBlock, .ok logs =>
      logs.Perm (logsFrom x.hash Block.events fromBlock (toBlock + 1 - fromBlock) s.trace.chain)
  | .offer id block, .ok offer => block < s.trace.chain.length →
      ∀ m, marketAt (s.trace.chain.take (block + 1)) = some m → offer = m.offers id
  | _, .ok _ => True

/-- The chain becomes another one, or a new process starts. -/
inductive Incident
  | chain (c : List Block)
  | restart
  deriving DecidableEq

/-- While a call is pending, the chain does not return to a branch that it has left. -/
def environment (x : Index H) : Incident → World H → Option (World H)
  | .chain c, s =>
    if Lawful x.market.startBlock c ∧ (s.pending = none ∨ Onward s.trace c) then
      some { s with trace := s.trace.move c }
    else none
  | .restart, s => some { s with process := s.process + 1, pending := none, cache := none }

def machine : Machine (World H) Query (Answer H) Err (Snapshot H) ℕ (Option ℕ) Incident where
  call := fun _ requested => syncMarket x requested
  answers := answers x
  env := environment x

end Turret.ActiveLoans
