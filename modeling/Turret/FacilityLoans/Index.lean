import Mathlib.Data.List.DropRight
import Turret.FacilityLoans.Facility
import Turret.Library.Tasks
import Turret.Library.Execution

/-! The index of the loans of one facility, in `facility-loan-index.mjs`. The
processes share one database; `pending` is the memory of a process, in which a
listing joins the update that is running. The registry has resolved the
facility. Numbers are padded in the database, so that their order is that of
the numbers; hashes are in lower case. A transaction that throws is rolled
back, and so is that of a process that crashes. -/

namespace Turret.FacilityLoans

open Execution Branches Tasks Tasks.Program

inductive Err
  | busy
  | invalidWallet
  | invalidPage
  | wrongChain
  | unavailable
  | identityChanged
  | differentBlock
  | outOfRange
  | configurationChanged
  | invalidCheckpoint
  | pageTooLarge
  | invalidEvent
  | inconsistentEvents
  | chainChanged
  | missingEvent
  | countMismatch
  | updatedConcurrently
  | constraint
  | unverifiedRow
  | changedDuringPagination
  | rpc
  | database
  deriving DecidableEq

/-- The registered facility, and what the index is bound to. -/
structure Entry where
  chainId : ℕ
  address : Address
  runtimeHash : String
  lender : Address
  startBlock : ℕ
  deriving DecidableEq

/-- The configuration, for one facility, and the hashes. -/
structure Index (H : Type) where
  entry : Entry
  pageBlocks : ℕ
  maxPages : ℕ
  retainedCheckpoints : ℕ
  pageBlocks_pos : 0 < pageBlocks
  maxPages_pos : 0 < maxPages
  retained_pos : 0 < retainedCheckpoints
  keccak256 : String → String
  hash : List Block → H

structure Checkpoint (H : Type) where
  number : ℕ
  hash : H
  lastId : ℕ
  deriving DecidableEq

/-- A row of `facility_history_meta`. -/
structure Meta (H : Type) where
  binding : Entry
  revision : ℕ
  checkpoints : List (Checkpoint H)
  historyEpoch : ℕ

/-- The rows of the facility. -/
structure Database (H : Type) where
  info : Option (Meta H)
  rows : List Row

structure Saved (H : Type) where
  revision : ℕ
  historyEpoch : ℕ
  checkpoints : List (Checkpoint H)

/-- The result of an update; `indexedThrough` is `-1` where nothing is indexed from block 0 on. -/
structure Snapshot (H : Type) where
  blockNumber : ℕ
  blockHash : H
  blockTimestamp : ℕ
  indexedThrough : ℤ
  complete : Bool
  historyEpoch : ℕ
  revision : ℕ

structure LoanRow where
  id : ℕ
  borrower : Address
  principal : ℕ
  interest : ℕ
  dueAt : ℕ
  status : Status
  deriving DecidableEq

inductive SyncStatus
  | ready
  | syncing
  deriving DecidableEq

structure Page (H : Type) where
  schemaVersion : ℕ
  chainId : ℕ
  facility : Address
  account : Address
  blockNumber : ℕ
  blockHash : H
  indexedThrough : ℤ
  complete : Bool
  historyEpoch : ℕ
  checkedAt : ℕ
  status : SyncStatus
  rows : List LoanRow
  nextCursor : Option ℕ

/-- A process, and a request in it. -/
abbrev Task := ℕ × ℕ

/-- The chain, with the chains that it has been since an update began. The updates have numbers: a
number is the task that began it, the update that is pending in a process, and its result. -/
structure World (H : Type) where
  chain : List Block
  seen : ℕ → List (List Block)
  updates : List ℕ
  owner : ℕ → Task
  count : ℕ
  pending : ℕ → Option ℕ
  settled : ℕ → Option (Except Err (Snapshot H))
  crashed : List ℕ
  db : Database H

inductive Query
  | active
  | activeListings
  | now
  | chainId
  | latestBlock
  | block (number : ℕ)
  | code (block : ℕ)
  | logs (fromBlock toBlock : ℕ)
  | nextLoanId (block : ℕ)
  | loan (id block : ℕ)
  | transaction
  | settled (update : ℕ)

variable {H : Type}

def Query.Value (H : Type) : Query → Type
  | active => ℕ
  | activeListings => ℕ
  | now => ℕ
  | chainId => ℕ
  | latestBlock => Header H × ℕ
  | block _ => Header H
  | code _ => Option String
  | logs _ _ => List (Log H LoanOpened)
  | nextLoanId _ => ℕ
  | loan _ _ => Loan
  | transaction => Unit
  | settled _ => Snapshot H

def Answer (H : Type) (q : Query) : Type := Except Err (q.Value H)

abbrev Prog (H : Type) := Program (World H) Query (Answer H) Err

def call (q : Query) : Prog H (q.Value H) := Program.call q

def readActive : Prog H ℕ := call .active
def readListings : Prog H ℕ := call .activeListings
def now : Prog H ℕ := call .now
def getChainId : Prog H ℕ := call .chainId
def getLatest : Prog H (Header H × ℕ) := call .latestBlock
def getBlock (number : ℕ) : Prog H (Header H) := call (.block number)
def getCode (block : ℕ) : Prog H (Option String) := call (.code block)
def getLogs (fromBlock toBlock : ℕ) : Prog H (List (Log H LoanOpened)) :=
  call (.logs fromBlock toBlock)
def readNextLoanId (block : ℕ) : Prog H ℕ := call (.nextLoanId block)
def readLoan (id block : ℕ) : Prog H Loan := call (.loan id block)
def transaction : Prog H Unit := call .transaction
def awaitSettled (update : ℕ) : Prog H (Snapshot H) := call (.settled update)

variable (x : Index H)

/-- `Math.abs(Date.now() - timestamp * 1000) >= 30000`. -/
def Stale (now timestamp : ℕ) : Prop := 30000 ≤ ((now : ℤ) - timestamp * 1000).natAbs

instance (now timestamp : ℕ) : Decidable (Stale now timestamp) :=
  inferInstanceAs (Decidable (_ ≤ _))

/-! ### The database -/

/-- `metadata.get`, which throws at an integer that is not safe. -/
def metadata (db : Database H) : Except Err (Option (Meta H)) := do
  revertIf (∃ m ∈ db.info, 2 ^ 53 ≤ m.revision ∨ 2 ^ 53 ≤ m.historyEpoch) .outOfRange
  pure db.info

/-- The points ascend, from the block `least` and the loan `lastId` on. -/
def checkPoints : ℕ → ℕ → List (Checkpoint H) → Except Err Unit
  | _, _, [] => pure ()
  | least, lastId, point :: rest => do
    revertIf (2 ^ 256 ≤ point.number ∨ 2 ^ 256 ≤ point.lastId ∨ point.number < least ∨
      point.lastId < lastId) .invalidCheckpoint
    checkPoints (point.number + 1) point.lastId rest

def savedState (db : Database H) : Except Err (Saved H) := do
  let info ← metadata db
  match info with
  | none => pure ⟨0, 0, []⟩
  | some saved => do
    revertIf (saved.binding ≠ x.entry) .configurationChanged
    revertIf (2 ^ 53 ≤ saved.revision ∨ saved.revision < 1 ∨ 2 ^ 53 ≤ saved.historyEpoch ∨
      x.retainedCheckpoints < saved.checkpoints.length) .invalidCheckpoint
    checkPoints x.entry.startBlock 0 saved.checkpoints
    pure ⟨saved.revision, saved.historyEpoch, saved.checkpoints⟩

/-- `DELETE ... WHERE opened_block > rewindTo`, where the block after `rewindTo` is `next`. -/
def Database.truncate (next : ℕ) (db : Database H) : Database H :=
  { db with rows := db.rows.filter (·.openedBlock < next) }

/-- `INSERT`, under the primary key. -/
def Database.put (db : Database H) (row : Row) : Except Err (Database H) := do
  revertIf (∃ other ∈ db.rows, other.id = row.id) .constraint
  pure { db with rows := db.rows ++ [row] }

/-- `INSERT ... ON CONFLICT DO UPDATE`, which leaves the binding. -/
def Database.saveMeta (m : Meta H) (db : Database H) : Database H :=
  { db with info := some { m with binding := (db.info.map Meta.binding).getD m.binding } }

/-- `ORDER BY id DESC`. -/
def newestFirst (rows : List Row) : List Row := rows.insertionSort fun a b => b.id ≤ a.id

/-- The rows of the lender are all, and those of any other account its own. -/
def Mine (account : Address) (row : Row) : Prop :=
  account = x.entry.lender ∨ row.borrower = account

instance (account : Address) (row : Row) : Decidable (Mine x account row) :=
  inferInstanceAs (Decidable (_ ∨ _))

/-- `ownerPage` and `borrowerPage`. -/
def candidatesOf (account : Address) (cursor : ℕ) (db : Database H) : List Row :=
  (newestFirst (db.rows.filter fun row => Mine x account row ∧ row.id < cursor)).take 21

/-! ### Reading the chain -/

def canonical (number : ℕ) : Prog H (Header H) := do
  let block ← getBlock number
  throwIf (block.number ≠ number) .differentBlock
  pure block

/-- The block after `through`, the last loan, the checkpoints to keep, and the rows to add. -/
structure Progress (H : Type) where
  next : ℕ
  lastId : ℕ
  checkpoints : List (Checkpoint H)
  discovered : List Row

/-- What a page through `toBlock` adds. -/
def Progress.extend (p : Progress H) (toBlock : ℕ) (hash : H) (found : ℕ × List Row) : Progress H :=
  ⟨toBlock + 1, found.1,
    (p.checkpoints ++ [Checkpoint.mk toBlock hash found.1]).rtake x.retainedCheckpoints,
    p.discovered ++ found.2⟩

variable [DecidableEq H]

/-- The block is still on the chain. -/
def unchanged (hd : Header H) : Prog H Unit := do
  let observed ← canonical hd.number
  throwIf (observed.hash ≠ hd.hash) .chainChanged

/-- The saved points through the newest one that is on the chain and not above the target, the
newest first. -/
def rewind (target : Header H) : List (Checkpoint H) → Prog H (List (Checkpoint H))
  | [] => pure []
  | point :: older =>
    if target.number < point.number then rewind target older
    else do
      let observed ← canonical point.number
      if observed.hash = point.hash then pure (point :: older) else rewind target older

/-- The checks of the logs of a page, in the order that the node lists them. -/
def checkLogs (fromBlock toBlock : ℕ) (before : List (Log H LoanOpened)) :
    List (Log H LoanOpened) → Except Err Unit
  | [] => pure ()
  | log :: rest => do
    revertIf (log.blockNumber < fromBlock ∨ toBlock < log.blockNumber ∨ log.event.borrower = zero)
      .invalidEvent
    revertIf (∃ other ∈ before, other.blockNumber = log.blockNumber ∧
      (other.logIndex = log.logIndex ∨ other.blockHash ≠ log.blockHash)) .inconsistentEvents
    checkLogs fromBlock toBlock (before ++ [log]) rest

/-- Every block that a log names is on the chain. -/
def checkBlocks : List (Header H) → Prog H Unit
  | [] => pure ()
  | hd :: rest => do
    unchanged hd
    checkBlocks rest

/-- The logs continue the numbers; the last number, and the rows. -/
def discover : ℕ → List (Log H LoanOpened) → Except Err (ℕ × List Row)
  | lastId, [] => pure (lastId, [])
  | lastId, log :: rest => do
    revertIf (log.event.id ≠ lastId + 1) .missingEvent
    let found ← discover log.event.id rest
    pure (found.1, rowOf log :: found.2)

/-- One page. -/
def page (target : Header H) (p : Progress H) : Prog H (Progress H) := do
  let toBlock := min (p.next + x.pageBlocks - 1) target.number
  let last ← canonical toBlock
  let logs ← getLogs p.next toBlock
  throwIf (20000 < logs.length) .pageTooLarge
  lift (checkLogs p.next toBlock [] logs)
  checkBlocks (logs.map fun log => (⟨log.blockNumber, log.blockHash⟩ : Header H)).eraseDups
  let found ← lift (discover p.lastId (sortLogs logs))
  let next ← readNextLoanId toBlock
  throwIf (next ≠ found.1 + 1) .countMismatch
  unchanged ⟨toBlock, last.hash⟩
  unchanged target
  pure (p.extend x toBlock last.hash found)

def pages (target : Header H) : ℕ → Progress H → Prog H (Progress H)
  | 0, p => pure p
  | n + 1, p =>
    if p.next ≤ target.number then do
      let p ← page x target p
      pages target n p
    else pure p

/-! ### The update -/

/-- What the transaction does: the rows after `rewound` are replaced by those discovered. -/
def replaceRows (saved : Saved H) (rewound : ℕ) (p : Progress H) (historyEpoch : ℕ)
    (db : Database H) : Except Err (Database H) := do
  let info ← metadata db
  revertIf ((info.map Meta.revision).getD 0 ≠ saved.revision) .updatedConcurrently
  let db ← p.discovered.foldlM Database.put (db.truncate rewound)
  pure (db.saveMeta ⟨x.entry, saved.revision + 1, p.checkpoints, historyEpoch⟩)

def commit (saved : Saved H) (rewound : ℕ) (p : Progress H) (historyEpoch : ℕ) : Prog H Unit := do
  transaction
  attempt fun s => do
    let db ← replaceRows x saved rewound p historyEpoch s.db
    pure ((), { s with db })

/-- Where the update starts, after the newest checkpoint that is kept. -/
def startAt (kept : List (Checkpoint H)) : Progress H :=
  match kept.head? with
  | some point => ⟨point.number + 1, point.lastId, kept.reverse, []⟩
  | none => ⟨x.entry.startBlock, 0, kept.reverse, []⟩

def perform : Prog H (Snapshot H) := do
  let chainId ← getChainId
  throwIf (chainId ≠ x.entry.chainId) .wrongChain
  let (target, timestamp) ← getLatest
  let time ← now
  throwIf (target.number < x.entry.startBlock ∨ Stale time timestamp) .unavailable
  let code ← getCode target.number
  throwIf (code.map x.keccak256 ≠ some x.entry.runtimeHash) .identityChanged
  let s ← look
  let saved ← lift (savedState x s.db)
  let kept ← rewind target saved.checkpoints.reverse
  let start := startAt x kept
  let p ← pages x target x.maxPages start
  unchanged target
  let historyEpoch := saved.historyEpoch + if kept.length < saved.checkpoints.length then 1 else 0
  let result := Snapshot.mk target.number target.hash timestamp (p.next - 1)
    (decide (p.next = target.number + 1)) historyEpoch
  if p.next = start.next ∧ kept.length = saved.checkpoints.length ∧ 0 < saved.revision then
    pure (result saved.revision)
  else do
    commit x saved start.next p historyEpoch
    pure (result (saved.revision + 1))

/-! ### The request -/

/-- `pending.set`; the chains are kept from here on. -/
def World.begin (i : Task) (s : World H) : World H :=
  { s with
    seen := Function.update s.seen s.count [s.chain]
    updates := s.count :: s.updates
    owner := Function.update s.owner s.count i
    count := s.count + 1
    pending := Function.update s.pending i.1 (some s.count) }

/-- `pending.delete`, and the result for all that wait for it. -/
def World.settle (process update : ℕ) (r : Except Err (Snapshot H)) (s : World H) : World H :=
  { s with
    updates := s.updates.filter (· ≠ update)
    pending := Function.update s.pending process none
    settled := Function.update s.settled update (some r) }

/-- The update that a request waits for. -/
inductive Entered
  | own (update : ℕ)
  | joined (update : ℕ)

/-- Join the update that is pending, or begin one. -/
def enter (i : Task) (active : ℕ) (s : World H) : Except Err (Entered × World H) :=
  match s.pending i.1 with
  | some update => .ok (.joined update, s)
  | none => if 4 ≤ active then .error .busy else .ok (.own s.count, s.begin i)

def runUpdate (i : Task) (update : ℕ) : Prog H (Snapshot H) :=
  (do
    let snapshot ← perform x
    modify (World.settle i.1 update (.ok snapshot))
    pure snapshot).orElse fun e => do
      modify (World.settle i.1 update (.error e))
      .fail e

def sync (i : Task) : Prog H (Snapshot H) := do
  let active ← readActive
  let entered ← attempt (enter i active)
  match entered with
  | .joined update => awaitSettled update
  | .own update => runUpdate x i update

def readRows (block : ℕ) : List Row → Prog H (List LoanRow)
  | [] => pure []
  | row :: rest => do
    let loan ← readLoan row.id block
    throwIf (loan.borrower ≠ row.borrower ∨ loan.vault = zero ∨ loan.status.code < 1 ∨
      3 < loan.status.code) .unverifiedRow
    let rows ← readRows block rest
    pure (⟨row.id, loan.borrower, loan.principal, loan.interest, loan.dueAt, loan.status⟩ :: rows)

def list (i : Task) (account : Address) (before : Option ℕ) : Prog H (Page H) := do
  let listings ← readListings
  throwIf (8 ≤ listings) .busy
  throwIf (account = zero) .invalidWallet
  let cursor := before.getD (2 ^ 256 - 1)
  throwIf (2 ^ 256 ≤ cursor ∨ cursor < 1) .invalidPage
  let snapshot ← sync x i
  let s ← look
  let candidates := candidatesOf x account cursor s.db
  let rows ← readRows snapshot.blockNumber (candidates.take 20)
  let observed ← canonical snapshot.blockNumber
  let s ← look
  let info ← lift (metadata s.db)
  let time ← now
  throwIf (observed.hash ≠ snapshot.blockHash ∨ info.map Meta.revision ≠ some snapshot.revision ∨
    Stale time snapshot.blockTimestamp) .changedDuringPagination
  let time ← now
  pure {
    schemaVersion := 1
    chainId := x.entry.chainId
    facility := x.entry.address
    account
    blockNumber := snapshot.blockNumber
    blockHash := snapshot.blockHash
    indexedThrough := snapshot.indexedThrough
    complete := snapshot.complete
    historyEpoch := snapshot.historyEpoch
    checkedAt := time
    status := if snapshot.complete then .ready else .syncing
    rows
    nextCursor := if 20 < candidates.length then rows.getLast?.map LoanRow.id else none }

/-! ### The environment -/

/-- The answers of the node are those of the chain as it is now; the logs may come in any order,
and of a block that the chain does not have it may say anything. -/
def answers (x : Index H) (s : World H) : (q : Query) → Answer H q → Prop
  | .settled update, a => s.settled update = some a
  | .active, .error _ => False
  | .activeListings, .error _ => False
  | .now, .error _ => False
  | .transaction, .error e => e = .database
  | _, .error e => e = .rpc
  | .latestBlock, .ok latest => latest.1.number + 1 = s.chain.length ∧ Names x.hash latest.1 s.chain
  | .block number, .ok hd => hd.number = number ∧ Names x.hash hd s.chain
  | .logs fromBlock toBlock, .ok logs =>
      logs.Perm (logsFrom x.hash Block.events fromBlock (toBlock + 1 - fromBlock) s.chain)
  | .nextLoanId block, .ok next => block < s.chain.length →
      ∀ f, facilityAt (s.chain.take (block + 1)) = some f → next = f.nextLoanId
  | .loan id block, .ok loan => block < s.chain.length →
      ∀ f, facilityAt (s.chain.take (block + 1)) = some f → loan = f.loans id
  | _, .ok _ => True

/-- The chain becomes another one, or a process crashes. -/
inductive Incident
  | chain (c : List Block)
  | crash (process : ℕ)
  deriving DecidableEq

/-- What an update has seen. -/
def World.trace (s : World H) (update : ℕ) : Trace Block := ⟨s.chain, s.seen update⟩

/-- The chain returns to no branch that it has left while an update runs; the updates of a process
end with it. -/
def environment (x : Index H) : Incident → World H → Option (World H)
  | .chain c, s =>
    if Lawful x.entry.startBlock c ∧ ∀ update ∈ s.updates, Onward (s.trace update) c then
      some { s with chain := c, seen := fun update => c :: s.seen update }
    else none
  | .crash process, s => some { s with
      crashed := process :: s.crashed
      updates := s.updates.filter fun update => (s.owner update).1 ≠ process }

def machine : Machine (World H) Query (Answer H) Err (Page H) Task (Address × Option ℕ) Incident where
  call := fun i request => list x i request.1 request.2
  answers := answers x
  env := environment x

end Turret.FacilityLoans
