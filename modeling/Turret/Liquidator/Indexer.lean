import Turret.Library.Branches
import Turret.Library.Ledger
import Turret.Library.Tasks

/-! The discovery of borrowers, in `indexer.mjs` with the tables of `store.mjs`
that it writes. Every statement on the database is one atomic action; the
keeper runs one cycle at a time, and a restart is a new process. Block numbers
are big integers, addresses are in lower case already. -/

namespace Turret.Indexer

open Branches Tasks Tasks.Program

inductive Err
  | rpc
  | reorgDuringIndexing
  | leaseLost
  deriving DecidableEq

structure Pair where
  collateral : Address
  borrower : Address
  deriving DecidableEq

/-- The `Borrowed` logs of the vault in a block, by their positions; `rest` stands for all else that
the hash commits to. -/
structure Block where
  borrowed : List (ℕ × Pair)
  rest : ℕ
  deriving DecidableEq

/-- A log as the node returns it; an argument that it does not decode is missing. -/
structure VaultLog where
  removed : Bool
  collateral : Option Address
  borrower : Option Address
  deriving DecidableEq

structure Deployment (H : Type) where
  startBlock : ℕ
  hash : List Block → H

/-- The configuration of a process. -/
structure Limits where
  logChunk : ℕ
  maxChunksPerCycle : ℕ
  logChunk_pos : 0 < logChunk

/-- The chain with the chains that it has been, the process, and the database: the row `cursor`,
the table `positions`, and whether `assertLease` passes. -/
structure World (H : Type) where
  trace : Trace Block
  process : ℕ
  cursor : Option (Header H)
  positions : List Pair
  leased : Bool

/-- `cursor` is `-1` where nothing is indexed and the vault starts at block 0. -/
structure Sync where
  complete : Bool
  cursor : ℤ
  chunks : ℕ
  reorg : Bool
  deriving DecidableEq

inductive Query
  | head
  | block (number : ℕ)
  | logs (fromBlock toBlock : ℕ)

variable {H : Type}

def Query.Value (H : Type) : Query → Type
  | head => Header H
  | block _ => H
  | logs _ _ => List VaultLog

def Answer (H : Type) (q : Query) : Type := Except Err (q.Value H)

abbrev Prog (H : Type) := Program (World H) Query (Answer H) Err

/-- `chain.select`. -/
def select : Prog H (Header H) := Program.call (R := Query.Value H) Query.head

/-- The hash of the block. -/
def getBlock (number : ℕ) : Prog H H := Program.call (R := Query.Value H) (Query.block number)

/-- The logs of the vault in the blocks, or the error of the request. -/
def getLogs (fromBlock toBlock : ℕ) : Prog H (Except Err (List VaultLog)) :=
  question (Query.logs fromBlock toBlock)

/-! ### The store -/

/-- `INSERT OR IGNORE`. -/
def insertOrIgnore (positions : List Pair) (pair : Pair) : List Pair :=
  if pair ∈ positions then positions else positions ++ [pair]

def World.indexed (pairs : List Pair) (cursor : Header H) (s : World H) : World H :=
  { s with positions := pairs.foldl insertOrIgnore s.positions, cursor := some cursor }

/-- `set('cursor', null)`. -/
def World.forget (s : World H) : World H := { s with cursor := none }

/-- One transaction, which a lost lease rolls back. -/
def indexBatch (pairs : List Pair) (cursor : Header H) : Prog H Unit :=
  attempt fun s => if s.leased then .ok ((), s.indexed pairs cursor) else .error .leaseLost

/-! ### The call -/

def VaultLog.pair (log : VaultLog) : Option Pair :=
  match log.removed, log.borrower, log.collateral with
  | false, some borrower, some collateral => some ⟨collateral, borrower⟩
  | _, _, _ => none

/-- `chunkSize / 2n || 1n`. -/
def halved (chunkSize : ℕ) : ℕ := if chunkSize / 2 = 0 then 1 else chunkSize / 2

/-- How far a chunk size is from the least one; no chunk is empty. -/
def weight (chunkSize : ℕ) : ℕ := if chunkSize = 0 then 2 else chunkSize

theorem weight_halved {chunkSize : ℕ} (more : chunkSize ≠ 1) :
    weight (halved chunkSize) < weight chunkSize := by
  by_cases less : chunkSize / 2 = 0
  · have one : weight (halved chunkSize) = 1 := by rw [halved, if_pos less, weight, if_neg one_ne_zero]
    rw [one, weight]
    split_ifs <;> omega
  · have half : weight (halved chunkSize) = chunkSize / 2 := by
      rw [halved, if_neg less, weight, if_neg less]
    rw [half, weight]
    split_ifs <;> omega

def finished (head : Header H) (reorg : Bool) (fromBlock chunks : ℕ) : Sync :=
  ⟨decide (head.number < fromBlock), fromBlock - 1, chunks, reorg⟩

variable [DecidableEq H]

/-- The loop. A request for logs that fails halves the chunk, and nothing else is retried. -/
def syncChunks (maxChunksPerCycle : ℕ) (head : Header H) (reorg : Bool)
    (fromBlock chunks chunkSize : ℕ) : Prog H Sync :=
  if fromBlock ≤ head.number ∧ chunks < maxChunksPerCycle then do
    let toBlock := min (fromBlock + chunkSize - 1) head.number
    let before ← getBlock toBlock
    let answer ← getLogs fromBlock toBlock
    match answer with
    | .error e =>
      if chunkSize = 1 then .fail e
      else syncChunks maxChunksPerCycle head reorg fromBlock chunks (halved chunkSize)
    | .ok logs => do
      let after ← getBlock toBlock
      throwIf (before ≠ after ∨ toBlock = head.number ∧ after ≠ head.hash) .reorgDuringIndexing
      indexBatch (logs.filterMap VaultLog.pair) ⟨toBlock, after⟩
      syncChunks maxChunksPerCycle head reorg (toBlock + 1) (chunks + 1) chunkSize
  else pure (finished head reorg fromBlock chunks)
termination_by maxChunksPerCycle - chunks + weight chunkSize
decreasing_by
  · exact Nat.add_lt_add_left (weight_halved ‹_›) _
  · omega

/-- The hash of the block of the cursor, if the head has come so far. -/
def canonical (head cursor : Header H) : Prog H (Option H) :=
  if cursor.number ≤ head.number then do
    let hash ← getBlock cursor.number
    pure (some hash)
  else pure none

def syncPositions (x : Deployment H) (limits : Limits) (head : Header H) : Prog H Sync := do
  let s ← look
  match s.cursor with
  | none => syncChunks limits.maxChunksPerCycle head false x.startBlock 0 limits.logChunk
  | some cursor => do
    let hash ← canonical head cursor
    if hash = some cursor.hash then
      syncChunks limits.maxChunksPerCycle head false (cursor.number + 1) 0 limits.logChunk
    else do
      modify World.forget
      syncChunks limits.maxChunksPerCycle head true x.startBlock 0 limits.logChunk

/-- The part of a cycle that discovers borrowers, with the head that it was for. -/
def cycle (x : Deployment H) (limits : Limits) : Prog H (Header H × Sync) := do
  let head ← select
  let sync ← syncPositions x limits head
  pure (head, sync)

/-! ### The environment -/

/-- A log of the chain, as a node returns it. -/
def vaultLog (log : Log H Pair) : VaultLog :=
  ⟨false, some log.event.collateral, some log.event.borrower⟩

/-- The answers of the node are those of the chain as it is now; any request may fail. -/
def answers (x : Deployment H) (s : World H) : (q : Query) → Answer H q → Prop
  | _, .error e => e = .rpc
  | .head, .ok head => Names x.hash head s.trace.chain
  | .block number, .ok hash => Names x.hash ⟨number, hash⟩ s.trace.chain
  | .logs fromBlock toBlock, .ok logs =>
      logs.Perm ((logsFrom x.hash Block.borrowed fromBlock (toBlock + 1 - fromBlock)
        s.trace.chain).map vaultLog)

/-- The chain becomes another one, a new process starts, or the lease is lost or taken. -/
inductive Incident
  | chain (c : List Block)
  | restart
  | lease (held : Bool)

/-- The chain never returns to a branch that it has left. -/
def environment : Incident → World H → Option (World H)
  | .chain c, s => if Onward s.trace c then some { s with trace := s.trace.move c } else none
  | .restart, s => some { s with process := s.process + 1 }
  | .lease held, s => some { s with leased := held }

def machine (x : Deployment H) :
    Machine (World H) Query (Answer H) Err (Header H × Sync) ℕ Limits Incident where
  call := fun _ limits => cycle x limits
  answers := answers x
  env := environment

end Turret.Indexer
