import Turret.Cashback.Accounting

/-! `CashbackLedger`, the durable history of the service, and the polling pass
that fills it. The database is one connection: a transaction that fails leaves
the tables as they were. The checkpoints handed over for protection are kept
beside the tables, to speak about them. -/

namespace Turret.Cashback

open Execution Function

inductive LedgerError
  | invalidCanonicalBlock
  | reorganizationAffectsPublished
  | disconnectedBlock
  | disconnectedHistoricalRange
  | invalidHistoricalRangeBlock
  | publicationNotAnchored
  | constraintFailed
  | accounting (e : ReplayError)
  deriving DecidableEq

structure Block where
  number : ℕ
  hash : String
  parentHash : String
  timestamp : ℕ
  receipts : List Receipt

/-- A row of the table `publications`. -/
structure Publication where
  root : String
  throughBlock : ℕ
  blockHash : String
  deriving DecidableEq

structure Ledger where
  policy : Policy
  startBlock : ℕ
  /-- The table `blocks`, by ascending number. -/
  blocks : List Block
  publications : List Publication
  /-- Every checkpoint that `protectPublication` accepted. -/
  checkpoints : List Publication

namespace Ledger

def head (s : Ledger) : Option Block := s.blocks.getLast?

def block (number : ℕ) (s : Ledger) : Option Block :=
  s.blocks.find? fun b => b.number = number

/-- `accounts`: the replay of all stored receipts up to the head. -/
def accounts (s : Ledger) : Except LedgerError (List Row) :=
  (accountReceipts s.policy (s.blocks.flatMap Block.receipts)
    (s.head.map Block.timestamp)).mapError .accounting

/-- `INSERT INTO blocks`; the number is the primary key. -/
def insertBlock (b : Block) (s : Ledger) : Except LedgerError Ledger := do
  revertIf (s.block b.number).isSome .constraintFailed
  pure { s with blocks := s.blocks.orderedInsert (fun x y => x.number ≤ y.number) b }

def deleteFrom (number : ℕ) (s : Ledger) : Ledger :=
  { s with blocks := s.blocks.filter fun b => b.number < number }

/-- `INSERT OR IGNORE INTO publications`; the root is the primary key. -/
def insertPublication (p : Publication) (s : Ledger) : Ledger :=
  { s with
    publications :=
      if s.publications.any fun row => row.root = p.root then s.publications
      else s.publications ++ [p]
    checkpoints := s.checkpoints ++ [p] }

def protectPublication (p : Publication) (s : Ledger) : Except LedgerError Ledger := do
  revertIf ((s.block p.throughBlock).map Block.hash ≠ some p.blockHash) .publicationNotAnchored
  pure (s.insertPublication p)

def Event.publication : Event → Option Publication
  | .published root throughBlock blockHash => some ⟨root, throughBlock, blockHash⟩
  | _ => none

/-- The `Published` events of a block, in order. -/
def published (b : Block) : List Publication :=
  (b.receipts.flatMap Receipt.events).filterMap Event.publication

def protectAll (ps : List Publication) (s : Ledger) : Except LedgerError Ledger :=
  ps.foldlM (fun s p => protectPublication p s) s

def parentOf (b : Block) (s : Ledger) : Option Block :=
  if b.number = 0 then none else s.block (b.number - 1)

/-- The `DELETE` of a block that is replaced, and of all above it. -/
def withoutReplaced (b : Block) (s : Ledger) : Ledger :=
  if (s.block b.number).isSome then s.deleteFrom b.number else s

def checkAccounts (receipts : List Receipt) (s : Ledger) : Except LedgerError Unit :=
  if receipts = [] then pure ()
  else do
    let _ ← s.accounts
    pure ()

/-- The checks of `ingest` on a block that is not stored yet. -/
def checkConnected (b : Block) (s : Ledger) : Except LedgerError Unit := do
  let existing := s.block b.number
  revertIf (existing.isSome ∧ ∃ p ∈ s.publications, b.number ≤ p.throughBlock)
    .reorganizationAffectsPublished
  let parent := s.parentOf b
  revertIf
    (b.number ≠ s.startBlock ∧
        (parent = none ∨ parent.map Block.hash ≠ some b.parentHash ∨
          ∃ p ∈ parent, b.timestamp < p.timestamp) ∨
      b.number = s.startBlock ∧ ∃ e ∈ existing, b.parentHash ≠ e.parentHash)
    .disconnectedBlock

/-- The statements of `ingest`; those before `BEGIN` write nothing. -/
def ingestBody (b : Block) (s : Ledger) : Except LedgerError Ledger := do
  revertIf (MAX_SAFE_INTEGER < b.number ∨ b.number < s.startBlock ∨ b.hash = "" ∨
    b.parentHash = "" ∨ MAX_SAFE_INTEGER < b.timestamp ∨
    ∃ r ∈ b.receipts, r.timestamp ≠ b.timestamp) .invalidCanonicalBlock
  if (s.block b.number).map Block.hash = some b.hash then pure s
  else do
    s.checkConnected b
    let s ← (s.withoutReplaced b).insertBlock b
    s.checkAccounts b.receipts
    s.protectAll (published b)

/-- The checks of `ingestRange` on its blocks, each against the one before it. -/
def checkRange (first last : ℕ) : Option Block → List Block → Except LedgerError Unit
  | _, [] => pure ()
  | previous, b :: rest => do
    revertIf (MAX_SAFE_INTEGER < b.number ∨ b.number < first ∨ last < b.number ∨ b.hash = "" ∨
      b.parentHash = "" ∨ MAX_SAFE_INTEGER < b.timestamp ∨
      (∃ r ∈ b.receipts, r.timestamp ≠ b.timestamp) ∨
      ∃ p ∈ previous, b.number ≤ p.number ∨ b.timestamp < p.timestamp ∨
        b.number = p.number + 1 ∧ b.parentHash ≠ p.hash) .invalidHistoricalRangeBlock
    checkRange first last (some b) rest

structure Range where
  first : ℕ
  last : ℕ
  blocks : List Block

def ingestRangeBody (range : Range) (s : Ledger) : Except LedgerError Ledger := do
  revertIf (MAX_SAFE_INTEGER < range.first ∨ MAX_SAFE_INTEGER < range.last ∨
    range.last < range.first ∨
    range.first ≠ s.head.elim s.startBlock (fun b => b.number + 1) ∨
    range.blocks.head?.map Block.number ≠ some range.first ∨
    range.blocks.getLast?.map Block.number ≠ some range.last) .disconnectedHistoricalRange
  checkRange range.first range.last s.head range.blocks
  let s ← range.blocks.foldlM (fun s b => s.insertBlock b) s
  let _ ← s.accounts
  s.protectAll (range.blocks.flatMap published)

/-- `COMMIT`, or `ROLLBACK` and the error. -/
def transaction (body : Ledger → Except LedgerError Ledger) (s : Ledger) :
    Ledger × Except LedgerError Unit :=
  match body s with
  | .ok t => (t, .ok ())
  | .error e => (s, .error e)

inductive Call
  | ingest (b : Block)
  | ingestRange (range : Range)
  | protectPublication (p : Publication)

def Call.body : Call → Ledger → Except LedgerError Ledger
  | .ingest b => ingestBody b
  | .ingestRange range => ingestRangeBody range
  | .protectPublication p => Ledger.protectPublication p

def Call.exec (call : Call) (s : Ledger) : Ledger × Except LedgerError Unit :=
  transaction call.body s

/-- A fresh database, when the constructor accepts the policy. -/
def constructed (policy : Policy) (startBlock : ℕ) : Except LedgerError Ledger := do
  revertIf (MAX_SAFE_INTEGER < startBlock) .invalidCanonicalBlock
  let _ ← (accountReceipts policy [] none).mapError .accounting
  pure ⟨policy, startBlock, [], [], []⟩

end Ledger

end Turret.Cashback
