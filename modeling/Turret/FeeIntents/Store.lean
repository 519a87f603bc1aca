import Turret.FeeIntents.Attribution
import Turret.Library.Tasks

/-! The fee-intent store, `facility-fee-intents.mjs`. Handles of several
processes share one database; a call reads it, asks the chain and then changes
it in one transaction, which is rolled back where it throws. A process that
crashes is one that is not scheduled again. The audits that were made are kept
beside the state, for the theorems alone. -/

namespace Turret.FeeIntents

open Execution Tasks Tasks.Program Client HexText

inductive State
  | reserved
  | cancelled
  | signing
  | submitted
  | confirmed
  deriving DecidableEq

/-- `state IN ('reserved','signing','submitted')`. -/
def State.active : State → Bool
  | reserved | signing | submitted => true
  | cancelled | confirmed => false

structure Intent where
  id : String
  state : State
  createdAt : ℕ
  sourceCollectionIds : List String
  gross : ℕ
  plan : Plan
  auditBlock : ℕ
  auditHash : Hash
  nonce : Option ℕ
  hash : Option Hash
  confirmedAt : Option ℕ
  confirmationBlock : Option ℕ
  confirmationHash : Option Hash
  deriving DecidableEq

/-- The row of `fee_journal`. -/
structure JournalRow where
  identity : String
  revision : ℕ
  payload : Journal
  deriving DecidableEq

structure Database where
  journal : Option JournalRow
  intents : List Intent

/-- What is hashed: the options of a store, and the two values that are compared by their hashes. -/
inductive Value
  | options (config : Config) (journal : Journal)
  | ids (ids : List String)
  | plan (plan : Option Plan)

structure Platform where
  viem : Viem
  fingerprint : Value → String

/-- The handle of a process on the store, and the number of a call on it. -/
abbrev Task := ℕ × ℕ

/-- An audit that a call has made, with the answers of the chain to it. -/
structure AuditRecord where
  task : Task
  config : Config
  journal : Journal
  answers : ChainClient

structure World where
  db : Database
  opened : ℕ → Option Config
  audits : List AuditRecord

/-! ### The statements -/

namespace Database

variable (db : Database)

def snapshot : Except Err JournalRow := orRevert db.journal .database

def get (id : String) : Except Err Intent :=
  orRevert (db.intents.find? (·.id = id)) .unknownIntent

def active : Option Intent := db.intents.find? (·.state.active)

/-- The index `fee_one_active`. -/
def oneActive (intents : List Intent) : Bool := decide ((intents.filter (·.state.active)).length ≤ 1)

def insert (intent : Intent) : Except Err Database := do
  revertIf (intent.id ∈ db.intents.map Intent.id) .constraint
  revertIf (oneActive (db.intents ++ [intent]) = false) .constraint
  .ok { db with intents := db.intents ++ [intent] }

/-- The intents with one replaced. -/
def put (intent : Intent) (intents : List Intent) : List Intent :=
  intents.map fun other => if other.id = intent.id then intent else other

def update (intent : Intent) : Except Err Database := do
  revertIf (oneActive (put intent db.intents) = false) .constraint
  .ok { db with intents := put intent db.intents }

def requireState (id : String) (state : State) : Except Err Intent := do
  let intent ← db.get id
  revertIf (intent.state ≠ state) .unexpectedState
  .ok intent

def requireRevision (revision : ℕ) : Except Err Unit := do
  let row ← db.snapshot
  revertIf (row.revision ≠ revision) .journalChanged

def openJournal (identity : String) (journal : Journal) : Except Err Database :=
  match db.journal with
  | some row => do
    revertIf (row.identity ≠ identity) .identityChanged
    .ok db
  | none => .ok { db with journal := some ⟨identity, 0, journal⟩ }

def reserve (saved : JournalRow) (report : Report) (plan : Plan) (id : String) (now : ℕ) :
    Except Err (Intent × Database) := do
  db.requireRevision saved.revision
  revertIf (db.active ≠ none) .alreadyActive
  let intent : Intent := {
    id := id
    state := .reserved
    createdAt := now
    sourceCollectionIds := report.sourceCollectionIds
    gross := report.gross
    plan := plan
    auditBlock := report.blockNumber
    auditHash := report.blockHash
    nonce := none
    hash := none
    confirmedAt := none
    confirmationBlock := none
    confirmationHash := none }
  let after ← db.insert intent
  .ok (intent, after)

def cancelReserved (id : String) : Except Err (Intent × Database) := do
  let intent ← db.requireState id .reserved
  let changed := { intent with state := .cancelled }
  let after ← db.update changed
  .ok (changed, after)

def beginSigning (saved : JournalRow) (report : Report) (nonce : ℕ) (id : String) :
    Except Err (Intent × Database) := do
  db.requireRevision saved.revision
  let intent ← db.requireState id .reserved
  let changed := { intent with
    state := .signing, nonce := some nonce,
    auditBlock := report.blockNumber, auditHash := report.blockHash }
  let after ← db.update changed
  .ok (changed, after)

def recordSubmission (id : String) (hash : Hash) : Except Err (Intent × Database) := do
  let intent ← db.get id
  revertIf (intent.state ≠ .signing ∧ intent.state ≠ .submitted) .changedDuringRecovery
  let changed := { intent with state := .submitted, hash := some hash }
  let after ← db.update changed
  .ok (changed, after)

def confirm (saved : JournalRow) (next : Journal) (report : Report) (hash : Option Hash)
    (now : ℕ) (id : String) : Except Err (Intent × Database) := do
  db.requireRevision saved.revision
  let intent ← db.requireState id .submitted
  revertIf (intent.hash ≠ hash) .changedDuringConfirmation
  let changed := { intent with
    state := .confirmed, confirmedAt := some now,
    confirmationBlock := some report.blockNumber, confirmationHash := some report.blockHash }
  let row ← db.snapshot
  let after ← { db with journal := some ⟨row.identity, row.revision + 1, next⟩ : Database }.update
    changed
  .ok (changed, after)

end Database

/-! ### The calls -/

inductive Query
  | client
  | begin
  | now
  | uuid
  deriving DecidableEq

def Query.Result : Query → Type
  | client => ChainClient
  | begin => Unit
  | now => ℕ
  | uuid => String

abbrev Prog := Program World Query (fun q => Except Err q.Result) Err

variable (P : Platform)

def call (q : Query) : Prog q.Result := Program.call q

/-- The client's next answers. -/
def client : Prog ChainClient := call .client
def begin : Prog Unit := call .begin
def now : Prog ℕ := call .now
def randomUUID : Prog String := call .uuid

/-- A read outside of a transaction. -/
def reads {α : Type} (f : World → Except Err α) : Prog α := do
  let world ← look
  lift (f world)

def config (i : Task) : Prog Config :=
  reads fun world => orRevert (world.opened i.1) .invalidOptions

def snapshot : Prog JournalRow := reads fun world => world.db.snapshot

def get (id : String) : Prog Intent := reads fun world => world.db.get id

def requireState (id : String) (state : State) : Prog Intent :=
  reads fun world => world.db.requireState id state

/-- `BEGIN IMMEDIATE` may find the database busy. -/
def transaction {α : Type} (body : Database → Except Err (α × Database)) : Prog α := do
  begin
  attempt fun world => (body world.db).map fun result => (result.1, { world with db := result.2 })

def audit (i : Task) (config : Config) (journal : Journal) : Prog Report := do
  let answers ← client
  modify fun world => { world with audits := world.audits ++ [⟨i, config, journal, answers⟩] }
  lift (Client.read (auditFeeJournal P.viem config journal) answers)

def transactionMatches (config : Config) (intent : Intent) (hash : Hash) (tx : Transaction) : Prop :=
  tx.hash = hash ∧ tx.sender = config.treasury ∧ tx.recipient = some config.router ∧
    some tx.nonce = intent.nonce ∧ tx.value = 0 ∧ tx.input = intent.plan.data

instance (config : Config) (intent : Intent) (hash : Hash) (tx : Transaction) :
    Decidable (transactionMatches config intent hash tx) := by
  unfold transactionMatches
  infer_instance

def verifyTransaction (config : Config) (intent : Intent) (hash : Hash) : Audit Unit := do
  Client.throwIf (isHash hash = false) .invalidHash
  let chainId : ℕ ← ask .chainId
  Client.throwIf (chainId ≠ config.chainId) .submissionChain
  let tx : Transaction ← ask (.transaction hash)
  Client.throwIf (¬ transactionMatches config intent hash tx) .transactionMismatch

def verify (config : Config) (intent : Intent) (hash : Hash) : Prog Unit := do
  let answers ← client
  lift (Client.read (verifyTransaction config intent hash) answers)

/-- A handle is opened once. -/
def openFacilityFeeIntents (i : Task) (config : Config) (journal : Journal) : Prog Unit := do
  begin
  attempt fun world => do
    revertIf (world.opened i.1 ≠ none) .invalidOptions
    let db ← world.db.openJournal (P.fingerprint (.options config journal)) journal
    .ok ((), { world with db := db, opened := Function.update world.opened i.1 (some config) })

def reserve (i : Task) : Prog Intent := do
  let config ← config i
  let saved ← snapshot
  let report ← audit P i config saved.payload
  let plan ← lift (orRevert report.plan .nothingToReserve)
  throwIf (report.sourceCollectionIds = []) .nothingToReserve
  let id ← randomUUID
  let now ← now
  transaction (·.reserve saved report plan id now)

def cancelReserved (i : Task) (id : String) : Prog Intent := do
  let _ ← config i
  transaction (·.cancelReserved id)

def beginSigning (i : Task) (id : String) : Prog Intent := do
  let config ← config i
  let before ← requireState id .reserved
  let saved ← snapshot
  let report ← audit P i config saved.payload
  throwIf (report.readyToForward = false ∨
    P.fingerprint (.ids report.sourceCollectionIds) ≠
      P.fingerprint (.ids before.sourceCollectionIds) ∨
    report.gross ≠ before.gross ∨
    P.fingerprint (.plan report.plan) ≠ P.fingerprint (.plan (some before.plan))) .feesChanged
  let answers ← client
  let nonce : ℕ ← lift (Client.read (ask (.pendingTransactionCount config.treasury)) answers)
  let now ← now
  throwIf (maxSafeInteger < nonce ∨ 30000 ≤ now - report.checkedAt) .nonceUnavailable
  transaction (·.beginSigning saved report nonce id)

def recordSubmission (i : Task) (id : String) (hash : Hash) : Prog Intent := do
  let config ← config i
  let before ← get id
  throwIf (before.state ≠ .signing ∧ before.state ≠ .submitted) .notSigning
  verify config before hash
  transaction (·.recordSubmission id hash)

def withRemittance (journal : Journal) (hash : Hash) (ids : List String) : Journal :=
  { journal with remittances := journal.remittances ++ [⟨hash, ids⟩] }

def confirm (i : Task) (id : String) : Prog Intent := do
  let config ← config i
  let before ← requireState id .submitted
  let saved ← snapshot
  let hash ← lift (orRevert before.hash .invalidHash)
  verify config before hash
  let next := withRemittance saved.payload hash before.sourceCollectionIds
  let report ← audit P i config next
  let now ← now
  transaction (·.confirm saved next report before.hash now id)

/-- The calls on a handle. -/
inductive Method
  | openStore (config : Config) (journal : Journal)
  | reserve
  | cancelReserved (id : String)
  | beginSigning (id : String)
  | recordSubmission (id : String) (hash : Hash)
  | confirm (id : String)

def run (i : Task) : Method → Prog (Option Intent)
  | .openStore config journal => do
    openFacilityFeeIntents P i config journal
    pure none
  | .reserve => do
    let intent ← reserve P i
    pure (some intent)
  | .cancelReserved id => do
    let intent ← cancelReserved i id
    pure (some intent)
  | .beginSigning id => do
    let intent ← beginSigning P i id
    pure (some intent)
  | .recordSubmission id hash => do
    let intent ← recordSubmission i id hash
    pure (some intent)
  | .confirm id => do
    let intent ← confirm P i id
    pure (some intent)

/-- The chain, the clock and the database may answer anything. -/
def machine : Machine World Query (fun q => Except Err q.Result) Err (Option Intent) Task Method
    Empty where
  call i method := run P i method
  answers _ _ _ := True
  env e _ := nomatch e

end Turret.FeeIntents
