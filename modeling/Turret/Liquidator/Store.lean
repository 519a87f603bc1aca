import Turret.Library.Tasks
import Turret.Library.Table
import Turret.Library.Ledger

/-! The keeper's journal: `store.mjs`. Every statement on the database is one
atomic action; the lease check of `saveTx` and its `INSERT` are two. Times are
milliseconds, hashes and addresses are in lower case already. -/

namespace Turret.Liquidator

inductive Kind
  | approval
  | liquidation
  deriving DecidableEq

inductive Status
  | pending
  | blocked
  | confirmed
  | reverted
  deriving DecidableEq

/-- What `encodeFunctionData` encodes. -/
inductive Calldata
  | approve (spender : Address) (amount : ℤ)
  | liquidate (collateral borrower : Address) (maxRepay : ℤ) (recipient : Address)
  | liquidateChecked (collateral borrower : Address) (maxRepay : ℤ) (recipient : Address)
      (proof : String)
  deriving DecidableEq

structure Request where
  chainId : ℕ
  /-- `to`. -/
  target : Address
  data : Calldata
  value : ℕ
  gas : ℕ
  gasPrice : Option ℕ
  maxFeePerGas : Option ℕ
  maxPriorityFeePerGas : Option ℕ
  nonce : ℕ
  deriving DecidableEq

/-- `gasPrice ?? maxFeePerGas`. -/
def Request.price (request : Request) : Option ℕ := request.gasPrice <|> request.maxFeePerGas

/-- Without a price the multiplication throws. -/
def feeReserve (request : Request) : Option ℕ := request.price.map (request.gas * ·)

structure Attempt where
  raw : String
  hash : String
  signedAt : ℕ
  deriving DecidableEq

structure TxReceipt where
  hash : String
  block : ℕ
  blockHash : String
  deriving DecidableEq

/-- An intent. -/
structure Tx where
  id : ℕ
  kind : Kind
  status : Status
  createdAt : ℕ
  request : Request
  feeReserve : ℕ
  collateral : Address
  borrower : Address
  maxRepay : ℤ
  recipient : Option Address
  attempts : List Attempt
  receipt : Option TxReceipt
  actualGas : Option ℕ
  actualRepay : Option ℕ
  collateralSeized : Option ℕ
  usdgOut : Option ℕ
  inventoryRecovered : Bool
  settledAt : Option ℕ
  deriving DecidableEq

structure Lease where
  owner : ℕ
  expires : ℕ
  deriving DecidableEq

/-- The database, the clock, and what has left the process: the requests handed to the signer and
the bytes handed to the RPC. -/
structure World where
  /-- The table `transactions`, in the order of insertion. -/
  txs : List Tx
  lease : Option Lease
  /-- The rows `retry:…`; an absent row reads as 0. -/
  retry : Address → Address → ℕ
  budgetAccountingEpoch : ℕ
  now : ℕ
  signed : List Request
  sent : List String

def DAY : ℕ := 86400000

/-- `Number.MAX_SAFE_INTEGER`. -/
def MAX_SAFE_INTEGER : ℕ := 2 ^ 53 - 1

/-- The last instant of a JavaScript date. -/
def MAX_DATE : ℕ := 8640000000000000

def Tx.unresolved (tx : Tx) : Bool := tx.status != .confirmed && tx.status != .reverted

namespace World

/-- `ORDER BY created`. -/
def transactions (s : World) : List Tx :=
  s.txs.insertionSort fun x y => x.createdAt ≤ y.createdAt

def pendingTx (s : World) : Option Tx :=
  s.transactions.find? fun tx => tx.status == .pending || tx.status == .blocked

def leaseOwner (s : World) : Option ℕ := s.lease.map Lease.owner

/-- The row of `assertLease`, with the time that was read before it. -/
def holdsLease (s : World) (owner now : ℕ) : Bool :=
  match s.lease with
  | some row => row.owner == owner && now < row.expires
  | none => false

/-- `INSERT … ON CONFLICT(id) DO UPDATE`. -/
def upsert (tx : Tx) (s : World) : World := { s with txs := Table.upsert Tx.id tx s.txs }

end World

/-! ### Budgets -/

structure Budgets where
  daily : ℤ
  inventory : ℤ
  gas : ℤ
  deriving DecidableEq

/-- The time a final record counts from; a legacy one counts from the epoch. -/
def Tx.settlement (epoch : ℕ) (tx : Tx) : ℕ :=
  match tx.settledAt with
  | some settledAt => if settledAt ≤ MAX_SAFE_INTEGER then settledAt else max tx.createdAt epoch
  | none => max tx.createdAt epoch

def Tx.inWindow (epoch now : ℕ) (tx : Tx) : Bool :=
  tx.unresolved || decide (now < tx.settlement epoch + DAY)

def Tx.spent (tx : Tx) : ℤ :=
  if tx.unresolved then tx.maxRepay else (tx.actualRepay.map Int.ofNat).getD tx.maxRepay

def Tx.inventoryCost (tx : Tx) : ℤ :=
  if tx.status ≠ .reverted ∧ tx.kind = .liquidation ∧
    (tx.status ≠ .confirmed ∨ tx.inventoryRecovered = false) then tx.spent else 0

def Tx.dailyCost (epoch now : ℕ) (tx : Tx) : ℤ :=
  if tx.status ≠ .reverted ∧ tx.kind = .liquidation ∧ tx.inWindow epoch now then tx.spent else 0

def Tx.gasCost (epoch now : ℕ) (tx : Tx) : ℤ :=
  if tx.inWindow epoch now then
    if tx.unresolved then tx.feeReserve else tx.actualGas.getD tx.feeReserve
  else 0

/-- The loop of `budgets`, as the sums that it accumulates. -/
def World.budgets (now : ℕ) (s : World) : Budgets where
  daily := (s.transactions.map (Tx.dailyCost s.budgetAccountingEpoch now)).sum
  inventory := (s.transactions.map Tx.inventoryCost).sum
  gas := (s.transactions.map (Tx.gasCost s.budgetAccountingEpoch now)).sum

end Turret.Liquidator
