import Turret.Library.Exchanges
import Turret.Library.Branches

/-! The recovery of a pending transaction, as `pending-recovery.ts` searches for
the transaction that consumed a saved nonce. The node answers from the chain as
it is when it is asked, or fails; meanwhile the chain grows and is reorganised. -/

namespace Turret.P2P.PendingRecovery

open Tasks Branches

/-! ### Texts -/

/-- `toLowerCase`, of the texts in hexadecimal that are compared. -/
def lower (text : String) : String := String.ofList (text.toList.map Char.toLower)

def same (a : Option String) (b : String) : Bool :=
  match a with
  | some a => lower a == lower b
  | none => false

def isHexDigit (c : Char) : Bool :=
  c.isDigit || decide ('a' ≤ c ∧ c ≤ 'f') || decide ('A' ≤ c ∧ c ≤ 'F')

/-- `/^0x[0-9a-f]{64}$/i`. -/
def validHash (value : String) : Bool :=
  match value.toList with
  | '0' :: x :: digits => (x == 'x' || x == 'X') && digits.length == 64 && digits.all isHexDigit
  | _ => false

/-- `isAddress(value, { strict: false })`. -/
def isAddress (value : String) : Bool :=
  match value.toList with
  | '0' :: 'x' :: digits => digits.length == 40 && digits.all isHexDigit
  | _ => false

/-- `/^0x(?:[0-9a-f]{2})*$/i`. -/
def isInput (value : String) : Bool :=
  match value.toList with
  | '0' :: x :: digits =>
    (x == 'x' || x == 'X') && decide (digits.length % 2 = 0) && digits.all isHexDigit
  | _ => false

def bigInt (value : String) : ℕ := Nat.ofDigitChars 10 value.toList 0

def isUint (value : String) : Bool :=
  match value.toList with
  | ['0'] => true
  | c :: digits =>
    decide ('1' ≤ c ∧ c ≤ '9') && decide (digits.length ≤ 77) && digits.all Char.isDigit &&
      decide (bigInt value < 2 ^ 256)
  | [] => false

def maxSafeInteger : ℤ := 9007199254740991

/-! ### Records and answers -/

structure PendingIntent where
  sender : String
  nonce : ℤ
  target : String
  input : String
  value : String
  submittedBlock : String

structure PendingRecord where
  hash : String
  intent : Option PendingIntent

def validPendingIntent (intent : PendingIntent) : Bool :=
  isAddress intent.sender && isAddress intent.target &&
    decide (0 ≤ intent.nonce ∧ intent.nonce ≤ maxSafeInteger) && isUint intent.value &&
    isUint intent.submittedBlock && isInput intent.input && decide (intent.input.length ≤ 32770)

/-- What the hash of a transaction commits to. -/
structure Body where
  sender : String
  target : Option String
  nonce : ℤ
  value : ℤ
  input : String

structure Transaction extends Body where
  hash : String

structure Receipt where
  transactionHash : String
  sender : String
  target : Option String
  blockHash : String
  blockNumber : ℕ
  status : String

/-- A block without its transactions; a pending one has neither number nor hash. -/
structure Latest where
  number : Option ℕ
  hash : Option String

structure Block where
  hash : Option String
  transactions : List String

inductive Query
  | getAccount
  | latest
  | block (number : ℕ)
  | fullBlock (number : ℕ)
  | receipt (hash : String)
  | transaction (hash : String)
  | count (address : String) (number : ℕ)

def Reply : Query → Type
  | .getAccount => Option String
  | .latest => Latest
  | .block _ => Block
  | .fullBlock _ => List Transaction
  | .receipt _ => Option Receipt
  | .transaction _ => Transaction
  | .count _ _ => ℤ

abbrev Answer (q : Query) : Type := Except String (Reply q)

structure RecoveredPending where
  hash : String
  receipt : Receipt
  equivalent : Bool
  cancelled : Bool

structure Options where
  replacementHash : Option String
  getAccount : Bool

/-! ### The chain -/

/-- A block with the hashes of its transactions, and the nonces of the accounts after it. -/
structure ChainBlock where
  transactions : List String
  nonces : String → ℕ

/-- The chain as it is, and the chains it has been. -/
structure Network where
  trace : Trace ChainBlock
  current : trace.chain ∈ trace.seen

abbrev Network.chain (s : Network) : List ChainBlock := s.trace.chain

abbrev Recovery (α : Type) : Type := Program Network Query Answer String α

def getBlock (number : ℕ) : Recovery Block := Program.call (Query.block number)

/-- `getBlock` with `includeTransactions`. -/
def getFullBlock (number : ℕ) : Recovery (List Transaction) := Program.call (Query.fullBlock number)

/-- `getBlock` without a number. -/
def getLatest : Recovery Latest := Program.call Query.latest

def getTransactionReceipt (hash : String) : Recovery (Option Receipt) :=
  Program.call (Query.receipt hash)

def getTransaction (hash : String) : Recovery Transaction := Program.call (Query.transaction hash)

def getTransactionCount (address : String) (number : ℕ) : Recovery ℤ :=
  Program.call (Query.count address number)

def getAccount : Recovery (Option String) := Program.call Query.getAccount

/-! ### The search -/

def noIntent : String :=
  "The saved transaction has no verified original nonce for this wallet. Check the original " ++
    "transaction in your wallet."

def walletChanged : String := "Wallet changed while recovering a pending transaction."

def notFound : String :=
  "The saved nonce has been used, but its transaction could not be found in the available RPC " ++
    "history. Enter the replacement transaction hash from your wallet to verify it."

def noHead : String := "A canonical block is unavailable for pending recovery."

def chainChanged : String := "The chain changed during pending recovery. Retry transaction status."

def otherNonce : String :=
  "That transaction does not consume the saved wallet's original nonce."

def badReceipt : String := "Replacement transaction receipt could not be verified."

def notCanonical : String :=
  "The replacement receipt is not in the canonical block. Retry transaction status."

def invalidHash : String := "Enter a valid replacement transaction hash."

def noNonce : String :=
  "The wallet's canonical nonce is unavailable. Retry transaction status."

/-- The number and the hash of the block that is latest at the start. -/
structure Head where
  number : ℕ
  hash : String

section Search

variable (account : String) (options : Options) (intent : PendingIntent) (head : Head)

def check : Recovery Unit :=
  if options.getAccount then do
    let current ← getAccount
    Program.throwIf (same current account = false) walletChanged
  else pure ()

def canonical : Recovery Unit := do
  check account options
  let block ← getBlock head.number
  Program.throwIf (same block.hash head.hash = false) chainChanged
  check account options

def consumes (transaction : Transaction) : Bool :=
  same transaction.sender account && transaction.nonce == intent.nonce

/-- The transaction is one that the saved nonce admits. -/
def admits (transaction : Transaction) : Bool :=
  validHash transaction.hash && consumes account intent transaction &&
    (match transaction.target with
      | some target => isAddress target
      | none => true) && isInput transaction.input

def sameTarget (receipt : Receipt) : Option String → Bool
  | none => receipt.target.isNone
  | some target => same receipt.target target

def confirms (transaction : Transaction) (receipt : Receipt) : Bool :=
  same receipt.transactionHash transaction.hash && same receipt.sender account &&
    sameTarget receipt transaction.target && validHash receipt.blockHash &&
    decide (receipt.blockNumber ≤ head.number) && ["success", "reverted"].contains receipt.status

def verify (transaction : Transaction) : Recovery RecoveredPending := do
  check account options
  Program.throwIf (admits account intent transaction = false) otherNonce
  let found ← getTransactionReceipt transaction.hash
  let receipt ← Program.lift (found.elim (.error badReceipt) .ok)
  Program.throwIf (confirms account head transaction receipt = false) badReceipt
  let block ← getBlock receipt.blockNumber
  Program.throwIf
    (same block.hash receipt.blockHash = false ∨
      block.transactions.any (fun row => same row transaction.hash) = false) notCanonical
  canonical account options head
  pure
    { hash := transaction.hash
      receipt
      equivalent := same transaction.target intent.target && same transaction.input intent.input &&
        transaction.value == (bigInt intent.value : ℤ)
      cancelled := same transaction.target account && transaction.input == "0x" &&
        transaction.value == 0 }

/-- The lookup of the saved hash; a failure is no result. -/
def direct (hash : String) : Recovery (Option RecoveredPending) :=
  Program.orElse
    (do
      let receipt ← getTransactionReceipt hash
      match receipt with
      | none => pure none
      | some _ => do
        let transaction ← getTransaction hash
        let recovered ← verify account options intent head transaction
        pure (some recovered))
    fun _ => do
      check account options
      pure none

def validCount (count : ℤ) : Bool := decide (0 ≤ count ∧ count ≤ maxSafeInteger)

/-- The bisection, with the probes it may still make. -/
def bisect : ℕ → ℕ → ℕ → Recovery (ℕ × ℕ)
  | 0, lower, upper => pure (lower, upper)
  | probes + 1, lower, upper =>
    if lower < upper then do
      check account options
      let middle := lower + (upper - lower) / 2
      let count ← getTransactionCount account middle
      Program.throwIf (validCount count = false) notFound
      if intent.nonce < count then bisect probes lower middle
      else bisect probes (middle + 1) upper
    else pure (lower, upper)

def search : Recovery ℕ := do
  let bounds ← bisect account options intent 64 0 head.number
  Program.throwIf (bounds.1 ≠ bounds.2) notFound
  pure bounds.1

def candidateAt (number : ℕ) : Recovery (Option Transaction) := do
  let transactions ← getFullBlock number
  pure (transactions.find? (consumes account intent))

def located : Recovery (Option Transaction) :=
  Program.orElse
    (do
      let number ← search account options intent head
      candidateAt account intent number)
    fun _ => do
      check account options
      pure none

/-- The scan of so many blocks, from one downwards. -/
def scan : ℕ → ℕ → Recovery (Option Transaction)
  | 0, _ => pure none
  | blocks + 1, height => do
    check account options
    let candidate ← Program.orElse (candidateAt account intent height) fun _ => .fail notFound
    match candidate with
    | some transaction => pure (some transaction)
    | none => scan blocks (height - 1)

/-- The first block of the scan. -/
def floor (head : Head) : ℕ := if 63 < head.number then head.number - 63 else 0

/-- The candidate of the bisection, or else of the scan. -/
def orScan : Option Transaction → Recovery (Option Transaction)
  | some candidate => pure (some candidate)
  | none => scan account options intent (head.number - floor head + 1) head.number

def conclude : Option Transaction → Recovery (Option RecoveredPending)
  | some candidate => do
    let recovered ← verify account options intent head candidate
    pure (some recovered)
  | none => do
    canonical account options head
    .fail notFound

/-- The transaction of the hash that the user entered. -/
def byReplacement (hash : String) : Recovery (Option RecoveredPending) := do
  Program.throwIf (validHash hash = false) invalidHash
  let transaction ← getTransaction hash
  let recovered ← verify account options intent head transaction
  pure (some recovered)

/-- The search by the nonce. -/
def recoverByNonce : Recovery (Option RecoveredPending) := do
  let nonce ← getTransactionCount account head.number
  Program.throwIf (validCount nonce = false) noNonce
  if nonce ≤ intent.nonce then do
    canonical account options head
    pure none
  else do
    let atNonce ← located account options intent head
    let candidate ← orScan account options intent head atNonce
    conclude account options intent head candidate

end Search

/-- The head of a block that has a number and a valid hash. -/
def Latest.head (latest : Latest) : Option Head :=
  match latest.number, latest.hash with
  | some number, some hash => if validHash hash then some ⟨number, hash⟩ else none
  | _, _ => none

/-- The intent of the record, where it is valid and of the account. -/
def PendingRecord.verified (record : PendingRecord) (account : String) : Option PendingIntent :=
  record.intent.filter fun intent => validPendingIntent intent && same intent.sender account

def recoverPendingTransaction (record : PendingRecord) (account : String) (options : Options) :
    Recovery (Option RecoveredPending) := do
  let intent ← Program.lift ((record.verified account).elim (.error noIntent) .ok)
  check account options
  let latest ← getLatest
  let head ← Program.lift (latest.head.elim (.error noHead) .ok)
  -- an empty replacement hash is none
  match options.replacementHash.filter fun hash => hash != "" with
  | some hash => byReplacement account options intent head hash
  | none => do
    let known ← direct account options intent head record.hash
    match known with
    | some recovered => pure (some recovered)
    | none => recoverByNonce account options intent head

end Turret.P2P.PendingRecovery
