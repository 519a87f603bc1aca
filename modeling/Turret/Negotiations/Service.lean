import Turret.Negotiations.Store

/-! `submit`: what is read of the chain before the transaction, and the
transaction. Other submissions and the chain move on between any two reads. -/

namespace Turret.Negotiations

open Execution Tasks Tasks.Program

variable {Digest : Type} [DecidableEq Digest]

inductive Calldata
  | cancelOffer (id : ℕ)
  | createOffer (borrower : Address) (principal collateral interest duration expiresAt : ℕ)
  | other
  deriving DecidableEq

structure BlockHeader where
  number : ℕ
  timestamp : ℕ
  hash : String

structure OfferRow where
  lender : Address
  borrower : Address
  principal : ℕ
  collateralAmount : ℕ
  interest : ℕ
  duration : ℕ
  expiresAt : ℕ
  status : ℕ

structure Transaction where
  sender : Address
  target : Address
  value : ℕ
  input : Calldata
  deriving DecidableEq

/-- A log, with the number of the offer if it decodes as `OfferCreated`. -/
structure Log where
  address : Address
  created : Option ℕ

structure Receipt where
  success : Bool
  transactionHash : String
  sender : Address
  blockNumber : ℕ
  blockHash : String
  logs : List Log

inductive Query
  | chainId
  | verify (signed : Signed)
  | latestBlock
  | blockHash (number : ℕ)
  | code (market : Address) (block : ℕ)
  | loanToken (market : Address) (block : ℕ)
  | collateralToken (market : Address) (block : ℕ)
  | offer (market : Address) (id block : ℕ)
  | vault (market : Address) (id block : ℕ)
  | balanceOf (token vault : Address) (block : ℕ)
  | loanCredit (market : Address) (id block : ℕ)
  | transaction (hash : String)
  | receipt (hash : String)

def Query.Value : Query → Type
  | chainId => ℕ
  | verify _ => Bool
  | latestBlock => BlockHeader
  | blockHash _ => String
  | code _ _ => Option String
  | loanToken _ _ => Address
  | collateralToken _ _ => Address
  | offer _ _ _ => OfferRow
  | vault _ _ _ => Address
  | balanceOf _ _ _ => ℕ
  | loanCredit _ _ _ => ℕ
  | transaction _ => Transaction
  | receipt _ => Receipt

def Answer (q : Query) : Type := Except Err q.Value

abbrev Prog (Digest : Type) := Program (World Digest) Query Answer Err

def call (q : Query) : Prog Digest q.Value := Program.call q

def getChainId : Prog Digest ℕ := call .chainId
def verify (signed : Signed) : Prog Digest Bool := call (.verify signed)
def getBlock : Prog Digest BlockHeader := call .latestBlock
def getBlockHash (number : ℕ) : Prog Digest String := call (.blockHash number)
def getCode (market : Address) (block : ℕ) : Prog Digest (Option String) := call (.code market block)
def readLoanToken (market : Address) (block : ℕ) : Prog Digest Address :=
  call (.loanToken market block)
def readCollateralToken (market : Address) (block : ℕ) : Prog Digest Address :=
  call (.collateralToken market block)
def readOffer (market : Address) (id block : ℕ) : Prog Digest OfferRow :=
  call (.offer market id block)
def readVault (market : Address) (id block : ℕ) : Prog Digest Address := call (.vault market id block)
def readBalance (token vault : Address) (block : ℕ) : Prog Digest ℕ :=
  call (.balanceOf token vault block)
/-- The nominal of the credit in the loan token. -/
def readLoanCredit (market : Address) (id block : ℕ) : Prog Digest ℕ :=
  call (.loanCredit market id block)
def getTransaction (hash : String) : Prog Digest Transaction := call (.transaction hash)
def getTransactionReceipt (hash : String) : Prog Digest Receipt := call (.receipt hash)

/-! ### Reading the chain -/

def termsOf (offer : OfferRow) : Terms :=
  ⟨offer.principal, offer.collateralAmount, offer.interest, offer.duration / 86400, offer.expiresAt⟩

/-- Whether the vault of an open offer holds its principal. -/
def readBacked (config : Market) (id : ℕ) (offer : OfferRow) (block : ℕ) : Prog Digest Bool :=
  if offer.status = 1 then do
    let vault ← readVault config.address id block
    throwIf (vault = zero) .custodyUnavailable
    let balance ← readBalance config.loanToken vault block
    pure (offer.principal ≤ balance)
  else pure false

def readCredit (config : Market) (id : ℕ) (offer : OfferRow) (block : ℕ) : Prog Digest (Option ℕ) :=
  if offer.status = 5 ∨ offer.status = 6 then do
    let nominal ← readLoanCredit config.address id block
    pure (some nominal)
  else pure none

def source (svc : Service Digest) (config : Market) (id : ℕ) : Prog Digest Source := do
  let chainId ← getChainId
  throwIf (chainId ≠ config.chainId) .wrongChain
  let block ← getBlock
  let code ← getCode config.address block.number
  let loanToken ← readLoanToken config.address block.number
  let collateralToken ← readCollateralToken config.address block.number
  let offer ← readOffer config.address id block.number
  throwIf (code.map svc.keccak256 ≠ some config.runtimeHash ∨ loanToken ≠ config.loanToken ∨
    collateralToken ≠ config.collateralToken) .identityMismatch
  throwIf (offer.lender = zero ∨ offer.status < 1) .offerUnavailable
  let backed ← readBacked config id offer block.number
  let credit ← readCredit config id offer block.number
  let canonical ← getBlockHash block.number
  throwIf (canonical ≠ block.hash) .chainChanged
  pure
    { id
      lender := offer.lender
      borrower := offer.borrower
      terms := termsOf offer
      digest := svc.sourceDigest config.address config.chainId id offer.lender offer.borrower
        (termsOf offer)
      status := offer.status
      now := block.timestamp
      blockNumber := block.number
      blockHash := block.hash
      backed
      credit }

/-- The receipt of a successful call of the market by `account` with just this input. -/
def receipt (config : Market) (hash : String) (account : Address) (input : Calldata) :
    Prog Digest Receipt := do
  let tx ← getTransaction hash
  let r ← getTransactionReceipt hash
  throwIf (tx.sender ≠ account ∨ tx.target ≠ config.address ∨ tx.value ≠ 0 ∨ tx.input ≠ input ∨
    r.success = false ∨ r.transactionHash ≠ hash ∨ r.sender ≠ account) .transactionMismatch
  let canonical ← getBlockHash r.blockNumber
  throwIf (canonical ≠ r.blockHash) .confirmationChanged
  pure r

/-! ### Submission -/

/-- The call that creates the replacement on the agreed terms. -/
def createOffer (row : Thread) : Calldata :=
  .createOffer row.borrower row.latest.terms.principal row.latest.terms.collateral
    row.latest.terms.interest (row.latest.terms.durationDays * 86400) row.latest.terms.expiresAt

/-- `r.blockNumber <= BigInt(after)`, or there is no block to come after. -/
def notAfter (block : ℕ) (after : Option ℕ) : Bool :=
  match after with
  | some first => decide (block ≤ first)
  | none => true

/-- The evidence of `cancelled`. -/
def checkCancelled (config : Market) (hash : String) (row : Thread) (s : Source) :
    Prog Digest Unit := do
  throwIf (row.cancelAfterBlock = none ∨ s.status ≠ 5) .notCancelled
  let r ← receipt config hash row.lender (.cancelOffer row.offerId)
  throwIf (notAfter r.blockNumber row.cancelAfterBlock) .cancellationPredates

/-- The evidence of `bind`: the one offer that the transaction created, as it is now. -/
def checkFunding (svc : Service Digest) (config : Market) (hash : String) (row : Thread)
    (s : Source) : Prog Digest Source := do
  let cancelHash ← lift (orRevert row.cancelHash .cancellationUnconfirmed)
  throwIf (s.status ≠ 5 ∨ s.credit ≠ some 0) .cancellationUnconfirmed
  let _ ← receipt config cancelHash row.lender (.cancelOffer row.offerId)
  let r ← receipt config hash row.lender (createOffer row)
  throwIf (notAfter r.blockNumber row.fundAfterBlock) .fundingPredates
  let created := (r.logs.filter fun log => log.address = config.address).filterMap Log.created
  throwIf (created.length ≠ 1) .oneOfferRequired
  let id ← lift (orRevert created.head? .oneOfferRequired)
  let linked ← source svc config id
  throwIf (linked.lender ≠ row.lender ∨ linked.borrower ≠ row.borrower ∨
    linked.terms ≠ row.latest.terms ∨ linked.status = 1 ∧ linked.backed = false) .replacementMismatch
  pure linked

/-- The row that the action names, as its signer saw it. -/
def signedRow (config : Market) (ref : Ref) (account : Address) (w : World Digest) :
    Except Err Thread := do
  let row ← w.visible ref.threadId account
  revertIf (row.market ≠ config.address ∨ row.revision ≠ ref.revision ∨
    row.latest.id ≠ ref.proposalId ∨ ref.sourceDigest ≠ row.sourceDigest ∨
    ref.lender ≠ row.lender ∨ ref.borrower ≠ row.borrower ∨
    ref.proposalTerms ≠ row.latest.terms) .conversationChanged
  pure row

/-- The reads of a conversation's action, after its row. -/
def evidence (svc : Service Digest) (config : Market) (action : Action)
    (row : Thread) : Prog Digest (Option Source × Option Source) :=
  match action with
  | .close _ => pure (none, none)
  | action => do
    let s ← source svc config row.offerId
    throwIf (s.digest ≠ row.sourceDigest) .sourceTermsChanged
    match action with
    | .cancelled _ hash => do
      checkCancelled config hash row s
      pure (some s, none)
    | .bind _ hash => do
      let linked ← checkFunding svc config hash row s
      pure (some s, some linked)
    | _ => pure (some s, none)

/-- Everything that is read between the look at the nonces and the transaction. -/
def gather (svc : Service Digest) (config : Market) (e : Envelope) :
    Prog Digest (Option Source × Option Source) :=
  match e.action with
  | .login => pure (none, none)
  | .open_ offerId sourceDigest _ _ => do
    let s ← source svc config offerId
    throwIf (s.digest ≠ sourceDigest) .sourceTermsChanged
    pure (some s, none)
  | action => do
    let w ← look
    let ref ← lift (orRevert action.ref .conversationChanged)
    let row ← lift (signedRow config ref e.account w)
    evidence svc config action row

def submit (svc : Service Digest) (signed : Signed) : Prog Digest Result := do
  let e := signed.envelope
  let w ← look
  let config ← lift (checkEnvelope svc e w.now)
  let chainId ← getChainId
  throwIf (chainId ≠ config.chainId) .wrongChain
  let genuine ← verify signed
  throwIf (genuine = false) .signatureMismatch
  let w ← look
  match w.nonceRow e.account e.nonce with
  | some prior => do
    throwIf (prior.hash ≠ svc.digest signed) .nonceConflict
    pure prior.result
  | none => do
    let (src, linked) ← gather svc config e
    attempt (commit svc signed src linked)

/-! ### The environment -/

/-- The transaction that a hash stands for, and the offers of a market that it created, on any
branch of the chain. -/
structure Chain where
  transaction : String → Transaction
  created : String → Address → ℕ → Prop

/-- A block is no younger than the chain, a hash has one transaction, and the logs of a receipt are
those of its transaction. -/
def answers (chain : Chain) (w : World Digest) : (q : Query) → Answer q → Prop
  | _, .error e => e = .rpc
  | .latestBlock, .ok block => block.timestamp ≤ w.chainTime
  | .transaction hash, .ok tx => tx = chain.transaction hash
  | .receipt _, .ok r =>
    ∀ log ∈ r.logs, ∀ id ∈ log.created, chain.created r.transactionHash log.address id
  | _, .ok _ => True

/-- The clock of the service and the time of the chain move on. -/
inductive Tick
  | clock (seconds : ℕ)
  | chain (seconds : ℕ)

def environment : Tick → World Digest → Option (World Digest)
  | .clock seconds, w => some { w with now := w.now + seconds }
  | .chain seconds, w => some { w with chainTime := w.chainTime + seconds }

def machine (svc : Service Digest) (chain : Chain) :
    Machine (World Digest) Query Answer Err Result ℕ Signed Tick where
  call := fun _ signed => submit svc signed
  answers := answers chain
  env := environment

end Turret.Negotiations
