import Turret.Library.Client
import Turret.Library.DecimalText
import Turret.Library.Tasks

/-! The board of borrower requests, `p2p-requests.mjs`: the stored state, the
signed envelopes, and the check of a funded offer on the chain. Addresses,
hashes and nonces are text in lower case, amounts and offer ids, which are
canonical decimals in the source, are numbers. Times are in seconds. -/

namespace Turret.Requests

open Client HexText

abbrev Address := String

def uintMax : ℕ := 2 ^ 256 - 1
def maxTime : ℕ := 8640000000000
def maxSafeInteger : ℕ := 2 ^ 53 - 1

inductive Err
  | invalidConfiguration
  | unknownMarket
  | expiredEnvelope
  | marketAccount
  | invalidTerms
  | invalidSignature
  | wrongChain
  | signatureMismatch
  | invalidStorage
  | alreadyUsed
  | tooMany
  | capacity
  | tooManyRequests
  | notFound
  | changed
  | onlyBorrower
  | alreadyCancelled
  | onlyParties
  | alreadyLinked
  | linkedElsewhere
  | requestClosed
  | sameWallet
  | proposalLimit
  | tooManyProposals
  | unavailableProposal
  | onlyLender
  | proposalCancelled
  | blockUnavailable
  | marketIdentity
  | offerMismatch
  | offerExpired
  | custody
  | backing
  | chainChanged
  | invalidFilter
  | idle
  | persistence
  | rpc
  deriving DecidableEq

/-! ### The stored state -/

structure Terms where
  principal : ℕ
  collateral : ℕ
  interest : ℕ
  durationDays : ℕ
  expiresAt : ℕ
  deriving DecidableEq

inductive OfferStatus
  | none
  | opened
  | active
  | repaid
  | defaulted
  | cancelled
  | expired
  deriving DecidableEq

/-- `fundedOffer`: the offer on the chain that a proposal is linked to. -/
structure FundedOffer where
  id : ℕ
  status : OfferStatus
  blockNumber : ℕ
  blockHash : String
  checkedAt : ℕ
  deriving DecidableEq

structure Proposal where
  id : String
  lender : Address
  terms : Terms
  createdAt : ℕ
  cancelled : Bool
  fundedOffer : Option FundedOffer
  deriving DecidableEq

inductive Status
  | opened
  | agreed
  | cancelled
  deriving DecidableEq

structure Row where
  id : String
  sequence : ℕ
  revision : ℕ
  market : Address
  chainId : ℕ
  borrower : Address
  terms : Terms
  createdAt : ℕ
  status : Status
  proposals : List Proposal
  acceptedProposalId : Option String
  deriving DecidableEq

/-- The account and the nonce of a signed action. -/
structure Key where
  account : Address
  nonce : String
  deriving DecidableEq

structure UsedNonce where
  key : Key
  usedAt : ℕ
  validUntil : ℕ
  deriving DecidableEq

structure Board where
  schemaVersion : ℕ
  origin : String
  nextSequence : ℕ
  requests : List Row
  usedNonces : List UsedNonce
  deriving DecidableEq

def emptyBoard (origin : String) : Board := ⟨1, origin, 1, [], []⟩

/-! ### The signed actions -/

inductive Action
  | publish (terms : Terms)
  | propose (requestId : String) (revision : ℕ) (terms : Terms)
  | accept (requestId : String) (revision : ℕ) (proposalId : String)
  | cancel (requestId : String) (revision : ℕ)
  | cancelProposal (requestId : String) (revision : ℕ) (proposalId : String)
  | bind (requestId : String) (revision : ℕ) (proposalId : String) (offerId : ℕ)
  deriving DecidableEq

structure Envelope where
  version : ℕ
  origin : String
  chainId : ℕ
  market : Address
  account : Address
  nonce : String
  issuedAt : ℕ
  validUntil : ℕ
  action : Action
  deriving DecidableEq

def Envelope.key (e : Envelope) : Key := ⟨e.account, e.nonce⟩

/-- The request that an action names, and the revision that it was signed for. -/
def Action.target : Action → Option (String × ℕ)
  | publish _ => none
  | propose requestId revision _ => some (requestId, revision)
  | accept requestId revision _ => some (requestId, revision)
  | cancel requestId revision => some (requestId, revision)
  | cancelProposal requestId revision _ => some (requestId, revision)
  | bind requestId revision _ _ => some (requestId, revision)

def Action.terms : Action → Option Terms
  | publish terms => some terms
  | propose _ _ terms => some terms
  | _ => none

def Action.proposalId : Action → Option String
  | accept _ _ proposalId => some proposalId
  | cancelProposal _ _ proposalId => some proposalId
  | bind _ _ proposalId _ => some proposalId
  | _ => none

/-- The identifiers of an action are well formed. -/
def Action.wellFormed (action : Action) : Bool :=
  action.target.all (fun target => isUuid target.1 && decide (1 ≤ target.2)) &&
  action.proposalId.all isUuid &&
  match action with
  | bind _ _ _ offerId => decide (0 < offerId ∧ offerId ≤ uintMax)
  | _ => true

structure Market where
  address : Address
  loanToken : Address
  collateralToken : Address
  chainId : ℕ
  version : ℕ
  runtimeHash : String
  deriving DecidableEq

/-- The terms are exact, positive and end before `maxExpiry`. -/
def validTerms (terms : Terms) (now maxExpiry : ℕ) : Bool :=
  decide (terms.principal ≤ uintMax ∧ terms.collateral ≤ uintMax ∧ terms.interest ≤ uintMax ∧
    0 < terms.principal ∧ 0 < terms.collateral ∧ terms.principal + terms.interest ≤ uintMax ∧
    1 ≤ terms.durationDays ∧ terms.durationDays ≤ maxSafeInteger ∧
    terms.expiresAt ≤ maxSafeInteger ∧ now < terms.expiresAt ∧ terms.expiresAt ≤ maxExpiry ∧
    terms.expiresAt + terms.durationDays * 86400 + 86400 ≤ maxTime)

/-! ### The offer on the chain -/

structure Block where
  number : ℕ
  timestamp : ℕ
  hash : String
  deriving DecidableEq

structure Offer where
  lender : Address
  borrower : Address
  principal : ℕ
  collateralAmount : ℕ
  interest : ℕ
  duration : ℕ
  expiresAt : ℕ
  status : ℕ
  deriving DecidableEq

inductive Request
  | chainId
  | latestBlock
  | block (number : ℕ)
  | code (address : Address) (block : ℕ)
  | loanToken (market : Address) (block : ℕ)
  | collateralToken (market : Address) (block : ℕ)
  | offers (market : Address) (id block : ℕ)
  | vaults (market : Address) (id block : ℕ)
  | balanceOf (token account : Address) (block : ℕ)
  | reservedPrincipal (market : Address) (block : ℕ)
  | totalCredits (market token : Address) (block : ℕ)
  deriving DecidableEq

def Request.Answer : Request → Type
  | chainId => ℕ
  | latestBlock => Block
  | block _ => Block
  | code _ _ => Option String
  | loanToken _ _ => Address
  | collateralToken _ _ => Address
  | offers _ _ _ => Offer
  | vaults _ _ _ => Address
  | balanceOf _ _ _ => ℕ
  | reservedPrincipal _ _ => ℕ
  | totalCredits _ _ _ => ℕ

abbrev ChainClient := Answers Request Request.Answer Err

abbrev Check := Reading Request Request.Answer Err

def ask (q : Request) : Check q.Answer := request q

def offerStatus : ℕ → OfferStatus
  | 1 => .opened
  | 2 => .active
  | 3 => .repaid
  | 4 => .defaulted
  | 5 => .cancelled
  | 6 => .expired
  | _ => .none

/-- An open offer is backed by what its custody holds. -/
def checkBacking (config : Market) (offer : Offer) (offerId block : ℕ) : Check Unit := do
  let vault : Address ←
    if config.version = 3 then ask (.vaults config.address offerId block) else pure config.address
  throwIf (isAccount vault = false) .custody
  let balance : ℕ ← ask (.balanceOf config.loanToken vault block)
  if config.version = 3 then throwIf (balance < offer.principal) .backing
  else do
    let reserved : ℕ ← ask (.reservedPrincipal config.address block)
    let credits : ℕ ← ask (.totalCredits config.address config.loanToken block)
    throwIf (balance < reserved + credits) .backing

/-- The offer has the parties and the terms of the proposal; its status and the block. -/
def verifyOffer (keccak256 : String → String) (config : Market) (row : Row) (proposal : Proposal)
    (offerId : ℕ) : Check (OfferStatus × Block) := do
  let chainId : ℕ ← ask .chainId
  throwIf (chainId ≠ config.chainId) .wrongChain
  let block : Block ← ask .latestBlock
  throwIf (isHash block.hash = false) .blockUnavailable
  let found : Option String ← ask (.code config.address block.number)
  let loanToken : Address ← ask (.loanToken config.address block.number)
  let collateralToken : Address ← ask (.collateralToken config.address block.number)
  let offer : Offer ← ask (.offers config.address offerId block.number)
  let previouslyLinked := proposal.fundedOffer.map FundedOffer.id = some offerId
  let code ← orThrow found .marketIdentity
  throwIf (keccak256 code ≠ config.runtimeHash ∨ loanToken ≠ config.loanToken ∨
    collateralToken ≠ config.collateralToken) .marketIdentity
  throwIf (offer.lender ≠ proposal.lender ∨ offer.borrower ≠ row.borrower ∨
    offer.principal ≠ proposal.terms.principal ∨
    offer.collateralAmount ≠ proposal.terms.collateral ∨
    offer.interest ≠ proposal.terms.interest ∨
    offer.duration ≠ proposal.terms.durationDays * 86400 ∨
    offer.expiresAt ≠ proposal.terms.expiresAt ∨
    ¬ (1 ≤ offer.status ∧ offer.status ≤ if previouslyLinked then 6 else 4)) .offerMismatch
  if offer.status = 1 then do
    throwIf (offer.expiresAt ≤ block.timestamp ∧ ¬ previouslyLinked) .offerExpired
    checkBacking config offer offerId block.number
  else pure ()
  let canonical : Block ← ask (.block block.number)
  throwIf (canonical.number ≠ block.number ∨ canonical.hash ≠ block.hash) .chainChanged
  let status :=
    if offer.status = 1 ∧ offer.expiresAt ≤ block.timestamp then .expired
    else offerStatus offer.status
  pure (status, block)

end Turret.Requests
