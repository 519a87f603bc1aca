import Turret.Library.Tasks
import Turret.Library.Table
import Turret.Library.Ledger

/-! The store of the P2P negotiations and the transaction at the end of
`submit`, in `p2p-negotiations.mjs`. An action is parsed already: the shape of
its fields is that of its type, addresses and hashes are in lower case, and the
times and day counts of an offer are numbers that JavaScript holds exactly.
`digest` and `sourceDigest` stand for the SHA-256 of a canonical value. -/

namespace Turret.Negotiations

open Execution Function

inductive Err
  | checkTerms
  | chooseCurrentMarket
  | signatureExpired
  | invalidParticipant
  | invalidRevision
  | invalidSourceOffer
  | respondBy
  | wrongChain
  | signatureMismatch
  | rpc
  | chainUnavailable
  | identityMismatch
  | offerUnavailable
  | custodyUnavailable
  | chainChanged
  | nonceConflict
  | tooManyActions
  | conversationUnavailable
  | conversationChanged
  | sourceTermsChanged
  | notCancelled
  | transactionMismatch
  | confirmationChanged
  | cancellationPredates
  | cancellationUnconfirmed
  | fundingPredates
  | oneOfferRequired
  | replacementMismatch
  | offerNotOpen
  | notEligible
  | conversationExists
  | replacementStarted
  | proposalExpired
  | otherMustAgree
  | alreadySelected
  | onlyLender
  | agreementExpired
  | stepChanged
  | withdrawFirst
  | notAwaitingFunding
  deriving DecidableEq

structure Terms where
  principal : ℕ
  collateral : ℕ
  interest : ℕ
  durationDays : ℕ
  expiresAt : ℕ
  deriving DecidableEq

structure Market where
  address : Address
  chainId : ℕ
  loanToken : Address
  collateralToken : Address
  runtimeHash : String

/-- `chainId:market:offerId`. -/
structure SourceKey where
  chainId : ℕ
  market : Address
  offerId : ℕ
  deriving DecidableEq

inductive State
  | open_
  | agreed
  | replacing
  | recovering
  | funding
  | funded
  | closed
  deriving DecidableEq

structure Proposal where
  id : ℕ
  author : Address
  terms : Terms
  responseBy : ℕ
  createdAt : ℕ
  deriving DecidableEq

structure Replacement where
  id : ℕ
  hash : String
  status : ℕ
  blockNumber : ℕ
  blockHash : String
  deriving DecidableEq

/-- A conversation. -/
structure Thread where
  id : ℕ
  market : Address
  chainId : ℕ
  offerId : ℕ
  sourceDigest : String
  original : Terms
  lender : Address
  borrower : Address
  revision : ℕ
  state : State
  latest : Proposal
  agreedBy : Option Address
  agreedAt : Option ℕ
  cancelAfterBlock : Option ℕ
  cancelHash : Option String
  attempt : Option ℕ
  fundAfterBlock : Option ℕ
  replacement : Option Replacement
  createdAt : ℕ
  updatedAt : ℕ
  deriving DecidableEq

def Thread.sourceKey (row : Thread) : SourceKey := ⟨row.chainId, row.market, row.offerId⟩

/-- The binding of an action to a conversation as its signer saw it. -/
structure Ref where
  threadId : ℕ
  revision : ℕ
  proposalId : ℕ
  sourceDigest : String
  lender : Address
  borrower : Address
  proposalTerms : Terms
  deriving DecidableEq

inductive Action
  | login
  | open_ (offerId : ℕ) (sourceDigest : String) (terms : Terms) (responseBy : ℕ)
  | counter (ref : Ref) (terms : Terms) (responseBy : ℕ)
  | agree (ref : Ref)
  | close (ref : Ref)
  | start (ref : Ref)
  | cancelled (ref : Ref) (hash : String)
  | prepare (ref : Ref)
  | bind (ref : Ref) (hash : String)
  deriving DecidableEq

structure Envelope where
  version : ℕ
  origin : String
  account : Address
  market : Address
  chainId : ℕ
  nonce : ℕ
  issuedAt : ℕ
  validUntil : ℕ
  action : Action
  deriving DecidableEq

/-- A signed envelope: what its request hash is of. -/
structure Signed where
  envelope : Envelope
  signature : String
  deriving DecidableEq

def Action.ref : Action → Option Ref
  | .login => none
  | .open_ _ _ _ _ => none
  | .counter ref _ _ => some ref
  | .agree ref => some ref
  | .close ref => some ref
  | .start ref => some ref
  | .cancelled ref _ => some ref
  | .prepare ref => some ref
  | .bind ref _ => some ref

/-- The terms and the deadline that an action proposes. -/
def Action.proposal : Action → Option (Terms × ℕ)
  | .open_ _ _ terms responseBy => some (terms, responseBy)
  | .counter _ terms responseBy => some (terms, responseBy)
  | _ => none

/-- What `source` returns: the offer, and the block it was read at. -/
structure Source where
  id : ℕ
  lender : Address
  borrower : Address
  terms : Terms
  digest : String
  status : ℕ
  now : ℕ
  blockNumber : ℕ
  blockHash : String
  backed : Bool
  /-- The nominal of the credit, where the status has one. -/
  credit : Option ℕ

inductive Result
  | session (token until_ : ℕ) (account : Address)
  | thread (now : ℕ) (row : Thread)
  deriving DecidableEq

/-- A signed action that was accepted, by the digest of its bytes. -/
structure NonceRow (Digest : Type) where
  account : Address
  nonce : ℕ
  hash : Digest
  result : Result
  time : ℕ

structure EventRow where
  thread : ℕ
  time : ℕ
  signed : Signed

structure SessionRow where
  token : ℕ
  account : Address
  expires : ℕ

/-- The database, the clock of the service, the time of the chain, and the number of identifiers
that `randomUUID` has drawn. -/
structure World (Digest : Type) where
  threads : List Thread
  selections : SourceKey → Option ℕ
  nonces : List (NonceRow Digest)
  events : List EventRow
  sessions : List SessionRow
  now : ℕ
  chainTime : ℕ
  uuids : ℕ

/-- The configuration, and the hash. -/
structure Service (Digest : Type) where
  origin : String
  registry : List Market
  digest : Signed → Digest
  sourceDigest : (market : Address) → (chainId id : ℕ) → (lender borrower : Address) → Terms → String
  keccak256 : String → String

variable {Digest : Type} [DecidableEq Digest]

def MAX_SAFE_INTEGER : ℕ := 2 ^ 53 - 1

def World.get (id : ℕ) (s : World Digest) : Option Thread :=
  s.threads.find? fun row => row.id = id

def participant (row : Thread) (account : Address) : Prop :=
  row.borrower = account ∨ row.lender = account

instance (row : Thread) (account : Address) : Decidable (participant row account) :=
  inferInstanceAs (Decidable (_ ∨ _))

def World.visible (id : ℕ) (account : Address) (s : World Digest) : Except Err Thread := do
  let row ← orRevert (s.get id) .conversationUnavailable
  revertIf (¬participant row account) .conversationUnavailable
  pure row

/-! ### The envelope -/

def zero : Address := Fin.ofNat (2 ^ 160) 0

def negotiationTerms (terms : Terms) (now : ℕ) : Except Err Unit :=
  revertIf (2 ^ 256 ≤ terms.principal ∨ 2 ^ 256 ≤ terms.collateral ∨ 2 ^ 256 ≤ terms.interest ∨
    terms.principal = 0 ∨ terms.collateral = 0 ∨ 2 ^ 256 ≤ terms.principal + terms.interest ∨
    MAX_SAFE_INTEGER < terms.durationDays ∨ terms.durationDays < 1 ∨
    MAX_SAFE_INTEGER < terms.expiresAt ∨ terms.expiresAt ≤ now ∨
    8640000000000 < terms.expiresAt + terms.durationDays * 86400 + 86400) .checkTerms

def marketFor (svc : Service Digest) (market : Address) (chainId : ℕ) : Except Err Market := do
  let m ← orRevert (svc.registry.find? fun m => m.address = market) .chooseCurrentMarket
  revertIf (m.chainId ≠ chainId) .chooseCurrentMarket
  pure m

def checkEnvelope (svc : Service Digest) (e : Envelope) (now : ℕ) : Except Err Market := do
  revertIf (e.version ≠ 1 ∨ e.origin ≠ svc.origin ∨ e.account = zero ∨
    MAX_SAFE_INTEGER < e.issuedAt ∨ MAX_SAFE_INTEGER < e.validUntil ∨
    now + 30 < e.issuedAt ∨ e.issuedAt + 300 < now ∨ e.validUntil ≤ now ∨
    e.issuedAt + 300 < e.validUntil ∨ e.validUntil ≤ e.issuedAt) .signatureExpired
  let config ← marketFor svc e.market e.chainId
  revertIf (e.account = config.address) .invalidParticipant
  revertIf (∃ ref ∈ e.action.ref, MAX_SAFE_INTEGER < ref.revision ∨ ref.revision < 1) .invalidRevision
  match e.action with
  | .open_ offerId _ _ _ => revertIf (offerId = 0 ∨ 2 ^ 256 ≤ offerId) .invalidSourceOffer
  | _ => pure ()
  match e.action.proposal with
  | some (terms, responseBy) => do
    negotiationTerms terms now
    revertIf (MAX_SAFE_INTEGER < responseBy ∨ responseBy ≤ now ∨ terms.expiresAt ≤ responseBy)
      .respondBy
  | none => pure ()
  pure config

/-! ### The actions -/

def sourceOpen (s : Source) (now : ℕ) : Except Err Unit :=
  revertIf (s.status ≠ 1 ∨ s.terms.expiresAt ≤ max now s.now ∨ s.backed = false) .offerNotOpen

/-- The row of a new conversation; its identifier and that of its proposal are drawn. -/
def onOpen (config : Market) (account : Address) (offerId : ℕ) (terms : Terms) (responseBy : ℕ)
    (s : Source) (w : World Digest) : Except Err Thread := do
  sourceOpen s w.now
  revertIf (s.lender = account ∨ s.borrower ≠ zero ∧ s.borrower ≠ account) .notEligible
  revertIf (s.terms.expiresAt ≤ responseBy) .respondBy
  revertIf (∃ row ∈ w.threads, row.sourceKey = ⟨config.chainId, config.address, offerId⟩ ∧
    row.borrower = account ∧ row.state ≠ .closed) .conversationExists
  pure
    { id := w.uuids
      market := config.address
      chainId := config.chainId
      offerId
      sourceDigest := s.digest
      original := s.terms
      lender := s.lender
      borrower := account
      revision := 1
      state := .open_
      latest := ⟨w.uuids + 1, account, terms, responseBy, w.now⟩
      agreedBy := none
      agreedAt := none
      cancelAfterBlock := none
      cancelHash := none
      attempt := none
      fundAfterBlock := none
      replacement := none
      createdAt := w.now
      updatedAt := w.now }

def onClose (row : Thread) (w : World Digest) :
    Except Err (Thread × (SourceKey → Option ℕ)) := do
  revertIf (row.state = .replacing ∨ row.state = .recovering ∨ row.state = .funding ∨
    row.state = .funded) .replacementStarted
  pure ({ row with state := .closed },
    fun key => if w.selections key = some row.id then none else w.selections key)

/-- The check of `counter` and `agree`. -/
def proposalOpen (row : Thread) (s : Source) (now : ℕ) : Except Err Unit := do
  sourceOpen s now
  revertIf (row.state ≠ .open_ ∨ row.latest.responseBy ≤ max now s.now) .proposalExpired

def onCounter (account : Address) (terms : Terms) (responseBy : ℕ) (row : Thread)
    (s : Source) (w : World Digest) : Except Err Thread := do
  proposalOpen row s w.now
  revertIf (s.terms.expiresAt ≤ responseBy) .respondBy
  pure { row with latest := ⟨w.uuids, account, terms, responseBy, w.now⟩ }

/-- The selection of a source, less an agreement that has expired. -/
def selected (row : Thread) (s : Source) (w : World Digest) : Option ℕ :=
  match w.selections row.sourceKey with
  | some thread =>
    if thread = row.id then some thread
    else match w.get thread with
      | some prior =>
        if prior.state = .agreed ∧ prior.latest.responseBy ≤ max w.now s.now then none
        else some thread
      | none => some thread
  | none => none

def onAgree (account : Address) (row : Thread) (s : Source) (w : World Digest) :
    Except Err (Thread × (SourceKey → Option ℕ)) := do
  proposalOpen row s w.now
  revertIf (row.latest.author = account) .otherMustAgree
  revertIf (∃ thread ∈ selected row s w, thread ≠ row.id) .alreadySelected
  pure ({ row with state := .agreed, agreedBy := some account, agreedAt := some w.now },
    update w.selections row.sourceKey (some row.id))

def onStart (account : Address) (row : Thread) (s : Source) (w : World Digest) :
    Except Err Thread := do
  revertIf (row.lender ≠ account) .onlyLender
  sourceOpen s w.now
  revertIf (row.state ≠ .agreed ∨ row.latest.responseBy ≤ max w.now s.now) .agreementExpired
  pure { row with state := .replacing, cancelAfterBlock := some s.blockNumber }

def onCancelled (account : Address) (hash : String) (row : Thread) :
    Except Err Thread := do
  revertIf (row.lender ≠ account) .onlyLender
  revertIf (row.state ≠ .replacing) .stepChanged
  pure { row with cancelHash := some hash, state := .recovering }

def onPrepare (account : Address) (row : Thread) (s : Source) (w : World Digest) :
    Except Err Thread := do
  revertIf (row.lender ≠ account) .onlyLender
  revertIf (row.state ≠ .recovering ∨ s.status ≠ 5 ∨ s.credit ≠ some 0 ∨
    row.latest.terms.expiresAt ≤ max w.now s.now) .withdrawFirst
  pure
    { row with
      state := .funding
      attempt := some w.uuids
      fundAfterBlock := some s.blockNumber }

def onBind (hash : String) (row : Thread) (linked : Source) :
    Except Err Thread := do
  revertIf (row.state ≠ .funding) .notAwaitingFunding
  pure
    { row with
      state := .funded
      replacement := some ⟨linked.id, hash, linked.status, linked.blockNumber, linked.blockHash⟩ }

/-- What an action makes of the row it names, and of the selections. -/
def onRow (account : Address) (action : Action) (row : Thread)
    (src linked : Option Source) (w : World Digest) :
    Except Err (Thread × (SourceKey → Option ℕ)) :=
  match action with
  | .close _ => onClose row w
  | .counter _ terms responseBy => do
    let s ← orRevert src .rpc
    let row ← onCounter account terms responseBy row s w
    pure (row, w.selections)
  | .agree _ => do
    let s ← orRevert src .rpc
    onAgree account row s w
  | .start _ => do
    let s ← orRevert src .rpc
    let row ← onStart account row s w
    pure (row, w.selections)
  | .cancelled _ hash => do
    let row ← onCancelled account hash row
    pure (row, w.selections)
  | .prepare _ => do
    let s ← orRevert src .rpc
    let row ← onPrepare account row s w
    pure (row, w.selections)
  | .bind _ hash => do
    let linked ← orRevert linked .rpc
    let row ← onBind hash row linked
    pure (row, w.selections)
  | _ => .error .conversationChanged

/-! ### The transaction -/

/-- The statements that follow every action on a conversation. -/
def record (signed : Signed) (row : Thread) (selections : SourceKey → Option ℕ)
    (w : World Digest) : Result × World Digest :=
  (.thread w.now row,
    { w with
      threads := Table.upsert Thread.id row w.threads
      selections
      events := w.events ++ [⟨row.id, w.now, signed⟩]
      uuids := w.uuids + 2 })

def login (account : Address) (w : World Digest) : Result × World Digest :=
  (.session w.uuids (w.now + 3600) account,
    { w with
      sessions := (w.sessions.filter fun row => w.now < row.expires) ++
        [⟨w.uuids, account, w.now + 3600⟩]
      uuids := w.uuids + 1 })

/-- The row that the action names, unchanged since it was signed. -/
def currentRow (ref : Ref) (account : Address) (w : World Digest) :
    Except Err Thread := do
  let row ← w.visible ref.threadId account
  revertIf (row.revision ≠ ref.revision ∨ row.latest.id ≠ ref.proposalId) .conversationChanged
  pure row

def perform (svc : Service Digest) (signed : Signed) (src linked : Option Source)
    (w : World Digest) : Except Err (Result × World Digest) := do
  let e := signed.envelope
  match e.action with
  | .login => pure (login e.account w)
  | .open_ offerId _ terms responseBy => do
    let config ← marketFor svc e.market e.chainId
    let s ← orRevert src .rpc
    let row ← onOpen config e.account offerId terms responseBy s w
    pure (record signed row w.selections w)
  | action => do
    let ref ← orRevert action.ref .conversationChanged
    let row ← currentRow ref e.account w
    let (row, selections) ← onRow e.account action row src linked w
    pure (record signed { row with revision := row.revision + 1, updatedAt := w.now } selections w)

/-- The stored answer to a signed action. -/
def World.nonceRow (account : Address) (nonce : ℕ) (w : World Digest) : Option (NonceRow Digest) :=
  w.nonces.find? fun row => row.account = account ∧ row.nonce = nonce

def commit (svc : Service Digest) (signed : Signed) (src linked : Option Source)
    (w : World Digest) : Except Err (Result × World Digest) := do
  let e := signed.envelope
  let _ ← checkEnvelope svc e w.now
  match w.nonceRow e.account e.nonce with
  | some duplicate => do
    revertIf (duplicate.hash ≠ svc.digest signed) .nonceConflict
    pure (duplicate.result, w)
  | none => do
    revertIf (12 ≤ (w.nonces.filter fun row => row.account = e.account ∧ w.now < row.time + 60).length)
      .tooManyActions
    let (result, after) ← perform svc signed src linked w
    pure (result,
      { after with
        nonces := after.nonces ++ [⟨e.account, e.nonce, svc.digest signed, result, w.now⟩] })

end Turret.Negotiations
