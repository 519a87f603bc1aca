import Turret.Requests.Board

/-! The service of the board. A submission is checked outside of the queue, and
again and applied by the queue, one action after the other. Every reading of the
clock is a step of its own. A write may fail before or after the new state has
reached the store. What was executed, stored and shown is kept beside the state,
for the theorems alone. -/

namespace Turret.Requests

open Execution Tasks Tasks.Program HexText

/-- Where the clock is read: when the remembered nonces are filtered for an envelope, or elsewhere. -/
inductive Site
  | nonces (envelope : Envelope)
  | other
  deriving DecidableEq

/-- What becomes of a write. -/
inductive Outcome
  | written
  | reached
  | lost
  deriving DecidableEq

/-- The filters of a listing. -/
structure Filter where
  market : Option Address
  account : Option Address
  cursor : Option ℕ
  requestId : Option String
  deriving DecidableEq

inductive Job
  | submit (envelope : Envelope)
  | list (filter : Filter)
  deriving DecidableEq

structure World where
  clock : ℕ
  /-- `state` of the service. -/
  memory : Option Board
  disk : Option Board
  queue : List Job
  /-- The identifiers that were made. -/
  generated : List String
  executed : List Envelope
  /-- The states that the store has had. -/
  stored : List Board
  /-- The states that a decision was taken on, or that a reply shows. -/
  used : List Board

inductive Query
  | now (site : Site)
  | uuid
  | chainId
  | verify (envelope : Envelope) (signature : String)
  | client
  | read
  | write
  deriving DecidableEq

def Query.Result : Query → Type
  | now _ => ℕ
  | uuid => String
  | chainId => ℕ
  | verify _ _ => Bool
  | client => ChainClient
  | read => Unit
  | write => Outcome

abbrev Prog := Program World Query (fun q => Except Err q.Result) Err

/-- The configuration of the service, with the registered markets, and the hash of the client
library. -/
structure Service where
  origin : String
  markets : List Market
  maxRecords : ℕ
  keccak256 : String → String

variable (x : Service)

def call (q : Query) : Prog q.Result := Program.call q

def now : Prog ℕ := call (.now .other)

/-- An identifier that was never made before. -/
def randomUUID : Prog String := do
  let id ← call .uuid
  modify fun world => { world with generated := id :: world.generated }
  pure id

/-- The entries that meet `p` and end after the clock, which is read for each of these. -/
def filterLive {α : Type} (site : Site) (p : α → Bool) (ends : α → ℕ) : List α → Prog (List α)
  | [] => pure []
  | item :: items =>
    if p item then do
      let time : ℕ ← call (.now site)
      let rest ← filterLive site p ends items
      pure (if time < ends item then item :: rest else rest)
    else filterLive site p ends items

def marketFor (market : Address) : Except Err Market :=
  orRevert (x.markets.find? (·.address = market)) .unknownMarket

def validateTerms (terms : Option Terms) : Prog Unit :=
  match terms with
  | none => pure ()
  | some terms => do
    let time ← now
    throwIf (validTerms terms time (time + 30 * 86400) = false) .invalidTerms

def validateEnvelope (e : Envelope) : Prog Market := do
  throwIf (e.version ≠ 1 ∨ e.origin ≠ x.origin ∨ isAccount e.account = false ∨
    isHash e.nonce = false) .expiredEnvelope
  let early ← now
  throwIf (early + 30 < e.issuedAt) .expiredEnvelope
  let late ← now
  throwIf (e.issuedAt + 300 < late) .expiredEnvelope
  let time ← now
  throwIf (e.validUntil ≤ time) .expiredEnvelope
  throwIf (e.issuedAt + 300 < e.validUntil ∨ e.validUntil ≤ e.issuedAt ∨
    e.action.wellFormed = false) .expiredEnvelope
  let config ← lift (marketFor x e.market)
  throwIf (config.chainId ≠ e.chainId) .unknownMarket
  throwIf (e.account = config.address) .marketAccount
  validateTerms e.action.terms
  pure config

/-- What a caller does before it joins the queue. -/
def submit (e : Envelope) (signature : String) : Prog Unit := do
  let config ← validateEnvelope x e
  throwIf (isBytes signature = false ∨ 4098 < signature.length) .invalidSignature
  let chainId : ℕ ← call .chainId
  throwIf (chainId ≠ config.chainId) .wrongChain
  let signed : Bool ← call (.verify e signature)
  throwIf (signed = false) .signatureMismatch
  modify fun world => { world with queue := world.queue ++ [.submit e] }

def checkMarket (market : Option Address) : Prog Unit :=
  match market with
  | none => pure ()
  | some market => do
    let _ ← lift (marketFor x market)
    pure ()

def list (filter : Filter) : Prog Unit := do
  checkMarket x filter.market
  throwIf (filter.account.any (!isAccount ·) ∨ filter.requestId.any (!isUuid ·) ∨
    filter.cursor.any fun cursor => decide (cursor = 0 ∨ maxSafeInteger < cursor)) .invalidFilter
  modify fun world => { world with queue := world.queue ++ [.list filter] }

/-! ### The queue -/

/-- What was read from the store, or the state of a store without a file. -/
def checkSaved (saved : Option Board) : Except Err Board :=
  match saved with
  | none => .ok (emptyBoard x.origin)
  | some board => do
    revertIf (board.schemaVersion ≠ 1 ∨ board.origin ≠ x.origin ∨
      x.maxRecords < board.requests.length ∨ board.nextSequence < 1) .invalidStorage
    .ok board

def load : Prog Board := do
  let world ← look
  match world.memory with
  | some board => do
    modify fun world => { world with used := world.used ++ [board] }
    pure board
  | none => do
    call .read
    attempt fun world => do
      let board ← checkSaved x world.disk
      .ok (board, { world with memory := some board, used := world.used ++ [board] })

/-- The requests with one replaced. -/
def put (row : Row) (requests : List Row) : List Row :=
  requests.map fun other => if other.id = row.id then row else other

def putProposal (proposal : Proposal) (proposals : List Proposal) : List Proposal :=
  proposals.map fun other => if other.id = proposal.id then proposal else other

def publish (e : Envelope) (config : Market) (terms : Terms) (board : Board) :
    Prog (Board × Row) := do
  throwIf (x.maxRecords ≤ board.requests.length) .capacity
  let live ← filterLive .other
    (fun row => decide (row.borrower = e.account ∧ row.status ≠ .cancelled))
    (fun row => row.terms.expiresAt) board.requests
  throwIf (5 ≤ live.length) .tooManyRequests
  let id ← randomUUID
  let createdAt ← now
  let row : Row := {
    id := id
    sequence := board.nextSequence
    revision := 1
    market := config.address
    chainId := config.chainId
    borrower := e.account
    terms := terms
    createdAt := createdAt
    status := .opened
    proposals := []
    acceptedProposalId := none }
  pure ({ board with nextSequence := board.nextSequence + 1, requests := board.requests ++ [row] },
    row)

def cancel (e : Envelope) (row : Row) : Prog Row := do
  throwIf (row.borrower ≠ e.account) .onlyBorrower
  throwIf (row.status = .cancelled) .alreadyCancelled
  pure { row with status := .cancelled }

/-- The offer is linked to another proposal of the market. -/
def linkedElsewhere (board : Board) (row : Row) (proposal : Proposal) (offerId : ℕ) : Bool :=
  board.requests.any fun item => item.proposals.any fun p =>
    decide (p.fundedOffer.map FundedOffer.id = some offerId ∧ item.market = row.market ∧
      p.id ≠ proposal.id)

def bind (e : Envelope) (config : Market) (board : Board) (row : Row) (proposalId : String)
    (offerId : ℕ) : Prog Row := do
  let proposal ← lift (orRevert (row.proposals.find? (·.id = proposalId)) .onlyParties)
  throwIf (row.borrower ≠ e.account ∧ proposal.lender ≠ e.account) .onlyParties
  throwIf (proposal.fundedOffer.any (·.id ≠ offerId)) .alreadyLinked
  throwIf (linkedElsewhere board row proposal offerId = true) .linkedElsewhere
  let answers ← call .client
  let verified ← lift (Client.read (verifyOffer x.keccak256 config row proposal offerId) answers)
  let checkedAt ← now
  let link : FundedOffer :=
    ⟨offerId, verified.1, verified.2.number, verified.2.hash, checkedAt⟩
  pure { row with
    proposals := putProposal { proposal with fundedOffer := some link } row.proposals }

/-- The request is open or agreed, and has not expired. -/
def checkLive (row : Row) : Prog Unit := do
  throwIf (row.status = .cancelled) .requestClosed
  let time ← now
  throwIf (row.terms.expiresAt ≤ time) .requestClosed

def propose (e : Envelope) (row : Row) (terms : Terms) : Prog Row := do
  checkLive row
  throwIf (row.borrower = e.account) .sameWallet
  throwIf (20 ≤ row.proposals.length) .proposalLimit
  let live ← filterLive .other
    (fun proposal => decide (proposal.lender = e.account ∧ proposal.cancelled = false))
    (fun proposal => proposal.terms.expiresAt) row.proposals
  throwIf (3 ≤ live.length) .tooManyProposals
  let time ← now
  throwIf (validTerms terms time row.terms.expiresAt = false) .invalidTerms
  let id ← randomUUID
  let createdAt ← now
  pure { row with
    proposals := row.proposals ++ [⟨id, e.account, terms, createdAt, false, none⟩] }

def accept (e : Envelope) (row : Row) (proposalId : String) : Prog Row := do
  checkLive row
  throwIf (row.borrower ≠ e.account) .onlyBorrower
  let proposal ← lift (orRevert (row.proposals.find? (·.id = proposalId)) .unavailableProposal)
  throwIf (proposal.cancelled = true) .unavailableProposal
  let time ← now
  throwIf (proposal.terms.expiresAt ≤ time) .unavailableProposal
  pure { row with acceptedProposalId := some proposal.id, status := .agreed }

/-- The row without the proposal, which may have been the accepted one. -/
def withdraw (row : Row) (proposal : Proposal) : Row :=
  let proposals := putProposal { proposal with cancelled := true } row.proposals
  if row.acceptedProposalId = some proposal.id then
    { row with proposals := proposals, acceptedProposalId := none, status := .opened }
  else { row with proposals := proposals }

def cancelProposal (e : Envelope) (row : Row) (proposalId : String) : Prog Row := do
  checkLive row
  let proposal ← lift (orRevert (row.proposals.find? (·.id = proposalId)) .onlyLender)
  throwIf (proposal.lender ≠ e.account) .onlyLender
  throwIf (proposal.cancelled = true) .proposalCancelled
  pure (withdraw row proposal)

/-- The action on a request that is there. -/
def changeRequest (config : Market) (board : Board) (requestId : String) (revision : ℕ)
    (change : Row → Prog Row) : Prog (Board × Row) := do
  let row ← lift (orRevert (board.requests.find? fun row =>
    decide (row.id = requestId ∧ row.market = config.address)) .notFound)
  throwIf (row.revision ≠ revision) .changed
  let changed ← change row
  let row := { changed with revision := changed.revision + 1 }
  pure ({ board with requests := put row board.requests }, row)

def apply (e : Envelope) (config : Market) (board : Board) : Prog (Board × Row) :=
  match e.action with
  | .publish terms => publish x e config terms board
  | .propose requestId revision terms =>
    changeRequest config board requestId revision fun row => propose e row terms
  | .accept requestId revision proposalId =>
    changeRequest config board requestId revision fun row => accept e row proposalId
  | .cancel requestId revision =>
    changeRequest config board requestId revision fun row => cancel e row
  | .cancelProposal requestId revision proposalId =>
    changeRequest config board requestId revision fun row => cancelProposal e row proposalId
  | .bind requestId revision proposalId offerId =>
    changeRequest config board requestId revision fun row =>
      bind x e config board row proposalId offerId

/-- The new state is written, and then the state of the service; after a failed write the state of
the service is read again. -/
def write (e : Envelope) (next : Board) : Prog Unit := do
  let outcome : Outcome ← call .write
  match outcome with
  | .written => modify fun world => { world with
      memory := some next, disk := some next, executed := world.executed ++ [e],
      stored := world.stored ++ [next], used := world.used ++ [next] }
  | .reached => do
    modify fun world => { world with
      memory := none, disk := some next, executed := world.executed ++ [e],
      stored := world.stored ++ [next] }
    Program.fail .persistence
  | .lost => do
    modify fun world => { world with memory := none }
    Program.fail .persistence

/-- The action of a submission, in its turn. -/
def execute (e : Envelope) : Prog Row := do
  let config ← validateEnvelope x e
  let board ← load x
  let kept ← filterLive (.nonces e) (fun _ => true) UsedNonce.validUntil board.usedNonces
  throwIf (e.key ∈ kept.map UsedNonce.key) .alreadyUsed
  let recent ← filterLive .other (fun item => decide (item.key.account = e.account))
    (fun item => item.usedAt + 60) kept
  throwIf (12 ≤ recent.length) .tooMany
  let (changed, row) ← apply x e config { board with usedNonces := kept }
  let usedAt ← now
  write e { changed with usedNonces := kept ++ [⟨e.key, usedAt, e.validUntil⟩] }
  let _ ← now
  pure row

/-- The requests that a filter selects; an expired one shows only to those who ask for it. -/
def selects (filter : Filter) (row : Row) : Bool :=
  filter.market.all (· == row.market) && filter.requestId.all (· == row.id) &&
  filter.account.all (fun account =>
    account == row.borrower || row.proposals.any (·.lender == account)) &&
  (filter.requestId.isSome || filter.account.isSome || row.status != .cancelled) &&
  filter.cursor.all fun cursor => decide (row.sequence < cursor)

def page (filter : Filter) : Prog (List Row) := do
  let board ← load x
  let rows ←
    if filter.requestId.isSome ∨ filter.account.isSome then
      pure (board.requests.filter (selects filter))
    else
      filterLive .other (selects filter) (fun row => row.terms.expiresAt) board.requests
  let _ ← now
  pure ((rows.insertionSort fun a b => b.sequence ≤ a.sequence).take 30)

/-- The queue takes the next action; a reply shows the request or the page. -/
def serve : Prog (List Row) := do
  let job ← attempt fun world =>
    match world.queue with
    | [] => .error .idle
    | job :: rest => .ok (job, { world with queue := rest })
  match job with
  | .submit e => do
    let row ← execute x e
    pure [row]
  | .list filter => page x filter

/-! ### The system -/

inductive Task
  | queue
  | caller (number : ℕ)
  deriving DecidableEq

inductive Method
  | submit (envelope : Envelope) (signature : String)
  | list (filter : Filter)
  | serve

def run : Task → Method → Prog (List Row)
  | .queue, _ => serve x
  | .caller _, .submit e signature => do
    submit x e signature
    pure []
  | .caller _, .list filter => do
    list x filter
    pure []
  | .caller _, .serve => pure []

/-- Time passes. -/
def tick (seconds : ℕ) (world : World) : Option World :=
  some { world with clock := world.clock + seconds }

def answers (world : World) : (q : Query) → Except Err q.Result → Prop
  | .now _, .ok time => time = world.clock
  | .uuid, .ok id => id ∉ world.generated
  | _, _ => True

def machine : Machine World Query (fun q => Except Err q.Result) Err (List Row) Task Method ℕ where
  call := run x
  answers := answers
  env := tick

end Turret.Requests
