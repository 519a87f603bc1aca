import Turret.Library.Table

/-! The borrower alerts of the pooled protocols, `engine.mjs`: the stored rows and
the parts of the engine that run without a pause. The clock is the sequence of its
readings, in milliseconds. What the theorems need to know of a run is kept beside
the rows, for the theorems alone. -/

namespace Turret.Alerts

abbrev Wallet := String

inductive Channel
  | email
  | telegram
  deriving DecidableEq

/-- `wallet:channel`. -/
structure SubId where
  wallet : Wallet
  channel : Channel
  deriving DecidableEq

/-- `wallet:market`. -/
structure RiskKey where
  wallet : Wallet
  market : String
  deriving DecidableEq

inductive Status
  | noDebt
  | unknown
  | healthy
  | warning
  | critical
  | eligible
  deriving DecidableEq

/-- Zero for what is not in the table. -/
def riskSeverity : Status → ℕ
  | .warning => 1
  | .critical => 2
  | .eligible => 3
  | _ => 0

inductive InputError
  | tooManyRequests
  | invalidEmail
  | expiredLink
  | privateChat
  deriving DecidableEq

def minute : ℕ := 60000
def hour : ℕ := 3600000

/-! ### The rows -/

/-- What a borrower agreed to, at an activation. -/
structure Consent where
  contact : Option String
  created : ℕ
  startBlock : Option ℕ
  deriving DecidableEq

structure Subscription where
  id : SubId
  consent : Consent
  delivered : Option ℕ
  failed : Bool
  deriving DecidableEq

structure Pending where
  id : String
  sub : SubId
  contact : Option String
  expires : ℕ
  deriving DecidableEq

inductive JobId
  | verify (pending : String)
  | risk (sub : SubId) (key : RiskKey) (time : ℕ)
  deriving DecidableEq

/-- A confirmation of an address, or a warning to a subscription. -/
inductive JobBody
  | verify (sub : SubId) (contact : Option String) (pending : String)
  | risk (sub : SubId) (key : RiskKey) (status : Status)
  deriving DecidableEq

structure Job where
  id : JobId
  body : JobBody
  text : String
  attempts : ℕ
  next : ℕ
  expires : ℕ
  deriving DecidableEq

structure RiskRow where
  key : RiskKey
  status : Status
  notifiedStatus : Option Status
  sent : Option ℕ
  deriving DecidableEq

structure RateRow where
  id : String
  count : ℕ
  expires : ℕ
  deriving DecidableEq

structure Health where
  status : Status
  bufferBps : Option ℕ
  deriving DecidableEq

/-- A warning that is being sent. -/
structure Start where
  job : Job
  sub : SubId
  key : RiskKey
  status : Status
  consent : Consent
  life : ℕ
  episode : ℕ
  time : ℕ

/-- A warning that was sent. -/
structure Message where
  start : Start
  time : ℕ

structure Observation where
  key : RiskKey
  status : Status
  time : ℕ

structure World where
  /-- How often the clock was read. -/
  reads : ℕ
  subscriptions : List Subscription
  pending : List Pending
  outbox : List Job
  risk : List RiskRow
  rate : List RateRow
  /-- The consent of the latest activation, unless the subscription was removed since. -/
  consents : SubId → Option Consent
  /-- The number of activations. -/
  lives : SubId → ℕ
  /-- The number of observations without debt. -/
  episodes : RiskKey → ℕ
  /-- What is left of the outbox that a delivery has read. -/
  pass : List Job
  flight : Option Start
  starts : List Start
  messages : List Message
  observed : List Observation

structure Engine where
  vault : String
  positionUrl : String
  verificationUrl : String
  hash : String → String
  /-- The readings of the clock. -/
  times : ℕ → ℕ
  /-- The outbox in the order in which the database returns it. -/
  all : World → List Job

variable (x : Engine)

/-- What the next reading of the clock gives. -/
def Engine.now (w : World) : ℕ := x.times w.reads

def World.tick (w : World) : World := { w with reads := w.reads + 1 }

def World.subscription (w : World) (id : SubId) : Option Subscription :=
  w.subscriptions.find? (·.id = id)

def World.riskRow (w : World) (key : RiskKey) : Option RiskRow := w.risk.find? (·.key = key)

def putSubscription (row : Subscription) (w : World) : World :=
  { w with subscriptions := Table.upsert Subscription.id row w.subscriptions }

def putRisk (row : RiskRow) (w : World) : World :=
  { w with risk := Table.upsert RiskRow.key row w.risk }

def putJob (job : Job) (w : World) : World :=
  { w with outbox := Table.upsert Job.id job w.outbox }

def putPending (row : Pending) (w : World) : World :=
  { w with pending := Table.upsert Pending.id row w.pending }

/-- A new link is the only one of its subscription. -/
def forgetPending (sub : SubId) (w : World) : World :=
  { w with pending := w.pending.filter (·.sub ≠ sub) }

def deleteJob (id : JobId) (w : World) : World :=
  { w with outbox := w.outbox.filter (·.id ≠ id) }

/-- `store.delete("outbox", …)` for every job that meets `p`. -/
def deleteJobs (p : Job → Bool) (w : World) : World :=
  { w with outbox := w.outbox.filter fun job => !p job }

/-! ### Requests -/

/-- A request that may throw; what it has stored before stays. -/
abbrev Req := ExceptT InputError (StateM World)

def readClock : Req ℕ := do
  let w ← get
  set w.tick
  pure (x.now w)

def demand (c : Prop) [Decidable c] (e : InputError) : Req Unit :=
  if c then pure () else throw e

/-- The row of a limit, or a new one where the time of the old one is over. -/
def liveRate (id : String) (duration : ℕ) : Req RateRow := do
  let w ← get
  match w.rate.find? (·.id = id) with
  | some old => do
    let time ← readClock x
    if time < old.expires then pure old
    else do
      let start ← readClock x
      pure ⟨id, 0, start + duration⟩
  | none => do
    let start ← readClock x
    pure ⟨id, 0, start + duration⟩

def rate (key : String) (limit duration : ℕ) : Req Unit := do
  let row ← liveRate x (x.hash key) duration
  demand (row.count < limit) .tooManyRequests
  modify fun w => { w with
    rate := Table.upsert RateRow.id { row with count := row.count + 1 } w.rate }

def plainChar (c : Char) : Bool := !c.isWhitespace && c != '@' && c != '<' && c != '>'

/-- Plain characters around one `@`, with a dot inside of the second part. -/
def validEmail (email : String) : Bool :=
  decide (email.length ≤ 254) &&
  match email.toList.splitOn '@' with
  | [name, host] => !name.isEmpty && name.all plainChar && host.all plainChar &&
      (host.drop 1).dropLast.contains '.'
  | _ => false

/-- `enqueue`; the identifier and the body are always such as may be delivered. -/
def enqueue (id : JobId) (body : JobBody) (text : String) (expires : ℕ) (w : World) : World :=
  if w.outbox.any (·.id = id) then w
  else putJob ⟨id, body, text, 0, x.now w, expires⟩ w.tick

def checkEmail (email : Option String) : Req Unit :=
  match email with
  | none => throw .invalidEmail
  | some email => do
    demand (validEmail email = true) .invalidEmail
    rate x ("email:" ++ email.toLower) 3 hour

def checkContact (sub : SubId) (email : Option String) : Req Unit :=
  if sub.channel = .email then checkEmail x email else pure ()

def subscribe (sub : SubId) (email : Option String) (verification : String) : Req Unit := do
  rate x ("subscribe:" ++ sub.wallet) 5 hour
  checkContact x sub email
  let contact := if sub.channel = .email then email else none
  modify (forgetPending sub)
  let time ← readClock x
  let row : Pending := ⟨x.hash verification, sub, contact, time + 15 * minute⟩
  modify (putPending row)
  if sub.channel = .email then
    modify (enqueue x (.verify row.id) (.verify sub contact row.id)
      ("Confirm Turret alerts for wallet " ++ sub.wallet ++ ":\n" ++ x.verificationUrl ++ "#" ++
        verification ++
        "\nThis link expires in 15 minutes. Ignore it if you did not request alerts.") row.expires)
  else pure ()

def Job.belongsTo (job : Job) (id : SubId) : Bool :=
  match job.body with
  | .verify sub _ _ => sub = id
  | .risk sub _ _ => sub = id

/-- The rows of a wallet without subscriptions are deleted too. -/
def remove (id : SubId) (w : World) : World :=
  let subscriptions := w.subscriptions.filter (·.id ≠ id)
  { w with
    subscriptions := subscriptions
    pending := w.pending.filter (·.sub ≠ id)
    outbox := w.outbox.filter fun job => !job.belongsTo id
    risk :=
      if subscriptions.any (·.id.wallet = id.wallet) then w.risk
      else w.risk.filter (·.key.wallet ≠ id.wallet)
    consents := Function.update w.consents id none }

def isChat (chat : String) : Bool := !chat.isEmpty && chat.toList.all Char.isDigit

/-- The row of a new subscription. -/
def enroll (sub : SubId) (consent : Consent) (w : World) : World :=
  { putSubscription ⟨sub, consent, none, false⟩ w with
    consents := Function.update w.consents sub (some consent)
    lives := Function.update w.lives sub (w.lives sub + 1) }

/-- The link is followed. -/
def confirm (row : Pending) (channel : Channel) (chat : Option String) (startBlock : Option ℕ) :
    Req Unit := do
  demand (row.sub.channel = channel) .expiredLink
  let time ← readClock x
  demand (time < row.expires) .expiredLink
  demand (channel = .email ∨ chat.any isChat = true) .privateChat
  modify (remove row.sub)
  let created ← readClock x
  modify (enroll row.sub ⟨chat <|> row.contact, created, startBlock⟩)

def activate (verification : String) (channel : Channel) (chat : Option String)
    (startBlock : Option ℕ) : Req Unit := do
  let w ← get
  match w.pending.find? (·.id = x.hash verification) with
  | none => throw .expiredLink
  | some row => confirm x row channel chat startBlock

/-! ### Observations -/

def description : Status → String
  | .eligible =>
    "Your position is liquidation-eligible. Act immediately; a liquidation may already be in flight."
  | .critical => "Your position is critically close to liquidation."
  | .warning => "Your position is approaching liquidation."
  | _ => ""

/-- Basis points as a percentage with two decimals. -/
def percentage (bps : ℕ) : String :=
  toString (bps / 100) ++ "." ++ (if bps % 100 < 10 then "0" else "") ++ toString (bps % 100)

def warningText (key : RiskKey) (health : Health) : String :=
  let detail := match health.bufferBps with
    | none => ""
    | some bps => " Remaining oracle-price decline to threshold: " ++ percentage bps ++ "%."
  "Turret: " ++ description health.status ++ detail ++ "\nWallet: " ++ key.wallet ++ "\nVault: " ++
    x.vault ++ "\nCollateral: " ++ key.market ++ "\nAdd collateral or repay USDG: " ++
    x.positionUrl ++ "\nAlerts are best-effort, not liquidation protection."

def Job.warns (job : Job) (key : RiskKey) : Bool :=
  match job.body with
  | .verify _ _ _ => false
  | .risk _ k _ => k = key

/-- The status that a warning tells. -/
def Job.riskStatus (job : Job) : Option Status :=
  match job.body with
  | .verify _ _ _ => none
  | .risk _ _ status => some status

/-- A job of the subscription gives way to the new one. -/
def notifyOne (key : RiskKey) (status : Status) (text : String) (time : ℕ) (w : World)
    (sub : SubId) : World :=
  let w := deleteJobs (fun job => job.warns key && job.belongsTo sub) w
  enqueue x (.risk sub key time) (.risk sub key status) text (x.now w + hour) w.tick

def notify (key : RiskKey) (status : Status) (text : String) (time : ℕ) (w : World) : World :=
  (w.subscriptions.filter (·.id.wallet = key.wallet)).foldl
    (fun w sub => notifyOne x key status text time w sub.id) w

/-- The warning is named by a reading of the clock. -/
def warn (key : RiskKey) (health : Health) (w : World) : World :=
  notify x key health.status (warningText x key health) (x.now w) w.tick

/-- The market is at risk, and was in the state `previous` before. -/
def atRisk (key : RiskKey) (health : Health) (previous : Option RiskRow) (w : World) : World :=
  let w := if previous.map RiskRow.status = some health.status then w
    else deleteJobs (fun job => job.warns key && job.riskStatus != some health.status) w
  let alreadyQueued := w.outbox.any fun job =>
    job.warns key && job.riskStatus == some health.status
  let w := putRisk ⟨key, health.status, previous.bind RiskRow.notifiedStatus,
    previous.bind RiskRow.sent⟩ w
  if alreadyQueued then w
  else
    match previous.bind RiskRow.notifiedStatus with
    | none => warn x key health w
    | some notified =>
      if riskSeverity notified < riskSeverity health.status then warn x key health w
      else if hour ≤ x.now w - ((previous.bind RiskRow.sent).getD 0) then warn x key health w.tick
      else w.tick

/-- A market without debt has no history. -/
def forget (key : RiskKey) (status : Status) (w : World) : World :=
  { putRisk ⟨key, status, none, none⟩ w with
    episodes := Function.update w.episodes key (w.episodes key + 1) }

/-- A market that is not at risk. -/
def notAtRisk (key : RiskKey) (status : Status) (previous : Option RiskRow) (w : World) : World :=
  let w := deleteJobs (·.warns key) w
  if status = .noDebt then forget key status w
  else
    putRisk ⟨key, status, previous.bind RiskRow.notifiedStatus, previous.bind RiskRow.sent⟩ w

def risk (key : RiskKey) (health : Health) (w : World) : World :=
  if w.subscriptions.any (·.id.wallet = key.wallet) then
    let w' :=
      if riskSeverity health.status = 0 then notAtRisk key health.status (w.riskRow key) w
      else atRisk x key health (w.riskRow key) w
    { w' with observed := w.observed ++ [⟨key, health.status, x.now w⟩] }
  else w

end Turret.Alerts
