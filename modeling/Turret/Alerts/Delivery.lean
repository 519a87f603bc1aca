import Turret.Alerts.Engine
import Turret.Library.Tasks

/-! A delivery of the outbox, and the cycle that observes and delivers in turns. The
engine pauses only where a message is on its way; requests come in at any time. -/

namespace Turret.Alerts

open Tasks Tasks.Program

variable (x : Engine)

inductive Err
  | provider
  deriving DecidableEq

inductive Query
  | send (channel : Channel) (contact : Option String) (text : String) (id : JobId)
  deriving DecidableEq

abbrev Prog := Program World Query (fun _ => Except Err Unit) Err

/-- What becomes of a job in its turn. -/
inductive Turn
  | dropped
  | held
  | sends (sub : Option Subscription)
  deriving DecidableEq

/-- A warning is about a market that is at risk. -/
def stillAtRisk (job : Job) (w : World) : Bool :=
  match job.body with
  | .verify _ _ _ => true
  | .risk _ key _ => (w.riskRow key).any fun row => decide (riskSeverity row.status ≠ 0)

/-- The subscription is there, or the link that the job confirms. -/
def addressed (job : Job) (w : World) : Bool :=
  match job.body with
  | .verify _ _ pending => w.pending.any (·.id = pending)
  | .risk sub _ _ => (w.subscription sub).isSome

def Job.subscription (job : Job) (w : World) : Option Subscription :=
  match job.body with
  | .verify _ _ _ => none
  | .risk sub _ _ => w.subscription sub

/-- The warning that is about to be sent. -/
def Job.start (job : Job) (w : World) : Option Start :=
  match job.body with
  | .verify _ _ _ => none
  | .risk sub key status => (w.subscription sub).map fun row =>
    ⟨job, sub, key, status, row.consent, w.lives sub, w.episodes key, x.now w⟩

/-- The next job of the pass. -/
def finish (w : World) : World := { w with pass := w.pass.tail, flight := none }

def takeUp (job : Job) (w : World) : Turn × World :=
  if stillAtRisk job w = false then (.dropped, finish (deleteJob job.id w))
  else if job.expires ≤ x.now w ∨ addressed job w = false then
    (.dropped, finish (deleteJob job.id w.tick))
  else
    let w := w.tick
    if x.now w < job.next ∨ 10 ≤ job.attempts then (.held, finish w.tick)
    else
      (.sends (job.subscription w), { w.tick with
        flight := job.start x w
        starts := w.starts ++ (job.start x w).toList })

def target (job : Job) (sub : Option Subscription) : Channel × Option String :=
  match job.body with
  | .verify id contact _ => (id.channel, contact)
  | .risk id _ _ => (id.channel, sub.elim none fun row => row.consent.contact)

/-- The market was warned of; the state that was told, and when. -/
def recordRisk (job : Job) (w : World) : World :=
  match job.body with
  | .verify _ _ _ => w
  | .risk _ key status =>
    match w.riskRow key with
    | none => w
    | some row => putRisk { row with notifiedStatus := some status, sent := some (x.now w) } w.tick

/-- The subscription as it was read before, unless it is gone. -/
def putDelivered (sub : Option Subscription) (w : World) : World :=
  match sub with
  | none => w
  | some row =>
    if (w.subscription row.id).isSome then
      putSubscription { row with delivered := some (x.now w), failed := false } w.tick
    else w

def putFailed (sub : Option Subscription) (w : World) : World :=
  match sub with
  | none => w
  | some row =>
    if (w.subscription row.id).isSome then putSubscription { row with failed := true } w else w

def recordMessage (w : World) : World :=
  { w with messages := w.messages ++ (w.flight.map fun start => ⟨start, x.now w⟩).toList }

def sent (job : Job) (sub : Option Subscription) (w : World) : World :=
  finish (putDelivered x sub (recordRisk x job (deleteJob job.id (recordMessage x w))))

/-- A job that is still in the outbox is tried again later. -/
def retry (job : Job) (w : World) : World :=
  if w.outbox.any (·.id = job.id) then
    putJob { job with
      attempts := job.attempts + 1
      next := x.now w + min hour (15000 * 2 ^ (job.attempts + 1)) } w.tick
  else w

def failed (job : Job) (sub : Option Subscription) (w : World) : World :=
  finish (putFailed sub (retry x job w))

/-- The turn of one job. -/
def deliverOne (job : Job) : Prog Unit := do
  let turn ← attempt fun w => .ok (takeUp x job w)
  match turn with
  | .dropped => pure ()
  | .held => pure ()
  | .sends sub => do
    let result ← question (.send (target job sub).1 (target job sub).2 job.text job.id)
    match result with
    | .ok _ => modify (sent x job sub)
    | .error _ => modify (failed x job sub)

def deliverAll : List Job → Prog Unit
  | [] => pure ()
  | job :: jobs => do
    deliverOne x job
    deliverAll jobs

/-- The rows that the clock has not passed, which is read for each. -/
def liveRows {α : Type} (expires : α → ℕ) : List α → World → List α × World
  | [], w => ([], w)
  | row :: rows, w =>
    let rest := liveRows expires rows w.tick
    (if x.now w < expires row then row :: rest.1 else rest.1, rest.2)

def prune (w : World) : World :=
  let pending := liveRows x Pending.expires w.pending w
  let rates := liveRows x RateRow.expires w.rate pending.2
  { rates.2 with pending := pending.1, rate := rates.1 }

def deliver : Prog Unit := do
  let jobs ← attempt fun w => .ok (x.all w, { w with pass := x.all w })
  deliverAll x jobs
  modify (prune x)

/-! ### The cycle -/

inductive Task
  | tick
  deriving DecidableEq

inductive Method
  | observe (key : RiskKey) (health : Health)
  | deliver

def run : Task → Method → Prog Unit
  | .tick, .observe key health => modify (risk x key health)
  | .tick, .deliver => deliver x

inductive Event
  | subscribe (sub : SubId) (email : Option String) (verification : String)
  | activate (verification : String) (channel : Channel) (chat : Option String)
      (startBlock : Option ℕ)
  | remove (sub : SubId)
  /-- The clock is read elsewhere. -/
  | clock

def request : Event → World → World
  | .subscribe sub email verification, w => ((subscribe x sub email verification).run w).2
  | .activate verification channel chat startBlock, w =>
    ((activate x verification channel chat startBlock).run w).2
  | .remove sub, w => remove sub w
  | .clock, w => w.tick

/-- The subscription that a request may activate. -/
def activated (w : World) : Event → Option SubId
  | .activate verification _ _ _ => (w.pending.find? (·.id = x.hash verification)).map Pending.sub
  | _ => none

/-- The service, with the requests that come in. -/
def machine : Machine World Query (fun _ => Except Err Unit) Err Unit Task Method Event where
  call := run x
  answers := fun _ _ _ => True
  env := fun e w => some (request x e w)

end Turret.Alerts
