import Turret.Library.Execution

/-! `ExtendedSessionAdmission` of the risk monitor: an account of one trading
session that must be seen healthy without a break before it is admitted, and
that may be suspended for a while without losing that. Its record lives in
memory only. A number that is not a safe integer, a session key that is not a
string and a staleness that is not a boolean are `none`; sums of safe integers
are taken as exact. -/

namespace Turret.RiskMonitor

/-- What `extendedSessionConfig` lets through of `continuousSessionAdmission`. -/
structure ExtendedConfig where
  version : ℕ
  healthySeconds : ℤ
  staleQuoteGraceSeconds : Option ℤ
  healthy_eq : healthySeconds = 900
  version_valid : version = 1 ∧ staleQuoteGraceSeconds = none ∨
    version ∈ [2, 3] ∧ staleQuoteGraceSeconds = some 120

structure ExtendedRecord (Key : Type) where
  key : Key
  since : ℤ
  samples : ℕ
  last : ℤ
  qualified : Bool
  lastValidated : Option ℤ
  staleSince : Option ℤ

inductive ExtendedCode
  | checksUnavailable
  | quoteUnavailable
  | priceRecovering
  | sessionQualifying
  | healthy
  deriving DecidableEq

structure ExtendedAnswer where
  ready : Bool
  code : ExtendedCode
  qualificationRetained : Option Bool
  since : Option ℤ
  checkedAt : Option ℤ
  samples : Option ℕ
  requiredSeconds : Option ℤ
  eligibleAt : Option ℤ

namespace ExtendedSessionAdmission

variable {Key : Type} [DecidableEq Key]

/-- `this.record`. -/
abbrev Tracker (Key : Type) := Option (ExtendedRecord Key)

def unavailable : ExtendedAnswer :=
  ⟨false, .checksUnavailable, none, none, none, none, none, none⟩

/-- The time is not before the last one of the record, nor more than 30 seconds after it. -/
def continues (r : ExtendedRecord Key) (key : Key) (now : ℤ) : Bool :=
  decide (r.key = key ∧ r.last ≤ now ∧ now - r.last ≤ 30)

/-- What a suspension asks of the record before anything else. -/
def retains (config : ExtendedConfig) (r : ExtendedRecord Key) (key : Key) (now : ℤ) : Bool :=
  decide (config.version ∈ [2, 3]) && r.qualified && continues r key now &&
    !r.lastValidated.any fun validated => decide (config.healthySeconds ≤ now - validated)

def suspend (config : ExtendedConfig) (sessionKey : Option Key) (now : Option ℤ)
    (stale : Option Bool) (record : Tracker Key) : Tracker Key × ExtendedAnswer :=
  match record, sessionKey, now, stale with
  | some r, some key, some now, some stale =>
    if retains config r key now then
      if stale then
        let staleSince := r.staleSince.getD now
        if config.staleQuoteGraceSeconds.any fun grace => decide (grace ≤ now - staleSince) then
          (none, unavailable)
        else
          (some { r with staleSince := some staleSince, last := now },
            ⟨false, .quoteUnavailable, some true, some r.since, some now, none, none, none⟩)
      else
        (some { r with staleSince := none, last := now },
          ⟨false, .priceRecovering, some true, some r.since, some now, none, none, none⟩)
    else (none, unavailable)
  | _, _, _, _ => (none, unavailable)

/-- One more observation: a second one of the same time is not another sample. -/
def counted (now : ℤ) (old : ExtendedRecord Key) : ExtendedRecord Key :=
  { old with samples := if now = old.last then old.samples else old.samples + 1, last := now }

/-- The record that an observation goes on with, this one counted. -/
def sampled (key : Key) (now : ℤ) : Tracker Key → ExtendedRecord Key
  | some old =>
    if continues old key now then counted now old else ⟨key, now, 1, now, false, none, none⟩
  | none => ⟨key, now, 1, now, false, none, none⟩

def readyAt (config : ExtendedConfig) (now : ℤ) (r : ExtendedRecord Key) : Bool :=
  r.qualified || decide (config.healthySeconds ≤ now - r.since ∧ 60 ≤ r.samples)

def validated (now : ℤ) (r : ExtendedRecord Key) : ExtendedRecord Key :=
  { r with qualified := true, lastValidated := some now, staleSince := none }

def observe (config : ExtendedConfig) (sessionKey : Option Key) (ok : Bool) (now : Option ℤ)
    (record : Tracker Key) : Tracker Key × ExtendedAnswer :=
  match sessionKey, ok, now with
  | some key, true, some now =>
    let r := sampled key now record
    let ready := readyAt config now r
    (some (if ready then validated now r else r),
      ⟨ready, if ready then .healthy else .sessionQualifying, none, some r.since, some now,
        some r.samples, some config.healthySeconds, some (r.since + config.healthySeconds)⟩)
  | _, _, _ => (none, unavailable)

/-- What the monitor's own checks of a market say to `interruptExtendedAdmission`. -/
structure Checks where
  resultOk : Bool
  /-- The code of the result is `QuoteStale`. -/
  quoteStale : Bool
  recovered : Bool
  operational : Bool

def interruptExtendedAdmission (config : ExtendedConfig) (checks : Checks)
    (sessionKey : Option Key) (now : Option ℤ) (record : Tracker Key) :
    Tracker Key × Option ExtendedAnswer :=
  if checks.resultOk && checks.recovered && checks.operational then (record, none)
  else if checks.operational && (checks.quoteStale || checks.resultOk && !checks.recovered) then
    let (record, answer) := suspend config sessionKey now (some !checks.resultOk) record
    (record, some answer)
  else (none, some unavailable)

/-! ### Calls -/

inductive Call (Key : Type)
  | observe (sessionKey : Option Key) (ok : Bool) (now : Option ℤ)
  | suspend (sessionKey : Option Key) (now : Option ℤ) (stale : Option Bool)
  | reset

/-- A reset answers nothing. -/
def Call.exec (config : ExtendedConfig) : Call Key → Tracker Key → Tracker Key × Option ExtendedAnswer
  | .observe sessionKey ok now, record =>
    let (record, answer) := ExtendedSessionAdmission.observe config sessionKey ok now record
    (record, some answer)
  | .suspend sessionKey now stale, record =>
    let (record, answer) := ExtendedSessionAdmission.suspend config sessionKey now stale record
    (record, some answer)
  | .reset, _ => (none, none)

/-- A call with its answer. -/
abbrev Entry (Key : Type) := Call Key × Option ExtendedAnswer

def Entry.ready (entry : Entry Key) : Bool := entry.2.any ExtendedAnswer.ready

/-- The log of a run: each call with what it answered. -/
def answers (config : ExtendedConfig) (record : Tracker Key) (entry : Entry Key)
    (record' : Tracker Key) : Prop :=
  entry.1.exec config record = (record', entry.2)

end ExtendedSessionAdmission

end Turret.RiskMonitor
