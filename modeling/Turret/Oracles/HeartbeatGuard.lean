import Turret.Library.Execution
import Turret.Library.Ledger

/-! `DockyardHeartbeatGuard` and `DockyardExecutionGate`: the price of a stock is
for borrowing only while a guardian's short-lived message approves of it, and
for anything only while another one attests that the chain is live. What the
feed and the token answer is free at every call. The hash of a round and the
recovery of a signer are parameters. -/

namespace Turret.Circuit

open Execution

inductive Error
  | invalidPrice
  | stalePrice
  | corporateActionPending
  | healthExpired
  | invalidHealth
  | marketClosed
  | recoveryPending
  | priceQuarantined
  | unauthorizedGuardian
  | invalidLiveness
  | livenessExpired
  | external
  | ecdsa
  | panic
  deriving DecidableEq

/-! ### The guard -/

def MAX_HEALTH_AGE : ℕ := 60

def RECOVERY_DELAY : ℕ := 120

/-- The immutables, with what the constructors check of them. -/
structure Config where
  maxPriceAge : ℕ
  guardian : Address
  primaryDecimals : ℕ
  maxPriceAge_ge : 60 ≤ maxPriceAge
  maxPriceAge_le : maxPriceAge ≤ 86400
  guardian_ne_zero : guardian ≠ 0
  primaryDecimals_le : primaryDecimals ≤ 18

structure Health (H : Type) where
  roundId : ℕ
  observedAt : ℕ
  validUntil : ℕ
  sessionOpen : ℕ
  sessionClose : ℕ
  roundHash : H
  epoch : ℕ
  deriving DecidableEq

structure Guard (H : Type) where
  epoch : ℕ
  recoveryAt : ℕ
  liquidationQuarantined : Bool
  /-- `none` where it is deleted. -/
  health : Option (Health H)

structure Round where
  round : ℕ
  answer : ℤ
  updated : ℕ
  answered : ℕ

/-- What the feed and the token answer in one call; `none` where the answer is a revert. -/
structure Reading where
  decimals : Option ℕ
  oraclePaused : Option Bool
  latestRoundData : Option Round
  effectiveAt : Option ℕ

/-- The hash of a round, and who has signed a message for the guard or for the gate. -/
structure Signing (H Signature Liveness : Type) where
  roundHash : ℕ → ℕ → ℕ → H
  recoverHealth : Health H → Signature → Option Address
  recoverLiveness : Liveness → Signature → Option Address

structure Liveness where
  observedAt : ℕ
  healthySince : ℕ
  validUntil : ℕ
  epoch : ℕ
  deriving DecidableEq

variable {H Signature : Type} [DecidableEq H] (cfg : Config) (signing : Signing H Signature Liveness)

structure Data where
  value : ℕ
  updatedAt : ℕ
  roundId : ℕ

def currentData (now : ℕ) (x : Reading) : Except Error Data := do
  let decimals ← orRevert x.decimals .external
  revertIf (decimals ≠ cfg.primaryDecimals) .invalidPrice
  let paused ← orRevert x.oraclePaused .external
  revertIf (paused = true) .invalidPrice
  let data ← orRevert x.latestRoundData .external
  revertIf (data.round = 0 ∨ data.answer ≤ 0 ∨ data.answered < data.round ∨
    2 ^ 128 ≤ data.answer.toNat) .invalidPrice
  revertIf (data.updated = 0 ∨ now < data.updated ∨ cfg.maxPriceAge ≤ now - data.updated) .stalePrice
  let effective ← orRevert x.effectiveAt .external
  revertIf (effective ≤ now ∧ data.updated < effective) .corporateActionPending
  pure ⟨data.answer.toNat * 10 ^ (18 - cfg.primaryDecimals), data.updated, data.round⟩

/-- `_checkHealth`. -/
def checkHealth (h : Health H) (data : Data) (now : ℕ) (g : Guard H) : Except Error Unit := do
  revertIf (h.epoch ≠ g.epoch ∨ h.roundId ≠ data.roundId ∨
    h.roundHash ≠ signing.roundHash data.roundId data.value data.updatedAt ∨ h.observedAt = 0 ∨
    now < h.observedAt ∨ h.validUntil ≤ h.observedAt ∨
    MAX_HEALTH_AGE < h.validUntil - h.observedAt) .invalidHealth
  revertIf (h.validUntil ≤ now) .healthExpired
  revertIf (h.observedAt < g.recoveryAt) .recoveryPending
  revertIf (h.sessionClose ≤ h.sessionOpen ∨ 23400 < h.sessionClose - h.sessionOpen ∨
    h.observedAt < h.sessionOpen ∨ now < h.sessionOpen ∨ h.sessionClose ≤ now ∨
    h.sessionClose < h.validUntil) .marketClosed

def deployGuard (now : ℕ) : Guard H := ⟨0, now + RECOVERY_DELAY, false, none⟩

def tripGuard (sender : Address) (unsafePrice : Bool) (now : ℕ) (g : Guard H) :
    Except Error (Guard H) := do
  revertIf (sender ≠ cfg.guardian) .unauthorizedGuardian
  revertIf (2 ^ 64 ≤ g.epoch + 1) .panic
  pure ⟨g.epoch + 1, now + RECOVERY_DELAY, unsafePrice || g.liquidationQuarantined, none⟩

def submitHealth (h : Health H) (signature : Signature) (now : ℕ) (x : Reading) (g : Guard H) :
    Except Error (Guard H) := do
  let signer ← orRevert (signing.recoverHealth h signature) .ecdsa
  revertIf (signer ≠ cfg.guardian) .invalidHealth
  let data ← currentData cfg now x
  checkHealth signing h data now g
  revertIf (∃ old ∈ g.health, h.observedAt < old.observedAt) .invalidHealth
  pure { g with health := some h, liquidationQuarantined := false }

/-- `_checkHealth` of what is stored. -/
def checkStored (data : Data) (now : ℕ) (g : Guard H) : Except Error Unit :=
  match g.health with
  | some h => checkHealth signing h data now g
  -- A deleted record names the round 0, which `currentData` does not return.
  | none => .error .invalidHealth

def validatedPrice (borrowing : Bool) (now : ℕ) (x : Reading) (g : Guard H) :
    Except Error (ℕ × ℕ) := do
  let data ← currentData cfg now x
  revertIf (g.liquidationQuarantined = true) .priceQuarantined
  if borrowing then
    checkStored signing data now g
  pure (data.value, data.updatedAt)

/-! ### The gate -/

def MAX_LIFETIME : ℕ := 45

structure Gate where
  epoch : ℕ
  recoveryAt : ℕ
  /-- `none` where it is deleted. -/
  liveness : Option Liveness

def deployGate (now : ℕ) : Gate := ⟨0, now, none⟩

def submitLiveness (p : Liveness) (signature : Signature) (now : ℕ) (g : Gate) :
    Except Error Gate := do
  let signer ← orRevert (signing.recoverLiveness p signature) .ecdsa
  revertIf (signer ≠ cfg.guardian) .invalidLiveness
  revertIf (p.epoch ≠ g.epoch ∨ p.observedAt = 0 ∨ now < p.observedAt ∨
    p.observedAt < p.healthySince ∨ p.validUntil ≤ p.observedAt ∨
    MAX_LIFETIME < p.validUntil - p.observedAt ∨
    ∃ old ∈ g.liveness, p.observedAt < old.observedAt) .invalidLiveness
  revertIf (p.validUntil ≤ now) .livenessExpired
  revertIf (p.healthySince < g.recoveryAt ∨ p.observedAt - p.healthySince < RECOVERY_DELAY)
    .recoveryPending
  pure { g with liveness := some p }

def requireLive (now : ℕ) (g : Gate) : Except Error Unit :=
  match g.liveness with
  | some p => revertIf (p.epoch ≠ g.epoch ∨ p.validUntil ≤ now) .livenessExpired
  -- A deleted record is valid until 0.
  | none => .error .livenessExpired

def tripGate (sender : Address) (now : ℕ) (g : Gate) : Except Error Gate := do
  revertIf (sender ≠ cfg.guardian) .unauthorizedGuardian
  revertIf (2 ^ 64 ≤ g.epoch + 1) .panic
  pure ⟨g.epoch + 1, now, none⟩

end Turret.Circuit
