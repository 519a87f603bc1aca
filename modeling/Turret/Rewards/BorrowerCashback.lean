import Turret.Library.Payments

/-! `TurretBorrowerCashback`. Hashing and Merkle proofs are parameters of which
nothing is assumed: a root may prove any amounts at all. USDG is
exact-transfer and runs no code of its holders, so the reentrancy guards are
left out. -/

namespace Turret.BorrowerCashback

open Execution Finset Function

inductive Error
  | unauthorized
  | invalidAmount
  | invalidEnrollment
  | insufficientFunding
  | invalidProof
  | expired
  | unsupportedTransfer
  | enrollmentPaused
  | claimsStillOpen
  | contractCaller
  | erc20
  | panic
  deriving DecidableEq

abbrev Bytes32 := BitVec 256

/-- The immutables, with what the constructor checks of them; `leaf` is taken for this chain and
this contract. -/
structure Config where
  self : Address
  operator : Address
  treasury : Address
  startsAt : ℕ
  endsAt : ℕ
  settlementDeadline : ℕ
  claimDeadline : ℕ
  leaf : Address → Address → ℕ → Bytes32
  verifyCalldata : List Bytes32 → Bytes32 → Bytes32 → Bool
  operator_ne_zero : operator ≠ 0
  treasury_ne_zero : treasury ≠ 0
  starts_lt_ends : startsAt < endsAt
  ends_le_settlement : endsAt ≤ settlementDeadline
  settlement_lt_claim : settlementDeadline < claimDeadline

structure Enrollment where
  cap : ℕ
  startsAt : ℕ

/-- The `Claimed` event. -/
structure Claimed where
  borrower : Address
  engine : Address
  cumulative : ℕ
  paid : ℕ

structure World where
  cfg : Config
  now : ℕ
  usdg : TokenLedger Address
  totalFunded : ℕ
  totalCommitted : ℕ
  totalClaimed : ℕ
  isEnrollmentPaused : Bool
  enrollments : Address → Address → Enrollment
  claimed : Address → Address → ℕ
  publishedRoots : Bytes32 → Bool
  /-- The `Claimed` events emitted so far, newest first. -/
  log : List Claimed

def World.self (w : World) : Address := w.cfg.self

def World.cap (b e : Address) (w : World) : ℕ := (w.enrollments b e).cap

def onlyOperator (sender : Address) (w : World) : Except Error Unit :=
  revertIf (sender ≠ w.cfg.operator) .unauthorized

def fund (sender : Address) (amount : ℕ) (w : World) : Except Error World := do
  revertIf (w.cfg.endsAt ≤ w.now) .expired
  revertIf (amount = 0) .invalidAmount
  let usdg ← w.usdg.pullTo .erc20 .unsupportedTransfer w.self sender w.self amount
  pure { w with usdg, totalFunded := w.totalFunded + amount }

def enroll (sender borrower engine : Address) (cap : ℕ) (w : World) : Except Error World := do
  onlyOperator sender w
  revertIf (w.isEnrollmentPaused = true) .enrollmentPaused
  revertIf (w.cfg.endsAt ≤ w.now) .expired
  revertIf (borrower = 0 ∨ engine = 0 ∨ cap = 0 ∨ w.cap borrower engine ≠ 0) .invalidEnrollment
  let room ← checkedSub w.totalFunded w.totalCommitted .panic
  revertIf (room < cap) .insufficientFunding
  pure
    { w with
      enrollments := updatePair w.enrollments borrower engine ⟨cap, max w.now w.cfg.startsAt⟩
      totalCommitted := w.totalCommitted + cap }

def setEnrollmentPaused (sender : Address) (paused : Bool) (w : World) : Except Error World := do
  onlyOperator sender w
  pure { w with isEnrollmentPaused := paused }

def publish (sender : Address) (root : Bytes32) (_throughBlock : ℕ) (blockHash : Bytes32)
    (w : World) : Except Error World := do
  onlyOperator sender w
  revertIf (w.cfg.claimDeadline < w.now) .expired
  revertIf (root = 0 ∨ blockHash = 0) .invalidProof
  pure { w with publishedRoots := update w.publishedRoots root true }

def proves (root : Bytes32) (borrower engine : Address) (cumulative : ℕ) (proof : List Bytes32)
    (w : World) : Bool :=
  w.publishedRoots root && w.cfg.verifyCalldata proof root (w.cfg.leaf borrower engine cumulative)

/-- `_claim`. -/
def claim (root : Bytes32) (borrower engine : Address) (cumulative : ℕ) (proof : List Bytes32)
    (w : World) : Except Error World := do
  revertIf (w.cfg.claimDeadline < w.now) .expired
  revertIf (proves root borrower engine cumulative proof w = false) .invalidProof
  revertIf (cumulative ≤ w.claimed borrower engine ∨ w.cap borrower engine < cumulative)
    .invalidAmount
  let amount ← checkedSub cumulative (w.claimed borrower engine) .panic
  let usdg ← w.usdg.sendTo .erc20 .unsupportedTransfer w.self borrower amount
  pure
    { w with
      usdg
      claimed := updatePair w.claimed borrower engine cumulative
      totalClaimed := w.totalClaimed + amount
      log := ⟨borrower, engine, cumulative, amount⟩ :: w.log }

def recoverExpired (sender : Address) (w : World) : Except Error World := do
  revertIf (sender ≠ w.cfg.treasury) .unauthorized
  revertIf (w.now ≤ w.cfg.claimDeadline) .claimsStillOpen
  let usdg ← orRevert (w.usdg.transfer w.self w.cfg.treasury (w.usdg.balanceOf w.self)) .erc20
  pure { w with usdg }

def callToken (call : TokenCall Address) (w : World) : Except Error World := do
  let usdg ← orRevert (call.exec w.usdg) .erc20
  pure { w with usdg }

def elapse (seconds : ℕ) (w : World) : Except Error World :=
  .ok { w with now := w.now + seconds }

inductive Op
  | fund (sender : Address) (amount : ℕ)
  | enroll (sender borrower engine : Address) (cap : ℕ)
  | setEnrollmentPaused (sender : Address) (paused : Bool)
  | publish (sender : Address) (root : Bytes32) (throughBlock : ℕ) (blockHash : Bytes32)
  | claim (sender : Address) (root : Bytes32) (borrower engine : Address) (cumulative : ℕ)
      (proof : List Bytes32)
  | recoverExpired (sender : Address)
  | elapse (seconds : ℕ)
  | usdg (call : TokenCall Address)

def Op.sender : Op → Option Address
  | .fund sender .. | .enroll sender .. | .setEnrollmentPaused sender .. | .publish sender ..
  | .claim sender .. | .recoverExpired sender => some sender
  | .elapse .. => none
  | .usdg call => call.sender

def run : Op → World → Except Error World
  | .fund sender amount, w => fund sender amount w
  | .enroll sender borrower engine cap, w => enroll sender borrower engine cap w
  | .setEnrollmentPaused sender paused, w => setEnrollmentPaused sender paused w
  | .publish sender root throughBlock blockHash, w => publish sender root throughBlock blockHash w
  | .claim _ root borrower engine cumulative proof, w =>
    claim root borrower engine cumulative proof w
  | .recoverExpired sender, w => recoverExpired sender w
  | .elapse seconds, w => elapse seconds w
  | .usdg call, w => callToken call w

/-- Nothing is called by the contract itself. -/
def exec (op : Op) (w : World) : Except Error World := do
  revertIf (op.sender = some w.self) .contractCaller
  run op w

def constructed (cfg : Config) (now : ℕ) (usdg : TokenLedger Address) : World :=
  ⟨cfg, now, usdg, 0, 0, 0, false, fun _ _ => ⟨0, 0⟩, fun _ _ => 0, fun _ => false, []⟩

/-- The state after construction; USDG may already have been sent to the address. -/
structure Deployed (w : World) : Prop where
  now_le : w.now ≤ w.cfg.startsAt
  closed : ∀ a, w.usdg.allowance w.self a = 0
  storage_eq : w = constructed w.cfg w.now w.usdg

def Reachable (w : World) : Prop :=
  ∃ start ops, Deployed start ∧ Run (accepts exec) start ops w

end Turret.BorrowerCashback

/-! `TurretPublicBorrowerCashback`: the cashback contract with one reservation
a wallet for all listed markets, and a cap on the whole budget. -/

namespace Turret.PublicBorrowerCashback

open Execution Function
open BorrowerCashback (Error Bytes32 onlyOperator)

def WALLET_CAP : ℕ := 25 * 10 ^ 6
def BUDGET_CAP : ℕ := 1000 * 10 ^ 6

/-- The markets the constructor accepts. -/
structure Markets where
  engines : List Address
  ne_nil : engines ≠ []
  length_le : engines.length ≤ 64
  nodup : engines.Nodup

structure World where
  campaign : BorrowerCashback.World
  markets : Markets
  joined : Address → Bool
  walletClaimed : Address → ℕ

namespace World

def cfg (w : World) : BorrowerCashback.Config := w.campaign.cfg
def self (w : World) : Address := w.campaign.self
def now (w : World) : ℕ := w.campaign.now

end World

/-- A function of the base contract. -/
def inherited (call : BorrowerCashback.World → Except Error BorrowerCashback.World)
    (w : World) : Except Error World := do
  let campaign ← call w.campaign
  pure { w with campaign }

def fund (sender : Address) (amount : ℕ) (w : World) : Except Error World := do
  let room ← checkedSub BUDGET_CAP w.campaign.totalFunded .panic
  revertIf (room < amount) .invalidAmount
  inherited (BorrowerCashback.fund sender amount) w

def enroll (_sender _borrower _engine : Address) (_cap : ℕ) (_w : World) : Except Error World :=
  .error .unauthorized

/-- The loop of `join` over the engines. -/
def enrollAll (sender : Address) (now : ℕ) (engines : List Address)
    (enrollments : Address → Address → BorrowerCashback.Enrollment) :
    Address → Address → BorrowerCashback.Enrollment :=
  engines.foldl (fun all engine => updatePair all sender engine ⟨WALLET_CAP, now⟩) enrollments

def join (sender : Address) (w : World) : Except Error World := do
  revertIf (w.campaign.isEnrollmentPaused = true) .enrollmentPaused
  revertIf (w.now < w.cfg.startsAt ∨ w.cfg.endsAt ≤ w.now) .expired
  revertIf (w.joined sender = true ∨ sender = w.cfg.operator ∨ sender = w.cfg.treasury)
    .invalidEnrollment
  let room ← checkedSub w.campaign.totalFunded w.campaign.totalCommitted .panic
  revertIf (room < WALLET_CAP) .insufficientFunding
  pure
    { w with
      joined := update w.joined sender true
      campaign :=
        { w.campaign with
          totalCommitted := w.campaign.totalCommitted + WALLET_CAP
          enrollments := enrollAll sender w.now w.markets.engines w.campaign.enrollments } }

def claim (root : Bytes32) (borrower engine : Address) (cumulative : ℕ) (proof : List Bytes32)
    (w : World) : Except Error World := do
  let previous := w.campaign.claimed borrower engine
  revertIf (cumulative ≤ previous) .invalidAmount
  let room ← checkedSub WALLET_CAP (w.walletClaimed borrower) .panic
  revertIf (room < cumulative - previous) .invalidAmount
  let spent := w.walletClaimed borrower + (cumulative - previous)
  inherited (BorrowerCashback.claim root borrower engine cumulative proof)
    { w with walletClaimed := update w.walletClaimed borrower spent }

inductive Op
  | fund (sender : Address) (amount : ℕ)
  | enroll (sender borrower engine : Address) (cap : ℕ)
  | join (sender : Address)
  | setEnrollmentPaused (sender : Address) (paused : Bool)
  | publish (sender : Address) (root : Bytes32) (throughBlock : ℕ) (blockHash : Bytes32)
  | claim (sender : Address) (root : Bytes32) (borrower engine : Address) (cumulative : ℕ)
      (proof : List Bytes32)
  | recoverExpired (sender : Address)
  | elapse (seconds : ℕ)
  | usdg (call : TokenCall Address)

def Op.sender : Op → Option Address
  | .fund sender .. | .enroll sender .. | .join sender | .setEnrollmentPaused sender ..
  | .publish sender .. | .claim sender .. | .recoverExpired sender => some sender
  | .elapse .. => none
  | .usdg call => call.sender

def run : Op → World → Except Error World
  | .fund sender amount, w => fund sender amount w
  | .enroll sender borrower engine cap, w => enroll sender borrower engine cap w
  | .join sender, w => join sender w
  | .setEnrollmentPaused sender paused, w =>
    inherited (BorrowerCashback.setEnrollmentPaused sender paused) w
  | .publish sender root throughBlock blockHash, w =>
    inherited (BorrowerCashback.publish sender root throughBlock blockHash) w
  | .claim _ root borrower engine cumulative proof, w =>
    claim root borrower engine cumulative proof w
  | .recoverExpired sender, w => inherited (BorrowerCashback.recoverExpired sender) w
  | .elapse seconds, w => inherited (BorrowerCashback.elapse seconds) w
  | .usdg call, w => inherited (BorrowerCashback.callToken call) w

def exec (op : Op) (w : World) : Except Error World := do
  revertIf (op.sender = some w.self) .contractCaller
  run op w

structure Deployed (w : World) : Prop where
  campaign : BorrowerCashback.Deployed w.campaign
  joined_eq : ∀ b, w.joined b = false
  walletClaimed_eq : ∀ b, w.walletClaimed b = 0

def Reachable (w : World) : Prop :=
  ∃ start ops, Deployed start ∧ Run (accepts exec) start ops w

end Turret.PublicBorrowerCashback
