import Turret.Rewards.RewardStream

/-! `TurretRecoverableStaking`: a reward stream that knows which part of its
reserve is a subsidy. The treasury takes back, through the distributor, what of
the subsidy is not released yet. -/

namespace Turret.RecoverableStaking

open Execution Function Rounding Uint256
open RewardStream (Error RAY)

structure World where
  stream : RewardStream.World
  treasury : Address
  totalSubsidies : ℕ
  totalRecovered : ℕ
  anchorSubsidyRay : ℕ

def World.self (w : World) : Address := w.stream.self

def subsidyReserveRay (w : World) : Except Error ℕ := do
  let retention ← RewardStream.retentionNow w.stream
  checkedMulDiv w.anchorSubsidyRay retention RAY .panic

/-- In whole units. -/
def recoverableSubsidy (w : World) : Except Error ℕ := do
  let reserve ← subsidyReserveRay w
  pure (reserve / RAY)

/-- `_fund`. -/
def fund (sender : Address) (amount : ℕ) (subsidy : Bool) (w : World) : Except Error World := do
  RewardStream.checkFunding sender amount w.stream
  let subsidyRemaining ← subsidyReserveRay w
  let stream ← RewardStream.receiveFunding sender amount w.stream
  let subsidized := if subsidy then amount else 0
  let totalSubsidies ← checkedAdd w.totalSubsidies subsidized .panic
  -- the product is checked with that of the reserve, which is no smaller
  let anchorSubsidyRay ← checkedAdd subsidyRemaining (subsidized * RAY) .panic
  pure { w with stream, totalSubsidies, anchorSubsidyRay }

def distribute (sender : Address) (amount : ℕ) (w : World) : Except Error World :=
  fund sender amount false w

def distributeSubsidy (sender : Address) (amount : ℕ) (w : World) : Except Error World :=
  fund sender amount true w

def recoverSubsidy (sender : Address) (amount : ℕ) (w : World) : Except Error World := do
  revertIf (sender ≠ w.stream.cfg.distributor) .unauthorized
  let subsidyRemaining ← subsidyReserveRay w
  revertIf (amount = 0 ∨ subsidyRemaining / RAY < amount) .invalidAmount
  let (stream, remaining) ← RewardStream.accrue w.stream
  let totalRecovered ← checkedAdd w.totalRecovered amount .panic
  let taken ← checkedMul amount RAY .panic
  let anchorReserveRay ← checkedSub remaining taken .panic
  let anchorSubsidyRay ← checkedSub subsidyRemaining taken .panic
  let rewardToken ← stream.rewardToken.sendExact .erc20 .unsupportedTransfer w.self w.treasury amount
  pure
    { w with
      stream :=
        { stream with
          rewardToken, anchorReserveRay
          anchorActiveSeconds := stream.activeSeconds
          accountedAnchorReleaseRay := 0 }
      totalRecovered, anchorSubsidyRay }

/-! ### Calls and time

The contract sends tokens by its own code only, so no plain token call is made
in its name. -/

inductive Op
  | stake (sender : Address) (amount : ℕ)
  | unstake (sender : Address) (amount : ℕ)
  | claim (sender : Address)
  | distribute (sender : Address) (amount : ℕ)
  | distributeSubsidy (sender : Address) (amount : ℕ)
  | recoverSubsidy (sender : Address) (amount : ℕ)
  | stakingToken (call : TokenCall Address)
  | rewardToken (call : TokenCall Address)
  | elapse (seconds blocks : ℕ)

/-- Minting and time have no caller. -/
def Op.sender : Op → Option Address
  | .stake sender _ | .unstake sender _ | .claim sender | .distribute sender _
  | .distributeSubsidy sender _ | .recoverSubsidy sender _ => some sender
  | .stakingToken call | .rewardToken call => call.sender
  | .elapse .. => none

/-- The calls that have nothing to do with the subsidy. -/
def onStream (call : RewardStream.World → Except Error RewardStream.World) (w : World) :
    Except Error World := do
  let stream ← call w.stream
  pure { w with stream }

def exec (op : Op) (w : World) : Except Error World := do
  revertIf (op.sender = some w.self) .contractCaller
  match op with
  | .stake sender amount => onStream (RewardStream.stake sender amount) w
  | .unstake sender amount => onStream (RewardStream.unstake sender amount) w
  | .claim sender => onStream (RewardStream.claim sender) w
  | .distribute sender amount => distribute sender amount w
  | .distributeSubsidy sender amount => distributeSubsidy sender amount w
  | .recoverSubsidy sender amount => recoverSubsidy sender amount w
  | .stakingToken call => onStream (RewardStream.callStakingToken call) w
  | .rewardToken call => onStream (RewardStream.callRewardToken call) w
  | .elapse seconds blocks => onStream (RewardStream.elapse seconds blocks) w

structure Deployed (w : World) : Prop where
  stream : RewardStream.Deployed w.stream
  treasury_ne_zero : w.treasury ≠ 0
  treasury_ne_self : w.treasury ≠ w.self
  subsidies_eq : w.totalSubsidies = 0
  recovered_eq : w.totalRecovered = 0
  anchor_eq : w.anchorSubsidyRay = 0

end Turret.RecoverableStaking

/-! The counters of `TurretRecoverableStaking`: a funding and a recovery, both of
the distributor only, count exactly what they move, and nothing else counts. -/

namespace Turret.RewardStream

open Execution Function Uint256

variable {w w' v : World} {a sender : Address} {amount remaining : ℕ}

/-! ### What is left alone -/

/-- An accrual moves the clock of the stream, its index and what was released. -/
theorem accrue_frame (done : accrue w = .ok (v, remaining)) :
    v = { w with
      storedRewardPerToken := v.storedRewardPerToken, indexRemainder := v.indexRemainder
      lastUpdate := v.lastUpdate, activeSeconds := v.activeSeconds
      accountedAnchorReleaseRay := v.accountedAnchorReleaseRay, releasedRay := v.releasedRay } := by
  simp only [accrue, bind_eq_ok, pure_eq_ok, Prod.mk.injEq] at done
  obtain ⟨stream, -, u, shared, rfl, -⟩ := done
  rw [distributeEmission] at shared
  split_ifs at shared
  · obtain rfl := Except.ok.inj shared
    rfl
  · simp only [bind_eq_ok, pure_eq_ok] at shared
    obtain ⟨-, -, -, -, -, -, -, -, -, -, -, -, rfl⟩ := shared
    rfl

theorem checkpoint_frame (done : checkpoint a w = .ok v) :
    v.cfg = w.cfg ∧ v.totalFunded = w.totalFunded := by
  simp only [checkpoint, bind_eq_ok, pure_eq_ok, Prod.exists] at done
  obtain ⟨u, _, first, -, -, -, rfl⟩ := done
  have cfg : u.cfg = w.cfg := by rw [accrue_frame first]
  have funded : u.totalFunded = w.totalFunded := by rw [accrue_frame first]
  exact ⟨cfg, funded⟩

theorem stake_frame (done : stake sender amount w = .ok w') :
    w'.cfg = w.cfg ∧ w'.totalFunded = w.totalFunded := by
  simp only [stake, bind_eq_ok, pure_eq_ok] at done
  obtain ⟨-, -, -, -, -, -, v, checked, -, -, -, -, -, -, rfl⟩ := done
  obtain ⟨cfg, funded⟩ := checkpoint_frame checked
  exact ⟨cfg, funded⟩

theorem unstake_frame (done : unstake sender amount w = .ok w') :
    w'.cfg = w.cfg ∧ w'.totalFunded = w.totalFunded := by
  simp only [unstake, bind_eq_ok, pure_eq_ok] at done
  obtain ⟨-, -, -, -, v, checked, -, -, -, -, -, -, rfl⟩ := done
  obtain ⟨cfg, funded⟩ := checkpoint_frame checked
  exact ⟨cfg, funded⟩

theorem claim_frame (done : claim sender w = .ok w') :
    w'.cfg = w.cfg ∧ w'.totalFunded = w.totalFunded := by
  simp only [claim, bind_eq_ok] at done
  obtain ⟨v, checked, done⟩ := done
  obtain ⟨cfg, funded⟩ := checkpoint_frame checked
  split_ifs at done
  · obtain rfl := Except.ok.inj done
    exact ⟨cfg, funded⟩
  · simp only [bind_eq_ok, pure_eq_ok] at done
    obtain ⟨-, -, -, -, rfl⟩ := done
    exact ⟨cfg, funded⟩

theorem receiveFunding_ok (done : receiveFunding sender amount w = .ok w') :
    w'.cfg = w.cfg ∧ w'.totalFunded = w.totalFunded + amount ∧
      w.rewardToken.pullTo Error.erc20 Error.unsupportedTransfer w.self sender w.self amount =
        .ok w'.rewardToken := by
  simp only [receiveFunding, bind_eq_ok, checkedAdd_eq_ok, pure_eq_ok, Prod.exists] at done
  obtain ⟨v, _, first, token, pulled, -, ⟨-, rfl⟩, -, -, -, -, rfl⟩ := done
  rw [accrue_frame first] at pulled ⊢
  exact ⟨rfl, rfl, TokenLedger.pullExact_eq_ok.mp pulled⟩

end Turret.RewardStream

namespace Turret.RecoverableStaking

open Execution Function Uint256
open RewardStream (Error)

variable {w w' : World} {sender : Address} {amount : ℕ}

/-- The same contract. -/
structure Same (w w' : World) : Prop where
  cfg_eq : w'.stream.cfg = w.stream.cfg
  treasury_eq : w'.treasury = w.treasury

structure Counters where
  totalFunded : ℕ
  totalSubsidies : ℕ
  totalRecovered : ℕ

def counters (w : World) : Counters := ⟨w.stream.totalFunded, w.totalSubsidies, w.totalRecovered⟩

/-- A funding pulls what it counts. -/
theorem fund_ok {subsidy : Bool} (done : fund sender amount subsidy w = .ok w') :
    Same w w' ∧ sender = w.stream.cfg.distributor ∧
      counters w' = { counters w with
        totalFunded := w.stream.totalFunded + amount
        totalSubsidies := w.totalSubsidies + if subsidy then amount else 0 } ∧
      w.stream.rewardToken.pullTo Error.erc20 Error.unsupportedTransfer w.self sender w.self amount =
        .ok w'.stream.rewardToken := by
  simp only [fund, RewardStream.checkFunding, bind_eq_ok, revertIf_eq_ok, checkedAdd_eq_ok,
    pure_eq_ok, exists_const, not_not] at done
  obtain ⟨⟨byDistributor, -⟩, -, -, stream, funded, -, ⟨-, rfl⟩, -, -, rfl⟩ := done
  obtain ⟨cfg, total, pulled⟩ := RewardStream.receiveFunding_ok funded
  refine ⟨⟨cfg, rfl⟩, byDistributor, ?_, pulled⟩
  rw [counters, counters, total]

/-- A recovery pays the treasury what it counts. -/
theorem recoverSubsidy_ok (done : recoverSubsidy sender amount w = .ok w') :
    Same w w' ∧ sender = w.stream.cfg.distributor ∧
      counters w' = { counters w with totalRecovered := w.totalRecovered + amount } ∧
      w.stream.rewardToken.sendTo Error.erc20 Error.unsupportedTransfer w.self w.treasury amount =
        .ok w'.stream.rewardToken := by
  simp only [recoverSubsidy, bind_eq_ok, revertIf_eq_ok, checkedAdd_eq_ok, pure_eq_ok,
    exists_const, not_not, Prod.exists] at done
  obtain ⟨byDistributor, -, -, -, stream, _, first, -, ⟨-, rfl⟩, -, -, -, -, -, -, token, sent,
    rfl⟩ := done
  rw [RewardStream.accrue_frame first] at sent ⊢
  exact ⟨⟨rfl, rfl⟩, byDistributor, rfl, TokenLedger.sendExact_eq_ok.mp sent⟩

theorem onStream_ok {call : RewardStream.World → Except Error RewardStream.World}
    (done : onStream call w = .ok w') :
    call w.stream = .ok w'.stream ∧ w' = { w with stream := w'.stream } := by
  simp only [onStream, bind_eq_ok, pure_eq_ok] at done
  obtain ⟨stream, called, rfl⟩ := done
  exact ⟨called, rfl⟩

/-- A call of the stream alone leaves the counters where it leaves what was funded. -/
theorem onStream_frame
    {call : RewardStream.World → Except Error RewardStream.World}
    (frame : ∀ stream, call w.stream = .ok stream →
      stream.cfg = w.stream.cfg ∧ stream.totalFunded = w.stream.totalFunded)
    (done : onStream call w = .ok w') : Same w w' ∧ counters w' = counters w := by
  obtain ⟨called, same⟩ := onStream_ok done
  obtain ⟨cfg, funded⟩ := frame _ called
  rw [same, counters, counters]
  exact ⟨⟨cfg, rfl⟩, by rw [funded]⟩

/-- Nobody but the distributor moves a counter. -/
theorem exec_frame {op : Op} (other : op.sender ≠ some w.stream.cfg.distributor)
    (done : exec op w = .ok w') : Same w w' ∧ counters w' = counters w := by
  simp only [exec, bind_eq_ok, revertIf_eq_ok, exists_const] at done
  obtain ⟨-, done⟩ := done
  cases op with
  | stake sender amount => exact onStream_frame (fun _ => RewardStream.stake_frame) done
  | unstake sender amount => exact onStream_frame (fun _ => RewardStream.unstake_frame) done
  | claim sender => exact onStream_frame (fun _ => RewardStream.claim_frame) done
  | distribute sender amount => exact absurd (congrArg some (fund_ok done).2.1) other
  | distributeSubsidy sender amount => exact absurd (congrArg some (fund_ok done).2.1) other
  | recoverSubsidy sender amount => exact absurd (congrArg some (recoverSubsidy_ok done).2.1) other
  | stakingToken call =>
    refine onStream_frame (fun stream called => ?_) done
    simp only [RewardStream.callStakingToken, bind_eq_ok, pure_eq_ok] at called
    obtain ⟨_, -, rfl⟩ := called
    exact ⟨rfl, rfl⟩
  | rewardToken call =>
    refine onStream_frame (fun stream called => ?_) done
    simp only [RewardStream.callRewardToken, bind_eq_ok, pure_eq_ok] at called
    obtain ⟨_, -, rfl⟩ := called
    exact ⟨rfl, rfl⟩
  | elapse seconds blocks =>
    refine onStream_frame (fun stream called => ?_) done
    simp only [RewardStream.elapse, bind_eq_ok, pure_eq_ok] at called
    obtain ⟨_, -, rfl⟩ := called
    exact ⟨rfl, rfl⟩

end Turret.RecoverableStaking
