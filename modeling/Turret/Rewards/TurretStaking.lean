import Turret.Library.Payments
import Turret.Library.Rounding

/-! `TurretStaking`: what is funded is shared at once among the stakes by an
index, and the accounts follow it, each with the fraction of a unit it has left
over. Arithmetic is checked as the compiler checks it; the tokens are
exact-transfer and run no code of their holders. -/

namespace Turret.TurretStaking

open Execution Function Uint256

inductive Error
  | invalidAmount
  | unauthorized
  | noStakers
  | waitOneBlock
  | unsupportedTransfer
  | contractCaller
  | erc20
  | panic
  deriving DecidableEq

@[irreducible] def SCALE : ℕ := 10 ^ 36

structure Config where
  self : Address
  distributor : Address
  distributor_ne_zero : distributor ≠ 0
  distributor_ne_self : distributor ≠ self

structure World where
  cfg : Config
  block : ℕ
  stakingToken : TokenLedger Address
  rewardToken : TokenLedger Address
  totalStaked : ℕ
  totalFunded : ℕ
  totalClaimed : ℕ
  rewardPerToken : ℕ
  stakedBalance : Address → ℕ
  lastStakeBlock : Address → ℕ
  accrued : Address → ℕ
  paidPerToken : Address → ℕ
  fractionalReward : Address → ℕ
  /-- The sum of the `Claimed` events of each account. -/
  claimed : Address → ℕ

def World.self (w : World) : Address := w.cfg.self

/-- The account's whole reward units at the index, and the fraction left over. -/
def settlement (account : Address) (w : World) : Except Error (ℕ × ℕ) := do
  let delta ← checkedSub w.rewardPerToken (w.paidPerToken account) .panic
  let fraction ← checkedAdd (w.stakedBalance account * delta % SCALE)
    (w.fractionalReward account) .panic
  let whole ← checkedMulDiv (w.stakedBalance account) delta SCALE .panic
  let gained ← checkedAdd whole (fraction / SCALE) .panic
  let accrued ← checkedAdd (w.accrued account) gained .panic
  pure (accrued, fraction % SCALE)

def earned (account : Address) (w : World) : Except Error ℕ := do
  let (accrued, _) ← settlement account w
  pure accrued

/-- `_checkpoint`. -/
def checkpoint (account : Address) (w : World) : Except Error World := do
  let (accrued, fraction) ← settlement account w
  pure
    { w with
      accrued := update w.accrued account accrued
      fractionalReward := update w.fractionalReward account fraction
      paidPerToken := update w.paidPerToken account w.rewardPerToken }

def stake (sender : Address) (amount : ℕ) (w : World) : Except Error World := do
  revertIf (amount = 0) .invalidAmount
  let room ← checkedSub UINT128_MAX w.totalStaked .panic
  revertIf (room < amount) .invalidAmount
  let w ← checkpoint sender w
  let stakingToken ← w.stakingToken.pullExact .erc20 .unsupportedTransfer w.self sender w.self amount
  let staked ← checkedAdd (w.stakedBalance sender) amount .panic
  let totalStaked ← checkedAdd w.totalStaked amount .panic
  pure
    { w with
      stakingToken, totalStaked
      stakedBalance := update w.stakedBalance sender staked
      lastStakeBlock := update w.lastStakeBlock sender w.block }

def canUnstake (account : Address) (w : World) : Bool :=
  decide (w.stakedBalance account ≠ 0 ∧ w.lastStakeBlock account < w.block)

def unstake (sender : Address) (amount : ℕ) (w : World) : Except Error World := do
  revertIf (amount = 0 ∨ w.stakedBalance sender < amount) .invalidAmount
  revertIf (w.block ≤ w.lastStakeBlock sender) .waitOneBlock
  let w ← checkpoint sender w
  let staked ← checkedSub (w.stakedBalance sender) amount .panic
  let totalStaked ← checkedSub w.totalStaked amount .panic
  let stakingToken ← w.stakingToken.sendExact .erc20 .unsupportedTransfer w.self sender amount
  pure
    { w with
      stakingToken, totalStaked
      stakedBalance := update w.stakedBalance sender staked }

/-- Nothing is funded while nothing is staked. -/
def distribute (sender : Address) (amount : ℕ) (w : World) : Except Error World := do
  revertIf (sender ≠ w.cfg.distributor) .unauthorized
  revertIf (w.totalStaked = 0) .noStakers
  revertIf (amount = 0) .invalidAmount
  let room ← checkedSub UINT128_MAX w.totalFunded .panic
  revertIf (room < amount) .invalidAmount
  let rewardToken ← w.rewardToken.pullExact .erc20 .unsupportedTransfer w.self sender w.self amount
  let totalFunded ← checkedAdd w.totalFunded amount .panic
  let growth ← checkedMulDiv amount SCALE w.totalStaked .panic
  let rewardPerToken ← checkedAdd w.rewardPerToken growth .panic
  pure { w with rewardToken, totalFunded, rewardPerToken }

def claim (sender : Address) (w : World) : Except Error World := do
  let w ← checkpoint sender w
  let amount := w.accrued sender
  if amount = 0 then pure w
  else do
    let totalClaimed ← checkedAdd w.totalClaimed amount .panic
    let rewardToken ← w.rewardToken.sendExact .erc20 .unsupportedTransfer w.self sender amount
    pure
      { w with
        rewardToken, totalClaimed
        accrued := update w.accrued sender 0
        claimed := update w.claimed sender (w.claimed sender + amount) }

/-! ### Calls and time

The contract sends tokens by its own code only, so no plain token call is made
in its name. -/

inductive Op
  | stake (sender : Address) (amount : ℕ)
  | unstake (sender : Address) (amount : ℕ)
  | distribute (sender : Address) (amount : ℕ)
  | claim (sender : Address)
  | stakingToken (call : TokenCall Address)
  | rewardToken (call : TokenCall Address)
  | mine (blocks : ℕ)

/-- Minting and time have no caller. -/
def Op.sender : Op → Option Address
  | .stake sender _ | .unstake sender _ | .distribute sender _ | .claim sender => some sender
  | .stakingToken call | .rewardToken call => call.sender
  | .mine _ => none

def callStakingToken (call : TokenCall Address) (w : World) : Except Error World := do
  let stakingToken ← orRevert (call.exec w.stakingToken) .erc20
  pure { w with stakingToken }

def callRewardToken (call : TokenCall Address) (w : World) : Except Error World := do
  let rewardToken ← orRevert (call.exec w.rewardToken) .erc20
  pure { w with rewardToken }

def exec (op : Op) (w : World) : Except Error World := do
  revertIf (op.sender = some w.self) .contractCaller
  match op with
  | .stake sender amount => stake sender amount w
  | .unstake sender amount => unstake sender amount w
  | .distribute sender amount => distribute sender amount w
  | .claim sender => claim sender w
  | .stakingToken call => callStakingToken call w
  | .rewardToken call => callRewardToken call w
  | .mine blocks => pure { w with block := w.block + blocks }

def constructed (cfg : Config) (block : ℕ) (stakingToken rewardToken : TokenLedger Address) :
    World :=
  ⟨cfg, block, stakingToken, rewardToken, 0, 0, 0, 0, fun _ => 0, fun _ => 0, fun _ => 0,
    fun _ => 0, fun _ => 0, fun _ => 0⟩

structure Deployed (w : World) : Prop where
  stakingToken_closed : ∀ a, w.stakingToken.allowance w.self a = 0
  rewardToken_closed : ∀ a, w.rewardToken.allowance w.self a = 0
  storage_eq : w = constructed w.cfg w.block w.stakingToken w.rewardToken

/-! ### Fundings -/

/-- A `FeesDistributed` event, with the stakes among which it was shared. -/
structure Funding where
  amount : ℕ
  totalStaked : ℕ
  staked : Address → ℕ

/-- What a funding adds to the index. -/
def Funding.increment (f : Funding) : ℕ := Rounding.mulDiv f.amount SCALE f.totalStaked

/-- The funding that a call makes when it succeeds. -/
def Op.funding (w : World) : Op → List Funding
  | .distribute _ amount => [⟨amount, w.totalStaked, w.stakedBalance⟩]
  | _ => []

/-- The fundings of a list of calls. -/
def fundings : World → List Op → List Funding
  | _, [] => []
  | w, op :: ops =>
    match exec op w with
    | .ok w' => op.funding w ++ fundings w' ops
    | .error _ => []

end Turret.TurretStaking
