import Turret.Library.Payments
import Turret.Library.Rounding

/-! What `TurretStreamingStaking` and `TurretRecoverableStaking` have in
common: a reserve that decays while anyone has a stake, its release shared by
an index, and the accounts that follow it. `FixedPointMathLib.rpow` is a
parameter. Arithmetic is checked as the compiler checks it; the tokens are
exact-transfer and run no code of their holders. -/

namespace Turret.RewardStream

open Execution Finset Function Rounding Uint256

inductive Error
  | invalidAmount
  | unauthorized
  | waitOneBlock
  | unsupportedTransfer
  | contractCaller
  | erc20
  | noSuchTime
  | panic
  deriving DecidableEq

@[irreducible] def SCALE : ℕ := 10 ^ 36
@[irreducible] def RAY : ℕ := 10 ^ 27
/-- `SCALE / RAY`. -/
@[irreducible] def PARTS : ℕ := SCALE / RAY
def RETENTION_PER_SECOND : ℕ := 999999883676675127810317475

structure Config where
  self : Address
  distributor : Address
  rpow : ℕ → ℕ → ℕ → ℕ
  distributor_ne_zero : distributor ≠ 0
  distributor_ne_self : distributor ≠ self

/-- What is left of one ray after `n` active seconds. -/
def Config.retention (cfg : Config) (n : ℕ) : ℕ := cfg.rpow RETENTION_PER_SECOND n RAY

structure World where
  cfg : Config
  now : ℕ
  block : ℕ
  stakingToken : TokenLedger Address
  rewardToken : TokenLedger Address
  totalStaked : ℕ
  totalFunded : ℕ
  totalClaimed : ℕ
  storedRewardPerToken : ℕ
  indexRemainder : ℕ
  lastUpdate : ℕ
  activeSeconds : ℕ
  anchorReserveRay : ℕ
  anchorActiveSeconds : ℕ
  accountedAnchorReleaseRay : ℕ
  releasedRay : ℕ
  stakedBalance : Address → ℕ
  lastStakeBlock : Address → ℕ
  accrued : Address → ℕ
  paidPerToken : Address → ℕ
  fractionalReward : Address → ℕ
  /-- The sum of the `Claimed` events of each account. -/
  claimed : Address → ℕ

def World.self (w : World) : Address := w.cfg.self

/-- The active seconds up to now. -/
def activeNow (w : World) : Except Error ℕ :=
  if w.totalStaked ≠ 0 then do
    let elapsed ← checkedSub w.now w.lastUpdate .panic
    checkedAdd w.activeSeconds elapsed .panic
  else pure w.activeSeconds

/-- `retention` of `_streamNow` and `subsidyReserveRay`. -/
def retentionNow (w : World) : Except Error ℕ := do
  let active ← activeNow w
  let elapsed ← checkedSub active w.anchorActiveSeconds .panic
  pure (w.cfg.retention elapsed)

structure Stream where
  remaining : ℕ
  activeNow : ℕ
  emission : ℕ

/-- `_streamNow`. -/
def streamNow (w : World) : Except Error Stream := do
  let active ← activeNow w
  let retention ← retentionNow w
  let remaining ← checkedMulDiv w.anchorReserveRay retention RAY .panic
  let released ← checkedSub w.anchorReserveRay remaining .panic
  let emission ← checkedSub released w.accountedAnchorReleaseRay .panic
  pure ⟨remaining, active, emission⟩

/-- The share of an emission that `_accrue` gives to the index. -/
def distributeEmission (emission : ℕ) (w : World) : Except Error World :=
  if emission = 0 then pure w
  else do
    let scaled ← checkedMul emission PARTS .panic
    let numerator ← checkedAdd scaled w.indexRemainder .panic
    let growth ← checkedDiv numerator w.totalStaked .panic
    let storedRewardPerToken ← checkedAdd w.storedRewardPerToken growth .panic
    let accountedAnchorReleaseRay ← checkedAdd w.accountedAnchorReleaseRay emission .panic
    let releasedRay ← checkedAdd w.releasedRay emission .panic
    pure
      { w with
        storedRewardPerToken, accountedAnchorReleaseRay, releasedRay
        indexRemainder := numerator % w.totalStaked }

/-- `_accrue`, with the `remaining` it returns. -/
def accrue (w : World) : Except Error (World × ℕ) := do
  let stream ← streamNow w
  let w ← distributeEmission stream.emission
    { w with activeSeconds := stream.activeNow, lastUpdate := w.now }
  pure (w, stream.remaining)

/-- The account's whole reward units at an index, and the fraction left over. -/
def settlement (account : Address) (index : ℕ) (w : World) : Except Error (ℕ × ℕ) := do
  let delta ← checkedSub index (w.paidPerToken account) .panic
  let fraction ← checkedAdd (w.stakedBalance account * delta % SCALE)
    (w.fractionalReward account) .panic
  let whole ← checkedMulDiv (w.stakedBalance account) delta SCALE .panic
  let gained ← checkedAdd whole (fraction / SCALE) .panic
  let accrued ← checkedAdd (w.accrued account) gained .panic
  pure (accrued, fraction % SCALE)

/-- `_checkpoint`. -/
def checkpoint (account : Address) (w : World) : Except Error World := do
  let (w, _) ← accrue w
  let (accrued, fraction) ← settlement account w.storedRewardPerToken w
  pure
    { w with
      accrued := update w.accrued account accrued
      fractionalReward := update w.fractionalReward account fraction
      paidPerToken := update w.paidPerToken account w.storedRewardPerToken }

def stake (sender : Address) (amount : ℕ) (w : World) : Except Error World := do
  revertIf (amount = 0) .invalidAmount
  let room ← checkedSub UINT128_MAX w.totalStaked .panic
  revertIf (room < amount) .invalidAmount
  let w ← checkpoint sender w
  let stakingToken ← w.stakingToken.pullExact .erc20 .unsupportedTransfer w.self sender w.self amount
  let staked ← checkedAdd (w.stakedBalance sender) amount .panic
  let totalStaked ← checkedAdd w.totalStaked amount .panic
  pure
    { w with
      stakingToken, totalStaked, indexRemainder := 0
      stakedBalance := update w.stakedBalance sender staked
      lastStakeBlock := update w.lastStakeBlock sender w.block }

def canUnstake (account : Address) (w : World) : Bool :=
  decide (w.stakedBalance account ≠ 0 ∧ w.lastStakeBlock account < w.block)

def unstake (sender : Address) (amount : ℕ) (w : World) : Except Error World := do
  revertIf (amount = 0 ∨ w.stakedBalance sender < amount) .invalidAmount
  revertIf (w.block ≤ w.lastStakeBlock sender) .waitOneBlock
  let w ← checkpoint sender w
  let staked ← checkedSub (w.stakedBalance sender) amount .panic
  let totalStaked ← checkedSub w.totalStaked amount .panic
  let stakingToken ← w.stakingToken.sendExact .erc20 .unsupportedTransfer w.self sender amount
  pure
    { w with
      stakingToken, totalStaked, indexRemainder := 0
      stakedBalance := update w.stakedBalance sender staked }

def claim (sender : Address) (w : World) : Except Error World := do
  let w ← checkpoint sender w
  let amount := w.accrued sender
  if amount = 0 then pure w
  else do
    let totalClaimed ← checkedAdd w.totalClaimed amount .panic
    let rewardToken ← w.rewardToken.sendExact .erc20 .unsupportedTransfer w.self sender amount
    pure
      { w with
        rewardToken, totalClaimed
        accrued := update w.accrued sender 0
        claimed := update w.claimed sender (w.claimed sender + amount) }

/-- The checks of a funding. -/
def checkFunding (sender : Address) (amount : ℕ) (w : World) : Except Error Unit := do
  revertIf (sender ≠ w.cfg.distributor) .unauthorized
  revertIf (amount = 0) .invalidAmount
  let room ← checkedSub UINT128_MAX w.totalFunded .panic
  revertIf (room < amount) .invalidAmount

/-- The accrual, the payment and the new anchor of a funding. -/
def receiveFunding (sender : Address) (amount : ℕ) (w : World) : Except Error World := do
  let (w, remaining) ← accrue w
  let rewardToken ← w.rewardToken.pullExact .erc20 .unsupportedTransfer w.self sender w.self amount
  let totalFunded ← checkedAdd w.totalFunded amount .panic
  let added ← checkedMul amount RAY .panic
  let anchorReserveRay ← checkedAdd remaining added .panic
  pure
    { w with
      rewardToken, totalFunded, anchorReserveRay
      anchorActiveSeconds := w.activeSeconds
      accountedAnchorReleaseRay := 0 }

/-! ### Views -/

def reserveRay (w : World) : Except Error ℕ := do
  let stream ← streamNow w
  pure stream.remaining

def totalReleased (w : World) : Except Error ℕ := do
  let stream ← streamNow w
  let released ← checkedAdd w.releasedRay stream.emission .panic
  pure (released / RAY)

def rewardPerToken (w : World) : Except Error ℕ :=
  if w.totalStaked = 0 then pure w.storedRewardPerToken
  else do
    let stream ← streamNow w
    let scaled ← checkedMul stream.emission PARTS .panic
    let numerator ← checkedAdd scaled w.indexRemainder .panic
    checkedAdd w.storedRewardPerToken (numerator / w.totalStaked) .panic

def earned (account : Address) (w : World) : Except Error ℕ := do
  let index ← rewardPerToken w
  let (accrued, _) ← settlement account index w
  pure accrued

/-! ### Time and tokens -/

/-- `block.timestamp` is a word. -/
def elapse (seconds blocks : ℕ) (w : World) : Except Error World := do
  revertIf (MODULUS ≤ w.now + seconds) .noSuchTime
  pure { w with now := w.now + seconds, block := w.block + blocks }

def callStakingToken (call : TokenCall Address) (w : World) : Except Error World := do
  let stakingToken ← orRevert (call.exec w.stakingToken) .erc20
  pure { w with stakingToken }

def callRewardToken (call : TokenCall Address) (w : World) : Except Error World := do
  let rewardToken ← orRevert (call.exec w.rewardToken) .erc20
  pure { w with rewardToken }

def constructed (cfg : Config) (now block : ℕ) (stakingToken rewardToken : TokenLedger Address) :
    World :=
  ⟨cfg, now, block, stakingToken, rewardToken, 0, 0, 0, 0, 0, now, 0, 0, 0, 0, 0, fun _ => 0,
    fun _ => 0, fun _ => 0, fun _ => 0, fun _ => 0, fun _ => 0⟩

structure Deployed (w : World) : Prop where
  now_lt : w.now < MODULUS
  stakingToken_closed : ∀ a, w.stakingToken.allowance w.self a = 0
  rewardToken_closed : ∀ a, w.rewardToken.allowance w.self a = 0
  storage_eq : w = constructed w.cfg w.now w.block w.stakingToken w.rewardToken

end Turret.RewardStream

/-! `TurretStreamingStaking`: a reward stream and nothing else. What is funded
stays. -/

namespace Turret.StreamingStaking

open Execution
open RewardStream (World Error)

def distribute (sender : Address) (amount : ℕ) (w : World) : Except Error World := do
  RewardStream.checkFunding sender amount w
  RewardStream.receiveFunding sender amount w

inductive Op
  | stake (sender : Address) (amount : ℕ)
  | unstake (sender : Address) (amount : ℕ)
  | claim (sender : Address)
  | distribute (sender : Address) (amount : ℕ)
  | stakingToken (call : TokenCall Address)
  | rewardToken (call : TokenCall Address)
  | elapse (seconds blocks : ℕ)

def Op.sender : Op → Option Address
  | .stake sender _ | .unstake sender _ | .claim sender | .distribute sender _ => some sender
  | .stakingToken call | .rewardToken call => call.sender
  | .elapse .. => none

def exec (op : Op) (w : World) : Except Error World := do
  revertIf (op.sender = some w.self) .contractCaller
  match op with
  | .stake sender amount => RewardStream.stake sender amount w
  | .unstake sender amount => RewardStream.unstake sender amount w
  | .claim sender => RewardStream.claim sender w
  | .distribute sender amount => distribute sender amount w
  | .stakingToken call => RewardStream.callStakingToken call w
  | .rewardToken call => RewardStream.callRewardToken call w
  | .elapse seconds blocks => RewardStream.elapse seconds blocks w

end Turret.StreamingStaking
