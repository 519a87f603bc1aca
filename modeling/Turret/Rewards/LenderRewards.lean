import Turret.Library.Payments
import Turret.Library.Rounding

/-! `TurretLenderRewards`. Every addition, subtraction and quotient is checked
as the compiler and `Math.mulDiv` check it; a difference below zero and a
result beyond a word are told apart here. Both tokens are exact-transfer and
run no code of their holders, so the reentrancy guards are left out. -/

namespace Turret.LenderRewards

open Execution Finset Function Rounding Uint256

inductive Error
  | unauthorized
  | invalidCampaign
  | invalidAmount
  | unsupportedTransfer
  | contractCaller
  | erc20
  | underflow
  | overflow
  deriving DecidableEq

def SCALE : ℕ := 10 ^ 36
def MAX_LENGTH : ℕ := 14 * 86400
def MAX_DELAY : ℕ := 30 * 86400

structure Config where
  self : Address
  administrator : Address
  lifetimeBudget : ℕ
  administrator_ne_zero : administrator ≠ 0
  budget_ne_zero : lifetimeBudget ≠ 0
  budget_le : lifetimeBudget ≤ UINT128_MAX

structure World where
  cfg : Config
  now : ℕ
  stakingToken : TokenLedger Address
  rewardToken : TokenLedger Address
  totalFunded : ℕ
  totalClaimed : ℕ
  totalStaked : ℕ
  reserved : ℕ
  rewardPerShare : ℕ
  startsAt : ℕ
  endsAt : ℕ
  campaignBudget : ℕ
  campaignEmitted : ℕ
  campaignAllocated : ℕ
  finalized : Bool
  stakedBalance : Address → ℕ
  accrued : Address → ℕ
  paidPerShare : Address → ℕ

def World.self (w : World) : Address := w.cfg.self

def onlyAdministrator (sender : Address) (w : World) : Except Error Unit :=
  revertIf (sender ≠ w.cfg.administrator) .unauthorized

/-- `_scheduled`. -/
def scheduled (w : World) : Except Error ℕ :=
  if w.finalized = true then pure w.campaignEmitted
  else if w.now ≤ w.startsAt then pure 0
  else do
    let elapsed ← checkedSub (min w.now w.endsAt) w.startsAt .underflow
    let length ← checkedSub w.endsAt w.startsAt .underflow
    checkedMulDiv w.campaignBudget elapsed length .overflow

/-- `_checkpoint`. -/
def checkpoint (w : World) : Except Error World := do
  let total ← scheduled w
  let emission ← checkedSub total w.campaignEmitted .underflow
  if w.totalStaked ≠ 0 then do
    let growth ← checkedMulDiv emission SCALE w.totalStaked .overflow
    let rewardPerShare ← checkedAdd w.rewardPerShare growth .overflow
    let campaignAllocated ← checkedAdd w.campaignAllocated emission .overflow
    pure { w with campaignEmitted := total, rewardPerShare, campaignAllocated }
  else pure { w with campaignEmitted := total }

/-- `_update`. -/
def updateAccount (account : Address) (w : World) : Except Error World := do
  let w ← checkpoint w
  let growth ← checkedSub w.rewardPerShare (w.paidPerShare account) .underflow
  let gained ← checkedMulDiv (w.stakedBalance account) growth SCALE .overflow
  let accrued ← checkedAdd (w.accrued account) gained .overflow
  pure
    { w with
      accrued := update w.accrued account accrued
      paidPerShare := update w.paidPerShare account w.rewardPerShare }

/-- `_finalize`. -/
def finalize (w : World) : Except Error World :=
  if w.finalized = true then pure w
  else do
    let unspent ← checkedSub w.campaignBudget w.campaignAllocated .underflow
    let reserved ← checkedSub w.reserved unspent .underflow
    pure { w with reserved, finalized := true }

def fundCampaign (sender : Address) (budget start stop : ℕ) (w : World) : Except Error World := do
  onlyAdministrator sender w
  revertIf (w.finalized = false ∧ w.now < w.endsAt) .invalidCampaign
  let w ← checkpoint w
  let w ← finalize w
  revertIf (budget = 0) .invalidCampaign
  let total ← checkedAdd w.totalFunded budget .overflow
  revertIf (w.cfg.lifetimeBudget < total ∨ start < w.now ∨ stop ≤ start) .invalidCampaign
  let length ← checkedSub stop start .underflow
  revertIf (MAX_LENGTH < length) .invalidCampaign
  let latest ← checkedAdd w.now MAX_DELAY .overflow
  revertIf (latest < start) .invalidCampaign
  let rewardToken ← w.rewardToken.pullTo .erc20 .unsupportedTransfer w.self sender w.self budget
  let reserved ← checkedAdd w.reserved budget .overflow
  pure
    { w with
      rewardToken, totalFunded := total, reserved, startsAt := start, endsAt := stop
      campaignBudget := budget, campaignEmitted := 0, campaignAllocated := 0, finalized := false }

def stake (sender : Address) (shares : ℕ) (w : World) : Except Error World := do
  revertIf (shares = 0) .invalidAmount
  let total ← checkedAdd w.totalStaked shares .overflow
  revertIf (UINT128_MAX < total) .invalidAmount
  let w ← updateAccount sender w
  let stakingToken ← w.stakingToken.pullTo .erc20 .unsupportedTransfer w.self sender w.self shares
  let staked ← checkedAdd (w.stakedBalance sender) shares .overflow
  pure
    { w with
      stakingToken, stakedBalance := update w.stakedBalance sender staked, totalStaked := total }

def unstake (sender : Address) (shares : ℕ) (w : World) : Except Error World := do
  revertIf (shares = 0 ∨ w.stakedBalance sender < shares) .invalidAmount
  let w ← updateAccount sender w
  let staked ← checkedSub (w.stakedBalance sender) shares .underflow
  let total ← checkedSub w.totalStaked shares .underflow
  let stakingToken ← w.stakingToken.sendExact .erc20 .unsupportedTransfer w.self sender shares
  revertIf (stakingToken.balanceOf w.self < total) .unsupportedTransfer
  pure
    { w with
      stakingToken, stakedBalance := update w.stakedBalance sender staked, totalStaked := total }

def claim (sender : Address) (w : World) : Except Error World := do
  let w ← updateAccount sender w
  let amount := w.accrued sender
  if amount = 0 then pure w
  else do
    let reserved ← checkedSub w.reserved amount .underflow
    let totalClaimed ← checkedAdd w.totalClaimed amount .overflow
    let rewardToken ← w.rewardToken.sendExact .erc20 .unsupportedTransfer w.self sender amount
    revertIf (rewardToken.balanceOf w.self < reserved) .unsupportedTransfer
    pure { w with rewardToken, accrued := update w.accrued sender 0, reserved, totalClaimed }

def stopCampaign (sender : Address) (w : World) : Except Error World := do
  onlyAdministrator sender w
  let w ← checkpoint w
  revertIf (w.finalized = true) .invalidCampaign
  let w ← finalize w
  pure { w with endsAt := w.now }

def finalizeEnded (w : World) : Except Error World :=
  if w.endsAt ≤ w.now then finalize w else pure w

def recoverUnallocated (sender : Address) (w : World) : Except Error World := do
  onlyAdministrator sender w
  let w ← checkpoint w
  let w ← finalizeEnded w
  let amount ← checkedSub (w.rewardToken.balanceOf w.self) w.reserved .underflow
  if amount = 0 then pure w
  else do
    let rewardToken ← orRevert (w.rewardToken.transfer w.self w.cfg.administrator amount) .erc20
    revertIf (rewardToken.balanceOf w.self ≠ w.reserved) .unsupportedTransfer
    pure { w with rewardToken }

/-- The `rpt` of `earned`. -/
def perShare (w : World) : Except Error ℕ :=
  if w.totalStaked ≠ 0 then do
    let total ← scheduled w
    let emission ← checkedSub total w.campaignEmitted .underflow
    let growth ← checkedMulDiv emission SCALE w.totalStaked .overflow
    checkedAdd w.rewardPerShare growth .overflow
  else pure w.rewardPerShare

def earned (account : Address) (w : World) : Except Error ℕ := do
  let perShare ← perShare w
  let growth ← checkedSub perShare (w.paidPerShare account) .underflow
  let gained ← checkedMulDiv (w.stakedBalance account) growth SCALE .overflow
  checkedAdd (w.accrued account) gained .overflow

inductive Op
  | fundCampaign (sender : Address) (budget start stop : ℕ)
  | stake (sender : Address) (shares : ℕ)
  | unstake (sender : Address) (shares : ℕ)
  | claim (sender : Address)
  | stopCampaign (sender : Address)
  | recoverUnallocated (sender : Address)
  | elapse (seconds : ℕ)
  | stakingToken (call : TokenCall Address)
  | rewardToken (call : TokenCall Address)

def Op.sender : Op → Option Address
  | .fundCampaign sender .. | .stake sender _ | .unstake sender _ | .claim sender
  | .stopCampaign sender | .recoverUnallocated sender => some sender
  | .elapse _ => none
  | .stakingToken call | .rewardToken call => call.sender

def run : Op → World → Except Error World
  | .fundCampaign sender budget start stop, w => fundCampaign sender budget start stop w
  | .stake sender shares, w => stake sender shares w
  | .unstake sender shares, w => unstake sender shares w
  | .claim sender, w => claim sender w
  | .stopCampaign sender, w => stopCampaign sender w
  | .recoverUnallocated sender, w => recoverUnallocated sender w
  | .elapse seconds, w => .ok { w with now := w.now + seconds }
  | .stakingToken call, w => do
    let stakingToken ← orRevert (call.exec w.stakingToken) .erc20
    pure { w with stakingToken }
  | .rewardToken call, w => do
    let rewardToken ← orRevert (call.exec w.rewardToken) .erc20
    pure { w with rewardToken }

def exec (op : Op) (w : World) : Except Error World := do
  revertIf (op.sender = some w.self) .contractCaller
  run op w

def constructed (cfg : Config) (now : ℕ) (stakingToken rewardToken : TokenLedger Address) : World :=
  ⟨cfg, now, stakingToken, rewardToken, 0, 0, 0, 0, 0, 0, 0, 0, 0, 0, true, fun _ => 0, fun _ => 0,
    fun _ => 0⟩

structure Deployed (w : World) : Prop where
  stakingToken_closed : ∀ a, w.stakingToken.allowance w.self a = 0
  rewardToken_closed : ∀ a, w.rewardToken.allowance w.self a = 0
  storage_eq : w = constructed w.cfg w.now w.stakingToken w.rewardToken

def Reachable (w : World) : Prop :=
  ∃ start ops, Deployed start ∧ Run (accepts exec) start ops w

end Turret.LenderRewards
