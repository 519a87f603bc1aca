import Turret.Library.Execution
import Turret.Library.Ledger
import Turret.Library.Rounding

/-! `TurretBuybackBurn`: the treasury's hourly purchases of TURRET, burned at once.
Amounts are naturals, and where the contract's checked arithmetic would overflow
it reverts, so its runs are among the runs below. What the tokens, the router and
the route behind it do is not restricted: every outside call ends in ledgers of
its own choice or reverts, and the route may have others call the module while it
swaps, where `execute` is refused by its guard. The contract checks what it finds
afterwards. -/

namespace Turret.BuybackBurn

open Execution Rounding

inductive Error
  | unauthorized
  | invalidConfiguration
  | unavailable
  | invalidSwap
  | invalidSettlement
  | outside
  | panic
  deriving DecidableEq

def HOURLY_RATE : ℕ := 67000000000000000
def RATE_SCALE : ℕ := 10 ^ 18
def reserveFloor : ℕ := 100 * 10 ^ 6
/-- `1 hours`. -/
def cooldown : ℕ := 3600
def CHAIN_ID : ℕ := 4663

/-- What the two tokens answer. -/
structure Token where
  balanceOf : Address → ℕ
  allowance : Address → Address → ℕ
  totalSupply : ℕ

/-- The immutables, with what the constructor checks of them. -/
structure Config where
  self : Address
  usdg : Address
  turret : Address
  treasury : Address
  swapRouter : Address
  swapTarget : Address
  usdgHash : ℕ
  turretHash : ℕ
  routerHash : ℕ
  targetHash : ℕ
  treasury_ne_zero : treasury ≠ 0
  tokens_ne : usdg ≠ turret

structure Description where
  srcToken : Address
  dstToken : Address
  srcReceivers : List Address
  srcAmounts : List ℕ
  feeReceivers : List Address
  feeAmounts : List ℕ
  dstReceiver : Address
  amount : ℕ
  minReturnAmount : ℕ
  flags : ℕ
  permit : List UInt8

/-- The argument of the router's `swap`. -/
structure SwapExecution where
  callTarget : Address
  approveTarget : Address
  targetData : List UInt8
  desc : Description
  clientData : List UInt8

inductive Event
  | configured (keeper : Address) (minTokensPerUSDG : ℕ)
  | paused (value : Bool)
  | boughtAndBurned (usdgSpent turretBurned timestamp : ℕ)
  deriving DecidableEq

structure Buyback where
  keeper : Address
  paused : Bool
  minTokensPerUSDG : ℕ
  totalSpent : ℕ
  totalBurned : ℕ
  lastBuyback : ℕ
  /-- The events emitted so far with their block times, newest first. -/
  log : List (ℕ × Event)

structure World where
  cfg : Config
  now : ℕ
  chainId : ℕ
  codehash : Address → ℕ
  usdg : Token
  turret : Token
  buyback : Buyback

def World.emit (event : Event) (w : World) : World :=
  { w with buyback := { w.buyback with log := (w.now, event) :: w.buyback.log } }

/-- The treasury's USDG. -/
def treasuryBalance (w : World) : ℕ := w.usdg.balanceOf w.cfg.treasury

/-! ### The treasury's calls -/

def onlyTreasury (sender : Address) (w : World) : Except Error Unit :=
  revertIf (sender ≠ w.cfg.treasury) .unauthorized

def configure (sender operator : Address) (minRate : ℕ) (w : World) : Except Error World := do
  onlyTreasury sender w
  revertIf (operator = 0 ∨ minRate = 0) .invalidConfiguration
  let w : World :=
    { w with
      buyback := { w.buyback with keeper := operator, minTokensPerUSDG := minRate, paused := true } }
  pure ((w.emit (.configured operator minRate)).emit (.paused true))

/-- `lastBuyback` once the module is resumed: no second purchase inside the last one's window. -/
def resumedAt (value : Bool) (w : World) : ℕ :=
  if w.buyback.paused = true ∧ value = false ∧ w.buyback.lastBuyback = 0 then w.now
  else w.buyback.lastBuyback

def setPaused (sender : Address) (value : Bool) (w : World) : Except Error World := do
  onlyTreasury sender w
  revertIf (value = false ∧ w.buyback.keeper = 0) .invalidConfiguration
  let w : World :=
    { w with buyback := { w.buyback with lastBuyback := resumedAt value w, paused := value } }
  pure (w.emit (.paused value))

inductive Call
  | configure (sender operator : Address) (minRate : ℕ)
  | setPaused (sender : Address) (value : Bool)

def Call.exec : Call → World → Except Error World
  | .configure sender operator minRate, w => BuybackBurn.configure sender operator minRate w
  | .setPaused sender value, w => BuybackBurn.setPaused sender value w

/-! ### Purchases -/

def availableBudget (w : World) : ℕ :=
  if w.buyback.paused = true ∨ w.now < w.buyback.lastBuyback + cooldown then 0
  else if treasuryBalance w ≤ reserveFloor then 0
  else min (mulDiv (treasuryBalance w - reserveFloor) HOURLY_RATE RATE_SCALE)
    (w.usdg.allowance w.cfg.treasury w.cfg.self)

def minimumReturn (amount : ℕ) (w : World) : ℕ :=
  mulDivUp amount w.buyback.minTokensPerUSDG (10 ^ 6)

/-- What the outside calls of one purchase leave; `none` where a call reverts. -/
structure Effects where
  transferred : Option Token
  approved : Option Token
  /-- The two tokens after the swap. -/
  swapped : Option (Token × Token)
  /-- The calls of the module that go through during the swap. -/
  calls : List Call
  cleared : Option Token
  burned : Option Token

/-- The loop over `srcAmounts`. -/
def sumShares (target : Address) : List Address → List ℕ → Except Error ℕ
  | receiver :: receivers, amount :: amounts => do
    revertIf (receiver ≠ target ∨ amount = 0) .invalidSwap
    let rest ← sumShares target receivers amounts
    pure (amount + rest)
  | _, _ => pure 0

def checkCall (sender : Address) (deadline : ℕ) (w : World) : Except Error Unit := do
  revertIf (sender ≠ w.buyback.keeper) .unauthorized
  revertIf (deadline < w.now ∨ w.now + 120 < deadline ∨ w.chainId ≠ CHAIN_ID) .unavailable
  revertIf (w.codehash w.cfg.usdg ≠ w.cfg.usdgHash ∨ w.codehash w.cfg.turret ≠ w.cfg.turretHash ∨
    w.codehash w.cfg.swapRouter ≠ w.cfg.routerHash ∨
    w.codehash w.cfg.swapTarget ≠ w.cfg.targetHash) .unavailable

def checkSwap (execution : SwapExecution) (w : World) : Except Error Unit := do
  let d := execution.desc
  revertIf (execution.callTarget ≠ w.cfg.swapTarget ∨ execution.approveTarget ≠ 0 ∨
    execution.targetData.length < 4 ∨ 65536 < execution.targetData.length ∨
    4096 < execution.clientData.length ∨ d.srcToken ≠ w.cfg.usdg ∨ d.dstToken ≠ w.cfg.turret ∨
    d.dstReceiver ≠ w.cfg.self ∨ d.minReturnAmount = 0 ∨
    d.minReturnAmount < minimumReturn d.amount w ∨ d.flags ≠ 512 ∨ d.permit.length ≠ 0 ∨
    d.feeReceivers.length ≠ 0 ∨ d.feeAmounts.length ≠ 0 ∨ d.srcReceivers.length = 0 ∨
    32 < d.srcReceivers.length ∨ d.srcAmounts.length ≠ d.srcReceivers.length) .invalidSwap
  let sum ← sumShares w.cfg.swapTarget d.srcReceivers d.srcAmounts
  revertIf (sum ≠ d.amount) .invalidSwap

/-- `usdg.safeApprove(swapRouter, amount)`. -/
def safeApprove (amount : ℕ) (after : Option Token) (w : World) : Except Error World := do
  revertIf (amount ≠ 0 ∧ w.usdg.allowance w.cfg.self w.cfg.swapRouter ≠ 0) .outside
  let usdg ← orRevert after .outside
  pure { w with usdg }

/-- `swap` of the router. -/
def swap (effects : Effects) (w : World) : Except Error World := do
  let w ← effects.calls.foldlM (fun w call => call.exec w) w
  let (usdg, turret) ← orRevert effects.swapped .outside
  pure { w with usdg, turret }

def execute (sender : Address) (execution : SwapExecution) (deadline : ℕ) (effects : Effects)
    (w : World) : Except Error World := do
  checkCall sender deadline w
  let amount := execution.desc.amount
  revertIf (amount = 0 ∨ availableBudget w < amount) .unavailable
  checkSwap execution w
  let beforeTreasury := treasuryBalance w
  let beforeUSDG := w.usdg.balanceOf w.cfg.self
  let beforeToken := w.turret.balanceOf w.cfg.self
  let usdg ← orRevert effects.transferred .outside
  let rest ← checkedSub beforeTreasury amount .panic
  let w : World :=
    { w with
      usdg
      buyback :=
        { w.buyback with totalSpent := w.buyback.totalSpent + amount, lastBuyback := w.now } }
  revertIf (w.usdg.balanceOf w.cfg.self ≠ beforeUSDG + amount ∨ treasuryBalance w ≠ rest)
    .invalidSettlement
  let w ← safeApprove amount effects.approved w
  let w ← swap effects w
  let w ← safeApprove 0 effects.cleared w
  revertIf (w.usdg.balanceOf w.cfg.self ≠ beforeUSDG ∨ treasuryBalance w ≠ rest) .invalidSettlement
  let bought ← checkedSub (w.turret.balanceOf w.cfg.self) beforeToken .panic
  revertIf (bought < execution.desc.minReturnAmount) .invalidSettlement
  let turret ← orRevert effects.burned .outside
  let supply ← checkedSub w.turret.totalSupply bought .panic
  revertIf (turret.balanceOf w.cfg.self ≠ beforeToken ∨ turret.totalSupply ≠ supply)
    .invalidSettlement
  let w : World :=
    { w with turret, buyback := { w.buyback with totalBurned := w.buyback.totalBurned + bought } }
  pure (w.emit (.boughtAndBurned amount bought w.now))

/-! ### Runs -/

inductive Op
  | call (call : Call)
  | execute (sender : Address) (execution : SwapExecution) (deadline : ℕ) (effects : Effects)
  /-- Time passes, and others do what they like with the tokens and the code. -/
  | outside (usdg turret : Token) (chainId : ℕ) (codehash : Address → ℕ) (seconds : ℕ)

def exec : Op → World → Except Error World
  | .call call, w => call.exec w
  | .execute sender execution deadline effects, w => execute sender execution deadline effects w
  | .outside usdg turret chainId codehash seconds, w =>
    pure { w with usdg, turret, chainId, codehash, now := w.now + seconds }

/-- A call that reverts leaves everything as it was. -/
def attempt (w : World) (op : Op) : World := reached w (exec op w)

def run (w : World) (ops : List Op) : World := ops.foldl attempt w

/-- What the constructor leaves. -/
def Deployed (w : World) : Prop := w.buyback = ⟨0, true, 0, 0, 0, 0, []⟩

end Turret.BuybackBurn
