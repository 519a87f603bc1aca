import Turret.Rewards.RecoverableStaking

/-! `TurretRecoverableFeeRouter` with its staking contract and the USDG pools it
collects from. Of a capital pool the router uses `protocolFees`, `feeRecipient`
and `claimRevenue`, which is one code in both pools. USDG is an exact-transfer
token that runs no code of its holders, so no call is met inside another and
the reentrancy guards are left out. -/

namespace Turret.FeeRouter

open Execution Function Uint256

inductive Error
  | invalidConfiguration
  | unsupportedPool
  | noFees
  | unauthorized
  | insufficientTreasuryBalance
  | unsupportedTransfer
  | erc20
  | panic
  /-- `claimRevenue` of a pool reverts. -/
  | pool
  | staking (reason : RewardStream.Error)
  /-- No such call is possible. -/
  | contractCaller
  deriving DecidableEq

/-- What the router uses of a capital pool. -/
structure RevenuePool where
  codeHash : ℕ
  feeRecipient : Address
  protocolFees : ℕ

structure Router where
  poolCodeHash : Address → Option ℕ
  pools : List Address
  totalCollected : ℕ
  totalDistributed : ℕ
  totalTreasuryReported : ℕ
  totalSubsidies : ℕ
  totalRecovered : ℕ
  halfRemainder : ℕ

structure Config where
  self : Address
  treasury : Address
  treasury_ne_zero : treasury ≠ 0
  treasury_ne_self : treasury ≠ self

structure World where
  cfg : Config
  router : Router
  staking : RecoverableStaking.World
  /-- The code at an address, where it is a pool's. -/
  pools : Address → Option RevenuePool

/-- The ledger that the router and its staking contract share. -/
def World.usdg (w : World) : TokenLedger Address := w.staking.stream.rewardToken

def World.withUsdg (usdg : TokenLedger Address) (w : World) : World :=
  { w with staking.stream.rewardToken := usdg }

@[simp] theorem withUsdg_usdg (usdg : TokenLedger Address) (w : World) :
    (w.withUsdg usdg).staking.stream.rewardToken = usdg := rfl

@[simp] theorem withUsdg_cfg (usdg : TokenLedger Address) (w : World) :
    (w.withUsdg usdg).cfg = w.cfg := rfl

@[simp] theorem withUsdg_self (usdg : TokenLedger Address) (w : World) :
    (w.withUsdg usdg).staking.self = w.staking.self := rfl

inductive Event
  | revenueDistributed (pool : Address) (collected stakerShare treasuryRetained : ℕ)
  | claimedFeesForwarded (treasuryReportedFees stakerShare : ℕ)
  | reserveSubsidized (amount : ℕ)
  | reserveRecovered (amount : ℕ)
  deriving DecidableEq

/-- `claimRevenue` of a pool. -/
def claimRevenue (pool : Address) (w : World) : Except Error World := do
  let contract ← orRevert (w.pools pool) .pool
  revertIf (contract.protocolFees = 0) .pool
  revertIf (contract.feeRecipient = 0 ∨ contract.feeRecipient = pool) .pool
  let usdg ← w.usdg.sendExact .pool .pool pool contract.feeRecipient contract.protocolFees
  pure
    { w.withUsdg usdg with
      pools := update w.pools pool (some { contract with protocolFees := 0 }) }

/-- A call of the router to its staking contract. -/
def callStaking
    (call : RecoverableStaking.World → Except RewardStream.Error RecoverableStaking.World)
    (w : World) : Except Error World := do
  let staking ← (call w.staking).mapError .staking
  pure { w with staking }

/-- `_fund`. -/
def fund (share : ℕ) (subsidy : Bool) (w : World) : Except Error World := do
  let beforeTreasury := w.usdg.balanceOf w.cfg.treasury
  let beforeRouter := w.usdg.balanceOf w.cfg.self
  let usdg ← orRevert (w.usdg.transferFrom w.cfg.self w.cfg.treasury w.cfg.self share) .erc20
  revertIf (usdg.balanceOf w.cfg.self ≠ beforeRouter + share ∨
    usdg.balanceOf w.cfg.treasury ≠ beforeTreasury - share) .unsupportedTransfer
  let w ← callStaking (RecoverableStaking.fund w.cfg.self share subsidy) (w.withUsdg usdg)
  revertIf (w.usdg.balanceOf w.cfg.self ≠ beforeRouter) .unsupportedTransfer
  pure w

/-- The funding of a share, if there is one. -/
def fundShare (share : ℕ) (w : World) : Except Error World :=
  if share = 0 then pure w else fund share false w

/-- `_forward`, with the share it returns. -/
def forward (fee : ℕ) (w : World) : Except Error (World × ℕ) := do
  let share := fee / 2 + (fee % 2 + w.router.halfRemainder) / 2
  let halfRemainder := (fee % 2 + w.router.halfRemainder) % 2
  let totalDistributed ← checkedAdd w.router.totalDistributed share .panic
  let w ← fundShare share { w with router := { w.router with halfRemainder, totalDistributed } }
  pure (w, share)

def collect (pool : Address) (w : World) : Except Error (World × Event) := do
  let allowed ← orRevert (w.router.poolCodeHash pool) .unsupportedPool
  let contract ← orRevert (w.pools pool) .unsupportedPool
  revertIf (contract.codeHash ≠ allowed) .unsupportedPool
  let fee := contract.protocolFees
  revertIf (fee = 0) .noFees
  let beforeTreasury := w.usdg.balanceOf w.cfg.treasury
  let w ← claimRevenue pool w
  revertIf (w.usdg.balanceOf w.cfg.treasury ≠ beforeTreasury + fee) .unsupportedTransfer
  let totalCollected ← checkedAdd w.router.totalCollected fee .panic
  let (w, share) ← forward fee { w with router := { w.router with totalCollected } }
  let retained ← checkedSub fee share .panic
  pure (w, .revenueDistributed pool fee share retained)

def forwardClaimedFees (sender : Address) (grossFees : ℕ) (w : World) :
    Except Error (World × Event) := do
  revertIf (sender ≠ w.cfg.treasury) .unauthorized
  revertIf (grossFees = 0) .noFees
  revertIf (w.usdg.balanceOf w.cfg.treasury < grossFees) .insufficientTreasuryBalance
  let totalTreasuryReported ← checkedAdd w.router.totalTreasuryReported grossFees .panic
  let (w, share) ← forward grossFees { w with router := { w.router with totalTreasuryReported } }
  pure (w, .claimedFeesForwarded grossFees share)

def fundReserve (sender : Address) (amount : ℕ) (w : World) : Except Error (World × Event) := do
  revertIf (sender ≠ w.cfg.treasury) .unauthorized
  revertIf (amount = 0) .noFees
  let totalSubsidies ← checkedAdd w.router.totalSubsidies amount .panic
  let w ← fund amount true { w with router := { w.router with totalSubsidies } }
  pure (w, .reserveSubsidized amount)

/-- The recovery of an amount, in both `recoverReserve` and `recoverAllSubsidy`. -/
def recover (amount : ℕ) (w : World) : Except Error (World × Event) := do
  let w ← callStaking (RecoverableStaking.recoverSubsidy w.cfg.self amount) w
  let totalRecovered ← checkedAdd w.router.totalRecovered amount .panic
  pure ({ w with router := { w.router with totalRecovered } }, .reserveRecovered amount)

def recoverReserve (sender : Address) (amount : ℕ) (w : World) : Except Error (World × Event) := do
  revertIf (sender ≠ w.cfg.treasury) .unauthorized
  recover amount w

def recoverAllSubsidy (sender : Address) (w : World) : Except Error (World × Event) := do
  revertIf (sender ≠ w.cfg.treasury) .unauthorized
  let amount ← (RecoverableStaking.recoverableSubsidy w.staking).mapError .staking
  revertIf (amount = 0) .noFees
  recover amount w

/-! ### Runs -/

/-- The calls of the router, each by anyone. -/
inductive Call
  | collect (pool : Address)
  | forwardClaimedFees (sender : Address) (grossFees : ℕ)
  | fundReserve (sender : Address) (amount : ℕ)
  | recoverReserve (sender : Address) (amount : ℕ)
  | recoverAllSubsidy (sender : Address)

def call : Call → World → Except Error (World × Event)
  | .collect pool => collect pool
  | .forwardClaimedFees sender grossFees => forwardClaimedFees sender grossFees
  | .fundReserve sender amount => fundReserve sender amount
  | .recoverReserve sender amount => recoverReserve sender amount
  | .recoverAllSubsidy sender => recoverAllSubsidy sender

/-- What happens outside the router: a call of the staking contract or of a token, a pool claimed
directly, and any change of the code and the fees of a pool. -/
inductive Outside
  | staking (op : RecoverableStaking.Op)
  | claimRevenue (pool : Address)
  | setPool (pool : Address) (contract : Option RevenuePool)

/-- The router makes no other calls than its code does, and there is no pool at its address. -/
def outside : Outside → World → Except Error World
  | .staking op, w => do
    revertIf (op.sender = some w.cfg.self) .contractCaller
    callStaking (RecoverableStaking.exec op) w
  | .claimRevenue pool, w => claimRevenue pool w
  | .setPool pool contract, w => do
    revertIf (pool = w.cfg.self) .contractCaller
    pure { w with pools := update w.pools pool contract }

/-- One step, with the event of the router. -/
inductive Step (w : World) : Option Event → World → Prop
  | call {c : Call} {event : Event} {w' : World} (done : call c w = .ok (w', event)) :
      Step w (some event) w'
  | outside {o : Outside} {w' : World} (done : outside o w = .ok w') : Step w none w'

/-! ### The constructor -/

/-- The pools are of this treasury, and each is listed once. -/
def allowPools (treasury : Address) (pools : Address → Option RevenuePool) :
    List Address → Router → Except Error Router
  | [], router => pure router
  | pool :: rest, router => do
    let contract ← orRevert (pools pool) .invalidConfiguration
    revertIf (router.poolCodeHash pool ≠ none ∨ contract.feeRecipient ≠ treasury)
      .invalidConfiguration
    allowPools treasury pools rest
      { router with
        poolCodeHash := update router.poolCodeHash pool (some contract.codeHash)
        pools := router.pools ++ [pool] }

def Router.empty : Router := ⟨fun _ => none, [], 0, 0, 0, 0, 0, 0⟩

/-- What the constructor leaves. The staking contract is its own, and may pull all it holds. -/
structure Deployed (w : World) : Prop where
  staking : RecoverableStaking.Deployed w.staking
  distributor_eq : w.staking.stream.cfg.distributor = w.cfg.self
  treasury_eq : w.staking.treasury = w.cfg.treasury
  approved : ∀ a, w.usdg.allowance w.cfg.self a = if a = w.staking.self then MODULUS - 1 else 0
  no_pool : w.pools w.cfg.self = none
  router_eq : ∃ allowed : List Address, 0 < allowed.length ∧ allowed.length ≤ 64 ∧
    allowPools w.cfg.treasury w.pools allowed .empty = .ok w.router

end Turret.FeeRouter
