import Turret.Isolated.CreditEngine
import Turret.Oracles.Circuit

/-! `DockyardStockCreditEngine`: any number of engines over one guard and one
gate. An engine is the fixed-rate engine with other prices, so a call that asks
for none is the call of `IsolatedEngine`. Each engine sees the two tokens by
itself: what another engine does to them is among the token calls. What the
stock feed, the token and the USDG feeds answer, and whether the code of a
dependency is still the deployed one, is free at every call. -/

namespace Turret.StockCredit

open Execution Rounding Circuit
open IsolatedEngine (World Feed settle positionDebt)

inductive Error
  | dependencyChanged
  | invalidUsdgPrice
  | marketHealthUnauthorized
  | contractCaller
  | ecdsa
  | external
  | circuit (error : Circuit.Error)
  | engine (error : IsolatedEngine.Error)
  | pool (error : PoolError)
  deriving DecidableEq

def MAX_USDG_AGE : ℕ := 25 * 3600

/-- The immutables of the USDG valuation, with what the constructor checks of them. -/
structure UsdgPricing where
  primaryMaxAge : ℕ
  secondaryMaxAge : ℕ
  maxDeviationBps : ℕ
  maxTimestampSkew : ℕ
  primaryDecimals : ℕ
  secondaryDecimals : ℕ
  primaryMaxAge_pos : 0 < primaryMaxAge
  primaryMaxAge_le : primaryMaxAge ≤ MAX_USDG_AGE
  secondaryMaxAge_pos : 0 < secondaryMaxAge
  secondaryMaxAge_le : secondaryMaxAge ≤ MAX_USDG_AGE
  skew_pos : 0 < maxTimestampSkew
  skew_le : maxTimestampSkew ≤ max primaryMaxAge secondaryMaxAge
  deviation_pos : 0 < maxDeviationBps
  deviation_le : maxDeviationBps ≤ 200
  primaryDecimals_le : primaryDecimals ≤ 18
  secondaryDecimals_le : secondaryDecimals ≤ 18

/-- A health message for the market of an engine is signed for the address of that engine. -/
structure Signing (H M Signature : Type) extends Circuit.Signing H Signature Liveness where
  marketHash : Health H → M
  recoverMarket : Address → M → Signature → Option Address

/-- What is answered in one call. -/
structure Reading where
  /-- No code hash differs from the one of the deployment. -/
  dependencies : Bool
  stock : Circuit.Reading
  usdgPrimary : Feed
  usdgSecondary : Feed

structure Market (M : Type) where
  pricing : UsdgPricing
  /-- The engine, its pool and the two tokens; the feeds of the base contract are never read. -/
  world : World
  /-- `none` where it is zero. -/
  approvedMarketHealth : Option M

structure System (ι H M : Type) where
  now : ℕ
  guard : Guard H
  gate : Gate
  markets : ι → Market M

structure LivenessProof (Signature : Type) where
  record : Liveness
  signature : Signature

/-- What a checked call brings along. -/
structure Checks (H Signature : Type) where
  health : Health H
  priceSignature : Signature
  marketSignature : Signature
  liveness : LivenessProof Signature

variable {ι H M Signature : Type} [DecidableEq ι] [DecidableEq H] [DecidableEq M]

/-- A revert of the base contract. -/
def base {α : Type} (x : Except IsolatedEngine.Error α) : Except Error α := x.mapError .engine

/-! ### Prices -/

section Prices

variable (cfg : Circuit.Config) (signing : Signing H M Signature)

/-- `_usdPrice`. -/
def usdPrice (feed : Feed) (decimals maxAge now : ℕ) : Except Error (ℕ × ℕ) := do
  let answered ← orRevert feed.decimals .external
  revertIf (answered ≠ decimals) .invalidUsdgPrice
  let data ← orRevert feed.latestRoundData .external
  revertIf (data.round = 0 ∨ data.answer ≤ 0 ∨ 2 ^ 128 ≤ data.answer.toNat ∨
    data.answered < data.round ∨ data.updated = 0 ∨ now < data.updated ∨
    maxAge ≤ now - data.updated) .invalidUsdgPrice
  pure (data.answer.toNat * 10 ^ (18 - decimals), data.updated)

/-- The health in force has been approved for this market. -/
def checkApproval (borrowing : Bool) (guard : Guard H) (approved : Option M) : Except Error Unit :=
  if borrowing then
    revertIf (∀ h ∈ guard.health, approved ≠ some (signing.marketHash h)) .marketHealthUnauthorized
  else
    pure ()

/-- `_stockPrice`. -/
def stockPrice (borrowing : Bool) (x : Reading) (m : Market M) (s : System ι H M) : Except Error ℕ := do
  revertIf (x.dependencies = false) .dependencyChanged
  (requireLive s.now s.gate).mapError .circuit
  let (stockUsd, _) ← (validatedPrice cfg signing.toSigning borrowing s.now x.stock
    s.guard).mapError .circuit
  checkApproval signing borrowing s.guard m.approvedMarketHealth
  let (a, timeA) ← usdPrice x.usdgPrimary m.pricing.primaryDecimals m.pricing.primaryMaxAge s.now
  let (b, timeB) ← usdPrice x.usdgSecondary m.pricing.secondaryDecimals m.pricing.secondaryMaxAge
    s.now
  let low := min a b
  let high := max a b
  revertIf (m.pricing.maxDeviationBps < mulDivUp (high - low) 10000 low ∨
    m.pricing.maxTimestampSkew < max timeA timeB - min timeA timeB) .invalidUsdgPrice
  let value := mulDiv stockUsd (10 ^ 18) high
  revertIf (value = 0) .invalidUsdgPrice
  pure value

end Prices

/-- What the two prices of an engine are during a call. -/
structure Prices where
  price : Except Error ℕ
  borrowingPrice : Except Error ℕ

/-! ### The calls that ask for a price

The code is that of the base contract, with its own prices overridden. -/

section Calls

variable (p : Prices)

def capitalOperationsAllowed (w : World) : Bool :=
  if w.engine.active.members.length = 0 then true
  else if w.engine.riskPaused then false
  else
    match p.borrowingPrice with
    | .error _ => false
    | .ok value => w.engine.active.members.all fun borrower =>
        safe (w.position borrower).collateral (positionDebt borrower w) value
          w.cfg.liquidationLtvBps

/-- `_borrow`. -/
def borrow (sender : Address) (amount : ℕ) (w : World) : Except Error World := do
  base (IsolatedEngine.requirePool w)
  revertIf (w.engine.riskPaused = true) (.engine .notReady)
  revertIf (amount = 0) (.engine .invalidAmount)
  let w := settle sender w
  let debt := (w.position sender).debt + amount
  revertIf (debt < w.cfg.minimumDebt) (.engine .invalidAmount)
  let value ← p.borrowingPrice
  revertIf (safe (w.position sender).collateral debt value w.cfg.maxLtvBps = false)
    (.engine .unsafePosition)
  let w ← base (IsolatedEngine.enter sender w)
  let q := w.position sender
  let w := w.setPosition sender { q with principal := q.principal + amount }
  let w ← base (IsolatedEngine.onPool
    (IsolatedPool.draw (some (capitalOperationsAllowed p w)) w.self sender amount) w)
  pure (w.emit (.borrowed sender amount))

def depositAndBorrow (sender : Address) (collateralAmount borrowAmount : ℕ) (w : World) :
    Except Error World := do
  let w ← base (IsolatedEngine.depositCollateral sender sender collateralAmount w)
  borrow p sender borrowAmount w

/-- With debt, collateral leaves only unpaused and while what stays is safe. -/
def checkExit (q : Position) (amount : ℕ) (w : World) : Except Error Unit :=
  if q.debt = 0 then pure ()
  else do
    revertIf (w.engine.riskPaused = true) (.engine .unsafePosition)
    let value ← p.borrowingPrice
    revertIf (safe (q.collateral - amount) q.debt value w.cfg.maxLtvBps = false)
      (.engine .unsafePosition)

/-- `_withdrawCollateral`. -/
def withdrawCollateral (sender : Address) (amount : ℕ) (recipient : Address) (w : World) :
    Except Error World := do
  base (IsolatedEngine.requirePool w)
  revertIf (amount = 0) (.engine .invalidAmount)
  let w := settle sender w
  let q := w.position sender
  revertIf (q.collateral < amount) (.engine .invalidAmount)
  checkExit p q amount w
  let w := w.setPosition sender { q with collateral := q.collateral - amount }
  let w ← base (IsolatedEngine.sendCollateral recipient amount w)
  pure (w.emit (.collateralWithdrawn sender recipient amount))

def withdrawRest (sender recipient : Address) (w : World) : Except Error World :=
  let amount := (w.position sender).collateral
  if amount ≠ 0 then withdrawCollateral p sender amount recipient w else pure w

def close (sender : Address) (maxRepay : ℕ) (recipient : Address) (w : World) :
    Except Error (World × ℕ) := do
  let (w, paid) ← base (IsolatedEngine.repayUpTo sender sender maxRepay w)
  revertIf ((w.position sender).debt ≠ 0) (.engine .unsafePosition)
  let w ← withdrawRest p sender recipient w
  pure (w, paid)

/-- `_liquidate`. -/
def liquidate (sender borrower : Address) (maxRepay minCollateral : ℕ) (w : World) :
    Except Error (World × ℕ × ℕ) := do
  base (IsolatedEngine.requirePool w)
  let w := settle borrower w
  let value ← p.price
  let (paid, seized) ← base (IsolatedEngine.liquidationQuote w.cfg (w.position borrower).collateral
    (w.position borrower).debt value maxRepay)
  revertIf (seized < minCollateral) (.engine .slippage)
  let w ← base (IsolatedEngine.repayPosition sender borrower paid w)
  let q := w.position borrower
  let left ← base (checkedSub q.collateral seized .panic)
  let w ← base (IsolatedEngine.recognizeShortfall borrower
    (w.setPosition borrower { q with collateral := left }))
  let w ← base (IsolatedEngine.finish borrower w)
  let w ← base (IsolatedEngine.sendCollateral sender seized w)
  pure (w.emit (.liquidated borrower sender paid seized), paid, seized)

def liquidationQuote (borrower : Address) (maxRepay : ℕ) (w : World) : Except Error (ℕ × ℕ) := do
  let value ← p.price
  base (IsolatedEngine.liquidationQuote w.cfg (w.position borrower).collateral
    (positionDebt borrower w) value maxRepay)

def checkOpen (paused : Bool) (w : World) : Except Error Unit :=
  if paused then pure ()
  else do
    revertIf (w.engine.retired = true) (.engine .marketRetired)
    base (IsolatedEngine.requirePool w)
    let _ ← p.price
    pure ()

def setRiskPaused (sender : Address) (paused : Bool) (w : World) : Except Error World := do
  base (IsolatedEngine.onlyOwner sender w)
  checkOpen p paused w
  pure { w with engine := { w.engine with riskPaused := paused } }

/-- An inherited call, or one of the pool or of a token. -/
def run : IsolatedEngine.Op → World → Except Error World
  | .setRiskPaused sender paused, w => setRiskPaused p sender paused w
  | .depositAndBorrow sender collateralAmount borrowAmount, w =>
    depositAndBorrow p sender collateralAmount borrowAmount w
  | .borrow sender amount, w => borrow p sender amount w
  | .withdrawCollateral sender amount recipient, w => withdrawCollateral p sender amount recipient w
  | .close sender maxRepay recipient, w => do
    let (w, _) ← close p sender maxRepay recipient w
    pure w
  | .liquidate sender borrower maxRepay minCollateral, w => do
    let (w, _) ← liquidate p sender borrower maxRepay minCollateral w
    pure w
  -- time passes from one block to the next
  | .capital (.elapse _), w => pure w
  | .capital op, w => base (IsolatedEngine.onPool
      (IsolatedPool.exec (op.withSafety (some (capitalOperationsAllowed p w)))) w)
  | op, w => base (IsolatedEngine.run op w)

end Calls

/-! ### The calls of the stock engine -/

section Stock

variable (cfg : Circuit.Config) (signing : Signing H M Signature)

namespace System

/-- The clocks of all contracts are one. -/
def elapse (seconds : ℕ) (s : System ι H M) : System ι H M :=
  { s with
    now := s.now + seconds
    markets := fun i =>
      { s.markets i with
        world := { (s.markets i).world with
          capital := { (s.markets i).world.capital with
            now := (s.markets i).world.capital.now + seconds } } } }

def world (i : ι) (s : System ι H M) : World := (s.markets i).world

def setWorld (i : ι) (w : World) (s : System ι H M) : System ι H M :=
  { s with markets := Function.update s.markets i { s.markets i with world := w } }

def approve (i : ι) (hash : M) (s : System ι H M) : System ι H M :=
  { s with markets := Function.update s.markets i { s.markets i with approvedMarketHealth := some hash } }

def prices (i : ι) (x : Reading) (s : System ι H M) : Prices where
  price := stockPrice cfg signing false x (s.markets i) s
  borrowingPrice := stockPrice cfg signing true x (s.markets i) s

end System

/-- A call of the guard or of the gate. -/
def circuit (op : Circuit.Op H Signature) (s : System ι H M) : Except Error (System ι H M) := do
  let oracles ← (Circuit.exec cfg signing.toSigning ⟨s.now, op⟩ ⟨s.guard, s.gate⟩).mapError .circuit
  pure { s with guard := oracles.guard, gate := oracles.gate }

def submitLiveness (proof : LivenessProof Signature) (s : System ι H M) :
    Except Error (System ι H M) :=
  circuit cfg signing (.submitLiveness proof.record proof.signature) s

/-- `_submit`. -/
def submit (i : ι) (x : Reading) (checks : Checks H Signature) (s : System ι H M) :
    Except Error (System ι H M) := do
  let hash := signing.marketHash checks.health
  let signer ← orRevert (signing.recoverMarket (s.world i).self hash checks.marketSignature) .ecdsa
  revertIf (signer ≠ cfg.guardian) .marketHealthUnauthorized
  let s ← submitLiveness cfg signing checks.liveness s
  let s ← circuit cfg signing (.submitHealth checks.health checks.priceSignature x.stock) s
  pure (s.approve i hash)

/-- A call of the engine `i`, at the prices it finds. -/
def onMarket (i : ι) (x : Reading) (call : Prices → World → Except Error World)
    (s : System ι H M) : Except Error (System ι H M) := do
  let w ← call (s.prices cfg signing i x) (s.world i)
  pure (s.setWorld i w)

def submitChecks (i : ι) (x : Reading) (checks : Checks H Signature) (s : System ι H M) :
    Except Error (System ι H M) :=
  submit cfg signing i x checks s

def priceWithLiveness (i : ι) (x : Reading) (proof : LivenessProof Signature) (s : System ι H M) :
    Except Error (System ι H M × ℕ) := do
  let s ← submitLiveness cfg signing proof s
  let value ← (s.prices cfg signing i x).price
  pure (s, value)

def liquidationQuoteWithLiveness (i : ι) (x : Reading) (borrower : Address) (maximum : ℕ)
    (proof : LivenessProof Signature) (s : System ι H M) : Except Error (System ι H M × ℕ × ℕ) := do
  let s ← submitLiveness cfg signing proof s
  let quote ← liquidationQuote (s.prices cfg signing i x) borrower maximum (s.world i)
  pure (s, quote)

structure Quote where
  stockPrice : ℕ
  borrowPrice : ℕ
  deposits : ℕ
  withdrawals : ℕ
  redemptions : ℕ

def quoteWithChecks (i : ι) (x : Reading) (wallet : Address) (checks : Checks H Signature)
    (s : System ι H M) : Except Error (System ι H M × Quote) := do
  let s ← submit cfg signing i x checks s
  let p := s.prices cfg signing i x
  let stockPrice ← p.price
  let borrowPrice ← p.borrowingPrice
  let w := s.world i
  let safety := some (capitalOperationsAllowed p w)
  let deposits ← (IsolatedPool.vault.maxDeposit safety wallet w.capital).mapError .pool
  let withdrawals ← (IsolatedPool.vault.maxWithdraw safety wallet w.capital).mapError .pool
  let redemptions ← (IsolatedPool.vault.maxRedeem safety wallet w.capital).mapError .pool
  pure (s, ⟨stockPrice, borrowPrice, deposits, withdrawals, redemptions⟩)

def depositAndBorrowChecked (i : ι) (x : Reading) (sender : Address) (collateralAmount amount : ℕ)
    (checks : Checks H Signature) (s : System ι H M) : Except Error (System ι H M) := do
  let s ← submit cfg signing i x checks s
  onMarket cfg signing i x (fun p => depositAndBorrow p sender collateralAmount amount) s

def borrowChecked (i : ι) (x : Reading) (sender : Address) (amount : ℕ)
    (checks : Checks H Signature) (s : System ι H M) : Except Error (System ι H M) := do
  let s ← submit cfg signing i x checks s
  onMarket cfg signing i x (fun p => borrow p sender amount) s

/-- The proofs are asked for only where there is debt. -/
def submitForDebt (i : ι) (x : Reading) (sender : Address) (checks : Checks H Signature)
    (s : System ι H M) : Except Error (System ι H M) :=
  if positionDebt sender (s.world i) ≠ 0 then submit cfg signing i x checks s else pure s

def withdrawCollateralChecked (i : ι) (x : Reading) (sender : Address) (amount : ℕ)
    (recipient : Address) (checks : Checks H Signature) (s : System ι H M) :
    Except Error (System ι H M) := do
  let s ← submitForDebt cfg signing i x sender checks s
  onMarket cfg signing i x (fun p => withdrawCollateral p sender amount recipient) s

def liquidateChecked (i : ι) (x : Reading) (sender borrower : Address) (amount minCollateral : ℕ)
    (proof : LivenessProof Signature) (s : System ι H M) : Except Error (System ι H M) := do
  let s ← submitLiveness cfg signing proof s
  onMarket cfg signing i x (fun p w => do
    let (w, _) ← liquidate p sender borrower amount minCollateral w
    pure w) s

end Stock

/-! ### Runs -/

inductive MarketCall (H Signature : Type)
  | inherited (op : IsolatedEngine.Op)
  | submitChecks (checks : Checks H Signature)
  | priceWithLiveness (proof : LivenessProof Signature)
  | liquidationQuoteWithLiveness (borrower : Address) (maximum : ℕ) (proof : LivenessProof Signature)
  | quoteWithChecks (wallet : Address) (checks : Checks H Signature)
  | depositAndBorrowChecked (sender : Address) (collateralAmount amount : ℕ)
    (checks : Checks H Signature)
  | borrowChecked (sender : Address) (amount : ℕ) (checks : Checks H Signature)
  | withdrawCollateralChecked (sender : Address) (amount : ℕ) (recipient : Address)
    (checks : Checks H Signature)
  | liquidateChecked (sender borrower : Address) (amount minCollateral : ℕ)
    (proof : LivenessProof Signature)

/-- The caller, where the call is made in its name. -/
def MarketCall.sender : MarketCall H Signature → Option Address
  | .inherited op => op.sender
  | .depositAndBorrowChecked sender .. | .borrowChecked sender .. | .withdrawCollateralChecked sender ..
  | .liquidateChecked sender .. => some sender
  | .submitChecks .. | .priceWithLiveness .. | .liquidationQuoteWithLiveness ..
  | .quoteWithChecks .. => none

inductive Op (ι H Signature : Type)
  | circuit (op : Circuit.Op H Signature)
  | market (i : ι) (reading : Reading) (call : MarketCall H Signature)
  | elapse (seconds : ℕ)

section Runs

variable (cfg : Circuit.Config) (signing : Signing H M Signature)

def execMarket (i : ι) (x : Reading) (s : System ι H M) :
    MarketCall H Signature → Except Error (System ι H M)
  | .inherited op => onMarket cfg signing i x (fun p => run p op) s
  | .submitChecks checks => submitChecks cfg signing i x checks s
  | .priceWithLiveness proof => do
    let (s, _) ← priceWithLiveness cfg signing i x proof s
    pure s
  | .liquidationQuoteWithLiveness borrower maximum proof => do
    let (s, _) ← liquidationQuoteWithLiveness cfg signing i x borrower maximum proof s
    pure s
  | .quoteWithChecks wallet checks => do
    let (s, _) ← quoteWithChecks cfg signing i x wallet checks s
    pure s
  | .depositAndBorrowChecked sender collateralAmount amount checks =>
    depositAndBorrowChecked cfg signing i x sender collateralAmount amount checks s
  | .borrowChecked sender amount checks => borrowChecked cfg signing i x sender amount checks s
  | .withdrawCollateralChecked sender amount recipient checks =>
    withdrawCollateralChecked cfg signing i x sender amount recipient checks s
  | .liquidateChecked sender borrower amount minCollateral proof =>
    liquidateChecked cfg signing i x sender borrower amount minCollateral proof s

/-- The contracts act by their own code only, so none is ever the caller. -/
def exec (op : Op ι H Signature) (s : System ι H M) : Except Error (System ι H M) :=
  match op with
  | .circuit op => circuit cfg signing op s
  | .market i x call => do
    revertIf (call.sender = some (s.world i).self ∨ call.sender = some (s.world i).pool)
      .contractCaller
    execMarket cfg signing i x s call
  | .elapse seconds => pure (s.elapse seconds)

/-- What the constructors leave, of the guard and the gate each at its own time. -/
structure Deployed (s : System ι H M) : Prop where
  guard : ∃ t ≤ s.now, s.guard = deployGuard t
  gate : ∃ t ≤ s.now, s.gate = deployGate t
  markets : ∀ i, IsolatedEngine.Deployed (s.world i) ∧ (s.world i).now = s.now ∧
    (s.markets i).approvedMarketHealth = none

end Runs

end Turret.StockCredit
