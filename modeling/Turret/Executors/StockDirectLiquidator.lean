import Turret.Executors.AtomicLiquidator

/-! `DockyardStockDirectLiquidator`: the collateral is sold for USDG in one
pinned pool. -/

namespace Turret.Executor.StockDirectLiquidator

open Execution

/-- What is met in one call. -/
structure Encounter where
  healthy : Bool
  engine : Purchase
  sale : Option (List Act)

variable (cfg : Config) (salePool : Address)

/-- `_execute`. -/
def execute (a : Args) (e : Encounter) (w : World) : Except Error (World × ℕ × ℕ × ℕ) := do
  checkArgs a
  revertIf (e.healthy = false) .routeChanged
  let cashBefore := w.balance cfg .usdg
  let stockBefore := w.balance cfg .collateral
  let w ← purchase cfg a e.engine w
  revertIf (2 ^ 255 ≤ e.engine.seized) .invalidAmount
  let swapCashBefore := w.balance cfg .usdg
  let w ← callOut cfg e.sale
    { w with callback := some ⟨salePool, .collateral⟩, callbackBudget := e.engine.seized }
  let w := { w with callback := none }
  revertIf (w.callbackBudget ≠ 0 ∨ w.balance cfg .collateral ≠ stockBefore) .incompleteSwap
  let usdgOut ← checkedSub (w.balance cfg .usdg) swapCashBefore .panic
  revertIf (usdgOut < e.engine.paid ∨ usdgOut - e.engine.paid < a.minProfit) .insufficientReturn
  let w ← payOut cfg a e.engine.paid e.engine.seized usdgOut cashBefore w
  pure (w, e.engine.paid, e.engine.seized, usdgOut)

def liquidateAndSell (a : Args) (e : Encounter) : World → Except Error (World × ℕ × ℕ × ℕ) :=
  nonReentrant (execute cfg salePool a e)

/-- `live` is whether `engine.priceWithLiveness` returns; it moves no token. -/
def executeChecked (a : Args) (live : Bool) (e : Encounter) (w : World) :
    Except Error (World × ℕ × ℕ × ℕ) := do
  revertIf (e.healthy = false) .routeChanged
  revertIf (live = false) .external
  execute cfg salePool a e w

def liquidateAndSellChecked (a : Args) (live : Bool) (e : Encounter) :
    World → Except Error (World × ℕ × ℕ × ℕ) :=
  nonReentrant (executeChecked cfg salePool a live e)

/-! ### Runs -/

/-- A transaction made to the executor or to a token. -/
inductive Op
  | token (t : Token) (call : TokenCall Address)
  | uniswapV3SwapCallback (sender : Address) (d0 d1 : ℤ) (zero : Bool)
  | liquidateAndSell (a : Args) (e : Encounter)
  | liquidateAndSellChecked (a : Args) (live : Bool) (e : Encounter)

def exec : Op → World → Except Error World
  | .token t call, w => (Act.token t call).exec cfg w
  | .uniswapV3SwapCallback sender d0 d1 zero, w => (Act.callback sender d0 d1 zero).exec cfg w
  | .liquidateAndSell a e, w => do
    let (w, _) ← liquidateAndSell cfg salePool a e w
    pure w
  | .liquidateAndSellChecked a live e, w => do
    let (w, _) ← liquidateAndSellChecked cfg salePool a live e w
    pure w

def Reachable (w : World) : Prop :=
  ∃ start ops, Deployed cfg start ∧ Run (accepts (exec cfg salePool)) start ops w

variable {cfg salePool} {w w' : World} {a : Args} {e : Encounter} {paid seized usdgOut : ℕ}

/-! ### One call -/

theorem execute_ok {u : World} (locked : w.locked = true) (idle : w.callback = none)
    (done : execute cfg salePool a e w = .ok (u, paid, seized, usdgOut)) :
    paid = e.engine.paid ∧ seized = e.engine.seized ∧ ∃ given, given.sum = seized ∧
      Settled cfg a w { u with locked := false } paid seized usdgOut
        (handovers cfg (some ⟨salePool, .collateral⟩) given) := by
  simp only [execute, checkArgs, bind_eq_ok, revertIf_eq_ok, checkedSub_eq_ok, pure_eq_ok,
    Prod.mk.injEq, not_or, not_lt, not_not] at done
  obtain ⟨-, -, -, -, w₁, purchased, -, -, v, called, -, ⟨spent, emptied⟩, out, -, -,
    ⟨enough, profit⟩, w₄, paidOut, rfl, rfl, rfl, rfl⟩ := done
  have bought := purchase_ok locked idle purchased
  obtain ⟨given, handed⟩ := callOut_handed (by exact bought.locked) called
  have budget : v.callbackBudget + given.sum = e.engine.seized := handed.spent
  have running : Running cfg { v with callback := none } :=
    ⟨handed.locked.trans bought.locked, rfl, Nat.eq_zero_of_le_zero
      ((handed.allowance .usdg cfg.engine).trans bought.approved.le)⟩
  obtain ⟨settled, -⟩ := settled_of_sale bought running spent handed.events emptied enough profit
    paidOut
  exact ⟨rfl, rfl, given, by omega, settled⟩

theorem executeLocked_ok {u : World} (idle : Idle w)
    (done : execute cfg salePool a e { w with locked := true } = .ok (u, paid, seized, usdgOut)) :
    paid = e.engine.paid ∧ seized = e.engine.seized ∧ ∃ given, given.sum = seized ∧
      Settled cfg a w { u with locked := false } paid seized usdgOut
        (handovers cfg (some ⟨salePool, .collateral⟩) given) := by
  obtain ⟨paid_eq, seized_eq, given, sum, settled⟩ := execute_ok (by rfl) (by exact idle.callback) done
  exact ⟨paid_eq, seized_eq, given, sum, { settled with }⟩

theorem liquidateAndSell_ok (idle : Idle w)
    (done : liquidateAndSell cfg salePool a e w = .ok (w', paid, seized, usdgOut)) :
    paid = e.engine.paid ∧ seized = e.engine.seized ∧ ∃ given, given.sum = seized ∧
      Settled cfg a w w' paid seized usdgOut
        (handovers cfg (some ⟨salePool, .collateral⟩) given) := by
  obtain ⟨u, called, rfl⟩ := nonReentrant_ok done
  exact executeLocked_ok idle called

theorem liquidateAndSellChecked_ok {live : Bool} (idle : Idle w)
    (done : liquidateAndSellChecked cfg salePool a live e w = .ok (w', paid, seized, usdgOut)) :
    paid = e.engine.paid ∧ seized = e.engine.seized ∧ ∃ given, given.sum = seized ∧
      Settled cfg a w w' paid seized usdgOut
        (handovers cfg (some ⟨salePool, .collateral⟩) given) := by
  obtain ⟨u, called, rfl⟩ := nonReentrant_ok done
  simp only [executeChecked, bind_eq_ok] at called
  obtain ⟨-, -, -, -, called⟩ := called
  exact executeLocked_ok idle called

/-! ### Every run -/

theorem Reachable.idle (h : Reachable cfg salePool w) : Idle w := by
  obtain ⟨start, ops, deployed, run⟩ := h
  refine run.invariant Idle (fun s op t idle done => ?_)
    ⟨deployed.unlocked, deployed.callback, deployed.budget⟩
  cases op with
  | token t call => exact idle.token_call done
  | uniswapV3SwapCallback sender d0 d1 zero =>
    have fails : exec cfg salePool (.uniswapV3SwapCallback sender d0 d1 zero) s = .error _ :=
      idle.callback_fails sender d0 d1 (cfg.zeroForOne.getD zero)
    exact absurd (fails.symm.trans done) nofun
  | liquidateAndSell a e =>
    simp only [accepts, exec, bind_eq_ok, pure_eq_ok, Prod.exists] at done
    obtain ⟨v, paid, seized, usdgOut, called, rfl⟩ := done
    obtain ⟨-, -, given, -, settled⟩ := liquidateAndSell_ok idle called
    exact settled.toIdle
  | liquidateAndSellChecked a live e =>
    simp only [accepts, exec, bind_eq_ok, pure_eq_ok, Prod.exists] at done
    obtain ⟨v, paid, seized, usdgOut, called, rfl⟩ := done
    obtain ⟨-, -, given, -, settled⟩ := liquidateAndSellChecked_ok idle called
    exact settled.toIdle

end Turret.Executor.StockDirectLiquidator

namespace Turret.Executor

open Execution

/-- Whatever the pools, the engine and the tokens' holders do meanwhile, a call of either executor
that succeeds settles; outside of one nobody is let call back. -/
theorem executors_fail_safe (cfg : Config) :
    (∀ pools w, AtomicLiquidator.Reachable cfg pools w →
      (∀ sender d0 d1 zero,
        uniswapV3SwapCallback cfg sender d0 d1 zero w = .error .unexpectedCallback) ∧
      ∀ a e w' paid seized usdgOut,
        AtomicLiquidator.liquidateAndSell cfg pools a e w = .ok (w', paid, seized, usdgOut) →
        paid = e.engine.paid ∧ seized = e.engine.seized ∧
        ∃ first second, AtomicLiquidator.Sold cfg pools e first second ∧
          Settled cfg a w w' paid seized usdgOut
            (handovers cfg (some ⟨pools.firstPool, .collateral⟩) first ++
              handovers cfg (some ⟨pools.secondPool, .intermediate⟩) second) ∧
          w'.balance cfg .intermediate = w.balance cfg .intermediate) ∧
    (∀ salePool w, StockDirectLiquidator.Reachable cfg salePool w →
      (∀ sender d0 d1 zero,
        uniswapV3SwapCallback cfg sender d0 d1 zero w = .error .unexpectedCallback) ∧
      ∀ a live e w' paid seized usdgOut,
        (StockDirectLiquidator.liquidateAndSell cfg salePool a e w = .ok (w', paid, seized, usdgOut) ∨
          StockDirectLiquidator.liquidateAndSellChecked cfg salePool a live e w =
            .ok (w', paid, seized, usdgOut)) →
        paid = e.engine.paid ∧ seized = e.engine.seized ∧
        ∃ given, given.sum = seized ∧ Settled cfg a w w' paid seized usdgOut
          (handovers cfg (some ⟨salePool, .collateral⟩) given)) ∧
    (∀ w sender d0 d1 zero, (∀ c ∈ w.callback, sender ≠ c.pool) →
      uniswapV3SwapCallback cfg sender d0 d1 zero w = .error .unexpectedCallback) := by
  refine ⟨fun pools w reach => ⟨reach.idle.callback_fails, fun a e w' paid seized usdgOut => ?_⟩,
    fun salePool w reach => ⟨reach.idle.callback_fails, fun a live e w' paid seized usdgOut => ?_⟩,
    fun w sender d0 d1 zero other => callback_unexpected other d0 d1 zero⟩
  · exact AtomicLiquidator.liquidateAndSell_ok reach.idle
  · rintro (plain | checked)
    · exact StockDirectLiquidator.liquidateAndSell_ok reach.idle plain
    · exact StockDirectLiquidator.liquidateAndSellChecked_ok reach.idle checked

/-! ### One liquidation, sold in two pools and in one -/

def sampleConfig : Config := ⟨100, 50, none⟩

def samplePools : AtomicLiquidator.Pools := ⟨60, 70, by decide⟩

/-- The caller 1 has approved a thousand USDG, and each venue holds what it pays. -/
def sampleStart : World where
  ledger
    | .usdg => (((TokenLedger.empty.mint 1 1000).mint 70 1000).mint 60 1000).approve 1 100 1000
    | .collateral => TokenLedger.empty.mint 50 500
    | .intermediate => TokenLedger.empty.mint 60 500
  locked := false
  callback := none
  callbackBudget := 0
  events := []

def sampleArgs : Args := ⟨1, 2, 900, 30, 40, 1100, 1000⟩

/-- The engine takes 400 USDG for 40 of the collateral. -/
def samplePurchase : Purchase where
  acts := some [.token .usdg (.transferFrom 50 100 50 400), .token .collateral (.transfer 50 100 40)]
  paid := 400
  seized := 40

/-- The first pool calls back twice, and in between so does a stranger. -/
def sampleEncounter : AtomicLiquidator.Encounter where
  healthy := true
  engine := samplePurchase
  first := some [.callback 60 15 (-10) true, .callback 61 5 (-1) true, .callback 60 25 (-20) true,
    .reenter fun w => .ok (w, ()), .token .intermediate (.transfer 60 100 30)]
  second := some [.token .usdg (.transfer 70 100 450), .callback 70 (-450) 30 false]

def sampleSale : StockDirectLiquidator.Encounter where
  healthy := true
  engine := samplePurchase
  sale := some [.token .usdg (.transfer 60 100 450), .callback 60 40 (-450) true]

def sampleTwoHops : World × ℕ × ℕ × ℕ :=
  reached (sampleStart, 0, 0, 0)
    (AtomicLiquidator.liquidateAndSell sampleConfig samplePools sampleArgs sampleEncounter sampleStart)

def sampleOneHop : World × ℕ × ℕ × ℕ :=
  reached (sampleStart, 0, 0, 0)
    (StockDirectLiquidator.liquidateAndSellChecked sampleConfig 60 sampleArgs true sampleSale sampleStart)

theorem sample_executors_fail_safe :
    (sampleTwoHops.1.ledger .usdg).balanceOf 1 = 1050 ∧
    (∃ first second, AtomicLiquidator.Sold sampleConfig samplePools sampleEncounter first second ∧
      Settled sampleConfig sampleArgs sampleStart sampleTwoHops.1 400 40 450
        (handovers sampleConfig (some ⟨60, .collateral⟩) first ++
          handovers sampleConfig (some ⟨70, .intermediate⟩) second)) ∧
    (sampleOneHop.1.ledger .usdg).balanceOf 1 = 1050 ∧
    ∃ given, given.sum = 40 ∧ Settled sampleConfig sampleArgs sampleStart sampleOneHop.1 400 40 450
      (handovers sampleConfig (some ⟨60, .collateral⟩) given) := by
  have deployed : Deployed sampleConfig sampleStart := by
    refine ⟨rfl, rfl, rfl, fun t a => ?_⟩
    cases t with
    | usdg => exact TokenLedger.approve_other (.inl (by decide)) ..
    | collateral => rfl
    | intermediate => rfl
  have twoHops : AtomicLiquidator.liquidateAndSell sampleConfig samplePools sampleArgs sampleEncounter
      sampleStart = .ok (sampleTwoHops.1, 400, 40, 450) := by
    have done := eq_ok_reached (sampleStart, 0, 0, 0) (x := AtomicLiquidator.liquidateAndSell
      sampleConfig samplePools sampleArgs sampleEncounter sampleStart) (by decide +kernel)
    have returned : sampleTwoHops.2 = (400, 40, 450) := by decide +kernel
    rw [done]
    exact congrArg Except.ok (Prod.ext rfl returned)
  have oneHop : StockDirectLiquidator.liquidateAndSellChecked sampleConfig 60 sampleArgs true
      sampleSale sampleStart = .ok (sampleOneHop.1, 400, 40, 450) := by
    have done := eq_ok_reached (sampleStart, 0, 0, 0) (x := StockDirectLiquidator.liquidateAndSellChecked
      sampleConfig 60 sampleArgs true sampleSale sampleStart) (by decide +kernel)
    have returned : sampleOneHop.2 = (400, 40, 450) := by decide +kernel
    rw [done]
    exact congrArg Except.ok (Prod.ext rfl returned)
  obtain ⟨-, -, first, second, sold, settled, -⟩ :=
    ((executors_fail_safe sampleConfig).1 samplePools sampleStart
      ⟨sampleStart, [], deployed, .nil _⟩).2 _ _ _ _ _ _ twoHops
  obtain ⟨-, -, given, sum, settled'⟩ :=
    ((executors_fail_safe sampleConfig).2.1 60 sampleStart
      ⟨sampleStart, [], deployed, .nil _⟩).2 sampleArgs true sampleSale _ _ _ _ (.inr oneHop)
  exact ⟨by decide +kernel, ⟨first, second, sold, settled⟩, by decide +kernel, given, sum, settled'⟩

end Turret.Executor
