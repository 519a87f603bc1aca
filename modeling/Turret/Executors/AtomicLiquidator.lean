import Turret.Executors.Settlement

/-! `DockyardAtomicLiquidator`: the collateral is sold for another token and that
one for USDG, in two pinned pools. -/

namespace Turret.Executor.AtomicLiquidator

open Execution

/-- What the constructor checks of the pools. -/
structure Pools where
  firstPool : Address
  secondPool : Address
  distinct : firstPool ≠ secondPool

/-- What is met in one call: whether the route is as pinned, and what the code that is called does. -/
structure Encounter where
  healthy : Bool
  engine : Purchase
  first : Option (List Act)
  second : Option (List Act)

variable (cfg : Config) (pools : Pools)

/-- `_swap`. -/
def swap (venue : Address) (input output : Token) (amount : ℕ) (acts : Option (List Act))
    (w : World) : Except Error (World × ℕ) := do
  revertIf (amount = 0 ∨ 2 ^ 255 ≤ amount ∨ w.callback ≠ none) .invalidAmount
  let beforeInput := w.balance cfg input
  let beforeOutput := w.balance cfg output
  let w ← callOut cfg acts { w with callback := some ⟨venue, input⟩, callbackBudget := amount }
  let left ← checkedSub beforeInput amount .panic
  revertIf (w.callbackBudget ≠ 0 ∨ w.balance cfg input ≠ left) .incompleteSwap
  let w := { w with callback := none }
  let received ← checkedSub (w.balance cfg output) beforeOutput .panic
  revertIf (received = 0) .incompleteSwap
  pure (w, received)

/-- The body of `liquidateAndSell`. -/
def execute (a : Args) (e : Encounter) (w : World) : Except Error (World × ℕ × ℕ × ℕ) := do
  checkArgs a
  revertIf (e.healthy = false) .routeChanged
  let cashBefore := w.balance cfg .usdg
  let collateralBefore := w.balance cfg .collateral
  let intermediateBefore := w.balance cfg .intermediate
  let w ← purchase cfg a e.engine w
  let (w, middleOut) ← swap cfg pools.firstPool .collateral .intermediate e.engine.seized e.first w
  let (w, usdgOut) ← swap cfg pools.secondPool .intermediate .usdg middleOut e.second w
  revertIf (usdgOut < e.engine.paid ∨ usdgOut - e.engine.paid < a.minProfit) .insufficientReturn
  revertIf (w.balance cfg .collateral ≠ collateralBefore ∨
    w.balance cfg .intermediate ≠ intermediateBefore) .incompleteSwap
  let w ← payOut cfg a e.engine.paid e.engine.seized usdgOut cashBefore w
  pure (w, e.engine.paid, e.engine.seized, usdgOut)

/-- It returns `paid`, `seized` and `usdgOut`. -/
def liquidateAndSell (a : Args) (e : Encounter) : World → Except Error (World × ℕ × ℕ × ℕ) :=
  nonReentrant (execute cfg pools a e)

/-! ### Runs -/

/-- A transaction made to the executor or to a token. -/
inductive Op
  | token (t : Token) (call : TokenCall Address)
  | uniswapV3SwapCallback (sender : Address) (d0 d1 : ℤ) (zero : Bool)
  | liquidateAndSell (a : Args) (e : Encounter)

def exec : Op → World → Except Error World
  | .token t call, w => (Act.token t call).exec cfg w
  | .uniswapV3SwapCallback sender d0 d1 zero, w => (Act.callback sender d0 d1 zero).exec cfg w
  | .liquidateAndSell a e, w => do
    let (w, _) ← liquidateAndSell cfg pools a e w
    pure w

def Reachable (w : World) : Prop :=
  ∃ start ops, Deployed cfg start ∧ Run (accepts (exec cfg pools)) start ops w

variable {cfg pools} {w w' : World} {a : Args} {e : Encounter}

/-! ### One call -/

/-- What a swap leaves: all of the amount has been handed to the pool, and the output has come in. -/
structure Swapped (cfg : Config) (venue : Address) (input output : Token) (amount received : ℕ)
    (given : List ℕ) (w w' : World) : Prop extends Running cfg w' where
  budget : w'.callbackBudget = 0
  sum_eq : given.sum = amount
  events : w'.events = w.events ++ handovers cfg (some ⟨venue, input⟩) given
  input_eq : w'.balance cfg input + amount = w.balance cfg input
  output_eq : w'.balance cfg output = w.balance cfg output + received

theorem swap_ok {venue : Address} {input output : Token} {amount received : ℕ}
    {acts : Option (List Act)} (running : Running cfg w)
    (done : swap cfg venue input output amount acts w = .ok (w', received)) :
    ∃ given, Swapped cfg venue input output amount received given w w' := by
  simp only [swap, bind_eq_ok, revertIf_eq_ok, checkedSub_eq_ok, pure_eq_ok, Prod.mk.injEq, not_or,
    not_not] at done
  obtain ⟨-, -, v, called, left, ⟨within, rfl⟩, -, ⟨spent, emptied⟩, n, ⟨grown, rfl⟩, -, -, rfl,
    rfl⟩ := done
  obtain ⟨given, handed⟩ := callOut_handed (by exact running.locked) called
  have budget : v.callbackBudget + given.sum = amount := handed.spent
  have input_eq : v.balance cfg input = w.balance cfg input - amount := emptied
  have output_ge : w.balance cfg output ≤ v.balance cfg output := grown
  exact ⟨given,
    { locked := handed.locked.trans running.locked
      callback := rfl
      approved := Nat.eq_zero_of_le_zero ((handed.allowance .usdg cfg.engine).trans
        running.approved.le)
      budget := spent
      sum_eq := by omega
      events := handed.events
      input_eq := by
        change v.balance cfg input + amount = w.balance cfg input
        omega
      output_eq := by
        change v.balance cfg output = w.balance cfg output + _
        exact (Nat.add_sub_cancel' output_ge).symm }⟩

/-- The sales of one call: the collateral to the first pool, and its output to the second. -/
structure Sold (cfg : Config) (pools : Pools) (e : Encounter) (first second : List ℕ) : Prop where
  first_sum : first.sum = e.engine.seized
  second_sum : ∃ v v' middleOut,
    swap cfg pools.firstPool .collateral .intermediate e.engine.seized e.first v = .ok (v', middleOut) ∧
      v'.balance cfg .intermediate = v.balance cfg .intermediate + middleOut ∧ second.sum = middleOut

theorem liquidateAndSell_ok {paid seized usdgOut : ℕ} (idle : Idle w)
    (done : liquidateAndSell cfg pools a e w = .ok (w', paid, seized, usdgOut)) :
    paid = e.engine.paid ∧ seized = e.engine.seized ∧ ∃ first second, Sold cfg pools e first second ∧
      Settled cfg a w w' paid seized usdgOut
        (handovers cfg (some ⟨pools.firstPool, .collateral⟩) first ++
          handovers cfg (some ⟨pools.secondPool, .intermediate⟩) second) ∧
      w'.balance cfg .intermediate = w.balance cfg .intermediate := by
  obtain ⟨u, called, rfl⟩ := nonReentrant_ok done
  simp only [execute, checkArgs, bind_eq_ok, revertIf_eq_ok, pure_eq_ok, Prod.exists, Prod.mk.injEq,
    not_or, not_lt, not_not] at called
  obtain ⟨-, -, -, -, w₁, purchased, w₂, middleOut, sold, w₃, out, sold', -, ⟨enough, profit⟩, -,
    ⟨collateral, intermediate⟩, w₄, paidOut, rfl, rfl, rfl, rfl⟩ := called
  have bought := purchase_ok (w := { w with locked := true }) rfl idle.callback purchased
  obtain ⟨first, one⟩ := swap_ok bought.toRunning sold
  obtain ⟨second, two⟩ := swap_ok one.toRunning sold'
  have events : w₃.events = w₁.events ++ (handovers cfg (some ⟨pools.firstPool, .collateral⟩) first ++
      handovers cfg (some ⟨pools.secondPool, .intermediate⟩) second) := by
    rw [two.events, one.events, List.append_assoc]
  obtain ⟨settled, kept⟩ := settled_of_sale bought two.toRunning two.budget events collateral enough
    profit paidOut
  exact ⟨rfl, rfl, first, second,
    ⟨one.sum_eq, w₁, w₂, middleOut, sold, one.output_eq, two.sum_eq⟩,
    { settled with }, kept.trans intermediate⟩

/-! ### Every run -/

theorem Reachable.idle (h : Reachable cfg pools w) : Idle w := by
  obtain ⟨start, ops, deployed, run⟩ := h
  refine run.invariant Idle (fun s op t idle done => ?_)
    ⟨deployed.unlocked, deployed.callback, deployed.budget⟩
  cases op with
  | token t call => exact idle.token_call done
  | uniswapV3SwapCallback sender d0 d1 zero =>
    have fails : exec cfg pools (.uniswapV3SwapCallback sender d0 d1 zero) s = .error _ :=
      idle.callback_fails sender d0 d1 (cfg.zeroForOne.getD zero)
    exact absurd (fails.symm.trans done) nofun
  | liquidateAndSell a e =>
    simp only [accepts, exec, bind_eq_ok, pure_eq_ok, Prod.exists] at done
    obtain ⟨v, paid, seized, usdgOut, called, rfl⟩ := done
    obtain ⟨-, -, first, second, -, settled, -⟩ := liquidateAndSell_ok idle called
    exact settled.toIdle

end Turret.Executor.AtomicLiquidator
