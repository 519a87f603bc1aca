import Turret.Library.Execution
import Turret.Library.Ledger

/-! What the two liquidation executors share: the swap callback with its budget,
and whatever the code they call does meanwhile. A called contract, and all it
calls in turn, is a list of acts, of which those that revert leave nothing; it
may also revert as a whole. The tokens are exact-transfer and run no code. -/

namespace Turret.Executor

open Execution Function

inductive Error
  | invalidAmount
  | expired
  | routeChanged
  | unsupportedTransfer
  | unexpectedCallback
  | incompleteSwap
  | insufficientReturn
  | reentrant
  | contractCaller
  | external
  | erc20
  | panic
  deriving DecidableEq

inductive Token
  | usdg
  | collateral
  | intermediate
  deriving DecidableEq

structure Config where
  self : Address
  engine : Address
  /-- What a callback takes for the first of the two amounts, where it is pinned. -/
  zeroForOne : Option Bool

/-- Who may call back, and for which token. -/
structure Authorisation where
  pool : Address
  token : Token
  deriving DecidableEq

/-- What the executor does with a token, and what it emits at the end. -/
inductive Event
  | transfer (token : Token) (src dst : Address) (amount : ℕ)
  | liquidationExited (borrower keeper : Address) (paid seized usdgOut profit : ℕ)
  deriving DecidableEq

structure World where
  ledger : Token → TokenLedger Address
  /-- The state of the reentrancy guard. -/
  locked : Bool
  /-- `callbackPool` and `callbackToken`, or `callbackActive`; `none` where they are cleared. -/
  callback : Option Authorisation
  callbackBudget : ℕ
  events : List Event

variable (cfg : Config)

def World.balance (token : Token) (w : World) : ℕ := (w.ledger token).balanceOf cfg.self

def World.setLedger (token : Token) (ledger : TokenLedger Address) (w : World) : World :=
  { w with ledger := update w.ledger token ledger }

def World.emit (event : Event) (w : World) : World := { w with events := w.events ++ [event] }

/-- `_sendExact`. -/
def sendExact (token : Token) (dst : Address) (amount : ℕ) (w : World) : Except Error World := do
  let ledger ← orRevert ((w.ledger token).transfer cfg.self dst amount) .erc20
  revertIf (¬(ledger.balanceOf cfg.self + amount = (w.ledger token).balanceOf cfg.self ∧
    ledger.balanceOf dst = (w.ledger token).balanceOf dst + amount)) .unsupportedTransfer
  pure ((w.setLedger token ledger).emit (.transfer token cfg.self dst amount))

/-- `zero` is whether the token of the swap is the first one of the pool. -/
def uniswapV3SwapCallback (sender : Address) (d0 d1 : ℤ) (zero : Bool) (w : World) :
    Except Error World :=
  match w.callback with
  | none => .error .unexpectedCallback
  | some c => do
    revertIf (sender ≠ c.pool ∨ w.callbackBudget = 0) .unexpectedCallback
    let due := if zero then d0 else d1
    let other := if zero then d1 else d0
    revertIf (due ≤ 0 ∨ 0 < other ∨ w.callbackBudget < due.toNat) .unexpectedCallback
    sendExact cfg c.token sender due.toNat
      { w with callbackBudget := w.callbackBudget - due.toNat }

/-- `nonReentrant`. -/
def nonReentrant {α : Type} (body : World → Except Error (World × α)) (w : World) :
    Except Error (World × α) := do
  revertIf (w.locked = true) .reentrant
  let (w, a) ← body { w with locked := true }
  pure ({ w with locked := false }, a)

/-! ### What others do -/

inductive Act
  | token (t : Token) (call : TokenCall Address)
  /-- With the amounts and the answer of `token0` that the caller chooses. -/
  | callback (sender : Address) (d0 d1 : ℤ) (zero : Bool)
  /-- An entry point of the executor, whatever would follow. -/
  | reenter (body : World → Except Error (World × Unit))

def Act.exec : Act → World → Except Error World
  | .token t call, w => do
    revertIf (call.sender = some cfg.self) .contractCaller
    let ledger ← orRevert (call.exec (w.ledger t)) .erc20
    pure (w.setLedger t ledger)
  | .callback sender d0 d1 zero, w =>
    uniswapV3SwapCallback cfg sender d0 d1 (cfg.zeroForOne.getD zero) w
  | .reenter body, w => do
    let (w, _) ← nonReentrant body w
    pure w

def Act.attempt (act : Act) (w : World) : World :=
  match act.exec cfg w with
  | .ok w' => w'
  | .error _ => w

/-- An external call: `none` where it reverts. -/
def callOut (acts : Option (List Act)) (w : World) : Except Error World := do
  let acts ← orRevert acts .external
  pure (acts.foldl (fun w act => act.attempt cfg w) w)

/-! ### The purchase, with which both executors begin -/

/-- The arguments of `liquidateAndSell`, with its caller and the time of the block. -/
structure Args where
  caller : Address
  borrower : Address
  maxRepay : ℕ
  minCollateral : ℕ
  minProfit : ℕ
  deadline : ℕ
  now : ℕ

/-- `usdg.safeTransferFrom(msg.sender, address(this), amount)`. -/
def pullUsdg (caller : Address) (amount : ℕ) (w : World) : Except Error World := do
  let ledger ← orRevert ((w.ledger .usdg).transferFrom cfg.self caller cfg.self amount) .erc20
  pure ((w.setLedger .usdg ledger).emit (.transfer .usdg caller cfg.self amount))

/-- `usdg.safeApprove(address(engine), amount)`. -/
def safeApprove (amount : ℕ) (w : World) : Except Error World := do
  revertIf (¬(amount = 0 ∨ (w.ledger .usdg).allowance cfg.self cfg.engine = 0)) .erc20
  pure (w.setLedger .usdg ((w.ledger .usdg).approve cfg.self cfg.engine amount))

def checkArgs (a : Args) : Except Error Unit := do
  revertIf (a.maxRepay = 0 ∨ a.minCollateral = 0 ∨ a.minProfit = 0) .invalidAmount
  revertIf (a.deadline < a.now ∨ a.now + 5 * 60 < a.deadline) .expired

/-- The call of the engine, and the two amounts it returns. -/
structure Purchase where
  acts : Option (List Act)
  paid : ℕ
  seized : ℕ

def purchase (a : Args) (p : Purchase) (w : World) : Except Error World := do
  let cashBefore := w.balance cfg .usdg
  let collateralBefore := w.balance cfg .collateral
  let w ← pullUsdg cfg a.caller a.maxRepay w
  revertIf (w.balance cfg .usdg ≠ cashBefore + a.maxRepay) .unsupportedTransfer
  let w ← safeApprove cfg a.maxRepay w
  let w ← callOut cfg p.acts w
  let w ← safeApprove cfg 0 w
  revertIf (p.paid = 0 ∨ a.maxRepay < p.paid ∨ p.seized < a.minCollateral ∨
    w.balance cfg .usdg ≠ cashBefore + a.maxRepay - p.paid ∨
    w.balance cfg .collateral ≠ collateralBefore + p.seized) .unsupportedTransfer
  pure w

/-- The end of both entry points: the caller gets the rest of its USDG and the proceeds. -/
def payOut (a : Args) (paid seized usdgOut cashBefore : ℕ) (w : World) : Except Error World := do
  let w ← sendExact cfg .usdg a.caller (a.maxRepay - paid + usdgOut) w
  revertIf (w.balance cfg .usdg ≠ cashBefore) .unsupportedTransfer
  pure (w.emit (.liquidationExited a.borrower a.caller paid seized usdgOut (usdgOut - paid)))

/-- The storage of a new executor. Tokens may have been sent to its address before. -/
structure Deployed (w : World) : Prop where
  unlocked : w.locked = false
  callback : w.callback = none
  budget : w.callbackBudget = 0
  allowance : ∀ token a, (w.ledger token).allowance cfg.self a = 0

end Turret.Executor

/-! What the code that an executor calls can do to it: hand over to the
authorised pool, transfer by transfer, what the budget allows. -/

namespace Turret.Executor

open Execution Function

variable {cfg : Config} {w w' w'' : World} {token t : Token} {dst : Address} {amount : ℕ}
  {given more : List ℕ}

/-- The transfers made in callbacks, one for each of these amounts. -/
def handovers (cfg : Config) (c : Option Authorisation) (given : List ℕ) : List Event :=
  c.elim [] fun c => given.map fun n => .transfer c.token cfg.self c.pool n

/-- Of the executor nothing changes but that these amounts are handed over. -/
structure Handed (cfg : Config) (w w' : World) (given : List ℕ) : Prop where
  locked : w'.locked = w.locked
  callback : w'.callback = w.callback
  spent : w'.callbackBudget + given.sum = w.callbackBudget
  events : w'.events = w.events ++ handovers cfg w.callback given
  unauthorised : w.callback = none → given = []
  allowance : ∀ t a, (w'.ledger t).allowance cfg.self a ≤ (w.ledger t).allowance cfg.self a

theorem Handed.refl : Handed cfg w w [] where
  locked := rfl
  callback := rfl
  spent := rfl
  events := by cases w.callback <;> simp [handovers]
  unauthorised _ := rfl
  allowance _ _ := le_rfl

theorem Handed.trans (h : Handed cfg w w' given) (k : Handed cfg w' w'' more) :
    Handed cfg w w'' (given ++ more) where
  locked := k.locked.trans h.locked
  callback := k.callback.trans h.callback
  spent := by
    have first := h.spent
    have second := k.spent
    rw [List.sum_append]
    omega
  events := by
    rw [k.events, h.events, h.callback, List.append_assoc]
    cases w.callback <;> simp [handovers]
  unauthorised idle := by
    rw [h.unauthorised idle, k.unauthorised (h.callback.trans idle), List.append_nil]
  allowance t a := (k.allowance t a).trans (h.allowance t a)

theorem balance_setLedger_of_ne (ne : t ≠ token) (ledger : TokenLedger Address) :
    (w.setLedger token ledger).balance cfg t = w.balance cfg t := by
  simp [World.balance, World.setLedger, ne]

/-- A transfer of the executor's own. -/
theorem sendExact_ok (done : sendExact cfg token dst amount w = .ok w') :
    ∃ ledger, w' = (w.setLedger token ledger).emit (.transfer token cfg.self dst amount) ∧
      ledger.balanceOf cfg.self + amount = w.balance cfg token ∧
      ledger.allowance = (w.ledger token).allowance := by
  simp only [sendExact, bind_eq_ok, orRevert_eq_ok, revertIf_eq_ok, pure_eq_ok, not_not,
    TokenLedger.transfer_eq_some] at done
  obtain ⟨ledger, ⟨-, rfl⟩, -, exact, rfl⟩ := done
  exact ⟨_, rfl, exact.1, rfl⟩

/-- From anybody but the authorised pool a callback moves nothing. -/
theorem callback_unexpected {sender : Address} (other : ∀ c ∈ w.callback, sender ≠ c.pool)
    (d0 d1 : ℤ) (zero : Bool) :
    uniswapV3SwapCallback cfg sender d0 d1 zero w = .error .unexpectedCallback := by
  unfold uniswapV3SwapCallback
  cases authorised : w.callback with
  | none => rfl
  | some c =>
    have apart : sender ≠ c.pool ∨ w.callbackBudget = 0 := .inl (other c authorised)
    simp only [revertIf, if_pos apart]
    rfl

theorem callback_handed {sender : Address} {d0 d1 : ℤ} {zero : Bool}
    (done : uniswapV3SwapCallback cfg sender d0 d1 zero w = .ok w') :
    ∃ n, Handed cfg w w' [n] := by
  unfold uniswapV3SwapCallback at done
  split at done
  · cases done
  · rename_i c authorised
    simp only [bind_eq_ok, revertIf_eq_ok, not_or, not_not, not_le, not_lt] at done
    obtain ⟨-, ⟨rfl, -⟩, -, ⟨-, -, within⟩, sent⟩ := done
    obtain ⟨ledger, rfl, -, kept⟩ := sendExact_ok sent
    refine ⟨(if zero then d0 else d1).toNat, rfl, rfl, ?_, ?_, ?_, fun t a => ?_⟩
    · rw [List.sum_singleton]
      exact Nat.sub_add_cancel within
    · rw [authorised]
      rfl
    · simp [authorised]
    · by_cases same : t = c.token
      · subst same
        simp [World.setLedger, World.emit, kept]
      · simp [World.setLedger, World.emit, same]

theorem act_handed {act : Act} (locked : w.locked = true) (done : act.exec cfg w = .ok w') :
    ∃ given, Handed cfg w w' given := by
  cases act with
  | token t call =>
    simp only [Act.exec, bind_eq_ok, revertIf_eq_ok, orRevert_eq_ok, pure_eq_ok] at done
    obtain ⟨-, away, ledger, moved, rfl⟩ := done
    refine ⟨[], rfl, rfl, rfl, Handed.refl.events, fun _ => rfl, fun t' a => ?_⟩
    by_cases same : t' = t
    · subst same
      simpa [World.setLedger] using TokenCall.exec_allowance_le moved away a
    · simp [World.setLedger, same]
  | callback sender d0 d1 zero =>
    obtain ⟨n, handed⟩ := callback_handed done
    exact ⟨[n], handed⟩
  | reenter body =>
    simp [Act.exec, nonReentrant, locked, revertIf] at done

/-- By induction on what is done, whatever it is. -/
theorem callOut_handed {acts : Option (List Act)} (locked : w.locked = true)
    (done : callOut cfg acts w = .ok w') : ∃ given, Handed cfg w w' given := by
  simp only [callOut, bind_eq_ok, orRevert_eq_ok, pure_eq_ok] at done
  obtain ⟨acts, -, rfl⟩ := done
  induction acts generalizing w with
  | nil => exact ⟨[], .refl⟩
  | cons act acts ih =>
    rw [List.foldl_cons]
    have first : ∃ given, Handed cfg w (act.attempt cfg w) given := by
      unfold Act.attempt
      split
      · rename_i result
        exact act_handed locked result
      · exact ⟨[], .refl⟩
    obtain ⟨given, handed⟩ := first
    obtain ⟨more, rest⟩ := ih (handed.locked.trans locked)
    exact ⟨given ++ more, handed.trans rest⟩

/-! ### The purchase and the payment -/

/-- Between two external calls of an entry point. -/
structure Running (cfg : Config) (w : World) : Prop where
  locked : w.locked = true
  callback : w.callback = none
  approved : (w.ledger .usdg).allowance cfg.self cfg.engine = 0

theorem callOut_running {acts : Option (List Act)} (h : w.locked = true) (idle : w.callback = none)
    (done : callOut cfg acts w = .ok w') :
    w'.locked = true ∧ w'.callback = none ∧ w'.callbackBudget = w.callbackBudget ∧
      w'.events = w.events ∧
      ∀ t a, (w'.ledger t).allowance cfg.self a ≤ (w.ledger t).allowance cfg.self a := by
  obtain ⟨given, handed⟩ := callOut_handed h done
  have none := handed.unauthorised idle
  subst none
  refine ⟨handed.locked.trans h, handed.callback.trans idle, handed.spent, ?_, handed.allowance⟩
  rw [handed.events, idle]
  exact List.append_nil _

/-- What the caller's USDG has bought, told by the balances before. -/
structure Bought (cfg : Config) (a : Args) (p : Purchase) (w w' : World) : Prop
    extends Running cfg w' where
  paid_pos : p.paid ≠ 0
  paid_le : p.paid ≤ a.maxRepay
  seized_ge : a.minCollateral ≤ p.seized
  budget : w'.callbackBudget = w.callbackBudget
  events : w'.events = w.events ++ [.transfer .usdg a.caller cfg.self a.maxRepay]
  usdg : w'.balance cfg .usdg + p.paid = w.balance cfg .usdg + a.maxRepay
  collateral : w'.balance cfg .collateral = w.balance cfg .collateral + p.seized

theorem purchase_ok {a : Args} {p : Purchase} (locked : w.locked = true) (idle : w.callback = none)
    (done : purchase cfg a p w = .ok w') : Bought cfg a p w w' := by
  simp only [purchase, pullUsdg, safeApprove, bind_eq_ok, orRevert_eq_ok, revertIf_eq_ok, pure_eq_ok,
    not_or, not_not, not_lt] at done
  obtain ⟨w₁, ⟨ledger, -, rfl⟩, -, -, w₂, ⟨-, -, rfl⟩, w₃, called, w₄, ⟨-, -, rfl⟩, -,
    ⟨positive, within, enough, cash, bought⟩, rfl⟩ := done
  obtain ⟨locked', idle', budget, events, -⟩ := callOut_running (by exact locked) (by exact idle) called
  exact
    { locked := locked'
      callback := idle'
      approved := by simp [World.setLedger, TokenLedger.approve]
      paid_pos := positive
      paid_le := within
      seized_ge := enough
      budget := budget
      events := events
      usdg := by omega
      collateral := bought }

/-- The caller is paid, and nothing else is. -/
theorem payOut_ok {a : Args} {paid seized usdgOut cashBefore : ℕ} (running : Running cfg w)
    (done : payOut cfg a paid seized usdgOut cashBefore w = .ok w') :
    Running cfg w' ∧ w'.callbackBudget = w.callbackBudget ∧
      w'.events = w.events ++ [.transfer .usdg cfg.self a.caller (a.maxRepay - paid + usdgOut),
        .liquidationExited a.borrower a.caller paid seized usdgOut (usdgOut - paid)] ∧
      w'.balance cfg .usdg = cashBefore ∧
      ∀ t, t ≠ .usdg → w'.balance cfg t = w.balance cfg t := by
  simp only [payOut, bind_eq_ok, revertIf_eq_ok, pure_eq_ok, not_not] at done
  obtain ⟨v, sent, -, back, rfl⟩ := done
  obtain ⟨ledger, rfl, -, kept⟩ := sendExact_ok sent
  refine ⟨⟨running.locked, running.callback, ?_⟩, rfl, ?_, back, fun t other => ?_⟩
  · simp only [World.emit, World.setLedger, update_self, kept]
    exact running.approved
  · simp [World.emit]
    rfl
  · exact balance_setLedger_of_ne other ledger

/-! ### Between calls, and after one -/

/-- Between transactions nobody is authorised. -/
structure Idle (w : World) : Prop where
  unlocked : w.locked = false
  callback : w.callback = none
  budget : w.callbackBudget = 0

theorem Idle.callback_fails (h : Idle w) (sender : Address) (d0 d1 : ℤ) (zero : Bool) :
    uniswapV3SwapCallback cfg sender d0 d1 zero w = .error .unexpectedCallback :=
  callback_unexpected (by simp [h.callback]) d0 d1 zero

theorem Idle.token_call (h : Idle w) {call : TokenCall Address}
    (done : (Act.token t call).exec cfg w = .ok w') : Idle w' := by
  simp only [Act.exec, bind_eq_ok, revertIf_eq_ok, orRevert_eq_ok, pure_eq_ok] at done
  obtain ⟨-, -, ledger, -, rfl⟩ := done
  exact ⟨h.unlocked, h.callback, h.budget⟩

/-- What an entry point leaves, with the transfers to the pools in `sales`. -/
structure Settled (cfg : Config) (a : Args) (w w' : World) (paid seized usdgOut : ℕ)
    (sales : List Event) : Prop extends Idle w' where
  usdg : w'.balance cfg .usdg = w.balance cfg .usdg
  collateral : w'.balance cfg .collateral = w.balance cfg .collateral
  approved : (w'.ledger .usdg).allowance cfg.self cfg.engine = 0
  events : w'.events = w.events ++ .transfer .usdg a.caller cfg.self a.maxRepay :: (sales ++
    [.transfer .usdg cfg.self a.caller (a.maxRepay - paid + usdgOut),
      .liquidationExited a.borrower a.caller paid seized usdgOut (usdgOut - paid)])
  /-- What the caller gets back is what it has paid in, and the profit. -/
  returned : a.maxRepay - paid + usdgOut = a.maxRepay + (usdgOut - paid)
  profit : a.minProfit ≤ usdgOut - paid
  seized_ge : a.minCollateral ≤ seized

/-- From the purchase to the payment: all the collateral bought has been sold in between. -/
theorem settled_of_sale {a : Args} {p : Purchase} {usdgOut : ℕ} {sales : List Event} {v u : World}
    (bought : Bought cfg a p w v) (running : Running cfg u) (spent : u.callbackBudget = 0)
    (sold : u.events = v.events ++ sales) (collateral : u.balance cfg .collateral = w.balance cfg .collateral)
    (enough : p.paid ≤ usdgOut) (profit : a.minProfit ≤ usdgOut - p.paid)
    (done : payOut cfg a p.paid p.seized usdgOut (w.balance cfg .usdg) u = .ok w') :
    Settled cfg a w { w' with locked := false } p.paid p.seized usdgOut sales ∧
      w'.balance cfg .intermediate = u.balance cfg .intermediate := by
  obtain ⟨after, budget, events, usdg, others⟩ := payOut_ok running done
  have paid_le := bought.paid_le
  refine ⟨?_, others .intermediate (by decide)⟩
  exact
    { unlocked := rfl
      callback := after.callback
      budget := budget.trans spent
      usdg := usdg
      collateral := (others .collateral (by decide)).trans collateral
      approved := after.approved
      events := by
        rw [events, sold, bought.events]
        simp
      returned := by omega
      profit := profit
      seized_ge := bought.seized_ge }

theorem nonReentrant_ok {α : Type} {body : World → Except Error (World × α)} {a : α}
    (done : nonReentrant body w = .ok (w', a)) :
    ∃ v, body { w with locked := true } = .ok (v, a) ∧ w' = { v with locked := false } := by
  simp only [nonReentrant, bind_eq_ok, revertIf_eq_ok, pure_eq_ok, Prod.exists, Prod.mk.injEq] at done
  obtain ⟨-, -, v, b, called, rfl, rfl⟩ := done
  exact ⟨v, called, rfl⟩

end Turret.Executor
