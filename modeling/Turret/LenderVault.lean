import Turret.ERC4626
import Turret.Library.Execution
import Turret.Library.LenderBooks

/-! The lender side of both capital pools: the same overrides of the OpenZeppelin
vault, over the few parts of a pool they read and write. `accrue` is the
checkpoint a call starts with, `refresh` what it ends with after moving cash and
shares. `safety` is the answer of the engine's `capitalOperationsAllowed()` at
the moment of a call, `none` when it reverts. -/

namespace Turret

open Execution Rounding ERC4626

/-- The errors of the two pools; `erc20` and `panic` are those of the libraries and of the language. -/
inductive PoolError
  | engineOnly
  | invalidAmount
  | insufficientCash
  | debtLimitExceeded
  | unsupportedTransfer
  | invalidRecipient
  | capitalOperationsSuspended
  | slippage
  | invalidDeadline
  | invalidDebtLimit
  | debtLimitNotReady
  | marketRetired
  | invalidSettlementState
  | exceedsMax
  | erc20
  | panic
  deriving DecidableEq

structure LenderVault (σ : Type) where
  self : σ → Address
  now : σ → ℕ
  usdg : σ → TokenLedger Address
  shares : σ → ShareLedger
  retired : σ → Bool
  availableCash : σ → Except PoolError ℕ
  totalAssets : σ → Except PoolError ℕ
  capitalOperationsAllowed : Option Bool → σ → Bool
  accrue : σ → σ
  move : TokenLedger Address → ShareLedger → σ → σ
  refresh : σ → Except PoolError σ

inductive LenderCall
  | deposit (caller receiver : Address) (assets : ℕ)
  | mint (caller receiver : Address) (shares : ℕ)
  | withdraw (caller receiver owner : Address) (assets : ℕ)
  | redeem (caller receiver owner : Address) (shares : ℕ)
  | depositWithMinShares (caller receiver : Address) (assets minShares deadline : ℕ)
  | withdrawWithMaxShares (caller receiver owner : Address) (assets maxShares deadline : ℕ)
  | redeemWithMinAssets (caller receiver owner : Address) (shares minAssets deadline : ℕ)
  | shareTransfer (sender dst : Address) (amount : ℕ)
  | shareTransferFrom (spender src dst : Address) (amount : ℕ)
  | shareApprove (owner spender : Address) (amount : ℕ)

def LenderCall.sender : LenderCall → Address
  | .deposit caller .. | .mint caller .. | .withdraw caller .. | .redeem caller ..
  | .depositWithMinShares caller .. | .withdrawWithMaxShares caller ..
  | .redeemWithMinAssets caller .. => caller
  | .shareTransfer sender .. | .shareTransferFrom sender .. | .shareApprove sender .. => sender

/-- The calls of the share token itself move no assets. -/
def LenderCall.movesAssets : LenderCall → Bool
  | .shareTransfer .. | .shareTransferFrom .. | .shareApprove .. => false
  | _ => true

namespace LenderVault

variable {σ : Type} (V : LenderVault σ)

/-! ### Limits -/

def maxWithdraw (safety : Option Bool) (owner : Address) (w : σ) : Except PoolError ℕ :=
  if V.capitalOperationsAllowed safety w then do
    let assets ← V.totalAssets w
    let cash ← V.availableCash w
    pure (min (convertToAssets ((V.shares w).balanceOf owner) assets (V.shares w).totalSupply) cash)
  else pure 0

def maxRedeem (safety : Option Bool) (owner : Address) (w : σ) : Except PoolError ℕ :=
  if V.capitalOperationsAllowed safety w then do
    let cash ← V.availableCash w
    let assets ← V.totalAssets w
    if assets ≤ cash then pure ((V.shares w).balanceOf owner)
    else pure (min ((V.shares w).balanceOf owner)
      (convertToShares cash assets (V.shares w).totalSupply))
  else pure 0

def maxDeposit (safety : Option Bool) (receiver : Address) (w : σ) : Except PoolError ℕ :=
  if V.retired w then pure 0
  else if V.capitalOperationsAllowed safety w then
    if receiver = 0 ∨ receiver = V.self w then pure 0
    else if (V.shares w).totalSupply = 0 then pure maxUint
    else do
      let assets ← V.totalAssets w
      if assets = 0 then pure 0 else pure maxUint
  else pure 0

def maxMint (safety : Option Bool) (receiver : Address) (w : σ) : Except PoolError ℕ := do
  let limit ← V.maxDeposit safety receiver w
  if limit = 0 then pure 0 else pure maxUint

/-! ### Moving cash and shares -/

/-- `_sendExact`. -/
def sendExact (recipient : Address) (amount : ℕ) (w : σ) : Except PoolError σ := do
  revertIf (recipient = 0 ∨ recipient = V.self w) .invalidRecipient
  let usdg ← orRevert ((V.usdg w).transfer (V.self w) recipient amount) .erc20
  revertIf (¬(usdg.balanceOf (V.self w) + amount = (V.usdg w).balanceOf (V.self w) ∧
    usdg.balanceOf recipient = (V.usdg w).balanceOf recipient + amount)) .unsupportedTransfer
  pure (V.move usdg (V.shares w) w)

/-- `_deposit`, with `ERC4626._deposit` in the middle. -/
def depositAssets (caller receiver : Address) (assets shares : ℕ) (w : σ) :
    Except PoolError σ := do
  revertIf (assets = 0 ∨ shares = 0) .invalidAmount
  let usdg ← orRevert ((V.usdg w).transferFrom (V.self w) caller (V.self w) assets) .erc20
  let minted ← orRevert ((V.shares w).mint receiver shares) .erc20
  revertIf (usdg.balanceOf (V.self w) ≠ (V.usdg w).balanceOf (V.self w) + assets)
    .unsupportedTransfer
  V.refresh (V.move usdg minted w)

/-- `_withdraw`, with `ERC4626._withdraw` in the middle. -/
def withdrawAssets (caller receiver owner : Address) (assets shares : ℕ) (w : σ) :
    Except PoolError σ := do
  revertIf (shares = 0) .invalidAmount
  revertIf (receiver = 0 ∨ receiver = V.self w) .invalidRecipient
  let spent ← orRevert ((V.shares w).spendFor caller owner shares) .erc20
  let burned ← orRevert (spent.burn owner shares) .erc20
  let usdg ← orRevert ((V.usdg w).transfer (V.self w) receiver assets) .erc20
  revertIf (¬(usdg.balanceOf (V.self w) + assets = (V.usdg w).balanceOf (V.self w) ∧
    usdg.balanceOf receiver = (V.usdg w).balanceOf receiver + assets)) .unsupportedTransfer
  V.refresh (V.move usdg burned w)

/-! ### Entry points -/

def deposit (safety : Option Bool) (caller receiver : Address) (assets : ℕ) (w : σ) :
    Except PoolError (σ × ℕ) := do
  let w := V.accrue w
  let limit ← V.maxDeposit safety receiver w
  revertIf (limit < assets) .exceedsMax
  let value ← V.totalAssets w
  let shares := convertToShares assets value (V.shares w).totalSupply
  let w ← V.depositAssets caller receiver assets shares w
  pure (w, shares)

def mint (safety : Option Bool) (caller receiver : Address) (shares : ℕ) (w : σ) :
    Except PoolError (σ × ℕ) := do
  let w := V.accrue w
  let limit ← V.maxMint safety receiver w
  revertIf (limit < shares) .exceedsMax
  let value ← V.totalAssets w
  let assets := convertToAssetsUp shares value (V.shares w).totalSupply
  let w ← V.depositAssets caller receiver assets shares w
  pure (w, assets)

def withdraw (safety : Option Bool) (caller receiver owner : Address) (assets : ℕ) (w : σ) :
    Except PoolError (σ × ℕ) := do
  let w := V.accrue w
  let limit ← V.maxWithdraw safety owner w
  revertIf (limit < assets) .exceedsMax
  let value ← V.totalAssets w
  let shares := convertToSharesUp assets value (V.shares w).totalSupply
  let w ← V.withdrawAssets caller receiver owner assets shares w
  pure (w, shares)

def redeem (safety : Option Bool) (caller receiver owner : Address) (shares : ℕ) (w : σ) :
    Except PoolError (σ × ℕ) := do
  let w := V.accrue w
  let limit ← V.maxRedeem safety owner w
  revertIf (limit < shares) .exceedsMax
  let value ← V.totalAssets w
  let assets := convertToAssets shares value (V.shares w).totalSupply
  let w ← V.withdrawAssets caller receiver owner assets shares w
  pure (w, assets)

def checkDeadline (deadline : ℕ) (w : σ) : Except PoolError Unit :=
  revertIf (deadline < V.now w ∨ V.now w + 5 * 60 < deadline) .invalidDeadline

def depositWithMinShares (safety : Option Bool) (caller receiver : Address)
    (assets minShares deadline : ℕ) (w : σ) : Except PoolError (σ × ℕ) := do
  V.checkDeadline deadline w
  revertIf (minShares = 0) .invalidAmount
  let (w, shares) ← V.deposit safety caller receiver assets w
  revertIf (shares < minShares) .slippage
  pure (w, shares)

def withdrawWithMaxShares (safety : Option Bool) (caller receiver owner : Address)
    (assets maxShares deadline : ℕ) (w : σ) : Except PoolError (σ × ℕ) := do
  V.checkDeadline deadline w
  revertIf (maxShares = 0) .invalidAmount
  let (w, shares) ← V.withdraw safety caller receiver owner assets w
  revertIf (maxShares < shares) .slippage
  pure (w, shares)

def redeemWithMinAssets (safety : Option Bool) (caller receiver owner : Address)
    (shares minAssets deadline : ℕ) (w : σ) : Except PoolError (σ × ℕ) := do
  V.checkDeadline deadline w
  revertIf (minAssets = 0) .invalidAmount
  let (w, assets) ← V.redeem safety caller receiver owner shares w
  revertIf (assets < minAssets) .slippage
  pure (w, assets)

/-- The share's own `transfer`, `transferFrom` and `approve`. -/
def withShares (shares : Option ShareLedger) (w : σ) : Except PoolError σ := do
  let shares ← orRevert shares .erc20
  pure (V.move (V.usdg w) shares w)

def call (safety : Option Bool) : LenderCall → σ → Except PoolError σ
  | .deposit caller receiver assets, w => do
    let (w, _) ← V.deposit safety caller receiver assets w
    pure w
  | .mint caller receiver shares, w => do
    let (w, _) ← V.mint safety caller receiver shares w
    pure w
  | .withdraw caller receiver owner assets, w => do
    let (w, _) ← V.withdraw safety caller receiver owner assets w
    pure w
  | .redeem caller receiver owner shares, w => do
    let (w, _) ← V.redeem safety caller receiver owner shares w
    pure w
  | .depositWithMinShares caller receiver assets minShares deadline, w => do
    let (w, _) ← V.depositWithMinShares safety caller receiver assets minShares deadline w
    pure w
  | .withdrawWithMaxShares caller receiver owner assets maxShares deadline, w => do
    let (w, _) ← V.withdrawWithMaxShares safety caller receiver owner assets maxShares deadline w
    pure w
  | .redeemWithMinAssets caller receiver owner shares minAssets deadline, w => do
    let (w, _) ← V.redeemWithMinAssets safety caller receiver owner shares minAssets deadline w
    pure w
  | .shareTransfer sender dst amount, w => V.withShares ((V.shares w).move sender dst amount) w
  | .shareTransferFrom spender src dst amount, w =>
    V.withShares ((V.shares w).transferFrom spender src dst amount) w
  | .shareApprove owner spender amount, w =>
    V.withShares (some ((V.shares w).approve owner spender amount)) w

/-! ### What a call can do -/

variable {V} {w w' : σ}

/-- Everything a successful lender call can have done. -/
inductive Movement (V : LenderVault σ) (w w' : σ) : Prop
  | enter (usdg : TokenLedger Address) (shares : ShareLedger) (value paid minted : ℕ)
      (positive : 0 < paid)
      (valued : V.totalAssets (V.accrue w) = .ok value)
      (fair : minted * (value + 1) ≤
        paid * ((V.shares (V.accrue w)).totalSupply + virtualShares))
      (received : usdg.balanceOf (V.self (V.accrue w)) =
        (V.usdg (V.accrue w)).balanceOf (V.self (V.accrue w)) + paid)
      (spent : ∀ a b, usdg.allowance a b ≤ (V.usdg (V.accrue w)).allowance a b)
      (issued : shares.totalSupply = (V.shares (V.accrue w)).totalSupply + minted)
      (done : V.refresh (V.move usdg shares (V.accrue w)) = .ok w')
  | leave (usdg : TokenLedger Address) (shares : ShareLedger) (value cash paid burned : ℕ)
      (positive : 0 < burned)
      (valued : V.totalAssets (V.accrue w) = .ok value)
      (spendable : V.availableCash (V.accrue w) = .ok cash)
      (fair : paid * ((V.shares (V.accrue w)).totalSupply + virtualShares) ≤
        burned * (value + 1))
      (funded : paid ≤ cash)
      (held : burned ≤ (V.shares (V.accrue w)).totalSupply)
      (sent : usdg.balanceOf (V.self (V.accrue w)) + paid =
        (V.usdg (V.accrue w)).balanceOf (V.self (V.accrue w)))
      (kept : usdg.allowance = (V.usdg (V.accrue w)).allowance)
      (retired : shares.totalSupply = (V.shares (V.accrue w)).totalSupply - burned)
      (done : V.refresh (V.move usdg shares (V.accrue w)) = .ok w')
  | shares (shares : ShareLedger)
      (supply : shares.totalSupply = (V.shares w).totalSupply)
      (done : V.move (V.usdg w) shares w = w')

theorem sendExact_ok {recipient : Address} {amount : ℕ}
    (h : V.sendExact recipient amount w = .ok w') :
    ∃ usdg, w' = V.move usdg (V.shares w) w ∧
      usdg.balanceOf (V.self w) + amount = (V.usdg w).balanceOf (V.self w) ∧
      usdg.allowance = (V.usdg w).allowance := by
  simp only [sendExact, bind_eq_ok, revertIf_eq_ok, exists_const, orRevert_eq_ok, pure_eq_ok,
    TokenLedger.transfer_eq_some, not_not] at h
  obtain ⟨-, usdg, ⟨-, rfl⟩, exact, rfl⟩ := h
  exact ⟨_, rfl, exact.1, rfl⟩

theorem depositAssets_enters {caller receiver : Address} {value paid minted : ℕ}
    (valued : V.totalAssets (V.accrue w) = .ok value)
    (fair : minted * (value + 1) ≤ paid * ((V.shares (V.accrue w)).totalSupply + virtualShares))
    (h : V.depositAssets caller receiver paid minted (V.accrue w) = .ok w') : Movement V w w' := by
  simp only [depositAssets, bind_eq_ok, revertIf_eq_ok, exists_const, orRevert_eq_ok, ne_eq,
    not_not, not_or] at h
  obtain ⟨⟨positive, -⟩, usdg, pulled, shares, issued, exact, done⟩ := h
  exact .enter usdg shares value paid minted (Nat.pos_of_ne_zero positive) valued fair exact
    (TokenLedger.transferFrom_allowance_le pulled) (ShareLedger.mint_supply issued) done

theorem withdrawAssets_leaves {caller receiver owner : Address} {value cash paid burned : ℕ}
    (valued : V.totalAssets (V.accrue w) = .ok value)
    (spendable : V.availableCash (V.accrue w) = .ok cash) (funded : paid ≤ cash)
    (fair : paid * ((V.shares (V.accrue w)).totalSupply + virtualShares) ≤ burned * (value + 1))
    (h : V.withdrawAssets caller receiver owner paid burned (V.accrue w) = .ok w') :
    Movement V w w' := by
  simp only [withdrawAssets, bind_eq_ok, revertIf_eq_ok, exists_const, orRevert_eq_ok,
    TokenLedger.transfer_eq_some, not_not] at h
  obtain ⟨positive, -, spent, allowed, shares, retired, usdg, ⟨-, rfl⟩, exact, done⟩ := h
  have keeps := ShareLedger.spendFor_keeps allowed
  have burn := ShareLedger.burn_supply retired
  rw [keeps.2] at burn
  exact .leave _ shares value cash paid burned (Nat.pos_of_ne_zero positive) valued spendable fair
    funded burn.1 exact.1 rfl burn.2 done

theorem deposit_enters {safety : Option Bool} {caller receiver : Address} {paid minted : ℕ}
    (h : V.deposit safety caller receiver paid w = .ok (w', minted)) : Movement V w w' := by
  simp only [deposit, bind_eq_ok, revertIf_eq_ok, pure_eq_ok, exists_const, Prod.mk.injEq] at h
  obtain ⟨_, -, -, value, valued, v, entered, rfl, -⟩ := h
  exact depositAssets_enters valued (mulDiv_mul_le ..) entered

theorem mint_enters {safety : Option Bool} {caller receiver : Address} {paid minted : ℕ}
    (h : V.mint safety caller receiver minted w = .ok (w', paid)) : Movement V w w' := by
  simp only [mint, bind_eq_ok, revertIf_eq_ok, pure_eq_ok, exists_const, Prod.mk.injEq] at h
  obtain ⟨_, -, -, value, valued, v, entered, rfl, -⟩ := h
  exact depositAssets_enters valued
    (le_mulDivUp_mul (Nat.add_pos_right _ virtualShares_pos)) entered

/-- Nobody withdraws more than the spendable cash. -/
theorem withdraw_leaves {safety : Option Bool} {caller receiver owner : Address} {paid burned : ℕ}
    (h : V.withdraw safety caller receiver owner paid w = .ok (w', burned)) : Movement V w w' := by
  simp only [withdraw, bind_eq_ok, revertIf_eq_ok, pure_eq_ok, exists_const, Prod.mk.injEq,
    not_lt] at h
  obtain ⟨limit, max, within, value, valued, v, left, rfl, -⟩ := h
  have positive := left
  simp only [withdrawAssets, bind_eq_ok, revertIf_eq_ok, exists_const] at positive
  unfold maxWithdraw at max
  split_ifs at max
  · simp only [bind_eq_ok, pure_eq_ok] at max
    obtain ⟨_, _, cash, spendable, rfl⟩ := max
    exact withdrawAssets_leaves valued spendable (within.trans (min_le_right ..))
      (le_mulDivUp_mul (Nat.succ_pos _)) left
  · rw [pure_eq_ok] at max
    obtain rfl : paid = 0 := by omega
    exact absurd (mulDivUp_zero_left ..) positive.1

/-- Nobody redeems shares worth more than the spendable cash. -/
theorem redeem_leaves {safety : Option Bool} {caller receiver owner : Address} {paid burned : ℕ}
    (h : V.redeem safety caller receiver owner burned w = .ok (w', paid)) : Movement V w w' := by
  simp only [redeem, bind_eq_ok, revertIf_eq_ok, pure_eq_ok, exists_const, Prod.mk.injEq,
    not_lt] at h
  obtain ⟨limit, max, within, value, valued, v, left, rfl, -⟩ := h
  have positive := left
  simp only [withdrawAssets, bind_eq_ok, revertIf_eq_ok, exists_const] at positive
  unfold maxRedeem at max
  split_ifs at max
  · simp only [bind_eq_ok] at max
    obtain ⟨cash, spendable, assets, same, max⟩ := max
    rw [valued] at same
    obtain rfl := Except.ok.inj same
    refine withdrawAssets_leaves valued spendable ?_ (mulDiv_mul_le ..) left
    split_ifs at max with rich
    · rw [pure_eq_ok] at max
      have supplied := (V.shares (V.accrue w)).balanceOf_le owner
      exact (convertToAssets_le (by omega)).trans rich
    · rw [pure_eq_ok] at max
      exact convertToAssets_of_le_convertToShares (within.trans (max ▸ min_le_right ..))
  · rw [pure_eq_ok] at max
    exact absurd (show burned = 0 by omega) positive.1

/-- Case by case, a lender call is one of the three movements. -/
theorem call_movement {safety : Option Bool} {c : LenderCall} (h : V.call safety c w = .ok w') :
    Movement V w w' := by
  cases c with
  | deposit caller receiver assets =>
    simp only [call, bind_eq_ok, pure_eq_ok, Prod.exists] at h
    obtain ⟨v, s, entered, rfl⟩ := h
    exact deposit_enters entered
  | mint caller receiver shares =>
    simp only [call, bind_eq_ok, pure_eq_ok, Prod.exists] at h
    obtain ⟨v, s, entered, rfl⟩ := h
    exact mint_enters entered
  | withdraw caller receiver owner assets =>
    simp only [call, bind_eq_ok, pure_eq_ok, Prod.exists] at h
    obtain ⟨v, s, left, rfl⟩ := h
    exact withdraw_leaves left
  | redeem caller receiver owner shares =>
    simp only [call, bind_eq_ok, pure_eq_ok, Prod.exists] at h
    obtain ⟨v, s, left, rfl⟩ := h
    exact redeem_leaves left
  | depositWithMinShares caller receiver assets minShares deadline =>
    simp only [call, depositWithMinShares, checkDeadline, bind_eq_ok, revertIf_eq_ok,
      exists_const, pure_eq_ok, Prod.exists, Prod.mk.injEq] at h
    obtain ⟨v, s, ⟨-, -, u, t, entered, -, rfl, -⟩, rfl⟩ := h
    exact deposit_enters entered
  | withdrawWithMaxShares caller receiver owner assets maxShares deadline =>
    simp only [call, withdrawWithMaxShares, checkDeadline, bind_eq_ok, revertIf_eq_ok,
      exists_const, pure_eq_ok, Prod.exists, Prod.mk.injEq] at h
    obtain ⟨v, s, ⟨-, -, u, t, left, -, rfl, -⟩, rfl⟩ := h
    exact withdraw_leaves left
  | redeemWithMinAssets caller receiver owner shares minAssets deadline =>
    simp only [call, redeemWithMinAssets, checkDeadline, bind_eq_ok, revertIf_eq_ok,
      exists_const, pure_eq_ok, Prod.exists, Prod.mk.injEq] at h
    obtain ⟨v, s, ⟨-, -, u, t, left, -, rfl, -⟩, rfl⟩ := h
    exact redeem_leaves left
  | shareTransfer sender dst amount =>
    simp only [call, withShares, bind_eq_ok, orRevert_eq_ok, pure_eq_ok] at h
    obtain ⟨s, found, moved⟩ := h
    exact .shares s (ShareLedger.move_supply found) moved
  | shareTransferFrom spender src dst amount =>
    simp only [call, withShares, bind_eq_ok, orRevert_eq_ok, pure_eq_ok] at h
    obtain ⟨s, found, moved⟩ := h
    exact .shares s (ShareLedger.transferFrom_supply found) moved
  | shareApprove owner spender amount =>
    simp only [call, withShares, bind_eq_ok, orRevert_eq_ok, pure_eq_ok] at h
    obtain ⟨s, found, moved⟩ := h
    exact .shares s (by rw [← Option.some.inj found]; rfl) moved

/-! ### The gate -/

theorem deposit_allowed {safety : Option Bool} {caller receiver : Address} {paid minted : ℕ}
    (h : V.deposit safety caller receiver paid w = .ok (w', minted)) :
    V.capitalOperationsAllowed safety (V.accrue w) = true := by
  simp only [deposit, depositAssets, bind_eq_ok, revertIf_eq_ok, exists_const, not_lt, not_or] at h
  obtain ⟨limit, max, within, value, -, v, ⟨⟨positive, -⟩, -⟩, -⟩ := h
  by_contra suspended
  unfold maxDeposit at max
  rw [if_neg suspended] at max
  have none : limit = 0 := by
    split_ifs at max <;> exact (pure_eq_ok _ _).mp max |>.symm
  omega

theorem mint_allowed {safety : Option Bool} {caller receiver : Address} {paid minted : ℕ}
    (h : V.mint safety caller receiver minted w = .ok (w', paid)) :
    V.capitalOperationsAllowed safety (V.accrue w) = true := by
  simp only [mint, maxMint, depositAssets, bind_eq_ok, revertIf_eq_ok, exists_const, not_lt,
    not_or] at h
  obtain ⟨limit, ⟨below, max, limited⟩, within, value, -, v, ⟨⟨-, positive⟩, -⟩, -⟩ := h
  by_contra suspended
  unfold maxDeposit at max
  rw [if_neg suspended] at max
  have none : below = 0 := by
    split_ifs at max <;> exact (pure_eq_ok _ _).mp max |>.symm
  rw [if_pos none, pure_eq_ok] at limited
  omega

theorem withdraw_allowed {safety : Option Bool} {caller receiver owner : Address} {paid burned : ℕ}
    (h : V.withdraw safety caller receiver owner paid w = .ok (w', burned)) :
    V.capitalOperationsAllowed safety (V.accrue w) = true := by
  simp only [withdraw, withdrawAssets, bind_eq_ok, revertIf_eq_ok, exists_const, not_lt] at h
  obtain ⟨limit, max, within, value, -, v, ⟨positive, -⟩, -⟩ := h
  by_contra suspended
  rw [maxWithdraw, if_neg suspended, pure_eq_ok] at max
  obtain rfl : paid = 0 := by omega
  exact positive (mulDivUp_zero_left ..)

theorem redeem_allowed {safety : Option Bool} {caller receiver owner : Address} {paid burned : ℕ}
    (h : V.redeem safety caller receiver owner burned w = .ok (w', paid)) :
    V.capitalOperationsAllowed safety (V.accrue w) = true := by
  simp only [redeem, withdrawAssets, bind_eq_ok, revertIf_eq_ok, exists_const, not_lt] at h
  obtain ⟨limit, max, within, value, -, v, ⟨positive, -⟩, -⟩ := h
  by_contra suspended
  rw [maxRedeem, if_neg suspended, pure_eq_ok] at max
  omega

/-- No assets move while capital operations are suspended. -/
theorem call_allowed {safety : Option Bool} {c : LenderCall} (moves : c.movesAssets = true)
    (h : V.call safety c w = .ok w') : V.capitalOperationsAllowed safety (V.accrue w) = true := by
  cases c with
  | shareTransfer | shareTransferFrom | shareApprove => cases moves
  | deposit caller receiver assets =>
    simp only [call, bind_eq_ok, pure_eq_ok, Prod.exists] at h
    obtain ⟨v, s, entered, -⟩ := h
    exact deposit_allowed entered
  | mint caller receiver shares =>
    simp only [call, bind_eq_ok, pure_eq_ok, Prod.exists] at h
    obtain ⟨v, s, entered, -⟩ := h
    exact mint_allowed entered
  | withdraw caller receiver owner assets =>
    simp only [call, bind_eq_ok, pure_eq_ok, Prod.exists] at h
    obtain ⟨v, s, left, -⟩ := h
    exact withdraw_allowed left
  | redeem caller receiver owner shares =>
    simp only [call, bind_eq_ok, pure_eq_ok, Prod.exists] at h
    obtain ⟨v, s, left, -⟩ := h
    exact redeem_allowed left
  | depositWithMinShares caller receiver assets minShares deadline =>
    simp only [call, depositWithMinShares, bind_eq_ok, pure_eq_ok, Prod.exists] at h
    obtain ⟨v, s, ⟨-, -, -, -, u, t, entered, -⟩, -⟩ := h
    exact deposit_allowed entered
  | withdrawWithMaxShares caller receiver owner assets maxShares deadline =>
    simp only [call, withdrawWithMaxShares, bind_eq_ok, pure_eq_ok, Prod.exists] at h
    obtain ⟨v, s, ⟨-, -, -, -, u, t, left, -⟩, -⟩ := h
    exact withdraw_allowed left
  | redeemWithMinAssets caller receiver owner shares minAssets deadline =>
    simp only [call, redeemWithMinAssets, bind_eq_ok, pure_eq_ok, Prod.exists] at h
    obtain ⟨v, s, ⟨-, -, -, -, u, t, left, -⟩, -⟩ := h
    exact redeem_allowed left

/-! ### Movements on the books -/

/-- `b` are the books of a pool that keeps `fees` of its USDG aside. -/
structure Booked (V : LenderVault σ) (w : σ) (bps fees : ℕ) (b : LenderBooks) : Prop where
  covered : fees ≤ (V.usdg w).balanceOf (V.self w)
  cash_eq : b.cash = (V.usdg w).balanceOf (V.self w) - fees
  supply_eq : b.supply = (V.shares w).totalSupply
  value_eq : ∀ n, V.totalAssets w = .ok n → b.value bps = n
  spendable : ∀ n, V.availableCash w = .ok n → b.cash = n

/-- Entry and exit are flows at the price of the checkpointed books, rounded against the mover. -/
theorem Movement.flow {bps fees : ℕ} {b : LenderBooks} (h : Movement V w w')
    (booked : Booked V (V.accrue w) bps fees b) :
    (∃ usdg shares, fees ≤ usdg.balanceOf (V.self (V.accrue w)) ∧
      (∀ x y, usdg.allowance x y ≤ (V.usdg (V.accrue w)).allowance x y) ∧
      b.Flow bps virtualShares
        { b with
          cash := usdg.balanceOf (V.self (V.accrue w)) - fees
          supply := shares.totalSupply } ∧
      V.refresh (V.move usdg shares (V.accrue w)) = .ok w') ∨
    ∃ shares : ShareLedger, shares.totalSupply = (V.shares w).totalSupply ∧
      V.move (V.usdg w) shares w = w' := by
  have covered := booked.covered
  have cash_eq := booked.cash_eq
  cases h with
  | enter usdg shares value paid minted _ valued fair received spent issued done =>
    left
    rw [← booked.supply_eq, ← booked.value_eq _ valued] at fair
    refine ⟨usdg, shares, by omega, spent, ?_, done⟩
    have entered : b.Flow bps virtualShares _ := .enter paid minted fair
    have cash : usdg.balanceOf (V.self (V.accrue w)) - fees = b.cash + paid := by omega
    rwa [cash, issued, ← booked.supply_eq]
  | leave usdg shares value cash paid burned _ valued spendable fair funded held sent kept retired
      done =>
    left
    rw [← booked.supply_eq, ← booked.value_eq _ valued] at fair
    rw [← booked.spendable _ spendable] at funded
    rw [← booked.supply_eq] at held
    refine ⟨usdg, shares, by omega, fun x y => (congrFun (congrFun kept x) y).le, ?_, done⟩
    have left : b.Flow bps virtualShares _ := .leave paid burned fair funded held
    have cash : usdg.balanceOf (V.self (V.accrue w)) - fees = b.cash - paid := by omega
    rwa [cash, retired, ← booked.supply_eq]
  | shares shares supply done => exact .inr ⟨shares, supply, done⟩

end LenderVault

end Turret
