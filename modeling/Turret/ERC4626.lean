import Turret.Library.Ledger
import Turret.Library.Rounding

/-! The lender share of both capital pools: an ERC-20 whose balances always add
up to its supply, and the OpenZeppelin 4.9 conversions between shares and
assets with `_decimalsOffset() = 6`. The conversions take the pool's
`totalAssets()` and `totalSupply()` as arguments. -/

namespace Turret.ERC4626

open Function Rounding

def maxUint : ℕ := 2 ^ 256 - 1

/-- `10 ** _decimalsOffset()`. -/
def virtualShares : ℕ := 1000000

/-! ### Shares -/

/-- The supply is the sum of the balances: no operation can build a ledger where it is not. -/
structure ShareLedger where
  balanceOf : Address → ℕ
  totalSupply : ℕ
  allowance : Address → Address → ℕ
  balance_sum : ∑ a, balanceOf a = totalSupply

namespace ShareLedger

def empty : ShareLedger := ⟨fun _ => 0, 0, fun _ _ => 0, by simp⟩

theorem balanceOf_le (s : ShareLedger) (a : Address) : s.balanceOf a ≤ s.totalSupply :=
  s.balance_sum ▸ le_sum s.balanceOf a

/-- `_mint`. -/
def mint (account : Address) (amount : ℕ) (s : ShareLedger) : Option ShareLedger :=
  if account = 0 then none
  else some
    { s with
      balanceOf := update s.balanceOf account (s.balanceOf account + amount)
      totalSupply := s.totalSupply + amount
      balance_sum := by
        have moved := sum_update_add s.balanceOf account (s.balanceOf account + amount)
        have total := s.balance_sum
        omega }

/-- `_burn`. -/
def burn (account : Address) (amount : ℕ) (s : ShareLedger) : Option ShareLedger :=
  if h : account ≠ 0 ∧ amount ≤ s.balanceOf account then
    some
      { s with
        balanceOf := update s.balanceOf account (s.balanceOf account - amount)
        totalSupply := s.totalSupply - amount
        balance_sum := by
          have moved := sum_update_add s.balanceOf account (s.balanceOf account - amount)
          have total := s.balance_sum
          omega }
  else none

def approve (owner spender : Address) (amount : ℕ) (s : ShareLedger) : ShareLedger :=
  { s with allowance := update s.allowance owner (update (s.allowance owner) spender amount) }

/-- `_spendAllowance`: the maximal allowance is never used up. -/
def spendAllowance (owner spender : Address) (amount : ℕ) (s : ShareLedger) :
    Option ShareLedger :=
  if s.allowance owner spender = maxUint then some s
  else if amount ≤ s.allowance owner spender then
    some (s.approve owner spender (s.allowance owner spender - amount))
  else none

/-- `if (caller != owner) _spendAllowance(owner, caller, amount);` -/
def spendFor (caller owner : Address) (amount : ℕ) (s : ShareLedger) : Option ShareLedger :=
  if caller = owner then some s else s.spendAllowance owner caller amount

/-- `_transfer`. -/
def move (src dst : Address) (amount : ℕ) (s : ShareLedger) : Option ShareLedger :=
  if h : src ≠ 0 ∧ dst ≠ 0 ∧ amount ≤ s.balanceOf src then
    let debited := update s.balanceOf src (s.balanceOf src - amount)
    some
      { s with
        balanceOf := update debited dst (debited dst + amount)
        balance_sum := by
          have out := sum_update_add s.balanceOf src (s.balanceOf src - amount)
          have back := sum_update_add debited dst (debited dst + amount)
          have total := s.balance_sum
          simp only [debited] at back ⊢
          omega }
  else none

def transferFrom (spender src dst : Address) (amount : ℕ) (s : ShareLedger) :
    Option ShareLedger := do
  let spent ← s.spendAllowance src spender amount
  spent.move src dst amount

variable {s s' : ShareLedger} {a b c : Address} {n : ℕ}

theorem mint_supply (h : s.mint a n = some s') : s'.totalSupply = s.totalSupply + n := by
  unfold mint at h
  split_ifs at h
  rw [← Option.some.inj h]

theorem burn_supply (h : s.burn a n = some s') :
    n ≤ s.totalSupply ∧ s'.totalSupply = s.totalSupply - n := by
  unfold burn at h
  split_ifs at h with held
  have := s.balanceOf_le a
  rw [← Option.some.inj h]
  exact ⟨held.2.trans this, rfl⟩

theorem spendAllowance_keeps (h : s.spendAllowance a b n = some s') :
    s'.balanceOf = s.balanceOf ∧ s'.totalSupply = s.totalSupply := by
  unfold spendAllowance at h
  split_ifs at h <;> rw [← Option.some.inj h] <;> exact ⟨rfl, rfl⟩

theorem spendFor_keeps (h : s.spendFor a b n = some s') :
    s'.balanceOf = s.balanceOf ∧ s'.totalSupply = s.totalSupply := by
  unfold spendFor at h
  split_ifs at h
  · rw [← Option.some.inj h]
    exact ⟨rfl, rfl⟩
  · exact spendAllowance_keeps h

theorem move_supply (h : s.move a b n = some s') : s'.totalSupply = s.totalSupply := by
  unfold move at h
  split_ifs at h
  rw [← Option.some.inj h]

theorem transferFrom_supply (h : s.transferFrom c a b n = some s') :
    s'.totalSupply = s.totalSupply := by
  simp only [transferFrom, Option.bind_eq_bind, Option.bind_eq_some_iff] at h
  obtain ⟨mid, spent, moved⟩ := h
  rw [move_supply moved, (spendAllowance_keeps spent).2]

/-- No share belongs to address zero. -/
def Grounded (s : ShareLedger) : Prop := s.balanceOf 0 = 0

namespace Grounded

theorem empty : ShareLedger.empty.Grounded := rfl

theorem mint (g : s.Grounded) (h : s.mint a n = some s') : s'.Grounded := by
  unfold ShareLedger.mint at h
  split_ifs at h with zero
  rw [← Option.some.inj h]
  exact (update_of_ne (Ne.symm zero) _ _).trans g

theorem burn (g : s.Grounded) (h : s.burn a n = some s') : s'.Grounded := by
  unfold ShareLedger.burn at h
  split_ifs at h with held
  rw [← Option.some.inj h]
  exact (update_of_ne held.1.symm _ _).trans g

theorem move (g : s.Grounded) (h : s.move a b n = some s') : s'.Grounded := by
  unfold ShareLedger.move at h
  split_ifs at h with held
  rw [← Option.some.inj h]
  exact (update_of_ne held.2.1.symm _ _).trans ((update_of_ne held.1.symm _ _).trans g)

theorem spendAllowance (g : s.Grounded) (h : s.spendAllowance a b n = some s') :
    s'.Grounded := by
  rw [Grounded, (spendAllowance_keeps h).1]
  exact g

theorem spendFor (g : s.Grounded) (h : s.spendFor a b n = some s') : s'.Grounded := by
  rw [Grounded, (spendFor_keeps h).1]
  exact g

theorem transferFrom (g : s.Grounded) (h : s.transferFrom c a b n = some s') : s'.Grounded := by
  simp only [ShareLedger.transferFrom, Option.bind_eq_bind, Option.bind_eq_some_iff] at h
  obtain ⟨mid, spent, moved⟩ := h
  exact (g.spendAllowance spent).move moved

end Grounded

/-- A holder of enough shares can burn them. -/
theorem burn_held (zero : a ≠ 0) (held : n ≤ s.balanceOf a) :
    ∃ s', s.burn a n = some s' ∧ s'.balanceOf a + n = s.balanceOf a ∧
      s'.totalSupply + n = s.totalSupply := by
  refine ⟨_, dif_pos ⟨zero, held⟩, ?_, ?_⟩
  · simp only [update_self]
    exact Nat.sub_add_cancel held
  · exact Nat.sub_add_cancel (held.trans (s.balanceOf_le a))

end ShareLedger

/-! ### Conversions -/

/-- `_convertToShares(assets, Math.Rounding.Down)`. -/
def convertToShares (assets totalAssets supply : ℕ) : ℕ :=
  mulDiv assets (supply + virtualShares) (totalAssets + 1)

/-- `_convertToShares(assets, Math.Rounding.Up)`. -/
def convertToSharesUp (assets totalAssets supply : ℕ) : ℕ :=
  mulDivUp assets (supply + virtualShares) (totalAssets + 1)

/-- `_convertToAssets(shares, Math.Rounding.Down)`. -/
def convertToAssets (shares totalAssets supply : ℕ) : ℕ :=
  mulDiv shares (totalAssets + 1) (supply + virtualShares)

/-- `_convertToAssets(shares, Math.Rounding.Up)`. -/
def convertToAssetsUp (shares totalAssets supply : ℕ) : ℕ :=
  mulDivUp shares (totalAssets + 1) (supply + virtualShares)

theorem virtualShares_pos : 0 < virtualShares := by decide

variable (a s x : ℕ)

variable {a s x}

/-- Every share of the supply together is worth no more than the pool's assets. -/
theorem convertToAssets_le (h : x ≤ s) : convertToAssets x a s ≤ a := by
  have pos : 0 < s + virtualShares := by unfold virtualShares; omega
  have small : x * (a + 1) < (a + 1) * (s + virtualShares) := by
    have : x < s + virtualShares := by unfold virtualShares; omega
    nlinarith
  exact Nat.le_of_lt_succ ((Nat.div_lt_iff_lt_mul pos).mpr small)

/-- Shares that `cash` would buy redeem for no more than `cash`. -/
theorem convertToAssets_of_le_convertToShares {cash : ℕ} (h : x ≤ convertToShares cash a s) :
    convertToAssets x a s ≤ cash := by
  have bought := (le_mulDiv_iff (Nat.succ_pos a)).mp h
  exact Nat.div_le_of_le_mul (by nlinarith)

/-- What the shares held redeem for can be withdrawn by burning no more than them. -/
theorem convertToSharesUp_of_le_convertToAssets {assets : ℕ}
    (h : assets ≤ convertToAssets x a s) : convertToSharesUp assets a s ≤ x := by
  have pos : 0 < s + virtualShares := by unfold virtualShares; omega
  exact (mulDivUp_le_iff (Nat.succ_pos a)).mpr ((le_mulDiv_iff pos).mp h)

end Turret.ERC4626
