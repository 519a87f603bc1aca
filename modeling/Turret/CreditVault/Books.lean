import Turret.CreditVault.Vault

/-! The books of the vault. Every call either leaves the positions as they are
or moves one of them, with the debts of its market and of the vault and with the
collateral held; from this the sums and the custody of the collateral follow. -/

namespace Turret.CreditVault

open Execution Function Rounding Uint256 Finset

variable {w w' u : World} {c b : Address} {p : Position}

/-- What the vault holds of a token. -/
def held (token : Address) (w : World) : ℕ := (w.tokens token).balanceOf w.cfg.self

/-- The vault grants no allowance. -/
def Closed (w : World) : Prop :=
  ∀ token spender, (w.tokens token).allowance w.cfg.self spender = 0

/-! ### Tokens -/

/-- At least `gain` of the token has come to the vault, at most `loss` has left. -/
structure Transferred (token : Address) (gain loss : ℕ) (w w' : World) : Prop where
  cfg : w'.cfg = w.cfg
  outside : w'.outside = w.outside
  vault : w'.vault = w.vault
  closed : Closed w'
  held : held token w + gain ≤ held token w' + loss
  others : ∀ t, t ≠ token → w'.tokens t = w.tokens t

theorem onToken_eq_ok {token : Address} {f : TokenLedger Address → Option (TokenLedger Address)} :
    onToken token f w = .ok w' ↔ ∃ ledger, f (w.tokens token) = some ledger ∧
      w' = { w with tokens := update w.tokens token ledger } := by
  simp only [onToken, bind_eq_ok, orRevert_eq_ok, pure_eq_ok]
  exact exists_congr fun _ => and_congr_right fun _ => eq_comm

theorem transferred_of_ledger {token : Address} {ledger : TokenLedger Address} {gain loss : ℕ}
    (closed : Closed w) (none : ∀ a, ledger.allowance w.cfg.self a = 0)
    (moved : (w.tokens token).balanceOf w.cfg.self + gain ≤ ledger.balanceOf w.cfg.self + loss) :
    Transferred token gain loss w { w with tokens := update w.tokens token ledger } where
  cfg := rfl
  outside := rfl
  vault := rfl
  closed := fun t spender => by
    by_cases same : t = token
    · simp only [same, update_self]
      exact none spender
    · simp only [update_of_ne same]
      exact closed t spender
  held := by
    simp only [CreditVault.held, update_self]
    exact moved
  others := fun t other => update_of_ne other ..

theorem pull_transferred {token src : Address} {amount : ℕ} (closed : Closed w)
    (done : pull token src amount w = .ok w') : Transferred token amount 0 w w' := by
  obtain ⟨ledger, paid, rfl⟩ := onToken_eq_ok.mp done
  refine transferred_of_ledger closed
    (TokenLedger.transferFrom_keeps_closed (closed token) paid) ?_
  obtain ⟨⟨allowed, -⟩, rfl⟩ := (TokenLedger.transferFrom_eq_some ..).mp paid
  by_cases own : src = w.cfg.self
  · -- the vault has approved nothing, so that nothing moves
    rw [own, closed] at allowed
    have gained := (TokenLedger.transferFrom_closed (closed token) paid).1
    omega
  · rw [TokenLedger.move_dst own, TokenLedger.approve_balanceOf]
    omega

theorem send_transferred {token dst : Address} {amount : ℕ} (closed : Closed w)
    (done : send token dst amount w = .ok w') : Transferred token 0 amount w w' := by
  obtain ⟨ledger, paid, rfl⟩ := onToken_eq_ok.mp done
  obtain ⟨enough, rfl⟩ := (TokenLedger.transfer_eq_some ..).mp paid
  refine transferred_of_ledger closed (closed token) ?_
  by_cases own : w.cfg.self = dst
  · rw [← own, TokenLedger.move_self enough]
    omega
  · rw [TokenLedger.move_src own]
    omega

/-! ### What a call can do -/

/-- The position of `b` is now `p`, and the debts and the collateral held have moved with it. -/
structure Settles (c b : Address) (p : Position) (w w' : World) : Prop where
  cfg : w'.cfg = w.cfg
  markets : w'.vault.markets = w.vault.markets
  positions : w'.vault.positions =
    update w.vault.positions c (update (w.vault.positions c) b p)
  marketDebt : ∃ d, w'.vault.marketDebt = update w.vault.marketDebt c d ∧
    d + (w.position c b).debt = w.vault.marketDebt c + p.debt
  totalDebt : w'.vault.totalDebt + (w.position c b).debt = w.vault.totalDebt + p.debt
  collateral_fits : p.collateral ≤ (w.position c b).collateral ∨ p.collateral ≤ UINT128_MAX
  debt_fits : p.debt ≤ (w.position c b).debt ∨ p.debt ≤ UINT128_MAX
  listed : p.debt ≠ 0 → (w.position c b).debt ≠ 0 ∨ (w.vault.markets c).primaryOracle ≠ 0
  held : c ≠ w.cfg.usdg → held c w + p.collateral ≤ held c w' + (w.position c b).collateral
  others : ∀ t, t ≠ c → t ≠ w.cfg.usdg → CreditVault.held t w ≤ CreditVault.held t w'
  closed : Closed w'

/-- The positions are as they were. -/
structure Quiet (w w' : World) : Prop where
  cfg : w'.cfg = w.cfg
  listed : ∀ c, (w.vault.markets c).primaryOracle ≠ 0 → (w'.vault.markets c).primaryOracle ≠ 0
  markets : ∀ c, (w'.vault.markets c).primaryOracle ≠ 0 →
    (w.vault.markets c).primaryOracle ≠ 0 ∨ w.cfg.decimals c = 18
  positions : w'.vault.positions = w.vault.positions
  marketDebt : w'.vault.marketDebt = w.vault.marketDebt
  totalDebt : w'.vault.totalDebt = w.vault.totalDebt
  held : ∀ t, t ≠ w.cfg.usdg → CreditVault.held t w ≤ CreditVault.held t w'
  closed : Closed w'

/-! ### The books -/

/-- Debts are the sums of the positions' debts. -/
structure Booked (w : World) : Prop where
  market : ∀ c, w.vault.marketDebt c = ∑ b, (w.position c b).debt
  total : w.vault.totalDebt = ∑ c, ∑ b, (w.position c b).debt

structure Sound (w : World) : Prop where
  booked : Booked w
  collateral_fits : ∀ c b, (w.position c b).collateral ≤ UINT128_MAX
  debt_fits : ∀ c b, (w.position c b).debt ≤ UINT128_MAX
  listed : ∀ c b, (w.position c b).debt ≠ 0 → (w.vault.markets c).primaryOracle ≠ 0
  decimals : ∀ c, (w.vault.markets c).primaryOracle ≠ 0 → w.cfg.decimals c = 18
  custody : ∀ c, c ≠ w.cfg.usdg → ∑ b, (w.position c b).collateral ≤ held c w
  closed : Closed w

theorem Settles.position (h : Settles c b p w w') (c' b' : Address) :
    w'.position c' b' = if c' = c ∧ b' = b then p else w.position c' b' := by
  rw [World.position, h.positions]
  by_cases same : c' = c
  · subst same
    by_cases own : b' = b
    · simp [own]
    · simp [own, World.position]
  · simp [same, World.position]

/-- The sum of a field over the positions of the market moves with the position. -/
theorem Settles.sum (h : Settles c b p w w') (g : Position → ℕ) :
    (∑ b', g (w'.position c b')) + g (w.position c b) = (∑ b', g (w.position c b')) + g p := by
  have moved := sum_map_update_add g (w.vault.positions c) b p
  simp only [World.position, h.positions, update_self]
  exact moved

theorem Settles.sum_other (h : Settles c b p w w') (g : Position → ℕ) {c' : Address}
    (other : c' ≠ c) : ∑ b', g (w'.position c' b') = ∑ b', g (w.position c' b') := by
  simp only [World.position, h.positions, update_of_ne other]

theorem Settles.booked (h : Settles c b p w w') (booked : Booked w) : Booked w' where
  market := fun c' => by
    obtain ⟨d, after, moved⟩ := h.marketDebt
    rw [after]
    by_cases same : c' = c
    · subst same
      have sum := h.sum Position.debt
      have before := booked.market c'
      rw [update_self]
      omega
    · rw [update_of_ne same, h.sum_other Position.debt same]
      exact booked.market c'
  total := by
    have moved := sum_map_update_add (fun row : Address → Position => ∑ b', (row b').debt)
      w.vault.positions c (update (w.vault.positions c) b p)
    have row := sum_map_update_add Position.debt (w.vault.positions c) b p
    have before := booked.total
    have debt := h.totalDebt
    simp only [World.position, h.positions] at before debt ⊢
    omega

theorem Settles.sound (h : Settles c b p w w') (sound : Sound w) : Sound w' where
  booked := h.booked sound.booked
  collateral_fits := fun c' b' => by
    rw [h.position]
    split_ifs
    · exact h.collateral_fits.elim (fun le => le.trans (sound.collateral_fits c b)) id
    · exact sound.collateral_fits c' b'
  debt_fits := fun c' b' => by
    rw [h.position]
    split_ifs
    · exact h.debt_fits.elim (fun le => le.trans (sound.debt_fits c b)) id
    · exact sound.debt_fits c' b'
  listed := fun c' b' => by
    rw [h.position, h.markets]
    split_ifs with own
    · rw [own.1]
      exact fun owes => (h.listed owes).elim (sound.listed c b) id
    · exact sound.listed c' b'
  decimals := fun c' => by
    rw [h.markets, h.cfg]
    exact sound.decimals c'
  custody := fun c' apart => by
    rw [h.cfg] at apart
    have before := sound.custody c' apart
    by_cases same : c' = c
    · subst same
      have sum := h.sum Position.collateral
      have moved := h.held apart
      omega
    · rw [h.sum_other Position.collateral same]
      exact before.trans (h.others c' same apart)
  closed := h.closed

theorem Quiet.sound (h : Quiet w w') (sound : Sound w) : Sound w' := by
  have same : ∀ c b, w'.position c b = w.position c b := fun c b => by
    rw [World.position, h.positions]
    rfl
  refine ⟨⟨fun c => ?_, ?_⟩, fun c b => ?_, fun c b => ?_, fun c b => ?_, fun c => ?_, fun c => ?_,
    h.closed⟩
  · simp only [same, h.marketDebt]
    exact sound.booked.market c
  · simp only [same, h.totalDebt]
    exact sound.booked.total
  · rw [same]
    exact sound.collateral_fits c b
  · rw [same]
    exact sound.debt_fits c b
  · rw [same]
    exact fun owes => h.listed c (sound.listed c b owes)
  · rw [h.cfg]
    exact fun is_listed => (h.markets c is_listed).elim (sound.decimals c) id
  · rw [h.cfg]
    simp only [same]
    exact fun apart => (sound.custody c apart).trans (h.held c apart)

theorem Deployed.sound (h : Deployed w) : Sound w := by
  obtain ⟨owner, -, empty⟩ := h.vault_eq
  have none : ∀ c b, w.position c b = noPosition := fun c b => by
    rw [World.position, empty]
  refine ⟨⟨fun c => ?_, ?_⟩, fun c b => ?_, fun c b => ?_, fun c b => ?_, fun c => ?_,
    fun c _ => ?_, h.no_allowance⟩
  · simp [none, noPosition, empty]
  · simp [none, noPosition, empty]
  · simp [none, noPosition]
  · simp [none, noPosition]
  · simp [none, noPosition]
  · simp [empty, noMarket]
  · simp [none, noPosition]

end Turret.CreditVault
