import Turret.Library.Ledger

/-! `TurretP2PVaultV3`, the custody of one offer or loan, and the exact pull into
it. Both markets let a vault send by its `transferTo` only, so the check of the
manager is left out; the token is one of the pair. -/

namespace Turret.P2PVault

open Execution

inductive TransferError
  | erc20
  | unsupportedTransfer
  | invalidTransfer
  deriving DecidableEq

/-- The transfer went exactly from `src` to `dst`, or the call reverts. -/
def settleTransfer (src dst : Address) (amount : ℕ) (next : Option (TokenLedger Address))
    (t : TokenLedger Address) : Except TransferError (TokenLedger Address) := do
  let next ← orRevert next .erc20
  revertIf (next.balanceOf dst ≠ t.balanceOf dst + amount ∨
    next.balanceOf src ≠ t.balanceOf src - amount) .unsupportedTransfer
  pure next

/-- `safeTransferFrom`, checked on both sides. -/
def pullExact (spender src dst : Address) (amount : ℕ) (t : TokenLedger Address) :
    Except TransferError (TokenLedger Address) :=
  settleTransfer src dst amount (t.transferFrom spender src dst amount) t

/-- `safeTransfer`, checked on both sides. -/
def sendExact (src dst : Address) (amount : ℕ) (t : TokenLedger Address) :
    Except TransferError (TokenLedger Address) :=
  settleTransfer src dst amount (t.transfer src dst amount) t

def transferTo (vault recipient : Address) (amount : ℕ) (t : TokenLedger Address) :
    Except TransferError (TokenLedger Address) := do
  revertIf (amount = 0 ∨ recipient = 0 ∨ recipient = vault) .invalidTransfer
  sendExact vault recipient amount t

variable {t t' : TokenLedger Address} {spender src dst vault recipient : Address} {amount : ℕ}

theorem sendExact_eq_ok (h : src ≠ dst) :
    sendExact src dst amount t = .ok t' ↔ amount ≤ t.balanceOf src ∧ t.move src dst amount = t' := by
  simp only [sendExact, settleTransfer, bind_eq_ok, orRevert_eq_ok, revertIf_eq_ok, exists_const,
    pure_eq_ok, TokenLedger.transfer_eq_some]
  constructor
  · rintro ⟨_, moved, -, rfl⟩
    exact moved
  · rintro ⟨held, rfl⟩
    refine ⟨_, ⟨held, rfl⟩, ?_, rfl⟩
    simp [TokenLedger.move_dst h, TokenLedger.move_src h]

theorem transferTo_eq_ok :
    transferTo vault recipient amount t = .ok t' ↔
      (amount ≠ 0 ∧ recipient ≠ 0 ∧ recipient ≠ vault) ∧ amount ≤ t.balanceOf vault ∧
        t.move vault recipient amount = t' := by
  simp only [transferTo, bind_eq_ok, revertIf_eq_ok, exists_const, not_or]
  refine and_congr_right fun valid => ?_
  exact sendExact_eq_ok (Ne.symm valid.2.2)

theorem pullExact_eq_ok (h : src ≠ dst) :
    pullExact spender src dst amount t = .ok t' ↔
      (amount ≤ t.allowance src spender ∧ amount ≤ t.balanceOf src) ∧
        (t.approve src spender (t.allowance src spender - amount)).move src dst amount = t' := by
  simp only [pullExact, settleTransfer, bind_eq_ok, orRevert_eq_ok, revertIf_eq_ok, exists_const,
    pure_eq_ok, TokenLedger.transferFrom_eq_some]
  constructor
  · rintro ⟨_, moved, -, rfl⟩
    exact moved
  · rintro ⟨held, rfl⟩
    refine ⟨_, ⟨held, rfl⟩, ?_, rfl⟩
    simp [TokenLedger.move_dst h, TokenLedger.move_src h]

/-- What an exact payment between two holders does; nobody else loses. -/
structure Moved (src dst : Address) (amount : ℕ) (t t' : TokenLedger Address) : Prop where
  src_eq : t'.balanceOf src + amount = t.balanceOf src
  dst_eq : t'.balanceOf dst = t.balanceOf dst + amount
  others : ∀ a, a ≠ src → t.balanceOf a ≤ t'.balanceOf a

theorem moved_of_move (h : src ≠ dst) (funded : amount ≤ t.balanceOf src) :
    Moved src dst amount t (t.move src dst amount) where
  src_eq := by rw [TokenLedger.move_src h, Nat.sub_add_cancel funded]
  dst_eq := TokenLedger.move_dst h ..
  others _ other := TokenLedger.le_move other ..

theorem sendExact_moved (h : src ≠ dst) (done : sendExact src dst amount t = .ok t') :
    Moved src dst amount t t' := by
  obtain ⟨funded, rfl⟩ := (sendExact_eq_ok h).mp done
  exact moved_of_move h funded

theorem transferTo_moved (done : transferTo vault recipient amount t = .ok t') :
    Moved vault recipient amount t t' := by
  obtain ⟨valid, funded, rfl⟩ := transferTo_eq_ok.mp done
  exact moved_of_move (Ne.symm valid.2.2) funded

theorem pullExact_moved (h : src ≠ dst) (done : pullExact spender src dst amount t = .ok t') :
    Moved src dst amount t t' := by
  obtain ⟨⟨-, funded⟩, rfl⟩ := (pullExact_eq_ok h).mp done
  have moved := moved_of_move (t := t.approve src spender (t.allowance src spender - amount)) h
    funded
  exact ⟨moved.src_eq, moved.dst_eq, moved.others⟩

end Turret.P2PVault
