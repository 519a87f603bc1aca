import Turret.Library.Ledger

/-! Payments in an exact-transfer token that the caller checks by the balances
before and after. The two errors are those of a failed transfer and of a
failed check; between different holders the check never fails. -/

namespace Turret

open Execution Finset Function

section DoubleMapping

variable {ι κ : Type} [Fintype ι] [DecidableEq ι] [Fintype κ] [DecidableEq κ]

/-- A mapping of mappings changed at one pair. -/
def updatePair {β : Type} (f : ι → κ → β) (i : ι) (k : κ) (b : β) : ι → κ → β :=
  update f i (update (f i) k b)

omit [Fintype ι] [Fintype κ] in
theorem updatePair_apply {β : Type} (f : ι → κ → β) (i j : ι) (k l : κ) (b : β) :
    updatePair f i k b j l = if j = i ∧ l = k then b else f j l := by
  by_cases hj : j = i
  · subst hj
    by_cases hl : l = k <;> simp [updatePair, hl]
  · simp [updatePair, hj]

omit [Fintype ι] [Fintype κ] in
@[simp] theorem updatePair_same {β : Type} (f : ι → κ → β) (i : ι) (k : κ) (b : β) :
    updatePair f i k b i k = b := by
  simp [updatePair_apply]

omit [Fintype ι] in
theorem sum_updatePair_row (f : ι → κ → ℕ) (i j : ι) (k : κ) (v : ℕ) :
    (∑ l, updatePair f i k v j l) + (if j = i then f i k else 0) =
      (∑ l, f j l) + if j = i then v else 0 := by
  by_cases hj : j = i
  · subst hj
    simpa [updatePair] using sum_update_add (f j) k v
  · simp [updatePair, hj]

theorem sum_updatePair (f : ι → κ → ℕ) (i : ι) (k : κ) (v : ℕ) :
    (∑ j, ∑ l, updatePair f i k v j l) + f i k = (∑ j, ∑ l, f j l) + v := by
  have rows := sum_congr (rfl : univ = univ) fun j _ => sum_updatePair_row f i j k v
  simpa [sum_add_distrib] using rows

end DoubleMapping

namespace TokenLedger

variable {ε A : Type} [DecidableEq A]

/-- `safeTransferFrom`, then the balance of the recipient. -/
def pullTo (failed unsupported : ε) (spender src dst : A) (amount : ℕ) (t : TokenLedger A) :
    Except ε (TokenLedger A) := do
  let t' ← orRevert (t.transferFrom spender src dst amount) failed
  revertIf (t'.balanceOf dst ≠ t.balanceOf dst + amount) unsupported
  pure t'

/-- `safeTransfer`, then the balance of the recipient. -/
def sendTo (failed unsupported : ε) (src dst : A) (amount : ℕ) (t : TokenLedger A) :
    Except ε (TokenLedger A) := do
  let t' ← orRevert (t.transfer src dst amount) failed
  revertIf (t'.balanceOf dst ≠ t.balanceOf dst + amount) unsupported
  pure t'

/-- `safeTransferFrom`, then the balances of both; the payer's is compared by a subtraction. -/
def pullExact (failed unsupported : ε) (spender src dst : A) (amount : ℕ) (t : TokenLedger A) :
    Except ε (TokenLedger A) := do
  let t' ← pullTo failed unsupported spender src dst amount t
  revertIf (t'.balanceOf src + amount ≠ t.balanceOf src) unsupported
  pure t'

/-- `safeTransfer`, then the balances of both. -/
def sendExact (failed unsupported : ε) (src dst : A) (amount : ℕ) (t : TokenLedger A) :
    Except ε (TokenLedger A) := do
  let t' ← sendTo failed unsupported src dst amount t
  revertIf (t'.balanceOf src + amount ≠ t.balanceOf src) unsupported
  pure t'

variable {failed unsupported : ε} {spender src dst : A} {amount : ℕ} {t t' : TokenLedger A}

/-- A transfer between two holders shows in both balances, one to itself in neither. -/
theorem move_exact (funded : amount ≤ t.balanceOf src) :
    (t.move src dst amount).balanceOf dst = t.balanceOf dst + amount ↔ src ≠ dst ∨ amount = 0 := by
  by_cases h : src = dst
  · subst h
    rw [move_self funded]
    simp only [ne_eq, not_true, false_or]
    omega
  · simp [move_dst h, h]

theorem pullTo_eq_ok : pullTo failed unsupported spender src dst amount t = .ok t' ↔
    amount ≤ t.allowance src spender ∧ amount ≤ t.balanceOf src ∧ (src ≠ dst ∨ amount = 0) ∧
      (t.approve src spender (t.allowance src spender - amount)).move src dst amount = t' := by
  simp only [pullTo, bind_eq_ok, orRevert_eq_ok, revertIf_eq_ok, exists_const, pure_eq_ok,
    transferFrom_eq_some, not_not]
  constructor
  · rintro ⟨_, ⟨⟨allowed, funded⟩, rfl⟩, exact_, rfl⟩
    exact ⟨allowed, funded, (move_exact (by exact funded)).mp exact_, rfl⟩
  · rintro ⟨allowed, funded, apart, rfl⟩
    exact ⟨_, ⟨⟨allowed, funded⟩, rfl⟩, (move_exact (by exact funded)).mpr apart, rfl⟩

theorem sendTo_eq_ok : sendTo failed unsupported src dst amount t = .ok t' ↔
    amount ≤ t.balanceOf src ∧ (src ≠ dst ∨ amount = 0) ∧ t.move src dst amount = t' := by
  simp only [sendTo, bind_eq_ok, orRevert_eq_ok, revertIf_eq_ok, exists_const, pure_eq_ok,
    transfer_eq_some, not_not]
  constructor
  · rintro ⟨_, ⟨funded, rfl⟩, exact_, rfl⟩
    exact ⟨funded, (move_exact funded).mp exact_, rfl⟩
  · rintro ⟨funded, apart, rfl⟩
    exact ⟨_, ⟨funded, rfl⟩, (move_exact funded).mpr apart, rfl⟩

theorem move_src_exact (funded : amount ≤ t.balanceOf src) (apart : src ≠ dst ∨ amount = 0) :
    (t.move src dst amount).balanceOf src + amount = t.balanceOf src := by
  by_cases h : src = dst
  · obtain rfl := apart.resolve_left (not_not.mpr h)
    rw [← h, move_self funded, Nat.add_zero]
  · rw [move_src h, Nat.sub_add_cancel funded]

/-- With an exact-transfer token the second comparison adds nothing to the first. -/
theorem pullExact_eq_ok : pullExact failed unsupported spender src dst amount t = .ok t' ↔
    pullTo failed unsupported spender src dst amount t = .ok t' := by
  simp only [pullExact, bind_eq_ok, revertIf_eq_ok, exists_const, pure_eq_ok, not_not]
  constructor
  · rintro ⟨_, done, -, rfl⟩
    exact done
  · intro done
    refine ⟨t', done, ?_, rfl⟩
    obtain ⟨-, funded, apart, rfl⟩ := pullTo_eq_ok.mp done
    exact move_src_exact (by exact funded) apart

theorem sendExact_eq_ok : sendExact failed unsupported src dst amount t = .ok t' ↔
    sendTo failed unsupported src dst amount t = .ok t' := by
  simp only [sendExact, bind_eq_ok, revertIf_eq_ok, exists_const, pure_eq_ok, not_not]
  constructor
  · rintro ⟨_, done, -, rfl⟩
    exact done
  · intro done
    refine ⟨t', done, ?_, rfl⟩
    obtain ⟨funded, apart, rfl⟩ := sendTo_eq_ok.mp done
    exact move_src_exact funded apart

/-- A payment fails only with the two errors it is given. -/
theorem pullTo_ne_error {e : ε} (hf : failed ≠ e) (hu : unsupported ≠ e) :
    pullTo failed unsupported spender src dst amount t ≠ .error e := by
  simp [pullTo, bind_ne_error, hf, hu]

/-- What a pull does for a recipient that grants no allowance. -/
theorem pullTo_received (done : pullTo failed unsupported spender src dst amount t = .ok t')
    (closed : ∀ a, t.allowance dst a = 0) :
    t'.balanceOf dst = t.balanceOf dst + amount ∧ ∀ a, t'.allowance dst a = 0 := by
  simp only [pullTo, bind_eq_ok, orRevert_eq_ok, revertIf_eq_ok, exists_const, pure_eq_ok,
    not_not] at done
  obtain ⟨_, pulled, exact_, rfl⟩ := done
  exact ⟨exact_, transferFrom_keeps_closed closed pulled⟩

/-- What a payment does for its sender and its recipient. -/
theorem sendTo_paid (done : sendTo failed unsupported src dst amount t = .ok t') :
    t'.balanceOf src + amount = t.balanceOf src ∧
      t'.balanceOf dst = t.balanceOf dst + amount ∧ t'.allowance = t.allowance := by
  obtain ⟨funded, apart, rfl⟩ := sendTo_eq_ok.mp done
  exact ⟨move_src_exact funded apart, (move_exact funded).mpr apart, rfl⟩

end TokenLedger

end Turret
