import Turret.Isolated.PoolBooks
import Turret.Variable.PoolBooks

/-! The price of a lender share, the same for both pools: which calls move it,
what a loss costs, and where the fees go. -/

namespace Turret

open Execution Rounding ERC4626

/-- A capital pool, as far as the price of its shares is concerned. -/
structure CapitalPool (σ ι : Type) where
  exec : ι → σ → Except PoolError σ
  Reachable : σ → Prop
  totalAssets : σ → Except PoolError ℕ
  totalSupply : σ → ℕ
  protocolFees : σ → ℕ
  revenueFeeBps : σ → ℕ
  /-- `interestReceivable` after accrual. -/
  interestReceivable : σ → ℕ
  kind : ι → LenderBooks.Call
  repay : Address → ℕ → ℕ → ι

namespace CapitalPool

variable {σ ι : Type} (C : CapitalPool σ ι)

/-- `Math.mulDiv(interest, revenueFeeBps, 10000)`. -/
def fee (w : σ) (interest : ℕ) : ℕ := mulDiv interest (C.revenueFeeBps w) 10000

def feeFlow (op : ι) (w w' : σ) : FeeFlow :=
  .ofCall (C.revenueFeeBps w) (C.kind op) (C.interestReceivable w) (C.protocolFees w)
    (C.interestReceivable w') (C.protocolFees w')

def repayments (sender : Address) (parts : List (ℕ × ℕ)) : List ι :=
  parts.map fun part => C.repay sender part.1 part.2

/-- The laws of a lender share, over every reachable state of the pool. -/
structure ShareLaws : Prop where
  /-- `(totalAssets + 1) / (totalSupply + 10^6)` does not fall. -/
  price {w w' : σ} {op : ι} : C.Reachable w → C.exec op w = .ok w' → (C.kind op).isLoss = false →
    ∃ a a', C.totalAssets w = .ok a ∧ C.totalAssets w' = .ok a' ∧
      (a + 1) * (C.totalSupply w' + 10 ^ 6) ≤ (a' + 1) * (C.totalSupply w + 10 ^ 6)
  neutral {w w' : σ} {op : ι} : C.Reachable w → C.exec op w = .ok w' →
    (C.kind op).isNeutral = true → ∃ a, C.totalAssets w = .ok a ∧ C.totalAssets w' = .ok a
  fee_le {w w' : σ} {op : ι} {principal receivedYield : ℕ} : C.Reachable w →
    C.exec op w = .ok w' → C.kind op = .collect principal receivedYield →
      ∃ fee, C.protocolFees w' = C.protocolFees w + fee ∧ fee ≤ receivedYield
  loss {w w' : σ} {op : ι} {principal interest : ℕ} : C.Reachable w → C.exec op w = .ok w' →
    C.kind op = .writeOff principal interest →
      ∃ a a', C.totalAssets w = .ok a ∧ C.totalAssets w' = .ok a' ∧
        C.fee w (C.interestReceivable w) - C.fee w (C.interestReceivable w - interest) ≤ interest ∧
        a' + (principal + interest - (C.fee w (C.interestReceivable w) -
          C.fee w (C.interestReceivable w - interest))) = a
  telescope {w w' : σ} {ops : List ι} : C.Reachable w → Run (accepts C.exec) w ops w' →
    (FeeFlow.along C.exec C.feeFlow ops w).Balances (C.protocolFees w)
      (C.fee w (C.interestReceivable w)) (C.protocolFees w') (C.fee w' (C.interestReceivable w'))
  split {w one many : σ} {sender : Address} {parts : List (ℕ × ℕ)} : C.Reachable w →
    C.exec (C.repay sender (parts.map Prod.fst).sum (parts.map Prod.snd).sum) w = .ok one →
    execAll C.exec (C.repayments sender parts) w = .ok many →
      C.protocolFees many = C.protocolFees one ∧ C.totalAssets many = C.totalAssets one

/-- What a pool has to show: its calls act on its books as their kinds say. -/
structure Booked (books : σ → LenderBooks) (sound : σ → Prop) : Prop where
  reachable {w : σ} : C.Reachable w → sound w
  fee_le (w : σ) : C.revenueFeeBps w ≤ 10000
  totalAssets {w : σ} : sound w → C.totalAssets w = .ok ((books w).value (C.revenueFeeBps w))
  totalSupply (w : σ) : C.totalSupply w = (books w).supply
  interest (w : σ) : C.interestReceivable w = (books w).interest
  exec {w w' : σ} {op : ι} : sound w → C.exec op w = .ok w' →
    sound w' ∧ C.revenueFeeBps w' = C.revenueFeeBps w ∧
      LenderBooks.Effect (C.revenueFeeBps w) virtualShares (books w) (C.protocolFees w)
        (C.kind op) (books w') (C.protocolFees w')
  repay (sender : Address) (p y : ℕ) : C.kind (C.repay sender p y) = .collect p y

namespace Booked

variable {C} {books : σ → LenderBooks} {sound : σ → Prop} (h : C.Booked books sound)
  {w w' : σ} {op : ι}

include h

theorem price (hw : sound w) (done : C.exec op w = .ok w') (hop : (C.kind op).isLoss = false) :
    ∃ a a', C.totalAssets w = .ok a ∧ C.totalAssets w' = .ok a' ∧
      PriceLE virtualShares a (C.totalSupply w) a' (C.totalSupply w') := by
  obtain ⟨sound', same, effect⟩ := h.exec hw done
  refine ⟨_, _, h.totalAssets hw, h.totalAssets sound', ?_⟩
  rw [same, h.totalSupply, h.totalSupply]
  exact (effect.flow hop).price (h.fee_le w)

theorem neutral (hw : sound w) (done : C.exec op w = .ok w')
    (hop : (C.kind op).isNeutral = true) : C.totalAssets w' = C.totalAssets w := by
  obtain ⟨sound', same, effect⟩ := h.exec hw done
  rw [h.totalAssets hw, h.totalAssets sound', same, effect.value_eq (h.fee_le w) hop]

theorem collected (hw : sound w) {p y : ℕ} (done : C.exec op w = .ok w')
    (hop : C.kind op = .collect p y) :
    C.protocolFees w' = C.protocolFees w + (C.fee w (C.interestReceivable w) -
        C.fee w (C.interestReceivable w - y)) ∧
      C.interestReceivable w' = C.interestReceivable w - y ∧ y ≤ C.interestReceivable w := by
  obtain ⟨-, -, effect⟩ := h.exec hw done
  rw [hop] at effect
  rw [h.interest, h.interest]
  generalize books w' = b' at effect
  generalize C.protocolFees w' = fees' at effect
  cases effect with
  | collect _ _ owed accrued => exact ⟨rfl, rfl, accrued⟩

theorem loss (hw : sound w) {p i : ℕ} (done : C.exec op w = .ok w')
    (hop : C.kind op = .writeOff p i) :
    ∃ a a', C.totalAssets w = .ok a ∧ C.totalAssets w' = .ok a' ∧
      C.fee w (C.interestReceivable w) - C.fee w (C.interestReceivable w - i) ≤ i ∧
      a' + (p + i - (C.fee w (C.interestReceivable w) -
        C.fee w (C.interestReceivable w - i))) = a := by
  obtain ⟨sound', same, effect⟩ := h.exec hw done
  refine ⟨_, _, h.totalAssets hw, h.totalAssets sound', ?_⟩
  rw [hop] at effect
  rw [same, h.interest]
  generalize books w' = b' at effect
  generalize C.protocolFees w' = fees' at effect
  cases effect with
  | writeOff _ _ owed accrued =>
    exact ⟨LenderBooks.fee_sub_le (h.fee_le w) accrued,
      LenderBooks.value_writeOff (h.fee_le w) owed accrued⟩

theorem telescope (hw : sound w) {ops : List ι} (run : Run (accepts C.exec) w ops w') :
    (FeeFlow.along C.exec C.feeFlow ops w).Balances (C.protocolFees w)
      (C.fee w (C.interestReceivable w)) (C.protocolFees w') (C.fee w' (C.interestReceivable w')) := by
  refine FeeFlow.along_balances C.exec C.feeFlow sound C.protocolFees
    (fun w => C.fee w (C.interestReceivable w)) (fun s i t hs step => ?_) run hw
  obtain ⟨sound', same, effect⟩ := h.exec hs step
  refine ⟨sound', ?_⟩
  simp only [feeFlow, fee, h.interest, same]
  exact .ofEffect effect

/-- One or many repayments at one instant book the same fees. -/
theorem repayments_fees {many : σ} (hw : sound w) {sender : Address} {parts : List (ℕ × ℕ)}
    (done : execAll C.exec (C.repayments sender parts) w = .ok many) :
    C.protocolFees many = C.protocolFees w + (C.fee w (C.interestReceivable w) -
      C.fee w (C.interestReceivable w - (parts.map Prod.snd).sum)) := by
  induction parts generalizing w with
  | nil =>
    simp only [repayments, List.map_nil, execAll, Except.ok.injEq] at done
    simp [done]
  | cons part rest ih =>
    simp only [repayments, List.map_cons, execAll, bind_eq_ok] at done
    obtain ⟨mid, first, later⟩ := done
    obtain ⟨sound', same, -⟩ := h.exec hw first
    obtain ⟨taken, left, -⟩ := h.collected hw first (h.repay sender part.1 part.2)
    have rest_taken := ih sound' later
    have shrinks : ∀ n k, C.fee w (n - k) ≤ C.fee w n :=
      fun n k => LenderBooks.fee_mono _ (Nat.sub_le n k)
    have first_shrinks := shrinks (C.interestReceivable w) part.2
    have rest_shrinks := shrinks (C.interestReceivable w - part.2) (rest.map Prod.snd).sum
    have bps : C.fee mid = C.fee w := by
      funext n
      simp only [fee, same]
    rw [taken, left, bps] at rest_taken
    rw [List.map_cons, List.sum_cons, ← Nat.sub_sub]
    omega

theorem repayments_assets {many : σ} (hw : sound w) {sender : Address} {parts : List (ℕ × ℕ)}
    (done : execAll C.exec (C.repayments sender parts) w = .ok many) :
    C.totalAssets many = C.totalAssets w := by
  induction parts generalizing w with
  | nil =>
    simp only [repayments, List.map_nil, execAll, Except.ok.injEq] at done
    rw [done]
  | cons part rest ih =>
    simp only [repayments, List.map_cons, execAll, bind_eq_ok] at done
    obtain ⟨mid, first, later⟩ := done
    have kept := h.neutral hw first (by rw [h.repay]; rfl)
    exact (ih (h.exec hw first).1 later).trans kept

theorem shareLaws : C.ShareLaws where
  price reached done hop := by
    obtain ⟨a, a', before, after, price⟩ := h.price (h.reachable reached) done hop
    exact ⟨a, a', before, after, price⟩
  neutral reached done hop := by
    have hw := h.reachable reached
    exact ⟨_, h.totalAssets hw, (h.neutral hw done hop).trans (h.totalAssets hw)⟩
  fee_le reached done hop := by
    obtain ⟨taken, -, accrued⟩ := h.collected (h.reachable reached) done hop
    exact ⟨_, taken, LenderBooks.fee_sub_le (h.fee_le _) accrued⟩
  loss reached done hop := h.loss (h.reachable reached) done hop
  telescope reached run := h.telescope (h.reachable reached) run
  split {w one many sender parts} reached whole split := by
    have hw := h.reachable reached
    obtain ⟨taken, -, -⟩ := h.collected hw whole (h.repay ..)
    refine ⟨(h.repayments_fees hw split).trans taken.symm, ?_⟩
    rw [h.repayments_assets hw split, h.neutral hw whole (by rw [h.repay]; rfl)]

end Booked

end CapitalPool

/-! ### The fixed-rate pool -/

namespace IsolatedPool

def Op.kind : Op → LenderBooks.Call
  | .draw .. => .lend
  | .repay _ principal receivedYield => .collect principal receivedYield
  | .recognizeLoss _ principal interest => .writeOff principal interest
  | .accrueInterest => .checkpoint
  | .claimRevenue => .claim
  | .elapse .. => .earn
  | .lender .. | .retire .. | .usdg .. => .other

def capitalPool : CapitalPool World Op where
  exec := exec
  Reachable := Reachable
  totalAssets := totalAssets
  totalSupply w := w.pool.shares.totalSupply
  protocolFees w := w.pool.protocolFees
  revenueFeeBps w := w.cfg.revenueFeeBps
  interestReceivable w := (accrue w).pool.interestReceivable
  kind := Op.kind
  repay := .repay

theorem QuietStep.other {w w' : World} (h : QuietStep w w') :
    LenderBooks.Effect w.cfg.revenueFeeBps virtualShares (books w) w.pool.protocolFees .other
      (books w') w'.pool.protocolFees := by
  rw [h.fees_eq]
  exact .other _ h.flow h.interest_eq

theorem exec_effect {w w' : World} (hw : Sound w) {op : Op} (h : exec op w = .ok w') :
    LenderBooks.Effect w.cfg.revenueFeeBps virtualShares (books w) w.pool.protocolFees op.kind
      (books w') w'.pool.protocolFees := by
  cases op with
  | draw safety sender recipient amount =>
    obtain ⟨-, -, result, funded⟩ := draw_books hw h
    obtain ⟨_, rfl, -⟩ := draw_ok h
    exact result ▸ .lend amount funded
  | repay sender principal received =>
    obtain ⟨-, -, result, owed, accrued⟩ := repay_books hw h
    obtain ⟨_, rfl, -⟩ := repay_ok h
    exact result ▸ .collect principal received owed accrued
  | recognizeLoss sender principal interest =>
    obtain ⟨-, -, result, owed, accrued⟩ := recognizeLoss_books hw h
    obtain ⟨rfl, -⟩ := recognizeLoss_ok h
    exact result ▸ .writeOff principal interest owed accrued
  | accrueInterest =>
    rw [exec, pure_eq_ok] at h
    rw [← h, books_accrue]
    exact .checkpoint
  | claimRevenue =>
    have same := (claimRevenue_flow hw h).2
    simp only [exec, claimRevenue, bind_eq_ok, revertIf_eq_ok, exists_const] at h
    obtain ⟨usdg, rfl, -⟩ := sendExact_ok h.2
    exact same ▸ .claim
  | elapse seconds =>
    rw [exec, pure_eq_ok] at h
    subst h
    obtain ⟨n, grown⟩ := elapse_books hw seconds
    exact grown ▸ .earn n
  | _ => exact (exec_quiet hw rfl h).other

theorem capitalPool_booked : capitalPool.Booked books Sound where
  reachable reached := reached.sound
  fee_le w := w.cfg.fee_le_whole
  totalAssets hw := hw.totalAssets
  totalSupply _ := rfl
  interest _ := rfl
  exec hw done := ⟨(exec_sound hw done).1, by
    have same := (exec_sound hw done).2
    simp only [capitalPool, same], exec_effect hw done⟩
  repay _ _ _ := rfl

end IsolatedPool

/-! ### The variable-rate pool -/

namespace VariablePool

def Op.kind : Op → LenderBooks.Call
  | .draw .. => .lend
  | .repay _ principal receivedYield => .collect principal receivedYield
  | .recognizeLoss _ principal interest => .writeOff principal interest
  | .accrueInterest => .checkpoint
  | .claimRevenue => .claim
  | .elapse .. => .earn
  | _ => .other

def capitalPool : CapitalPool World Op where
  exec := exec
  Reachable := Reachable
  totalAssets := totalAssets
  totalSupply w := w.pool.shares.totalSupply
  protocolFees w := w.pool.protocolFees
  revenueFeeBps w := w.cfg.revenueFeeBps
  interestReceivable w := (accrue w).pool.interestReceivable
  kind := Op.kind
  repay := .repay

theorem QuietStep.other {w w' : World} (h : QuietStep w w') :
    LenderBooks.Effect w.cfg.revenueFeeBps virtualShares (books w) w.pool.protocolFees .other
      (books w') w'.pool.protocolFees := by
  rw [h.fees_eq]
  exact .other _ h.flow h.interest_eq

theorem exec_effect {w w' : World} (hw : Sound w) {op : Op} (h : exec op w = .ok w') :
    LenderBooks.Effect w.cfg.revenueFeeBps virtualShares (books w) w.pool.protocolFees op.kind
      (books w') w'.pool.protocolFees := by
  cases op with
  | draw safety sender recipient amount =>
    obtain ⟨-, -, result, funded⟩ := draw_books hw h
    obtain ⟨_, rfl, -⟩ := draw_ok h
    exact result ▸ .lend amount funded
  | repay sender principal received =>
    obtain ⟨-, -, result, owed, accrued⟩ := repay_books hw h
    obtain ⟨_, rfl, -⟩ := repay_ok h
    exact result ▸ .collect principal received owed accrued
  | recognizeLoss sender principal interest =>
    obtain ⟨-, -, result, owed, accrued⟩ := recognizeLoss_books hw h
    obtain ⟨rfl, -⟩ := recognizeLoss_ok h
    exact result ▸ .writeOff principal interest owed accrued
  | accrueInterest =>
    rw [accrueInterest_ok h, books_refreshed (accrue_checkpointed w), books_accrue]
    exact .checkpoint
  | claimRevenue =>
    have same := (claimRevenue_flow hw h).2
    obtain ⟨usdg, rfl, -⟩ := claimRevenue_ok h
    exact same ▸ .claim
  | elapse seconds =>
    rw [exec, pure_eq_ok] at h
    subst h
    obtain ⟨n, grown⟩ := elapse_books hw seconds
    exact grown ▸ .earn n
  | _ => exact (exec_quiet hw rfl h).other

theorem capitalPool_booked : capitalPool.Booked books Sound where
  reachable reached := reached.sound
  fee_le w := w.cfg.fee_le_whole
  totalAssets hw := hw.totalAssets
  totalSupply _ := rfl
  interest _ := rfl
  exec hw done := ⟨(exec_sound hw done).1, by
    have same := (exec_sound hw done).2
    simp only [capitalPool, same], exec_effect hw done⟩
  repay _ _ _ := rfl

end VariablePool

/-- A lender share keeps its price in both pools, losses excepted, and no fee goes missing. -/
theorem lender_share_laws :
    IsolatedPool.capitalPool.ShareLaws ∧ VariablePool.capitalPool.ShareLaws ∧
      ∀ w w', VariablePool.Reachable w → VariablePool.refreshRate (VariablePool.accrue w) = .ok w' →
        VariablePool.totalAssets w' = VariablePool.totalAssets w := by
  refine ⟨IsolatedPool.capitalPool_booked.shareLaws, VariablePool.capitalPool_booked.shareLaws,
    fun w w' reached done => ?_⟩
  have accrued : VariablePool.capitalPool.exec .accrueInterest w = .ok w' := done
  exact VariablePool.capitalPool_booked.neutral reached.sound accrued rfl

end Turret
