import Turret.Rewards.BorrowerCashback

/-! The books of the cashback contract, which funding, reserving, claiming and
every other call keep: the commitments are funded, the claims within their
caps, and the unclaimed funding is in the balance until the claim deadline. -/

namespace Turret.BorrowerCashback

open Execution Finset Function

variable {w w' : World}

/-- The events of one pair. -/
def Claimed.isFor (b e : Address) (c : Claimed) : Bool :=
  decide (c.borrower = b ∧ c.engine = e)

/-- What the pair was paid over a log. -/
def paidTo (b e : Address) (log : List Claimed) : ℕ :=
  ((log.filter (Claimed.isFor b e)).map Claimed.paid).sum

/-- The largest cumulative amount claimed for the pair over a log. -/
def largestClaimed (b e : Address) (log : List Claimed) : ℕ :=
  ((log.filter (Claimed.isFor b e)).map Claimed.cumulative).foldr max 0

structure Sound (w : World) : Prop where
  closed : ∀ a, w.usdg.allowance w.self a = 0
  committed_le : w.totalCommitted ≤ w.totalFunded
  claimed_le : ∀ b e, w.claimed b e ≤ w.cap b e
  totalClaimed_eq : w.totalClaimed = ∑ b, ∑ e, w.claimed b e
  backed : w.now ≤ w.cfg.claimDeadline →
    w.totalFunded ≤ w.usdg.balanceOf w.self + w.totalClaimed
  paid_eq : ∀ b e, paidTo b e w.log = w.claimed b e
  largest_eq : ∀ b e, largestClaimed b e w.log = w.claimed b e

/-- A call that neither funds, reserves nor claims. -/
structure Quiet (w w' : World) : Prop where
  books : w' =
    { w with
      now := w'.now, usdg := w'.usdg, isEnrollmentPaused := w'.isEnrollmentPaused
      publishedRoots := w'.publishedRoots }
  closed : ∀ a, w'.usdg.allowance w.self a = 0
  held : w'.now ≤ w.cfg.claimDeadline →
    w.now ≤ w.cfg.claimDeadline ∧ w.usdg.balanceOf w.self ≤ w'.usdg.balanceOf w.self

/-- What a funding does. -/
structure Funded (amount : ℕ) (w w' : World) : Prop where
  books : w' = { w with usdg := w'.usdg, totalFunded := w.totalFunded + amount }
  closed : ∀ a, w'.usdg.allowance w.self a = 0
  received : w'.usdg.balanceOf w.self = w.usdg.balanceOf w.self + amount

/-- What a claim does. -/
structure Paid (b e : Address) (cumulative : ℕ) (w w' : World) : Prop where
  more : w.claimed b e < cumulative
  within : cumulative ≤ w.cap b e
  books : w' =
    { w with
      usdg := w'.usdg
      claimed := updatePair w.claimed b e cumulative
      totalClaimed := w.totalClaimed + (cumulative - w.claimed b e)
      log := ⟨b, e, cumulative, cumulative - w.claimed b e⟩ :: w.log }
  closed : ∀ a, w'.usdg.allowance w.self a = w.usdg.allowance w.self a
  paid : w'.usdg.balanceOf w.self + (cumulative - w.claimed b e) = w.usdg.balanceOf w.self
  received : w'.usdg.balanceOf b = w.usdg.balanceOf b + (cumulative - w.claimed b e)

theorem paidTo_cons (b e : Address) (c : Claimed) (log : List Claimed) :
    paidTo b e (c :: log) = (if b = c.borrower ∧ e = c.engine then c.paid else 0) +
      paidTo b e log := by
  by_cases h : b = c.borrower ∧ e = c.engine
  · obtain ⟨rfl, rfl⟩ := h
    simp [paidTo, Claimed.isFor]
  · have other : ¬(c.borrower = b ∧ c.engine = e) := fun k => h ⟨k.1.symm, k.2.symm⟩
    simp [paidTo, Claimed.isFor, h, other]

theorem largestClaimed_cons (b e : Address) (c : Claimed) (log : List Claimed) :
    largestClaimed b e (c :: log) =
      max (if b = c.borrower ∧ e = c.engine then c.cumulative else 0) (largestClaimed b e log) := by
  by_cases h : b = c.borrower ∧ e = c.engine
  · obtain ⟨rfl, rfl⟩ := h
    simp [largestClaimed, Claimed.isFor]
  · have other : ¬(c.borrower = b ∧ c.engine = e) := fun k => h ⟨k.1.symm, k.2.symm⟩
    simp [largestClaimed, Claimed.isFor, h, other]

theorem Quiet.sound (q : Quiet w w') (h : Sound w) : Sound w' := by
  obtain ⟨books, closed, held⟩ := q
  rw [books]
  exact { h with closed, backed := fun early =>
    (h.backed (held early).1).trans (Nat.add_le_add_right (held early).2 _) }

theorem Funded.sound {amount : ℕ} (f : Funded amount w w') (h : Sound w) : Sound w' := by
  obtain ⟨books, closed, received⟩ := f
  rw [books]
  refine { h with closed, committed_le := ?_, backed := fun early => ?_ }
  · exact h.committed_le.trans (Nat.le_add_right ..)
  · have before := h.backed early
    simp only [World.self] at received before ⊢
    omega

/-- A reservation the funding has room for, which lowers no cap. -/
theorem Sound.reserve (h : Sound w) {amount : ℕ} {enrollments : Address → Address → Enrollment}
    (room : w.totalCommitted + amount ≤ w.totalFunded)
    (grown : ∀ b e, w.cap b e ≤ (enrollments b e).cap) :
    Sound { w with enrollments, totalCommitted := w.totalCommitted + amount } :=
  { h with
    committed_le := room
    claimed_le := fun b e => (h.claimed_le b e).trans (grown b e) }

theorem Paid.sound {b e : Address} {cumulative : ℕ} (p : Paid b e cumulative w w') (h : Sound w) :
    Sound w' := by
  obtain ⟨more, within, books, closed, paid, -⟩ := p
  rw [books]
  refine ⟨fun a => (closed a).trans (h.closed a), h.committed_le, fun b' e' => ?_, ?_,
    fun early => ?_, fun b' e' => ?_, fun b' e' => ?_⟩
  · simp only [updatePair_apply]
    split_ifs with same
    · obtain ⟨rfl, rfl⟩ := same
      exact within
    · exact h.claimed_le b' e'
  · have sum := sum_updatePair w.claimed b e cumulative
    have total := h.totalClaimed_eq
    simp only
    omega
  · have before := h.backed early
    simp only [World.self] at paid before ⊢
    omega
  · rw [paidTo_cons, h.paid_eq]
    simp only [updatePair_apply]
    split_ifs with same
    · rw [same.1, same.2]
      omega
    · exact Nat.zero_add _
  · rw [largestClaimed_cons, h.largest_eq]
    simp only [updatePair_apply]
    split_ifs with same
    · rw [same.1, same.2]
      exact max_eq_left more.le
    · exact Nat.zero_max _

/-- A claim lowers no claimed amount. -/
theorem Paid.claimed_mono {b e : Address} {cumulative : ℕ} (p : Paid b e cumulative w w')
    (b' e' : Address) : w.claimed b' e' ≤ w'.claimed b' e' := by
  rw [p.books]
  simp only [updatePair_apply]
  split_ifs with same
  · exact same.1 ▸ same.2 ▸ p.more.le
  · exact le_rfl

/-! ### Each call -/

theorem fund_ok {sender : Address} {amount : ℕ} (h : Sound w)
    (done : fund sender amount w = .ok w') : Funded amount w w' := by
  simp only [fund, bind_eq_ok, revertIf_eq_ok, exists_const, pure_eq_ok] at done
  obtain ⟨-, -, usdg, pulled, rfl⟩ := done
  obtain ⟨received, closed⟩ := TokenLedger.pullTo_received pulled h.closed
  exact ⟨rfl, closed, received⟩

theorem claim_ok {root : Bytes32} {b e : Address} {cumulative : ℕ} {proof : List Bytes32}
    (done : claim root b e cumulative proof w = .ok w') : Paid b e cumulative w w' := by
  simp only [claim, bind_eq_ok, revertIf_eq_ok, exists_const, checkedSub_eq_ok, pure_eq_ok,
    not_or, not_le, not_lt] at done
  obtain ⟨-, -, ⟨more, within⟩, amount, ⟨-, rfl⟩, usdg, sent, rfl⟩ := done
  obtain ⟨paid, received, kept⟩ := TokenLedger.sendTo_paid sent
  exact ⟨more, within, rfl, fun a => congrFun (congrFun kept _) a, paid, received⟩

theorem recoverExpired_quiet {sender : Address} (h : Sound w)
    (done : recoverExpired sender w = .ok w') : Quiet w w' := by
  simp only [recoverExpired, bind_eq_ok, revertIf_eq_ok, exists_const, orRevert_eq_ok,
    TokenLedger.transfer_eq_some, pure_eq_ok] at done
  obtain ⟨-, late, usdg, ⟨-, rfl⟩, rfl⟩ := done
  exact ⟨rfl, h.closed, fun early => absurd early late⟩

theorem setEnrollmentPaused_quiet {sender : Address} {paused : Bool} (h : Sound w)
    (done : setEnrollmentPaused sender paused w = .ok w') : Quiet w w' := by
  simp only [setEnrollmentPaused, bind_eq_ok, pure_eq_ok] at done
  obtain ⟨-, -, rfl⟩ := done
  exact ⟨rfl, h.closed, fun early => ⟨early, le_rfl⟩⟩

theorem publish_quiet {sender : Address} {root blockHash : Bytes32} (throughBlock : ℕ)
    (h : Sound w) (done : publish sender root throughBlock blockHash w = .ok w') : Quiet w w' := by
  simp only [publish, bind_eq_ok, revertIf_eq_ok, exists_const, pure_eq_ok] at done
  obtain ⟨-, -, -, -, rfl⟩ := done
  exact ⟨rfl, h.closed, fun early => ⟨early, le_rfl⟩⟩

theorem elapse_quiet {seconds : ℕ} (h : Sound w) (done : elapse seconds w = .ok w') :
    Quiet w w' := by
  obtain rfl := Except.ok.inj done
  exact ⟨rfl, h.closed, fun early => ⟨(Nat.le_add_right ..).trans early, le_rfl⟩⟩

theorem callToken_quiet {call : TokenCall Address} (h : Sound w) (away : call.sender ≠ some w.self)
    (done : callToken call w = .ok w') : Quiet w w' := by
  simp only [callToken, bind_eq_ok, orRevert_eq_ok, pure_eq_ok] at done
  obtain ⟨usdg, called, rfl⟩ := done
  exact ⟨rfl, TokenCall.exec_keeps_closed called away h.closed,
    fun early => ⟨early, (TokenCall.exec_closed called away h.closed).1⟩⟩

theorem Deployed.sound (h : Deployed w) : Sound w := by
  obtain ⟨-, closed, storage⟩ := h
  rw [storage]
  exact ⟨closed, le_rfl, fun _ _ => le_rfl, by simp [constructed], fun _ => Nat.zero_le _,
    fun _ _ => rfl, fun _ _ => rfl⟩

/-- A claim within what is left of the campaign is paid. -/
theorem Sound.claim_paid (h : Sound w) {root : Bytes32} {b e : Address} {cumulative : ℕ}
    {proof : List Bytes32} (early : w.now ≤ w.cfg.claimDeadline)
    (valid : proves root b e cumulative proof w = true) (more : w.claimed b e < cumulative)
    (within : cumulative ≤ w.cap b e) (other : b ≠ w.self)
    (room : w.totalClaimed + (cumulative - w.claimed b e) ≤ w.totalFunded) :
    ∃ w', claim root b e cumulative proof w = .ok w' ∧
      w'.usdg.balanceOf b = w.usdg.balanceOf b + (cumulative - w.claimed b e) := by
  have backed := h.backed early
  have funded : cumulative - w.claimed b e ≤ w.usdg.balanceOf w.self := by omega
  obtain ⟨w', done⟩ : ∃ w', claim root b e cumulative proof w = .ok w' := by
    simp only [claim, bind_eq_ok, revertIf_eq_ok, exists_const, checkedSub_eq_ok, pure_eq_ok,
      TokenLedger.sendTo_eq_ok, Bool.not_eq_false, not_or, not_le, not_lt]
    exact ⟨_, early, valid, ⟨more, within⟩, _, ⟨more.le, rfl⟩, _,
      ⟨funded, .inl (Ne.symm other), rfl⟩, rfl⟩
  exact ⟨w', done, (claim_ok done).received⟩

end Turret.BorrowerCashback
