import Mathlib.Data.BitVec
import Turret.Rewards.CashbackBooks
import Turret.Rewards.BorrowerCashback

/-! The budget of both cashback contracts. What is reserved is funded, what is
claimed is within what is reserved, and so every claim that its root and its
caps admit is paid, whatever was claimed before it. -/

namespace Turret

open Execution Finset Function

namespace BorrowerCashback

variable {w w' : World}

structure Budgeted (w : World) : Prop extends Sound w where
  committed_eq : w.totalCommitted = ∑ b, ∑ e, w.cap b e

/-- A call that reserves nothing. -/
theorem Budgeted.of_sound (h : Budgeted w) (sound : Sound w')
    (committed : w'.totalCommitted = w.totalCommitted) (caps : w'.enrollments = w.enrollments) :
    Budgeted w' := by
  refine { sound with committed_eq := ?_ }
  rw [committed, h.committed_eq]
  simp only [World.cap, caps]

theorem Budgeted.of_quiet (h : Budgeted w) (q : Quiet w w') :
    Budgeted w' ∧ ∀ b e, w.claimed b e ≤ w'.claimed b e := by
  refine ⟨h.of_sound (q.sound h.toSound) ?_ ?_, fun b e => ?_⟩
  · rw [q.books]
  · rw [q.books]
  · rw [q.books]

/-- An enrollment reserves exactly the cap it grants. -/
theorem enroll_budgeted {sender b e : Address} {cap : ℕ} (h : Budgeted w)
    (done : enroll sender b e cap w = .ok w') : Budgeted w' ∧ w'.claimed = w.claimed := by
  simp only [enroll, bind_eq_ok, revertIf_eq_ok, exists_const, checkedSub_eq_ok, pure_eq_ok,
    not_or, ne_eq, not_not] at done
  obtain ⟨-, -, -, -, ⟨-, -, -, fresh⟩, room, ⟨funded, rfl⟩, enough, rfl⟩ := done
  have caps : ∀ j l, (updatePair w.enrollments b e ⟨cap, max w.now w.cfg.startsAt⟩ j l).cap =
      updatePair w.cap b e cap j l := by
    intro j l
    simp only [updatePair_apply, World.cap]
    split_ifs <;> rfl
  refine ⟨{ h.toSound.reserve (by omega) fun j l => ?_ with committed_eq := ?_ }, rfl⟩
  · rw [caps, updatePair_apply]
    split_ifs with same
    · rw [same.1, same.2, fresh]
      exact Nat.zero_le _
    · exact le_rfl
  · have sum := sum_updatePair w.cap b e cap
    have committed := h.committed_eq
    simp only [World.cap] at caps sum committed fresh ⊢
    simp only [caps]
    omega

theorem exec_step (h : Budgeted w) {op : Op} (done : exec op w = .ok w') :
    Budgeted w' ∧ ∀ b e, w.claimed b e ≤ w'.claimed b e := by
  simp only [exec, bind_eq_ok, revertIf_eq_ok, exists_const] at done
  obtain ⟨away, done⟩ := done
  cases op with
  | fund sender amount =>
    have funded := fund_ok h.toSound done
    refine ⟨h.of_sound (funded.sound h.toSound) ?_ ?_, fun b e => ?_⟩
    · rw [funded.books]
    · rw [funded.books]
    · rw [funded.books]
  | enroll sender b e cap =>
    obtain ⟨budgeted, same⟩ := enroll_budgeted h done
    exact ⟨budgeted, fun b e => same ▸ le_rfl⟩
  | setEnrollmentPaused sender paused => exact h.of_quiet (setEnrollmentPaused_quiet h.toSound done)
  | publish sender root throughBlock blockHash => exact h.of_quiet (publish_quiet throughBlock h.toSound done)
  | claim sender root b e cumulative proof =>
    have paid := claim_ok done
    refine ⟨h.of_sound (paid.sound h.toSound) ?_ ?_, paid.claimed_mono⟩
    · rw [paid.books]
    · rw [paid.books]
  | recoverExpired sender => exact h.of_quiet (recoverExpired_quiet h.toSound done)
  | elapse seconds => exact h.of_quiet (elapse_quiet h.toSound done)
  | usdg call => exact h.of_quiet (callToken_quiet h.toSound away done)

theorem Deployed.budgeted (h : Deployed w) : Budgeted w := by
  refine { h.sound with committed_eq := ?_ }
  rw [h.storage_eq]
  simp [constructed, World.cap]

theorem Budgeted.run {ops : List Op} (h : Budgeted w) (run : Run (accepts exec) w ops w') :
    Budgeted w' ∧ ∀ b e, w.claimed b e ≤ w'.claimed b e := by
  induction run with
  | nil => exact ⟨h, fun _ _ => le_rfl⟩
  | cons first _ ih =>
    obtain ⟨budgeted, grown⟩ := exec_step h first
    obtain ⟨final, later⟩ := ih budgeted
    exact ⟨final, fun b e => (grown b e).trans (later b e)⟩

theorem Reachable.budgeted (h : Reachable w) : Budgeted w := by
  obtain ⟨start, ops, deployed, run⟩ := h
  exact (deployed.budgeted.run run).1

theorem Budgeted.claimed_le_committed (h : Budgeted w) : w.totalClaimed ≤ w.totalCommitted := by
  rw [h.totalClaimed_eq, h.committed_eq]
  exact sum_le_sum fun b _ => sum_le_sum fun e _ => h.claimed_le b e

/-- Raising one claim to at most its cap stays within the commitments. -/
theorem Budgeted.room (h : Budgeted w) {b e : Address} {cumulative : ℕ}
    (more : w.claimed b e < cumulative) (within : cumulative ≤ w.cap b e) :
    w.totalClaimed + (cumulative - w.claimed b e) ≤ w.totalFunded := by
  have raised : ∑ j, ∑ l, updatePair w.claimed b e cumulative j l ≤ ∑ j, ∑ l, w.cap j l := by
    refine sum_le_sum fun j _ => sum_le_sum fun l _ => ?_
    rw [updatePair_apply]
    split_ifs with same
    · exact same.1 ▸ same.2 ▸ within
    · exact h.claimed_le j l
  have sum := sum_updatePair w.claimed b e cumulative
  have total := h.totalClaimed_eq
  have committed := h.committed_eq
  have funded := h.committed_le
  omega

end BorrowerCashback

namespace PublicBorrowerCashback

open BorrowerCashback (Sound Quiet Funded Paid Enrollment)

variable {w w' : World}

/-- What a wallet has reserved. -/
def reserved (joined : Address → Bool) (b : Address) : ℕ :=
  if joined b = true then WALLET_CAP else 0

theorem reserved_le (joined : Address → Bool) (b : Address) : reserved joined b ≤ WALLET_CAP := by
  rw [reserved]
  split_ifs
  · exact le_rfl
  · exact Nat.zero_le _

structure Budgeted (w : World) : Prop extends Sound w.campaign where
  cap_eq : ∀ b e, w.campaign.cap b e = if e ∈ w.markets.engines then reserved w.joined b else 0
  committed_eq : w.campaign.totalCommitted = ∑ b, reserved w.joined b
  wallet_eq : ∀ b, w.walletClaimed b = ∑ e, w.campaign.claimed b e
  wallet_le : ∀ b, w.walletClaimed b ≤ reserved w.joined b
  funded_le : w.campaign.totalFunded ≤ BUDGET_CAP

/-- A change of the campaign that neither reserves nor claims. -/
theorem Budgeted.of_sound (h : Budgeted w) {campaign : BorrowerCashback.World}
    (sound : Sound campaign) (caps : campaign.enrollments = w.campaign.enrollments)
    (committed : campaign.totalCommitted = w.campaign.totalCommitted)
    (claimed : campaign.claimed = w.campaign.claimed) (funded : campaign.totalFunded ≤ BUDGET_CAP) :
    Budgeted { w with campaign } where
  toSound := sound
  cap_eq b e := (congrArg (fun all => (all b e).cap) caps).trans (h.cap_eq b e)
  committed_eq := committed.trans h.committed_eq
  wallet_eq b := by
    rw [claimed]
    exact h.wallet_eq b
  wallet_le := h.wallet_le
  funded_le := funded

/-- An inherited call that neither funds nor claims. -/
theorem Budgeted.of_quiet (h : Budgeted w)
    {call : BorrowerCashback.World → Except BorrowerCashback.Error BorrowerCashback.World}
    (quiet : ∀ c, call w.campaign = .ok c → Quiet w.campaign c) (done : inherited call w = .ok w') :
    Budgeted w' ∧ ∀ b e, w.campaign.claimed b e ≤ w'.campaign.claimed b e := by
  simp only [inherited, bind_eq_ok, pure_eq_ok] at done
  obtain ⟨campaign, called, rfl⟩ := done
  have q := quiet campaign called
  refine ⟨h.of_sound (q.sound h.toSound) ?_ ?_ ?_ ?_, fun b e => ?_⟩
  · rw [q.books]
  · rw [q.books]
  · rw [q.books]
  · rw [q.books]
    exact h.funded_le
  · show w.campaign.claimed b e ≤ campaign.claimed b e
    rw [q.books]

theorem fund_budgeted {sender : Address} {amount : ℕ} (h : Budgeted w)
    (done : fund sender amount w = .ok w') :
    Budgeted w' ∧ w'.campaign.claimed = w.campaign.claimed := by
  simp only [fund, inherited, bind_eq_ok, checkedSub_eq_ok, revertIf_eq_ok, exists_const,
    pure_eq_ok] at done
  obtain ⟨room, ⟨-, rfl⟩, within, campaign, called, rfl⟩ := done
  have funded := BorrowerCashback.fund_ok h.toSound called
  have limit := h.funded_le
  refine ⟨h.of_sound (funded.sound h.toSound) ?_ ?_ ?_ ?_, ?_⟩
  · rw [funded.books]
  · rw [funded.books]
  · rw [funded.books]
  · rw [funded.books]
    simp only
    omega
  · show campaign.claimed = w.campaign.claimed
    rw [funded.books]

/-- The loop of `join` grants the wallet cap in every listed market and nothing else. -/
theorem enrollAll_cap (sender : Address) (now : ℕ) (engines : List Address) :
    ∀ (all : Address → Address → Enrollment) (b e : Address),
      (enrollAll sender now engines all b e).cap =
        if b = sender ∧ e ∈ engines then WALLET_CAP else (all b e).cap := by
  induction engines with
  | nil =>
    intro all b e
    simp [enrollAll]
  | cons engine rest ih =>
    intro all b e
    have step := ih (updatePair all sender engine ⟨WALLET_CAP, now⟩) b e
    simp only [enrollAll, List.foldl_cons, List.mem_cons] at step ⊢
    rw [step, updatePair_apply]
    by_cases hb : b = sender <;> by_cases he : e = engine <;> by_cases hr : e ∈ rest <;>
      simp [hb, he, hr]

theorem reserved_join (joined : Address → Bool) (sender b : Address) :
    reserved (update joined sender true) b =
      if b = sender then WALLET_CAP else reserved joined b := by
  by_cases hb : b = sender
  · simp [reserved, hb]
  · simp [reserved, hb]

theorem join_budgeted {sender : Address} (h : Budgeted w) (done : join sender w = .ok w') :
    Budgeted w' ∧ w'.campaign.claimed = w.campaign.claimed := by
  simp only [join, bind_eq_ok, revertIf_eq_ok, exists_const, checkedSub_eq_ok, pure_eq_ok, not_or,
    Bool.not_eq_true] at done
  obtain ⟨-, -, ⟨fresh, -, -⟩, room, ⟨funded, rfl⟩, enough, rfl⟩ := done
  have none : reserved w.joined sender = 0 := by simp [reserved, fresh]
  refine ⟨⟨h.toSound.reserve (by omega) fun b e => ?_, fun b e => ?_, ?_, h.wallet_eq,
    fun b => ?_, h.funded_le⟩, rfl⟩
  · rw [enrollAll_cap]
    split_ifs with same
    · rw [h.cap_eq, same.1, none]
      simp
    · exact le_rfl
  · have cap := h.cap_eq b e
    simp only [BorrowerCashback.World.cap] at cap ⊢
    rw [enrollAll_cap, reserved_join, cap]
    by_cases hb : b = sender <;> by_cases he : e ∈ w.markets.engines <;> simp [hb, he]
  · have sum := sum_update_add (reserved w.joined) sender WALLET_CAP
    have all : ∀ b, reserved (update w.joined sender true) b =
        update (reserved w.joined) sender WALLET_CAP b := by
      intro b
      rw [reserved_join, update_apply]
    have committed := h.committed_eq
    simp only [all]
    omega
  · have before := h.wallet_le b
    simp only [reserved_join]
    split_ifs with same
    · rw [same, none] at before
      exact (same ▸ before).trans (Nat.zero_le _)
    · exact before

/-- Only a wallet that joined has a cap to claim under. -/
theorem Budgeted.joined (h : Budgeted w) {b e : Address} {cumulative : ℕ}
    (more : w.campaign.claimed b e < cumulative) (within : cumulative ≤ w.campaign.cap b e) :
    reserved w.joined b = WALLET_CAP := by
  have cap := h.cap_eq b e
  have positive : w.campaign.cap b e ≠ 0 := by omega
  by_cases hb : w.joined b = true
  · exact if_pos hb
  · rw [cap, reserved, if_neg hb, ite_self] at positive
    exact absurd rfl positive

theorem claim_budgeted {root : BorrowerCashback.Bytes32} {b e : Address} {cumulative : ℕ}
    {proof : List BorrowerCashback.Bytes32} (h : Budgeted w)
    (done : claim root b e cumulative proof w = .ok w') :
    Budgeted w' ∧ Paid b e cumulative w.campaign w'.campaign := by
  simp only [claim, inherited, bind_eq_ok, revertIf_eq_ok, exists_const, checkedSub_eq_ok,
    pure_eq_ok] at done
  obtain ⟨-, room, ⟨below, rfl⟩, limit, campaign, called, rfl⟩ := done
  have paid := BorrowerCashback.claim_ok called
  have wallet := h.joined paid.more paid.within
  refine ⟨⟨paid.sound h.toSound, fun b' e' => ?_, ?_, fun b' => ?_, fun b' => ?_, ?_⟩, paid⟩
  · show campaign.cap b' e' = _
    rw [paid.books]
    exact h.cap_eq b' e'
  · show campaign.totalCommitted = _
    rw [paid.books]
    exact h.committed_eq
  · have row := sum_updatePair_row w.campaign.claimed b b' e cumulative
    have before := h.wallet_eq b'
    have more := paid.more
    show update w.walletClaimed b _ b' = ∑ l, campaign.claimed b' l
    rw [paid.books]
    by_cases hb : b' = b
    · subst hb
      simp only [if_true, update_self] at row ⊢
      omega
    · simp only [if_neg hb, update_of_ne hb] at row ⊢
      omega
  · show update w.walletClaimed b _ b' ≤ reserved w.joined b'
    by_cases hb : b' = b
    · subst hb
      rw [update_self, wallet]
      omega
    · rw [update_of_ne hb]
      exact h.wallet_le b'
  · show campaign.totalFunded ≤ BUDGET_CAP
    rw [paid.books]
    exact h.funded_le

theorem exec_step (h : Budgeted w) {op : Op} (done : exec op w = .ok w') :
    Budgeted w' ∧ ∀ b e, w.campaign.claimed b e ≤ w'.campaign.claimed b e := by
  simp only [exec, bind_eq_ok, revertIf_eq_ok, exists_const] at done
  obtain ⟨away, done⟩ := done
  cases op with
  | fund sender amount =>
    obtain ⟨budgeted, same⟩ := fund_budgeted h done
    exact ⟨budgeted, fun b e => same ▸ le_rfl⟩
  | enroll sender b e cap => cases done
  | join sender =>
    obtain ⟨budgeted, same⟩ := join_budgeted h done
    exact ⟨budgeted, fun b e => same ▸ le_rfl⟩
  | setEnrollmentPaused sender paused =>
    exact h.of_quiet (fun _ => BorrowerCashback.setEnrollmentPaused_quiet h.toSound) done
  | publish sender root throughBlock blockHash =>
    exact h.of_quiet (fun _ => BorrowerCashback.publish_quiet throughBlock h.toSound) done
  | claim sender root b e cumulative proof =>
    obtain ⟨budgeted, paid⟩ := claim_budgeted h done
    exact ⟨budgeted, paid.claimed_mono⟩
  | recoverExpired sender =>
    exact h.of_quiet (fun _ => BorrowerCashback.recoverExpired_quiet h.toSound) done
  | elapse seconds => exact h.of_quiet (fun _ => BorrowerCashback.elapse_quiet h.toSound) done
  | usdg call => exact h.of_quiet (fun _ => BorrowerCashback.callToken_quiet h.toSound away) done

theorem Deployed.budgeted (h : Deployed w) : Budgeted w := by
  have sound := h.campaign.sound
  have none : ∀ b, reserved w.joined b = 0 := fun b => by simp [reserved, h.joined_eq]
  refine ⟨sound, fun b e => ?_, ?_, fun b => ?_, fun b => ?_, ?_⟩
  · rw [none, ite_self, h.campaign.storage_eq]
    rfl
  · simp only [none, sum_const_zero]
    rw [h.campaign.storage_eq]
    rfl
  · rw [h.walletClaimed_eq, h.campaign.storage_eq]
    simp [BorrowerCashback.constructed]
  · rw [h.walletClaimed_eq]
    exact Nat.zero_le _
  · rw [h.campaign.storage_eq]
    exact Nat.zero_le _

theorem Budgeted.run {ops : List Op} (h : Budgeted w) (run : Run (accepts exec) w ops w') :
    Budgeted w' ∧ ∀ b e, w.campaign.claimed b e ≤ w'.campaign.claimed b e := by
  induction run with
  | nil => exact ⟨h, fun _ _ => le_rfl⟩
  | cons first _ ih =>
    obtain ⟨budgeted, grown⟩ := exec_step h first
    obtain ⟨final, later⟩ := ih budgeted
    exact ⟨final, fun b e => (grown b e).trans (later b e)⟩

theorem Reachable.budgeted (h : Reachable w) : Budgeted w := by
  obtain ⟨start, ops, deployed, run⟩ := h
  exact (deployed.budgeted.run run).1

theorem Budgeted.totalClaimed_eq_wallets (h : Budgeted w) :
    w.campaign.totalClaimed = ∑ b, w.walletClaimed b := by
  rw [h.totalClaimed_eq]
  exact sum_congr rfl fun b _ => (h.wallet_eq b).symm

theorem Budgeted.claimed_le_committed (h : Budgeted w) :
    w.campaign.totalClaimed ≤ w.campaign.totalCommitted := by
  rw [h.totalClaimed_eq_wallets, h.committed_eq]
  exact sum_le_sum fun b _ => h.wallet_le b

/-- A claim within the wallet's cap stays within the commitments. -/
theorem Budgeted.room (h : Budgeted w) {b e : Address} {cumulative : ℕ}
    (more : w.campaign.claimed b e < cumulative) (within : cumulative ≤ w.campaign.cap b e)
    (wallet : cumulative - w.campaign.claimed b e ≤ WALLET_CAP - w.walletClaimed b) :
    w.campaign.totalClaimed + (cumulative - w.campaign.claimed b e) ≤ w.campaign.totalFunded := by
  have joined := h.joined more within
  have below := h.wallet_le b
  have raised : ∑ j, update w.walletClaimed b
      (w.walletClaimed b + (cumulative - w.campaign.claimed b e)) j ≤
      ∑ j, reserved w.joined j := by
    refine sum_le_sum fun j _ => ?_
    by_cases hj : j = b
    · rw [hj, update_self]
      omega
    · rw [update_of_ne hj]
      exact h.wallet_le j
  have sum := sum_update_add w.walletClaimed b
    (w.walletClaimed b + (cumulative - w.campaign.claimed b e))
  have total := h.totalClaimed_eq_wallets
  have committed := h.committed_eq
  have funded := h.committed_le
  omega

theorem Budgeted.committed_eq_joined (h : Budgeted w) :
    w.campaign.totalCommitted = WALLET_CAP * (univ.filter fun b => w.joined b = true).card := by
  rw [h.committed_eq, card_filter, mul_sum]
  refine sum_congr rfl fun b _ => ?_
  rw [reserved, mul_ite, mul_one, mul_zero]

end PublicBorrowerCashback

/-- What both contracts promise of their budget, in the state of the inherited contract. -/
structure BudgetSafe (w : BorrowerCashback.World) : Prop where
  committed_le_funded : w.totalCommitted ≤ w.totalFunded
  claimed_le_cap : ∀ b e, w.claimed b e ≤ w.cap b e
  totalClaimed_eq : w.totalClaimed = ∑ b, ∑ e, w.claimed b e
  claimed_le_committed : w.totalClaimed ≤ w.totalCommitted
  backed : w.now ≤ w.cfg.claimDeadline → w.totalFunded - w.totalClaimed ≤ w.usdg.balanceOf w.self
  payouts_eq : ∀ b e, BorrowerCashback.paidTo b e w.log = BorrowerCashback.largestClaimed b e w.log
  largest_eq : ∀ b e, BorrowerCashback.largestClaimed b e w.log = w.claimed b e

theorem BudgetSafe.of_sound {w : BorrowerCashback.World} (h : BorrowerCashback.Sound w)
    (within : w.totalClaimed ≤ w.totalCommitted) : BudgetSafe w where
  committed_le_funded := h.committed_le
  claimed_le_cap := h.claimed_le
  totalClaimed_eq := h.totalClaimed_eq
  claimed_le_committed := within
  backed early := Nat.sub_le_iff_le_add.mpr (h.backed early)
  payouts_eq b e := (h.paid_eq b e).trans (h.largest_eq b e).symm
  largest_eq := h.largest_eq

/-- A successful claim pays the borrower what it adds to the claimed amount, and records it. -/
def paysDifference (b e : Address) (cumulative : ℕ) (w w' : BorrowerCashback.World) : Prop :=
  w'.claimed b e = cumulative ∧
    w'.usdg.balanceOf b = w.usdg.balanceOf b + (cumulative - w.claimed b e) ∧
    w'.log = ⟨b, e, cumulative, cumulative - w.claimed b e⟩ :: w.log

theorem BorrowerCashback.Paid.paysDifference {b e : Address} {cumulative : ℕ}
    {w w' : BorrowerCashback.World} (p : BorrowerCashback.Paid b e cumulative w w') :
    paysDifference b e cumulative w w' := by
  refine ⟨?_, p.received, ?_⟩
  · rw [p.books]
    exact updatePair_same ..
  · rw [p.books]

/-- In every reachable state of either contract the reserved budget is funded, claims are within
their caps and only grow, and every claim that is proved and within its caps is paid to a borrower
other than the contract. -/
theorem cashback_budget_safe :
    (∀ w, BorrowerCashback.Reachable w →
      BudgetSafe w ∧ w.totalCommitted = ∑ b, ∑ e, w.cap b e ∧
      (∀ ops w', Run (accepts BorrowerCashback.exec) w ops w' →
        ∀ b e, w.claimed b e ≤ w'.claimed b e) ∧
      (∀ sender root b e cumulative proof w',
        BorrowerCashback.exec (.claim sender root b e cumulative proof) w = .ok w' →
        paysDifference b e cumulative w w') ∧
      ∀ sender root b e cumulative proof, sender ≠ w.self → w.now ≤ w.cfg.claimDeadline →
        BorrowerCashback.proves root b e cumulative proof w = true →
        w.claimed b e < cumulative → cumulative ≤ w.cap b e → b ≠ w.self →
        ∃ w', BorrowerCashback.exec (.claim sender root b e cumulative proof) w = .ok w') ∧
    (∀ w, PublicBorrowerCashback.Reachable w →
      BudgetSafe w.campaign ∧
      w.campaign.totalCommitted =
        PublicBorrowerCashback.WALLET_CAP * (univ.filter fun b => w.joined b = true).card ∧
      w.campaign.totalFunded ≤ PublicBorrowerCashback.BUDGET_CAP ∧
      (∀ b, w.walletClaimed b = ∑ e, w.campaign.claimed b e ∧
        w.walletClaimed b ≤ PublicBorrowerCashback.WALLET_CAP) ∧
      (∀ ops w', Run (accepts PublicBorrowerCashback.exec) w ops w' →
        ∀ b e, w.campaign.claimed b e ≤ w'.campaign.claimed b e) ∧
      (∀ sender root b e cumulative proof w',
        PublicBorrowerCashback.exec (.claim sender root b e cumulative proof) w = .ok w' →
        paysDifference b e cumulative w.campaign w'.campaign) ∧
      ∀ sender root b e cumulative proof, sender ≠ w.self → w.now ≤ w.cfg.claimDeadline →
        BorrowerCashback.proves root b e cumulative proof w.campaign = true →
        w.campaign.claimed b e < cumulative → cumulative ≤ w.campaign.cap b e →
        cumulative - w.campaign.claimed b e ≤
          PublicBorrowerCashback.WALLET_CAP - w.walletClaimed b → b ≠ w.self →
        ∃ w', PublicBorrowerCashback.exec (.claim sender root b e cumulative proof) w = .ok w') := by
  refine ⟨fun w reachable => ?_, fun w reachable => ?_⟩
  · have h := reachable.budgeted
    refine ⟨.of_sound h.toSound h.claimed_le_committed, h.committed_eq,
      fun ops w' run => (h.run run).2, fun sender root b e cumulative proof w' done => ?_,
      fun sender root b e cumulative proof away early valid more within other => ?_⟩
    · simp only [BorrowerCashback.exec, bind_eq_ok] at done
      obtain ⟨-, -, done⟩ := done
      exact (BorrowerCashback.claim_ok done).paysDifference
    · obtain ⟨w', done, -⟩ := h.claim_paid early valid more within other (h.room more within)
      refine ⟨w', ?_⟩
      simp only [BorrowerCashback.exec, bind_eq_ok, revertIf_eq_ok, exists_const,
        BorrowerCashback.Op.sender, Option.some.injEq]
      exact ⟨away, done⟩
  · have h := reachable.budgeted
    refine ⟨.of_sound h.toSound h.claimed_le_committed, h.committed_eq_joined, h.funded_le,
      fun b => ⟨h.wallet_eq b, (h.wallet_le b).trans ?_⟩, fun ops w' run => (h.run run).2,
      fun sender root b e cumulative proof w' done => ?_,
      fun sender root b e cumulative proof away early valid more within wallet other => ?_⟩
    · exact PublicBorrowerCashback.reserved_le ..
    · simp only [PublicBorrowerCashback.exec, bind_eq_ok] at done
      obtain ⟨-, -, done⟩ := done
      exact (PublicBorrowerCashback.claim_budgeted h done).2.paysDifference
    · obtain ⟨campaign, done, -⟩ :=
        h.toSound.claim_paid early valid more within other (h.room more within wallet)
      have below : w.walletClaimed b ≤ PublicBorrowerCashback.WALLET_CAP :=
        (h.wallet_le b).trans (h.joined more within).le
      simp only [PublicBorrowerCashback.exec, PublicBorrowerCashback.run,
        PublicBorrowerCashback.claim, PublicBorrowerCashback.inherited, bind_eq_ok, revertIf_eq_ok,
        exists_const, checkedSub_eq_ok, pure_eq_ok, PublicBorrowerCashback.Op.sender,
        Option.some.injEq, not_le, not_lt]
      exact ⟨_, away, more, _, ⟨below, rfl⟩, wallet, campaign, done, rfl⟩

/-! A campaign with one enrolled borrower, and a public one that the same borrower joined. A proof
is empty: the tree has the one leaf that is its root. -/

namespace BorrowerCashback

def sampleConfig : Config where
  self := 300
  operator := 301
  treasury := 302
  startsAt := 100
  endsAt := 210
  settlementDeadline := 320
  claimDeadline := 430
  leaf _ _ cumulative := BitVec.ofNat 256 (cumulative + 1)
  verifyCalldata proof root leaf := proof.isEmpty && root == leaf
  operator_ne_zero := by decide
  treasury_ne_zero := by decide
  starts_lt_ends := by decide
  ends_le_settlement := by decide
  settlement_lt_claim := by decide

def sampleStart : World := constructed sampleConfig 90 .empty

def sampleOps : List Op :=
  [ .usdg (.mint 303 (10 ^ 9)), .usdg (.approve 303 300 (10 ^ 9)), .fund 303 (9 * 10 ^ 8),
    .enroll 301 304 305 (5 * 10 ^ 7), .elapse 30, .publish 301 (10 ^ 7 + 1) 1 1,
    .publish 301 (5 * 10 ^ 7 + 1) 2 2, .claim 303 (10 ^ 7 + 1) 304 305 (10 ^ 7) [] ]

def sample : World := reached sampleStart (execAll exec sampleOps sampleStart)

theorem sample_reachable : Reachable sample :=
  ⟨sampleStart, sampleOps, ⟨by decide, fun _ => rfl, rfl⟩,
    run_of_execAll (eq_ok_reached _ (by decide +kernel))⟩

end BorrowerCashback

namespace PublicBorrowerCashback

def sampleStart : World :=
  ⟨BorrowerCashback.sampleStart, ⟨[305, 306], by decide, by decide, by decide⟩, fun _ => false,
    fun _ => 0⟩

def sampleOps : List Op :=
  [ .usdg (.mint 303 (10 ^ 9)), .usdg (.approve 303 300 (10 ^ 9)), .fund 303 (9 * 10 ^ 8),
    .elapse 30, .join 304, .publish 301 (10 ^ 7 + 1) 1 1,
    .claim 303 (10 ^ 7 + 1) 304 305 (10 ^ 7) [] ]

def sample : World := reached sampleStart (execAll exec sampleOps sampleStart)

theorem sample_reachable : Reachable sample :=
  ⟨sampleStart, sampleOps, ⟨⟨by decide, fun _ => rfl, rfl⟩, fun _ => rfl, fun _ => rfl⟩,
    run_of_execAll (eq_ok_reached _ (by decide +kernel))⟩

end PublicBorrowerCashback

/-- The borrower's second claim of the pilot is paid, and so is one in the other public market. -/
theorem sample_cashback_budget_safe :
    (∃ w', BorrowerCashback.exec (.claim 303 (5 * 10 ^ 7 + 1) 304 305 (5 * 10 ^ 7) [])
      BorrowerCashback.sample = .ok w') ∧
    ∃ w', PublicBorrowerCashback.exec (.claim 303 (10 ^ 7 + 1) 304 306 (10 ^ 7) [])
      PublicBorrowerCashback.sample = .ok w' :=
  ⟨(cashback_budget_safe.1 _ BorrowerCashback.sample_reachable).2.2.2.2 303 (5 * 10 ^ 7 + 1) 304 305
      (5 * 10 ^ 7) [] (by decide +kernel) (by decide +kernel) (by decide +kernel)
      (by decide +kernel) (by decide +kernel) (by decide +kernel),
    (cashback_budget_safe.2 _ PublicBorrowerCashback.sample_reachable).2.2.2.2.2.2 303 (10 ^ 7 + 1)
      304 306 (10 ^ 7) [] (by decide +kernel) (by decide +kernel) (by decide +kernel)
      (by decide +kernel) (by decide +kernel) (by decide +kernel) (by decide +kernel)⟩

end Turret
