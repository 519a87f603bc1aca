import Turret.Cashback.InterestChunks

/-! The books of a replay. What an event does to its account is said once:
enrollments stay, paid interest and awards only grow, and a wallet's awards are
the sum of its accounts', within the public cap. -/

namespace Turret.Cashback

open Execution Function Uint256

variable {policy : Policy} {walletCap : Option ℕ} {apr timestamp : ℕ} {p q r : Position}
  {used used' used'' : ℤ} {paid paid' : ℕ} {s s' : Replay}

structure Position.Sound (walletCap : Option ℕ) (p : Position) : Prop where
  eligible_le : p.eligiblePrincipal ≤ p.principal
  valid : ValidChunks p.accrual
  confirmed_nonneg : 0 ≤ p.confirmed
  confirmed_le : p.confirmed ≤ rebateOf p.eligiblePaid
  capped : ∀ cap, walletCap = some cap →
    p.confirmed ≤ cap ∧ ∀ enrollment, p.enrollment = some enrollment → enrollment.cap = cap

theorem Position.sound_opened (timestamp : ℕ) : (Position.opened timestamp).Sound walletCap where
  eligible_le := le_rfl
  valid := fun _ mem => absurd mem List.not_mem_nil
  confirmed_nonneg := le_rfl
  confirmed_le := Int.natCast_nonneg _
  capped := fun cap _ => ⟨Int.natCast_nonneg cap, fun _ h => by cases h⟩

theorem rebateOf_mono {a b : ℕ} (h : a ≤ b) : rebateOf a ≤ rebateOf b :=
  Nat.div_le_div_right (Nat.mul_le_mul_right _ h)

/-- What happens to an account and to its wallet's awards; at most `paid` units of interest are
paid that may earn. -/
structure Moves (walletCap : Option ℕ) (paid : ℕ) (p : Position) (used : ℤ) (q : Position)
    (used' : ℤ) : Prop where
  sound : q.Sound walletCap
  enrolled : ∀ enrollment, p.enrollment = some enrollment → q.enrollment = some enrollment
  paid_le : p.eligiblePaid ≤ q.eligiblePaid
  paid_within : q.eligiblePaid ≤ p.eligiblePaid + paid
  confirmed_le : p.confirmed ≤ q.confirmed
  used_eq : used' - used = q.confirmed - p.confirmed
  used_le : ∀ cap, walletCap = some cap → used' ≤ cap

theorem Moves.trans (h : Moves walletCap paid p used q used')
    (k : Moves walletCap paid' q used' r used'') :
    Moves walletCap (paid + paid') p used r used'' where
  sound := k.sound
  enrolled := fun enrollment same => k.enrolled _ (h.enrolled _ same)
  paid_le := h.paid_le.trans k.paid_le
  paid_within := by
    have first := h.paid_within
    have second := k.paid_within
    omega
  confirmed_le := h.confirmed_le.trans k.confirmed_le
  used_eq := by
    have first := h.used_eq
    have second := k.used_eq
    omega
  used_le := k.used_le

theorem Moves.mono (h : Moves walletCap paid p used q used') (le : paid ≤ paid') :
    Moves walletCap paid' p used q used' :=
  { h with paid_within := h.paid_within.trans (Nat.add_le_add_left le _) }

section Events

variable (h : p.Sound walletCap) (within : ∀ cap, walletCap = some cap → used ≤ cap)

include h within

/-- A step that pays and awards nothing and keeps the enrollment. -/
theorem moves_of_kept (eligible_le : q.eligiblePrincipal ≤ q.principal)
    (valid : ValidChunks q.accrual) (enrollment : q.enrollment = p.enrollment)
    (paid : q.eligiblePaid = p.eligiblePaid) (confirmed : q.confirmed = p.confirmed) :
    Moves walletCap 0 p used q used where
  sound :=
    { eligible_le, valid
      confirmed_nonneg := confirmed ▸ h.confirmed_nonneg
      confirmed_le := confirmed ▸ paid ▸ h.confirmed_le
      capped := confirmed ▸ enrollment ▸ h.capped }
  enrolled := fun _ same => enrollment.trans same
  paid_le := paid.ge
  paid_within := paid.le
  confirmed_le := confirmed.ge
  used_eq := by rw [confirmed, sub_self, sub_self]
  used_le := within

theorem moves_accrue (done : accrue policy apr timestamp p = .ok q) :
    Moves walletCap 0 p used q used := by
  obtain ⟨-, rfl⟩ := accrue_ok done
  refine moves_of_kept h within h.eligible_le ?_ rfl rfl rfl
  exact h.valid.append (validChunks_accrueBetween h.eligible_le _)

theorem moves_onEnrolled {startsAt : ℕ} {cap : ℤ}
    (done : onEnrolled policy walletCap timestamp startsAt cap p = .ok q) :
    Moves walletCap 0 p used q used := by
  simp only [onEnrolled, bind_eq_ok, revertIf_eq_ok, pure_eq_ok, not_or] at done
  obtain ⟨n, -, -, ⟨fresh, -⟩, -, matching, rfl⟩ := done
  have unenrolled : p.enrollment = none := by simpa using fresh
  refine ⟨⟨h.eligible_le, h.valid, h.confirmed_nonneg, h.confirmed_le, fun c hc => ?_⟩,
    fun e same => ?_, le_rfl, le_rfl, le_rfl, by rw [sub_self, sub_self], within⟩
  · refine ⟨(h.capped c hc).1, fun e same => ?_⟩
    obtain rfl := Option.some.inj same
    rw [hc] at matching
    by_contra ne
    exact matching ⟨rfl, fun eq => ne (Option.some.inj eq).symm⟩
  · rw [unenrolled] at same
    cases same

theorem moves_onBorrowed {amount : ℤ} (done : onBorrowed policy timestamp amount p = .ok q) :
    Moves walletCap 0 p used q used := by
  simp only [onBorrowed, bind_eq_ok, pure_eq_ok] at done
  obtain ⟨drawn, -, rfl⟩ := done
  refine moves_of_kept h within ?_ h.valid rfl rfl rfl
  have le := h.eligible_le
  dsimp only
  split_ifs
  · exact Nat.add_le_add_right le _
  · exact le.trans (Nat.le_add_right ..)

theorem moves_onPositionLoss {principal interest : ℤ}
    (done : onPositionLoss principal interest p = .ok q) : Moves walletCap 0 p used q used := by
  simp only [onPositionLoss, bind_eq_ok, pure_eq_ok] at done
  obtain ⟨-, -, -, -, -, -, -, -, rfl⟩ := done
  exact moves_of_kept h within le_rfl (fun c mem => absurd mem List.not_mem_nil) rfl rfl rfl

theorem moves_repayPrincipal {principal : ℕ} (done : repayPrincipal principal p = .ok q) :
    Moves walletCap 0 p used q used := by
  simp only [repayPrincipal, bind_eq_ok, pure_eq_ok] at done
  obtain ⟨-, -, -, -, rfl⟩ := done
  refine moves_of_kept h within ?_ ?_ rfl rfl rfl
  · have le := h.eligible_le
    dsimp only
    omega
  · dsimp only
    split_ifs
    · exact fun c mem => absurd mem List.not_mem_nil
    · exact h.valid

theorem moves_consumeInterest {n : ℕ} {earns : Bool} (done : consumeInterest n earns p = .ok q) :
    Moves walletCap (if earns then n * INTEREST_DENOMINATOR else 0) p used q used := by
  obtain ⟨after, eligible, consumed, rfl⟩ := consumeInterest_inv h.valid done
  have part := consumed.eligible_le
  have grown : p.eligiblePaid ≤ if earns then p.eligiblePaid + eligible else p.eligiblePaid := by
    split_ifs <;> omega
  refine
    { sound :=
        { eligible_le := h.eligible_le
          valid := consumed.valid
          confirmed_nonneg := h.confirmed_nonneg
          confirmed_le := h.confirmed_le.trans (Int.ofNat_le.mpr (rebateOf_mono grown))
          capped := h.capped }
      enrolled := fun _ same => same
      paid_le := grown
      paid_within := ?_
      confirmed_le := le_rfl
      used_eq := by rw [sub_self, sub_self]
      used_le := within }
  dsimp only
  split_ifs
  · exact Nat.add_le_add_left part _
  · exact le_rfl

/-- An award is not negative and stays within the cap of the wallet. -/
theorem moves_award : Moves walletCap 0 p used (award walletCap used p).1
    (award walletCap used p).2 := by
  unfold award
  split
  · rename_i cap enrollment enrolled
    have small := within cap rfl
    obtain ⟨own, sameCap⟩ := h.capped cap rfl
    have earned := h.confirmed_le
    have nonneg := h.confirmed_nonneg
    refine
      { sound :=
          { eligible_le := h.eligible_le
            valid := h.valid
            confirmed_nonneg := ?_
            confirmed_le := ?_
            capped := fun c hc => ⟨?_, ?_⟩ }
        enrolled := fun _ same => same
        paid_le := le_rfl
        paid_within := le_rfl
        confirmed_le := ?_
        used_eq := ?_
        used_le := fun c hc => ?_ }
    · dsimp only
      omega
    · dsimp only
      omega
    · obtain rfl := Option.some.inj hc
      dsimp only
      omega
    · obtain rfl := Option.some.inj hc
      exact sameCap
    · dsimp only
      omega
    · dsimp only
      omega
    · obtain rfl := Option.some.inj hc
      dsimp only
      omega
  · exact moves_of_kept h within h.eligible_le h.valid rfl rfl rfl

end Events

/-- The units of interest of an event that count as voluntarily repaid by an account. -/
def voluntary (policy : Policy) (timestamp : ℕ) (liquidated : List (Address × Address))
    (key : Address × Address) : Event → ℕ
  | .repaid borrower engine _ interest =>
    if key = (borrower, engine) ∧ key ∉ liquidated ∧ timestamp ≤ policy.settlementDeadline then
      interest.toNat
    else 0
  | _ => 0

theorem amount_ok {value : ℤ} {n : ℕ} (done : amount value = .ok n) : n = value.toNat := by
  unfold amount at done
  split_ifs at done
  exact (Except.ok.inj done).symm

theorem moves_onRepaid (h : p.Sound walletCap)
    (within : ∀ cap, walletCap = some cap → used ≤ cap) {liquidated : Bool}
    {principal interest : ℤ}
    (done : onRepaid policy walletCap timestamp used liquidated principal interest p =
      .ok (q, used')) :
    Moves walletCap
      (if !liquidated && decide (timestamp ≤ policy.settlementDeadline) then
        interest.toNat * INTEREST_DENOMINATOR else 0) p used q used' := by
  simp only [onRepaid, bind_eq_ok, pure_eq_ok, Prod.mk.injEq] at done
  obtain ⟨_, -, n, word, p₁, consumed, p₂, repaid, rfl, rfl⟩ := done
  obtain rfl := amount_ok word
  have first := moves_consumeInterest h within consumed
  have second := moves_award first.sound first.used_le
  have third := moves_repayPrincipal second.sound second.used_le repaid
  refine ((first.trans second).trans third).mono ?_
  cases p.enrollment.isSome <;> simp

theorem moves_onEvent (h : p.Sound walletCap)
    (within : ∀ cap, walletCap = some cap → used ≤ cap) {liquidated : List (Address × Address)}
    {event : Event} {key : Address × Address} (own : event.key = some key)
    (done : onEvent policy walletCap timestamp liquidated used p event = .ok (q, used')) :
    Moves walletCap (INTEREST_DENOMINATOR * voluntary policy timestamp liquidated key event) p used
      q used' := by
  cases event with
  | enrolled borrower engine cap startsAt =>
    simp only [onEvent, bind_eq_ok, pure_eq_ok, Prod.mk.injEq] at done
    obtain ⟨_, step, rfl, rfl⟩ := done
    exact moves_onEnrolled h within step
  | borrowed borrower engine amount =>
    simp only [onEvent, bind_eq_ok, pure_eq_ok, Prod.mk.injEq] at done
    obtain ⟨_, step, rfl, rfl⟩ := done
    exact moves_onBorrowed h within step
  | repaid borrower engine principal interest =>
    obtain rfl : (borrower, engine) = key := Option.some.inj own
    refine (moves_onRepaid h within done).mono ?_
    rw [voluntary]
    by_cases hl : (borrower, engine) ∈ liquidated <;>
      by_cases ht : timestamp ≤ policy.settlementDeadline <;>
      simp [hl, ht, Nat.mul_comm]
  | positionLoss borrower engine principal interest =>
    simp only [onEvent, bind_eq_ok, pure_eq_ok, Prod.mk.injEq] at done
    obtain ⟨_, step, rfl, rfl⟩ := done
    exact moves_onPositionLoss h within step
  | liquidated borrower engine => cases own
  | published root throughBlock blockHash => cases own

end Turret.Cashback
