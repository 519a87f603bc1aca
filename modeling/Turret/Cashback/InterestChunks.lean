import Turret.Cashback.Accounting

/-! The chunks of accrued interest. An accrual adds exactly the principal times
the rate times the seconds, however the boundaries cut it; a payment takes
exactly what it pays, oldest first, and its loop never fails on chunks in
which the eligible part is within the total. -/

namespace Turret.Cashback

open Execution Function Uint256

variable {policy : Policy} {apr timestamp : ℕ} {p q : Position} {chunks : List Chunk}

/-- A chunk that the loop may divide by. -/
structure Chunk.Valid (c : Chunk) : Prop where
  total_pos : 0 < c.total
  eligible_le : c.eligible ≤ c.total

def ValidChunks (chunks : List Chunk) : Prop := ∀ c ∈ chunks, c.Valid

@[simp] theorem unpaid_nil : unpaid [] = 0 := rfl

@[simp] theorem unpaid_cons (c : Chunk) : unpaid (c :: chunks) = c.total + unpaid chunks := by
  simp [unpaid]

@[simp] theorem unpaid_append (later : List Chunk) :
    unpaid (chunks ++ later) = unpaid chunks + unpaid later := by
  simp [unpaid]

@[simp] theorem unpaidEligible_cons (c : Chunk) :
    unpaidEligible (c :: chunks) = c.eligible + unpaidEligible chunks := by
  simp [unpaidEligible]

theorem ValidChunks.tail {c : Chunk} (h : ValidChunks (c :: chunks)) : ValidChunks chunks :=
  fun d mem => h d (List.mem_cons_of_mem _ mem)

theorem ValidChunks.append {later : List Chunk} (h : ValidChunks chunks) (k : ValidChunks later) :
    ValidChunks (chunks ++ later) := by
  intro c mem
  rcases List.mem_append.mp mem with old | new
  · exact h c old
  · exact k c new

/-! ### Consumption -/

/-- What is left of a chunk that is not used up. -/
theorem Chunk.Valid.left {c : Chunk} (h : c.Valid) {used : ℕ} (less : used < c.total) :
    Chunk.Valid ⟨c.total - used, c.eligible - c.eligible * used / c.total⟩ := by
  refine ⟨Nat.sub_pos_of_lt less, ?_⟩
  have share : c.eligible + used - c.total ≤ c.eligible * used / c.total := by
    rw [Nat.le_div_iff_mul_le h.total_pos]
    rcases le_total c.total (c.eligible + used) with long | short
    · obtain ⟨rest, hrest⟩ := Nat.exists_eq_add_of_le h.eligible_le
      obtain ⟨free, hfree⟩ := Nat.exists_eq_add_of_le less.le
      have gap : c.eligible + used - c.total = c.eligible - free := by omega
      have within : free ≤ c.eligible := by omega
      obtain ⟨extra, hextra⟩ := Nat.exists_eq_add_of_le within
      have used_eq : used = extra + rest := by omega
      rw [gap, hextra, Nat.add_sub_cancel_left, used_eq]
      have total_eq : c.total = free + extra + rest := by omega
      rw [total_eq]
      nlinarith [Nat.zero_le (free * rest)]
    · rw [Nat.sub_eq_zero_of_le short, Nat.zero_mul]
      exact Nat.zero_le _
  show c.eligible - c.eligible * used / c.total ≤ c.total - used
  omega

/-- What a run of the loop gives: nothing is lost, and the eligible part is within the paid. -/
structure Consumed (remaining : ℕ) (before after : List Chunk) (eligible : ℕ) : Prop where
  total_eq : remaining + unpaid after = unpaid before
  eligible_eq : eligible + unpaidEligible after = unpaidEligible before
  eligible_le : eligible ≤ remaining
  valid : ValidChunks after

theorem consumeLoop_ok {remaining : ℕ} (valid : ValidChunks chunks)
    (enough : remaining ≤ unpaid chunks) :
    ∃ after eligible, consumeLoop remaining chunks = .ok (after, eligible) ∧
      Consumed remaining chunks after eligible := by
  induction remaining, chunks using consumeLoop.induct with
  | case1 chunks =>
    refine ⟨chunks, 0, by rw [consumeLoop.eq_def, if_pos rfl], ?_⟩
    exact ⟨Nat.zero_add _, Nat.zero_add _, le_rfl, valid⟩
  | case2 remaining positive =>
    rw [unpaid_nil] at enough
    omega
  | case3 remaining positive chunk rest empty =>
    exact absurd empty (valid chunk List.mem_cons_self).total_pos.ne'
  | case4 remaining positive chunk rest full used eligible left ih =>
    have first := valid chunk List.mem_cons_self
    have share : eligible ≤ used := by
      have bound := Nat.mul_le_mul_right used first.eligible_le
      exact Nat.div_le_of_le_mul bound
    have part : eligible ≤ chunk.eligible := by
      have bound := Nat.mul_le_mul_left chunk.eligible (Nat.min_le_right remaining chunk.total)
      exact Nat.div_le_of_le_mul (by rwa [Nat.mul_comm chunk.total])
    have within : used ≤ chunk.total := Nat.min_le_right ..
    have paid : used ≤ remaining := Nat.min_le_left ..
    rw [unpaid_cons] at enough
    by_cases done : chunk.total - used = 0
    · rw [dif_pos done] at ih
      obtain ⟨after, later, looped, consumed⟩ := ih valid.tail (by omega)
      refine ⟨after, eligible + later, ?_, ?_, ?_, ?_, consumed.valid⟩
      · rw [consumeLoop, if_neg positive]
        simp only [if_neg full, used, eligible] at looped done ⊢
        simp only [if_pos done, looped, ok_bind]
        rfl
      · have rest_eq := consumed.total_eq
        rw [unpaid_cons]
        omega
      · have rest_eq := consumed.eligible_eq
        have whole : eligible = chunk.eligible := by
          have all : used = chunk.total := by omega
          show chunk.eligible * used / chunk.total = chunk.eligible
          rw [all, Nat.mul_div_cancel _ first.total_pos]
        rw [unpaidEligible_cons]
        omega
      · have bound := consumed.eligible_le
        omega
    · rw [dif_neg done] at ih
      have kept : ValidChunks (left :: rest) := by
        intro c mem
        rcases List.mem_cons.mp mem with rfl | old
        · exact first.left (by omega)
        · exact valid.tail c old
      have total_left : left.total = chunk.total - used := rfl
      have eligible_left : left.eligible = chunk.eligible - eligible := rfl
      obtain ⟨after, later, looped, consumed⟩ := ih kept (by rw [unpaid_cons]; omega)
      refine ⟨after, eligible + later, ?_, ?_, ?_, ?_, consumed.valid⟩
      · rw [consumeLoop, if_neg positive]
        simp only [if_neg full, used, eligible, left] at looped done ⊢
        simp only [if_neg done, looped, ok_bind]
        rfl
      · have rest_eq := consumed.total_eq
        rw [unpaid_cons] at rest_eq ⊢
        omega
      · have rest_eq := consumed.eligible_eq
        rw [unpaidEligible_cons] at rest_eq ⊢
        omega
      · have bound := consumed.eligible_le
        omega

/-- A payment within the accrual always succeeds. -/
theorem consumeInterest_ok {paid : ℕ} {earns : Bool} (valid : ValidChunks p.accrual)
    (enough : paid * INTEREST_DENOMINATOR ≤ unpaid p.accrual) :
    ∃ after eligible, Consumed (paid * INTEREST_DENOMINATOR) p.accrual after eligible ∧
      consumeInterest paid earns p = .ok { p with
        accrual := after
        eligiblePaid := if earns then p.eligiblePaid + eligible else p.eligiblePaid } := by
  obtain ⟨after, eligible, looped, consumed⟩ := consumeLoop_ok valid enough
  refine ⟨after, eligible, consumed, ?_⟩
  simp only [consumeInterest, bind_eq_ok, revertIf_eq_ok]
  exact ⟨(), Nat.not_lt.mpr enough, _, looped, rfl⟩

theorem consumeInterest_inv {paid : ℕ} {earns : Bool} (valid : ValidChunks p.accrual)
    (done : consumeInterest paid earns p = .ok q) :
    ∃ after eligible, Consumed (paid * INTEREST_DENOMINATOR) p.accrual after eligible ∧
      q = { p with
        accrual := after
        eligiblePaid := if earns then p.eligiblePaid + eligible else p.eligiblePaid } := by
  have enough : paid * INTEREST_DENOMINATOR ≤ unpaid p.accrual := by
    simp only [consumeInterest, bind_eq_ok, revertIf_eq_ok] at done
    obtain ⟨-, within, -⟩ := done
    exact Nat.not_lt.mp within
  obtain ⟨after, eligible, consumed, same⟩ := consumeInterest_ok valid enough
  exact ⟨after, eligible, consumed, Except.ok.inj (done.symm.trans same)⟩

/-! ### Accrual -/

theorem validChunks_accrueBetween (h : p.eligiblePrincipal ≤ p.principal) (times : List ℕ) :
    ValidChunks (accrueBetween policy apr p times) := by
  induction times with
  | nil => exact fun c mem => absurd mem List.not_mem_nil
  | cons start rest ih =>
    cases rest with
    | nil => exact fun c mem => absurd mem List.not_mem_nil
    | cons stop rest =>
      rw [accrueBetween]
      split_ifs with positive inside
      · intro c mem
        rcases List.mem_cons.mp mem with rfl | later
        · exact ⟨positive, Nat.mul_le_mul_right _ h⟩
        · exact ih c later
      · intro c mem
        rcases List.mem_cons.mp mem with rfl | later
        · exact ⟨positive, Nat.zero_le _⟩
        · exact ih c later
      · exact ih

theorem accrue_ok (done : accrue policy apr timestamp p = .ok q) :
    p.updatedAt ≤ timestamp ∧ q = { p with
      accrual := p.accrual ++
        accrueBetween policy apr p (boundaries policy p.updatedAt timestamp)
      updatedAt := timestamp } := by
  simp only [accrue, bind_eq_ok, revertIf_eq_ok, pure_eq_ok, Nat.not_lt] at done
  obtain ⟨-, order, rfl⟩ := done
  exact ⟨order, rfl⟩

end Turret.Cashback
