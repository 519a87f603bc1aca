import Turret.Cashback.Entitlements

/-! The replay of a single covered loan. Its interest accrues in a chunk up to the
end of the campaign and one after it, a payment of the whole units takes the
first before the second, and the rebate is that of the first as a whole. -/

namespace Turret.Cashback

open Execution Function Uint256

variable {policy : Policy} {walletCap : Option ℕ} {apr timestamp now seconds : ℕ}
  {chunks : List Chunk} {p q : Position} {s t : Replay} {b e : Address}

/-! ### Chunks of a covered loan -/

/-- The eligible chunks come first, and a chunk is eligible as a whole or not at all. -/
structure EligibleFirst (chunks : List Chunk) : Prop where
  whole : ∀ c ∈ chunks, c.eligible = c.total ∨ c.eligible = 0
  order : chunks.Pairwise fun c d => c.eligible = 0 → d.eligible = 0

theorem unpaidEligible_eq_zero (h : ∀ c ∈ chunks, c.eligible = 0) : unpaidEligible chunks = 0 := by
  induction chunks with
  | nil => rfl
  | cons c rest ih =>
    rw [unpaidEligible_cons, h c List.mem_cons_self,
      ih fun d mem => h d (List.mem_cons_of_mem _ mem)]

/-- The loop pays the eligible interest before any other. -/
theorem consumeLoop_eligible {remaining paid : ℕ} {after : List Chunk}
    (first : EligibleFirst chunks) (valid : ValidChunks chunks)
    (looped : consumeLoop remaining chunks = .ok (after, paid)) :
    paid = min remaining (unpaidEligible chunks) := by
  induction remaining, chunks using consumeLoop.induct generalizing after paid with
  | case1 chunks =>
    rw [consumeLoop.eq_def, if_pos rfl] at looped
    obtain ⟨-, rfl⟩ := Prod.mk.inj (Except.ok.inj looped)
    rw [Nat.zero_min]
  | case2 remaining positive =>
    rw [consumeLoop.eq_def, if_neg positive] at looped
    cases looped
  | case3 remaining positive chunk rest empty =>
    exact absurd empty (valid chunk List.mem_cons_self).total_pos.ne'
  | case4 remaining positive chunk rest full used eligible =>
    rename_i left ih
    have within : used ≤ chunk.total := Nat.min_le_right ..
    have least : used = min remaining chunk.total := rfl
    have rest_first : EligibleFirst rest :=
      ⟨fun c mem => first.whole c (List.mem_cons_of_mem _ mem), (List.pairwise_cons.mp first.order).2⟩
    rw [unpaidEligible_cons]
    rw [consumeLoop, if_neg positive, if_neg full] at looped
    simp only [bind_eq_ok, pure_eq_ok, Prod.exists, Prod.mk.injEq] at looped
    obtain ⟨_, later, looped, -, rfl⟩ := looped
    by_cases done : chunk.total - used = 0
    · rw [dif_pos done] at ih
      rw [if_pos done] at looped
      have paid_later : later = min (remaining - used) (unpaidEligible rest) :=
        ih rest_first valid.tail looped
      have all : used = chunk.total := by omega
      have eligible_eq : chunk.eligible * min remaining chunk.total / chunk.total = chunk.eligible := by
        rw [← least, all, Nat.mul_div_cancel _ (Nat.pos_of_ne_zero full)]
      rw [eligible_eq, paid_later]
      rcases first.whole chunk List.mem_cons_self with same | none
      · omega
      · have others : unpaidEligible rest = 0 := unpaidEligible_eq_zero fun d mem =>
          (List.pairwise_cons.mp first.order).1 d mem none
        omega
    · -- the chunk outlasts the payment
      have spent : remaining - used = 0 := by omega
      rw [spent, consumeLoop.eq_def, if_pos rfl] at looped
      obtain ⟨-, rfl⟩ := Prod.mk.inj (Except.ok.inj looped)
      rcases first.whole chunk List.mem_cons_self with same | none
      · rw [same, ← least, Nat.mul_div_cancel_left _ (Nat.pos_of_ne_zero full)]
        omega
      · have others : unpaidEligible rest = 0 := unpaidEligible_eq_zero fun d mem =>
          (List.pairwise_cons.mp first.order).1 d mem none
        rw [none, others, Nat.zero_mul, Nat.zero_div]
        omega

/-- A chunk that is kept unless it is empty. -/
def kept (c : Chunk) : List Chunk := if 0 < c.total then [c] else []

theorem mem_kept {c d : Chunk} : d ∈ kept c ↔ 0 < c.total ∧ d = c := by
  rw [kept]
  split_ifs with positive <;> simp [positive]

@[simp] theorem unpaid_kept (c : Chunk) : unpaid (kept c) = c.total := by
  rw [kept]
  split_ifs with positive
  · simp
  · simp only [unpaid_nil]
    omega

/-- The accrual of a loan that is covered from its draw to the end of the campaign. -/
def loanChunks (covered uncovered : ℕ) : List Chunk :=
  kept ⟨covered, covered⟩ ++ kept ⟨uncovered, 0⟩

theorem loanChunks_first (covered uncovered : ℕ) :
    EligibleFirst (loanChunks covered uncovered) := by
  constructor
  · intro c mem
    rcases List.mem_append.mp mem with mem | mem
    · obtain ⟨-, rfl⟩ := mem_kept.mp mem
      exact Or.inl rfl
    · obtain ⟨-, rfl⟩ := mem_kept.mp mem
      exact Or.inr rfl
  · refine List.pairwise_append.mpr ⟨?_, ?_, ?_⟩
    · rw [kept]
      split_ifs <;> simp
    · rw [kept]
      split_ifs <;> simp
    · intro c _ d mem _
      obtain ⟨-, rfl⟩ := mem_kept.mp mem
      rfl

theorem loanChunks_valid (covered uncovered : ℕ) : ValidChunks (loanChunks covered uncovered) := by
  intro c mem
  rcases List.mem_append.mp mem with mem | mem
  · obtain ⟨positive, rfl⟩ := mem_kept.mp mem
    exact ⟨positive, le_rfl⟩
  · obtain ⟨positive, rfl⟩ := mem_kept.mp mem
    exact ⟨positive, Nat.zero_le _⟩

theorem unpaid_loanChunks (covered uncovered : ℕ) :
    unpaid (loanChunks covered uncovered) = covered + uncovered := by
  rw [loanChunks, unpaid_append, unpaid_kept, unpaid_kept]

theorem unpaidEligible_loanChunks (covered uncovered : ℕ) :
    unpaidEligible (loanChunks covered uncovered) = covered := by
  simp only [loanChunks, kept, unpaidEligible]
  split_ifs with first second second
  · simp
  · simp
  · simp only [List.map_nil, List.nil_append, List.map_cons, List.sum_cons, List.sum_nil]
    omega
  · simp only [List.map_nil, List.append_nil, List.sum_nil]
    omega

/-- The boundaries of a loan that is drawn inside the campaign. -/
theorem boundaries_covered (started : policy.startsAt ≤ now) (running : now < policy.endsAt)
    {stop : ℕ} (order : now ≤ stop) :
    boundaries policy now stop =
      now :: ((if policy.startsAt = now then [now] else []) ++
        (if policy.endsAt ≤ stop then [policy.endsAt] else []) ++ [stop]) := by
  have filtered : [now, policy.startsAt, policy.endsAt, stop].filter
      (fun t => now ≤ t ∧ t ≤ stop) =
      now :: ((if policy.startsAt = now then [now] else []) ++
        (if policy.endsAt ≤ stop then [policy.endsAt] else []) ++ [stop]) := by
    by_cases first : policy.startsAt = now <;> by_cases last : policy.endsAt ≤ stop
    · simp [first, last, order, running.le]
    · simp [first, last, order]
    · have early : ¬now ≤ policy.startsAt := by omega
      simp [first, last, order, running.le, early]
    · have early : ¬now ≤ policy.startsAt := by omega
      simp [first, last, order, early]
  rw [boundaries, filtered]
  refine List.Pairwise.insertionSort_eq ?_
  split_ifs with first last last
  all_goals
    simp
    try omega

/-- A chunk between two boundaries is kept unless it is empty. -/
theorem accrueBetween_cons (start stop : ℕ) (rest : List ℕ) :
    accrueBetween policy apr p (start :: stop :: rest) =
      kept ⟨p.principal * ((stop - start) * apr),
        if policy.startsAt ≤ start ∧ stop ≤ policy.endsAt
        then p.eligiblePrincipal * ((stop - start) * apr) else 0⟩ ++
      accrueBetween policy apr p (stop :: rest) := by
  rw [accrueBetween, kept]
  split_ifs <;> rfl

theorem accrueBetween_single (stop : ℕ) : accrueBetween policy apr p [stop] = [] := rfl

theorem kept_empty (eligible : ℕ) : kept ⟨0, eligible⟩ = [] := rfl

theorem accrueBetween_covered (same : p.eligiblePrincipal = p.principal)
    (started : policy.startsAt ≤ now) (running : now < policy.endsAt) {stop : ℕ}
    (order : now ≤ stop) :
    accrueBetween policy apr p (boundaries policy now stop) =
      loanChunks (p.principal * ((min stop policy.endsAt - now) * apr))
        (p.principal * ((stop - policy.endsAt) * apr)) := by
  have again : accrueBetween policy apr p (now :: now ::
      ((if policy.endsAt ≤ stop then [policy.endsAt] else []) ++ [stop])) =
      accrueBetween policy apr p (now ::
        ((if policy.endsAt ≤ stop then [policy.endsAt] else []) ++ [stop])) := by
    rw [accrueBetween_cons, Nat.sub_self, Nat.zero_mul, Nat.mul_zero, kept_empty, List.nil_append]
  have once : accrueBetween policy apr p (boundaries policy now stop) =
      accrueBetween policy apr p (now ::
        ((if policy.endsAt ≤ stop then [policy.endsAt] else []) ++ [stop])) := by
    rw [boundaries_covered started running order]
    by_cases first : policy.startsAt = now
    · rw [if_pos first]
      exact again
    · rw [if_neg first]
      rfl
  rw [once]
  by_cases last : policy.endsAt ≤ stop
  · rw [if_pos last, List.singleton_append, accrueBetween_cons, accrueBetween_cons,
      accrueBetween_single, if_pos ⟨started, le_rfl⟩, same, Nat.min_eq_right last, List.append_nil]
    by_cases exact : policy.endsAt = stop
    · subst exact
      rw [Nat.sub_self, Nat.zero_mul, Nat.mul_zero, kept_empty, loanChunks, kept_empty]
    · have outside : ¬(policy.startsAt ≤ policy.endsAt ∧ stop ≤ policy.endsAt) := by omega
      rw [if_neg outside, loanChunks]
  · have inside : policy.startsAt ≤ now ∧ stop ≤ policy.endsAt := ⟨started, by omega⟩
    rw [if_neg last, List.nil_append, accrueBetween_cons, accrueBetween_single, if_pos inside, same,
      Nat.min_eq_left inside.2, Nat.sub_eq_zero_of_le inside.2, Nat.zero_mul, Nat.mul_zero,
      loanChunks, kept_empty]

/-! ### Rounding -/

theorem rebateOf_eq (n : ℕ) : rebateOf n = n / INTEREST_DENOMINATOR / 2 := by
  have scale : INTEREST_DENOMINATOR * 10000 = INTEREST_DENOMINATOR * 2 * 5000 := rfl
  rw [rebateOf, scale, Nat.mul_div_mul_right _ _ (by decide), Nat.div_div_eq_div_mul]

/-- Paying the whole units of a loan's interest earns the rebate on all that is covered. -/
theorem rebateOf_paid (covered uncovered : ℕ) :
    rebateOf (min ((covered + uncovered) / INTEREST_DENOMINATOR * INTEREST_DENOMINATOR) covered) =
      rebateOf covered := by
  have positive : 0 < INTEREST_DENOMINATOR := by decide
  rcases le_total covered
    ((covered + uncovered) / INTEREST_DENOMINATOR * INTEREST_DENOMINATOR) with all | less
  · rw [Nat.min_eq_right all]
  · have whole : covered / INTEREST_DENOMINATOR = (covered + uncovered) / INTEREST_DENOMINATOR :=
      le_antisymm (Nat.div_le_div_right (Nat.le_add_right ..))
        ((Nat.le_div_iff_mul_le positive).mpr less)
    rw [Nat.min_eq_left less, rebateOf_eq, rebateOf_eq, Nat.mul_div_cancel _ positive, whole]

/-- A payment of whole units that leaves less than one is determined. -/
theorem eq_div_of_rest {paid rest total : ℕ} (sum : paid * INTEREST_DENOMINATOR + rest = total)
    (small : rest < INTEREST_DENOMINATOR) : paid = total / INTEREST_DENOMINATOR := by
  rw [← sum, Nat.add_comm, Nat.add_mul_div_right _ _ (by decide), Nat.div_eq_of_lt small, zero_add]

/-! ### The steps of a loan -/

variable {startsAt cap principal interest covered uncovered stop : ℕ} {used : ℤ}

theorem amount_eq_ok (value : ℤ) (n : ℕ) : amount value = .ok n ↔ value = n ∧ n < MODULUS := by
  rw [amount]
  split_ifs with word
  · rw [Except.ok.injEq]
    omega
  · refine iff_of_false nofun fun same => word ?_
    omega

/-- The account of an enrolled wallet with a principal that is covered as a whole. -/
def loanAccount (timestamp startsAt cap principal : ℕ) (accrual : List Chunk) : Position :=
  ⟨principal, principal, timestamp, accrual, 0, 0, some ⟨startsAt, cap⟩⟩

theorem accrueBetween_idle (idle : p.principal = 0) (times : List ℕ) :
    accrueBetween policy apr p times = [] := by
  induction times with
  | nil => rfl
  | cons start rest ih =>
    cases rest with
    | nil => rfl
    | cons stop rest =>
      rw [accrueBetween_cons, ih, idle, Nat.zero_mul, kept_empty, List.nil_append]

theorem accrue_idle (idle : p.principal = 0) (order : p.updatedAt ≤ timestamp) :
    accrue policy apr timestamp p = .ok { p with updatedAt := timestamp } := by
  simp only [accrue, bind_eq_ok, revertIf_eq_ok, pure_eq_ok]
  refine ⟨(), not_lt.mpr order, ?_⟩
  rw [accrueBetween_idle idle, List.append_nil]

theorem accrue_loan (started : policy.startsAt ≤ now) (running : now < policy.endsAt)
    (order : now ≤ stop) :
    accrue policy apr stop (loanAccount now startsAt cap principal []) =
      .ok (loanAccount stop startsAt cap principal
        (loanChunks (principal * ((min stop policy.endsAt - now) * apr))
          (principal * ((stop - policy.endsAt) * apr)))) := by
  simp only [accrue, bind_eq_ok, revertIf_eq_ok, pure_eq_ok]
  refine ⟨(), not_lt.mpr order, ?_⟩
  have chunks : accrueBetween policy apr (loanAccount now startsAt cap principal [])
      (boundaries policy now stop) =
      loanChunks (principal * ((min stop policy.endsAt - now) * apr))
        (principal * ((stop - policy.endsAt) * apr)) :=
    accrueBetween_covered rfl started running order
  simp only [loanAccount] at chunks ⊢
  rw [chunks, List.nil_append]

theorem onEnrolled_opened {value : ℤ} :
    onEnrolled policy walletCap timestamp startsAt value (.opened timestamp) = .ok q ↔
      ∃ cap : ℕ, value = cap ∧ cap < MODULUS ∧ cap ≠ 0 ∧ startsAt = max timestamp policy.startsAt ∧
        timestamp < policy.endsAt ∧ (walletCap = none ∨ walletCap = some cap) ∧
        q = loanAccount timestamp startsAt cap 0 [] := by
  simp only [onEnrolled, bind_eq_ok, amount_eq_ok, revertIf_eq_ok, pure_eq_ok, Position.opened,
    Option.isSome_none, Bool.false_eq_true, false_or, not_or, not_le, exists_const, not_not,
    loanAccount, ne_eq, eq_comm (a := q)]
  refine exists_congr fun cap => ?_
  cases walletCap with
  | none => simp [and_assoc]
  | some c => simp [and_assoc]

theorem onBorrowed_loan {value : ℤ} (started : startsAt ≤ timestamp)
    (running : timestamp < policy.endsAt) :
    onBorrowed policy timestamp value (loanAccount timestamp startsAt cap 0 []) = .ok q ↔
      ∃ principal : ℕ, value = principal ∧ principal < MODULUS ∧
        q = loanAccount timestamp startsAt cap principal [] := by
  have own : covered policy timestamp (loanAccount timestamp startsAt cap 0 []) = true := by
    simp [Cashback.covered, loanAccount, started, running]
  simp only [onBorrowed, bind_eq_ok, amount_eq_ok, pure_eq_ok, own, if_true, and_assoc]
  simp only [loanAccount, Nat.zero_add, eq_comm (a := q)]

/-- A covered loan of which the interest is paid. -/
def paidAccount (timestamp startsAt cap principal : ℕ) (accrual : List Chunk) (paid : ℕ)
    (confirmed : ℤ) : Position :=
  ⟨principal, principal, timestamp, accrual, paid, confirmed, some ⟨startsAt, cap⟩⟩

/-- The interest of a covered loan is paid from what is covered first. -/
theorem consumeInterest_loan (enough : interest * INTEREST_DENOMINATOR ≤ covered + uncovered) :
    ∃ rest, interest * INTEREST_DENOMINATOR + unpaid rest = covered + uncovered ∧
      consumeInterest interest true
        (loanAccount stop startsAt cap principal (loanChunks covered uncovered)) =
        .ok (paidAccount stop startsAt cap principal rest
          (min (interest * INTEREST_DENOMINATOR) covered) 0) := by
  have valid := loanChunks_valid covered uncovered
  have total := unpaid_loanChunks covered uncovered
  obtain ⟨rest, eligible, looped, consumed⟩ := consumeLoop_ok valid (enough.trans_eq total.symm)
  have paid := consumeLoop_eligible (loanChunks_first covered uncovered) valid looped
  rw [unpaidEligible_loanChunks] at paid
  refine ⟨rest, consumed.total_eq.trans total, ?_⟩
  simp only [consumeInterest, bind_eq_ok, revertIf_eq_ok, pure_eq_ok]
  refine ⟨(), not_lt.mpr (enough.trans_eq total.symm), _, looped, ?_⟩
  simp [loanAccount, paidAccount, paid]

/-- The award of a wallet's first rebate is the rebate within the cap. -/
theorem award_loan (matching : walletCap = none ∨ walletCap = some cap) (paid : ℕ)
    (accrual : List Chunk) :
    ∃ confirmed used, award walletCap 0 (paidAccount stop startsAt cap principal accrual paid 0) =
        (paidAccount stop startsAt cap principal accrual paid confirmed, used) ∧
      (walletCap = none ∨ confirmed = min (cap : ℤ) (rebateOf paid)) := by
  rcases matching with rfl | rfl
  · exact ⟨0, 0, rfl, Or.inl rfl⟩
  · refine ⟨_, _, rfl, Or.inr ?_⟩
    simp only [paidAccount]
    omega

/-- What the full repayment of a covered loan leaves of its account. -/
structure RepaidLoan (walletCap : Option ℕ) (stop startsAt cap covered : ℕ) (p : Position) :
    Prop where
  principal : p.principal = 0
  updatedAt : p.updatedAt = stop
  enrolled : p.enrollment = some ⟨startsAt, cap⟩
  confirmed : confirmedOf walletCap cap p = min (cap : ℤ) (rebateOf covered)

theorem repayPrincipal_loan {accrual : List Chunk} {paid : ℕ} {confirmed : ℤ} :
    repayPrincipal principal (paidAccount stop startsAt cap principal accrual paid confirmed) =
        .ok q ↔
      (0 < principal → unpaid accrual < INTEREST_DENOMINATOR) ∧
      paidAccount stop startsAt cap 0
        (if unpaid accrual < INTEREST_DENOMINATOR then [] else accrual) paid confirmed = q := by
  simp only [repayPrincipal, bind_eq_ok, revertIf_eq_ok, pure_eq_ok]
  simp [paidAccount]

/-- A full repayment in time pays the whole units of the interest. -/
theorem onRepaid_loan (inTime : stop ≤ policy.settlementDeadline)
    (matching : walletCap = none ∨ walletCap = some cap)
    (empty : principal = 0 → covered + uncovered = 0) {principalValue interestValue : ℤ}
    (same : principalValue = principal)
    (done : onRepaid policy walletCap stop 0 false principalValue interestValue
      (loanAccount stop startsAt cap principal (loanChunks covered uncovered)) = .ok (q, used)) :
    interestValue = ((covered + uncovered) / INTEREST_DENOMINATOR : ℕ) ∧
      RepaidLoan walletCap stop startsAt cap covered q := by
  simp only [onRepaid, bind_eq_ok, amount_eq_ok, pure_eq_ok, Prod.mk.injEq] at done
  obtain ⟨n, ⟨isPrincipal, -⟩, i, ⟨isInterest, -⟩, p, paid, r, repaid, rfl, -⟩ := done
  obtain rfl : principal = n := by omega
  have earns : ((loanAccount stop startsAt cap principal
      (loanChunks covered uncovered)).enrollment.isSome && !false &&
        decide (stop ≤ policy.settlementDeadline)) = true := by
    simp [loanAccount, inTime]
  have enough : i * INTEREST_DENOMINATOR ≤ covered + uncovered := by
    simp only [consumeInterest, bind_eq_ok, revertIf_eq_ok, not_lt] at paid
    obtain ⟨-, within, -⟩ := paid
    exact within.trans_eq (unpaid_loanChunks covered uncovered)
  obtain ⟨rest, sum, consumed⟩ := consumeInterest_loan enough
  rw [earns, consumed] at paid
  obtain rfl := Except.ok.inj paid
  obtain ⟨confirmed, after, awarded, confirmed_eq⟩ :=
    award_loan matching (min (i * INTEREST_DENOMINATOR) covered) rest
  rw [awarded, repayPrincipal_loan] at repaid
  obtain ⟨small, rfl⟩ := repaid
  have left : unpaid rest < INTEREST_DENOMINATOR := by
    rcases Nat.eq_zero_or_pos principal with zero | positive
    · have nothing := empty zero
      have unit : 0 < INTEREST_DENOMINATOR := by decide
      omega
    · exact small positive
  have whole := eq_div_of_rest sum left
  refine ⟨by rw [isInterest, whole], rfl, rfl, rfl, ?_⟩
  have rebate : rebateOf (min (i * INTEREST_DENOMINATOR) covered) = rebateOf covered := by
    rw [whole, rebateOf_paid]
  rw [rebate] at confirmed_eq
  rcases matching with rfl | rfl
  · simp only [confirmedOf, paidAccount, rebate]
  · exact confirmed_eq.resolve_left (Option.some_ne_none cap)

theorem onRepaid_accepts (inTime : stop ≤ policy.settlementDeadline)
    (matching : walletCap = none ∨ walletCap = some cap) (word : principal < MODULUS)
    (interest_eq : interest = (covered + uncovered) / INTEREST_DENOMINATOR)
    (interest_word : interest < MODULUS) :
    ∃ q used, onRepaid policy walletCap stop 0 false (principal : ℤ) (interest : ℤ)
      (loanAccount stop startsAt cap principal (loanChunks covered uncovered)) = .ok (q, used) := by
  have enough : interest * INTEREST_DENOMINATOR ≤ covered + uncovered := by
    rw [interest_eq]
    exact Nat.div_mul_le_self ..
  obtain ⟨rest, sum, consumed⟩ := consumeInterest_loan enough
  obtain ⟨confirmed, after, awarded, -⟩ :=
    award_loan matching (min (interest * INTEREST_DENOMINATOR) covered) rest
  have left : unpaid rest < INTEREST_DENOMINATOR := by
    have rest_eq : unpaid rest = (covered + uncovered) % INTEREST_DENOMINATOR := by
      have parts := Nat.div_add_mod (covered + uncovered) INTEREST_DENOMINATOR
      rw [← interest_eq, Nat.mul_comm] at parts
      omega
    rw [rest_eq]
    exact Nat.mod_lt _ (by decide)
  have earns : ((loanAccount stop startsAt cap principal
      (loanChunks covered uncovered)).enrollment.isSome && !false &&
        decide (stop ≤ policy.settlementDeadline)) = true := by
    simp [loanAccount, inTime]
  simp only [onRepaid, bind_eq_ok, amount_eq_ok, pure_eq_ok, earns]
  exact ⟨_, _, principal, ⟨rfl, word⟩, interest, ⟨rfl, interest_word⟩, _, consumed, _,
    by rw [awarded, repayPrincipal_loan]; exact ⟨fun _ => left, rfl⟩, rfl⟩

end Turret.Cashback
