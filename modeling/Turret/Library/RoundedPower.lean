import Mathlib.Tactic

/-! Fixed-point powers by squaring and multiplying, every product rounded to
the nearest unit. The power of a base of at most one never rises with the
exponent, whatever is rounded on the way: the exponents that share their top
bit share their last product, and the power of `2 ^ k` is no more than that of
`2 ^ k - 1`, which has the same last product but one. -/

namespace Turret.Rounding

/-- `a * b / c`, rounded to the nearest. -/
def mulRound (c a b : ℕ) : ℕ := (a * b + c / 2) / c

theorem mulRound_mono (c b : ℕ) {a a' : ℕ} (h : a ≤ a') : mulRound c a b ≤ mulRound c a' b :=
  Nat.div_le_div_right (Nat.add_le_add_right (Nat.mul_le_mul_right b h) _)

theorem mulRound_one {c : ℕ} (hc : 0 < c) (b : ℕ) : mulRound c c b = b := by
  rw [mulRound, Nat.mul_add_div hc, Nat.div_eq_of_lt (Nat.div_lt_self hc Nat.one_lt_two),
    Nat.add_zero]

/-- The loop over the bits above the lowest. -/
def rpowLoop (b x z n : ℕ) : ℕ :=
  if n = 0 then z
  else
    let x := mulRound b x x
    rpowLoop b x (if n % 2 = 1 then mulRound b z x else z) (n / 2)
termination_by n

/-- `x ^ n` in units of `b`. -/
def rpow (x n b : ℕ) : ℕ := rpowLoop b x (if n % 2 = 1 then x else b) (n / 2)

/-! ### Bit by bit -/

/-- The power of `2 ^ k`. -/
def square (b x : ℕ) : ℕ → ℕ
  | 0 => x
  | k + 1 => mulRound b (square b x k) (square b x k)

/-- The power of the lowest `k` bits of `n`. -/
def power (b x : ℕ) : ℕ → ℕ → ℕ
  | 0, _ => b
  | k + 1, n =>
    if n / 2 ^ k % 2 = 1 then mulRound b (power b x k n) (square b x k) else power b x k n

variable {b x k l m n : ℕ}

/-- The bits above the last that is set change nothing. -/
theorem power_of_lt (small : n < 2 ^ k) (le : k ≤ l) : power b x l n = power b x k n := by
  induction l, le using Nat.le_induction with
  | base => rfl
  | succ l le ih =>
    have high : n / 2 ^ l = 0 :=
      Nat.div_eq_of_lt (small.trans_le (Nat.pow_le_pow_right Nat.two_pos le))
    have unset : ¬n / 2 ^ l % 2 = 1 := by
      rw [high]
      decide
    rw [power, if_neg unset, ih]

theorem rpowLoop_step (z : ℕ) (more : n ≠ 0) :
    rpowLoop b x z n = rpowLoop b (mulRound b x x)
      (if n % 2 = 1 then mulRound b z (mulRound b x x) else z) (n / 2) := by
  rw [rpowLoop, if_neg more]

theorem rpowLoop_eq (small : n < 2 ^ l) :
    rpowLoop b (square b x k) (power b x (k + 1) n) (n / 2 ^ (k + 1)) = power b x l n := by
  induction rest : n / 2 ^ (k + 1) using Nat.strong_induction_on generalizing k with
  | _ high ih =>
    by_cases none : high = 0
    · rw [none, rpowLoop, if_pos rfl]
      have low : n < 2 ^ (k + 1) := by
        rw [none] at rest
        exact (Nat.div_eq_zero_iff_lt (Nat.two_pow_pos _)).mp rest
      rcases Nat.le_total l (k + 1) with le | le
      · exact power_of_lt small le
      · exact (power_of_lt low le).symm
    · have next : high / 2 = n / 2 ^ (k + 2) := by
        rw [← rest, Nat.div_div_eq_div_mul, ← pow_succ]
      have step : (if high % 2 = 1 then mulRound b (power b x (k + 1) n) (square b x (k + 1))
          else power b x (k + 1) n) = power b x (k + 2) n := by
        rw [← rest]
        rfl
      have less : high / 2 < high := Nat.div_lt_self (Nat.pos_of_ne_zero none) Nat.one_lt_two
      rw [rpowLoop_step _ none]
      calc rpowLoop b (square b x (k + 1)) (if high % 2 = 1 then mulRound b
            (power b x (k + 1) n) (square b x (k + 1)) else power b x (k + 1) n) (high / 2)
          = rpowLoop b (square b x (k + 1)) (power b x (k + 2) n) (high / 2) := by rw [step]
        _ = power b x l n := ih (high / 2) less next.symm

theorem rpow_eq (hb : 0 < b) (small : n < 2 ^ l) : rpow x n b = power b x l n := by
  have first : (if n % 2 = 1 then x else b) = power b x 1 n := by
    simp only [power, square, pow_zero, Nat.div_one, mulRound_one hb]
  rw [rpow, first]
  exact rpowLoop_eq (k := 0) small

/-! ### The power never rises -/

theorem power_zero (b x k : ℕ) : power b x k 0 = b := by
  induction k with
  | zero => rfl
  | succ k ih =>
    rw [power, Nat.zero_div, if_neg (by decide), ih]

/-- The power of `2 ^ k + n`. -/
theorem power_high (low : n < 2 ^ k) :
    power b x (k + 1) (2 ^ k + n) = mulRound b (power b x k n) (square b x k) := by
  have top : (2 ^ k + n) / 2 ^ k % 2 = 1 := by
    rw [Nat.add_div_left _ (Nat.two_pow_pos k), Nat.div_eq_of_lt low]
  have bits (j : ℕ) (le : j ≤ k) : power b x j (2 ^ k + n) = power b x j n := by
    induction j with
    | zero => rfl
    | succ j ih =>
      have same : (2 ^ k + n) / 2 ^ j % 2 = n / 2 ^ j % 2 := by
        have twice : 2 ^ k = 2 ^ j * (2 * 2 ^ (k - j - 1)) := by
          rw [← pow_succ', ← pow_add]
          congr 1
          omega
        rw [twice, Nat.mul_add_div (Nat.two_pow_pos j), Nat.mul_add_mod]
      rw [power, power, same, ih (Nat.le_of_succ_le le)]
  rw [power, if_pos top, bits k le_rfl]

theorem power_low (low : n < 2 ^ k) : power b x (k + 1) n = power b x k n :=
  power_of_lt low (Nat.le_succ k)

theorem power_antitone_and (hb : 0 < b) (hx : x ≤ b) (k : ℕ) :
    (∀ m n, m ≤ n → n < 2 ^ k → power b x k n ≤ power b x k m) ∧
      square b x k ≤ power b x k (2 ^ k - 1) := by
  induction k with
  | zero => exact ⟨fun _ _ _ _ => le_rfl, hx⟩
  | succ k ih =>
    obtain ⟨falls, top⟩ := ih
    have pos := Nat.two_pow_pos k
    have twice : 2 ^ (k + 1) = 2 ^ k + 2 ^ k := by rw [pow_succ, Nat.mul_two]
    refine ⟨fun m n le small => ?_, ?_⟩
    · by_cases low : n < 2 ^ k
      · rw [power_low low, power_low (le.trans_lt low)]
        exact falls m n le low
      · obtain ⟨n, rfl⟩ := Nat.exists_eq_add_of_le (Nat.le_of_not_lt low)
        have under : n < 2 ^ k := by omega
        rw [power_high under]
        by_cases below : m < 2 ^ k
        · rw [power_low below]
          have whole := falls 0 n (Nat.zero_le n) under
          rw [power_zero] at whole
          calc mulRound b (power b x k n) (square b x k)
              ≤ mulRound b b (square b x k) := mulRound_mono b _ whole
            _ = square b x k := mulRound_one hb _
            _ ≤ power b x k (2 ^ k - 1) := top
            _ ≤ power b x k m := falls m (2 ^ k - 1) (by omega) (by omega)
        · obtain ⟨m, rfl⟩ := Nat.exists_eq_add_of_le (Nat.le_of_not_lt below)
          rw [power_high (by omega)]
          exact mulRound_mono b _ (falls m n (by omega) under)
    · have last : 2 ^ (k + 1) - 1 = 2 ^ k + (2 ^ k - 1) := by omega
      rw [last, power_high (by omega), square]
      exact mulRound_mono b _ top

theorem rpow_antitone (hb : 0 < b) (hx : x ≤ b) (h : m ≤ n) : rpow x n b ≤ rpow x m b := by
  have small : n < 2 ^ n := Nat.lt_two_pow_self
  rw [rpow_eq hb small, rpow_eq hb (h.trans_lt small)]
  exact (power_antitone_and hb hx n).1 m n h small

theorem rpow_zero (x b : ℕ) : rpow x 0 b = b := by
  rw [rpow, rpowLoop, if_pos (Nat.zero_div 2), if_neg (by decide)]

theorem rpow_le (hb : 0 < b) (hx : x ≤ b) (n : ℕ) : rpow x n b ≤ b := by
  have falls := rpow_antitone hb hx (Nat.zero_le n)
  rwa [rpow_zero] at falls

end Turret.Rounding
