import Mathlib.Tactic
import Turret.Library.Execution

/-! Integer division with a stated direction, the division that carries its
remainder forward, and the price of a share whose entry and exit are rounded
against the one who moves. -/

namespace Turret.Rounding

/-- `Math.mulDiv(a, b, c)`, rounded down. -/
def mulDiv (a b c : ℕ) : ℕ := a * b / c

/-- `Math.mulDiv(a, b, c, Math.Rounding.Up)`. -/
def mulDivUp (a b c : ℕ) : ℕ := a * b / c + if a * b % c = 0 then 0 else 1

theorem mulDiv_mul_le (a b c : ℕ) : mulDiv a b c * c ≤ a * b :=
  Nat.div_mul_le_self (a * b) c

theorem le_mulDiv_iff {a b c q : ℕ} (hc : 0 < c) : q ≤ mulDiv a b c ↔ q * c ≤ a * b :=
  Nat.le_div_iff_mul_le hc

theorem mulDivUp_le_iff {a b c q : ℕ} (hc : 0 < c) : mulDivUp a b c ≤ q ↔ a * b ≤ q * c := by
  have parts := Nat.div_add_mod (a * b) c
  have small := Nat.mod_lt (a * b) hc
  unfold mulDivUp
  split_ifs with h
  · rw [h, Nat.add_zero] at parts
    constructor
    · intro hq
      have := Nat.mul_le_mul_right c hq
      nlinarith
    · intro hq
      have : c * (a * b / c) ≤ c * q := by nlinarith
      have := Nat.le_of_mul_le_mul_left this hc
      omega
  · constructor
    · intro hq
      have := Nat.mul_le_mul_right c hq
      nlinarith
    · intro hq
      have : c * (a * b / c) < c * q := by
        have : 0 < a * b % c := Nat.pos_of_ne_zero h
        nlinarith
      exact Nat.lt_of_mul_lt_mul_left this

theorem le_mulDivUp_mul {a b c : ℕ} (hc : 0 < c) : a * b ≤ mulDivUp a b c * c :=
  (mulDivUp_le_iff hc).mp le_rfl

theorem mulDivUp_pos {a b c : ℕ} (hc : 0 < c) (h : 0 < a * b) : 0 < mulDivUp a b c := by
  have := le_mulDivUp_mul (a := a) (b := b) hc
  by_contra hzero
  rw [Nat.eq_zero_of_not_pos hzero, Nat.zero_mul] at this
  omega

theorem mulDivUp_mul_lt {a b c : ℕ} (hc : 0 < c) : mulDivUp a b c * c < a * b + c := by
  by_contra more
  have above : c ≤ mulDivUp a b c * c := by omega
  have one : 1 ≤ mulDivUp a b c := Nat.pos_of_ne_zero fun zero => by
    rw [zero, Nat.zero_mul] at above
    omega
  have less : mulDivUp a b c ≤ mulDivUp a b c - 1 := by
    rw [mulDivUp_le_iff hc, Nat.sub_mul, Nat.one_mul]
    omega
  omega

/-- Rounding up in parts gives no less than rounding up the whole, and less than one more for each
further part. -/
theorem mulDivUp_add_le {c : ℕ} (hc : 0 < c) (a a' b : ℕ) :
    mulDivUp (a + a') b c ≤ mulDivUp a b c + mulDivUp a' b c := by
  have first := le_mulDivUp_mul (a := a) (b := b) hc
  have second := le_mulDivUp_mul (a := a') (b := b) hc
  rw [mulDivUp_le_iff hc, Nat.add_mul, Nat.add_mul]
  omega

theorem add_mulDivUp_le {c : ℕ} (hc : 0 < c) (a a' b : ℕ) :
    mulDivUp a b c + mulDivUp a' b c ≤ mulDivUp (a + a') b c + 1 := by
  have first := mulDivUp_mul_lt (a := a) (b := b) hc
  have second := mulDivUp_mul_lt (a := a') (b := b) hc
  have whole := le_mulDivUp_mul (a := a + a') (b := b) hc
  rw [Nat.add_mul] at whole
  have less : (mulDivUp a b c + mulDivUp a' b c) * c < (mulDivUp (a + a') b c + 2) * c := by
    rw [Nat.add_mul, Nat.add_mul]
    omega
  exact Nat.le_of_lt_succ (Nat.lt_of_mul_lt_mul_right less)

theorem mulDivUp_mono {a a' c : ℕ} (hc : 0 < c) (h : a ≤ a') (b : ℕ) :
    mulDivUp a b c ≤ mulDivUp a' b c :=
  (mulDivUp_le_iff hc).mpr ((Nat.mul_le_mul_right b h).trans (le_mulDivUp_mul hc))

theorem mulDiv_mono {a a' : ℕ} (h : a ≤ a') (b c : ℕ) : mulDiv a b c ≤ mulDiv a' b c :=
  Nat.div_le_div_right (Nat.mul_le_mul_right b h)

@[simp] theorem mulDiv_zero_left (b c : ℕ) : mulDiv 0 b c = 0 := by simp [mulDiv]

@[simp] theorem mulDivUp_zero_left (b c : ℕ) : mulDivUp 0 b c = 0 := by simp [mulDivUp]

/-- A proportion of at most the whole grows no faster than what it is taken of. -/
theorem mulDiv_add_le {b c : ℕ} (h : b ≤ c) (a n : ℕ) :
    mulDiv (a + n) b c ≤ mulDiv a b c + n := by
  rcases Nat.eq_zero_or_pos c with rfl | hc
  · simp [mulDiv]
  · have hb : n * b ≤ n * c := Nat.mul_le_mul_left n h
    calc (a + n) * b / c ≤ (a * b + n * c) / c :=
          Nat.div_le_div_right (by rw [Nat.add_mul]; omega)
      _ = a * b / c + n := Nat.add_mul_div_right _ _ hc

theorem mulDiv_le_self {b c : ℕ} (h : b ≤ c) (a : ℕ) : mulDiv a b c ≤ a := by
  have := mulDiv_add_le h 0 a
  simpa [mulDiv] using this

/-! ### Division that carries its remainder

`carry D p t r` is the whole number of `D`-ths in `p * t` together with the
earlier remainder `r`, and the remainder left over. Nothing is lost: the pair
counts exactly `p * t + r`. -/

def carry (D p t r : ℕ) : ℕ × ℕ :=
  let carried := p * t % D + r
  (mulDiv p t D + carried / D, carried % D)

theorem carry_exact (D p t r : ℕ) :
    (carry D p t r).1 * D + (carry D p t r).2 = p * t + r := by
  have whole := Nat.div_add_mod (p * t) D
  have rest := Nat.div_add_mod (p * t % D + r) D
  simp only [carry, mulDiv, Nat.add_mul]
  nlinarith

theorem carry_snd_lt {D : ℕ} (hD : 0 < D) (p t r : ℕ) : (carry D p t r).2 < D :=
  Nat.mod_lt _ hD

theorem carry_fst {D : ℕ} (hD : 0 < D) (p t r : ℕ) : (carry D p t r).1 = (p * t + r) / D := by
  have exact := carry_exact D p t r
  have small := carry_snd_lt hD p t r
  rw [← exact, Nat.mul_comm, Nat.mul_add_div hD, Nat.div_eq_of_lt small, Nat.add_zero]

theorem carry_snd {D : ℕ} (hD : 0 < D) (p t r : ℕ) : (carry D p t r).2 = (p * t + r) % D := by
  have exact := carry_exact D p t r
  have small := carry_snd_lt hD p t r
  rw [← exact, Nat.mul_comm, Nat.mul_add_mod, Nat.mod_eq_of_lt small]

/-- No principal, or no time: what was carried stays as it was. -/
theorem carry_zero {D r : ℕ} (h : r < D) {p t : ℕ} (hz : p * t = 0) : carry D p t r = (0, r) := by
  simp [carry, mulDiv, hz, Nat.div_eq_of_lt h, Nat.mod_eq_of_lt h]

/-! ### Share price

`(assets + 1) / (supply + v)` is the price of a share with `v` virtual shares;
`PriceLE v a s a' s'` says that it is no lower at `(a', s')` than at `(a, s)`. -/

def PriceLE (v a s a' s' : ℕ) : Prop := (a + 1) * (s' + v) ≤ (a' + 1) * (s + v)

theorem PriceLE.refl (v a s : ℕ) : PriceLE v a s a s := le_rfl

theorem PriceLE.trans {v a s b t c u : ℕ} (hv : 0 < v) (h : PriceLE v a s b t)
    (k : PriceLE v b t c u) : PriceLE v a s c u := by
  unfold PriceLE at *
  have pos : 0 < t + v := by omega
  have scaled : (t + v) * ((a + 1) * (u + v)) ≤ (t + v) * ((c + 1) * (s + v)) :=
    calc (t + v) * ((a + 1) * (u + v)) = (u + v) * ((a + 1) * (t + v)) := by ring
      _ ≤ (u + v) * ((b + 1) * (s + v)) := Nat.mul_le_mul_left _ h
      _ = (s + v) * ((b + 1) * (u + v)) := by ring
      _ ≤ (s + v) * ((c + 1) * (t + v)) := Nat.mul_le_mul_left _ k
      _ = (t + v) * ((c + 1) * (s + v)) := by ring
  exact Nat.le_of_mul_le_mul_left scaled pos

theorem PriceLE.of_assets_le {a a' : ℕ} (h : a ≤ a') (v s : ℕ) : PriceLE v a s a' s :=
  Nat.mul_le_mul_right _ (by omega)

/-- Entry at or above the price: `minted` shares for `paid` assets. -/
theorem PriceLE.enter {v a s paid minted : ℕ} (h : minted * (a + 1) ≤ paid * (s + v)) :
    PriceLE v a s (a + paid) (s + minted) := by
  unfold PriceLE
  nlinarith

/-- Exit at or below the price: `paid` assets for `burned` shares. -/
theorem PriceLE.leave {v a s paid burned : ℕ} (h : paid * (s + v) ≤ burned * (a + 1))
    (hp : paid ≤ a) (hb : burned ≤ s) : PriceLE v a s (a - paid) (s - burned) := by
  unfold PriceLE
  obtain ⟨a, rfl⟩ := Nat.exists_eq_add_of_le hp
  obtain ⟨s, rfl⟩ := Nat.exists_eq_add_of_le hb
  simp only [Nat.add_sub_cancel_left]
  nlinarith

end Turret.Rounding

/-! Checked arithmetic of unsigned 256-bit words: a result that does not fit
reverts, as does a division by zero. -/

namespace Turret.Uint256

open Execution Rounding

variable {ε : Type}

/-- One more than the largest word. -/
def MODULUS : ℕ := 2 ^ 256

def UINT128_MAX : ℕ := 2 ^ 128 - 1

def checkedAdd (a b : ℕ) (e : ε) : Except ε ℕ :=
  if a + b < MODULUS then .ok (a + b) else .error e

def checkedMul (a b : ℕ) (e : ε) : Except ε ℕ :=
  if a * b < MODULUS then .ok (a * b) else .error e

/-- `Math.mulDiv(a, b, c)`: the product may exceed a word, the quotient may not. -/
def checkedMulDiv (a b c : ℕ) (e : ε) : Except ε ℕ :=
  if c ≠ 0 ∧ mulDiv a b c < MODULUS then .ok (mulDiv a b c) else .error e

def checkedDiv (a b : ℕ) (e : ε) : Except ε ℕ :=
  if b ≠ 0 then .ok (a / b) else .error e

@[simp] theorem checkedAdd_eq_ok (a b d : ℕ) (e : ε) :
    checkedAdd a b e = .ok d ↔ a + b < MODULUS ∧ a + b = d := by
  by_cases h : a + b < MODULUS <;> simp [checkedAdd, h]

@[simp] theorem checkedAdd_eq_error (a b : ℕ) (e e' : ε) :
    checkedAdd a b e = .error e' ↔ MODULUS ≤ a + b ∧ e = e' := by
  by_cases h : a + b < MODULUS
  · simp [checkedAdd, h, Nat.not_le.mpr h]
  · simp [checkedAdd, h, Nat.le_of_not_lt h]

@[simp] theorem checkedMul_eq_ok (a b d : ℕ) (e : ε) :
    checkedMul a b e = .ok d ↔ a * b < MODULUS ∧ a * b = d := by
  by_cases h : a * b < MODULUS <;> simp [checkedMul, h]

@[simp] theorem checkedMulDiv_eq_ok (a b c d : ℕ) (e : ε) :
    checkedMulDiv a b c e = .ok d ↔ (c ≠ 0 ∧ mulDiv a b c < MODULUS) ∧ mulDiv a b c = d := by
  by_cases h : c ≠ 0 ∧ mulDiv a b c < MODULUS
  · simp [checkedMulDiv, h]
  · simp only [checkedMulDiv, if_neg h, reduceCtorEq, false_iff]
    exact fun k => h k.1

@[simp] theorem checkedDiv_eq_ok (a b d : ℕ) (e : ε) :
    checkedDiv a b e = .ok d ↔ b ≠ 0 ∧ a / b = d := by
  by_cases h : b = 0 <;> simp [checkedDiv, h]

theorem lt_modulus_of_le_max {a : ℕ} (h : a ≤ UINT128_MAX) : a < MODULUS := by
  simp only [UINT128_MAX, MODULUS] at h ⊢
  omega

end Turret.Uint256
