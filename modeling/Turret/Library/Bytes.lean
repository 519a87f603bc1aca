import Mathlib.Data.List.Induction
import Mathlib.Tactic.Ring

/-! Byte strings: words of a fixed width with the most significant byte first, and
what stands at an offset of a longer string. -/

namespace Turret.Bytes

/-- `value = (value << 8) | byte`. -/
def push (value : ℕ) (byte : UInt8) : ℕ := (value <<< 8) ||| byte.toNat

def decode (bytes : List UInt8) : ℕ := bytes.foldl push 0

/-- The last `size` bytes of the word. -/
def encode : ℕ → ℕ → List UInt8
  | 0, _ => []
  | size + 1, value => encode size (value / 256) ++ [UInt8.ofNat value]

theorem push_eq (value : ℕ) (byte : UInt8) : push value byte = value * 256 + byte.toNat := by
  have small : byte.toNat < 2 ^ 8 := byte.toNat_lt
  rw [push, Nat.shiftLeft_eq, Nat.mul_comm, ← Nat.two_pow_add_eq_or_of_lt small, Nat.mul_comm]

theorem decode_append (bytes : List UInt8) (byte : UInt8) :
    decode (bytes ++ [byte]) = decode bytes * 256 + byte.toNat := by
  rw [decode, List.foldl_append, List.foldl_cons, List.foldl_nil, push_eq]
  rfl

@[simp] theorem length_encode (size value : ℕ) : (encode size value).length = size := by
  induction size generalizing value with
  | zero => rfl
  | succ size ih => rw [encode, List.length_append, ih, List.length_singleton]

theorem decode_lt (bytes : List UInt8) : decode bytes < 256 ^ bytes.length := by
  induction bytes using List.reverseRecOn with
  | nil => exact Nat.one_pos
  | append_singleton bytes byte ih =>
    have small := byte.toNat_lt
    rw [decode_append, List.length_append, List.length_singleton, pow_succ]
    omega

theorem encode_decode (bytes : List UInt8) : encode bytes.length (decode bytes) = bytes := by
  induction bytes using List.reverseRecOn with
  | nil => rfl
  | append_singleton bytes byte ih =>
    have small := byte.toNat_lt
    have front : (decode bytes * 256 + byte.toNat) / 256 = decode bytes := by omega
    have last : UInt8.ofNat (decode bytes * 256 + byte.toNat) = byte := by
      apply UInt8.toNat_inj.mp
      rw [UInt8.toNat_ofNat']
      omega
    rw [List.length_append, List.length_singleton, encode, decode_append, front, last, ih]

theorem decode_encode {size value : ℕ} (fits : value < 256 ^ size) :
    decode (encode size value) = value := by
  induction size generalizing value with
  | zero =>
    rw [pow_zero, Nat.lt_one_iff] at fits
    rw [fits]
    rfl
  | succ size ih =>
    have front : value / 256 < 256 ^ size := by
      rw [pow_succ] at fits
      exact Nat.div_lt_of_lt_mul (by rwa [Nat.mul_comm])
    rw [encode, decode_append, ih front, UInt8.toNat_ofNat']
    omega

/-! ### Offsets -/

/-- The bytes stand at the offset. -/
def Holds (data : List UInt8) (offset : ℕ) (bytes : List UInt8) : Prop :=
  ∃ before after, data = before ++ bytes ++ after ∧ before.length = offset

variable {data bytes bytes' : List UInt8} {offset : ℕ}

theorem holds_append :
    Holds data offset (bytes ++ bytes') ↔
      Holds data offset bytes ∧ Holds data (offset + bytes.length) bytes' := by
  constructor
  · rintro ⟨before, after, rfl, rfl⟩
    exact ⟨⟨before, bytes' ++ after, by simp, rfl⟩, ⟨before ++ bytes, after, by simp, by simp⟩⟩
  · rintro ⟨⟨before, after, rfl, rfl⟩, ⟨before', after', same, long⟩⟩
    have front : before' = before ++ bytes ∧ bytes' ++ after' = after := by
      rw [List.append_assoc before'] at same
      obtain ⟨first, rest⟩ := List.append_inj same (by rw [long, List.length_append])
      exact ⟨first.symm, rest.symm⟩
    exact ⟨before, after', by rw [← front.2]; simp, rfl⟩

theorem holds_take (h : offset + bytes.length ≤ data.length) :
    Holds data offset bytes ↔ (data.drop offset).take bytes.length = bytes := by
  constructor
  · rintro ⟨before, after, rfl, rfl⟩
    simp
  · intro same
    refine ⟨data.take offset, data.drop (offset + bytes.length), ?_, ?_⟩
    · rw [← List.drop_drop, List.append_assoc]
      nth_rewrite 1 [← same]
      rw [List.take_append_drop, List.take_append_drop]
    · rw [List.length_take]
      omega

theorem Holds.le (h : Holds data offset bytes) : offset + bytes.length ≤ data.length := by
  obtain ⟨before, after, rfl, rfl⟩ := h
  simp only [List.length_append]
  omega

theorem Holds.offset_le (h : Holds data offset bytes) : offset ≤ data.length :=
  (Nat.le_add_right _ _).trans h.le

theorem holds_nil : Holds data offset [] ↔ offset ≤ data.length := by
  constructor
  · exact Holds.le
  · intro within
    refine ⟨data.take offset, data.drop offset, ?_, List.length_take_of_le within⟩
    rw [List.append_nil, List.take_append_drop]

/-- The whole string. -/
theorem holds_zero : Holds data 0 bytes ∧ bytes.length = data.length ↔ bytes = data := by
  constructor
  · rintro ⟨⟨before, after, rfl, none⟩, long⟩
    rw [List.eq_nil_of_length_eq_zero none] at long ⊢
    simp only [List.nil_append, List.length_append, Nat.left_eq_add] at long
    rw [List.eq_nil_of_length_eq_zero long]
    simp
  · rintro rfl
    exact ⟨⟨[], [], by simp, rfl⟩, rfl⟩

/-- A word is read where its bytes stand. -/
theorem holds_encode_iff {size value : ℕ} :
    offset + size ≤ data.length ∧ decode ((data.drop offset).take size) = value ↔
      value < 256 ^ size ∧ Holds data offset (encode size value) := by
  constructor
  · rintro ⟨long, rfl⟩
    have length : ((data.drop offset).take size).length = size := by
      rw [List.length_take, List.length_drop]
      omega
    have small := decode_lt ((data.drop offset).take size)
    have whole := encode_decode ((data.drop offset).take size)
    rw [length] at small whole
    refine ⟨small, (holds_take ?_).mpr ?_⟩
    · rwa [length_encode]
    · rw [length_encode, whole]
  · rintro ⟨small, stands⟩
    have long := stands.le
    have bytes := (holds_take long).mp stands
    rw [length_encode] at long bytes
    rw [bytes]
    exact ⟨long, decode_encode small⟩

end Turret.Bytes
