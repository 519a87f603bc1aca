import Turret.Library.Execution

/-! An array of distinct members with its one-based index map. A member is
removed by moving the last one into its place and popping the array. -/

namespace Turret

open Function

structure SwapPop (A : Type) where
  members : List A
  index : A → ℕ

namespace SwapPop

section Lookup

variable {A : Type}

def empty : SwapPop A := ⟨[], fun _ => 0⟩

/-- The index map is the one-based inverse of the array, and zero elsewhere. -/
def WellFormed (r : SwapPop A) : Prop :=
  ∀ a i, r.members[i]? = some a ↔ r.index a = i + 1

theorem empty_wellFormed : (empty : SwapPop A).WellFormed := by
  intro a i
  simp [empty]

variable {r : SwapPop A} {a : A}

theorem WellFormed.mem_iff (h : r.WellFormed) : a ∈ r.members ↔ r.index a ≠ 0 := by
  rw [List.mem_iff_getElem?]
  constructor
  · rintro ⟨i, hi⟩
    have := (h a i).mp hi
    omega
  · intro hne
    obtain ⟨k, hk⟩ := Nat.exists_eq_succ_of_ne_zero hne
    exact ⟨k, (h a k).mpr hk⟩

theorem WellFormed.nodup (h : r.WellFormed) : r.members.Nodup := by
  rw [List.nodup_iff_getElem?_ne_getElem?]
  intro i j hij hj same
  obtain ⟨a, ha⟩ : ∃ a, r.members[j]? = some a := ⟨r.members[j], List.getElem?_eq_getElem hj⟩
  have first := (h a i).mp (same.trans ha)
  have second := (h a j).mp ha
  omega

end Lookup

variable {A : Type} [DecidableEq A]

def push (a : A) (r : SwapPop A) : SwapPop A :=
  ⟨r.members ++ [a], update r.index a (r.members.length + 1)⟩

/-- Fails as the array accesses do: no entry for `a`, or its place is not in the array. -/
def remove (a : A) (r : SwapPop A) : Option (SwapPop A) :=
  match r.index a with
  | 0 => none
  | k + 1 =>
    match r.members.getLast? with
    | none => none
    | some last =>
      if k < r.members.length then
        some ⟨(r.members.set k last).dropLast, update (update r.index last (k + 1)) a 0⟩
      else none

variable {r : SwapPop A} {a b : A}

theorem push_wellFormed (h : r.WellFormed) (fresh : r.index a = 0) : (r.push a).WellFormed := by
  intro b i
  have absent : a ∉ r.members := fun k => h.mem_iff.mp k fresh
  rw [push, List.getElem?_append]
  by_cases hb : b = a
  · subst hb
    simp only [update_self]
    split_ifs with hi
    · have : r.members[i]? ≠ some b := fun k => absent (List.mem_iff_getElem?.mpr ⟨i, k⟩)
      simp only [this, false_iff]
      omega
    · rw [List.getElem?_singleton]
      split_ifs with hz <;> simp <;> omega
  · simp only [update_of_ne hb, ← h b i]
    split_ifs with hi
    · rfl
    · rw [List.getElem?_singleton, List.getElem?_eq_none (by omega)]
      split_ifs
      · simpa using fun k => hb k.symm
      · simp

@[simp] theorem push_index_ne_zero : (r.push a).index b ≠ 0 ↔ b = a ∨ r.index b ≠ 0 := by
  by_cases h : b = a
  · subst h; simp [push]
  · simp [push, h]

/-- A member of a well-formed registry can always be removed. -/
theorem remove_isSome (h : r.WellFormed) (member : r.index a ≠ 0) :
    ∃ r', r.remove a = some r' := by
  obtain ⟨k, hk⟩ := Nat.exists_eq_succ_of_ne_zero member
  have place := (h a k).mpr hk
  have hlen := (List.getElem?_eq_some_iff.mp place).1
  have nonempty : r.members ≠ [] := by
    intro hnil
    simp [hnil] at hlen
  simp only [remove, hk, Nat.succ_eq_add_one, List.getLast?_eq_some_getLast nonempty,
    if_pos hlen, Option.some.injEq, exists_eq']

theorem remove_eq_some {r' : SwapPop A} (h : r.remove a = some r') :
    ∃ k last, r.index a = k + 1 ∧ r.members.getLast? = some last ∧ k < r.members.length ∧
      r' = ⟨(r.members.set k last).dropLast, update (update r.index last (k + 1)) a 0⟩ := by
  unfold remove at h
  split at h
  · cases h
  · rename_i k hk
    split at h
    · cases h
    · rename_i last hlast
      split_ifs at h with hlen
      exact ⟨k, last, hk, hlast, hlen, (Option.some.inj h).symm⟩

theorem remove_length {r' : SwapPop A} (h : r.remove a = some r') :
    r'.members.length + 1 = r.members.length := by
  obtain ⟨k, last, -, -, hlen, rfl⟩ := remove_eq_some h
  simp only [List.length_dropLast, List.length_set]
  omega

theorem remove_wellFormed (h : r.WellFormed) {r' : SwapPop A} (hr : r.remove a = some r') :
    r'.WellFormed := by
  obtain ⟨k, last, hk, hlast, hlen, rfl⟩ := remove_eq_some hr
  have lastPlace : r.members[r.members.length - 1]? = some last := by
    rw [← hlast, List.getLast?_eq_getElem?]
  have lastIndex := (h last _).mp lastPlace
  have place := (h a k).mpr hk
  intro b i
  rw [List.getElem?_dropLast, List.length_set]
  by_cases hb : b = a
  · -- the removed member: nothing before the popped place holds it any more
    subst hb
    simp only [update_self, Nat.zero_ne_add_one, iff_false]
    split_ifs with hi
    · rw [List.getElem?_set]
      split_ifs with hik
      · intro hsame
        have : last = b := by simpa using hsame
        subst this
        omega
      · exact fun hsame => hik (by have := (h b i).mp hsame; omega)
    · simp
  · simp only [update_of_ne hb]
    by_cases hl : b = last
    · -- the moved member now stands where the removed one stood
      subst hl
      simp only [update_self]
      split_ifs with hi
      · rw [List.getElem?_set]
        split_ifs with hik
        · simp; omega
        · constructor
          · intro hsame
            have := (h b i).mp hsame
            omega
          · intro hsame
            omega
      · have : k ≠ r.members.length - 1 := by
          intro hsame
          rw [hsame, lastPlace] at place
          exact hb (by simpa using place)
        simp only [false_iff]
        omega
    · simp only [update_of_ne hl, ← h b i]
      split_ifs with hi
      · rw [List.getElem?_set]
        split_ifs with hik
        · subst hik
          rw [place]
          simp [Ne.symm hl, Ne.symm hb]
        · rfl
      · simp only [false_iff]
        intro hsame
        have hlt := (List.getElem?_eq_some_iff.mp hsame).1
        have : i = r.members.length - 1 := by omega
        subst this
        rw [lastPlace] at hsame
        exact hl (by simpa using hsame.symm)

theorem remove_index_ne_zero (h : r.WellFormed) {r' : SwapPop A} (hr : r.remove a = some r') :
    r'.index b ≠ 0 ↔ b ≠ a ∧ r.index b ≠ 0 := by
  obtain ⟨k, last, hk, hlast, hlen, rfl⟩ := remove_eq_some hr
  have lastMember : r.index last ≠ 0 := h.mem_iff.mp (List.mem_of_getLast? hlast)
  by_cases hb : b = a
  · subst hb; simp
  · by_cases hl : b = last
    · subst hl; simp [hb, lastMember]
    · simp [update_of_ne hl, hb]

/-! ### As a set

Adding a member again, or removing what is no member, changes nothing. -/

def insert (a : A) (r : SwapPop A) : SwapPop A := if r.index a = 0 then r.push a else r

def erase (a : A) (r : SwapPop A) : Option (SwapPop A) :=
  if r.index a = 0 then some r else r.remove a

theorem insert_wellFormed (h : r.WellFormed) : (r.insert a).WellFormed := by
  unfold insert
  split_ifs with fresh
  · exact push_wellFormed h fresh
  · exact h

theorem insert_index_ne_zero : (r.insert a).index b ≠ 0 ↔ b = a ∨ r.index b ≠ 0 := by
  unfold insert
  split_ifs with fresh
  · exact push_index_ne_zero
  · constructor
    · exact .inr
    · rintro (rfl | member)
      · exact fresh
      · exact member

theorem erase_wellFormed (h : r.WellFormed) {r' : SwapPop A} (hr : r.erase a = some r') :
    r'.WellFormed := by
  unfold erase at hr
  split_ifs at hr with absent
  · exact Option.some.inj hr ▸ h
  · exact remove_wellFormed h hr

theorem erase_index_ne_zero (h : r.WellFormed) {r' : SwapPop A} (hr : r.erase a = some r') :
    r'.index b ≠ 0 ↔ b ≠ a ∧ r.index b ≠ 0 := by
  unfold erase at hr
  split_ifs at hr with absent
  · rw [← Option.some.inj hr]
    constructor
    · rintro member
      exact ⟨fun same => member (same ▸ absent), member⟩
    · exact And.right
  · exact remove_index_ne_zero h hr

end SwapPop

end Turret
