import Mathlib.Tactic

/-! Merkle trees over lists of any length, an odd node being promoted to the
next level as it is. The parent of two nodes does not depend on their order, so
a proof is the list of the siblings met on the way up; a level at which the
node has no sibling contributes nothing. -/

namespace Turret.MerkleTree

variable {D : Type} (parent : D → D → D)

/-- The next level up. -/
def pairUp : List D → List D
  | a :: b :: rest => parent a b :: pairUp rest
  | rest => rest

theorem length_pairUp (l : List D) : (pairUp parent l).length = (l.length + 1) / 2 := by
  induction l using pairUp.induct with
  | case1 a b rest ih =>
    rw [pairUp, List.length_cons, ih, List.length_cons, List.length_cons]
    omega
  | case2 rest short =>
    match rest, short with
    | [], _ => simp [pairUp]
    | [a], _ => simp [pairUp]
    | a :: b :: rest, short => exact absurd rfl (short a b rest)

/-- All levels, from the leaves to the root. -/
def levels (l : List D) : List (List D) :=
  if 1 < l.length then l :: levels (pairUp parent l) else [l]
termination_by l.length
decreasing_by
  rw [length_pairUp]
  omega

theorem levels_of_lt {l : List D} (h : 1 < l.length) :
    levels parent l = l :: levels parent (pairUp parent l) := by
  rw [levels, if_pos h]

theorem levels_of_le {l : List D} (h : l.length ≤ 1) : levels parent l = [l] := by
  rw [levels, if_neg (Nat.not_lt.mpr h)]

theorem levels_ne_nil (l : List D) : levels parent l ≠ [] := by
  rw [levels]
  split_ifs <;> exact List.cons_ne_nil _ _

def root (l : List D) : Option D := (levels parent l).getLast?.bind List.head?

theorem root_of_lt {l : List D} (h : 1 < l.length) :
    root parent l = root parent (pairUp parent l) := by
  rw [root, root, levels_of_lt parent h, List.getLast?_cons_of_ne_nil (levels_ne_nil parent _)]

theorem root_of_le {l : List D} (h : l.length ≤ 1) : root parent l = l.head? := by
  rw [root, levels_of_le parent h]
  rfl

/-- The root is in the last level. -/
theorem exists_level_of_root {l : List D} {r : D} (h : root parent l = some r) :
    ∃ level ∈ levels parent l, r ∈ level := by
  obtain ⟨level, last, first⟩ := Option.bind_eq_some_iff.mp h
  exact ⟨level, List.mem_of_getLast? last, List.mem_of_head? first⟩

/-! ### Proofs -/

def sibling (i : ℕ) : ℕ := if i % 2 = 0 then i + 1 else i - 1

/-- The siblings met from the place `i` of the first level on. -/
def siblings : List (List D) → ℕ → List D
  | [], _ => []
  | level :: rest, i => level[sibling i]?.toList ++ siblings rest (i / 2)

/-- What a proof computes from a node. -/
def climb (x : D) (proof : List D) : D := proof.foldl parent x

variable {parent}

theorem sibling_add_two (i : ℕ) : sibling (i + 2) = sibling i + 2 := by
  unfold sibling
  split_ifs <;> omega

/-- One step of the climb reaches the node above. -/
theorem getElem?_pairUp (comm : ∀ a b, parent a b = parent b a) {l : List D} {i : ℕ} {x : D}
    (h : l[i]? = some x) :
    (pairUp parent l)[i / 2]? = some (climb parent x l[sibling i]?.toList) := by
  induction l using pairUp.induct generalizing i with
  | case1 a b rest ih =>
    match i with
    | 0 =>
      obtain rfl : a = x := by simpa using h
      simp [pairUp, sibling, climb]
    | 1 =>
      obtain rfl : b = x := by simpa using h
      simp [pairUp, sibling, climb, comm b a]
    | i + 2 =>
      have inner : rest[i]? = some x := by simpa using h
      have half : (i + 2) / 2 = i / 2 + 1 := by omega
      rw [pairUp, half, List.getElem?_cons_succ, ih inner, sibling_add_two]
      rfl
  | case2 rest short =>
    match rest, short with
    | [], _ => simp at h
    | [a], _ =>
      match i with
      | 0 =>
        obtain rfl : a = x := by simpa using h
        simp [pairUp, sibling, climb]
      | i + 1 => simp at h
    | a :: b :: rest, short => exact absurd rfl (short a b rest)

theorem climb_append (x : D) (p q : List D) :
    climb parent x (p ++ q) = climb parent (climb parent x p) q := by
  rw [climb, List.foldl_append]
  rfl

/-- Completeness: the siblings of a place lead from its leaf to the root. -/
theorem climb_siblings (comm : ∀ a b, parent a b = parent b a) {l : List D} {i : ℕ} {x : D}
    (h : l[i]? = some x) :
    root parent l = some (climb parent x (siblings (levels parent l).dropLast i)) := by
  induction l using levels.induct parent generalizing i x with
  | case1 l more ih =>
    rw [root_of_lt parent more, levels_of_lt parent more,
      List.dropLast_cons_of_ne_nil (levels_ne_nil parent _), siblings, climb_append]
    exact ih (getElem?_pairUp comm h)
  | case2 l single =>
    have short : l.length ≤ 1 := Nat.not_lt.mp single
    have place : i < l.length := (List.getElem?_eq_some_iff.mp h).1
    obtain rfl : i = 0 := by omega
    rw [root_of_le parent short, levels_of_le parent short, List.head?_eq_getElem?, h]
    rfl

/-! ### Nothing else climbs to the root -/

theorem mem_pairUp {l : List D} {y : D} (h : y ∈ pairUp parent l) :
    y ∈ l ∨ ∃ a ∈ l, ∃ b ∈ l, y = parent a b := by
  induction l using pairUp.induct with
  | case1 a b rest ih =>
    rw [pairUp, List.mem_cons] at h
    rcases h with rfl | later
    · exact .inr ⟨a, by simp, b, by simp, rfl⟩
    · rcases ih later with old | ⟨c, hc, d, hd, rfl⟩
      · exact .inl (by simp [old])
      · exact .inr ⟨c, by simp [hc], d, by simp [hd], rfl⟩
  | case2 rest short =>
    rw [pairUp] at h
    · exact .inl h
    · exact short

/-- A node is a leaf or the parent of two nodes. -/
theorem leaf_or_parent {l level : List D} {y : D} (h : level ∈ levels parent l) (mem : y ∈ level) :
    y ∈ l ∨ ∃ lower ∈ levels parent l, ∃ a ∈ lower, ∃ b ∈ lower, y = parent a b := by
  induction l using levels.induct parent with
  | case1 l more ih =>
    rw [levels_of_lt parent more] at h ⊢
    rcases List.mem_cons.mp h with rfl | above
    · exact .inl mem
    · rcases ih above with old | ⟨lower, hl, a, ha, b, hb, rfl⟩
      · rcases mem_pairUp old with leaf | ⟨a, ha, b, hb, rfl⟩
        · exact .inl leaf
        · exact .inr ⟨l, List.mem_cons_self, a, ha, b, hb, rfl⟩
      · exact .inr ⟨lower, List.mem_cons_of_mem _ hl, a, ha, b, hb, rfl⟩
  | case2 l single =>
    rw [levels_of_le parent (Nat.not_lt.mp single), List.mem_singleton] at h
    exact .inl (h ▸ mem)

/-- No two different unordered pairs have one parent. -/
def Injective (parent : D → D → D) : Prop :=
  ∀ a b c d, parent a b = parent c d → a = c ∧ b = d ∨ a = d ∧ b = c

theorem child_of_parent (inj : Injective parent) {l level : List D}
    (leaves : ∀ y ∈ l, ∀ a b, y ≠ parent a b) {a b : D} (h : level ∈ levels parent l)
    (mem : parent a b ∈ level) : ∃ lower ∈ levels parent l, a ∈ lower := by
  rcases leaf_or_parent h mem with leaf | ⟨lower, hl, c, hc, d, hd, same⟩
  · exact absurd rfl (leaves _ leaf a b)
  · rcases inj a b c d same with ⟨rfl, -⟩ | ⟨rfl, -⟩
    · exact ⟨lower, hl, hc⟩
    · exact ⟨lower, hl, hd⟩

theorem start_of_climb (inj : Injective parent) {l : List D}
    (leaves : ∀ y ∈ l, ∀ a b, y ≠ parent a b) {x : D} {proof : List D}
    (h : ∃ level ∈ levels parent l, climb parent x proof ∈ level) :
    ∃ level ∈ levels parent l, x ∈ level := by
  induction proof generalizing x with
  | nil => exact h
  | cons s proof ih =>
    obtain ⟨level, hl, mem⟩ := ih h
    exact child_of_parent inj leaves hl mem

/-- Soundness: what climbs to the root and is no parent is a leaf. -/
theorem mem_of_climb (inj : Injective parent) {l : List D}
    (leaves : ∀ y ∈ l, ∀ a b, y ≠ parent a b) {x : D} (leaf : ∀ a b, x ≠ parent a b)
    {proof : List D} (h : root parent l = some (climb parent x proof)) : x ∈ l := by
  obtain ⟨level, hl, mem⟩ := start_of_climb inj leaves (exists_level_of_root parent h)
  rcases leaf_or_parent hl mem with old | ⟨-, -, a, -, b, -, same⟩
  · exact old
  · exact absurd same (leaf a b)

end Turret.MerkleTree
