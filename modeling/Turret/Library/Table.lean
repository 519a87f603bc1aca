import Mathlib.Data.List.Nodup
import Mathlib.Data.List.Dedup
import Mathlib.Algebra.BigOperators.Group.List.Basic
import Mathlib.Tactic.Ring

/-! A database table whose rows have a key: `INSERT … ON CONFLICT(key) DO
UPDATE` on the list of its rows, and what it keeps of memberships, of the
keys and of sums over the rows. -/

namespace Turret.Table

variable {α κ : Type} {key : α → κ} {row other old : α} {rows : List α}

/-- A key names one row. -/
theorem eq_of_key (nodup : (rows.map key).Nodup) (h : row ∈ rows) (h' : other ∈ rows)
    (same : key row = key other) : row = other :=
  List.inj_on_of_nodup_map nodup h h' same

variable [DecidableEq κ]

/-- `UPDATE … WHERE key = …`. -/
def replace (key : α → κ) (row : α) (rows : List α) : List α :=
  rows.map fun other => if key other = key row then row else other

theorem replace_eq_self (absent : ∀ other ∈ rows, key other ≠ key row) :
    replace key row rows = rows :=
  (List.map_congr_left fun other mem => if_neg (absent other mem)).trans (List.map_id rows)

/-- A replacement changes one row, where it stands. -/
theorem replace_split (nodup : (rows.map key).Nodup) (mem : old ∈ rows) (same : key row = key old) :
    ∃ before after, rows = before ++ old :: after ∧
      replace key row rows = before ++ row :: after := by
  obtain ⟨before, after, rfl⟩ := List.append_of_mem mem
  rw [List.map_append, List.map_cons, List.nodup_append, List.nodup_cons] at nodup
  obtain ⟨-, ⟨later, -⟩, apart⟩ := nodup
  refine ⟨before, after, rfl, ?_⟩
  rw [replace, List.map_append, List.map_cons, if_pos same.symm]
  change replace key row before ++ row :: replace key row after = _
  rw [replace_eq_self fun other at_other => ?_, replace_eq_self fun other at_other => ?_]
  · rw [same]
    exact fun eq => later (eq ▸ List.mem_map_of_mem at_other)
  · rw [same]
    exact apart _ (List.mem_map_of_mem at_other) _ List.mem_cons_self

def upsert (key : α → κ) (row : α) (rows : List α) : List α :=
  if rows.any fun other => key other = key row then
    rows.map fun other => if key other = key row then row else other
  else rows ++ [row]

theorem upsert_new (fresh : ∀ other ∈ rows, key other ≠ key row) :
    upsert key row rows = rows ++ [row] := by
  rw [upsert, if_neg]
  simpa using fresh

theorem upsert_old (mem : old ∈ rows) (same : key row = key old) :
    upsert key row rows = rows.map fun other => if key other = key row then row else other := by
  rw [upsert, if_pos]
  exact List.any_eq_true.mpr ⟨old, mem, decide_eq_true same.symm⟩

theorem mem_upsert_self (row : α) (rows : List α) : row ∈ upsert key row rows := by
  unfold upsert
  split
  · obtain ⟨other, mem, same⟩ := List.any_eq_true.mp ‹_›
    exact List.mem_map.mpr ⟨other, mem, if_pos (of_decide_eq_true same)⟩
  · exact List.mem_append_right _ (List.mem_singleton_self row)

theorem mem_of_mem_upsert (h : other ∈ upsert key row rows) :
    other = row ∨ other ∈ rows ∧ key other ≠ key row := by
  unfold upsert at h
  split at h
  · obtain ⟨before, mem, rfl⟩ := List.mem_map.mp h
    by_cases same : key before = key row
    · exact .inl (if_pos same)
    · rw [if_neg same]
      exact .inr ⟨mem, same⟩
  · rename_i absent
    rcases List.mem_append.mp h with mem | mem
    · refine .inr ⟨mem, fun same => absent ?_⟩
      exact List.any_eq_true.mpr ⟨other, mem, decide_eq_true same⟩
    · exact .inl (List.mem_singleton.mp mem)

theorem mem_upsert_of_ne (mem : other ∈ rows) (ne : key other ≠ key row) :
    other ∈ upsert key row rows := by
  unfold upsert
  split
  · exact List.mem_map.mpr ⟨other, mem, if_neg ne⟩
  · exact List.mem_append_left _ mem

theorem keys_upsert (nodup : (rows.map key).Nodup) : ((upsert key row rows).map key).Nodup := by
  by_cases present : ∃ other ∈ rows, key row = key other
  · obtain ⟨other, mem, same⟩ := present
    rw [upsert_old mem same, List.map_map]
    have keys : (key ∘ fun other => if key other = key row then row else other) = key := by
      funext other
      by_cases h : key other = key row
      · simp [h]
      · simp [h]
    rwa [keys]
  · push Not at present
    have fresh : ∀ other ∈ rows, key other ≠ key row := fun other mem => (present other mem).symm
    rw [upsert_new fresh, List.map_append]
    refine List.Nodup.append nodup (List.nodup_singleton _) ?_
    simpa using fresh

theorem find?_eq_some_iff (nodup : (rows.map key).Nodup) (k : κ) :
    rows.find? (fun other => key other = k) = some row ↔ row ∈ rows ∧ key row = k := by
  constructor
  · intro found
    exact ⟨List.mem_of_find?_eq_some found, by simpa using List.find?_some found⟩
  · rintro ⟨mem, at_key⟩
    obtain ⟨other, found⟩ : ∃ other, rows.find? (fun other => key other = k) = some other := by
      rw [← Option.isSome_iff_exists, List.find?_isSome]
      exact ⟨row, mem, decide_eq_true at_key⟩
    have same : key other = k := by simpa using List.find?_some found
    rw [found, eq_of_key nodup (List.mem_of_find?_eq_some found) mem (same.trans at_key.symm)]

theorem sum_upsert_new (f : α → ℤ) (fresh : ∀ other ∈ rows, key other ≠ key row) :
    ((upsert key row rows).map f).sum = (rows.map f).sum + f row := by
  rw [upsert_new fresh, List.map_append, List.sum_append]
  simp

theorem sum_upsert_old (f : α → ℤ) (nodup : (rows.map key).Nodup) (mem : old ∈ rows)
    (same : key row = key old) :
    ((upsert key row rows).map f).sum = (rows.map f).sum - f old + f row := by
  rw [upsert_old mem same]
  induction rows with
  | nil => cases mem
  | cons first rest ih =>
    obtain ⟨absent, nodup⟩ := List.nodup_cons.mp nodup
    simp only [List.map_cons, List.sum_cons]
    rcases List.mem_cons.mp mem with rfl | mem
    · have unchanged : (rest.map fun other => if key other = key row then row else other) = rest := by
        conv_rhs => rw [← List.map_id rest]
        refine List.map_congr_left fun x hx => if_neg fun x_same => absent ?_
        exact List.mem_map.mpr ⟨x, hx, x_same.trans same⟩
      rw [if_pos same.symm, unchanged]
      ring
    · have ne : key first ≠ key row := fun first_same =>
        absent (List.mem_map.mpr ⟨old, mem, (first_same.trans same).symm⟩)
      rw [if_neg ne, ih nodup mem]
      ring

end Turret.Table
