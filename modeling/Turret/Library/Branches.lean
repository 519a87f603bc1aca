import Mathlib.Data.List.Sort
import Mathlib.Data.List.TakeDrop
import Mathlib.Data.List.Nodup

/-! A chain of blocks that may be reorganised. A chain is the list of its
blocks, the oldest first, and the hash of a block commits to the branch that
ends in it. A `Trace` is the chain as it is now with the chains it has been
since an observer began to look; `Later` says that it has not come back to a
branch that it had left. Then what is on the chain when it is first seen and
when it is checked has been on it all the while. -/

namespace Turret.Branches

variable {B H E : Type}

/-- Both chains have the same block of number `n`, and so the same branch up to it. -/
def Shares (n : ℕ) (c d : List B) : Prop :=
  n < c.length ∧ n < d.length ∧ c.take (n + 1) = d.take (n + 1)

instance [DecidableEq B] (n : ℕ) (c d : List B) : Decidable (Shares n c d) :=
  inferInstanceAs (Decidable (_ ∧ _))

section Shares

variable {n m : ℕ} {c d e : List B}

theorem Shares.refl (h : n < c.length) : Shares n c c := ⟨h, h, rfl⟩

theorem Shares.symm (h : Shares n c d) : Shares n d c := ⟨h.2.1, h.1, h.2.2.symm⟩

theorem Shares.trans (h : Shares n c d) (h' : Shares n d e) : Shares n c e :=
  ⟨h.1, h'.2.1, h.2.2.trans h'.2.2⟩

theorem Shares.of_le (h : Shares n c d) (le : m ≤ n) : Shares m c d := by
  refine ⟨by have := h.1; omega, by have := h.2.1; omega, ?_⟩
  have less : m + 1 = min (m + 1) (n + 1) := by omega
  rw [less, ← List.take_take, ← List.take_take, h.2.2]

theorem Shares.getElem? (h : Shares n c d) : (c)[n]? = d[n]? := by
  have at_n : ∀ l : List B, l[n]? = (l.take (n + 1))[n]? := fun l =>
    (List.getElem?_take_of_lt (Nat.lt_succ_self n)).symm
  rw [at_n c, at_n d, h.2.2]

end Shares

/-! ### Headers -/

structure Header (H : Type) where
  number : ℕ
  hash : H
  deriving DecidableEq

variable (hash : List B → H)

/-- The header of block `n`. -/
def headerAt (n : ℕ) (c : List B) : Header H := ⟨n, hash (c.take (n + 1))⟩

/-- The header is that of a block of the chain. -/
def Names (hd : Header H) (c : List B) : Prop :=
  hd.number < c.length ∧ hash (c.take (hd.number + 1)) = hd.hash

instance [DecidableEq H] (hd : Header H) (c : List B) : Decidable (Names hash hd c) :=
  inferInstanceAs (Decidable (_ ∧ _))

variable {hash} {hd : Header H} {c d : List B} {n : ℕ}

theorem Names.shares (injective : Function.Injective hash) (h : Names hash hd c)
    (h' : Names hash hd d) : Shares hd.number c d :=
  ⟨h.1, h'.1, injective (h.2.trans h'.2.symm)⟩

theorem Names.of_shares (h : Names hash hd c) (same : Shares hd.number c d) : Names hash hd d :=
  ⟨same.2.1, same.2.2 ▸ h.2⟩

/-! ### Traces -/

/-- The chain, and the chains that it has been. -/
structure Trace (B : Type) where
  chain : List B
  seen : List (List B)

variable {s t u : Trace B}

structure Later (s t : Trace B) : Prop where
  seen : ∀ d ∈ s.seen, d ∈ t.seen
  stayed : ∀ n, ∀ d ∈ s.seen, Shares n t.chain d → Shares n t.chain s.chain

theorem Later.refl (s : Trace B) : Later s s :=
  ⟨fun _ mem => mem, fun _ _ _ same => .refl same.1⟩

theorem Later.trans (h : Later s t) (h' : Later t u) : Later s u where
  seen := fun d mem => h'.seen d (h.seen d mem)
  stayed := by
    intro n d mem same
    have at_t := h'.stayed n d (h.seen d mem) same
    exact at_t.trans (h.stayed n d mem (at_t.symm.trans same))

/-- The trace after the chain has become `c`. -/
def Trace.move (c : List B) (s : Trace B) : Trace B := ⟨c, c :: s.seen⟩

/-- The chain `c` has no block that the chain has had, and has left. -/
def Onward (s : Trace B) (c : List B) : Prop :=
  ∀ n < c.length, ∀ d ∈ s.seen, Shares n c d → Shares n c s.chain

instance [DecidableEq B] (s : Trace B) (c : List B) : Decidable (Onward s c) :=
  inferInstanceAs (Decidable (∀ n < c.length, ∀ d ∈ s.seen, _))

theorem later_move (h : Onward s c) : Later s (s.move c) :=
  ⟨fun _ mem => List.mem_cons_of_mem _ mem, fun n d mem same => h n same.1 d mem same⟩

variable (hash) in
/-- The header has been of a block of the chain. -/
def Met (hd : Header H) (s : Trace B) : Prop := ∃ d ∈ s.seen, Names hash hd d

theorem Met.later (h : Met hash hd s) (later : Later s t) : Met hash hd t := by
  obtain ⟨d, mem, named⟩ := h
  exact ⟨d, later.seen d mem, named⟩

/-- A block met before that is on the chain later is on it now. -/
theorem Met.names (injective : Function.Injective hash) (h : Met hash hd s) (later : Later s t)
    (named : Names hash hd t.chain) : Names hash hd s.chain := by
  obtain ⟨d, mem, named'⟩ := h
  exact named.of_shares (later.stayed hd.number d mem (named.shares injective named'))

/-! ### Logs -/

structure Log (H E : Type) where
  blockNumber : ℕ
  blockHash : H
  logIndex : ℕ
  event : E
  deriving DecidableEq

variable (hash) (events : B → List (ℕ × E))

/-- The logs of block `n`. -/
def blockLogs (c : List B) (n : ℕ) : List (Log H E) :=
  match (c)[n]? with
  | some b => (events b).map fun x => ⟨n, hash (c.take (n + 1)), x.1, x.2⟩
  | none => []

/-- The logs of `count` blocks. -/
def logsFrom (first count : ℕ) (c : List B) : List (Log H E) :=
  (List.range' first count).flatMap (blockLogs hash events c)

variable {events} {first count : ℕ} {log : Log H E}

theorem Shares.blockLogs_eq (h : Shares n c d) :
    blockLogs hash events c n = blockLogs hash events d n := by
  simp only [blockLogs, h.getElem?, h.2.2]

theorem Shares.logsFrom_eq {last : ℕ} (h : Shares last c d) (upto : first + count ≤ last + 1) :
    logsFrom hash events first count c = logsFrom hash events first count d := by
  refine List.flatMap_congr fun n mem => ?_
  obtain ⟨-, below⟩ := List.mem_range'_1.mp mem
  exact (h.of_le (by omega)).blockLogs_eq hash

theorem logsFrom_append (first count more : ℕ) (c : List B) :
    logsFrom hash events first (count + more) c =
      logsFrom hash events first count c ++ logsFrom hash events (first + count) more c := by
  simp only [logsFrom, ← List.flatMap_append, List.range'_append_1]

variable {hash}

theorem mem_blockLogs (h : log ∈ blockLogs hash events c n) :
    log.blockNumber = n ∧ Names hash ⟨n, log.blockHash⟩ c ∧
      ∃ b, (c)[n]? = some b ∧ (log.logIndex, log.event) ∈ events b := by
  unfold blockLogs at h
  split at h
  · rename_i b at_n
    obtain ⟨x, mem, rfl⟩ := List.mem_map.mp h
    exact ⟨rfl, ⟨(List.getElem?_eq_some_iff.mp at_n).1, rfl⟩, b, at_n, mem⟩
  · cases h

theorem mem_logsFrom (h : log ∈ logsFrom hash events first count c) :
    first ≤ log.blockNumber ∧ log.blockNumber < first + count ∧
      log ∈ blockLogs hash events c log.blockNumber := by
  obtain ⟨n, at_n, mem⟩ := List.mem_flatMap.mp h
  have same := (mem_blockLogs mem).1
  obtain ⟨above, below⟩ := List.mem_range'_1.mp at_n
  exact ⟨same ▸ above, same ▸ below, same ▸ mem⟩

/-- The events of the logs, block after block. -/
theorem map_event_logsFrom (first count : ℕ) (c : List B) :
    (logsFrom hash events first count c).map Log.event =
      ((c.drop first).take count).flatMap fun b => (events b).map Prod.snd := by
  induction count with
  | zero => simp [logsFrom]
  | succ count ih =>
    have last : (logsFrom hash events (first + count) 1 c).map Log.event =
        ((c)[first + count]?.toList).flatMap fun b => (events b).map Prod.snd := by
      cases at_last : (c)[first + count]? <;> simp [logsFrom, blockLogs, at_last]
    rw [logsFrom_append, List.map_append, ih, last, List.take_add_one, List.flatMap_append,
      List.getElem?_drop]

/-! ### The order of logs -/

/-- Before, by block and then by position in the block. -/
def Log.Before (a b : Log H E) : Prop :=
  a.blockNumber < b.blockNumber ∨ a.blockNumber = b.blockNumber ∧ a.logIndex < b.logIndex

def Log.NotAfter (a b : Log H E) : Prop :=
  a.blockNumber < b.blockNumber ∨ a.blockNumber = b.blockNumber ∧ a.logIndex ≤ b.logIndex

instance : DecidableRel (Log.NotAfter (H := H) (E := E)) := fun _ _ =>
  inferInstanceAs (Decidable (_ ∨ _))

/-- `logs.sort`. -/
def sortLogs (logs : List (Log H E)) : List (Log H E) :=
  logs.insertionSort Log.NotAfter

/-- The positions of logs in a block increase. -/
def Positioned (events : B → List (ℕ × E)) : Prop :=
  ∀ b, (events b).Pairwise fun x y => x.1 < y.1

theorem pairwise_logsFrom (positioned : Positioned events) (first count : ℕ) (c : List B) :
    (logsFrom hash events first count c).Pairwise Log.Before := by
  rw [logsFrom, List.flatMap, List.pairwise_flatten]
  refine ⟨fun logs mem => ?_, ?_⟩
  · obtain ⟨n, -, rfl⟩ := List.mem_map.mp mem
    unfold blockLogs
    split
    · exact List.pairwise_map.mpr ((positioned _).imp fun less => .inr ⟨rfl, less⟩)
    · exact .nil
  · refine List.pairwise_map.mpr ((List.pairwise_lt_range' 1).imp ?_)
    intro n m less a at_n b at_m
    rw [← (mem_blockLogs at_n).1, ← (mem_blockLogs at_m).1] at less
    exact .inl less

instance : Std.Total (Log.NotAfter (H := H) (E := E)) where
  total a b := by
    unfold Log.NotAfter
    omega

instance : IsTrans (Log H E) Log.NotAfter where
  trans a b c h h' := by
    unfold Log.NotAfter at *
    omega

/-- However the node lists the logs, they are sorted into their order on the chain. -/
theorem sortLogs_eq (positioned : Positioned events) {logs : List (Log H E)}
    (perm : logs.Perm (logsFrom hash events first count c)) :
    sortLogs logs = logsFrom hash events first count c := by
  have before : (logsFrom hash events first count c).Pairwise Log.Before :=
    pairwise_logsFrom positioned first count c
  have ordered : ∀ a ∈ logsFrom hash events first count c,
      ∀ b ∈ logsFrom hash events first count c, a = b ∨ a.Before b ∨ b.Before a := fun a at_a b at_b =>
    List.Pairwise.forall_of_forall_of_flip (R := fun a b : Log H E => a = b ∨ a.Before b ∨ b.Before a)
      (fun a _ => .inl rfl) (before.imp fun h => .inr (.inl h)) (before.imp fun h => .inr (.inr h))
      at_a at_b
  have sorted := (List.perm_insertionSort Log.NotAfter logs).trans perm
  refine List.Perm.eq_of_pairwise (fun a b at_a at_b le le' => ?_)
    (List.pairwise_insertionSort Log.NotAfter logs) (before.imp fun less => ?_) sorted
  · rcases ordered a (sorted.mem_iff.mp at_a) b at_b with same | less | less
    · exact same
    · unfold Log.Before Log.NotAfter at *
      omega
    · unfold Log.Before Log.NotAfter at *
      omega
  · exact less.imp_right fun ⟨same, index⟩ => ⟨same, index.le⟩

end Turret.Branches
