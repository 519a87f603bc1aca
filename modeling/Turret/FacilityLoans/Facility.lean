import Turret.Library.Branches
import Turret.Library.Ledger

/-! The loans of a lender facility, as far as the index of its history reads
them: the counter, and the terms and status of each loan. What a successful
call checks of quotes, times and amounts does not matter here, so that a call
is its effect under its status check; `draw` comes with the number that it
returns. -/

namespace Turret.FacilityLoans

open Branches Function

inductive Status
  | none
  | active
  | repaid
  | defaulted
  deriving DecidableEq

def Status.code : Status → ℕ
  | none => 0
  | active => 1
  | repaid => 2
  | defaulted => 3

structure Loan where
  borrower : Address
  vault : Address
  principal : ℕ
  interest : ℕ
  dueAt : ℕ
  status : Status
  deriving DecidableEq

structure Facility where
  nextLoanId : ℕ
  loans : ℕ → Loan

def zero : Address := Fin.ofNat (2 ^ 160) 0

def deployed : Facility := ⟨1, fun _ => ⟨zero, zero, 0, 0, 0, .none⟩⟩

inductive Op
  | draw (id : ℕ) (borrower vault : Address) (principal interest dueAt : ℕ)
  | repay (id : ℕ)
  | claimDefault (id : ℕ)
  | acceptExtension (id dueAt : ℕ)
  deriving DecidableEq

/-- `if (loan.status != Status.Active) revert`. -/
def changeActive (id : ℕ) (change : Loan → Loan) (f : Facility) : Option Facility :=
  if (f.loans id).status = .active then
    some { f with loans := update f.loans id (change (f.loans id)) }
  else Option.none

def exec (f : Facility) : Op → Option Facility
  | .draw id borrower vault principal interest dueAt =>
    if id = f.nextLoanId ∧ f.nextLoanId + 1 < 2 ^ 256 then
      some ⟨f.nextLoanId + 1,
        update f.loans id ⟨borrower, vault, principal, interest, dueAt, .active⟩⟩
    else Option.none
  | .repay id => changeActive id (fun loan => { loan with status := .repaid }) f
  | .claimDefault id => changeActive id (fun loan => { loan with status := .defaulted }) f
  | .acceptExtension id dueAt => changeActive id (fun loan => { loan with dueAt }) f

/-- What the index keeps of a `LoanOpened`. -/
structure LoanOpened where
  id : ℕ
  borrower : Address
  deriving DecidableEq

def Op.event : Op → Option LoanOpened
  | .draw id borrower _ _ _ _ => some ⟨id, borrower⟩
  | _ => Option.none

/-- The calls of the facility in a block, by the positions of their logs; `rest` stands for all
else that the hash commits to. -/
structure Block where
  ops : List (ℕ × Op)
  positioned : ops.Pairwise fun x y => x.1 < y.1
  rest : ℕ
  deriving DecidableEq

def Block.events (b : Block) : List (ℕ × LoanOpened) :=
  b.ops.filterMap fun x => x.2.event.map fun e => (x.1, e)

/-- The facility at the end of a branch. -/
def facilityAt (branch : List Block) : Option Facility :=
  (branch.flatMap fun b => b.ops.map Prod.snd).foldlM exec deployed

/-- A chain that the facility was deployed on at `startBlock`; block numbers are 256-bit. -/
structure Lawful (startBlock : ℕ) (c : List Block) : Prop where
  nonempty : c ≠ []
  short : c.length < 2 ^ 256
  runs : (facilityAt c).isSome
  undeployed : ∀ b ∈ c.take startBlock, b.ops = []

theorem lawful_iff (startBlock : ℕ) (c : List Block) :
    (c ≠ [] ∧ c.length < 2 ^ 256 ∧ (facilityAt c).isSome ∧ ∀ b ∈ c.take startBlock, b.ops = []) ↔
      Lawful startBlock c :=
  ⟨fun ⟨a, b, d, e⟩ => ⟨a, b, d, e⟩, fun h => ⟨h.nonempty, h.short, h.runs, h.undeployed⟩⟩

instance (startBlock : ℕ) (c : List Block) : Decidable (Lawful startBlock c) :=
  decidable_of_iff _ (lawful_iff startBlock c)

/-! ### Loans are numbered in their order -/

/-- The events so far have the numbers from one on, below the counter. -/
structure Numbered (events : List LoanOpened) (f : Facility) : Prop where
  ids : events.map LoanOpened.id = List.range' 1 events.length
  next : f.nextLoanId = events.length + 1
  bound : f.nextLoanId < 2 ^ 256

variable {events : List LoanOpened} {f g : Facility} {startBlock : ℕ} {c : List Block}

theorem changeActive_nextLoanId {id : ℕ} {change : Loan → Loan}
    (done : changeActive id change f = some g) : g.nextLoanId = f.nextLoanId := by
  simp only [changeActive, Option.ite_none_right_eq_some, Option.some.injEq] at done
  obtain ⟨-, rfl⟩ := done
  rfl

theorem Numbered.exec {op : Op} (h : Numbered events f) (done : exec f op = some g) :
    Numbered (events ++ op.event.toList) g := by
  have silent : g.nextLoanId = f.nextLoanId → Numbered (events ++ []) g := fun same => by
    rw [List.append_nil]
    exact ⟨h.ids, same.trans h.next, same ▸ h.bound⟩
  cases op with
  | draw id borrower vault principal interest dueAt =>
    simp only [FacilityLoans.exec, Option.ite_none_right_eq_some, Option.some.injEq] at done
    obtain ⟨⟨rfl, room⟩, rfl⟩ := done
    simp only [Op.event, Option.toList_some]
    refine ⟨?_, by simp [h.next], room⟩
    rw [List.map_append, h.ids, List.length_append, List.map_singleton, List.length_singleton,
      List.range'_concat, h.next]
    simp [Nat.add_comm]
  | repay id =>
    simp only [FacilityLoans.exec] at done
    exact silent (changeActive_nextLoanId done)
  | claimDefault id =>
    simp only [FacilityLoans.exec] at done
    exact silent (changeActive_nextLoanId done)
  | acceptExtension id dueAt =>
    simp only [FacilityLoans.exec] at done
    exact silent (changeActive_nextLoanId done)

theorem Numbered.foldlM {ops : List Op} (h : Numbered events f)
    (done : ops.foldlM FacilityLoans.exec f = some g) :
    Numbered (events ++ ops.flatMap fun op => op.event.toList) g := by
  induction ops generalizing events f with
  | nil =>
    cases done
    simpa using h
  | cons op ops ih =>
    rw [List.foldlM_cons, Option.bind_eq_bind, Option.bind_eq_some_iff] at done
    obtain ⟨mid, first, rest⟩ := done
    simpa only [List.append_assoc, List.flatMap_cons] using ih (h.exec first) rest

theorem events_eq (branch : List Block) :
    (branch.flatMap fun b => b.events.map Prod.snd) =
      (branch.flatMap fun b => b.ops.map Prod.snd).flatMap fun op => op.event.toList := by
  have one : ∀ b : Block, b.events.map Prod.snd =
      (b.ops.map Prod.snd).flatMap fun op => op.event.toList := by
    intro b
    rw [Block.events]
    induction b.ops with
    | nil => rfl
    | cons x ops ih => cases at_x : x.2.event <;> simp [at_x, ih]
  simp only [one, List.flatMap_assoc]

theorem numbered_facilityAt {branch : List Block} (h : facilityAt branch = some f) :
    Numbered (branch.flatMap fun b => b.events.map Prod.snd) f := by
  have none : Numbered [] deployed := ⟨rfl, rfl, by decide⟩
  rw [events_eq]
  exact none.foldlM h

theorem Lawful.facilityAt_take (h : Lawful startBlock c) (k : ℕ) :
    ∃ f, facilityAt (c.take k) = some f := by
  have whole := h.runs
  rw [← List.take_append_drop k c, facilityAt, List.flatMap_append, List.foldlM_append] at whole
  cases at_k : facilityAt (c.take k) with
  | none =>
    rw [← facilityAt, at_k] at whole
    cases whole
  | some f => exact ⟨f, rfl⟩

theorem Lawful.take (h : Lawful startBlock c) {k : ℕ} (positive : 0 < k) :
    Lawful startBlock (c.take k) where
  nonempty := by
    rw [Ne, List.take_eq_nil_iff, not_or]
    exact ⟨positive.ne', h.nonempty⟩
  short := (List.length_take_le' _ _).trans_lt h.short
  runs := by
    obtain ⟨f, at_k⟩ := h.facilityAt_take k
    simp [at_k]
  undeployed := by
    intro b mem
    rw [List.take_take, Nat.min_comm, ← List.take_take] at mem
    exact h.undeployed b (List.mem_of_mem_take mem)

theorem positioned_events : Positioned Block.events := by
  intro b
  rw [Block.events, List.pairwise_filterMap]
  refine b.positioned.imp fun {p q} less y at_y z at_z => ?_
  obtain ⟨e, -, rfl⟩ := Option.map_eq_some_iff.mp at_y
  obtain ⟨e', -, rfl⟩ := Option.map_eq_some_iff.mp at_z
  exact less

/-! ### The rows of a branch -/

/-- A stored loan. -/
structure Row where
  id : ℕ
  borrower : Address
  openedBlock : ℕ
  deriving DecidableEq

variable {H : Type} (hash : List Block → H)

def rowOf (log : Log H LoanOpened) : Row := ⟨log.event.id, log.event.borrower, log.blockNumber⟩

/-- The loans opened in the first `count` blocks, in their order. -/
def opened (count : ℕ) (c : List Block) : List Row :=
  (logsFrom hash Block.events 0 count c).map rowOf

variable {hash} {count first : ℕ} {d : List Block}

theorem opened_eq {last : ℕ} (h : Shares last c d) (upto : count ≤ last + 1) :
    opened hash count c = opened hash count d := by
  rw [opened, opened, h.logsFrom_eq hash (by omega)]

theorem opened_append (first count : ℕ) (c : List Block) :
    opened hash (first + count) c =
      opened hash first c ++ (logsFrom hash Block.events first count c).map rowOf := by
  rw [opened, opened, logsFrom_append, List.map_append, Nat.zero_add]

theorem openedBlock_lt {row : Row} (h : row ∈ opened hash count c) : row.openedBlock < count := by
  obtain ⟨log, mem, rfl⟩ := List.mem_map.mp h
  have below := (mem_logsFrom mem).2.1
  rw [Nat.zero_add] at below
  exact below

/-- What is left of the rows when those of later blocks are deleted. -/
theorem filter_opened (le : first ≤ count) :
    (opened hash count c).filter (·.openedBlock < first) = opened hash first c := by
  obtain ⟨more, rfl⟩ := Nat.exists_eq_add_of_le le
  have earlier : (opened hash first c).filter (·.openedBlock < first) = opened hash first c :=
    List.filter_eq_self.mpr fun row mem => decide_eq_true (openedBlock_lt mem)
  have later : ((logsFrom hash Block.events first more c).map rowOf).filter
      (·.openedBlock < first) = [] := by
    refine List.filter_eq_nil_iff.mpr fun row mem => ?_
    obtain ⟨log, at_log, rfl⟩ := List.mem_map.mp mem
    have above := (mem_logsFrom at_log).1
    exact fun less => absurd (of_decide_eq_true less) (not_lt.mpr above)
  rw [opened_append, List.filter_append, earlier, later, List.append_nil]

theorem Lawful.opened_start (h : Lawful startBlock c) (le : count ≤ startBlock) :
    opened hash count c = [] := by
  have silent : ((c.drop 0).take count).flatMap (fun b => b.events.map Prod.snd) = [] := by
    refine List.flatMap_eq_nil_iff.mpr fun b mem => ?_
    rw [List.drop_zero] at mem
    have before : b ∈ c.take startBlock := (List.take_prefix_take_left le).subset mem
    simp [Block.events, h.undeployed b before]
  have events : (logsFrom hash Block.events 0 count c).map Log.event = _ :=
    map_event_logsFrom 0 count c
  rw [silent, List.map_eq_nil_iff] at events
  rw [opened, events, List.map_nil]

theorem Lawful.opened_ids (h : Lawful startBlock c) (count : ℕ) :
    (opened hash count c).map Row.id = List.range' 1 (opened hash count c).length ∧
      (opened hash count c).length + 1 < 2 ^ 256 := by
  obtain ⟨f, at_count⟩ := h.facilityAt_take count
  have events : (logsFrom hash Block.events 0 count c).map Log.event = _ :=
    map_event_logsFrom 0 count c
  have numbered := numbered_facilityAt at_count
  rw [List.drop_zero] at events
  rw [← events] at numbered
  obtain ⟨ids, next, bound⟩ := numbered
  rw [List.map_map, List.length_map] at ids
  rw [List.length_map] at next
  rw [opened, List.map_map, List.length_map]
  exact ⟨ids, next ▸ bound⟩

end Turret.FacilityLoans
