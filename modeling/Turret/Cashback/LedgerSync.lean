import Turret.Cashback.Entitlements
import Turret.Cashback.LedgerRuns

/-! `syncLedger`, the polling pass. A pass reads one canonical chain; between
passes the chain may change to any other of a family in which equal hashes mean
equal histories. The receipts of a block are those that `readCanonicalBlock`
authenticates. -/

namespace Turret.Cashback.Ledger

open Execution Function

inductive SyncError
  | invalidIndexingLimits
  | headBeyondReorganizationDepth
  | reorganizationExceedsDepth
  | chainShortened
  | ledger (e : LedgerError)
  deriving DecidableEq

/-- The canonical chain as the RPC serves it during a pass. -/
structure Chain where
  head : ℕ
  block : ℕ → Block
  number_eq : ∀ n, (block n).number = n

structure Limits where
  confirmations : ℕ
  maxBlocks : ℕ
  maxReorgDepth : ℕ
  historicalRange : ℕ

structure SyncResult where
  processed : ℕ
  head : Option Block
  target : ℤ
  more : Bool

/-- The height that is stored as the chain has it. -/
def matches? (c : Chain) (s : Ledger) (n : ℕ) : Bool :=
  decide ((s.block n).map Block.hash = some (c.block n).hash)

/-- The loop that walks back to the common height; `fuel` is the number of heights down to the
start block. -/
def walkBack (c : Chain) (s : Ledger) (maxReorgDepth : ℕ) : ℕ → ℤ → ℤ → Except SyncError ℤ
  | 0, common, _ => pure common
  | fuel + 1, common, depth =>
    if matches? c s common.toNat then pure common
    else do
      revertIf ((maxReorgDepth : ℤ) < depth + 1) .reorganizationExceedsDepth
      walkBack c s maxReorgDepth fuel (common - 1) (depth + 1)

/-- `readCanonicalRange`: the ends, the blocks with events and the published anchors between
them, or every block. -/
def readCanonicalRange (c : Chain) (first last : ℕ) (dense : Bool) : Range where
  first := first
  last := last
  blocks := ((List.range' first (last + 1 - first)).filter fun n =>
    dense || n = first || n = last || !(c.block n).receipts.isEmpty ||
      (List.range' first (last + 1 - first)).any fun m =>
        (published (c.block m)).any fun p => p.throughBlock = n).map c.block

def ingestAll : List Block → Ledger → Ledger × Except SyncError Unit
  | [], s => (s, .ok ())
  | b :: rest, s =>
    match (Call.ingest b).exec s with
    | (t, .ok _) => ingestAll rest t
    | (t, .error e) => (t, .error (.ledger e))

def ingestRange (range : Range) (s : Ledger) : Ledger × Except SyncError Unit :=
  match (Call.ingestRange range).exec s with
  | (t, .ok _) => (t, .ok ())
  | (t, .error e) => (t, .error (.ledger e))

def target (c : Chain) (limits : Limits) : ℤ := c.head - limits.confirmations

/-- The common height of the ledger and the chain, or the error of the search for it. -/
def findCommon (c : Chain) (limits : Limits) (s : Ledger) : Except SyncError ℤ := do
  revertIf (MAX_SAFE_INTEGER < s.startBlock ∨ MAX_SAFE_INTEGER < limits.confirmations ∨
    MAX_SAFE_INTEGER < limits.maxBlocks ∨ MAX_SAFE_INTEGER < limits.maxReorgDepth ∨
    limits.maxBlocks = 0 ∨ 10000 < limits.historicalRange) .invalidIndexingLimits
  let common := s.head.elim ((s.startBlock : ℤ) - 1) fun h => min (h.number : ℤ) (target c limits)
  let depth := s.head.elim 0 fun h => (h.number : ℤ) - common
  revertIf ((limits.maxReorgDepth : ℤ) < depth) .headBeyondReorganizationDepth
  let common ← walkBack c s limits.maxReorgDepth (common + 1 - s.startBlock).toNat common depth
  revertIf (∃ h ∈ s.head, common < h.number ∧ target c limits ≤ common) .chainShortened
  pure common

/-- A historical pass: the range ends well under the target and may skip empty blocks. -/
def historicalPass (c : Chain) (limits : Limits) (first : ℕ) (s : Ledger) :
    Ledger × Except SyncError Unit × ℕ × Bool :=
  let last := min (first + limits.historicalRange - 1)
    (target c limits - limits.maxReorgDepth - 1).toNat
  let (t, result) := ingestRange (readCanonicalRange c first last false) s
  (t, result, last + 1 - first, true)

/-- A pass over a dense range, block by block when stored blocks have to be replaced. -/
def densePass (c : Chain) (limits : Limits) (first : ℕ) (replacing : Bool) (s : Ledger) :
    Ledger × Except SyncError Unit × ℕ × Bool :=
  let last := min (first + limits.maxBlocks - 1) (target c limits).toNat
  let range := readCanonicalRange c first last true
  let (t, result) := if replacing then ingestAll range.blocks s else ingestRange range s
  (t, result, last + 1 - first, decide ((last : ℤ) < target c limits))

/-- A pass that reads block after block. -/
def blockPass (c : Chain) (limits : Limits) (first : ℕ) (s : Ledger) :
    Ledger × Except SyncError Unit × ℕ × Bool :=
  let count := min limits.maxBlocks (target c limits + 1 - first).toNat
  let (t, result) := ingestAll ((List.range' first count).map c.block) s
  (t, result, count,
    decide (t.head.elim ((s.startBlock : ℤ) - 1) (fun h => (h.number : ℤ)) < target c limits))

/-- What a pass writes after the search: the new ledger, and what it has processed. -/
def advance (c : Chain) (limits : Limits) (common : ℤ) (s : Ledger) :
    Ledger × Except SyncError Unit × ℕ × Bool :=
  let first := (max (s.startBlock : ℤ) (common + 1)).toNat
  if 0 < limits.historicalRange ∧ (∀ h ∈ s.head, common = h.number) ∧
      (first : ℤ) + limits.maxBlocks < target c limits - limits.maxReorgDepth then
    historicalPass c limits first s
  else if 0 < limits.historicalRange ∧ (first : ℤ) ≤ target c limits then
    densePass c limits first (decide (∃ h ∈ s.head, common < h.number)) s
  else blockPass c limits first s

def syncLedger (c : Chain) (limits : Limits) (s : Ledger) : Ledger × Except SyncError SyncResult :=
  match findCommon c limits s with
  | .error e => (s, .error e)
  | .ok common =>
    let (t, result, processed, more) := advance c limits common s
    (t, result.map fun _ => ⟨processed, t.head, target c limits, more⟩)

/-! ### What a pass leaves in the store -/

variable {b c : Chain} {limits : Limits} {s t : Ledger} {common : ℤ}

/-- Every stored block is the chain's. -/
def Follows (c : Chain) (s : Ledger) : Prop := ∀ x ∈ s.blocks, x = c.block x.number

/-- A hash determines the block and all before it. -/
def Agree (b c : Chain) : Prop :=
  ∀ n, (b.block n).hash = (c.block n).hash → ∀ m ≤ n, b.block m = c.block m

/-- The chain has not forked off inside a skipped span: the predecessor of every stored block that
is not on the confirmed chain is stored. -/
def NoSkippedFork (c : Chain) (limits : Limits) (s : Ledger) : Prop :=
  ∀ x ∈ s.blocks, (target c limits < x.number ∨ x.hash ≠ (c.block x.number).hash) →
    x.number = s.startBlock ∨ ∃ y ∈ s.blocks, y.number + 1 = x.number

theorem Chained.block_eq (h : Chained s) {x : Block} (mem : x ∈ s.blocks) :
    s.block x.number = some x := by
  obtain ⟨y, found⟩ := Option.isSome_iff_exists.mp (block_isSome.mpr ⟨x, mem, rfl⟩)
  obtain ⟨hy, number⟩ := block_eq_some found
  rw [found, h.eq_of_number hy mem number]

theorem walkBack_ok {maxReorgDepth fuel : ℕ} {start depth found : ℤ}
    (done : walkBack c s maxReorgDepth fuel start depth = .ok found) :
    found ≤ start ∧ (found = start - fuel ∨ matches? c s found.toNat ∧ start - fuel < found) ∧
      ∀ n : ℤ, found < n → n ≤ start → ¬matches? c s n.toNat := by
  induction fuel generalizing start depth with
  | zero =>
    obtain rfl := Except.ok.inj done
    exact ⟨le_rfl, .inl (by simp), fun n lt le => by omega⟩
  | succ fuel ih =>
    rw [walkBack] at done
    split_ifs at done with same
    · obtain rfl := Except.ok.inj done
      exact ⟨le_rfl, .inr ⟨same, by omega⟩, fun n lt le => by omega⟩
    · simp only [bind_eq_ok] at done
      obtain ⟨-, -, rest⟩ := done
      obtain ⟨le, ends, differs⟩ := ih rest
      refine ⟨by omega, ?_, fun n lt le' => ?_⟩
      · rcases ends with stop | ⟨hit, above⟩
        · exact .inl (by omega)
        · exact .inr ⟨hit, by omega⟩
      · by_cases top : n = start
        · rw [top]
          exact same
        · exact differs n lt (by omega)

/-- What the search establishes. -/
structure Common (c : Chain) (limits : Limits) (s : Ledger) (common : ℤ) : Prop where
  positive : 0 < limits.maxBlocks
  floor : (s.startBlock : ℤ) - 1 ≤ common
  on_chain : ∀ x ∈ s.blocks, (x.number : ℤ) ≤ common → x = c.block x.number
  behind : ∀ h, s.head = some h → common ≤ h.number ∧ (common < h.number → common < target c limits)
  differs : ∀ x ∈ s.blocks, common < x.number → (x.number : ℤ) ≤ target c limits →
    x.hash ≠ (c.block x.number).hash

theorem findCommon_ok (h : Chained s) (follows : Follows b s) (agree : Agree b c)
    (done : findCommon c limits s = .ok common) : Common c limits s common := by
  simp only [findCommon, bind_eq_ok, revertIf_eq_ok, pure_eq_ok, not_or] at done
  obtain ⟨-, ⟨-, -, -, -, positive, -⟩, -, -, found, walked, -, shortened, rfl⟩ := done
  obtain ⟨le, ends, differs⟩ := walkBack_ok walked
  cases top : s.head with
  | none =>
    have empty : s.blocks = [] := List.getLast?_eq_none_iff.mp top
    rw [top, Option.elim_none] at le ends
    refine ⟨Nat.pos_of_ne_zero positive, ?_, fun x hx => ?_, fun p same => ?_, fun x hx => ?_⟩
    · rcases ends with stop | ⟨-, above⟩ <;> omega
    · exact absurd (empty ▸ hx) List.not_mem_nil
    · cases top.symm.trans same
    · exact absurd (empty ▸ hx) List.not_mem_nil
  | some p =>
    obtain ⟨mem, highest⟩ := h.le_head top
    have started := h.started p mem
    rw [top, Option.elim_some] at le ends differs
    have confirmed : found < p.number → found < target c limits := by
      intro lt
      by_contra outside
      exact shortened ⟨p, top, lt, by omega⟩
    have floor : (s.startBlock : ℤ) - 1 ≤ found := by
      rcases ends with stop | ⟨-, above⟩ <;> omega
    refine ⟨Nat.pos_of_ne_zero positive, floor, fun x hx small => ?_, fun _ same => ?_,
      fun x hx above within => ?_⟩
    · -- The common block is stored as the chain has it, so both chains agree up to it.
      rcases ends with stop | ⟨hit, -⟩
      · have inside := h.started x hx
        omega
      · obtain ⟨y, stored, hash⟩ := Option.map_eq_some_iff.mp (of_decide_eq_true hit)
        obtain ⟨hy, number⟩ := block_eq_some stored
        rw [follows y hy, number] at hash
        have below : x.number ≤ found.toNat := by omega
        exact (follows x hx).trans (agree _ hash _ below)
    · obtain rfl := Option.some.inj (top.symm.trans same)
      exact ⟨by omega, confirmed⟩
    · intro same
      have height := highest x hx
      refine differs x.number above (by omega) ?_
      rw [Int.toNat_natCast, matches?, h.block_eq hx, decide_eq_true_eq]
      exact congrArg some same

/-- Under the head, the height after the common one is stored, and differently. -/
theorem Common.successor (k : Common c limits s common) (h : Chained s)
    (contiguous : NoSkippedFork c limits s) {p : Block} (top : s.head = some p)
    (lt : common < p.number) : ∃ x ∈ s.blocks, (x.number : ℤ) = common + 1 ∧
      x.hash ≠ (c.block x.number).hash := by
  classical
  have above : ∃ n, ∃ x ∈ s.blocks, x.number = n ∧ common < n :=
    ⟨_, p, (h.le_head top).1, rfl, lt⟩
  obtain ⟨x, hx, number, outside⟩ := Nat.find_spec above
  have least : ∀ y ∈ s.blocks, common < y.number → x.number ≤ y.number := by
    intro y hy greater
    rw [number]
    exact Nat.find_min' above ⟨y, hy, rfl, greater⟩
  rw [← number] at outside
  have confirmed := (k.behind p top).2 lt
  have floor := k.floor
  have next : (x.number : ℤ) = common + 1 := by
    have leaves : target c limits < x.number ∨ x.hash ≠ (c.block x.number).hash := by
      by_cases within : (x.number : ℤ) ≤ target c limits
      · exact .inr (k.differs x hx outside within)
      · exact .inl (by omega)
    rcases contiguous x hx leaves with start | ⟨y, hy, previous⟩
    · omega
    · by_contra ne
      have small := least y hy (by omega)
      omega
  exact ⟨x, hx, next, k.differs x hx outside (by omega)⟩

/-- A block of the chain above everything stored keeps the store on the chain. -/
theorem ingestAll_above (h : Chained s) (follows : Follows c s) {ns : List ℕ}
    (ascending : ns.Pairwise (· < ·)) (above : ∀ x ∈ s.blocks, ∀ n ∈ ns, x.number < n) :
    Chained (ingestAll (ns.map c.block) s).1 ∧ Follows c (ingestAll (ns.map c.block) s).1 := by
  induction ns generalizing s with
  | nil => exact ⟨h, follows⟩
  | cons n ns ih =>
    obtain ⟨first, later⟩ := List.pairwise_cons.mp ascending
    rw [List.map_cons, ingestAll]
    have clean : NoGapBelow (c.block n) s := by
      right
      intro x hx
      rw [c.number_eq]
      exact above x hx n List.mem_cons_self
    cases outcome : (Call.ingest (c.block n)).exec s with
    | mk u result =>
      cases result with
      | error e =>
        have same : u = s := by
          have failed : ((Call.ingest (c.block n)).exec s).2 = .error e := by rw [outcome]
          have kept := Call.exec_error failed
          rwa [outcome] at kept
        rw [same]
        exact ⟨h, follows⟩
      | ok _ =>
        have done : ((Call.ingest (c.block n)).exec s).2 = .ok () := by rw [outcome]
        have ran := Call.exec_ok done
        rw [outcome] at ran
        rcases ingestBody_ok clean ran with ⟨rfl, -⟩ | i
        · exact ih h follows later fun x hx m hm => above x hx m (List.mem_cons_of_mem _ hm)
        · have blocks := i.blocks
          rw [c.number_eq] at blocks
          refine ih (i.chained h) (fun x hx => ?_) later fun x hx m hm => ?_
          all_goals rw [blocks, List.mem_append, mem_below, List.mem_singleton] at hx
          · rcases hx with ⟨hx, -⟩ | rfl
            · exact follows x hx
            · rw [c.number_eq]
          · rcases hx with ⟨hx, -⟩ | rfl
            · exact above x hx m (List.mem_cons_of_mem _ hm)
            · rw [c.number_eq]
              exact first m hm

/-- The first block after the common one replaces what has left the chain. -/
theorem ingestAll_fork (h : Chained s) {x : Block} (hx : x ∈ s.blocks)
    (differs : x.hash ≠ (c.block x.number).hash)
    (below : ∀ y ∈ s.blocks, y.number < x.number → y = c.block y.number) {ns : List ℕ}
    (ascending : (x.number :: ns).Pairwise (· < ·)) :
    (∃ e, ingestAll ((x.number :: ns).map c.block) s = (s, .error e)) ∨
      Chained (ingestAll ((x.number :: ns).map c.block) s).1 ∧
        Follows c (ingestAll ((x.number :: ns).map c.block) s).1 := by
  obtain ⟨first, later⟩ := List.pairwise_cons.mp ascending
  have stored : s.block (c.block x.number).number = some x := by
    rw [c.number_eq, h.block_eq hx]
  have clean : NoGapBelow (c.block x.number) s := .inl (by rw [stored]; rfl)
  rw [List.map_cons, ingestAll]
  cases outcome : (Call.ingest (c.block x.number)).exec s with
  | mk u result =>
    cases result with
    | error e =>
      left
      have failed : ((Call.ingest (c.block x.number)).exec s).2 = .error e := by rw [outcome]
      have kept := Call.exec_error failed
      rw [outcome] at kept
      exact ⟨.ledger e, congrArg (·, _) kept⟩
    | ok _ =>
      right
      have done : ((Call.ingest (c.block x.number)).exec s).2 = .ok () := by rw [outcome]
      have ran := Call.exec_ok done
      rw [outcome] at ran
      rcases ingestBody_ok clean ran with ⟨-, same⟩ | i
      · rw [stored] at same
        exact absurd (Option.some.inj same) differs
      · have blocks := i.blocks
        rw [c.number_eq] at blocks
        refine ingestAll_above (i.chained h) (fun y hy => ?_) later fun y hy m hm => ?_
        all_goals rw [blocks, List.mem_append, mem_below, List.mem_singleton] at hy
        · rcases hy with ⟨hy, under⟩ | rfl
          · exact below y hy under
          · rw [c.number_eq]
        · rcases hy with ⟨hy, under⟩ | rfl
          · exact under.trans (first m hm)
          · rw [c.number_eq]
            exact first m hm

theorem pairwise_range' (n count : ℕ) : (List.range' n count).Pairwise (· < ·) :=
  List.pairwise_lt_range'

/-- A range that is appended leaves the store on the chain. -/
theorem ingestRange_follows (h : Chained s) (follows : Follows c s) (first last : ℕ)
    (dense : Bool) :
    Chained (ingestRange (readCanonicalRange c first last dense) s).1 ∧
      Follows c (ingestRange (readCanonicalRange c first last dense) s).1 := by
  rw [ingestRange]
  cases outcome : (Call.ingestRange (readCanonicalRange c first last dense)).exec s with
  | mk u result =>
    cases result with
    | error e =>
      have failed : ((Call.ingestRange (readCanonicalRange c first last dense)).exec s).2 =
          .error e := by rw [outcome]
      have kept := Call.exec_error failed
      rw [outcome] at kept
      dsimp only at kept ⊢
      rw [kept]
      exact ⟨h, follows⟩
    | ok _ =>
      have done : ((Call.ingestRange (readCanonicalRange c first last dense)).exec s).2 =
          .ok () := by rw [outcome]
      have ran := Call.exec_ok done
      rw [outcome] at ran
      obtain ⟨chained, protects⟩ := ingestRangeBody_ok h ran
      obtain ⟨blocks, -, start, -⟩ := protectAll_tables protects
      refine ⟨chained.of_blocks blocks start, fun x hx => ?_⟩
      rw [blocks, List.mem_append] at hx
      rcases hx with hx | hx
      · exact follows x hx
      · obtain ⟨n, -, rfl⟩ := List.mem_map.mp hx
        rw [c.number_eq]

theorem readCanonicalRange_dense (first last : ℕ) :
    (readCanonicalRange c first last true).blocks =
      (List.range' first (last + 1 - first)).map c.block := by
  simp [readCanonicalRange]

/-- When nothing stored has left the chain, the pass appends. -/
theorem advance_above (k : Common c limits s common) (h : Chained s)
    (atHead : ∀ p, s.head = some p → common = p.number) :
    Chained (advance c limits common s).1 ∧ Follows c (advance c limits common s).1 := by
  have within : ∀ x ∈ s.blocks, (x.number : ℤ) ≤ common := by
    intro x hx
    cases top : s.head with
    | none => exact absurd hx (by simp [List.getLast?_eq_none_iff.mp top])
    | some p =>
      have le := (h.le_head top).2 x hx
      have same := atHead p top
      omega
  have follows : Follows c s := fun x hx => k.on_chain x hx (within x hx)
  have appended : ∀ first : ℕ, common < first → ∀ count,
      Chained (ingestAll ((List.range' first count).map c.block) s).1 ∧
        Follows c (ingestAll ((List.range' first count).map c.block) s).1 := by
    intro first after count
    refine ingestAll_above h follows (pairwise_range' _ _) fun x hx n hn => ?_
    have low := (List.mem_range'_1.mp hn).1
    have small := within x hx
    omega
  have after : common < (max (s.startBlock : ℤ) (common + 1)).toNat := by omega
  rw [advance]
  by_cases sparse : 0 < limits.historicalRange ∧ (∀ p ∈ s.head, common = p.number) ∧
      ((max (s.startBlock : ℤ) (common + 1)).toNat : ℤ) + limits.maxBlocks <
        target c limits - limits.maxReorgDepth
  · rw [if_pos sparse]
    exact ingestRange_follows h follows _ _ _
  rw [if_neg sparse]
  by_cases dense : 0 < limits.historicalRange ∧
      ((max (s.startBlock : ℤ) (common + 1)).toNat : ℤ) ≤ target c limits
  · have extending : decide (∃ p ∈ s.head, common < p.number) = false := by
      refine decide_eq_false fun found => ?_
      obtain ⟨p, top, lt⟩ := found
      have same := atHead p top
      omega
    rw [if_pos dense, extending]
    exact ingestRange_follows h follows _ _ _
  · rw [if_neg dense]
    exact appended _ after _

/-- When stored blocks have left the chain, a pass that completes has removed them. -/
theorem advance_fork (k : Common c limits s common) (h : Chained s)
    (contiguous : NoSkippedFork c limits s) {p : Block} (top : s.head = some p)
    (lt : common < p.number) :
    (∃ e, (advance c limits common s).1 = s ∧ (advance c limits common s).2.1 = .error e) ∨
      Chained (advance c limits common s).1 ∧ Follows c (advance c limits common s).1 := by
  obtain ⟨x, hx, next, differs⟩ := k.successor h contiguous top lt
  have confirmed := (k.behind p top).2 lt
  have positive := k.positive
  have first_eq : (max (s.startBlock : ℤ) (common + 1)).toNat = x.number := by
    have floor := k.floor
    omega
  have below : ∀ y ∈ s.blocks, y.number < x.number → y = c.block y.number :=
    fun y hy under => k.on_chain y hy (by omega)
  have forked : ∀ count, 0 < count →
      (∃ e, ingestAll ((List.range' x.number count).map c.block) s = (s, .error e)) ∨
      Chained (ingestAll ((List.range' x.number count).map c.block) s).1 ∧
        Follows c (ingestAll ((List.range' x.number count).map c.block) s).1 := by
    intro count some_block
    obtain ⟨more, rfl⟩ := Nat.exists_eq_add_of_lt some_block
    have ascending := pairwise_range' x.number (0 + more + 1)
    rw [List.range'_succ] at ascending ⊢
    exact ingestAll_fork h hx differs below ascending
  have sparse : ¬(0 < limits.historicalRange ∧ (∀ p ∈ s.head, common = p.number) ∧
      (x.number : ℤ) + limits.maxBlocks < target c limits - limits.maxReorgDepth) := by
    rintro ⟨-, atHead, -⟩
    have same := atHead p top
    omega
  have replacing : decide (∃ p ∈ s.head, common < p.number) = true :=
    decide_eq_true ⟨p, top, lt⟩
  rw [advance, first_eq, replacing, if_neg sparse]
  by_cases dense : 0 < limits.historicalRange ∧ (x.number : ℤ) ≤ target c limits
  · rw [if_pos dense, densePass, if_pos rfl, readCanonicalRange_dense]
    rcases forked (min (x.number + limits.maxBlocks - 1) (target c limits).toNat + 1 - x.number)
      (by omega) with ⟨e, failed⟩ | done
    · exact .inl ⟨e, by rw [failed], by rw [failed]⟩
    · exact .inr done
  · rw [if_neg dense, blockPass]
    rcases forked (min limits.maxBlocks (target c limits + 1 - x.number).toNat) (by omega) with
      ⟨e, failed⟩ | done
    · exact .inl ⟨e, by rw [failed], by rw [failed]⟩
    · exact .inr done

/-- A pass leaves the store on one chain, and on the pass's chain when it completes. -/
theorem syncLedger_follows (h : Chained s) (follows : Follows b s) (agree : Agree b c)
    (contiguous : NoSkippedFork c limits s) :
    Chained (syncLedger c limits s).1 ∧
      (Follows b (syncLedger c limits s).1 ∨ Follows c (syncLedger c limits s).1) ∧
      ∀ result, (syncLedger c limits s).2 = .ok result → Follows c (syncLedger c limits s).1 := by
  rw [syncLedger]
  cases search : findCommon c limits s with
  | error e => exact ⟨h, .inl follows, fun result done => by cases done⟩
  | ok common =>
    have k := findCommon_ok h follows agree search
    by_cases atHead : ∀ p, s.head = some p → common = p.number
    · obtain ⟨chained, moved⟩ := advance_above k h atHead
      exact ⟨chained, .inr moved, fun _ _ => moved⟩
    · push Not at atHead
      obtain ⟨p, top, ne⟩ := atHead
      have le := (k.behind p top).1
      rcases advance_fork k h contiguous top (by omega) with ⟨e, same, failed⟩ | ⟨chained, moved⟩
      · dsimp only
        rw [same, failed]
        exact ⟨h, .inl follows, fun result done => by cases done⟩
      · exact ⟨chained, .inr moved, fun _ _ => moved⟩

/-! ### Integrity -/

/-- Chains of one network: a hash determines a block and all before it. -/
def Network (chains : Set Chain) : Prop := ∀ b ∈ chains, ∀ c ∈ chains, Agree b c

/-- A pass against a chain of the network that has not forked off in a skipped span. -/
def passStep (chains : Set Chain) (s : Ledger) (pass : Chain × Limits) (t : Ledger) : Prop :=
  pass.1 ∈ chains ∧ NoSkippedFork pass.1 pass.2 s ∧ t = (syncLedger pass.1 pass.2 s).1

theorem passes_follow {chains : Set Chain} (network : Network chains) (some_chain : b ∈ chains)
    (h : Chained s) (empty : s.blocks = []) {passes : List (Chain × Limits)}
    (run : Run (passStep chains) s passes t) : Chained t ∧ ∃ c ∈ chains, Follows c t := by
  refine run.invariant (fun u => Chained u ∧ ∃ c ∈ chains, Follows c u)
    (fun s pass u sound moved => ?_) ⟨h, b, some_chain, fun x hx => ?_⟩
  · obtain ⟨chained, b, hb, follows⟩ := sound
    obtain ⟨mem, contiguous, rfl⟩ := moved
    obtain ⟨chained', either, -⟩ := syncLedger_follows chained follows (network b hb _ mem) contiguous
    refine ⟨chained', ?_⟩
    rcases either with kept | moved
    · exact ⟨b, hb, kept⟩
    · exact ⟨_, mem, moved⟩
  · exact absurd (empty ▸ hx) List.not_mem_nil

/-- The integrity of the ledger in every run of calls that insert no block into a skipped span
under a stored one and publish no root for two blocks, and of passes whose chain has not forked
off in a skipped span. -/
theorem ledger_integrity (policy : Policy) (startBlock : ℕ) (s : Ledger)
    (fresh : constructed policy startBlock = .ok s) :
    (∀ calls t, Run cleanStep s calls t →
      (∀ x ∈ t.blocks, ∀ y ∈ t.blocks, y.number = x.number + 1 → y.parentHash = x.hash) ∧
      (∀ p ∈ t.checkpoints, ∃ x ∈ t.blocks, x.number = p.throughBlock ∧ x.hash = p.blockHash) ∧
      ∀ call : Call,
        (∀ e, (call.exec t).2 = .error e → (call.exec t).1 = t) ∧
        (call.Clean t →
          (∀ p ∈ t.checkpoints, ∀ x ∈ t.blocks, x.number ≤ p.throughBlock →
            x ∈ (call.exec t).1.blocks) ∧
          ∀ b, call = .ingest b → (call.exec t).2 = .ok () →
            (t.block b.number).map Block.hash ≠ some b.hash →
            (call.exec t).1.head = some b ∧ ∀ x ∈ (call.exec t).1.blocks, x.number ≤ b.number)) ∧
    ∀ chains, Network chains → chains.Nonempty → ∀ passes t, Run (passStep chains) s passes t →
      (∃ c ∈ chains, Follows c t) ∧
      ∀ c ∈ chains, ∀ limits, NoSkippedFork c limits t → ∀ result,
        (syncLedger c limits t).2 = .ok result → Follows c (syncLedger c limits t).1 := by
  have initial := sound_constructed fresh
  refine ⟨fun calls t run => ?_, fun chains network some_chain passes t run => ?_⟩
  · have sound := run_sound initial run
    refine ⟨sound.linked, sound.backed, fun call => ⟨fun e failed => Call.exec_error failed,
      fun clean => ⟨(Call.exec_keeps sound clean).2, fun b same done new => ?_⟩⟩⟩
    have kept := Call.body_ok sound clean (Call.exec_ok done)
    obtain ⟨head, blocks⟩ := kept.fresh b same new
    refine ⟨head, fun x hx => ?_⟩
    exact (kept.sound.toChained.le_head head).2 x hx
  · obtain ⟨b, hb⟩ := some_chain
    have empty : s.blocks = [] := by
      simp only [constructed, bind_eq_ok, revertIf_eq_ok, pure_eq_ok] at fresh
      obtain ⟨-, -, -, -, rfl⟩ := fresh
      rfl
    obtain ⟨chained, c, hc, follows⟩ := passes_follow network hb initial.toChained empty run
    exact ⟨⟨c, hc, follows⟩, fun d hd limits contiguous result done =>
      (syncLedger_follows chained follows (network c hc d hd) contiguous).2.2 result done⟩

/-! ### A skipped span -/

def emptyBlock (number : ℕ) (hash parentHash : String) : Block :=
  ⟨number, hash, parentHash, 1000, []⟩

/-- The ends of a range of five blocks. -/
def sparseRange : Range := ⟨1, 5, [emptyBlock 1 "0xa1" "0xa0", emptyBlock 5 "0xa5" "0xa4"]⟩

def sampleLedger : Ledger := ⟨samplePolicy, 1, [], [], []⟩

/-- Replacement blocks go into the skipped span and the orphan above them stays. -/
def forkCalls : List Call :=
  [.ingestRange sparseRange, .ingest (emptyBlock 2 "0xb2" "0xa1"),
    .ingest (emptyBlock 3 "0xb3" "0xb2"), .ingest (emptyBlock 4 "0xb4" "0xb3")]

def execAll (calls : List Call) (s : Ledger) : Ledger :=
  calls.foldl (fun s call => (call.exec s).1) s

theorem constructed_sample : constructed samplePolicy 1 = .ok sampleLedger := by
  have accepted : accountReceipts samplePolicy [] none = .ok [] := by decide +kernel
  have small : ¬MAX_SAFE_INTEGER < 1 := by decide
  simp only [constructed, revertIf, if_neg small, accepted]
  rfl

/-- After each new block is ingested without an error the head is another block, and at the end
two consecutive blocks are not linked. -/
theorem skipped_span_keeps_orphan :
    constructed samplePolicy 1 = .ok sampleLedger ∧
    (∀ n ∈ [2, 3, 4], ((forkCalls[n - 1]?.map fun call =>
        (call.exec (execAll (forkCalls.take (n - 1)) sampleLedger)).2) = some (.ok ())) ∧
      (execAll (forkCalls.take n) sampleLedger).head.map Block.number = some 5) ∧
    ¬(∀ x ∈ (execAll forkCalls sampleLedger).blocks, ∀ y ∈ (execAll forkCalls sampleLedger).blocks,
      y.number = x.number + 1 → y.parentHash = x.hash) :=
  ⟨constructed_sample, by decide +kernel, by decide +kernel⟩

theorem sample_ledger_integrity :
    ∃ t, Run cleanStep sampleLedger [.ingestRange sparseRange] t ∧ t.blocks.length = 2 ∧
      ∀ x ∈ t.blocks, ∀ y ∈ t.blocks, y.number = x.number + 1 → y.parentHash = x.hash := by
  have moved : cleanStep sampleLedger (.ingestRange sparseRange)
      ((Call.ingestRange sparseRange).exec sampleLedger).1 := by
    refine ⟨?_, rfl⟩
    have none_published :
        sampleLedger.publications ++ sparseRange.blocks.flatMap published = [] := by
      decide +kernel
    intro p hp
    rw [none_published] at hp
    cases hp
  refine ⟨_, Run.single moved, by decide +kernel, ?_⟩
  exact ((ledger_integrity _ _ _ constructed_sample).1 _ _ (Run.single moved)).1

end Turret.Cashback.Ledger
