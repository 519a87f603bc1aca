import Turret.Cashback.Ledger

/-! Runs of the ledger. A block that is inserted with nothing stored above it
becomes the head; then consecutive blocks stay linked and what is below a
checkpoint stays. A block inserted into a skipped span does not remove what is
stored above it, and a root that is published again is not recorded again. -/

namespace Turret.Cashback.Ledger

open Execution Function

variable {s t : Ledger} {b : Block} {p : Publication} {ps : List Publication}

/-! ### Tables -/

theorem block_eq_some {number : ℕ} (h : s.block number = some b) :
    b ∈ s.blocks ∧ b.number = number :=
  ⟨List.mem_of_find?_eq_some h, by simpa using List.find?_some h⟩

theorem block_isSome {number : ℕ} :
    (s.block number).isSome ↔ ∃ b ∈ s.blocks, b.number = number := by
  simp [block, List.find?_isSome]

/-- Above everything stored, an insertion appends. -/
theorem orderedInsert_above {l : List Block} (h : ∀ c ∈ l, c.number < b.number) :
    l.orderedInsert (fun x y => x.number ≤ y.number) b = l ++ [b] := by
  induction l with
  | nil => rfl
  | cons c l ih =>
    have below := h c List.mem_cons_self
    rw [List.orderedInsert_cons, if_neg (Nat.not_le.mpr below),
      ih fun d mem => h d (List.mem_cons_of_mem _ mem), List.cons_append]

theorem insertBlock_above (h : ∀ c ∈ s.blocks, c.number < b.number)
    (done : s.insertBlock b = .ok t) : t = { s with blocks := s.blocks ++ [b] } := by
  simp only [insertBlock, bind_eq_ok, pure_eq_ok] at done
  obtain ⟨-, -, rfl⟩ := done
  rw [orderedInsert_above h]

/-! ### Checkpoints -/

theorem protectPublication_ok (done : protectPublication p s = .ok t) :
    t = s.insertPublication p ∧ ∃ b ∈ s.blocks, b.number = p.throughBlock ∧ b.hash = p.blockHash := by
  simp only [protectPublication, bind_eq_ok, revertIf_eq_ok, pure_eq_ok, not_not] at done
  obtain ⟨-, anchored, rfl⟩ := done
  obtain ⟨b, found, same⟩ := Option.map_eq_some_iff.mp anchored
  obtain ⟨mem, number⟩ := block_eq_some found
  exact ⟨rfl, b, mem, number, same⟩

/-- Two publications of one root name one block. -/
def RootsAgree (ps : List Publication) (s : Ledger) : Prop :=
  ∀ p ∈ s.publications ++ ps, ∀ q ∈ s.publications ++ ps, p.root = q.root →
    p.throughBlock = q.throughBlock

/-- Every accepted checkpoint is stored and has a row that protects its block. -/
structure Protected (s : Ledger) : Prop where
  backed : ∀ c ∈ s.checkpoints, ∃ b ∈ s.blocks, b.number = c.throughBlock ∧ b.hash = c.blockHash
  recorded : ∀ c ∈ s.checkpoints, ∃ row ∈ s.publications, row.throughBlock = c.throughBlock

theorem Protected.insertPublication (h : Protected s)
    (agree : ∀ row ∈ s.publications, row.root = p.root → row.throughBlock = p.throughBlock)
    (anchored : ∃ b ∈ s.blocks, b.number = p.throughBlock ∧ b.hash = p.blockHash) :
    Protected (s.insertPublication p) := by
  refine ⟨fun c mem => ?_, fun c mem => ?_⟩
  · rcases List.mem_append.mp mem with old | new
    · exact h.backed c old
    · rw [List.mem_singleton.mp new]
      exact anchored
  · rw [Ledger.insertPublication]
    dsimp only
    rcases List.mem_append.mp mem with old | new
    · obtain ⟨row, hr, same⟩ := h.recorded c old
      refine ⟨row, ?_, same⟩
      split_ifs
      · exact hr
      · exact List.mem_append_left _ hr
    · rw [List.mem_singleton.mp new]
      split_ifs with taken
      · obtain ⟨row, hr, root⟩ := List.any_eq_true.mp taken
        exact ⟨row, hr, agree row hr (of_decide_eq_true root)⟩
      · exact ⟨p, List.mem_append_right _ (List.mem_singleton_self p), rfl⟩

theorem protectAll_ok (h : Protected s) (agree : RootsAgree ps s)
    (done : s.protectAll ps = .ok t) : Protected t := by
  induction ps generalizing s with
  | nil =>
    obtain rfl := Except.ok.inj done
    exact h
  | cons p ps ih =>
    rw [protectAll, List.foldlM_cons, bind_eq_ok] at done
    obtain ⟨u, first, later⟩ := done
    obtain ⟨rfl, anchored⟩ := protectPublication_ok first
    have known : ∀ q ∈ (s.insertPublication p).publications ++ ps,
        q ∈ s.publications ++ p :: ps := by
      intro q mem
      rw [Ledger.insertPublication] at mem
      dsimp only at mem
      split_ifs at mem <;> simp only [List.mem_append, List.mem_cons] at mem ⊢
      · tauto
      · rcases mem with (old | new) | later
        · exact .inl old
        · exact .inr (.inl (by simpa using new))
        · exact .inr (.inr later)
    have next := h.insertPublication
      (fun row hr => agree row (List.mem_append_left _ hr) p (by simp)) anchored
    exact ih next (fun q hq r hr => agree q (known q hq) r (known r hr)) later

/-! ### Calls -/

/-- The stored blocks are in order and consecutive ones are linked. -/
structure Chained (s : Ledger) : Prop where
  sorted : s.blocks.Pairwise fun x y => x.number < y.number
  linked : ∀ x ∈ s.blocks, ∀ y ∈ s.blocks, y.number = x.number + 1 → y.parentHash = x.hash
  started : ∀ x ∈ s.blocks, s.startBlock ≤ x.number

/-- What holds of the tables between calls. -/
structure Sound (s : Ledger) : Prop extends Protected s, Chained s

theorem Chained.eq_of_number (h : Chained s) {x y : Block} (hx : x ∈ s.blocks)
    (hy : y ∈ s.blocks) (same : x.number = y.number) : x = y := by
  have apart : s.blocks.Pairwise fun x y => x.number ≠ y.number := h.sorted.imp Nat.ne_of_lt
  have symmetric : Std.Symm fun x y : Block => x.number ≠ y.number := ⟨fun _ _ => Ne.symm⟩
  by_contra ne
  exact apart.forall hx hy ne same

/-- A block above all others, linked to its predecessor if that is stored, may be added. -/
theorem Chained.append (h : Chained s) (above : ∀ c ∈ s.blocks, c.number < b.number)
    (parent : ∀ x ∈ s.blocks, b.number = x.number + 1 → b.parentHash = x.hash)
    (start : s.startBlock ≤ b.number) : Chained { s with blocks := s.blocks ++ [b] } where
  sorted := by
    refine List.pairwise_append.mpr ⟨h.sorted, List.pairwise_singleton _ b, fun x hx y hy => ?_⟩
    rw [List.mem_singleton.mp hy]
    exact above x hx
  linked := by
    intro x hx y hy next
    rw [List.mem_append, List.mem_singleton] at hx hy
    rcases hx with hx | rfl
    · rcases hy with hy | rfl
      · exact h.linked x hx y hy next
      · exact parent x hx next
    · rcases hy with hy | rfl
      · have small := above y hy
        omega
      · omega
  started := by
    intro x hx
    rcases List.mem_append.mp hx with hx | hx
    · exact h.started x hx
    · rw [List.mem_singleton.mp hx]
      exact start

theorem Chained.le_head (h : Chained s) {p : Block} (last : s.head = some p) :
    p ∈ s.blocks ∧ ∀ c ∈ s.blocks, c.number ≤ p.number := by
  have mem := List.mem_of_getLast? last
  refine ⟨mem, fun c hc => ?_⟩
  have order : s.blocks.Pairwise fun x y => x.number ≤ y.number := h.sorted.imp Nat.le_of_lt
  have nonempty : s.blocks ≠ [] := List.ne_nil_of_mem mem
  have last_eq : s.blocks.getLast nonempty = p :=
    Option.some.inj ((List.getLast?_eq_some_getLast nonempty).symm.trans last)
  have reflexive : Std.Refl fun x y : Block => x.number ≤ y.number := ⟨fun _ => le_rfl⟩
  exact last_eq ▸ order.rel_getLast hc

/-- The block replaces a stored one or is above everything stored. -/
def NoGapBelow (b : Block) (s : Ledger) : Prop :=
  (s.block b.number).isSome ∨ ∀ c ∈ s.blocks, c.number < b.number

/-- The calls that keep the books. -/
def Call.Clean : Call → Ledger → Prop
  | .ingest b, s => NoGapBelow b s ∧ RootsAgree (published b) s
  | .ingestRange range, s => RootsAgree (range.blocks.flatMap published) s
  | .protectPublication p, s => RootsAgree [p] s

/-- The stored blocks under a number. -/
def below (n : ℕ) (s : Ledger) : List Block := s.blocks.filter fun c => c.number < n

theorem mem_below {n : ℕ} : b ∈ s.below n ↔ b ∈ s.blocks ∧ b.number < n := by
  simp [below]

theorem below_of_forall {n : ℕ} (h : ∀ c ∈ s.blocks, c.number < n) : s.below n = s.blocks :=
  List.filter_eq_self.mpr fun c mem => decide_eq_true (h c mem)

/-- What `ingest` checks and stores when it stores a block. -/
structure Stored (b : Block) (s t : Ledger) : Prop where
  start : s.startBlock ≤ b.number
  unpublished : ¬((s.block b.number).isSome ∧ ∃ p ∈ s.publications, b.number ≤ p.throughBlock)
  connected : b.number ≠ s.startBlock → (s.parentOf b).map Block.hash = some b.parentHash
  protects : protectAll (published b) { s with blocks := s.below b.number ++ [b] } = .ok t

theorem withoutReplaced_eq (clean : NoGapBelow b s) :
    s.withoutReplaced b = { s with blocks := s.below b.number } := by
  rw [withoutReplaced]
  split_ifs with existing
  · rfl
  · rw [below_of_forall (clean.resolve_left existing)]

theorem ingestBody_ok (clean : NoGapBelow b s) (done : ingestBody b s = .ok t) :
    t = s ∧ (s.block b.number).map Block.hash = some b.hash ∨ Stored b s t := by
  simp only [ingestBody, bind_eq_ok, revertIf_eq_ok, not_or, not_lt] at done
  obtain ⟨-, ⟨-, start, -⟩, done⟩ := done
  by_cases stored : (s.block b.number).map Block.hash = some b.hash
  · rw [if_pos stored] at done
    exact .inl ⟨(Except.ok.inj done).symm, stored⟩
  rw [if_neg stored, withoutReplaced_eq clean] at done
  simp only [checkConnected, bind_eq_ok, revertIf_eq_ok] at done
  obtain ⟨-, ⟨-, unpublished, connected⟩, u, inserted, -, -, protects⟩ := done
  obtain rfl := insertBlock_above (fun c mem => (mem_below.mp mem).2) inserted
  refine .inr ⟨start, unpublished, fun later => ?_, protects⟩
  rw [not_or, not_and, not_or, not_or] at connected
  exact not_not.mp (connected.1 later).2.1

theorem protectAll_tables (done : s.protectAll ps = .ok t) :
    t.blocks = s.blocks ∧ t.policy = s.policy ∧ t.startBlock = s.startBlock ∧
      ∀ c ∈ s.checkpoints, c ∈ t.checkpoints := by
  induction ps generalizing s with
  | nil =>
    obtain rfl := Except.ok.inj done
    exact ⟨rfl, rfl, rfl, fun _ mem => mem⟩
  | cons p ps ih =>
    rw [protectAll, List.foldlM_cons, bind_eq_ok] at done
    obtain ⟨u, first, later⟩ := done
    obtain ⟨rfl, -⟩ := protectPublication_ok first
    obtain ⟨blocks, policy, start, grown⟩ := ih later
    exact ⟨blocks, policy, start, fun c mem => grown c (List.mem_append_left _ mem)⟩

theorem Stored.blocks (i : Stored b s t) : t.blocks = s.below b.number ++ [b] :=
  (protectAll_tables i.protects).1

theorem Stored.startBlock (i : Stored b s t) : t.startBlock = s.startBlock :=
  (protectAll_tables i.protects).2.2.1

/-- A new block is linked to its predecessor. -/
theorem Stored.parent (i : Stored b s t) (h : Chained s) {x : Block} (hx : x ∈ s.blocks)
    (next : b.number = x.number + 1) : b.parentHash = x.hash := by
  have inside := h.started x hx
  have later : b.number ≠ s.startBlock := by omega
  have positive : b.number ≠ 0 := by omega
  have previous : b.number - 1 = x.number := by omega
  have same := i.connected later
  rw [parentOf, if_neg positive, previous] at same
  obtain ⟨y, found, hash⟩ := Option.map_eq_some_iff.mp same
  obtain ⟨hy, number⟩ := block_eq_some found
  obtain rfl := h.eq_of_number hx hy number.symm
  exact hash.symm

/-- What is stored under a checkpoint is under a new block. -/
theorem Stored.kept (i : Stored b s t) (h : Protected s) (clean : NoGapBelow b s)
    {c : Publication} (hc : c ∈ s.checkpoints) {x : Block} (hx : x ∈ s.blocks)
    (le : x.number ≤ c.throughBlock) : x.number < b.number := by
  rcases clean with existing | above
  · obtain ⟨row, hr, same⟩ := h.recorded c hc
    by_contra outside
    exact i.unpublished ⟨existing, row, hr, by omega⟩
  · exact above x hx

theorem Chained.below (h : Chained s) (n : ℕ) : Chained { s with blocks := s.below n } where
  sorted := h.sorted.sublist List.filter_sublist
  linked := fun x hx y hy => h.linked x (mem_below.mp hx).1 y (mem_below.mp hy).1
  started := fun x hx => h.started x (mem_below.mp hx).1

theorem Chained.of_blocks (h : Chained s) (blocks : t.blocks = s.blocks)
    (start : t.startBlock = s.startBlock) : Chained t := by
  refine ⟨blocks ▸ h.sorted, blocks ▸ h.linked, ?_⟩
  rw [blocks, start]
  exact h.started

theorem Stored.chained (i : Stored b s t) (h : Chained s) : Chained t := by
  have added := (h.below b.number).append (fun c hc => (mem_below.mp hc).2)
    (fun x hx => i.parent h (mem_below.mp hx).1) i.start
  exact added.of_blocks i.blocks i.startBlock

theorem Stored.sound (i : Stored b s t) (h : Sound s) (clean : NoGapBelow b s)
    (agree : RootsAgree (published b) s) : Sound t := by
  have base : Protected { s with blocks := s.below b.number ++ [b] } := by
    refine ⟨fun c hc => ?_, h.recorded⟩
    obtain ⟨x, hx, number, hash⟩ := h.backed c hc
    have small := i.kept h.toProtected clean hc hx number.le
    exact ⟨x, List.mem_append_left _ (mem_below.mpr ⟨hx, small⟩), number, hash⟩
  exact ⟨protectAll_ok base agree i.protects, i.chained h.toChained⟩

/-- The checked blocks of a range are appended as they are. -/
theorem insertRange_ok (h : Chained s) {first last : ℕ} {bs : List Block}
    (start : s.startBlock ≤ first) (checked : checkRange first last s.head bs = .ok ())
    (done : bs.foldlM (fun s b => s.insertBlock b) s = .ok t) :
    Chained t ∧ t = { s with blocks := s.blocks ++ bs } := by
  induction bs generalizing s with
  | nil =>
    obtain rfl := Except.ok.inj done
    rw [List.append_nil]
    exact ⟨h, rfl⟩
  | cons b bs ih =>
    rw [List.foldlM_cons, bind_eq_ok] at done
    obtain ⟨u, inserted, later⟩ := done
    simp only [checkRange, bind_eq_ok, revertIf_eq_ok, not_or, not_lt] at checked
    obtain ⟨-, ⟨-, from_first, -, -, -, -, -, ordered⟩, rest⟩ := checked
    have above : ∀ c ∈ s.blocks, c.number < b.number := by
      intro c hc
      cases top : s.head with
      | none => exact absurd hc (by simp [List.getLast?_eq_none_iff.mp top])
      | some p =>
        by_contra outside
        have small := (h.le_head top).2 c hc
        exact ordered ⟨p, top, .inl (by omega)⟩
    have parent : ∀ x ∈ s.blocks, b.number = x.number + 1 → b.parentHash = x.hash := by
      intro x hx next
      cases top : s.head with
      | none => exact absurd hx (by simp [List.getLast?_eq_none_iff.mp top])
      | some p =>
        have under := above p (h.le_head top).1
        have small := (h.le_head top).2 x hx
        obtain rfl := h.eq_of_number hx (h.le_head top).1 (by omega)
        by_contra unlinked
        exact ordered ⟨x, top, .inr (.inr ⟨next, unlinked⟩)⟩
    obtain rfl := insertBlock_above above inserted
    have added := h.append above parent (start.trans from_first)
    have top : head { s with blocks := s.blocks ++ [b] } = some b := List.getLast?_concat
    rw [← top] at rest
    obtain ⟨chained, rfl⟩ := ih added start rest later
    exact ⟨chained, by simp⟩

/-- A range is appended to what is stored. -/
theorem ingestRangeBody_ok (h : Chained s) {range : Range} (done : ingestRangeBody range s = .ok t) :
    Chained { s with blocks := s.blocks ++ range.blocks } ∧
      protectAll (range.blocks.flatMap published) { s with blocks := s.blocks ++ range.blocks } =
        .ok t := by
  simp only [ingestRangeBody, bind_eq_ok, revertIf_eq_ok, not_or, not_not] at done
  obtain ⟨-, ⟨-, -, -, from_head, -, -⟩, _, checked, u, inserted, -, -, protects⟩ := done
  have start : s.startBlock ≤ range.first := by
    rw [from_head]
    cases top : s.head with
    | none => exact le_rfl
    | some p => exact (h.started p (h.le_head top).1).trans (Nat.le_succ _)
  obtain ⟨chained, rfl⟩ := insertRange_ok h start checked inserted
  exact ⟨chained, protects⟩

/-! ### What a call does -/

/-- The effect of a clean call on the books. -/
structure Keeps (call : Call) (s t : Ledger) : Prop where
  sound : Sound t
  policy : t.policy = s.policy
  startBlock : t.startBlock = s.startBlock
  checkpoints : ∀ c ∈ s.checkpoints, c ∈ t.checkpoints
  /-- Nothing under a checkpoint is deleted or replaced. -/
  kept : ∀ c ∈ s.checkpoints, ∀ x ∈ s.blocks, x.number ≤ c.throughBlock → x ∈ t.blocks
  /-- A new block becomes the head, with only what was stored under it. -/
  fresh : ∀ b, call = .ingest b → (s.block b.number).map Block.hash ≠ some b.hash →
    t.head = some b ∧ t.blocks = s.below b.number ++ [b]

theorem Call.body_ok (h : Sound s) {call : Call} (clean : call.Clean s)
    (done : call.body s = .ok t) : Keeps call s t := by
  cases call with
  | ingest b =>
    rcases ingestBody_ok clean.1 done with ⟨rfl, stored⟩ | i
    · refine ⟨h, rfl, rfl, fun _ hc => hc, fun _ _ _ hx _ => hx, fun c same new => ?_⟩
      obtain rfl := Call.ingest.inj same
      exact absurd stored new
    · obtain ⟨blocks, policy, start, grown⟩ := protectAll_tables i.protects
      refine ⟨i.sound h clean.1 clean.2, policy, start, grown, fun c hc x hx le => ?_,
        fun c same _ => ?_⟩
      · rw [blocks]
        have small := i.kept h.toProtected clean.1 hc hx le
        exact List.mem_append_left _ (mem_below.mpr ⟨hx, small⟩)
      · obtain rfl := Call.ingest.inj same
        exact ⟨by rw [head, blocks, List.getLast?_concat], blocks⟩
  | ingestRange range =>
    obtain ⟨chained, protects⟩ := ingestRangeBody_ok h.toChained done
    obtain ⟨blocks, policy, start, grown⟩ := protectAll_tables protects
    have base : Protected { s with blocks := s.blocks ++ range.blocks } := by
      refine ⟨fun c hc => ?_, h.recorded⟩
      obtain ⟨x, hx, found⟩ := h.backed c hc
      exact ⟨x, List.mem_append_left _ hx, found⟩
    refine ⟨⟨protectAll_ok base clean protects, chained.of_blocks blocks start⟩, policy, start,
      grown, fun c hc x hx _ => ?_, fun _ same => by cases same⟩
    rw [blocks]
    exact List.mem_append_left _ hx
  | protectPublication p =>
    obtain ⟨rfl, anchored⟩ := protectPublication_ok done
    have agree : ∀ row ∈ s.publications, row.root = p.root →
        row.throughBlock = p.throughBlock :=
      fun row hr => clean row (List.mem_append_left _ hr) p (by simp)
    refine ⟨⟨h.toProtected.insertPublication agree anchored, ?_⟩, rfl, rfl,
      fun _ hc => List.mem_append_left _ hc, fun _ _ _ hx _ => hx, fun _ same => by cases same⟩
    exact h.toChained.of_blocks rfl rfl

/-- A call that fails changes nothing. -/
theorem Call.exec_error {call : Call} {e : LedgerError} (failed : (call.exec s).2 = .error e) :
    (call.exec s).1 = s := by
  rw [Call.exec, transaction] at failed ⊢
  cases ran : call.body s with
  | ok t =>
    rw [ran] at failed
    cases failed
  | error e => rfl

theorem Call.exec_ok {call : Call} (done : (call.exec s).2 = .ok ()) :
    call.body s = .ok (call.exec s).1 := by
  rw [Call.exec, transaction] at done ⊢
  cases ran : call.body s with
  | ok t => rfl
  | error e =>
    rw [ran] at done
    cases done

theorem Call.exec_keeps (h : Sound s) {call : Call} (clean : call.Clean s) :
    Sound (call.exec s).1 ∧ ∀ c ∈ s.checkpoints, ∀ x ∈ s.blocks, x.number ≤ c.throughBlock →
      x ∈ (call.exec s).1.blocks := by
  cases outcome : (call.exec s).2 with
  | error e =>
    rw [Call.exec_error outcome]
    exact ⟨h, fun _ _ _ hx _ => hx⟩
  | ok _ =>
    have kept := Call.body_ok h clean (Call.exec_ok outcome)
    exact ⟨kept.sound, kept.kept⟩

/-- A call by anyone, whether or not it succeeds. -/
def step (s : Ledger) (call : Call) (t : Ledger) : Prop := t = (call.exec s).1

def cleanStep (s : Ledger) (call : Call) (t : Ledger) : Prop := call.Clean s ∧ step s call t

theorem sound_constructed {policy : Policy} {startBlock : ℕ}
    (done : constructed policy startBlock = .ok s) : Sound s := by
  simp only [constructed, bind_eq_ok, revertIf_eq_ok, pure_eq_ok] at done
  obtain ⟨-, -, -, -, rfl⟩ := done
  exact
    { backed := fun _ hc => absurd hc List.not_mem_nil
      recorded := fun _ hc => absurd hc List.not_mem_nil
      sorted := List.Pairwise.nil
      linked := fun _ hx => absurd hx List.not_mem_nil
      started := fun _ hx => absurd hx List.not_mem_nil }

theorem run_sound {calls : List Call} (h : Sound s) (run : Run cleanStep s calls t) : Sound t :=
  run.invariant Sound (fun s call u sound moved => by
    obtain ⟨clean, rfl⟩ := moved
    exact (Call.exec_keeps sound clean).1) h

end Turret.Cashback.Ledger
