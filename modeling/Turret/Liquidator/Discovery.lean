import Turret.Liquidator.Indexer

/-! What the discovery of borrowers covers. A chunk is read between two answers
with one hash, so that its logs are those of the branch of its last block; the
cursor covers its whole branch as long as every chunk that is stored is on the
branch of the cursor before it. -/

namespace Turret.Indexer

open Branches Tasks Tasks.Program

variable {H : Type} {x : Deployment H} {first last : ℕ} {c d : List Block}
  {positions positions' : List Pair} {hd cur : Header H}

/-! ### Pairs in the store -/

/-- The pairs of the blocks from `first` to `last` are in the table. -/
def Holds (x : Deployment H) (first last : ℕ) (c : List Block) (positions : List Pair) : Prop :=
  ∀ log ∈ logsFrom x.hash Block.borrowed first (last + 1 - first) c, log.event ∈ positions

/-- On every chain with the block, the pairs from `first` to it are in the table. -/
def Stored (x : Deployment H) (first : ℕ) (hd : Header H) (positions : List Pair) : Prop :=
  ∀ c, Names x.hash hd c → Holds x first hd.number c positions

theorem Holds.mono (h : Holds x first last c positions)
    (grows : ∀ p ∈ positions, p ∈ positions') : Holds x first last c positions' :=
  fun log mem => grows _ (h log mem)

theorem Stored.mono (h : Stored x first hd positions) (grows : ∀ p ∈ positions, p ∈ positions') :
    Stored x first hd positions' :=
  fun c named => (h c named).mono grows

/-- Adjacent stretches make one. -/
theorem Holds.append {next : ℕ} (h : Holds x first last c positions)
    (h' : Holds x (last + 1) next c positions) (le : first ≤ last + 1) (le' : last ≤ next) :
    Holds x first next c positions := by
  intro log mem
  have parts : next + 1 - first = (last + 1 - first) + (next + 1 - (last + 1)) := by omega
  have start : first + (last + 1 - first) = last + 1 := by omega
  rw [parts, logsFrom_append, start] at mem
  exact (List.mem_append.mp mem).elim (h log) (h' log)

theorem holds_empty (none : last < first) : Holds x first last c positions := by
  intro log mem
  rw [Nat.sub_eq_zero_of_le none] at mem
  exact absurd mem List.not_mem_nil

theorem mem_insertOrIgnore {p q : Pair} :
    p ∈ insertOrIgnore positions q ↔ p ∈ positions ∨ p = q := by
  unfold insertOrIgnore
  split_ifs with present
  · refine ⟨Or.inl, fun h => h.elim id fun same => same ▸ present⟩
  · rw [List.mem_append, List.mem_singleton]

theorem mem_foldl_insertOrIgnore {p : Pair} {pairs : List Pair} :
    p ∈ pairs.foldl insertOrIgnore positions ↔ p ∈ positions ∨ p ∈ pairs := by
  induction pairs generalizing positions with
  | nil => simp
  | cons q pairs ih => rw [List.foldl_cons, ih, mem_insertOrIgnore, List.mem_cons, or_assoc]

@[simp] theorem pair_vaultLog (log : Log H Pair) : (vaultLog log).pair = some log.event := rfl

/-- The pairs of the logs that a node returns are those of the chain. -/
theorem mem_pairs {logs : List VaultLog} {chain : List (Log H Pair)}
    (perm : logs.Perm (chain.map vaultLog)) {log : Log H Pair} (mem : log ∈ chain) :
    log.event ∈ logs.filterMap VaultLog.pair :=
  List.mem_filterMap.mpr
    ⟨vaultLog log, perm.mem_iff.mpr (List.mem_map_of_mem mem), pair_vaultLog log⟩

/-! ### The books -/

variable (x) (P : Prop)

/-- The block of a new cursor is on the branch of the cursor that it replaces. -/
def Extends (s t : World H) : Prop :=
  ∀ cur new, s.cursor = some cur → t.cursor = some new → new ≠ cur →
    ∀ c ∈ s.trace.seen, Names x.hash new c → Names x.hash cur c

/-- The blocks of a chunk up to the cursor are stored, and with `P` all of its branch. -/
structure Covers (cur : Header H) (positions : List Pair) : Prop where
  chunk : ∃ first, x.startBlock ≤ first ∧ first ≤ cur.number ∧ Stored x first cur positions
  whole : P → Stored x x.startBlock cur positions

structure Inv (s : World H) : Prop where
  current : s.trace.chain ∈ s.trace.seen
  met : ∀ cur, s.cursor = some cur → Met x.hash cur s.trace
  covers : ∀ cur, s.cursor = some cur → Covers x P cur s.positions

/-- What one action of a cycle does. -/
structure Acts (s t : World H) : Prop where
  process : t.process = s.process
  trace : t.trace = s.trace
  grows : ∀ p ∈ s.positions, p ∈ t.positions
  inv : Inv x P s → Inv x P t

/-- What a cycle may rely on: no other process writes while its own one lasts. -/
structure Since (i : ℕ) (s t : World H) : Prop where
  process : s.process ≤ t.process
  later : Later s.trace t.trace
  grows : ∀ p ∈ s.positions, p ∈ t.positions
  inv : Inv x P s → Inv x P t
  own : s.process = i → t.process = i → t.cursor = s.cursor ∧ t.positions = s.positions

variable {x P} {i : ℕ} {s t u : World H}

theorem Acts.refl (s : World H) : Acts x P s s := ⟨rfl, rfl, fun _ mem => mem, id⟩

theorem Since.refl (s : World H) : Since x P i s s :=
  ⟨le_rfl, .refl _, fun _ mem => mem, id, fun _ _ => ⟨rfl, rfl⟩⟩

theorem Since.trans (h : Since x P i s t) (h' : Since x P i t u) : Since x P i s u where
  process := h.process.trans h'.process
  later := h.later.trans h'.later
  grows := fun p mem => h'.grows p (h.grows p mem)
  inv := h'.inv ∘ h.inv
  own := by
    intro at_s at_u
    have at_t : t.process = i := le_antisymm (at_u ▸ h'.process) (at_s ▸ h.process)
    obtain ⟨cursor, positions⟩ := h.own at_s at_t
    obtain ⟨cursor', positions'⟩ := h'.own at_t at_u
    exact ⟨cursor'.trans cursor, positions'.trans positions⟩

theorem Acts.since (h : Acts x P s t) (other : s.process ≠ i) : Since x P i s t where
  process := h.process.ge
  later := h.trace ▸ .refl _
  grows := h.grows
  inv := h.inv
  own := fun at_s => absurd at_s other

theorem environment_since {e : Incident} (h : environment e s = some t) : Since x P i s t := by
  cases e with
  | chain c =>
    simp only [environment, Option.ite_none_right_eq_some, Option.some.injEq] at h
    obtain ⟨onward, rfl⟩ := h
    have later := later_move onward
    refine ⟨le_rfl, later, fun _ mem => mem, fun inv => ?_, fun _ _ => ⟨rfl, rfl⟩⟩
    exact ⟨List.mem_cons_self, fun cur is => (inv.met cur is).later later, inv.covers⟩
  | restart =>
    cases h
    refine ⟨Nat.le_succ _, .refl _, fun _ mem => mem, fun inv => ?_, fun at_s at_t => ?_⟩
    · exact ⟨inv.current, inv.met, inv.covers⟩
    · exact absurd (at_t.trans at_s.symm) (Nat.succ_ne_self _)
  | lease held =>
    cases h
    exact ⟨le_rfl, .refl _, fun _ mem => mem, fun inv => ⟨inv.current, inv.met, inv.covers⟩,
      fun _ _ => ⟨rfl, rfl⟩⟩

variable (x P) in
/-- The contract of the cycles of process `i`: with `P`, every chunk is on the branch of the cursor. -/
def contract (i : ℕ) : Contract (World H) Query (Answer H) where
  rely := Since x P i
  admits := fun s t => s.process = i ∧ (P → Extends x s t)
  guarantee := Acts x P
  answers := answers x
  refl := Since.refl
  trans := Since.trans

theorem compatible [DecidableEq H] : Compatible (machine x) (contract x P) where
  others := by
    intro i j s t ne admits act
    refine Acts.since act fun at_j => ne ?_
    exact admits.1.symm.trans at_j
  env := environment_since
  answers := id

/-! ### Actions -/

theorem forget_acts (s : World H) : Acts x P s s.forget :=
  ⟨rfl, rfl, fun _ mem => mem, fun inv => ⟨inv.current, nofun, nofun⟩⟩

/-- A chunk that was read on the branch of its last block may be stored. -/
theorem indexed_acts (injective : Function.Injective x.hash) {new : Header H} {pairs : List Pair}
    (met : Met x.hash new s.trace) (above : x.startBlock ≤ first) (below : first ≤ new.number)
    (read : ∀ c, Names x.hash new c → Holds x first new.number c pairs)
    (adjacent : s.cursor = none ∧ first = x.startBlock ∨
      ∃ cur, s.cursor = some cur ∧ first = cur.number + 1)
    (onBranch : P → Extends x s (s.indexed pairs new)) : Acts x P s (s.indexed pairs new) := by
  have grows : ∀ p ∈ s.positions, p ∈ (s.indexed pairs new).positions :=
    fun p mem => mem_foldl_insertOrIgnore.mpr (.inl mem)
  have chunk : ∀ c, Names x.hash new c →
      Holds x first new.number c (s.indexed pairs new).positions :=
    fun c named => (read c named).mono fun p mem => mem_foldl_insertOrIgnore.mpr (.inr mem)
  refine ⟨rfl, rfl, grows, fun inv => ⟨inv.current, fun cur is => ?_, fun cur is => ?_⟩⟩
  · exact Option.some.inj is ▸ met
  · obtain rfl : new = cur := Option.some.inj is
    refine ⟨⟨first, above, below, chunk⟩, fun holds c named => ?_⟩
    rcases adjacent with ⟨-, start⟩ | ⟨cur, before, start⟩
    · exact start ▸ chunk c named
    · have other : new ≠ cur := by
        rintro rfl
        omega
      obtain ⟨d, seen, at_d⟩ := met
      have branch : Names x.hash cur d := onBranch holds cur new before rfl other d seen at_d
      have here : Names x.hash cur c :=
        branch.of_shares ((at_d.shares injective named).of_le (by omega))
      have earlier := (inv.covers cur before).whole holds c here
      subst start
      exact (earlier.mono grows).append (chunk c named) (by omega) (by omega)

/-! ### Rules -/

/-- The process runs, and its books are right. -/
structure Here (x : Deployment H) (P : Prop) (i : ℕ) (s : World H) : Prop where
  process : s.process = i
  inv : Inv x P s

/-- The chain has moved on, and nothing of the process's own. -/
structure Onto (s t : World H) : Prop where
  cursor : t.cursor = s.cursor
  positions : t.positions = s.positions
  later : Later s.trace t.trace

theorem Here.since (here : Here x P i s) (since : Since x P i s t) (at_t : t.process = i) :
    Here x P i t ∧ Onto s t := by
  obtain ⟨cursor, positions⟩ := since.own here.process at_t
  exact ⟨⟨at_t, since.inv here.inv⟩, cursor, positions, since.later⟩

/-- A cycle that throws has nothing to promise. -/
abbrev SafeTo (x : Deployment H) (P : Prop) (i : ℕ) {α : Type} (post : α → World H → Prop)
    (p : Prog H α) (s : World H) : Prop :=
  Safe (contract x P i) post (fun _ _ => True) p s

section Rules

variable {α β : Type} {post : β → World H → Prop}

/-- The first request of a cycle. -/
theorem safe_select {next : Header H → Prog H β} (inv : Inv x P s)
    (h : ∀ t head, Here x P i t → Names x.hash head t.trace.chain →
      SafeTo x P i post (next head) t) :
    SafeTo x P i post (select >>= next) s := by
  refine Tasks.safe_call (fun _ _ _ _ _ _ => trivial) fun t head since admitted given => ?_
  exact h t head ⟨admitted.1, since.inv inv⟩ given

theorem safe_look {next : World H → Prog H β} (here : Here x P i s)
    (h : ∀ t, Here x P i t → Onto s t → SafeTo x P i post (next t) t) :
    SafeTo x P i post (look >>= next) s := by
  intro t since admitted
  obtain ⟨here', onto⟩ := here.since since admitted.1
  exact ⟨.refl t, h t here' onto⟩

theorem safe_getBlock {number : ℕ} {next : H → Prog H β} (here : Here x P i s)
    (h : ∀ t hash, Here x P i t → Onto s t → Names x.hash ⟨number, hash⟩ t.trace.chain →
      SafeTo x P i post (next hash) t) :
    SafeTo x P i post (getBlock number >>= next) s := by
  refine Tasks.safe_call (fun _ _ _ _ _ _ => trivial) fun t hash since admitted given => ?_
  obtain ⟨here', onto⟩ := here.since since admitted.1
  exact h t hash here' onto given

theorem safe_canonical {head cursor : Header H} {next : Option H → Prog H β} (here : Here x P i s)
    (h : ∀ t answer, Here x P i t → Onto s t →
      (∀ hash, answer = some hash → cursor.number ≤ head.number ∧
        Names x.hash ⟨cursor.number, hash⟩ t.trace.chain) →
      SafeTo x P i post (next answer) t) :
    SafeTo x P i post (canonical head cursor >>= next) s := by
  refine Safe.bind ?_
  unfold canonical
  split
  · rename_i below
    refine safe_getBlock here fun t hash here' onto named => safe_pure fun u since => ?_
    refine (h t (some hash) here' onto fun other is => ?_).stable since
    exact Option.some.inj is ▸ ⟨below, named⟩
  · refine safe_pure fun u since => (h s none here ⟨rfl, rfl, .refl _⟩ ?_).stable since
    exact fun hash is => by cases is

theorem safe_getLogs {fromBlock toBlock : ℕ} {next : Except Err (List VaultLog) → Prog H β}
    (here : Here x P i s)
    (h : ∀ t answer, Here x P i t → Onto s t → (∀ logs, answer = .ok logs →
        logs.Perm ((logsFrom x.hash Block.borrowed fromBlock (toBlock + 1 - fromBlock)
          t.trace.chain).map vaultLog)) →
      SafeTo x P i post (next answer) t) :
    SafeTo x P i post (getLogs fromBlock toBlock >>= next) s := by
  refine Tasks.safe_question fun t since admitted answer given => ?_
  obtain ⟨here', onto⟩ := here.since since admitted.1
  refine h t answer here' onto fun logs is => ?_
  subst is
  exact given

theorem safe_throwIf {c : Prop} {_ : Decidable c} {e : Err} {next : Unit → Prog H β}
    (h : ¬c → SafeTo x P i post (next ()) s) : SafeTo x P i post (throwIf c e >>= next) s :=
  Tasks.safe_throwIf (fun _ _ _ => trivial) h

theorem safe_forget {next : Unit → Prog H β} (here : Here x P i s)
    (h : ∀ t, Here x P i t → t.cursor = none → Later s.trace t.trace →
      SafeTo x P i post (next ()) t) :
    SafeTo x P i post (modify World.forget >>= next) s := by
  refine Tasks.safe_modify fun t since admitted => ?_
  obtain ⟨here', onto⟩ := here.since since admitted.1
  have acts : Acts x P t t.forget := forget_acts t
  exact ⟨acts, h t.forget ⟨here'.process, acts.inv here'.inv⟩ rfl onto.later⟩

theorem safe_indexBatch {pairs : List Pair} {new : Header H} {next : Unit → Prog H β}
    (here : Here x P i s)
    (acts : ∀ t, Onto s t → (P → Extends x t (t.indexed pairs new)) →
      Acts x P t (t.indexed pairs new))
    (h : ∀ t, Here x P i t → t.cursor = some new → SafeTo x P i post (next ()) t) :
    SafeTo x P i post (indexBatch pairs new >>= next) s := by
  refine Safe.bind (Tasks.safe_attempt Acts.refl (fun t a u since stored admitted => ?_) ?_)
  · obtain ⟨here', onto⟩ := here.since since admitted.1
    split_ifs at stored
    obtain rfl : t.indexed pairs new = u := (Prod.mk.inj (Except.ok.inj stored)).2
    have act := acts t onto admitted.2
    have after : Here x P i (t.indexed pairs new) := ⟨here'.process, act.inv here'.inv⟩
    exact ⟨act, fun v later => (h (t.indexed pairs new) after rfl).stable later⟩
  · exact fun _ _ _ _ _ _ => trivial

end Rules

end Turret.Indexer
