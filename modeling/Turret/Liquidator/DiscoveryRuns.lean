import Turret.Library.Execution
import Turret.Liquidator.Discovery

/-! Every run of the discovery, with failing requests, reorganisations, restarts
and lost leases. A call ends, its cursor is never ahead of what is stored, and
what a complete call promises holds unless a chunk was stored off the branch of
the cursor before it. -/

namespace Turret.Indexer

open Branches Tasks Tasks.Program

variable {H : Type} {x : Deployment H} {P : Prop} {i : ℕ} {s t u : World H}

/-! ### The call -/

/-- Where the loop stands: the cursor, if there is one, is the block before, and where that is the
head's number it is the head. -/
inductive Reached (x : Deployment H) (head : Header H) (s : World H) (fromBlock : ℕ) : Prop
  | start : s.cursor = none → fromBlock = x.startBlock → Reached x head s fromBlock
  | after (cur : Header H) : s.cursor = some cur → fromBlock = cur.number + 1 →
      cur.number ≤ head.number → (cur.number = head.number → cur = head) →
      Reached x head s fromBlock

theorem Reached.onto {head : Header H} {fromBlock : ℕ} (h : Reached x head s fromBlock)
    (onto : Onto s t) : Reached x head t fromBlock := by
  cases h with
  | start none is => exact .start (onto.cursor.trans none) is
  | after cur some is below same => exact .after cur (onto.cursor.trans some) is below same

/-- What a call promises: with `P`, a complete one has stored all that its head needs. -/
def Told (x : Deployment H) (P : Prop) (head : Header H) (r : Sync) (s : World H) : Prop :=
  P → r.complete = true → Stored x x.startBlock head s.positions

theorem told_finished {head : Header H} {reorg : Bool} {fromBlock chunks : ℕ}
    (here : Here x P i s) (reached : Reached x head s fromBlock) (since : Since x P i s t) :
    Told x P head (finished head reorg fromBlock chunks) t := by
  intro holds complete
  have past : head.number < fromBlock := of_decide_eq_true complete
  cases reached with
  | start none is => exact fun c _ => holds_empty (is ▸ past)
  | after cur some is below same =>
    have is_head := same (by omega)
    exact is_head ▸ ((here.inv.covers cur some).whole holds).mono since.grows

theorem names_between (injective : Function.Injective x.hash) {s t u : World H} {hd : Header H}
    (inv : Inv x P s) (at_s : Names x.hash hd s.trace.chain) (first : Later s.trace t.trace)
    (second : Later t.trace u.trace) (at_u : Names x.hash hd u.trace.chain) :
    Names x.hash hd t.trace.chain := by
  have met : Met x.hash hd s.trace := ⟨s.trace.chain, inv.current, at_s⟩
  exact (met.later first).names injective second at_u

theorem safe_syncChunks [DecidableEq H] (injective : Function.Injective x.hash)
    {maxChunksPerCycle : ℕ} {head : Header H} {reorg : Bool} {fromBlock chunks chunkSize : ℕ}
    {s : World H} (positive : 0 < chunkSize) (here : Here x P i s) (reached : Reached x head s fromBlock)
    (started : x.startBlock ≤ fromBlock) :
    SafeTo x P i (Told x P head)
      (syncChunks maxChunksPerCycle head reorg fromBlock chunks chunkSize) s := by
  rw [syncChunks]
  split
  · rename_i more
    set toBlock := min (fromBlock + chunkSize - 1) head.number with toBlock_eq
    have above : fromBlock ≤ toBlock := by omega
    have below : toBlock ≤ head.number := min_le_right ..
    refine safe_getBlock here fun t₁ before here₁ onto₁ named₁ => ?_
    refine safe_getLogs here₁ fun t₂ answer here₂ onto₂ perm => ?_
    have reached₂ := (reached.onto onto₁).onto onto₂
    split
    · split
      · exact safe_fail fun _ _ => trivial
      · -- the same blocks, in smaller chunks
        have halved_pos : 0 < halved chunkSize := by
          unfold halved
          split <;> omega
        exact safe_syncChunks injective halved_pos here₂ reached₂ started
    · rename_i logs
      refine safe_getBlock here₂ fun t₃ after here₃ onto₃ named₃ => ?_
      refine safe_throwIf fun same => ?_
      simp only [not_or, not_and, not_not] at same
      obtain ⟨rfl, is_head⟩ := same
      have named₂ : Names x.hash ⟨toBlock, before⟩ t₂.trace.chain :=
        names_between injective here₁.inv named₁ onto₂.later onto₃.later named₃
      have read : ∀ c, Names x.hash ⟨toBlock, before⟩ c →
          Holds x fromBlock toBlock c (logs.filterMap VaultLog.pair) := by
        intro c named log mem
        have shares : Shares toBlock c t₂.trace.chain := named.shares injective named₂
        have upto : fromBlock + (toBlock + 1 - fromBlock) ≤ toBlock + 1 := by omega
        rw [shares.logsFrom_eq x.hash upto] at mem
        exact mem_pairs (perm logs rfl) mem
      refine safe_indexBatch here₃ (fun t onto extends_ => ?_) fun t here' is => ?_
      · have met : Met x.hash ⟨toBlock, before⟩ t.trace :=
          Met.later ⟨t₃.trace.chain, here₃.inv.current, named₃⟩ onto.later
        refine indexed_acts injective met started above read ?_ extends_
        cases (reached₂.onto onto₃).onto onto with
        | start none is => exact .inl ⟨none, is⟩
        | after cur some is => exact .inr ⟨cur, some, is⟩
      · refine safe_syncChunks injective positive here' ?_ (by omega)
        refine .after ⟨toBlock, before⟩ is rfl below fun at_head => ?_
        rw [is_head at_head]
        exact congrArg (fun n => (⟨n, head.hash⟩ : Header H)) at_head
  · exact safe_pure fun t since => told_finished here reached since
termination_by maxChunksPerCycle - chunks + weight chunkSize
decreasing_by
  · exact Nat.add_lt_add_left (weight_halved ‹_›) _
  · omega

theorem safe_syncPositions [DecidableEq H] (injective : Function.Injective x.hash) {limits : Limits}
    {head : Header H} (here : Here x P i s) (named : Names x.hash head s.trace.chain) :
    SafeTo x P i (Told x P head) (syncPositions x limits head) s := by
  refine safe_look here fun t here₁ onto₁ => ?_
  split
  · rename_i none
    exact safe_syncChunks injective limits.logChunk_pos here₁ (.start none rfl) le_rfl
  · rename_i cursor some
    refine safe_canonical here₁ fun u answer here₂ onto₂ found => ?_
    split
    · rename_i same
      obtain ⟨below, at_u⟩ := found cursor.hash same
      -- the head was read after the cursor was stored, so that both were on the chain then
      have met : Met x.hash cursor s.trace := here.inv.met cursor (onto₁.cursor.symm.trans some)
      have at_s : Names x.hash cursor s.trace.chain :=
        met.names injective (onto₁.later.trans onto₂.later) at_u
      obtain ⟨first, above, le, -⟩ := (here₁.inv.covers cursor some).chunk
      refine safe_syncChunks injective limits.logChunk_pos here₂
        (.after cursor (onto₂.cursor.trans some) rfl below fun number => ?_) (by omega)
      have hashes : cursor.hash = head.hash := by rw [← at_s.2, ← named.2, number]
      cases cursor
      cases head
      exact congrArg₂ Header.mk number hashes
    · refine safe_forget here₂ fun v here₃ none _ => ?_
      exact safe_syncChunks injective limits.logChunk_pos here₃ (.start none rfl) le_rfl

theorem safe_cycle [DecidableEq H] (injective : Function.Injective x.hash) {limits : Limits}
    (inv : Inv x P s) : SafeTo x P i (fun r => Told x P r.1 r.2) (cycle x limits) s := by
  refine safe_select inv fun t head here named => ?_
  refine Safe.bind ((safe_syncPositions injective here named).mono (fun r u told => ?_) ?_)
  · exact safe_pure fun v since holds complete => (told holds complete).mono since.grows
  · exact fun _ _ _ => trivial

/-! ### The loop ends -/

theorem syncChunks_ends [DecidableEq H] {maxChunksPerCycle : ℕ} {head : Header H} {reorg : Bool}
    {fromBlock chunks chunkSize : ℕ} (positive : 0 < chunkSize) :
    (syncChunks maxChunksPerCycle head reorg fromBlock chunks chunkSize).EndsWithin
      (4 * (maxChunksPerCycle - chunks) + 2 * Nat.log 2 chunkSize + 2) := by
  rw [syncChunks]
  split
  · rename_i more
    have block : ∀ number, (getBlock number : Prog H H).EndsWithin 1 := fun number =>
      endsWithin_call _
    have total : 4 * (maxChunksPerCycle - chunks) + 2 * Nat.log 2 chunkSize + 2 =
        1 + (1 + (4 * (maxChunksPerCycle - chunks) + 2 * Nat.log 2 chunkSize)) := by omega
    rw [total]
    refine (block _).bind fun before => (endsWithin_question _).bind fun answer => ?_
    split
    · split
      · exact trivial
      · rename_i large
        have halves : halved chunkSize = chunkSize / 2 := if_neg (by omega)
        have rest : (syncChunks maxChunksPerCycle head reorg fromBlock chunks
            (halved chunkSize)).EndsWithin _ := syncChunks_ends (by omega)
        have log_pos : 0 < Nat.log 2 chunkSize := Nat.log_pos Nat.one_lt_two (by omega)
        rw [halves, Nat.log_div_base] at rest
        rw [halves]
        exact rest.mono (by omega)
    · have rest : ∀ next, (syncChunks maxChunksPerCycle head reorg next (chunks + 1)
          chunkSize).EndsWithin _ := fun next => syncChunks_ends positive
      have stored : 4 * (maxChunksPerCycle - chunks) + 2 * Nat.log 2 chunkSize =
          1 + (0 + (1 + (4 * (maxChunksPerCycle - (chunks + 1)) + 2 * Nat.log 2 chunkSize + 2))) := by
        omega
      rw [stored]
      exact (block _).bind fun after => endsWithin_throwIf.bind fun _ =>
        (endsWithin_attempt _).bind fun _ => rest _
  · exact endsWithin_pure _
termination_by maxChunksPerCycle - chunks + weight chunkSize
decreasing_by
  · exact Nat.add_lt_add_left (weight_halved ‹_›) _
  · omega

theorem syncPositions_ends [DecidableEq H] (limits : Limits) (head : Header H) :
    (syncPositions x limits head).EndsWithin
      (4 * limits.maxChunksPerCycle + 2 * Nat.log 2 limits.logChunk + 5) := by
  have loop : ∀ reorg next, (syncChunks limits.maxChunksPerCycle head reorg next 0
      limits.logChunk).EndsWithin (4 * limits.maxChunksPerCycle + 2 * Nat.log 2 limits.logChunk + 2) :=
    fun reorg next => syncChunks_ends limits.logChunk_pos
  have total : 4 * limits.maxChunksPerCycle + 2 * Nat.log 2 limits.logChunk + 5 =
      1 + (1 + (1 + (4 * limits.maxChunksPerCycle + 2 * Nat.log 2 limits.logChunk + 2))) := by omega
  rw [total]
  refine endsWithin_look.bind fun s => ?_
  split
  · exact (loop _ _).mono (by omega)
  · rename_i cursor some
    have check : (canonical head cursor : Prog H (Option H)).EndsWithin 1 := by
      unfold canonical
      split
      · exact EndsWithin.bind (m := 0) (endsWithin_call _) fun hash => endsWithin_pure _
      · exact endsWithin_pure _
    refine check.bind fun hash => ?_
    split
    · exact (loop _ _).mono (by omega)
    · exact (endsWithin_modify _).bind fun _ => loop _ _

/-! ### Runs -/

abbrev Keepers (H : Type) := System (World H) Query (Answer H) Err (Header H × Sync) ℕ

/-- A store without a cursor, and no call that has returned. -/
structure Started (s : Keepers H) : Prop where
  current : s.shared.trace.chain ∈ s.shared.trace.seen
  cursor : s.shared.cursor = none
  tasks : ∀ i, ∃ e, s.task i = .fail e

/-- A step of the process that runs, or of its surroundings. -/
def keeperStep [DecidableEq H] (x : Deployment H) (s : Keepers H) (move : Move ℕ Limits Incident)
    (t : Keepers H) : Prop :=
  Step (machine x) s move t ∧ ∀ i ∈ move.runs, s.shared.process = i

/-- A step that stores no chunk off the branch of the cursor. -/
def branchStep [DecidableEq H] (x : Deployment H) (s : Keepers H) (move : Move ℕ Limits Incident)
    (t : Keepers H) : Prop :=
  keeperStep x s move t ∧ Extends x s.shared t.shared

theorem effect_inv [DecidableEq H] {s t : World H} (inv : Inv x P s)
    (h : Effect (machine x) (contract x P) s t) : Inv x P t := by
  rcases h with rfl | ⟨i, -, acts⟩ | ⟨e, moved⟩
  · exact inv
  · exact Acts.inv acts inv
  · exact (environment_since (i := 0) moved).inv inv

/-- The books and the promises after a run whose chunks are, with `P`, on the cursor's branch. -/
theorem discovery_sound [DecidableEq H] (injective : Function.Injective x.hash) {s t : Keepers H}
    (fresh : Started s) {moves : List (Move ℕ Limits Incident)}
    (run : Execution.Run (fun s move t => keeperStep x s move t ∧ (P → Extends x s.shared t.shared))
      s moves t) :
    Inv x P t.shared ∧ ∀ i r, t.task i = .done r → Told x P r.1 r.2 t.shared := by
  have sound : Sound (contract x P) (fun _ r => Told x P r.1 r.2) (fun _ _ _ => True) s := by
    intro i
    obtain ⟨e, failed⟩ := fresh.tasks i
    rw [failed]
    exact fun _ _ => trivial
  have inv : Inv x P s.shared := ⟨fresh.current, by simp [fresh.cursor], by simp [fresh.cursor]⟩
  have admitted : Execution.Run (admittedStep (machine x) (contract x P)) s moves t :=
    run.mono fun s move t step =>
      ⟨step.1.1, fun i runs => ⟨step.1.2 i runs, step.2⟩⟩
  obtain ⟨sound, inv⟩ := sound.run compatible (Inv x P)
    (fun i limits u inv => safe_cycle injective inv) (fun u v inv effect => effect_inv inv effect)
    inv admitted
  refine ⟨inv, fun i r done => ?_⟩
  have safe := sound i
  rw [done] at safe
  exact safe t.shared (.refl _)

theorem cycle_ends [DecidableEq H] (limits : Limits) :
    (cycle x limits).EndsWithin
      (4 * limits.maxChunksPerCycle + 2 * Nat.log 2 limits.logChunk + 6) := by
  have total : 4 * limits.maxChunksPerCycle + 2 * Nat.log 2 limits.logChunk + 6 =
      1 + (4 * limits.maxChunksPerCycle + 2 * Nat.log 2 limits.logChunk + 5 + 0) := by omega
  rw [total]
  exact (endsWithin_call _).bind fun head =>
    (syncPositions_ends limits head).bind fun sync => endsWithin_pure _

/-- A cycle that is complete has stored every pair up to its head, in every run whose chunks are
each on the branch of the cursor before it. In every run at all, the logs of a chunk up to the
cursor are stored, and a cycle ends, whatever is answered. -/
theorem discovery_complete [DecidableEq H] (x : Deployment H)
    (injective : Function.Injective x.hash) (s t : Keepers H) (fresh : Started s)
    (moves : List (Move ℕ Limits Incident)) :
    (Execution.Run (branchStep x) s moves t →
      ∀ i head r, t.task i = .done (head, r) → r.complete = true →
        Stored x x.startBlock head t.shared.positions) ∧
    (Execution.Run (keeperStep x) s moves t →
      ∀ cur, t.shared.cursor = some cur →
        ∃ first, x.startBlock ≤ first ∧ first ≤ cur.number ∧
          Stored x first cur t.shared.positions) ∧
    ∀ limits, (cycle x limits).EndsWithin
      (4 * limits.maxChunksPerCycle + 2 * Nat.log 2 limits.logChunk + 6) := by
  refine ⟨fun run i head r done complete => ?_, fun run cur is => ?_, cycle_ends⟩
  · have whole := discovery_sound (P := True) injective fresh
      (run.mono fun _ _ _ step => ⟨step.1, fun _ => step.2⟩)
    exact whole.2 i (head, r) done trivial complete
  · have books := discovery_sound (P := False) injective fresh
      (run.mono fun _ _ _ step => ⟨step, nofun⟩)
    exact (books.1.covers cur is).chunk

/-! ### A reorganisation between two chunks -/

def address (n : ℕ) : Address := Fin.ofNat (2 ^ 160) n

def sampleDeployment : Deployment (List Block) := ⟨1, id⟩

def sampleBorrower : Pair := ⟨address 1, address 2⟩

/-- The borrower of the branch that the chain moves to. -/
def missedBorrower : Pair := ⟨address 1, address 3⟩

def firstChain : List Block := [⟨[], 0⟩, ⟨[(0, sampleBorrower)], 1⟩, ⟨[], 2⟩, ⟨[], 3⟩]

def secondChain : List Block := [⟨[], 0⟩, ⟨[(0, missedBorrower)], 4⟩, ⟨[], 5⟩, ⟨[], 6⟩]

def sampleStart : Keepers (List Block) :=
  ⟨⟨⟨firstChain, [firstChain]⟩, 0, none, [], true⟩, fun _ => .fail .rpc⟩

/-- What a chain of four blocks answers. -/
def sampleAnswers (c : List Block) : (q : Query) → Option (Answer (List Block) q)
  | .head => some (.ok (headerAt id 3 c))
  | .block number => some (.ok (c.take (number + 1)))
  | .logs fromBlock toBlock => some (.ok
      ((logsFrom id Block.borrowed fromBlock (toBlock + 1 - fromBlock) c).map vaultLog))

/-! A test of the answers above. -/

def headTest (c : List Block) (head : Header (List Block)) : Bool := decide (Names id head c)

def logsTest (c : List Block) (fromBlock toBlock : ℕ) (logs : List VaultLog) : Bool :=
  decide (logs.Perm ((logsFrom (id : List Block → List Block) Block.borrowed fromBlock
    (toBlock + 1 - fromBlock) c).map vaultLog))

theorem head_of_test {c : List Block} {head : Header (List Block)} (h : headTest c head = true) :
    Names id head c :=
  of_decide_eq_true h

theorem logs_of_test {c : List Block} {fromBlock toBlock : ℕ} {logs : List VaultLog}
    (h : logsTest c fromBlock toBlock logs = true) :
    logs.Perm ((logsFrom (id : List Block → List Block) Block.borrowed fromBlock
      (toBlock + 1 - fromBlock) c).map vaultLog) :=
  of_decide_eq_true h

def sampleCheck (s : World (List Block)) : (q : Query) → Answer (List Block) q → Bool
  | _, .error _ => false
  | .head, .ok head => headTest s.trace.chain head
  | .block number, .ok hash => headTest s.trace.chain ⟨number, hash⟩
  | .logs fromBlock toBlock, .ok logs => logsTest s.trace.chain fromBlock toBlock logs

theorem sampleCheck_sound (s : World (List Block)) (q : Query) (a : Answer (List Block) q)
    (h : sampleCheck s q a = true) : answers sampleDeployment s q a := by
  cases a with
  | error => cases q <;> cases h
  | ok v =>
    cases q with
    | head => exact head_of_test h
    | block number => exact head_of_test h
    | logs fromBlock toBlock => exact logs_of_test h

def runsTest (s : World (List Block)) (move : Move ℕ Limits Incident)
    (_ : World (List Block)) : Bool :=
  match move.runs with
  | some i => decide (s.process = i)
  | none => true

def branchTest (s t : World (List Block)) : Bool :=
  match s.cursor, t.cursor with
  | some cur, some new =>
    decide (new = cur) || s.trace.seen.all fun c => !headTest c new || headTest c cur
  | _, _ => true

theorem keeperStep_of_test (s : Keepers (List Block)) (move : Move ℕ Limits Incident)
    (t : Keepers (List Block)) (moved : Step (machine sampleDeployment) s move t)
    (h : runsTest s.shared move t.shared = true) : keeperStep sampleDeployment s move t := by
  refine ⟨moved, fun i runs => ?_⟩
  unfold runsTest at h
  rw [Option.mem_def.mp runs] at h
  have same := of_decide_eq_true h
  exact same

theorem extends_of_test {s t : World (List Block)} (h : branchTest s t = true) :
    Extends sampleDeployment s t := by
  intro cur new before after other c seen named
  simp only [branchTest, before, after, decide_eq_false other, Bool.false_or, List.all_eq_true] at h
  have at_c := h c seen
  have new_at : headTest c new = true := decide_eq_true named
  rw [new_at] at at_c
  exact head_of_test at_c

theorem branchStep_of_test (s : Keepers (List Block)) (move : Move ℕ Limits Incident)
    (t : Keepers (List Block)) (moved : Step (machine sampleDeployment) s move t)
    (h : (runsTest s.shared move t.shared && branchTest s.shared t.shared) = true) :
    branchStep sampleDeployment s move t := by
  rw [Bool.and_eq_true] at h
  exact ⟨keeperStep_of_test s move t moved h.1, extends_of_test h.2⟩

theorem started_sample : Started sampleStart where
  current := List.mem_singleton_self _
  cursor := rfl
  tasks := fun _ => ⟨.rpc, rfl⟩

abbrev Schedule := List (Choice (Answer (List Block)) ℕ Limits Incident)

/-- One cycle of `n` steps, on a chain that stays. -/
def cycleOn (limits : Limits) (c : List Block) (n : ℕ) : Schedule :=
  .begin 0 limits :: List.replicate n (.go 0 (sampleAnswers c))

/-- What a call has returned, and the table. -/
def outcome (s : Keepers (List Block)) : Option (Header (List Block) × Sync) × List Pair :=
  (match s.task 0 with
    | .done r => some r
    | _ => none, s.shared.positions)

/-- A complete cycle, a reorganisation of the whole chain, and the rebuild. -/
def rebuildSchedule : Schedule :=
  cycleOn ⟨2, 4, Nat.two_pos⟩ firstChain 10 ++ .env (.chain secondChain) ::
    cycleOn ⟨2, 4, Nat.two_pos⟩ secondChain 12

theorem task_of_outcome {t : Keepers (List Block)} {r : Header (List Block) × Sync}
    {pairs : List Pair} (h : outcome t = (some r, pairs)) :
    t.task 0 = .done r ∧ t.shared.positions = pairs := by
  obtain ⟨returned, table⟩ := Prod.mk.inj h
  refine ⟨?_, table⟩
  split at returned
  · rename_i r' done
    rw [done, Option.some.inj returned]
  · cases returned

theorem sample_discovery_complete : ∃ t moves,
    Execution.Run (branchStep sampleDeployment) sampleStart moves t ∧
    t.shared.positions = [sampleBorrower, missedBorrower] ∧
    Stored sampleDeployment sampleDeployment.startBlock (headerAt id 3 secondChain)
      t.shared.positions := by
  have computed : (System.exec (machine sampleDeployment) sampleCheck
      (fun s move t => runsTest s move t && branchTest s t) rebuildSchedule sampleStart).map outcome =
      some (some (headerAt id 3 secondChain, ⟨true, 3, 2, true⟩),
        [sampleBorrower, missedBorrower]) := by
    decide +kernel
  obtain ⟨t, moves, run, same⟩ := run_of_exec_map sampleCheck_sound branchStep_of_test computed
  obtain ⟨done, table⟩ := task_of_outcome same
  have complete := discovery_complete sampleDeployment Function.injective_id sampleStart t
    started_sample moves
  exact ⟨t, moves, run, table, complete.1 run 0 _ _ done rfl⟩

/-- The first chunk is read on one branch and the second on another; the next cycle is complete. -/
def reorgSchedule : Schedule :=
  cycleOn ⟨1, 2, Nat.one_pos⟩ firstChain 6 ++ .env (.chain secondChain) ::
    List.replicate 4 (.go 0 (sampleAnswers secondChain)) ++
    cycleOn ⟨1, 2, Nat.one_pos⟩ secondChain 7

/-- A borrower is missed after a reorganisation between the two chunks of a cycle. -/
theorem discovery_incomplete :
    ¬∀ (s t : Keepers (List Block)) (moves : List (Move ℕ Limits Incident)),
      Started s → Execution.Run (keeperStep sampleDeployment) s moves t →
      ∀ i head r, t.task i = .done (head, r) → r.complete = true →
        Stored sampleDeployment sampleDeployment.startBlock head t.shared.positions := by
  intro covered
  have computed : (System.exec (machine sampleDeployment) sampleCheck runsTest reorgSchedule
      sampleStart).map outcome =
      some (some (headerAt id 3 secondChain, ⟨true, 3, 1, false⟩), [sampleBorrower]) := by
    decide +kernel
  obtain ⟨t, moves, run, same⟩ := run_of_exec_map sampleCheck_sound keeperStep_of_test computed
  obtain ⟨done, table⟩ := task_of_outcome same
  have stored := covered sampleStart t moves started_sample run 0 _ _ done rfl secondChain
    (by decide) ⟨1, secondChain.take 2, 0, missedBorrower⟩ (by decide)
  rw [table] at stored
  exact absurd stored (by decide)

end Turret.Indexer
