import Turret.ActiveLoans.Results

/-! Every run of calls, reorganisations, failures and restarts. -/

namespace Turret.ActiveLoans

open Execution Branches Tasks

variable {H : Type} {x : Index H}

/-- What a step does to the cache and to the file. Where the pending call is for a block, it
replaces no checkpoint above the block. -/
inductive Keeps (x : Index H) (s t : World H) : Prop
  | same : t.cache = s.cache → t.persisted = s.persisted → Keeps x s t
  | restarted : t.cache = none → t.persisted = s.persisted → Keeps x s t
  | stored (v : Saved H) : t = s.store x v →
      (∀ n, s.pending = some (some n) → ∀ old, s.stored x = some old →
        ∀ point ∈ old.checkpoints, point.blockNumber ≤ n) → Keeps x s t

theorem Act.keeps {s t : World H} (h : Act x s t) : Keeps x s t := by
  cases h with
  | idle => exact .same rfl rfl
  | begin => exact .same rfl rfl
  | finish => exact .same rfl rfl
  | store v _ newest => exact .stored v rfl newest

theorem environment_keeps {s t : World H} {e : Incident} (h : environment x e s = some t) :
    Keeps x s t := by
  cases e with
  | chain c =>
    simp only [environment, Option.ite_none_right_eq_some, Option.some.injEq] at h
    obtain ⟨-, rfl⟩ := h
    exact .same rfl rfl
  | restart =>
    cases h
    exact .restarted rfl rfl

abbrev Processes (H : Type) := System (World H) Query (Answer H) Err (Snapshot H) ℕ

/-- An index that has stored nothing yet, and of which no call has returned. -/
structure Started (x : Index H) (s : Processes H) : Prop where
  lawful : Lawful x.market.startBlock s.shared.trace.chain
  seen : s.shared.trace.seen = [s.shared.trace.chain]
  cache : s.shared.cache = none
  persisted : s.shared.persisted = none
  tasks : ∀ i, ∃ e, s.task i = .fail e

theorem Inv.started {s : Processes H} (fresh : Started x s) : Inv x s.shared := by
  refine ⟨?_, fun d mem => ?_, fun v is => ?_, fun v is => ?_, fun _ v is => ?_⟩
  · simp [fresh.seen]
  · rw [fresh.seen, List.mem_singleton] at mem
    exact mem ▸ fresh.lawful
  · simp [fresh.cache] at is
  · simp [fresh.persisted] at is
  · simp [fresh.cache] at is

variable [DecidableEq H]

/-- A step of the process that runs, or of its surroundings. -/
def processStep (x : Index H) := admittedStep (machine x) (contract x)

theorem effect_inv {s t : World H} (inv : Inv x s)
    (h : Effect (machine x) (contract x) s t) : Inv x t := by
  rcases h with rfl | ⟨i, -, act⟩ | ⟨e, moved⟩
  · exact inv
  · exact Act.inv act inv
  · exact (environment_since (i := 0) moved).inv inv

theorem effect_keeps {s t : World H} (h : Effect (machine x) (contract x) s t) : Keeps x s t := by
  rcases h with rfl | ⟨i, -, act⟩ | ⟨e, moved⟩
  · exact .same rfl rfl
  · exact Act.keeps act
  · exact environment_keeps moved

/-- The checkpoints, the results and the writes of every run. -/
theorem active_loans_indexed (x : Index H) (injective : Function.Injective x.hash)
    (s t : Processes H) (fresh : Started x s) (moves : List (Move ℕ (Option ℕ) Incident))
    (run : Run (processStep x) s moves t) :
    (∀ v, t.shared.cache = some v ∨ t.shared.persisted = some v →
      validateSaved x (some v) = .ok v ∧ ∀ point ∈ v.checkpoints, Right x point) ∧
    (∀ i r, t.task i = .done r → t.shared.process = i →
      ∃ c ∈ t.shared.trace.seen, Reports x r c ∧ (r.complete = true →
        ∃ m, marketAt (c.take (r.blockNumber + 1)) = some m ∧
          ∀ id, id ∈ r.loans.map Loan.id ↔ isActive m id)) ∧
    ∀ move u, processStep x t move u → Keeps x t.shared u.shared := by
  have sound : Sound (contract x) (Told x) (fun _ _ _ => True) s := by
    intro i
    obtain ⟨e, failed⟩ := fresh.tasks i
    rw [failed]
    exact fun _ _ => trivial
  obtain ⟨sound, inv⟩ := sound.run compatible (Inv x)
    (fun i requested u inv => safe_syncMarket injective inv)
    (fun u v inv effect => effect_inv inv effect) (.started fresh) run
  refine ⟨fun v stored => ?_, fun i r done at_i => ?_, fun move u moved => ?_⟩
  · have valid : Valid x v := stored.elim (inv.cached v) (inv.persisted v)
    exact ⟨valid.accepted, valid.points.right⟩
  · have safe := sound i
    rw [done] at safe
    obtain ⟨c, mem, reports⟩ := (safe t.shared (.refl _)).2 at_i
    exact ⟨c, mem, reports, reports.complete⟩
  · obtain ⟨-, effect⟩ := sound.step compatible
      (fun _ _ _ => safe_syncMarket injective inv) moved.1 moved.2
    exact effect_keeps effect

/-! ### A call that returns -/

def address (n : ℕ) : Address := Fin.ofNat (2 ^ 160) n

def sampleIndex : Index (List Block) where
  market := ⟨address 1, 4663, 1, "0xc0de"⟩
  persistence := true
  pageSize := 2
  maxPages := 4
  retainedCheckpoints := 2
  maxActiveCandidates := 100
  maxLogsPerPage := 100
  maxConcurrentSync := 4
  pageSize_pos := by decide
  maxPages_pos := by decide
  retained_pos := by decide
  keccak256 := fun _ => "0xc0de"
  hash := id

/-- Two offers are created and accepted, and one of them is repaid. -/
def sampleChain : List Block :=
  [⟨[], by decide, 0⟩,
    ⟨[(0, .createOffer (address 2) (address 3)), (1, .createOffer (address 2) (address 4)),
      (2, .acceptOffer 1 (address 3))], by decide, 1⟩,
    ⟨[(0, .acceptOffer 2 (address 4))], by decide, 2⟩,
    ⟨[(5, .repay 1)], by decide, 3⟩]

def sampleStart : Processes (List Block) :=
  ⟨⟨⟨sampleChain, [sampleChain]⟩, 0, none, none, none⟩, fun _ => .fail .rpc⟩

def sampleMarketAt (block : ℕ) : Market :=
  (marketAt (sampleChain.take (block + 1))).getD deployed

/-- What the chain answers; the logs come in the opposite order. -/
def sampleAnswers : (q : Query) → Option (Answer (List Block) q)
  | .running => some (.ok (0 : ℕ))
  | .chainId => some (.ok (4663 : ℕ))
  | .latestBlock => some (.ok (headerAt id 3 sampleChain))
  | .block number => some (.ok (headerAt id number sampleChain))
  | .code _ => some (.ok (some "0x6080"))
  | .nextOfferId block => some (.ok (sampleMarketAt block).nextOfferId)
  | .logs fromBlock toBlock => some (.ok
      (logsFrom id Block.events fromBlock (toBlock + 1 - fromBlock) sampleChain).reverse)
  | .offer id block => some (.ok ((sampleMarketAt block).offers id))
  | .read => some (.ok ())
  | .write => some (.ok ())

/-! A test of the answers above. -/

def latestTest (c : List Block) (hd : Header (List Block)) : Bool :=
  decide (hd.number + 1 = c.length ∧ Names id hd c)

def blockTest (c : List Block) (number : ℕ) (hd : Header (List Block)) : Bool :=
  decide (hd.number = number ∧ Names id hd c)

def counterTest (c : List Block) (block next : ℕ) : Bool :=
  match marketAt (c.take (block + 1)) with
  | some m => decide (next = m.nextOfferId)
  | none => true

def logsTest (c : List Block) (fromBlock toBlock : ℕ) (logs : List (Log (List Block) Event)) : Bool :=
  decide (logs.Perm (logsFrom id Block.events fromBlock (toBlock + 1 - fromBlock) c))

def offerTest (c : List Block) (id block : ℕ) (offer : Offer) : Bool :=
  match marketAt (c.take (block + 1)) with
  | some m => decide (offer = m.offers id)
  | none => true

theorem latest_of_test {c : List Block} {hd : Header (List Block)} (h : latestTest c hd = true) :
    hd.number + 1 = c.length ∧ Names id hd c :=
  of_decide_eq_true h

theorem block_of_test {c : List Block} {number : ℕ} {hd : Header (List Block)}
    (h : blockTest c number hd = true) : hd.number = number ∧ Names id hd c :=
  of_decide_eq_true h

theorem counter_of_test {c : List Block} {block next : ℕ} (h : counterTest c block next = true)
    (m : Market) (is : marketAt (c.take (block + 1)) = some m) : next = m.nextOfferId := by
  simpa only [counterTest, is, decide_eq_true_eq] using h

theorem logs_of_test {c : List Block} {fromBlock toBlock : ℕ}
    {logs : List (Log (List Block) Event)} (h : logsTest c fromBlock toBlock logs = true) :
    logs.Perm (logsFrom id Block.events fromBlock (toBlock + 1 - fromBlock) c) :=
  of_decide_eq_true h

theorem offer_of_test {c : List Block} {id block : ℕ} {offer : Offer}
    (h : offerTest c id block offer = true) (m : Market)
    (is : marketAt (c.take (block + 1)) = some m) : offer = m.offers id := by
  simpa only [offerTest, is, decide_eq_true_eq] using h

def sampleCheck (s : World (List Block)) : (q : Query) → Answer (List Block) q → Bool
  | _, .error _ => false
  | .latestBlock, .ok hd => latestTest s.trace.chain hd
  | .block number, .ok hd => blockTest s.trace.chain number hd
  | .nextOfferId block, .ok next => counterTest s.trace.chain block next
  | .logs fromBlock toBlock, .ok logs => logsTest s.trace.chain fromBlock toBlock logs
  | .offer id block, .ok offer => offerTest s.trace.chain id block offer
  | _, .ok _ => true

theorem sampleCheck_sound (s : World (List Block)) (q : Query) (a : Answer (List Block) q)
    (h : sampleCheck s q a = true) : answers sampleIndex s q a := by
  cases a with
  | error => cases q <;> cases h
  | ok v =>
    cases q with
    | latestBlock => exact latest_of_test h
    | block number => exact block_of_test h
    | nextOfferId block => exact fun _ m is => counter_of_test h m is
    | logs fromBlock toBlock => exact logs_of_test h
    | offer id block => exact fun _ m is => offer_of_test h m is
    | _ => trivial

/-- One call for the newest block, to its end. -/
def sampleSchedule : List (Choice (Answer (List Block)) ℕ (Option ℕ) Incident) :=
  .begin 0 none :: List.replicate 27 (.go 0 sampleAnswers)

def runsTest (s : World (List Block)) (move : Move ℕ (Option ℕ) Incident)
    (_ : World (List Block)) : Bool :=
  match move.runs with
  | some i => decide (s.process = i)
  | none => true

theorem processStep_of_test (s : Processes (List Block)) (move : Move ℕ (Option ℕ) Incident)
    (t : Processes (List Block)) (moved : Step (machine sampleIndex) s move t)
    (h : runsTest s.shared move t.shared = true) : processStep sampleIndex s move t := by
  refine ⟨moved, fun i runs => ?_⟩
  unfold runsTest at h
  rw [Option.mem_def.mp runs] at h
  have same := of_decide_eq_true h
  exact same

/-- The loans that the call has returned, and the number of checkpoints in the file. -/
def outcome (s : Processes (List Block)) : List ℕ × ℕ :=
  (match s.task 0 with
    | .done r => r.loans.map Loan.id
    | _ => [], (s.shared.persisted.map fun saved => saved.checkpoints.length).getD 0)

theorem started_sample : Started sampleIndex sampleStart where
  lawful := by decide +kernel
  seen := rfl
  cache := rfl
  persisted := rfl
  tasks := fun _ => ⟨.rpc, rfl⟩

theorem sample_active_loans_indexed : ∃ t moves, Run (processStep sampleIndex) sampleStart moves t ∧
    outcome t = ([2], 2) ∧ ∀ v, t.shared.persisted = some v →
      validateSaved sampleIndex (some v) = .ok v ∧ ∀ point ∈ v.checkpoints, Right sampleIndex point := by
  have computed : (System.exec (machine sampleIndex) sampleCheck runsTest sampleSchedule
      sampleStart).map outcome = some ([2], 2) := by
    decide +kernel
  obtain ⟨t, moves, run, same⟩ := run_of_exec_map sampleCheck_sound processStep_of_test computed
  have indexed := active_loans_indexed sampleIndex Function.injective_id sampleStart t started_sample
    moves run
  exact ⟨t, moves, run, same, fun v stored => indexed.1 v (.inr stored)⟩

end Turret.ActiveLoans
