import Turret.FacilityLoans.Listings

/-! Every run of requests, reorganisations, failures and crashes. -/

namespace Turret.FacilityLoans

open Execution Branches Tasks

variable {H : Type} {x : Index H}

abbrev Processes (H : Type) := System (World H) Query (Answer H) Err (Page H) Task

/-- An index that has stored nothing yet, and of which no request has returned. -/
structure Started (x : Index H) (s : Processes H) : Prop where
  lawful : Lawful x.entry.startBlock s.shared.chain
  updates : s.shared.updates = []
  settled : ∀ u, s.shared.settled u = none
  info : s.shared.db.info = none
  rows : s.shared.db.rows = []
  tasks : ∀ i, ∃ e, s.task i = .fail e

theorem Inv.started {s : Processes H} (fresh : Started x s) : Inv x s.shared := by
  refine ⟨fresh.lawful, fun u mem => ?_, fun u mem => ?_, ⟨fun _ => fresh.rows, ?_, ?_, ?_, ?_⟩,
    fun u r is => ?_⟩
  · simp [fresh.updates] at mem
  · simp [fresh.updates] at mem
  · simp [fresh.info]
  · simp [fresh.info]
  · simp [fresh.info]
  · simp [fresh.info]
  · simp [fresh.settled] at is

variable [DecidableEq H]

/-- A step of a process that has not crashed, or of its surroundings. -/
def processStep (x : Index H) := admittedStep (machine x) (contract x)

variable (x) in
/-- What holds in every state of a run: each request goes on safely. -/
structure Going (s : Processes H) : Prop where
  sound : Sound (contract x) (fun _ _ _ => True) (fun _ _ _ => True) s
  inv : Inv x s.shared

theorem effect_inv {s t : World H} (inv : Inv x s)
    (h : Effect (machine x) (contract x) s t) : Inv x t := by
  rcases h with rfl | ⟨i, -, act⟩ | ⟨e, moved⟩
  · exact inv
  · exact Act.inv act inv
  · exact (environment_since (i := (0, 0)) moved).inv inv

theorem safe_request (injective : Function.Injective x.hash) (i : Task) (request : Address × Option ℕ)
    (u : World H) (inv : Inv x u) :
    Safe (contract x i) (fun _ _ => True) (fun _ _ => True) ((machine x).call i request) u :=
  (safe_list injective inv).mono (fun _ _ _ => trivial) fun _ _ given => given

theorem effect_advances {s t : World H} (h : Effect (machine x) (contract x) s t) :
    Advances s.db t.db := by
  rcases h with rfl | ⟨i, -, act⟩ | ⟨e, moved⟩
  · exact .refl _
  · exact Act.advances act
  · exact (environment_since (i := (0, 0)) moved).advances

theorem Going.run (injective : Function.Injective x.hash) {s t : Processes H} (h : Going x s)
    {moves : List (Move Task (Address × Option ℕ) Incident)} (run : Run (processStep x) s moves t) :
    Going x t ∧ Advances s.shared.db t.shared.db := by
  obtain ⟨sound, inv, advances⟩ := h.sound.run compatible
    (fun u => Inv x u ∧ Advances s.shared.db u.db)
    (fun i request u now => safe_request injective i request u now.1)
    (fun _ _ now effect => ⟨effect_inv now.1 effect, now.2.trans (effect_advances effect)⟩)
    ⟨h.inv, .refl _⟩ run
  exact ⟨⟨sound, inv⟩, advances⟩

/-- What a step does to the database. -/
inductive Keeps (s t : World H) : Prop
  | same : t.db = s.db → Keeps s t
  | commit : t.db.revision = s.db.revision + 1 →
      (t.db.epoch = s.db.epoch ∧ s.db.rows <+: t.db.rows ∨ t.db.epoch = s.db.epoch + 1) → Keeps s t

omit [DecidableEq H] in
theorem Act.keeps {i : Task} {s t : World H} (h : Act x i s t) : Keeps s t := by
  cases h with
  | commit db commits => exact .commit commits.revision commits.rows
  | _ => exact .same rfl

theorem effect_keeps {s t : World H} (h : Effect (machine x) (contract x) s t) : Keeps s t := by
  rcases h with rfl | ⟨i, -, act⟩ | ⟨e, moved⟩
  · exact .same rfl
  · exact Act.keeps act
  · cases e with
    | chain c =>
      simp only [machine, environment, Option.ite_none_right_eq_some, Option.some.injEq] at moved
      obtain ⟨-, rfl⟩ := moved
      exact .same rfl
    | crash process =>
      cases moved
      exact .same rfl

/-! ### Following the cursor -/

/-- A request of the account, made after `s`, has returned the page at `t`. -/
def Fetched (x : Index H) (account : Address) (before : Option ℕ) (s : Processes H) (page : Page H)
    (t : Processes H) : Prop :=
  ∃ (i : Task) (a b : Processes H) (earlier later : List (Move Task (Address × Option ℕ) Incident)),
    Run (processStep x) s earlier a ∧ processStep x a (.begin i (account, before)) b ∧
    Run (processStep x) b later t ∧ (∀ move ∈ later, move.continues i) ∧ t.task i = .done page

/-- The pages, each from the cursor of the one before, to the last. -/
inductive Followed (x : Index H) (account : Address) :
    Option ℕ → Processes H → List (Page H) → Processes H → Prop
  | last {before : Option ℕ} {s t : Processes H} {page : Page H} :
      Fetched x account before s page t → page.nextCursor = none →
      Followed x account before s [page] t
  | more {before : Option ℕ} {s t u : Processes H} {page : Page H} {cursor : ℕ}
      {rest : List (Page H)} :
      Fetched x account before s page t → page.nextCursor = some cursor →
      Followed x account (some cursor) t rest u → Followed x account before s (page :: rest) u

variable {account : Address} {before : Option ℕ} {s t : Processes H}

theorem Fetched.served (injective : Function.Injective x.hash) {page : Page H}
    (h : Fetched x account before s page t) (going : Going x s) :
    Served x account (before.getD (2 ^ 256 - 1)) s.shared.db page t.shared ∧ Going x t := by
  obtain ⟨i, a, b, earlier, later, first, begun, rest, continues, done⟩ := h
  obtain ⟨at_a, since⟩ := going.run injective first
  obtain ⟨at_b, -⟩ := at_a.run injective (.single begun)
  have called : b.shared = a.shared ∧ b.task i = list x i account before := by
    cases begun.1
    exact ⟨rfl, Function.update_self ..⟩
  have own : SafeTo x i (Served x account (before.getD (2 ^ 256 - 1)) a.shared.db) (b.task i)
      b.shared := by
    rw [called.1, called.2]
    exact safe_list injective at_a.inv
  have safe := at_b.sound.along compatible (Inv x) (safe_request injective)
    (fun _ _ inv effect => effect_inv inv effect) at_b.inv rest continues own
  rw [done] at safe
  obtain ⟨db, later_a, now, stored, lists⟩ := safe t.shared (.refl _)
  exact ⟨⟨db, since.trans later_a, now, stored, lists⟩, (at_b.run injective rest).1⟩

/-- The rows of all pages are those of the database of the first. -/
theorem Followed.rows (injective : Function.Injective x.hash) {pages : List (Page H)} {epoch : ℕ}
    (h : Followed x account before s pages t) (going : Going x s)
    (one : ∀ page ∈ pages, page.historyEpoch = epoch) :
    ∃ db, Advances s.shared.db db ∧ Stored x db ∧ db.epoch = epoch ∧
      (∀ first ∈ pages.head?, Lists x account (before.getD (2 ^ 256 - 1)) db first) ∧
      pages.flatMap (fun page => page.rows.map LoanRow.key) =
        (held x account (before.getD (2 ^ 256 - 1)) db).map Row.key := by
  induction h with
  | @last before s t page fetched ends =>
    obtain ⟨⟨db, since, -, stored, lists⟩, -⟩ := fetched.served injective going
    refine ⟨db, since, stored, lists.epoch.trans (one page List.mem_cons_self), ?_, ?_⟩
    · rintro first is
      cases Option.some.inj is
      exact lists
    · rcases lists.split stored with ⟨-, rows⟩ | ⟨cursor, next, -⟩
      · rw [List.flatMap_singleton, rows]
      · rw [next] at ends
        cases ends
  | @more before s t u page cursor rest fetched next _ ih =>
    obtain ⟨⟨db, since, now, stored, lists⟩, at_t⟩ := fetched.served injective going
    obtain ⟨first, others⟩ := List.forall_mem_cons.mp one
    obtain ⟨db', since', stored', epoch', -, rows'⟩ := ih at_t others
    have epochs : db.epoch = epoch := lists.epoch.trans first
    refine ⟨db, since, stored, epochs, ?_, ?_⟩
    · rintro head is
      cases Option.some.inj is
      exact lists
    · rcases lists.split stored with ⟨ends, -⟩ | ⟨cursor', next', within, rows⟩
      · rw [next] at ends
        cases ends
      · cases Option.some.inj (next.symm.trans next')
        have grows := (now.trans since').grows (epochs.trans epoch'.symm)
        rw [List.flatMap_cons, rows', Option.getD_some,
          held_of_prefix stored' grows (within.trans (Nat.le_succ _)), ← rows]

omit [DecidableEq H] in
/-- Below the first cursor are all rows. -/
theorem held_all {db : Database H} (h : Stored x db) :
    held x account (2 ^ 256 - 1) db = (db.rows.filter fun row => Mine x account row).reverse := by
  rw [held]
  refine congrArg List.reverse (List.filter_congr fun row mem => decide_eq_decide.mpr ?_)
  refine and_iff_left_of_imp fun _ => ?_
  have within := (h.id_le mem).2
  cases info : db.info with
  | none =>
    rw [h.empty info] at mem
    cases mem
  | some m =>
    obtain ⟨c, records⟩ := h.records m info
    have bound : (opened x.hash c.length c).length + 1 < 2 ^ 256 :=
      (records.lawful.opened_ids c.length).2
    rw [← records.rows] at bound
    omega

/-- The rows, the commits and the pages of every run. -/
theorem facility_loans_indexed (x : Index H) (injective : Function.Injective x.hash)
    (s t : Processes H) (fresh : Started x s)
    (moves : List (Move Task (Address × Option ℕ) Incident)) (run : Run (processStep x) s moves t) :
    (t.shared.db.info = none → t.shared.db.rows = []) ∧
    (∀ m ∈ t.shared.db.info, ∃ point c, m.checkpoints.getLast? = some point ∧
      Lawful x.entry.startBlock c ∧ c.length = point.number + 1 ∧ x.hash c = point.hash ∧
      t.shared.db.rows = opened x.hash c.length c ∧
      t.shared.db.rows.map Row.id = List.range' 1 point.lastId) ∧
    (∀ move u, processStep x t move u → Keeps t.shared u.shared) ∧
    ∀ account pages u epoch first, Followed x account none t pages u →
      (∀ page ∈ pages, page.historyEpoch = epoch) → pages.head? = some first →
      ∃ (d : List Block) (next : ℕ), Lawful x.entry.startBlock d ∧
        Names x.hash ⟨first.blockNumber, first.blockHash⟩ d ∧ first.indexedThrough = next - 1 ∧
        (first.complete = true ↔ next = first.blockNumber + 1) ∧
        pages.flatMap (fun page => page.rows.map LoanRow.key) =
          (((opened x.hash next d).filter fun row => Mine x account row).reverse).map Row.key ∧
        (pages.flatMap fun page => page.rows.map LoanRow.id).Pairwise (· > ·) := by
  have going : Going x t := by
    refine (Going.run injective ⟨fun i => ?_, .started fresh⟩ run).1
    obtain ⟨e, failed⟩ := fresh.tasks i
    rw [failed]
    exact fun _ _ => trivial
  refine ⟨going.inv.stored.empty, fun m info => ?_, fun move u moved => ?_,
    fun account pages u epoch first followed one is => ?_⟩
  · obtain ⟨c, records⟩ := going.inv.stored.records m info
    obtain ⟨point, last, hash, length, lastId⟩ := records.branch
    refine ⟨point, c, last, records.lawful, length, hash, records.rows, ?_⟩
    rw [going.inv.stored.ids, lastId]
  · obtain ⟨-, effect⟩ := going.sound.step compatible
      (fun i request _ => safe_request injective i request _ going.inv) moved.1 moved.2
    exact effect_keeps effect
  · obtain ⟨db, -, stored, -, lists, rows⟩ := followed.rows injective going one
    obtain ⟨d, next, lawful, named, through, -, complete, at_db⟩ := (lists first is).branch
    refine ⟨d, next, lawful, named, through, complete, ?_, ?_⟩
    · rw [rows, Option.getD_none, held_all stored, at_db]
    · have ids : (pages.flatMap fun page => page.rows.map LoanRow.id) =
          (held x account (none.getD (2 ^ 256 - 1)) db).map Row.id := by
        have fsts := congrArg (List.map Prod.fst) rows
        rw [List.map_flatMap, List.map_map] at fsts
        simp only [List.map_map] at fsts
        exact fsts
      rw [ids]
      exact List.pairwise_map.mpr stored.descending

/-! ### A history that is not complete yet -/

def address (n : ℕ) : Address := Fin.ofNat (2 ^ 160) n

def sampleIndex (maxPages : ℕ) (maxPages_pos : 0 < maxPages) : Index (List Block) where
  entry := ⟨31337, address 1, "0xc0de", address 2, 1⟩
  pageBlocks := 1
  maxPages := maxPages
  retainedCheckpoints := 2
  pageBlocks_pos := by decide
  maxPages_pos := maxPages_pos
  retained_pos := Nat.two_pos
  keccak256 := fun _ => "0xc0de"
  hash := id

theorem four_pos : 0 < 4 := by decide

/-- One borrower draws twice, in two blocks. -/
def sampleChain : List Block :=
  [⟨[], by decide, 0⟩,
    ⟨[(0, .draw 1 (address 8) (address 7) 1000 10 5000)], by decide, 1⟩,
    ⟨[(3, .draw 2 (address 8) (address 6) 2000 20 6000)], by decide, 2⟩]

def sampleStart : Processes (List Block) where
  shared := {
    chain := sampleChain
    seen := fun _ => []
    updates := []
    owner := fun _ => (0, 0)
    count := 0
    pending := fun _ => none
    settled := fun _ => none
    crashed := []
    db := ⟨none, []⟩ }
  task := fun _ => .fail .rpc

theorem started_sample (maxPages : ℕ) (maxPages_pos : 0 < maxPages) :
    Started (sampleIndex maxPages maxPages_pos) sampleStart where
  lawful := by
    change Lawful 1 sampleChain
    decide +kernel
  updates := rfl
  settled := fun _ => rfl
  info := rfl
  rows := rfl
  tasks := fun _ => ⟨.rpc, rfl⟩

def sampleFacilityAt (block : ℕ) : Facility :=
  (facilityAt (sampleChain.take (block + 1))).getD deployed

/-- What the chain answers. -/
def sampleAnswers : (q : Query) → Option (Answer (List Block) q)
  | .active => some (.ok (0 : ℕ))
  | .activeListings => some (.ok (0 : ℕ))
  | .now => some (.ok (0 : ℕ))
  | .chainId => some (.ok (31337 : ℕ))
  | .latestBlock => some (.ok ((headerAt id 2 sampleChain, 0) : Header (List Block) × ℕ))
  | .block number => some (.ok (headerAt id number sampleChain))
  | .code _ => some (.ok (some "0x6080"))
  | .logs fromBlock toBlock => some (.ok
      (logsFrom id Block.events fromBlock (toBlock + 1 - fromBlock) sampleChain))
  | .nextLoanId block => some (.ok (sampleFacilityAt block).nextLoanId)
  | .loan id block => some (.ok ((sampleFacilityAt block).loans id))
  | .transaction => some (.ok ())
  | .settled _ => none

/-! A test of the answers above. -/

def latestTest (c : List Block) (latest : Header (List Block) × ℕ) : Bool :=
  decide (latest.1.number + 1 = c.length ∧ Names id latest.1 c)

def blockTest (c : List Block) (number : ℕ) (hd : Header (List Block)) : Bool :=
  decide (hd.number = number ∧ Names id hd c)

def logsTest (c : List Block) (fromBlock toBlock : ℕ) (logs : List (Log (List Block) LoanOpened)) :
    Bool :=
  decide (logs.Perm (logsFrom id Block.events fromBlock (toBlock + 1 - fromBlock) c))

def counterTest (c : List Block) (block next : ℕ) : Bool :=
  match facilityAt (c.take (block + 1)) with
  | some f => decide (next = f.nextLoanId)
  | none => true

def loanTest (c : List Block) (id block : ℕ) (loan : Loan) : Bool :=
  match facilityAt (c.take (block + 1)) with
  | some f => decide (loan = f.loans id)
  | none => true

theorem latest_of_test {c : List Block} {latest : Header (List Block) × ℕ}
    (h : latestTest c latest = true) : latest.1.number + 1 = c.length ∧ Names id latest.1 c :=
  of_decide_eq_true h

theorem block_of_test {c : List Block} {number : ℕ} {hd : Header (List Block)}
    (h : blockTest c number hd = true) : hd.number = number ∧ Names id hd c :=
  of_decide_eq_true h

theorem logs_of_test {c : List Block} {fromBlock toBlock : ℕ}
    {logs : List (Log (List Block) LoanOpened)} (h : logsTest c fromBlock toBlock logs = true) :
    logs.Perm (logsFrom id Block.events fromBlock (toBlock + 1 - fromBlock) c) :=
  of_decide_eq_true h

theorem counter_of_test {c : List Block} {block next : ℕ} (h : counterTest c block next = true)
    (f : Facility) (is : facilityAt (c.take (block + 1)) = some f) : next = f.nextLoanId := by
  simpa only [counterTest, is, decide_eq_true_eq] using h

theorem loan_of_test {c : List Block} {id block : ℕ} {loan : Loan}
    (h : loanTest c id block loan = true) (f : Facility)
    (is : facilityAt (c.take (block + 1)) = some f) : loan = f.loans id := by
  simpa only [loanTest, is, decide_eq_true_eq] using h

def sampleCheck (s : World (List Block)) : (q : Query) → Answer (List Block) q → Bool
  | _, .error _ => false
  | .latestBlock, .ok latest => latestTest s.chain latest
  | .block number, .ok hd => blockTest s.chain number hd
  | .logs fromBlock toBlock, .ok logs => logsTest s.chain fromBlock toBlock logs
  | .nextLoanId block, .ok next => counterTest s.chain block next
  | .loan id block, .ok loan => loanTest s.chain id block loan
  | .settled _, .ok _ => false
  | _, .ok _ => true

theorem sampleCheck_sound {maxPages : ℕ} {maxPages_pos : 0 < maxPages} (s : World (List Block))
    (q : Query) (a : Answer (List Block) q) (h : sampleCheck s q a = true) :
    answers (sampleIndex maxPages maxPages_pos) s q a := by
  cases a with
  | error => cases q <;> cases h
  | ok v =>
    cases q with
    | latestBlock => exact latest_of_test h
    | block number => exact block_of_test h
    | logs fromBlock toBlock => exact logs_of_test h
    | nextLoanId block => exact fun _ f is => counter_of_test h f is
    | loan id block => exact fun _ f is => loan_of_test h f is
    | settled => cases h
    | _ => trivial

def aliveTest (s : World (List Block)) (move : Move Task (Address × Option ℕ) Incident)
    (_ : World (List Block)) : Bool :=
  match move.runs with
  | some i => decide (i.1 ∉ s.crashed)
  | none => true

theorem processStep_of_test {maxPages : ℕ} {maxPages_pos : 0 < maxPages}
    (s : Processes (List Block)) (move : Move Task (Address × Option ℕ) Incident)
    (t : Processes (List Block)) (moved : Step (machine (sampleIndex maxPages maxPages_pos)) s move t)
    (h : aliveTest s.shared move t.shared = true) :
    processStep (sampleIndex maxPages maxPages_pos) s move t := by
  refine ⟨moved, fun i runs => ?_⟩
  unfold aliveTest at h
  rw [Option.mem_def.mp runs] at h
  have alive := of_decide_eq_true h
  exact alive

/-- The borrower asks for the first page. -/
def sampleBegun (maxPages : ℕ) (maxPages_pos : 0 < maxPages) : Processes (List Block) :=
  ⟨sampleStart.shared, Function.update sampleStart.task (0, 0)
    (list (sampleIndex maxPages maxPages_pos) (0, 0) (address 8) none)⟩

/-- The numbers on the page that was returned, whether it is complete, and its block. -/
def outcome (s : Processes (List Block)) : Option (List ℕ × Bool × ℕ × Option ℕ) :=
  match s.task (0, 0) with
  | .done page => some (page.rows.map LoanRow.id, page.complete, page.blockNumber, page.nextCursor)
  | _ => none

/-- The first page that a request returns. -/
theorem fetched_of_exec {maxPages : ℕ} {maxPages_pos : 0 < maxPages} {n : ℕ}
    {result : List ℕ × Bool × ℕ × Option ℕ}
    (h : (System.exec (machine (sampleIndex maxPages maxPages_pos)) sampleCheck aliveTest
      ((List.replicate n ((0, 0), sampleAnswers)).map fun go => .go go.1 go.2)
      (sampleBegun maxPages maxPages_pos)).map outcome = some (some result)) :
    ∃ page t, Fetched (sampleIndex maxPages maxPages_pos) (address 8) none sampleStart page t ∧
      (page.rows.map LoanRow.id, page.complete, page.blockNumber, page.nextCursor) = result := by
  obtain ⟨t, reached, at_t⟩ := Option.map_eq_some_iff.mp h
  obtain ⟨moves, run, continues⟩ := run_of_goes sampleCheck_sound processStep_of_test reached
  have begun : processStep (sampleIndex maxPages maxPages_pos) sampleStart
      (.begin (0, 0) (address 8, none)) (sampleBegun maxPages maxPages_pos) :=
    ⟨.begin rfl, nofun⟩
  unfold outcome at at_t
  split at at_t
  · rename_i page done
    exact ⟨page, t, ⟨(0, 0), sampleStart, _, [], moves, .nil _, begun, run,
      fun move mem => continues move mem (0, 0), done⟩, Option.some.inj at_t⟩
  · cases at_t

/-- The first page is incomplete and the only one, and a loan of the block that it names is not on
it. -/
theorem incomplete_first_page : ∃ page t, Started (sampleIndex 1 one_pos) sampleStart ∧
    Followed (sampleIndex 1 one_pos) (address 8) none sampleStart [page] t ∧
    (opened id (page.blockNumber + 1) sampleChain).map Row.key = [(1, address 8), (2, address 8)] ∧
    page.rows.map LoanRow.id = [1] := by
  have computed : (System.exec (machine (sampleIndex 1 one_pos)) sampleCheck aliveTest
      ((List.replicate 24 ((0, 0), sampleAnswers)).map fun go => .go go.1 go.2)
      (sampleBegun 1 one_pos)).map outcome = some (some ([1], false, 2, none)) := by
    decide +kernel
  obtain ⟨page, t, fetched, is⟩ := fetched_of_exec computed
  simp only [Prod.mk.injEq] at is
  obtain ⟨rows, -, block, ends⟩ := is
  refine ⟨page, t, started_sample 1 one_pos, .last fetched ends, ?_, rows⟩
  rw [block]
  decide +kernel

theorem sample_facility_loans_indexed : ∃ page t,
    Followed (sampleIndex 4 four_pos) (address 8) none sampleStart [page] t ∧
    page.rows.map LoanRow.id = [2, 1] ∧
    (∀ m ∈ t.shared.db.info, ∃ point c, m.checkpoints.getLast? = some point ∧ id c = point.hash ∧
      t.shared.db.rows = opened id c.length c) ∧
    ∃ d next, [page].flatMap (fun page => page.rows.map LoanRow.key) =
      (((opened id next d).filter fun row =>
        Mine (sampleIndex 4 four_pos) (address 8) row).reverse).map Row.key := by
  have computed : (System.exec (machine (sampleIndex 4 four_pos)) sampleCheck aliveTest
      ((List.replicate 31 ((0, 0), sampleAnswers)).map fun go => .go go.1 go.2)
      (sampleBegun 4 four_pos)).map outcome = some (some ([2, 1], true, 2, none)) := by
    decide +kernel
  obtain ⟨page, t, fetched, is⟩ := fetched_of_exec computed
  simp only [Prod.mk.injEq] at is
  obtain ⟨rows, -, -, ends⟩ := is
  have followed : Followed (sampleIndex 4 four_pos) (address 8) none sampleStart [page] t :=
    .last fetched ends
  obtain ⟨i, a, b, earlier, later, first, begun, rest, -, -⟩ := fetched
  have started := started_sample 4 four_pos
  obtain ⟨-, stored, -, -⟩ := facility_loans_indexed (sampleIndex 4 four_pos)
    Function.injective_id sampleStart t started _ (first.append (.cons begun rest))
  obtain ⟨-, -, -, pages⟩ := facility_loans_indexed (sampleIndex 4 four_pos)
    Function.injective_id sampleStart sampleStart started [] (.nil _)
  refine ⟨page, t, followed, rows, fun m info => ?_, ?_⟩
  · obtain ⟨point, c, last, -, -, hash, at_c, -⟩ := stored m info
    exact ⟨point, c, last, hash, at_c⟩
  · obtain ⟨d, next, -, -, -, -, whole, -⟩ := pages (address 8) [page] t page.historyEpoch page
      followed (fun p mem => congrArg Page.historyEpoch (List.mem_singleton.mp mem)) rfl
    exact ⟨d, next, whole⟩

end Turret.FacilityLoans
