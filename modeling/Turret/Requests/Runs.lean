import Turret.Requests.Actions

/-! Runs of the service from an empty store, and the replay of an envelope that
publishes: where the clock passes its end between the second check and the filter of
the nonces, the envelope is executed again. -/

namespace Turret.Requests

open Execution Tasks Tasks.Program

variable {x : Service} {strict : Bool}

abbrev Handles := System World Query (fun q => Except Err q.Result) Err (List Row) Task

abbrev Moves := List (Move Task Method ℕ)

/-- The service before the first action. -/
structure Fresh (s : Handles) : Prop where
  memory : s.shared.memory = none
  disk : s.shared.disk = none
  queue : s.shared.queue = []
  generated : s.shared.generated = []
  executed : s.shared.executed = []
  stored : s.shared.stored = []
  used : s.shared.used = []
  idle : ∀ i, (s.task i).finished = true

/-- An accepted action and what it does to the board. -/
structure Executes (x : Service) (e : Envelope) (s t : World) : Prop where
  executed : t.executed = s.executed ++ [e]
  stored : t.stored = s.stored ++ [content x t]
  kept : ∀ row ∈ (content x s).requests, ∃ row' ∈ (content x t).requests, RowKept row row'
  target : ∀ id revision, e.action.target = some (id, revision) →
    ∃ row ∈ (content x s).requests, row.id = id ∧ row.revision = revision ∧
      ∃ row' ∈ (content x t).requests, RowKept row row' ∧ row'.revision = revision + 1
  others : ∀ row ∈ (content x s).requests, e.action.target.map Prod.fst ≠ some row.id →
    row ∈ (content x t).requests
  added : ∀ row' ∈ (content x t).requests,
    (∃ row ∈ (content x s).requests, row.id = row'.id) ∨
      e.action.target = none ∧ row'.revision = 1
  /-- The account has used the nonce only for what has ended. -/
  unused : ∀ old ∈ s.executed, old.key = e.key → old.validUntil ≤ s.clock

/-- A step of the service leaves the board and the store as they are, or executes one action. -/
inductive Moved (x : Service) (s t : World) : Prop
  | idle : t.executed = s.executed → t.stored = s.stored → content x t = content x s → Moved x s t
  | executes {e : Envelope} : Executes x e s t → Moved x s t

/-- A state that is shown or decided on is the content of the store. -/
def Shows (x : Service) (s t : World) : Prop :=
  ∀ board ∈ t.used, board ∈ s.used ∨ board = content x t

/-- The content of the store is what was stored last, and only what was stored is used. -/
structure Stored (x : Service) (w : World) : Prop where
  last : (emptyBoard x.origin :: w.stored).getLast? = some (content x w)
  used : ∀ board ∈ w.used, board ∈ emptyBoard x.origin :: w.stored

variable {s t : World}

theorem Committed.executes {e : Envelope} {next : Board} (done : Committed x strict s e next)
    (disk : t.disk = some next) (executed : t.executed = s.executed ++ [e])
    (stored : t.stored = s.stored ++ [next]) : Executes x e s t := by
  have now : content x t = next := by rw [content, disk, Option.getD_some]
  obtain ⟨made, -, coherent, applied⟩ := done.applied
  refine ⟨executed, now.symm ▸ stored, ?_, ?_, ?_, ?_, done.unused⟩
  · rw [now]
    exact applied.kept coherent
  · rw [now]
    exact fun id revision => applied.target coherent
  · rw [now]
    exact fun row => applied.others
  · rw [now]
    exact applied.added

theorem QueueAct.moved (act : QueueAct x strict s t) : Moved x s t ∧ Shows x s t := by
  have appended : ∀ {board b : Board}, b ∈ s.used ++ [board] → b ∈ s.used ∨ b = board :=
    fun mem => (List.mem_append.mp mem).imp_right List.mem_singleton.mp
  cases act with
  | same => exact ⟨.idle rfl rfl rfl, fun _ => .inl⟩
  | takes _ => exact ⟨.idle rfl rfl rfl, fun _ => .inl⟩
  | makes _ => exact ⟨.idle rfl rfl rfl, fun _ => .inl⟩
  | shows is =>
    exact ⟨.idle rfl rfl rfl, fun b mem => (appended mem).imp_right fun same => same.trans is⟩
  | commits done =>
    exact ⟨.executes (done.executes rfl rfl rfl), fun b mem => appended mem⟩
  | reaches done => exact ⟨.executes (done.executes rfl rfl rfl), fun _ => .inl⟩
  | loses => exact ⟨.idle rfl rfl rfl, fun _ => .inl⟩

theorem Stored.moved (h : Stored x s) (moved : Moved x s t) (shows_ : Shows x s t) :
    Stored x t := by
  have last : (emptyBoard x.origin :: t.stored).getLast? = some (content x t) ∧
      ∀ board ∈ s.used, board ∈ emptyBoard x.origin :: t.stored := by
    cases moved with
    | idle _ stored same =>
      rw [stored, same]
      exact ⟨h.last, h.used⟩
    | executes done =>
      rw [done.stored, ← List.cons_append]
      exact ⟨List.getLast?_concat .., fun board mem => List.mem_append_left _ (h.used board mem)⟩
  refine ⟨last.1, fun board mem => ?_⟩
  rcases shows_ board mem with before | rfl
  · exact last.2 board before
  · exact List.mem_of_getLast? last.1

/-- What every effect on the state does. -/
theorem moved_of_effect (effect : Effect (timelyMachine x strict) (contract x strict) s t) :
    Moved x s t ∧ Shows x s t := by
  rcases effect with rfl | ⟨task, -, act⟩ | ⟨seconds, ran⟩
  · exact ⟨.idle rfl rfl rfl, fun _ => .inl⟩
  · cases task with
    | queue => exact QueueAct.moved act
    | caller n =>
      cases (act : CallerAct s t) with
      | same => exact ⟨.idle rfl rfl rfl, fun _ => .inl⟩
      | joins _ => exact ⟨.idle rfl rfl rfl, fun _ => .inl⟩
  · cases ran
    exact ⟨.idle rfl rfl rfl, fun _ => .inl⟩

theorem Inv.effect (h : Inv x strict s)
    (effect : Effect (timelyMachine x strict) (contract x strict) s t) : Inv x strict t := by
  rcases effect with rfl | ⟨task, -, act⟩ | ⟨seconds, ran⟩
  · exact h
  · cases task with
    | queue => exact h.queueAct act
    | caller n => exact h.alone (CallerAct.alone act)
  · cases ran
    exact h.alone ⟨rfl, rfl, rfl, rfl, Nat.le_add_right ..⟩

/-! ### Runs -/

/-- The clock keeps to what `Timely` asks in this step. -/
def InTime (s : Handles) (move : Move Task Method ℕ) : Prop :=
  ∀ i e next, move = .answer i → s.task i = .ask (.now (.nonces e)) next →
    e.action.target = none → e ∈ s.shared.executed → s.shared.clock < e.validUntil

/-- A step of the service, in time where that is asked. -/
def timelyStep (x : Service) (strict : Bool) (s : Handles) (move : Move Task Method ℕ)
    (t : Handles) : Prop :=
  Step (machine x) s move t ∧ (strict = true → InTime s move)

theorem step_of_timely {s t : Handles} {move : Move Task Method ℕ}
    (h : timelyStep x strict s move t) : Step (timelyMachine x strict) s move t := by
  obtain ⟨moved, inTime⟩ := h
  cases moved with
  | act at_act => exact .act at_act
  | @answer i q next a at_ask given =>
    refine .answer at_ask ⟨given, ?_⟩
    cases q with
    | now site =>
      cases site with
      | nonces e => exact fun repeats => inTime repeats.1 i e next rfl at_ask repeats.2.1 repeats.2.2
      | other => exact trivial
    | _ => exact trivial
  | begin idle => exact .begin idle
  | env ran => exact .env ran

structure Going (x : Service) (strict : Bool) (s : Handles) : Prop where
  sound : Sound (contract x strict) (fun _ _ _ => True) (fun _ _ _ => True) s
  inv : Inv x strict s.shared
  stored : Stored x s.shared

theorem Going.start {s : Handles} (fresh : Fresh s) : Going x strict s := by
  have empty : content x s.shared = emptyBoard x.origin := by
    rw [content, fresh.disk, Option.getD_none]
  refine ⟨fun i => ?_, ⟨?_, ?_, ?_, ?_, ?_⟩, ?_, ?_⟩
  · have idle := fresh.idle i
    cases at_task : s.task i with
    | done a => exact fun _ _ => trivial
    | fail e => exact fun _ _ => trivial
    | act f next =>
      rw [at_task] at idle
      cases idle
    | ask q next =>
      rw [at_task] at idle
      cases idle
  · rw [fresh.memory]
    intro board kept
    cases kept
  · rw [empty]
    exact .empty
  · rw [Remembered, fresh.executed]
    exact List.forall_mem_nil _
  · rw [fresh.executed]
    exact List.forall_mem_nil _
  · rw [fresh.executed]
    exact List.nodup_nil
  · rw [empty, fresh.stored, List.getLast?_singleton]
  · rw [fresh.used]
    exact List.forall_mem_nil _

theorem Going.step {s t : Handles} {move : Move Task Method ℕ} (h : Going x strict s)
    (step : timelyStep x strict s move t) :
    Going x strict t ∧ Moved x s.shared t.shared ∧ Shows x s.shared t.shared := by
  have admitted : Admitted (contract x strict) s move t := by
    intro i _
    cases i with
    | queue => exact trivial
    | caller n => exact trivial
  obtain ⟨sound, effect⟩ := h.sound.step compatible (fun _ _ _ => run_safe h.inv)
    (step_of_timely step) admitted
  obtain ⟨moved, shown⟩ := moved_of_effect effect
  exact ⟨⟨sound, h.inv.effect effect, h.stored.moved moved shown⟩, moved, shown⟩

theorem Going.run {s t : Handles} {moves : Moves} (h : Going x strict s)
    (run : Run (timelyStep x strict) s moves t) : Going x strict t :=
  run.invariant (Going x strict) (fun _ _ _ now step => (now.step step).1) h

/-- Whatever the order of the actions, their replays, the clock and the failed writes, the board is
coherent, a step of the service executes one action or none, and only what the store has is used.
An action on a request is executed once. So is any action, as long as no envelope that publishes and
was executed has ended where the nonces are filtered for it again. -/
theorem requests_board (x : Service) (s t : Handles) (fresh : Fresh s) (moves : Moves)
    (run : Run (Step (machine x)) s moves t) :
    Coherent t.shared.generated (content x t.shared).requests ∧ Stored x t.shared ∧
    (∀ move u, Step (machine x) t move u →
      Moved x t.shared u.shared ∧ Shows x t.shared u.shared) ∧
    (t.shared.executed.filter (·.action.target.isSome)).Nodup ∧
    (Run (fun s move t => Step (machine x) s move t ∧ InTime s move) s moves t →
      t.shared.executed.Nodup) := by
  have going : Going x false t := (Going.start fresh).run (run.mono fun _ _ _ moved => ⟨moved, nofun⟩)
  refine ⟨going.inv.coherent, going.stored, fun move u moved => (going.step ⟨moved, nofun⟩).2,
    going.inv.once, fun timely => ?_⟩
  have strictly : Going x true t :=
    (Going.start fresh).run (timely.mono fun _ _ _ step => ⟨step.1, fun _ => step.2⟩)
  have once := strictly.inv.once
  simp only [Bool.true_or] at once
  rwa [List.filter_true] at once

/-! ### A replay -/

def samplePublish : Envelope where
  version := 1
  origin := "https://turret"
  chainId := 1
  market := "0x00000000000000000000000000000000000000b1"
  account := "0x00000000000000000000000000000000000000a1"
  nonce := "0xcccccccccccccccccccccccccccccccccccccccccccccccccccccccccccccccc"
  issuedAt := 1000
  validUntil := 1010
  action := .publish ⟨1000, 2000, 10, 30, 90000⟩

def sampleService : Service where
  origin := "https://turret"
  markets := [⟨samplePublish.market, "0x00000000000000000000000000000000000000b2",
    "0x00000000000000000000000000000000000000b3", 1, 3, samplePublish.nonce⟩]
  maxRecords := 10000
  keccak256 _ := samplePublish.nonce

def unopened : Handles := ⟨⟨1000, none, none, [], [], [], [], []⟩, fun _ => .fail .idle⟩

theorem fresh_unopened : Fresh unopened := ⟨rfl, rfl, rfl, rfl, rfl, rfl, rfl, fun _ => rfl⟩

def sampleAnswers (clock : ℕ) (id : String) : (q : Query) → Option (Except Err q.Result)
  | .now _ => some (.ok clock)
  | .uuid => some (.ok id)
  | .chainId => some (.ok (1 : ℕ))
  | .verify _ _ => some (.ok true)
  | .client => some (.error .rpc)
  | .read => some (.ok ())
  | .write => some (.ok .written)

def checkAnswer (w : World) : (q : Query) → Except Err q.Result → Bool
  | .now _, .ok time => Nat.beq time w.clock
  | .uuid, .ok id => !w.generated.contains id
  | _, _ => true

theorem answers_of_check (w : World) (q : Query) (a : Except Err q.Result)
    (h : checkAnswer w q a = true) : answers w q a := by
  cases a with
  | error e => cases q <;> exact trivial
  | ok a =>
    cases q with
    | now site => exact Nat.eq_of_beq_eq_true h
    | uuid =>
      have fresh : ∀ id : String, (!w.generated.contains id) = true → id ∉ w.generated := by simp
      exact fresh a h
    | _ => exact trivial

abbrev Choices := List (Choice (fun q : Query => Except Err q.Result) Task Method ℕ)

def going (task : Task) (clock : ℕ) (id : String) (steps : ℕ) : Choices :=
  List.replicate steps (.go task (sampleAnswers clock id))

/-- Two callers submit the envelope, and the queue executes the first submission. -/
def submittedTwice : Choices :=
  [.begin (.caller 0) (.submit samplePublish "0x01"),
    .begin (.caller 1) (.submit samplePublish "0x01")] ++
  going (.caller 0) 1000 "" 7 ++ going (.caller 1) 1000 "" 7 ++
  [.begin .queue .serve] ++ going .queue 1000 "00000000-0000-4000-8000-000000000001" 15

/-- The second submission is checked one second before the end, and its nonce is looked up at the
end. -/
def replayedLate : Choices :=
  submittedTwice ++ [.env 9, .begin .queue .serve] ++ going .queue 1009 "" 7 ++
  [.env 1] ++ going .queue 1010 "00000000-0000-4000-8000-000000000002" 9

def replayedEarly : Choices :=
  submittedTwice ++ [.env 5, .begin .queue .serve] ++ going .queue 1005 "" 8

/-- What the test of an in-time run looks at. -/
def inTime (w : World) : Bool :=
  w.executed.all fun e => e.action.target.isSome || decide (w.clock < e.validUntil)

theorem inTime_step {s t : Handles} {move : Move Task Method ℕ}
    (moved : Step (machine sampleService) s move t) (h : inTime s.shared = true) :
    Step (machine sampleService) s move t ∧ InTime s move := by
  refine ⟨moved, fun i e next _ _ target mem => ?_⟩
  have each := List.all_eq_true.mp h e mem
  rw [target, Option.isSome_none, Bool.false_or] at each
  exact of_decide_eq_true each

/-- One envelope publishes two requests. -/
theorem published_twice : ∃ t moves,
    Fresh unopened ∧ Run (Step (machine sampleService)) unopened moves t ∧
    t.shared.executed = [samplePublish, samplePublish] ∧
    (content sampleService t.shared).requests.length = 2 := by
  have computed : (System.exec (machine sampleService) checkAnswer (fun _ _ _ => true) replayedLate
      unopened).map (fun t => (t.shared.executed,
        (content sampleService t.shared).requests.length)) =
      some ([samplePublish, samplePublish], 2) := by
    decide +kernel
  obtain ⟨t, moves, run, at_t⟩ :=
    run_of_exec_map answers_of_check (fun _ _ _ moved _ => moved) computed
  obtain ⟨executed, count⟩ := Prod.mk.inj at_t
  exact ⟨t, moves, fresh_unopened, run, executed, count⟩

/-- A replay in time is not executed. -/
theorem sample_requests_board : ∃ t moves,
    Run (Step (machine sampleService)) unopened moves t ∧
    t.shared.executed = [samplePublish] ∧ t.shared.executed.Nodup ∧ Stored sampleService t.shared ∧
    Coherent t.shared.generated (content sampleService t.shared).requests := by
  have computed : (System.exec (machine sampleService) checkAnswer (fun w _ _ => inTime w)
      replayedEarly unopened).map (·.shared.executed) = some [samplePublish] := by
    decide +kernel
  obtain ⟨t, moves, run, executed⟩ :=
    run_of_exec_map answers_of_check (fun _ _ _ => inTime_step) computed
  have whole := run.mono fun _ _ _ step => step.1
  obtain ⟨coherent, stored, -, -, once⟩ :=
    requests_board sampleService unopened t fresh_unopened moves whole
  exact ⟨t, moves, whole, executed, once run, stored, coherent⟩

end Turret.Requests
