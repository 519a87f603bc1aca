import Turret.Alerts.Passes

/-! Runs of the alerts. A subscription that is activated again while a message to it is on
its way is written back as it was before, and the history of a market is one for all
channels of a wallet. -/

namespace Turret.Alerts

open Execution Tasks Tasks.Program

variable {x : Engine} {l : Limits} {w w' : World}

abbrev Handles := System World Query (fun _ => Except Err Unit) Err Unit Task

abbrev Moves := List (Move Task Method Event)

open Classical in
/-- The service, where the requests keep to the limits. -/
noncomputable def limitedMachine (x : Engine) (l : Limits) :
    Machine World Query (fun _ => Except Err Unit) Err Unit Task Method Event :=
  { machine x with env := fun e w => if Admits x l w e then some (request x e w) else none }

/-- The cycle may rely on the requests to keep the invariant, and guarantees the same. -/
def contract (x : Engine) (l : Limits) (_ : Task) : Contract World Query (fun _ => Except Err Unit) where
  rely := fun s t => (Inv x l s → Inv x l t) ∧ t.pass = s.pass ∧ t.flight = s.flight
  admits := fun _ _ => True
  guarantee := fun s t => Inv x l s → Inv x l t ∧ Stepped l s t
  answers := fun _ _ _ => True
  refl := fun _ => ⟨id, rfl, rfl⟩
  trans := fun h h' => ⟨h'.1 ∘ h.1, h'.2.1.trans h.2.1, h'.2.2.trans h.2.2⟩

theorem compatible (ordered : Monotone x.times) : Compatible (limitedMachine x l) (contract x l) where
  others {i j _ _} other := by
    cases i
    cases j
    exact absurd rfl other
  env {_ e s t} ran := by
    simp only [limitedMachine, Option.ite_none_right_eq_some, Option.some.injEq] at ran
    obtain ⟨admits, rfl⟩ := ran
    have aside := aside_request (x := x) (w := s) e
    exact ⟨fun h => h.request ordered admits, aside.pass, aside.flight⟩
  answers _ := trivial

/-- A program of the cycle that ends with the delivery done. -/
abbrev Rests (x : Engine) (l : Limits) (p : Prog Unit) (s : World) : Prop :=
  Safe (contract x l .tick) (fun _ t => Inv x l t ∧ Resting t) (fun _ _ => False) p s

section Programs

variable (ordered : Monotone x.times)

theorem safe_modify_passed {rest : List Job} {f : World → World} {s : World}
    (spec : ∀ u, (contract x l .tick).rely s u → Passed x l rest u (f u)) :
    Safe (contract x l .tick) (fun _ t => Inv x l t ∧ t.pass = rest ∧ t.flight = none)
      (fun _ _ => False) (modify f : Prog Unit) s := by
  intro u later _
  have passed := spec u later
  refine ⟨fun _ => ⟨passed.inv, .still passed.starts passed.observed⟩, fun v after => ?_⟩
  exact ⟨after.1 passed.inv, after.2.1.trans passed.pass, after.2.2.trans passed.flight⟩

include ordered

theorem deliverOne_safe {job : Job} {rest : List Job} {s : World} (h : Inv x l s)
    (pass : s.pass = job :: rest) (landed : s.flight = none) :
    Safe (contract x l .tick) (fun _ t => Inv x l t ∧ t.pass = rest ∧ t.flight = none)
      (fun _ _ => False) (deliverOne x job) s := by
  unfold deliverOne
  intro t since _
  obtain ⟨keeps, at_pass, at_flight⟩ := since
  obtain ⟨inv, turned, stepped⟩ := takeUp_spec ordered (keeps h) (at_pass.trans pass)
    (at_flight.trans landed)
  refine ⟨fun _ => ⟨inv, stepped⟩, ?_⟩
  beta_reduce
  generalize takeUp x job t = taken at inv turned stepped ⊢
  obtain ⟨turn, t'⟩ := taken
  cases turn with
  | dropped =>
    exact fun u later => ⟨later.1 inv, later.2.1.trans turned.1, later.2.2.trans turned.2⟩
  | held =>
    exact fun u later => ⟨later.1 inv, later.2.1.trans turned.1, later.2.2.trans turned.2⟩
  | sends sub =>
    obtain ⟨waiting, carries⟩ := turned
    intro u later _ result _
    have now : ∀ v, (contract x l .tick).rely u v → Inv x l v ∧ v.pass = job :: rest ∧
        Carries job sub v.flight := by
      intro v after
      obtain ⟨keeps, at_pass, at_flight⟩ := (contract x l .tick).trans later after
      exact ⟨keeps inv, at_pass.trans waiting, at_flight ▸ carries⟩
    cases result with
    | ok _ =>
      refine safe_modify_passed fun v after => ?_
      obtain ⟨inv, waiting, carries⟩ := now v after
      exact sent_spec ordered inv waiting carries
    | error _ =>
      refine safe_modify_passed fun v after => ?_
      obtain ⟨inv, waiting, carries⟩ := now v after
      exact failed_spec ordered inv waiting carries

theorem deliverAll_safe {jobs : List Job} {s : World} (h : Inv x l s) (pass : s.pass = jobs)
    (landed : s.flight = none) : Rests x l (deliverAll x jobs) s := by
  induction jobs generalizing s with
  | nil => exact fun t later => ⟨later.1 h, later.2.1.trans pass, later.2.2.trans landed⟩
  | cons job rest ih =>
    refine Safe.bind ((deliverOne_safe ordered h pass landed).mono (fun _ t done => ?_) fun _ _ => id)
    exact ih done.1 done.2.1 done.2.2

theorem deliver_safe (all : ∀ w, (x.all w).Perm w.outbox) {s : World} (h : Inv x l s)
    (resting : Resting s) : Rests x l (deliver x) s := by
  intro t since _
  have inv := since.1 h
  have still : Resting t := ⟨since.2.1.trans resting.pass, since.2.2.trans resting.flight⟩
  refine ⟨fun _ => ⟨inv.snapshot still (all t), .still rfl rfl⟩, ?_⟩
  change Safe (contract x l .tick) _ _
    (deliverAll x (x.all t) >>= fun _ => modify (prune x)) { t with pass := x.all t }
  refine Safe.bind ?_
  refine (deliverAll_safe ordered (inv.snapshot still (all t)) rfl still.flight).mono
    (fun _ u done => ?_) fun _ _ => id
  intro v later _
  obtain ⟨same, starts, observed⟩ := prune_same (x := x) v
  have pruned : Inv x l (prune x v) := (later.1 done.1).of_same ordered same
  refine ⟨fun _ => ⟨pruned, .still starts observed⟩, fun w after => ⟨after.1 pruned, ?_, ?_⟩⟩
  · exact (after.2.1.trans same.pass).trans (later.2.1.trans done.2.pass)
  · exact (after.2.2.trans same.flight).trans (later.2.2.trans done.2.flight)

theorem observe_safe {key : RiskKey} {health : Health} {s : World} (h : Inv x l s)
    (resting : Resting s) : Rests x l (modify (risk x key health)) s := by
  intro t since _
  have still : Resting t := ⟨since.2.1.trans resting.pass, since.2.2.trans resting.flight⟩
  have spec : Observes x l t (risk x key health t) ∧ _ := risk_observes ordered (since.1 h) still
  obtain ⟨observes, alerted⟩ := spec
  refine ⟨fun _ => ⟨observes.inv, fun start mem => .inl (observes.starts ▸ mem), alerted⟩,
    fun u later => ⟨later.1 observes.inv, ?_, ?_⟩⟩
  · exact (later.2.1.trans observes.pass).trans still.pass
  · exact (later.2.2.trans observes.flight).trans still.flight

theorem run_safe (all : ∀ w, (x.all w).Perm w.outbox) {s : World} (h : Inv x l s)
    (resting : Resting s) (task : Task) (method : Method) : Rests x l (run x task method) s := by
  cases task
  cases method with
  | observe key health => exact observe_safe ordered h resting
  | deliver => exact deliver_safe ordered all h resting

end Programs

/-! ### Runs -/

/-- The alerts before the first request. -/
structure Fresh (s : Handles) : Prop where
  subscriptions : s.shared.subscriptions = []
  outbox : s.shared.outbox = []
  risk : s.shared.risk = []
  pass : s.shared.pass = []
  flight : s.shared.flight = none
  messages : s.shared.messages = []
  idle : (s.task .tick).finished = true

/-- The step keeps to the limits. -/
def Limited (x : Engine) (l : Limits) (s : Handles) (move : Move Task Method Event) : Prop :=
  ∀ e, move = .env e → Admits x l s.shared e

def limitedStep (x : Engine) (l : Limits) (s : Handles) (move : Move Task Method Event)
    (t : Handles) : Prop :=
  Step (machine x) s move t ∧ Limited x l s move

theorem step_of_limited {s t : Handles} {move : Move Task Method Event}
    (h : limitedStep x l s move t) : Step (limitedMachine x l) s move t := by
  obtain ⟨moved, limited⟩ := h
  cases moved with
  | act at_act => exact .act at_act
  | answer at_ask given => exact .answer at_ask given
  | begin idle => exact .begin idle
  | @env e u ran =>
    refine .env ?_
    simp only [limitedMachine, if_pos (limited e rfl)]
    exact ran

structure Going (x : Engine) (l : Limits) (s : Handles) : Prop where
  sound : Sound (contract x l) (fun _ _ t => Inv x l t ∧ Resting t)
    (fun _ _ t => Inv x l t ∧ Resting t) s
  inv : Inv x l s.shared

theorem Fresh.inv {s : Handles} (fresh : Fresh s) : Inv x l s.shared := by
  obtain ⟨subscriptions, outbox, risk, pass, flight, messages, -⟩ := fresh
  have no_job : ∀ job, ¬(job ∈ s.shared.outbox ∨ job ∈ s.shared.pass) := by
    rw [outbox, pass]
    exact fun job mem => mem.elim nofun nofun
  have no_row : ∀ row, row ∉ s.shared.subscriptions := by simp [subscriptions]
  have no_risk : ∀ row, row ∉ s.shared.risk := by simp [risk]
  have no_message : ∀ m, m ∉ s.shared.messages := by simp [messages]
  have no_flight : ∀ start, s.shared.flight ≠ some start := by simp [flight]
  exact {
    subscriptions := by simp [subscriptions]
    jobs := by simp [outbox]
    rows := by simp [risk]
    consented := fun row mem => absurd mem (no_row row)
    addressed := fun job mem => absurd (.inl mem) (no_job job)
    fits := fun job mem => absurd mem (no_job job)
    confirms := fun job mem => absurd mem (no_job job)
    apart := fun job mem => absurd mem (no_job job)
    pass := by simp [pass]
    kept := fun job mem => absurd (.inr mem) (no_job job)
    wallets := fun m mem => absurd mem (no_message m)
    ages := fun m mem => absurd mem (no_message m)
    recorded := fun m mem => absurd mem (no_message m)
    spaced := by simp [messages]
    told := fun row mem => absurd mem (no_risk row)
    flight := fun start is => absurd is (no_flight start)
    calm := fun _ => ⟨fun row mem => absurd mem (no_row row),
      fun job mem => absurd (.inr mem) (no_job job), fun start is => absurd is (no_flight start)⟩
    single := fun _ _ => ⟨fun row mem => absurd mem (no_row row),
      fun row mem => absurd mem (no_risk row), fun start is => absurd is (no_flight start)⟩ }

theorem Going.start {s : Handles} (fresh : Fresh s) : Going x l s := by
  have rested : Inv x l s.shared ∧ Resting s.shared := ⟨fresh.inv, fresh.pass, fresh.flight⟩
  have later : ∀ t, (contract x l .tick).rely s.shared t → Inv x l t ∧ Resting t := fun t moved =>
    ⟨moved.1 rested.1, moved.2.1.trans fresh.pass, moved.2.2.trans fresh.flight⟩
  refine ⟨fun i => ?_, rested.1⟩
  cases i
  have idle := fresh.idle
  cases at_task : s.task .tick with
  | done a => exact later
  | fail e => exact later
  | act f next =>
    rw [at_task] at idle
    cases idle
  | ask q next =>
    rw [at_task] at idle
    cases idle

theorem Going.step (ordered : Monotone x.times) (all : ∀ w, (x.all w).Perm w.outbox)
    {s t : Handles} {move : Move Task Method Event} (h : Going x l s)
    (step : limitedStep x l s move t) : Going x l t ∧ Stepped l s.shared t.shared := by
  have begins : ∀ i k, move = .begin i k → Safe (contract x l i) (fun _ t => Inv x l t ∧ Resting t)
      (fun _ t => Inv x l t ∧ Resting t) ((limitedMachine x l).call i k) s.shared := by
    rintro i k rfl
    cases step.1 with
    | begin idle =>
      have resting : Resting s.shared := by
        have own := h.sound i
        cases at_task : s.task i with
        | done a =>
          rw [at_task] at own
          exact (own _ ((contract x l i).refl _)).2
        | fail e =>
          rw [at_task] at own
          exact (own _ ((contract x l i).refl _)).2
        | act f next =>
          rw [at_task] at idle
          cases idle
        | ask q next =>
          rw [at_task] at idle
          cases idle
      exact (run_safe ordered all h.inv resting i k).mono (fun _ _ => id) fun _ _ => False.elim
  obtain ⟨sound, effect⟩ := h.sound.step (compatible ordered) begins (step_of_limited step)
    fun _ _ => trivial
  rcases effect with same | ⟨task, -, acted⟩ | ⟨e, ran⟩
  · exact ⟨⟨sound, same ▸ h.inv⟩, same ▸ .still rfl rfl⟩
  · obtain ⟨inv, stepped⟩ := acted h.inv
    exact ⟨⟨sound, inv⟩, stepped⟩
  · simp only [limitedMachine, Option.ite_none_right_eq_some, Option.some.injEq] at ran
    obtain ⟨admits, same⟩ := ran
    have aside := aside_request (x := x) (w := s.shared) e
    refine ⟨⟨sound, same ▸ h.inv.request ordered admits⟩, ?_⟩
    rw [← same]
    exact .still aside.starts aside.observed

theorem Going.run (ordered : Monotone x.times) (all : ∀ w, (x.all w).Perm w.outbox)
    {s t : Handles} {moves : Moves} (h : Going x l s) (run : Run (limitedStep x l) s moves t) :
    Going x l t :=
  run.invariant (Going x l) (fun _ _ _ now step => (now.step ordered all step).1) h

variable {s : Handles} {move : Move Task Method Event}

def unopened : Handles where
  shared := ⟨0, [], [], [], [], [], fun _ => none, fun _ => 0, fun _ => 0, [], none, [], [], []⟩
  task := fun _ => .done ()

theorem fresh_unopened : Fresh unopened := ⟨rfl, rfl, rfl, rfl, rfl, rfl, rfl⟩

def sampleSub : SubId := ⟨"0xa", .email⟩

abbrev Choices := List (Choice (fun _ : Query => Except Err Unit) Task Method Event)

def going (steps : ℕ) : Choices := List.replicate steps (.go .tick fun _ => some (.ok ()))

/-- The wallet subscribes with this address, and follows the link. -/
def joins (email verification : String) : Choices :=
  [.env (.subscribe sampleSub (some email) verification), .env (.activate verification .email none none)]

def observes (status : Status) : Choices :=
  .begin .tick (.observe ⟨"0xa", "m"⟩ ⟨status, none⟩) :: going 1

end Turret.Alerts
