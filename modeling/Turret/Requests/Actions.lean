import Turret.Requests.Submissions

/-! The actions of the board one by one, the action of the queue, and what a state
between two actions of the service keeps. -/

namespace Turret.Requests

open Execution Tasks Tasks.Program

variable {x : Service} {strict : Bool} {s t u : World} {e : Envelope} {made : List String}
  {board : Board} {row : Row}

/-! ### Changes of a request -/

/-- The action makes one of the changes, and the state stays as it is meanwhile. -/
def Changes (x : Service) (strict : Bool) (made : List String) (board : Board) (row : Row)
    (p : Prog Row) (s : World) : Prop :=
  QueueGives x strict (fun row' t => During x s t ∧ Edit made t.generated board row row') p s

theorem cancel_changes : Changes x strict made board row (cancel e row) s := by
  unfold cancel Changes
  refine safe_throwIf fun _ => safe_throwIf fun active => ?_
  exact fun t since => ⟨since.during, .cancel active⟩

theorem bind_changes {config : Market} {proposalId : String} {offerId : ℕ} :
    Changes x strict made board row (bind x e config board row proposalId offerId) s := by
  unfold bind Changes now
  refine safe_lift fun proposal found => safe_throwIf fun _ => safe_throwIf fun linked => ?_
  refine safe_throwIf fun elsewhere => safe_call fun t answers since _ _ => ?_
  refine safe_lift fun verified _ => safe_call fun u checkedAt later _ _ => ?_
  intro v last
  have there : proposal ∈ row.proposals :=
    List.mem_of_find?_eq_some ((orRevert_eq_ok _ _ _).mp found)
  refine ⟨(since.during.trans later.during).trans last.during, .bind there (fun old is => ?_) ?_⟩
  · by_contra other
    refine linked ?_
    rw [is, Option.any_some, decide_eq_true_eq]
    exact other
  · exact Bool.not_eq_true _ ▸ elsewhere

theorem safe_checkLive {β : Type} {post : β → World → Prop} {k : Unit → Prog β}
    (h : ∀ t, Alone s t → row.status ≠ .cancelled → QueueGives x strict post (k ()) t) :
    QueueGives x strict post (checkLive row >>= k) s := by
  refine Safe.bind ?_
  unfold checkLive now
  refine safe_throwIf fun active => safe_call fun t (time : ℕ) since _ _ => ?_
  exact safe_guard (fun _ _ _ => trivial) fun _ u later => h u (since.trans later) active

theorem propose_changes {terms : Terms} (known : ∀ id ∈ made, id ∈ s.generated) :
    Changes x strict made board row (propose e row terms) s := by
  unfold propose Changes now
  refine safe_checkLive fun t₁ since₁ active => safe_throwIf fun _ => safe_throwIf fun _ => ?_
  refine safe_filterLive fun t₂ live since₂ _ => safe_throwIf fun _ => ?_
  refine safe_call fun t₃ time since₃ _ _ => safe_throwIf fun _ => ?_
  refine safe_randomUUID fun t₄ id since₄ fresh there => ?_
  refine safe_call fun t₅ createdAt since₅ _ _ => ?_
  intro u last
  have before := ((since₁.trans since₂).trans since₃).during (x := x)
  have after := (since₅.trans last).during (x := x)
  refine ⟨(before.trans since₄).trans after, .propose active (fun old => fresh ?_) ?_ rfl rfl⟩
  · exact before.generated id (known id old)
  · exact after.generated id there

theorem accept_changes {proposalId : String} :
    Changes x strict made board row (accept e row proposalId) s := by
  unfold accept Changes now
  refine safe_checkLive fun t since active => safe_throwIf fun _ => ?_
  refine safe_lift fun proposal found => safe_throwIf fun live => ?_
  refine safe_call fun u time later _ _ => safe_throwIf fun _ => ?_
  intro v last
  have there : proposal ∈ row.proposals :=
    List.mem_of_find?_eq_some ((orRevert_eq_ok _ _ _).mp found)
  exact ⟨((since.trans later).trans last).during, .accept active there (Bool.not_eq_true _ ▸ live)⟩

theorem cancelProposal_changes {proposalId : String} :
    Changes x strict made board row (cancelProposal e row proposalId) s := by
  unfold cancelProposal Changes
  refine safe_checkLive fun t since active => safe_lift fun proposal found => ?_
  refine safe_throwIf fun _ => safe_throwIf fun _ => ?_
  intro u last
  have there : proposal ∈ row.proposals :=
    List.mem_of_find?_eq_some ((orRevert_eq_ok _ _ _).mp found)
  exact ⟨(since.trans last).during, .withdraw active there⟩

/-! ### Changes of the board -/

/-- The action leads to an accepted state of the requests. -/
def Applies (x : Service) (strict : Bool) (made : List String) (e : Envelope) (board : Board)
    (p : Prog (Board × Row)) (s : World) : Prop :=
  QueueGives x strict
    (fun done t => During x s t ∧ Applied made t.generated e board done.1.requests ∧
      done.1.usedNonces = board.usedNonces) p s

theorem changeRequest_applies {config : Market} {requestId : String} {revision : ℕ}
    {change : Row → Prog Row} (target : e.action.target = some (requestId, revision))
    (h : ∀ row, Changes x strict made board row (change row) s) :
    Applies x strict made e board (changeRequest config board requestId revision change) s := by
  unfold changeRequest Applies
  refine safe_lift fun row found => safe_throwIf fun current => ?_
  have there := (orRevert_eq_ok _ _ _).mp found
  have is := List.find?_some there
  simp only [decide_eq_true_eq] at is
  refine Safe.bind ((h row).mono (fun row' t changed u later => ?_) fun _ _ _ => trivial)
  obtain ⟨since, edit⟩ := changed
  obtain ⟨-, -, same⟩ := edit.same
  refine ⟨since.trans later.during, ?_, rfl⟩
  rw [same]
  refine .change (List.mem_of_find?_eq_some there) ?_ (later.generated.symm ▸ edit)
  rw [target, is.1, not_not.mp current]

theorem publish_applies {config : Market} {terms : Terms} (action : e.action = .publish terms)
    (known : ∀ id ∈ made, id ∈ s.generated) :
    Applies x strict made e board (publish x e config terms board) s := by
  unfold publish Applies now
  refine safe_throwIf fun _ => safe_filterLive fun t₁ live since₁ _ => safe_throwIf fun _ => ?_
  refine safe_randomUUID fun t₂ id since₂ fresh there => ?_
  refine safe_call fun t₃ createdAt since₃ _ _ => ?_
  intro u last
  have after := (since₃.trans last).during (x := x)
  refine ⟨(since₁.during.trans since₂).trans after,
    .publish action (fun old => fresh ?_) (after.generated id there) rfl rfl rfl, rfl⟩
  rw [since₁.generated]
  exact known id old

/-- What an action does to the board it is given. -/
theorem apply_applies {config : Market} (known : ∀ id ∈ made, id ∈ s.generated) :
    Applies x strict made e board (apply x e config board) s := by
  unfold apply
  split
  · exact publish_applies ‹_› known
  · exact changeRequest_applies (by rw [‹e.action = _›]; rfl) fun _ => propose_changes known
  · exact changeRequest_applies (by rw [‹e.action = _›]; rfl) fun _ => accept_changes
  · exact changeRequest_applies (by rw [‹e.action = _›]; rfl) fun _ => cancel_changes
  · exact changeRequest_applies (by rw [‹e.action = _›]; rfl) fun _ => cancelProposal_changes
  · exact changeRequest_applies (by rw [‹e.action = _›]; rfl) fun _ => bind_changes

/-! ### What is kept -/

/-- What a state between two actions of the service keeps. -/
structure Inv (x : Service) (strict : Bool) (w : World) : Prop where
  memory : ∀ board, w.memory = some board → board = content x w
  coherent : Coherent w.generated (content x w).requests
  remembered : Remembered x w
  passed : ∀ e ∈ w.executed, ∀ id revision, e.action.target = some (id, revision) →
    ∃ row ∈ (content x w).requests, row.id = id ∧ revision < row.revision
  once : (w.executed.filter fun e => strict || e.action.target.isSome).Nodup

theorem Inv.alone (h : Inv x strict s) (since : Alone s t) : Inv x strict t := by
  have same : content x t = content x s := since.during.content
  refine ⟨fun board is => ?_, ?_, fun e mem => ?_, ?_, ?_⟩
  · rw [same]
    exact h.memory board (since.memory.symm.trans is)
  · rw [same, since.generated]
    exact h.coherent
  · rw [same]
    exact (h.remembered e (since.executed ▸ mem)).imp_right fun ended => ended.trans since.clock
  · rw [same, since.executed]
    exact h.passed
  · rw [since.executed]
    exact h.once

/-- An action at a revision was not executed before, as its request has moved on. -/
theorem Inv.fresh {next : Board} (h : Inv x strict s) (done : Committed x strict s e next)
    (counted : (strict || e.action.target.isSome) = true) : e ∉ s.executed := by
  intro again
  cases target : e.action.target with
  | none =>
    rw [target, Option.isSome_none, Bool.or_false] at counted
    exact done.once ⟨counted, target, again⟩
  | some named =>
    obtain ⟨made, -, coherent, applied⟩ := done.applied
    obtain ⟨row, mem, id, revision, -⟩ := applied.target coherent target
    obtain ⟨row', mem', id', later⟩ := h.passed e again named.1 named.2 target
    have same : row' = row :=
      List.inj_on_of_nodup_map h.coherent.ids mem' mem (id'.trans id.symm)
    subst same
    exact absurd revision (Nat.ne_of_gt later)

theorem Inv.commit {next : Board} (h : Inv x strict s) (done : Committed x strict s e next)
    (disk : t.disk = some next) (executed : t.executed = s.executed ++ [e])
    (generated : t.generated = s.generated) (clock : t.clock = s.clock)
    (memory : ∀ board, t.memory = some board → board = next) : Inv x strict t := by
  have now : content x t = next := by rw [content, disk, Option.getD_some]
  obtain ⟨made, known, coherent, applied⟩ := done.applied
  refine ⟨fun board is => ?_, ?_, fun old mem => ?_, fun old mem id revision target => ?_, ?_⟩
  · rw [now]
    exact memory board is
  · rw [now, generated]
    exact applied.coherent coherent known
  · rw [now, clock]
    rw [executed] at mem
    rcases List.mem_append.mp mem with before | last
    · rcases h.remembered old before with ⟨item, at_item, key, ends⟩ | ended
      · rcases done.dropped item at_item with kept | ended
        · exact .inl ⟨item, kept, key, ends⟩
        · exact .inr (ends ▸ ended)
      · exact .inr ended
    · rw [List.mem_singleton.mp last]
      exact .inl done.entry
  · rw [now]
    rw [executed] at mem
    rcases List.mem_append.mp mem with before | last
    · obtain ⟨row, at_row, is, later⟩ := h.passed old before id revision target
      obtain ⟨row', at_row', kept⟩ := applied.kept coherent row at_row
      refine ⟨row', at_row', kept.id.trans is, ?_⟩
      rcases kept.revision with same | next
      · rw [same]
        exact later
      · omega
    · rw [List.mem_singleton.mp last] at target
      obtain ⟨row, -, is, -, row', at_row', kept, next⟩ := applied.target coherent target
      exact ⟨row', at_row', kept.id.trans is, by omega⟩
  · rw [executed, List.filter_append]
    refine List.nodup_append.mpr ⟨h.once, (List.nodup_singleton e).filter _, ?_⟩
    rintro old before other last rfl
    obtain ⟨at_last, counted⟩ := List.mem_filter.mp last
    rw [List.mem_singleton.mp at_last] at before counted
    exact h.fresh done counted (List.mem_of_mem_filter before)

theorem Inv.queueAct (h : Inv x strict s) (act : QueueAct x strict s t) : Inv x strict t := by
  cases act with
  | same => exact h
  | takes _ => exact h.alone ⟨rfl, rfl, rfl, rfl, le_rfl⟩
  | makes id =>
    refine ⟨h.memory, ?_, h.remembered, h.passed, h.once⟩
    exact ⟨h.coherent.ids, h.coherent.proposals,
      fun row mem => ⟨List.mem_cons_of_mem _ (h.coherent.made row mem).1,
        fun p at_p => List.mem_cons_of_mem _ ((h.coherent.made row mem).2 p at_p)⟩,
      h.coherent.links, h.coherent.agreed⟩
  | shows is =>
    exact ⟨fun board shown => Option.some.inj shown ▸ is, h.coherent, h.remembered, h.passed,
      h.once⟩
  | commits done => exact h.commit done rfl rfl rfl rfl fun _ is => (Option.some.inj is).symm
  | reaches done => exact h.commit done rfl rfl rfl rfl nofun
  | loses => exact ⟨nofun, h.coherent, h.remembered, h.passed, h.once⟩

/-! ### The queue -/

theorem write_safe {next : Board} (done : ∀ t, Alone s t → Committed x strict t e next) :
    SafeQueue x strict (write e next) s := by
  unfold write
  refine safe_call fun t outcome since _ _ => ?_
  cases (outcome : Outcome) with
  | written => exact fun u later _ => ⟨.commits (done u (since.trans later)), fun _ _ => trivial⟩
  | reached => exact fun u later _ => ⟨.reaches (done u (since.trans later)), fun _ _ => trivial⟩
  | lost => exact fun u later _ => ⟨.loses, fun _ _ => trivial⟩

theorem execute_safe (inv : Inv x strict s) : SafeQueue x strict (execute x e) s := by
  unfold execute now
  refine safe_validateEnvelope fun t₁ config since₁ valid => ?_
  refine safe_load (inv.alone since₁).memory fun t₂ since₂ => ?_
  refine safe_filterLive fun t₃ kept since₃ live => safe_throwIf fun unused => ?_
  refine safe_filterLive fun t₄ recent since₄ _ => safe_throwIf fun _ => ?_
  have at₃ : During x s t₃ := (since₁.during.trans since₂).trans since₃.during
  have at₄ : During x s t₄ := at₃.trans since₄.during
  have same₁ : content x t₁ = content x s := since₁.during.content
  refine Safe.bind ((apply_applies at₄.generated).mono (fun changed t₅ found => ?_)
    fun _ _ _ => trivial)
  obtain ⟨since₅, applied, nonces⟩ := found
  refine safe_call fun t₆ usedAt since₆ _ _ => ?_
  refine Safe.bind ((write_safe fun t₇ since₇ => ?_).mono (fun _ _ _ => ?_) fun _ _ _ => trivial)
  · have later : Alone t₅ t₇ := since₆.trans since₇
    have at₇ : During x s t₇ := (at₄.trans since₅).trans later.during
    have from₃ : During x t₃ t₇ := (since₄.during.trans since₅).trans later.during
    -- a nonce is remembered, or its envelope has ended
    have remembered : ∀ old ∈ t₇.executed, old.key = e.key → old.validUntil ≤ t₃.clock := by
      intro old mem key
      rcases inv.remembered old (at₇.executed ▸ mem) with ⟨item, at_item, item_key, ends⟩ | ended
      · rw [← same₁] at at_item
        rcases live.dropped item at_item rfl with stays | ended
        · exact absurd (List.mem_map.mpr ⟨item, stays, item_key.trans key⟩) unused
        · exact ends ▸ ended
      · exact ended.trans at₃.clock
    refine ⟨⟨s.generated, at₇.generated, ?_, ?_⟩, fun item mem => ?_, ?_,
      fun old mem key => (remembered old mem key).trans from₃.clock, fun repeats => ?_⟩
    · rw [at₇.content]
      exact inv.coherent
    · rw [later.generated, at₇.content, ← same₁]
      exact applied.of_requests rfl
    · rw [at₇.content, ← same₁] at mem
      refine (live.dropped item mem rfl).imp (fun stays => ?_) fun ended => ended.trans from₃.clock
      exact List.mem_append_left _ stays
    · exact ⟨_, List.mem_append_right _ (List.mem_singleton_self _), rfl, rfl⟩
    · have again : e ∈ s.executed := at₇.executed ▸ repeats.2.2
      rcases inv.remembered e again with ⟨item, at_item, key, ends⟩ | ended
      · rw [← same₁] at at_item
        have stays := live.strict e rfl (repeats.before from₃.executed) item at_item rfl ends
        exact unused (List.mem_map.mpr ⟨item, stays, key⟩)
      · exact absurd valid (Nat.not_lt.mpr ended)
  · exact safe_call fun _ _ _ _ _ _ _ => trivial

theorem page_safe (inv : Inv x strict s) {filter : Filter} :
    SafeQueue x strict (page x filter) s := by
  unfold page now
  refine safe_load inv.memory fun t _ => ?_
  split
  · exact safe_call fun _ _ _ _ _ _ _ => trivial
  · exact safe_filterLive fun _ _ _ _ => safe_call fun _ _ _ _ _ _ _ => trivial

theorem serve_safe (inv : Inv x strict s) : SafeQueue x strict (serve x) s := by
  unfold serve
  refine Safe.bind (Tasks.safe_attempt (fun _ => .same) (fun t job u since ran _ => ?_)
    fun _ _ _ _ _ _ => trivial)
  split at ran
  · cases ran
  · rename_i first rest queued
    cases ran
    refine ⟨.takes queued, fun v later => ?_⟩
    have taken : Alone t { t with queue := rest } := ⟨rfl, rfl, rfl, rfl, le_rfl⟩
    have inv' := inv.alone ((since.trans taken).trans later)
    cases job with
    | submit e => exact Safe.bind ((execute_safe inv').mono (fun _ _ _ _ _ => trivial) fun _ _ _ => trivial)
    | list filter => exact page_safe inv'

theorem run_safe {task : Task} {method : Method} (inv : Inv x strict s) :
    Safe (contract x strict task) (fun _ _ => True) (fun _ _ => True) (run x task method) s := by
  cases task with
  | queue => exact serve_safe inv
  | caller n =>
    refine safe_of_acts ?_
    cases method with
    | submit e signature => exact acts_submit.bind fun _ => trivial
    | list filter => exact acts_list.bind fun _ => trivial
    | serve => exact trivial

end Turret.Requests
