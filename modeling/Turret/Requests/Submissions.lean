import Turret.Requests.Edits

/-! What an action of the queue commits, whatever the callers and the clock do
meanwhile. `strict` tells whether the clock may pass the end of an envelope that
publishes, and was executed, while the remembered nonces are filtered for it. -/

namespace Turret.Requests

open Execution Tasks Tasks.Program

variable {x : Service} {strict : Bool} {s t u : World} {e : Envelope}

/-- The state in the store, or that of a store without a file. -/
def content (x : Service) (w : World) : Board := w.disk.getD (emptyBoard x.origin)

/-! ### The actions -/

/-- An envelope that publishes comes again, where this may not be late. -/
def Repeats (strict : Bool) (w : World) (e : Envelope) : Prop :=
  strict = true ∧ e.action.target = none ∧ e ∈ w.executed

/-- The nonce of an executed envelope is in the state, or the envelope has ended. -/
def Remembered (x : Service) (w : World) : Prop :=
  ∀ e ∈ w.executed, (∃ item ∈ (content x w).usedNonces, item.key = e.key ∧
    item.validUntil = e.validUntil) ∨ e.validUntil ≤ w.clock

/-- The state that an accepted action leads to. -/
structure Committed (x : Service) (strict : Bool) (s : World) (e : Envelope) (next : Board) :
    Prop where
  applied : ∃ made, (∀ id ∈ made, id ∈ s.generated) ∧ Coherent made (content x s).requests ∧
    Applied made s.generated e (content x s) next.requests
  dropped : ∀ item ∈ (content x s).usedNonces, item ∈ next.usedNonces ∨ item.validUntil ≤ s.clock
  entry : ∃ item ∈ next.usedNonces, item.key = e.key ∧ item.validUntil = e.validUntil
  /-- The account has used the nonce only for what has ended. -/
  unused : ∀ old ∈ s.executed, old.key = e.key → old.validUntil ≤ s.clock
  once : ¬ Repeats strict s e

/-- An action of the queue. -/
inductive QueueAct (x : Service) (strict : Bool) (s : World) : World → Prop
  | same : QueueAct x strict s s
  | takes {job : Job} {rest : List Job} : s.queue = job :: rest →
      QueueAct x strict s { s with queue := rest }
  | makes (id : String) : QueueAct x strict s { s with generated := id :: s.generated }
  | shows {board : Board} : board = content x s →
      QueueAct x strict s { s with memory := some board, used := s.used ++ [board] }
  | commits {e : Envelope} {next : Board} : Committed x strict s e next →
      QueueAct x strict s { s with
        memory := some next, disk := some next, executed := s.executed ++ [e],
        stored := s.stored ++ [next], used := s.used ++ [next] }
  | reaches {e : Envelope} {next : Board} : Committed x strict s e next →
      QueueAct x strict s { s with
        memory := none, disk := some next, executed := s.executed ++ [e],
        stored := s.stored ++ [next] }
  | loses : QueueAct x strict s { s with memory := none }

/-- An action of a caller. -/
inductive CallerAct (s : World) : World → Prop
  | same : CallerAct s s
  | joins (job : Job) : CallerAct s { s with queue := s.queue ++ [job] }

/-- What the queue may rely on: it is the only one to change the state. -/
structure Alone (s t : World) : Prop where
  memory : t.memory = s.memory
  disk : t.disk = s.disk
  generated : t.generated = s.generated
  executed : t.executed = s.executed
  clock : s.clock ≤ t.clock

theorem Alone.refl (s : World) : Alone s s := ⟨rfl, rfl, rfl, rfl, le_rfl⟩

theorem Alone.trans (h : Alone s t) (h' : Alone t u) : Alone s u :=
  ⟨h'.memory.trans h.memory, h'.disk.trans h.disk, h'.generated.trans h.generated,
    h'.executed.trans h.executed, h.clock.trans h'.clock⟩

theorem CallerAct.alone (h : CallerAct s t) : Alone s t := by
  cases h with
  | same => exact .refl s
  | joins _ => exact ⟨rfl, rfl, rfl, rfl, le_rfl⟩

/-! ### The contracts -/

/-- An envelope that publishes and was executed has not ended where the remembered nonces are
filtered for it again. -/
def Timely (strict : Bool) (w : World) : Query → Prop
  | .now (.nonces e) => Repeats strict w e → w.clock < e.validUntil
  | _ => True

/-- The service, where the clock keeps to this. -/
def timelyMachine (x : Service) (strict : Bool) :
    Machine World Query (fun q => Except Err q.Result) Err (List Row) Task Method ℕ :=
  { machine x with answers := fun w q a => answers w q a ∧ Timely strict w q }

def contract (x : Service) (strict : Bool) :
    Task → Contract World Query (fun q => Except Err q.Result)
  | .queue => {
    rely := Alone
    admits := fun _ _ => True
    guarantee := QueueAct x strict
    answers := fun w q a => answers w q a ∧ Timely strict w q
    refl := .refl
    trans := .trans }
  | .caller _ => {
    rely := fun _ _ => True
    admits := fun _ _ => True
    guarantee := CallerAct
    answers := fun w q a => answers w q a ∧ Timely strict w q
    refl := fun _ => trivial
    trans := fun _ _ => trivial }

theorem compatible : Compatible (timelyMachine x strict) (contract x strict) where
  others {i j s t} other _ act := by
    cases j with
    | caller n => exact trivial
    | queue =>
      cases i with
      | queue => exact absurd rfl other
      | caller n => exact CallerAct.alone act
  env {j e s t} ran := by
    cases ran
    cases j with
    | caller n => exact trivial
    | queue => exact ⟨rfl, rfl, rfl, rfl, Nat.le_add_right ..⟩
  answers {i} _ _ _ given := by
    cases i with
    | caller n => exact given
    | queue => exact given

/-! ### The callers -/

theorem idle (s : World) : CallerAct s s := .same

theorem readOnly_call (q : Query) : (call q).ReadOnly := Program.readOnly_call q

theorem readOnly_validateTerms (terms : Option Terms) : (validateTerms terms).ReadOnly := by
  cases terms with
  | none => exact trivial
  | some terms => exact (readOnly_call _).bind fun _ => readOnly_throwIf

theorem readOnly_validateEnvelope : (validateEnvelope x e).ReadOnly := by
  unfold validateEnvelope now
  refine readOnly_throwIf.bind fun _ => (readOnly_call _).bind fun early => ?_
  refine readOnly_throwIf.bind fun _ => (readOnly_call _).bind fun late => ?_
  refine readOnly_throwIf.bind fun _ => (readOnly_call _).bind fun time => ?_
  refine readOnly_throwIf.bind fun _ => readOnly_throwIf.bind fun _ => ?_
  refine (readOnly_lift _).bind fun config => readOnly_throwIf.bind fun _ => ?_
  exact readOnly_throwIf.bind fun _ =>
    (readOnly_validateTerms _).bind fun _ => readOnly_pure config

theorem acts_submit {signature : String} : (submit x e signature).Acts CallerAct := by
  unfold submit
  refine (readOnly_validateEnvelope.acts idle).bind fun config => ?_
  refine (readOnly_throwIf.acts idle).bind fun _ => ?_
  refine ((readOnly_call _).acts idle).bind fun chainId => ?_
  refine (readOnly_throwIf.acts idle).bind fun _ => ?_
  refine ((readOnly_call _).acts idle).bind fun signed => ?_
  exact (readOnly_throwIf.acts idle).bind fun _ => acts_modify fun _ => CallerAct.joins _

theorem readOnly_checkMarket (market : Option Address) : (checkMarket x market).ReadOnly := by
  cases market with
  | none => exact trivial
  | some market => exact (readOnly_lift _).bind fun _ => readOnly_pure ()

theorem acts_list {filter : Filter} : (list x filter).Acts CallerAct := by
  unfold list
  refine ((readOnly_checkMarket _).acts idle).bind fun _ => ?_
  exact (readOnly_throwIf.acts idle).bind fun _ => acts_modify fun _ => CallerAct.joins _

/-! ### The queue -/

abbrev SafeQueue (x : Service) (strict : Bool) {α : Type} (p : Prog α) (s : World) : Prop :=
  Safe (contract x strict .queue) (fun _ _ => True) (fun _ _ => True) p s

/-- The same, where the result is known to be as told. -/
abbrev QueueGives (x : Service) (strict : Bool) {α : Type} (post : α → World → Prop) (p : Prog α)
    (s : World) : Prop :=
  Safe (contract x strict .queue) post (fun _ _ => True) p s

section Rules

variable {α β : Type} {post : β → World → Prop}

theorem safe_call {q : Query} {k : q.Result → Prog β}
    (h : ∀ t a, Alone s t → answers t q (.ok a) → Timely strict t q →
      QueueGives x strict post (k a) t) : QueueGives x strict post (call q >>= k) s :=
  Tasks.safe_call (fun _ _ _ _ _ _ => trivial) fun t a since _ given => h t a since given.1 given.2

theorem safe_lift {y : Except Err α} {k : α → Prog β}
    (h : ∀ a, y = .ok a → QueueGives x strict post (k a) s) :
    QueueGives x strict post (lift y >>= k) s :=
  Tasks.safe_lift (fun _ _ _ _ => trivial) h

theorem safe_throwIf {c : Prop} {_ : Decidable c} {e : Err} {k : Unit → Prog β}
    (h : ¬c → QueueGives x strict post (k ()) s) :
    QueueGives x strict post (throwIf c e >>= k) s :=
  Tasks.safe_throwIf (fun _ _ _ => trivial) h

theorem safe_modify {f : World → World} {k : Unit → Prog β}
    (h : ∀ t, Alone s t → QueueAct x strict t (f t) ∧ QueueGives x strict post (k ()) (f t)) :
    QueueGives x strict post (modify f >>= k) s :=
  Tasks.safe_modify fun t since _ => h t since

theorem safe_readOnly {p : Prog α} {k : α → Prog β} (reads : p.ReadOnly)
    (h : ∀ t a, Alone s t → QueueGives x strict post (k a) t) :
    QueueGives x strict post (p >>= k) s := by
  refine Safe.bind ?_
  induction p generalizing s with
  | done a => exact fun t since => h t a since
  | fail e => exact fun _ _ => trivial
  | act f next ih =>
    intro t since _
    obtain ⟨same, rest⟩ := reads t
    rw [same]
    exact ⟨.same, ih t rest fun u a later => h u a (since.trans later)⟩
  | ask q next ih =>
    exact fun t since _ a _ => ih a (reads a) fun u b later => h u b (since.trans later)

end Rules

/-- What stays as it is from the start of an action of the queue until it commits. -/
structure During (x : Service) (s t : World) : Prop where
  content : content x t = content x s
  executed : t.executed = s.executed
  generated : ∀ id ∈ s.generated, id ∈ t.generated
  clock : s.clock ≤ t.clock

theorem During.trans (h : During x s t) (h' : During x t u) : During x s u :=
  ⟨h'.content.trans h.content, h'.executed.trans h.executed,
    fun id mem => h'.generated id (h.generated id mem), h.clock.trans h'.clock⟩

theorem Alone.during (h : Alone s t) : During x s t :=
  ⟨by rw [Requests.content, Requests.content, h.disk], h.executed,
    fun _ mem => h.generated.symm ▸ mem, h.clock⟩

section Parts

variable {α β : Type} {post : β → World → Prop}

/-- The envelope is valid at some time of the second check. -/
theorem safe_validateEnvelope {k : Market → Prog β}
    (h : ∀ t config, Alone s t → s.clock < e.validUntil → QueueGives x strict post (k config) t) :
    QueueGives x strict post (validateEnvelope x e >>= k) s := by
  refine Safe.bind ?_
  unfold validateEnvelope now
  refine safe_throwIf fun _ => safe_call fun t₁ early since₁ _ _ => ?_
  refine safe_throwIf fun _ => safe_call fun t₂ late since₂ _ _ => ?_
  refine safe_throwIf fun _ => safe_call fun t₃ time since₃ is _ => ?_
  refine safe_throwIf fun valid => safe_throwIf fun _ => ?_
  refine safe_lift fun config _ => safe_throwIf fun _ => safe_throwIf fun _ => ?_
  refine safe_readOnly (readOnly_validateTerms _) fun t₄ _ since₄ => ?_
  have since := (since₁.trans since₂).trans since₃
  have at_time : time = t₃.clock := is
  have before : s.clock < e.validUntil := by
    subst at_time
    exact since.clock.trans_lt (Nat.lt_of_not_le valid)
  exact fun t later => h t config ((since.trans since₄).trans later) before

/-- What the service works on is what the store has. -/
theorem safe_load {k : Board → Prog β}
    (memory : ∀ board, s.memory = some board → board = content x s)
    (h : ∀ t, During x s t → QueueGives x strict post (k (content x s)) t) :
    QueueGives x strict post (load x >>= k) s := by
  refine Safe.bind ?_
  unfold load
  refine Tasks.safe_look (fun _ => .same) fun t since => ?_
  have same : content x t = content x s := since.during.content
  cases at_memory : t.memory with
  | some board =>
    have is : board = content x s := memory board (since.memory.symm.trans at_memory)
    refine safe_modify fun u later => ⟨?_, fun v last => ?_⟩
    · have shown : QueueAct x strict u
          { u with memory := some board, used := u.used ++ [board] } :=
        .shows (is.trans (same.symm.trans later.during.content.symm))
      have kept : u.memory = some board := later.memory.trans at_memory
      rw [← kept] at shown
      exact shown
    · have during : During x u { u with used := u.used ++ [board] } :=
        ⟨rfl, rfl, fun _ mem => mem, le_rfl⟩
      rw [is]
      exact h v ((since.during.trans later.during).trans (during.trans last.during))
  | none =>
    refine safe_call fun u _ later _ _ => ?_
    refine Tasks.safe_attempt (fun _ => .same) (fun v board w last ran _ => ?_)
      fun _ _ _ _ _ _ => trivial
    have now : content x v = content x s :=
      last.during.content.trans (later.during.content.trans same)
    have is : board = content x v ∧
        w = { v with memory := some board, used := v.used ++ [board] } := by
      unfold checkSaved at ran
      cases at_disk : v.disk with
      | none =>
        simp only [at_disk, ok_bind, Except.ok.injEq, Prod.mk.injEq] at ran
        obtain ⟨rfl, rfl⟩ := ran
        exact ⟨by rw [content, at_disk, Option.getD_none], rfl⟩
      | some saved =>
        simp only [at_disk, bind_eq_ok, Except.ok.injEq, Prod.mk.injEq] at ran
        obtain ⟨_, ⟨_, -, rfl⟩, rfl, rfl⟩ := ran
        exact ⟨by rw [content, at_disk, Option.getD_some], rfl⟩
    obtain ⟨at_board, rfl⟩ := is
    refine ⟨.shows at_board, fun z final => ?_⟩
    have during : During x v { v with memory := some board, used := v.used ++ [board] } :=
      ⟨rfl, rfl, fun _ mem => mem, le_rfl⟩
    rw [at_board.trans now]
    exact h z ((since.during.trans (later.during.trans last.during)).trans
      (during.trans final.during))

/-- What a filter by the clock keeps. -/
structure Filtered (strict : Bool) (w : World) (site : Site) (p : α → Bool) (ends : α → ℕ)
    (items : List α) (kept : List α) : Prop where
  dropped : ∀ item ∈ items, p item = true → item ∈ kept ∨ ends item ≤ w.clock
  strict : ∀ e, site = .nonces e → Repeats strict w e →
    ∀ item ∈ items, p item = true → ends item = e.validUntil → item ∈ kept

theorem Repeats.before (h : Repeats strict t e) (same : t.executed = s.executed) :
    Repeats strict s e :=
  ⟨h.1, h.2.1, same ▸ h.2.2⟩

theorem filterLive_gives {site : Site} {p : α → Bool} {ends : α → ℕ} {items : List α} :
    QueueGives x strict (fun kept t => Alone s t ∧ Filtered strict t site p ends items kept)
      (filterLive site p ends items) s := by
  induction items generalizing s with
  | nil => exact fun t since => ⟨since, nofun, nofun⟩
  | cons item items ih =>
    unfold filterLive
    split
    · rename_i picked
      refine safe_call fun t time since is timely => ?_
      have at_time : time = t.clock := is
      subst at_time
      refine Safe.bind (ih.mono (fun rest u found v later => ?_) fun _ _ _ => trivial)
      obtain ⟨since', dropped, strictly⟩ := found
      have within : ∀ other ∈ rest, other ∈ if t.clock < ends item then item :: rest else rest := by
        intro other mem
        split
        · exact List.mem_cons_of_mem _ mem
        · exact mem
      refine ⟨(since.trans since').trans later, fun other mem at_p => ?_,
        fun e at_e repeats other mem at_p at_end => ?_⟩
      · rcases List.mem_cons.mp mem with rfl | mem
        · by_cases live : t.clock < ends other
          · exact .inl (by rw [if_pos live]; exact List.mem_cons_self)
          · have passed := since'.clock
            have passed' := later.clock
            exact .inr (by omega)
        · exact (dropped other mem at_p).imp (within other) fun ended => ended.trans later.clock
      · rcases List.mem_cons.mp mem with rfl | mem
        · rw [at_e] at timely
          have live := timely (repeats.before (since'.trans later).executed)
          rw [if_pos (by rw [at_end]; exact live)]
          exact List.mem_cons_self
        · exact within other (strictly e at_e (repeats.before later.executed) other mem at_p at_end)
    · rename_i passed_over
      refine ih.mono (fun kept t found => ?_) fun _ _ _ => trivial
      obtain ⟨since, dropped, strictly⟩ := found
      have picked : ∀ other ∈ item :: items, p other = true → other ∈ items := by
        intro other mem at_p
        rcases List.mem_cons.mp mem with rfl | mem
        · exact absurd at_p passed_over
        · exact mem
      exact ⟨since, fun other mem at_p => dropped other (picked other mem at_p) at_p,
        fun e at_e repeats other mem at_p => strictly e at_e repeats other (picked other mem at_p) at_p⟩

theorem safe_filterLive {site : Site} {p : α → Bool} {ends : α → ℕ} {items : List α}
    {k : List α → Prog β}
    (h : ∀ t kept, Alone s t → Filtered strict t site p ends items kept →
      QueueGives x strict post (k kept) t) :
    QueueGives x strict post (filterLive site p ends items >>= k) s :=
  Safe.bind (filterLive_gives.mono (fun kept t found => h t kept found.1 found.2)
    fun _ _ _ => trivial)

/-- A new identifier is not among those made before. -/
theorem safe_randomUUID {k : String → Prog β}
    (h : ∀ t id, During x s t → id ∉ s.generated → id ∈ t.generated →
      QueueGives x strict post (k id) t) :
    QueueGives x strict post (randomUUID >>= k) s := by
  refine Safe.bind ?_
  unfold randomUUID
  refine safe_call fun t id since is _ => ?_
  have fresh : id ∉ t.generated := is
  refine safe_modify fun u later => ⟨.makes id, fun v last => ?_⟩
  have during : During x u { u with generated := id :: u.generated } :=
    ⟨rfl, rfl, fun _ mem => List.mem_cons_of_mem _ mem, le_rfl⟩
  refine h v id (since.during.trans (later.during.trans (during.trans last.during))) ?_ ?_
  · rw [← since.generated]
    exact fresh
  · rw [last.generated]
    exact List.mem_cons_self

end Parts

end Turret.Requests
