import Turret.Negotiations.Submissions

/-! The conversations about one source offer. A live one is the selection of
its source, as long as none is started that has lost the selection; and a step
changes one conversation by one move. -/

namespace Turret.Negotiations

open Execution Tasks Function

variable {Digest : Type} {s t : World Digest}

/-- Replacing, recovering, funding or funded; or agreed, and to be answered after both clocks. -/
def Live (w : World Digest) (row : Thread) : Prop :=
  row.state.started = true ∨ row.state = .agreed ∧ max w.now w.chainTime < row.latest.responseBy

instance (w : World Digest) (row : Thread) : Decidable (Live w row) :=
  inferInstanceAs (Decidable (_ ∨ _))

/-- No two live conversations are about one offer. -/
def Exclusive (w : World Digest) : Prop :=
  w.threads.Pairwise fun a b => a.sourceKey = b.sourceKey → ¬(Live w a ∧ Live w b)

instance (w : World Digest) : Decidable (Exclusive w) :=
  inferInstanceAs (Decidable (List.Pairwise _ _))

/-- An agreement that this step starts to replace is the selection of its source. -/
def StartsSelected (s t : World Digest) : Prop :=
  ∀ row ∈ s.threads, ∀ new ∈ t.threads, new.id = row.id → row.state = .agreed →
    new.state = .replacing → s.selections row.sourceKey = some row.id

instance (s t : World Digest) : Decidable (StartsSelected s t) :=
  inferInstanceAs (Decidable (∀ row ∈ s.threads, ∀ new ∈ t.threads, _))

/-- How the state of a conversation moves. -/
inductive State.Moves : State → State → Prop
  | agree : Moves .open_ .agreed
  | start : Moves .agreed .replacing
  | cancelled : Moves .replacing .recovering
  | prepare : Moves .recovering .funding
  | bind : Moves .funding .funded
  | closeOpen : Moves .open_ .closed
  | closeAgreed : Moves .agreed .closed

/-- What one step does to the conversations and to the answers kept. -/
inductive Lawful (s t : World Digest) : Prop
  | unchanged : t = { s with now := t.now, chainTime := t.chainTime } → Lawful s t
  | login (answer : NonceRow Digest) :
      t.threads = s.threads → t.nonces = s.nonces ++ [answer] → Lawful s t
  | opened (row : Thread) (answer : NonceRow Digest) :
      (∀ other ∈ s.threads, other.id ≠ row.id) → row.revision = 1 → row.state = .open_ →
      t.threads = s.threads ++ [row] → t.nonces = s.nonces ++ [answer] →
      answer.result = .thread t.now row → Lawful s t
  | moved (row new : Thread) (answer : NonceRow Digest) :
      row ∈ s.threads → new.id = row.id → new.sourceKey = row.sourceKey →
      new.revision = row.revision + 1 → new.state = row.state ∨ row.state.Moves new.state →
      t.threads = s.threads.map (fun other => if other.id = row.id then new else other) →
      t.nonces = s.nonces ++ [answer] → answer.result = .thread t.now new → Lawful s t

/-! ### One transaction -/

variable {svc : Service Digest} {signed : Signed} {src linked : Option Source} {result : Result}
  {row new : Thread} {action : Action} {selections : SourceKey → Option ℕ}

theorem Transition.moves (h : Transition s src linked row action new selections) :
    new.state = row.state ∨ row.state.Moves new.state := by
  cases h with
  | close ref ongoing =>
    cases state : row.state with
    | open_ => exact .inr .closeOpen
    | agreed => exact .inr .closeAgreed
    | closed => exact .inl rfl
    | _ => simp [state, State.started] at ongoing
  | counter => exact .inl rfl
  | agree ref x account at_src state => exact .inr (state ▸ .agree)
  | start ref x at_src state => exact .inr (state ▸ .start)
  | cancelled ref hash state => exact .inr (state ▸ .cancelled)
  | prepare ref x attempt at_src state => exact .inr (state ▸ .prepare)
  | bind ref hash l at_linked state => exact .inr (state ▸ .bind)

theorem Committed.lawful (h : Committed svc signed src linked s result t) (numbered : Numbered s) :
    Lawful s t := by
  cases h with
  | replayed => exact .unchanged rfl
  | login => exact .login _ rfl rfl
  | opened row _ id revision state =>
    have fresh : ∀ other ∈ s.threads, other.id ≠ row.id := fun other mem same =>
      absurd (numbered.drawn other mem) (by rw [same, id]; exact lt_irrefl _)
    exact .opened row _ fresh revision state (Table.upsert_new fresh) rfl rfl
  | moved ref row new selections _ _ found _ _ transition =>
    have mem := ((get_eq_some_iff numbered).mp found).1
    have same : (advanced row new s.now).id = row.id := transition.kept_id.1
    refine .moved row (advanced row new s.now) _ mem same transition.kept_id.2 rfl transition.moves
      ?_ rfl rfl
    rw [← same]
    exact Table.upsert_old mem same

/-! ### The selections -/

/-- A live conversation is the selection of its source. -/
def Selected (w : World Digest) : Prop :=
  ∀ row ∈ w.threads, Live w row → w.selections row.sourceKey = some row.id

theorem Selected.exclusive (h : Selected s) (numbered : Numbered s) : Exclusive s := by
  refine (List.pairwise_map.mp numbered.nodup).imp_of_mem fun {a b} at_a at_b other same live => ?_
  have one : some a.id = some b.id := by
    rw [← h a at_a live.1, ← h b at_b live.2, same]
  exact other (Option.some.inj one)

/-- Nothing becomes live by the clocks moving on. -/
theorem Live.of_later (now : s.now ≤ t.now) (chainTime : s.chainTime ≤ t.chainTime)
    (h : Live t row) : Live s row :=
  h.imp_right fun ⟨state, before⟩ => ⟨state, (max_le_max now chainTime).trans_lt before⟩

/-- A live row that a move wrote was live, unless the move is the agreement. -/
theorem Transition.selects (h : Transition s src linked row action new selections)
    (selected : Live s row → s.selections row.sourceKey = some row.id)
    (starts : row.state = .agreed → new.state = .replacing →
      s.selections row.sourceKey = some row.id)
    (live : new.state.started = true ∨ new.state = .agreed) :
    selections row.sourceKey = some row.id := by
  cases h with
  | close => simp [State.started] at live
  | counter ref terms responseBy latest state => simp [state, State.started] at live
  | agree => exact update_self ..
  | start ref x at_src state => exact starts state rfl
  | cancelled ref hash state => exact selected (.inl (by simp [state, State.started]))
  | prepare ref x attempt at_src state => exact selected (.inl (by simp [state, State.started]))
  | bind ref hash l at_linked state => exact selected (.inl (by simp [state, State.started]))

/-- The other live conversations keep their selections: an agreement takes over only one that has
expired at a time that a clock has reached. -/
theorem Transition.keeps_others (h : Transition s src linked row action new selections)
    (reached : ∀ x ∈ src, x.now ≤ s.chainTime) (numbered : Numbered s) (selected : Selected s)
    {other : Thread} (mem : other ∈ s.threads) (ne : other.id ≠ row.id) (live : Live s other) :
    selections other.sourceKey = some other.id := by
  have own := selected other mem live
  cases h with
  | close =>
    have kept : s.selections other.sourceKey ≠ some row.id := by
      rw [own]
      exact fun same => ne (Option.some.inj same)
    exact (if_neg kept).trans own
  | agree ref x account at_src state free =>
    by_cases key : other.sourceKey = row.sourceKey
    · have held : other.id ∈ Negotiations.selected row x s := by
        rw [key] at own
        simp only [Negotiations.selected, own, if_neg ne,
          (get_eq_some_iff numbered).mpr ⟨mem, rfl⟩]
        split
        · rename_i expired
          rcases live with started | ⟨-, before⟩
          · simp [expired.1, State.started] at started
          · have late : other.latest.responseBy ≤ max s.now s.chainTime :=
              expired.2.trans (max_le_max le_rfl (reached x at_src))
            exact absurd before (not_lt.mpr late)
        · exact rfl
      exact absurd (free other.id held) ne
    · rw [update_of_ne key]
      exact own
  | counter => exact own
  | start => exact own
  | cancelled => exact own
  | prepare => exact own
  | bind => exact own

theorem Committed.selected (h : Committed svc signed src linked s result t)
    (reached : ∀ x ∈ src, x.now ≤ s.chainTime) (numbered : Numbered s) (selected : Selected s)
    (starts : StartsSelected s t) : Selected t := by
  cases h with
  | replayed => exact selected
  | login => exact selected
  | opened row _ id revision state =>
    intro other mem live
    rcases Table.mem_of_mem_upsert mem with rfl | ⟨old, -⟩
    · simp [Live, state, State.started] at live
    · exact selected other old live
  | moved ref row new selections _ _ found _ _ transition =>
    have mem := ((get_eq_some_iff numbered).mp found).1
    obtain ⟨same, key⟩ := transition.kept_id
    intro other at_other live
    rcases Table.mem_of_mem_upsert at_other with rfl | ⟨old, ne⟩
    · change selections new.sourceKey = some new.id
      rw [same, key]
      refine transition.selects (selected row mem) (fun state replacing => ?_) (live.imp_right And.left)
      exact starts row mem _ (Table.mem_upsert_self _ _) same state replacing
    · exact transition.keeps_others reached numbered selected old (fun at_row => ne (at_row.trans same.symm))
        live

/-! ### Runs -/

/-- The conversations are numbered, and the live ones selected. -/
def Ordered (w : World Digest) : Prop := Numbered w ∧ Selected w

variable {chain : Chain}

theorem Act.lawful (h : Act svc chain s t) (numbered : Numbered s) : Lawful s t := by
  cases h with
  | idle => exact .unchanged rfl
  | commit signed src linked result _ committed => exact committed.lawful numbered

theorem Act.ordered (h : Act svc chain s t) (ordered : Ordered s) (starts : StartsSelected s t) :
    Ordered t := by
  refine ⟨h.since.numbered ordered.1, ?_⟩
  cases h with
  | idle => exact ordered.2
  | commit signed src linked result _ committed gathered =>
    exact committed.selected gathered.reached ordered.1 ordered.2 starts

theorem environment_ordered {tick : Tick} (h : environment tick s = some t) (ordered : Ordered s) :
    Ordered t ∧ Lawful s t := by
  have since := environment_since h
  have rows : t.threads = s.threads ∧ t.selections = s.selections ∧
      t = { s with now := t.now, chainTime := t.chainTime } := by
    cases tick <;> cases h <;> exact ⟨rfl, rfl, rfl⟩
  refine ⟨⟨since.numbered ordered.1, fun row mem live => ?_⟩, .unchanged rows.2.2⟩
  rw [rows.2.1]
  exact ordered.2 row (rows.1 ▸ mem) (live.of_later since.now since.chainTime)

variable [DecidableEq Digest]

/-- Steps in which no agreement is started that is not the selection of its source. -/
def selectedStep (svc : Service Digest) (chain : Chain) :=
  admittedStep (machine svc chain) fun _ : ℕ => contract svc chain StartsSelected

/-- What any effect does. -/
theorem effect_ordered
    (h : Effect (machine svc chain) (fun _ : ℕ => contract svc chain StartsSelected) s t)
    (ordered : Ordered s) : Ordered t ∧ Lawful s t ∧ Since s t := by
  rcases h with rfl | ⟨_, starts, act⟩ | ⟨tick, ticked⟩
  · exact ⟨ordered, .unchanged rfl, .refl t⟩
  · exact ⟨Act.ordered act ordered starts, Act.lawful act ordered.1, Act.since act⟩
  · obtain ⟨after, lawful⟩ := environment_ordered ticked ordered
    exact ⟨after, lawful, environment_since ticked⟩

end Turret.Negotiations
