import Turret.Variable.Acts

/-! Whole runs of the variable-rate market, told by its acts: the rate follows the
utilization, the debt limit rises only a day after its owner announced it, and an
account's loan grows only by an approval that it sent itself and that is spent. -/

namespace Turret.VariableEngine

open Execution Rounding Function Finset
open VariablePool (Sound Synced Checked FollowsUtilization limits)

variable {g : Prop} {start u v w w' : World} {c : Call} {calls : List Call}

/-! ### Steps of a run -/

theorem elapse_record (done : exec c w = .ok w') (elapses : c.op.isElapse = true) :
    ∃ seconds, c.op = .capital (.elapse seconds) ∧
      w' = World.record c.op
        { w with capital := { w.capital with now := w.capital.now + seconds } } := by
  obtain ⟨-, -, v, ran, rfl⟩ := perform_ok done
  obtain ⟨seconds, elapsed, -, rfl⟩ := elapse_ok elapses ran
  exact ⟨seconds, elapsed, rfl⟩

/-- What acts keep, and time keeps, a run keeps. -/
theorem run_keeps (P : World → Prop)
    (acts : ∀ w w', Sound w.capital → P w → Act g w w' → P w')
    (passes : ∀ w seconds op, op.isGoverning = false → P w → P (World.record op
      { w with capital := { w.capital with now := w.capital.now + seconds } }))
    (admitted : ∀ c ∈ calls, c.withoutDonation start.pool = false → g)
    (idle : Idle start) (init : P start) (run : Run (accepts exec) start calls w) : P w := by
  have each : ∀ u c v, (c.withoutDonation start.pool = false → g) →
      (Idle u ∧ u.pool = start.pool ∧ P u) → accepts exec u c v →
      (Idle v ∧ v.pool = start.pool ∧ P v) := by
    rintro u c v paid ⟨idle, pool_eq, holds⟩ done
    refine ⟨idle.exec done, ?_⟩
    cases elapses : c.op.isElapse with
    | true =>
      obtain ⟨seconds, elapsed, rfl⟩ := elapse_record done elapses
      exact ⟨pool_eq, passes u seconds c.op (elapsed ▸ rfl) holds⟩
    | false =>
      have sound := idle.ready.toSound
      have went := exec_acts sound elapses (pool_eq ▸ paid) done
      refine ⟨(congrArg (·.self) (went.keeps sound).2).trans pool_eq, ?_⟩
      clear done
      induction went with
      | refl => exact holds
      | tail before last ih => exact acts _ _ (Acts.keeps before sound).1 ih last
  exact (run.invariant_of_labels _ _ (fun u c v paid => each u c v paid) admitted
    ⟨idle, rfl, init⟩).2.2

/-! ### The rate -/

theorem Act.synced (h : Act False w w') (sound : Sound w.capital) (synced : Synced w.capital) :
    Synced w'.capital := by
  cases h with
  | pool op capital _ _ paid done => exact VariablePool.exec_synced sound synced paid done
  | aside _ moved => exact moved.capital_eq ▸ synced
  | guard => exact synced
  | govern op governs v done =>
    obtain ⟨-, ⟨q, passed, -, done⟩ | ⟨-, -, same⟩, -, -, -⟩ := run_governs governs done
    · have switch : q.isSwitch = true := by
        cases op <;> cases governs <;> cases passed <;> rfl
      obtain ⟨-, _, _, _, _, _, switched⟩ := VariablePool.exec_switch switch done
      change Synced v.capital
      rw [switched]
      exact synced.of_eq rfl rfl rfl rfl
    · change Synced v.capital
      rw [same]
      exact synced
  | note => exact synced

theorem Act.checked (h : Act g w w') : Checked w.capital w'.capital := by
  cases h with
  | pool op capital still _ _ done => exact VariablePool.exec_checked still done
  | aside _ moved =>
    rw [moved.capital_eq]
    exact .refl _
  | guard => exact .refl _
  | govern op governs v done =>
    obtain ⟨-, ⟨q, passed, -, done⟩ | ⟨-, -, same⟩, -, -, -⟩ := run_governs governs done
    · have still : q.isElapse = false := by
        cases op <;> cases governs <;> cases passed <;> rfl
      exact VariablePool.exec_checked still done
    · change Checked w.capital v.capital
      rw [same]
      exact .refl _
  | note => exact .refl _

theorem Acts.checked (h : Acts g w w') : Checked w.capital w'.capital := by
  induction h with
  | refl => exact .refl _
  | tail _ last ih => exact ih.trans last.checked

/-- A transaction that changes the rate leaves the pool checkpointed at its own moment, with the
interest and the integral of the time before charged at the old rate. -/
theorem exec_rate_checked (idle : Idle w) (done : exec c w = .ok w') :
    w'.capital.pool.borrowAprBps = w.capital.pool.borrowAprBps ∨
      w'.capital.pool.lastAccrual = w.now ∧ w'.now = w.now ∧
        w'.capital.pool.storedRateIntegral = w.capital.pool.storedRateIntegral +
          (w.now - w.capital.pool.lastAccrual) * w.capital.pool.borrowAprBps := by
  cases elapses : c.op.isElapse with
  | true =>
    obtain ⟨seconds, -, rfl⟩ := elapse_record done elapses
    exact .inl rfl
  | false =>
    have checked := (exec_acts (g := True) idle.ready.toSound elapses (fun _ => trivial)
      done).checked
    rcases checked.rate with ⟨rate, -⟩ | last
    · exact .inl rate
    · have integral := checked.integral_eq
      rw [VariablePool.currentRateIntegral, VariablePool.currentRateIntegral, checked.now_eq, last,
        Nat.sub_self, Nat.zero_mul, Nat.add_zero] at integral
      exact .inr ⟨last, checked.now_eq, integral⟩

/-- In every run the stored rate lies within the curve's ends and changes only at a checkpoint; in
a run that sends the pool no USDG outright, it is the curve's rate at the utilization after every
transaction. The curve answers for every utilization and never falls. -/
theorem rate_follows_utilization (deployed : Deployed start)
    (run : Run (accepts exec) start calls w) :
    start.capital.cfg.baseAprBps ≤ w.capital.pool.borrowAprBps ∧
      w.capital.pool.borrowAprBps ≤ start.capital.cfg.maxAprBps ∧
      ((∀ c ∈ calls, c.withoutDonation start.pool = true) → FollowsUtilization w.capital) ∧
      (∀ c w', exec c w = .ok w' →
        w'.capital.pool.borrowAprBps = w.capital.pool.borrowAprBps ∨
          w'.capital.pool.lastAccrual = w.now ∧ w'.now = w.now ∧
            w'.capital.pool.storedRateIntegral = w.capital.pool.storedRateIntegral +
              (w.now - w.capital.pool.lastAccrual) * w.capital.pool.borrowAprBps) ∧
      ∀ m n, m ≤ n → n ≤ 10000 → ∃ r s,
        VariablePool.rateAtUtilization w.capital.cfg m = .ok r ∧
          VariablePool.rateAtUtilization w.capital.cfg n = .ok s ∧
            w.capital.cfg.baseAprBps ≤ r ∧ r ≤ s ∧ s ≤ w.capital.cfg.maxAprBps := by
  have idle := deployed.idle
  have reached : Idle w := Reachable.idle ⟨start, calls, deployed, run⟩
  have cfg_eq : w.capital.cfg = start.capital.cfg := by
    refine run_keeps (g := True) (fun w => w.capital.cfg = start.capital.cfg) ?_ ?_
      (fun _ _ _ => trivial) idle rfl run
    · exact fun _ _ sound kept act => (act.keeps sound).2.trans kept
    · exact fun _ _ _ _ kept => kept
  refine ⟨cfg_eq ▸ reached.ready.base_le, cfg_eq ▸ reached.ready.le_max, fun apart => ?_,
    fun c w' => exec_rate_checked reached,
    fun m n => VariablePool.rateAtUtilization_rises w.capital.cfg⟩
  have synced : Synced w.capital := by
    refine run_keeps (g := False) (fun w => Synced w.capital) ?_ ?_ ?_ idle
      deployed.pool.synced run
    · exact fun _ _ sound kept act => act.synced sound kept
    · exact fun _ _ _ _ kept => kept.of_eq rfl rfl rfl rfl
    · exact fun c member donates => Bool.false_ne_true (donates.symm.trans (apart c member))
  exact synced.followsUtilization reached.ready.toSound

/-! ### The debt limit -/

/-- The debt limit that a history left, `initial` before its first entry. -/
def limitAfter (initial : ℕ) : List Entry → ℕ
  | [] => initial
  | e :: _ => e.debtLimit

/-- A standing announcement in a history: the owner's own, of this limit, for this moment, with no
governing call since. -/
def Announced (owner : Address) (limit validAfter : ℕ) (history : List Entry) : Prop :=
  ∃ since s before, history = since ++ s :: before ∧ s.op = .scheduleDebtLimit owner limit ∧
    s.owner = owner ∧ s.time + VariablePool.DEBT_LIMIT_DELAY = validAfter ∧
    ∀ e ∈ since, e.op.isGoverning = false

/-- The limit rose at `e` because its owner carried out what stood announced, and the market was
never retired. -/
structure Timelocked (e : Entry) (before : List Entry) : Prop where
  byOwner : e.op = .executeDebtLimit e.owner
  announced : ∃ validAfter ≤ e.time, Announced e.owner e.debtLimit validAfter before
  live : ∀ m ∈ before, ∀ sender, m.op ≠ .retireMarket sender

/-- What the market remembers of its history. -/
structure Remembers (initial : ℕ) (w : World) : Prop where
  limit_eq : limitAfter initial w.history = w.capital.pool.debtLimit
  pending : w.capital.pool.debtLimitValidAfter ≠ 0 → w.engine.bound = true ∧
    Announced w.engine.owner w.capital.pool.pendingDebtLimit w.capital.pool.debtLimitValidAfter
      w.history
  retired : ∀ e ∈ w.history, ∀ sender, e.op = .retireMarket sender → w.capital.pool.retired = true
  timelocked : ∀ after e before, w.history = after ++ e :: before →
    limitAfter initial before < e.debtLimit → Timelocked e before

/-- The last entry is the only one to judge anew. -/
theorem timelocked_record {initial : ℕ} {op : Op} (h : Remembers initial w)
    (same : v.history = w.history)
    (last : w.capital.pool.debtLimit < v.capital.pool.debtLimit →
      Timelocked ⟨v.now, op, v.engine.owner, v.capital.pool.debtLimit⟩ w.history)
    (after : List Entry) (e : Entry) (before : List Entry)
    (split : (v.record op).history = after ++ e :: before)
    (rose : limitAfter initial before < e.debtLimit) : Timelocked e before := by
  simp only [World.record, same] at split
  cases after with
  | nil =>
    simp only [List.nil_append, List.cons.injEq] at split
    obtain ⟨rfl, rfl⟩ := split
    rw [h.limit_eq] at rose
    exact last rose
  | cons first after =>
    simp only [List.cons_append, List.cons.injEq] at split
    exact h.timelocked after e before split.2 rose

theorem Announced.note {owner : Address} {limit validAfter : ℕ} {history : List Entry}
    (h : Announced owner limit validAfter history) {e : Entry} (plain : e.op.isGoverning = false) :
    Announced owner limit validAfter (e :: history) := by
  obtain ⟨since, s, before, rfl, scheduled, owned, time, quiet⟩ := h
  refine ⟨e :: since, s, before, rfl, scheduled, owned, time, fun m member => ?_⟩
  rcases List.mem_cons.mp member with rfl | member
  · exact plain
  · exact quiet m member

/-- A call that leaves the owner and the limits alone, with or without its entry. -/
theorem Remembers.note {initial : ℕ} {op : Op} (h : Remembers initial w)
    (plain : op.isGoverning = false) (same : limits v.capital = limits w.capital)
    (history_eq : v.history = w.history) (owner_eq : v.engine.owner = w.engine.owner)
    (bound_eq : v.engine.bound = w.engine.bound) : Remembers initial (v.record op) := by
  simp only [limits, Prod.mk.injEq] at same
  obtain ⟨limit, pending, validAfter, retired⟩ := same
  constructor
  · rfl
  · intro standing
    simp only [World.record, validAfter, pending, owner_eq, bound_eq, history_eq] at standing ⊢
    obtain ⟨bound, announced⟩ := h.pending standing
    exact ⟨bound, announced.note plain⟩
  · intro e member sender retires
    simp only [World.record, history_eq] at member
    change v.capital.pool.retired = true
    rw [retired]
    rcases List.mem_cons.mp member with rfl | member
    · change op = _ at retires
      rw [retires] at plain
      cases plain
    · exact h.retired e member sender retires
  · exact timelocked_record h history_eq fun rose => absurd rose (limit ▸ lt_irrefl _)

theorem Remembers.still {initial : ℕ} (h : Remembers initial w)
    (same : limits v.capital = limits w.capital) (history_eq : v.history = w.history)
    (owner_eq : v.engine.owner = w.engine.owner)
    (bound_le : w.engine.bound = true → v.engine.bound = true) : Remembers initial v := by
  simp only [limits, Prod.mk.injEq] at same
  obtain ⟨limit, pending, validAfter, retired⟩ := same
  constructor
  · rw [history_eq, limit]
    exact h.limit_eq
  · intro standing
    rw [validAfter] at standing
    rw [validAfter, pending, owner_eq, history_eq]
    exact (h.pending standing).imp_left bound_le
  · rw [history_eq, retired]
    exact h.retired
  · rw [history_eq]
    exact h.timelocked

/-- A governing call that leaves nothing announced. -/
theorem Remembers.cleared {initial : ℕ} {op : Op} (h : Remembers initial w)
    (history_eq : v.history = w.history) (none : v.capital.pool.debtLimitValidAfter = 0)
    (retired : w.capital.pool.retired = true ∨ (∃ sender, op = .retireMarket sender) →
      v.capital.pool.retired = true)
    (last : w.capital.pool.debtLimit < v.capital.pool.debtLimit →
      Timelocked ⟨v.now, op, v.engine.owner, v.capital.pool.debtLimit⟩ w.history) :
    Remembers initial (v.record op) := by
  constructor
  · rfl
  · exact fun standing => absurd none standing
  · intro e member sender retires
    simp only [World.record, history_eq] at member
    rcases List.mem_cons.mp member with rfl | member
    · exact retired (.inr ⟨sender, retires⟩)
    · exact retired (.inl (h.retired e member sender retires))
  · exact timelocked_record h history_eq last

theorem Remembers.scheduled {initial limit : ℕ} {sender : Address} (h : Remembers initial w)
    (g : Governs (.scheduleDebtLimit sender limit) w v) :
    Remembers initial (v.record (.scheduleDebtLimit sender limit)) := by
  have byOwner : sender = w.engine.owner := Option.some.inj g.byOwner
  have owner_eq : v.engine.owner = w.engine.owner := g.owner_eq
  have bound_eq : v.engine.bound = w.engine.bound := congrArg (·.2.1) g.kept
  rcases g.capital with ⟨q, passed, bound, done⟩ | ⟨-, moved, -⟩
  swap
  · cases moved
  obtain rfl : _ = q := Option.some.inj passed
  simp only [VariablePool.exec, VariablePool.scheduleDebtLimit, VariablePool.onlyEngine, bind_eq_ok,
    revertIf_eq_ok, exists_const, pure_eq_ok] at done
  obtain ⟨-, -, -, capital_eq⟩ := done
  have now_eq : v.now = w.now := by
    rw [World.now, ← capital_eq]
    rfl
  constructor
  · rfl
  · intro _
    refine ⟨bound_eq.trans bound, [],
      ⟨v.now, .scheduleDebtLimit sender limit, v.engine.owner, v.capital.pool.debtLimit⟩, w.history,
      ?_, ?_, rfl, ?_, fun e none => ?_⟩
    · rw [List.nil_append, ← g.history_eq]
      rfl
    · simp only [World.record, owner_eq, byOwner, ← capital_eq]
    · simp only [World.record, now_eq, ← capital_eq]
      rfl
    · cases none
  · intro e member other retires
    simp only [World.record, g.history_eq, ← capital_eq] at member ⊢
    rcases List.mem_cons.mp member with rfl | member
    · cases retires
    · exact h.retired e member other retires
  · refine timelocked_record h g.history_eq fun rose => absurd rose ?_
    rw [← capital_eq]
    exact lt_irrefl _

theorem Remembers.executed {initial : ℕ} {sender : Address} (h : Remembers initial w)
    (g : Governs (.executeDebtLimit sender) w v) :
    Remembers initial (v.record (.executeDebtLimit sender)) := by
  have byOwner : sender = w.engine.owner := Option.some.inj g.byOwner
  have owner_eq : v.engine.owner = w.engine.owner := g.owner_eq
  rcases g.capital with ⟨q, passed, bound, done⟩ | ⟨-, moved, -⟩
  swap
  · cases moved
  obtain rfl : _ = q := Option.some.inj passed
  simp only [VariablePool.exec, VariablePool.executeDebtLimit, VariablePool.onlyEngine, bind_eq_ok,
    revertIf_eq_ok, exists_const, pure_eq_ok, not_or, not_lt, Bool.not_eq_true] at done
  obtain ⟨-, live, ⟨standing, waited, -⟩, capital_eq⟩ := done
  refine h.cleared g.history_eq (by rw [← capital_eq]; rfl) ?_ fun _ => ?_
  · rintro (retired | ⟨_, retires⟩)
    · rw [live] at retired
      cases retired
    · cases retires
  -- nothing that retires the market is on record, for it is still live
  have never : ∀ m ∈ w.history, ∀ other, m.op ≠ .retireMarket other := by
    intro m member other retires
    rw [h.retired m member other retires] at live
    cases live
  refine ⟨by simp only [owner_eq, byOwner], ⟨w.capital.pool.debtLimitValidAfter, ?_, ?_⟩, never⟩
  · rw [World.now, ← capital_eq]
    exact waited
  · rw [owner_eq, ← capital_eq]
    exact (h.pending standing).2

theorem Remembers.govern {initial : ℕ} {op : Op} (h : Remembers initial w)
    (governs : op.isGoverning = true) (g : Governs op w v) : Remembers initial (v.record op) := by
  cases op with
  | scheduleDebtLimit sender limit => exact h.scheduled g
  | executeDebtLimit sender => exact h.executed g
  | cancelDebtLimit sender =>
    rcases g.capital with ⟨q, passed, -, done⟩ | ⟨-, moved, -⟩
    swap
    · cases moved
    obtain rfl : _ = q := Option.some.inj passed
    simp only [VariablePool.exec, VariablePool.cancelDebtLimit, VariablePool.onlyEngine, bind_eq_ok,
      revertIf_eq_ok, exists_const, pure_eq_ok] at done
    obtain ⟨-, capital_eq⟩ := done
    refine h.cleared g.history_eq (by rw [← capital_eq]; rfl) ?_ fun rose => absurd rose ?_
    · rintro (retired | ⟨_, retires⟩)
      · rw [← capital_eq]
        exact retired
      · cases retires
    · rw [← capital_eq]
      exact lt_irrefl _
  | lowerDebtLimit sender limit =>
    rcases g.capital with ⟨q, passed, -, done⟩ | ⟨-, moved, -⟩
    swap
    · cases moved
    obtain rfl : _ = q := Option.some.inj passed
    simp only [VariablePool.exec, VariablePool.lowerDebtLimit, VariablePool.onlyEngine, bind_eq_ok,
      revertIf_eq_ok, exists_const, pure_eq_ok, not_le] at done
    obtain ⟨-, lower, capital_eq⟩ := done
    refine h.cleared g.history_eq (by rw [← capital_eq]; rfl) ?_ fun rose => absurd rose ?_
    · rintro (retired | ⟨_, retires⟩)
      · rw [← capital_eq]
        exact retired
      · cases retires
    · rw [← capital_eq]
      exact lower.not_gt
  | retireMarket sender =>
    rcases g.capital with ⟨q, passed, -, done⟩ | ⟨-, moved, -⟩
    swap
    · cases moved
    obtain rfl : _ = q := Option.some.inj passed
    simp only [VariablePool.exec, VariablePool.retire, VariablePool.onlyEngine, bind_eq_ok,
      revertIf_eq_ok, exists_const, pure_eq_ok] at done
    obtain ⟨-, capital_eq⟩ := done
    refine h.cleared g.history_eq (by rw [← capital_eq]; rfl) (fun _ => by rw [← capital_eq])
      fun rose => absurd rose ?_
    rw [← capital_eq]
    exact lt_irrefl _
  | transferOwnership sender newOwner =>
    rcases g.capital with ⟨q, passed, -, done⟩ | ⟨unbound, -, same⟩
    · obtain rfl : _ = q := Option.some.inj passed
      simp only [VariablePool.exec, VariablePool.cancelDebtLimit, VariablePool.onlyEngine,
        bind_eq_ok, revertIf_eq_ok, exists_const, pure_eq_ok] at done
      obtain ⟨-, capital_eq⟩ := done
      refine h.cleared g.history_eq (by rw [← capital_eq]; rfl) ?_ fun rose => absurd rose ?_
      · rintro (retired | ⟨_, retires⟩)
        · rw [← capital_eq]
          exact retired
        · cases retires
      · rw [← capital_eq]
        exact lt_irrefl _
    · -- an engine without a pool has announced nothing
      have nothing : w.capital.pool.debtLimitValidAfter = 0 := by
        by_contra standing
        have bound := (h.pending standing).1
        rw [unbound] at bound
        cases bound
      refine h.cleared g.history_eq (same ▸ nothing) ?_ fun rose => absurd rose ?_
      · rintro (retired | ⟨_, retires⟩)
        · exact same ▸ retired
        · cases retires
      · rw [same]
        exact lt_irrefl _
  | _ => cases governs

theorem Act.remembers {initial : ℕ} (act : Act g w w') (h : Remembers initial w) :
    Remembers initial w' := by
  cases act with
  | pool op capital _ open_ _ done =>
    exact h.still (VariablePool.exec_limits open_ done) rfl rfl id
  | aside _ moved =>
    exact h.still (by rw [moved.capital_eq]) moved.history_eq moved.owner_eq moved.bound_le
  | guard => exact h.still rfl rfl rfl id
  | govern op governs v done => exact h.govern governs (run_governs governs done)
  | note op plain => exact h.note plain rfl rfl rfl rfl

/-- A loan leaves the pool's principal within the debt limit. -/
theorem borrowFor_within_limit {b : Address} {amount : ℕ}
    (done : borrowFor b amount w = .ok w') :
    w'.capital.pool.outstandingPrincipal ≤ w'.capital.pool.debtLimit := by
  simp only [borrowFor, requirePool, bind_eq_ok, revertIf_eq_ok, exists_const, onPool_eq_ok,
    pure_eq_ok] at done
  obtain ⟨-, -, -, s, -, -, value, -, -, x, ⟨capital, drawn, rfl⟩, rfl⟩ := done
  obtain ⟨usdg, rfl, -, -, -, -, -, room, -⟩ := VariablePool.draw_ok drawn
  exact room

/-- The pool lends what the positions owe, so it lends no more when none of them owes more. -/
theorem outstanding_le (good : Good w) (good' : Good w')
    (less : ∀ a, (w'.position a).principal ≤ (w.position a).principal) :
    w'.capital.pool.outstandingPrincipal ≤ w.capital.pool.outstandingPrincipal := by
  have before := good.book_sound.reconciled.principal_sum
  have after := good'.book_sound.reconciled.principal_sum
  have sums : ∑ a, (w'.position a).principal ≤ ∑ a, (w.position a).principal :=
    sum_le_sum fun a _ => less a
  exact after.ge.trans (sums.trans before.le)

theorem approvedAction_within_limit {hook : World → Except Error World} (good : Good w)
    (entered : w.engine.entered = true) (freezes : Freezes hook) {sender : Address} {a : Approval}
    (done : approvedAction hook sender a w = .ok w') :
    w'.capital.pool.outstandingPrincipal ≤ w.capital.pool.outstandingPrincipal ∨
      w'.capital.pool.outstandingPrincipal ≤ w'.capital.pool.debtLimit := by
  unfold approvedAction at done
  split_ifs at done
  · simp only [bind_eq_ok] at done
    obtain ⟨v, -, borrowed⟩ := done
    exact .inr (borrowFor_within_limit borrowed)
  · exact .inr (borrowFor_within_limit done)
  · obtain ⟨acted, principal, -⟩ := withdrawCollateralFor_acted good entered freezes done
    refine .inl (outstanding_le good (acted.good good) fun b => ?_)
    by_cases same : b = sender
    · exact same ▸ principal.le
    · exact (acted.others b same).1.le

/-- A transaction that lends leaves the pool's principal within the debt limit. -/
theorem exec_within_limit (idle : Idle w) (done : exec c w = .ok w') :
    w'.capital.pool.outstandingPrincipal ≤ w.capital.pool.outstandingPrincipal ∨
      w'.capital.pool.outstandingPrincipal ≤ w'.capital.pool.debtLimit := by
  by_cases still : c.op.isElapse = true
  · obtain ⟨seconds, -, rfl⟩ := elapse_record done still
    exact .inl le_rfl
  rw [Bool.not_eq_true] at still
  have good' := (idle.exec done).toGood
  obtain ⟨away, -, v, ran, rfl⟩ := perform_ok done
  cases approved : c.op.isApproved with
  | false =>
    obtain ⟨n, moved, -⟩ := run_moved idle.toGood idle.free c.hook.run_freezes c.callback.run_freezes
      still approved away ran
    exact .inl (outstanding_le idle.toGood good' fun b => (moved.turn b).principal_le)
  | true =>
    cases called : c.op with
    | executeApproved sender approval signature =>
      rw [called] at ran
      obtain ⟨-, x, approved, rfl⟩ := nonReentrant_ok ran
      obtain ⟨-, -, y, acted, rfl⟩ := executeApproved_ok approved
      have raised : Frozen (w.setEntered true) (raiseNonce sender
          ((w.setEntered true).engine.approvalNonces sender + 1) (w.setEntered true)) :=
        idle.toGood.setEntered.toCalm.frozen_engine rfl rfl rfl rfl rfl rfl rfl id
      have priced := ((raised.step_exact idle.toGood.setEntered.toLocal rfl).good
        idle.toGood.setEntered).flagged true approval.price
      have within := approvedAction_within_limit priced rfl c.hook.run_freezes acted
      exact within
    | _ =>
      rw [called] at approved
      cases approved

/-- In every run each rise of the debt limit, to whatever height, carries out an announcement that
the owner of the moment made of that very height a day before or earlier, and that no governing
call has come after; a retired market's limit never rises. -/
theorem debt_limit_timelocked (deployed : Deployed start)
    (run : Run (accepts exec) start calls w) :
    limitAfter start.capital.pool.debtLimit w.history = w.capital.pool.debtLimit ∧
      (∀ after e before, w.history = after ++ e :: before →
        limitAfter start.capital.pool.debtLimit before < e.debtLimit → Timelocked e before) ∧
      ∀ c w', exec c w = .ok w' →
        w'.capital.pool.outstandingPrincipal ≤ w.capital.pool.outstandingPrincipal ∨
          w'.capital.pool.outstandingPrincipal ≤ w'.capital.pool.debtLimit := by
  have init : Remembers start.capital.pool.debtLimit start := by
    obtain ⟨limit, -, pool_eq⟩ := deployed.pool.pool_eq
    rw [pool_eq]
    refine ⟨?_, fun standing => absurd ?_ standing, ?_, ?_⟩
    · rw [deployed.history_eq, pool_eq]
      rfl
    · rw [pool_eq]
    · rw [deployed.history_eq]
      exact fun e member => absurd member List.not_mem_nil
    · rw [deployed.history_eq]
      exact fun after e before split => absurd split.symm (by simp)
  have remembers : Remembers start.capital.pool.debtLimit w := by
    refine run_keeps (g := True) (Remembers start.capital.pool.debtLimit) ?_ ?_
      (fun _ _ _ => trivial) deployed.idle init run
    · exact fun _ _ _ kept act => act.remembers kept
    · exact fun _ _ _ plain kept => kept.note plain rfl rfl rfl rfl
  exact ⟨remembers.limit_eq, remembers.timelocked,
    fun c w' => exec_within_limit (Reachable.idle ⟨start, calls, deployed, run⟩)⟩

/-! ### Approvals and prices -/

/-- The nonces of the approvals are never given back, and the prices and epochs only move on. -/
structure Onward (w w' : World) : Prop where
  nonces_le : w.engine.approvalNonces ≤ w'.engine.approvalNonces
  prices : PriceKept w.engine w'.engine

theorem Onward.refl (w : World) : Onward w w := ⟨le_rfl, .refl _⟩

theorem Onward.trans (h : Onward u v) (k : Onward v w) : Onward u w :=
  ⟨h.nonces_le.trans k.nonces_le, h.prices.trans k.prices⟩

/-- What the authorities read is as it was. -/
theorem Onward.of_eq (kept : (w'.engine.approvalNonces, w'.engine.signerEpoch,
      w'.engine.liquidationPrice) =
    (w.engine.approvalNonces, w.engine.signerEpoch, w.engine.liquidationPrice)) : Onward w w' := by
  simp only [Prod.mk.injEq] at kept
  obtain ⟨nonces, epoch, price⟩ := kept
  exact ⟨nonces.ge, epoch.ge, fun _ => price ▸ le_rfl, fun _ _ _ => price ▸ ⟨rfl, rfl⟩⟩

theorem Act.onward (h : Act g w w') : Onward w w' := by
  cases h with
  | pool | guard | note => exact .of_eq rfl
  | aside _ moved => exact ⟨moved.nonces_le, moved.prices⟩
  | govern op governs v done =>
    have kept := (run_governs governs done).kept
    simp only [Prod.mk.injEq] at kept
    obtain ⟨-, -, nonces, epoch, price⟩ := kept
    exact .of_eq (by simp only [World.record, nonces, epoch, price])

theorem Acts.onward (h : Acts g w w') : Onward w w' := by
  induction h with
  | refl => exact .refl _
  | tail _ last ih => exact ih.trans last.onward

theorem exec_onward (idle : Idle w) (done : exec c w = .ok w') : Onward w w' := by
  cases elapses : c.op.isElapse with
  | true =>
    obtain ⟨seconds, -, rfl⟩ := elapse_record done elapses
    exact .of_eq rfl
  | false =>
    exact (exec_acts (g := True) idle.ready.toSound elapses (fun _ => trivial) done).onward

theorem run_onward (idle : Idle w) (run : Run (accepts exec) w calls w') : Onward w w' := by
  induction run with
  | nil => exact .refl _
  | cons first _ ih => exact (exec_onward idle first).trans (ih (idle.exec first))

/-- A transaction lends more to `a`, or takes collateral from its open loan other than by liquidating
it. -/
def Exposes (a : Address) (op : Op) (w w' : World) : Prop :=
  (w.position a).principal < (w'.position a).principal ∨
    (w'.position a).collateral < (w.position a).collateral ∧ (w'.position a).principal ≠ 0 ∧
      op.liquidated ≠ some a

/-- The approval is for this account, names the nonce that is next, stands at this moment in this
epoch, and is signed by the signer of the moment. -/
structure Consents (a : Address) (approval : Approval) (signature : Signature) (w : World) :
    Prop where
  borrower_eq : approval.borrower = a
  nonce_eq : approval.nonce = w.engine.approvalNonces a
  window : validWindow approval.observedAt approval.deadline approval.epoch w
  signed : w.isValidSignatureNow w.engine.riskSigner (w.cfg.digest (.approval approval)) signature =
    true

theorem executeApproved_consents {hook callback : World → Except Error World} {sender : Address}
    {approval : Approval} {signature : Signature}
    (done : run hook callback (.executeApproved sender approval signature) w = .ok w') :
    Consents sender approval signature w := by
  obtain ⟨-, v, ran, -⟩ := nonReentrant_ok done
  obtain ⟨⟨borrower, nonce, -, window⟩, signed, -⟩ := executeApproved_ok ran
  exact ⟨borrower, nonce, window, signed⟩

/-- The nonce of an approval that went through is spent. -/
theorem executeApproved_spent (idle : Idle w) {sender : Address} {approval : Approval}
    {signature : Signature} (called : c.op = .executeApproved sender approval signature)
    (done : exec c w = .ok w') : approval.nonce < w'.engine.approvalNonces sender := by
  obtain ⟨-, -, v, ran, rfl⟩ := perform_ok done
  rw [called] at ran
  have nonce := (executeApproved_consents ran).nonce_eq
  obtain ⟨-, x, acted, rfl⟩ := nonReentrant_ok ran
  have under : Under w.pool (w.setEntered true) := ⟨idle.ready.toSound, rfl, rfl⟩
  have goes : Goes True w.pool c.hook.run := c.hook.run_goes fun _ => trivial
  have spent := (executeApproved_spends under goes acted).acts.onward.nonces_le sender
  simp only [raiseNonce, update_self] at spent
  change approval.nonce < x.engine.approvalNonces sender
  rw [nonce]
  exact spent

/-- Only a call that the account sends itself, with a fresh approval, exposes it. -/
theorem exposed_by_approval (idle : Idle w) {a : Address} (done : exec c w = .ok w')
    (exposed : Exposes a c.op w w') : ∃ approval signature,
      c.op = .executeApproved a approval signature ∧ Consents a approval signature w ∧
        positionDebt a w' ≤ approval.maxDebt ∧ Judged a approval.price w' := by
  obtain ⟨away, -, v, ran, rfl⟩ := perform_ok done
  by_cases still : c.op.isElapse = true
  · obtain ⟨seconds, -, -, rfl⟩ := elapse_ok still ran
    rcases exposed with more | ⟨less, -⟩
    · exact absurd more (lt_irrefl _)
    · exact absurd less (lt_irrefl _)
  rw [Bool.not_eq_true] at still
  cases approved : c.op.isApproved with
  | false =>
    obtain ⟨n, moved, -⟩ := run_moved idle.toGood idle.free c.hook.run_freezes c.callback.run_freezes
      still approved away ran
    have turn := moved.turn a
    rcases exposed with more | ⟨less, owes, apart⟩
    · exact absurd more turn.principal_le.not_gt
    · rcases turn.collateral_le with kept | none | taken
      · exact absurd less kept.not_gt
      · exact absurd none owes
      · exact absurd taken apart
  | true =>
    cases called : c.op with
    | executeApproved sender approval signature =>
      rw [called] at ran
      have consents := executeApproved_consents ran
      obtain ⟨acted, judged, within⟩ := run_approved idle.toGood idle.free c.hook.run_freezes ran
      by_cases same : a = sender
      · subst same
        exact ⟨approval, signature, rfl, consents, within, judged.current, judged.safe⟩
      · obtain ⟨principal, collateral⟩ := acted.others a same
        rcases exposed with more | ⟨less, -⟩
        · exact absurd more principal.le.not_gt
        · exact absurd less collateral.ge.not_gt
    | _ =>
      rw [called] at approved
      cases approved

/-- In every run an account is exposed only by its own call with an approval of the moment, at a
safe price and within the debt approved, and no approval with that nonce is accepted from it again,
whatever is called in between. -/
theorem exposure_consented (reachable : Reachable w) {a : Address} (done : exec c w = .ok w')
    (exposed : Exposes a c.op w w') : ∃ approval signature,
      c.op = .executeApproved a approval signature ∧ Consents a approval signature w ∧
        positionDebt a w' ≤ approval.maxDebt ∧ Judged a approval.price w' ∧
          ∀ calls u d x later signature', Run (accepts exec) w' calls u → exec d u = .ok x →
            d.op = .executeApproved a later signature' → approval.nonce < later.nonce := by
  have idle := reachable.idle
  obtain ⟨approval, signature, called, consents, within, judged⟩ :=
    exposed_by_approval idle done exposed
  refine ⟨approval, signature, called, consents, within, judged, ?_⟩
  intro calls u d x later signature' run again recalled
  have spent := executeApproved_spent idle called done
  have kept := (run_onward (idle.exec done) run).nonces_le a
  obtain ⟨-, -, v, ran, -⟩ := perform_ok again
  rw [recalled] at ran
  exact (spent.trans_le kept).trans_eq (executeApproved_consents ran).nonce_eq.symm

/-! ### Epochs -/

/-- The epoch that the signed data of a call names. -/
def Op.epoch : Op → Option ℕ
  | .executeApproved _ approval _ => some approval.epoch
  | .submitPrice _ p _ | .priceWithApproval _ p _ | .liquidationQuoteWithApproval _ _ _ p _
  | .liquidateApproved _ _ _ _ p _ | .liquidateWithCallbackApproved _ _ _ _ p _ => some p.epoch
  | _ => none

theorem sample_rate : FollowsUtilization sample.capital :=
  (rate_follows_utilization sampleStart_deployed sample_run).2.2.1 (by decide +kernel)

def raiseCalls : List Call :=
  List.map plain
    [ .bindPool 1, .scheduleDebtLimit 1 (2 * 10 ^ 12), .capital (.elapse 86400),
      .executeDebtLimit 1 ]

def raised : World := reached sampleStart (execAll exec raiseCalls sampleStart)

theorem raised_run : Run (accepts exec) sampleStart raiseCalls raised :=
  run_of_execAll (eq_ok_reached _ (by decide +kernel))

theorem raised_timelocked :
    Timelocked ⟨87400, .executeDebtLimit 1, 1, 2 * 10 ^ 12⟩ raised.history.tail :=
  (debt_limit_timelocked sampleStart_deployed raised_run).2.1 [] _ _ rfl (by decide +kernel)

/-- The sample's calls up to the approved one, and what that leaves. -/
def beforeLoan : World := reached sampleStart (execAll exec (sampleCalls.take 7) sampleStart)

def loanCall : Call := plain (.executeApproved 3 sampleApproval [])

def afterLoan : World := reached beforeLoan (exec loanCall beforeLoan)

theorem beforeLoan_reachable : Reachable beforeLoan :=
  ⟨sampleStart, sampleCalls.take 7, sampleStart_deployed,
    run_of_execAll (eq_ok_reached _ (by decide +kernel))⟩

theorem sample_consented : ∃ approval signature,
    loanCall.op = .executeApproved 3 approval signature ∧
      Consents 3 approval signature beforeLoan := by
  obtain ⟨approval, signature, called, consents, -⟩ :=
    exposure_consented (a := 3) beforeLoan_reachable
      (eq_ok_reached (x := exec loanCall beforeLoan) beforeLoan (by decide +kernel))
      (.inl (by decide +kernel))
  exact ⟨approval, signature, called, consents⟩

end Turret.VariableEngine
