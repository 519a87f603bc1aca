import Turret.RiskMonitor.Qualification

/-! Continuous qualification of an extended session: whatever is called, and
when, a ready answer ends a chain of moments that is admissible, and a call
that does not follow the one before it finds the tracker as if it were new. -/

namespace Turret.RiskMonitor.ExtendedSessionAdmission

open Execution Moment

variable {Key : Type} [DecidableEq Key] {config : ExtendedConfig} {record record' : Tracker Key}
  {log : List (Entry Key)} {entry : Entry Key} {r r' : ExtendedRecord Key} {m : Moment} {key : Key}
  {now : ℤ}

/-- The record, if there is one, is of the end of the log. -/
def Logged (log : List (Entry Key)) (record : Tracker Key) : Prop :=
  ∀ r, record = some r → ∃ before chain ms, log = before ++ chain ∧
    chain.map (Entry.moment r.key) = ms.map some ∧ Tracks r ms

theorem logged_none (log : List (Entry Key)) : Logged log none :=
  fun _ none => by cases none

theorem logged_start (log : List (Entry Key)) (moment : Entry.moment r.key entry = some m)
    (tracks : Tracks r [m]) : Logged (log ++ [entry]) (some r) := by
  intro r' same
  obtain rfl := Option.some.inj same
  exact ⟨log, [entry], [m], rfl, congrArg (fun x => [x]) moment, tracks⟩

theorem Logged.next (h : Logged log (some r)) (key : r'.key = r.key)
    (moment : Entry.moment r.key entry = some m)
    (step : ∀ ms, Tracks r ms → Tracks r' (ms ++ [m])) : Logged (log ++ [entry]) (some r') := by
  intro r'' same
  obtain rfl := Option.some.inj same
  obtain ⟨before, chain, ms, rfl, moments, tracks⟩ := h r rfl
  refine ⟨before, chain ++ [entry], ms ++ [m], List.append_assoc .., ?_, step ms tracks⟩
  rw [key, List.map_append, List.map_append, moments, List.map_singleton, List.map_singleton, moment]

/-! ### One call -/

theorem observe_some (config : ExtendedConfig) (key : Key) (now : ℤ) (record : Tracker Key) :
    (observe config (some key) true (some now) record).1 =
        some (if readyAt config now (sampled key now record) then
          validated now (sampled key now record) else sampled key now record) ∧
      (observe config (some key) true (some now) record).2.ready =
        readyAt config now (sampled key now record) :=
  ⟨rfl, rfl⟩

omit [DecidableEq Key] in
theorem readyAt_fresh (config : ExtendedConfig) (key : Key) (now : ℤ) :
    readyAt config now ⟨key, now, 1, now, false, none, none⟩ = false := by
  simp [readyAt]

theorem logged_observe (h : Logged log record) (key : Key) (now : ℤ) :
    Logged (log ++ [(.observe (some key) true (some now),
      some (observe config (some key) true (some now) record).2)])
      (observe config (some key) true (some now) record).1 := by
  obtain ⟨stored, answered⟩ := observe_some config key now record
  have moment : Entry.moment key ((.observe (some key) true (some now),
      some (observe config (some key) true (some now) record).2) : Entry Key) =
      some ⟨now, none, readyAt config now (sampled key now record)⟩ := by
    simp only [Entry.moment, Entry.ready, and_self, if_true, Option.map_some, Option.any_some,
      answered]
  have start (fresh : sampled key now record = ⟨key, now, 1, now, false, none, none⟩) :
      Logged (log ++ [(.observe (some key) true (some now),
        some (observe config (some key) true (some now) record).2)])
        (observe config (some key) true (some now) record).1 := by
    rw [fresh, readyAt_fresh] at moment
    rw [stored, fresh, readyAt_fresh, if_neg Bool.false_ne_true]
    exact logged_start log moment (tracks_fresh key now)
  cases record with
  | none => exact start rfl
  | some old =>
    by_cases follows : continues old key now = true
    · have same : sampled key now (some old) = counted now old := if_pos follows
      obtain ⟨keyed, next, near⟩ := continues_iff.mp follows
      rw [same] at moment
      rw [stored, same]
      refine h.next ?_ (keyed ▸ moment) fun ms tracks => tracks.observed next near config
      split_ifs <;> rfl
    · exact start (if_neg follows)

theorem retains_iff : retains config r key now = true ↔
    (config.version ∈ [2, 3] ∧ r.qualified = true) ∧ continues r key now = true ∧
      ∀ v, r.lastValidated = some v → now < v + 900 := by
  have recent : (!r.lastValidated.any fun v => decide (config.healthySeconds ≤ now - v)) = true ↔
      ∀ v, r.lastValidated = some v → now < v + 900 := by
    rw [config.healthy_eq]
    cases validated : r.lastValidated with
    | none => simp
    | some v =>
      simp only [Option.any_some, Bool.not_eq_true', decide_eq_false_iff_not, Option.some.injEq,
        forall_eq']
      omega
  simp only [retains, Bool.and_eq_true, decide_eq_true_iff, recent, and_assoc]

/-- What a suspension leaves that retains the qualification. -/
structure Suspends (config : ExtendedConfig) (r : ExtendedRecord Key) (key : Key) (now : ℤ)
    (stale : Bool) (staleSince : Option ℤ) : Prop where
  retains : retains config r key now = true
  counts : stale = true → staleSince = some (r.staleSince.getD now) ∧
    now < r.staleSince.getD now + 120
  clears : stale = false → staleSince = none

theorem suspend_cases (config : ExtendedConfig) (sessionKey : Option Key) (now : Option ℤ)
    (stale : Option Bool) (record : Tracker Key) :
    (suspend config sessionKey now stale record).2.ready = false ∧
      ((suspend config sessionKey now stale record).1 = none ∨
        ∃ r key t s staleSince, record = some r ∧ sessionKey = some key ∧ now = some t ∧
          stale = some s ∧ Suspends config r key t s staleSince ∧
          (suspend config sessionKey now stale record).1 =
            some { r with staleSince, last := t }) := by
  obtain _ | r := record
  · exact ⟨rfl, .inl rfl⟩
  obtain _ | key := sessionKey
  · exact ⟨rfl, .inl rfl⟩
  obtain _ | t := now
  · exact ⟨rfl, .inl rfl⟩
  obtain _ | s := stale
  · exact ⟨rfl, .inl rfl⟩
  by_cases retained : retains config r key t = true
  · have grace : config.staleQuoteGraceSeconds = some 120 := by
      rcases config.version_valid with ⟨one, -⟩ | ⟨-, grace⟩
      · have later := (retains_iff.mp retained).1.1
        rw [one] at later
        exact absurd later (by decide)
      · exact grace
    cases s with
    | true =>
      by_cases late : 120 ≤ t - r.staleSince.getD t
      · have result : suspend config (some key) (some t) (some true) (some r) =
            (none, unavailable) := by
          simp only [suspend, if_pos retained, if_true, grace, Option.any_some, late, decide_true]
        rw [result]
        exact ⟨rfl, .inl rfl⟩
      · have result : suspend config (some key) (some t) (some true) (some r) =
            (some { r with staleSince := some (r.staleSince.getD t), last := t },
              ⟨false, .quoteUnavailable, some true, some r.since, some t, none, none, none⟩) := by
          simp only [suspend, if_pos retained, if_true, grace, Option.any_some, late, decide_false,
            Bool.false_eq_true, if_false]
        rw [result]
        exact ⟨rfl, .inr ⟨r, key, t, true, _, rfl, rfl, rfl, rfl,
          ⟨retained, fun _ => ⟨rfl, by omega⟩, fun fresh => (by cases fresh)⟩, rfl⟩⟩
    | false =>
      have result : suspend config (some key) (some t) (some false) (some r) =
          (some { r with staleSince := none, last := t },
            ⟨false, .priceRecovering, some true, some r.since, some t, none, none, none⟩) := by
        simp only [suspend, if_pos retained, Bool.false_eq_true, if_false]
      rw [result]
      exact ⟨rfl, .inr ⟨r, key, t, false, _, rfl, rfl, rfl, rfl,
        ⟨retained, fun stale => (by cases stale), fun _ => rfl⟩, rfl⟩⟩
  · have result : suspend config (some key) (some t) (some s) (some r) = (none, unavailable) := by
      simp only [suspend, if_neg retained]
    rw [result]
    exact ⟨rfl, .inl rfl⟩

theorem logged_suspend (h : Logged log record) (sessionKey : Option Key) (now : Option ℤ)
    (stale : Option Bool) :
    Logged (log ++ [(.suspend sessionKey now stale,
      some (suspend config sessionKey now stale record).2)])
      (suspend config sessionKey now stale record).1 := by
  obtain ⟨unready, none | ⟨r, key, t, s, staleSince, rfl, rfl, rfl, rfl, suspends, stored⟩⟩ :=
    suspend_cases config sessionKey now stale record
  · rw [none]
    exact logged_none _
  · obtain ⟨⟨-, done⟩, follows, recent⟩ := retains_iff.mp suspends.retains
    obtain ⟨rfl, next, near⟩ := continues_iff.mp follows
    have moment : Entry.moment r.key ((.suspend (some r.key) (some t) (some s),
        some (suspend config (some r.key) (some t) (some s) (some r)).2) : Entry Key) =
        some ⟨t, some s, false⟩ := by
      simp only [Entry.moment, Entry.ready, if_true, Option.bind_some, Option.map_some,
        Option.any_some, unready]
    rw [stored]
    refine h.next rfl moment fun ms tracks =>
      tracks.suspended next near done recent (fun s' same => ?_) (fun stale => ?_)
        fun stale s' old => ?_
    · cases s with
      | true =>
        obtain rfl := Option.some.inj (same.symm.trans (suspends.counts rfl).1)
        cases old : r.staleSince with
        | none => exact le_rfl
        | some s' => exact (tracks.stale_le s' old).trans next
      | false =>
        rw [suspends.clears rfl] at same
        cases same
    · exact ⟨_, suspends.counts stale⟩
    · rw [(suspends.counts stale).1, old]
      rfl

theorem logged_exec (h : Logged log record) (call : Call Key) :
    Logged (log ++ [(call, (call.exec config record).2)]) (call.exec config record).1 := by
  cases call with
  | observe sessionKey ok now =>
    obtain _ | key := sessionKey
    · exact logged_none _
    cases ok with
    | false => exact logged_none _
    | true =>
      obtain _ | now := now
      · exact logged_none _
      · exact logged_observe h key now
  | suspend sessionKey now stale => exact logged_suspend h sessionKey now stale
  | reset => exact logged_none _

theorem run_logged (run : Run (answers config) none log record) : Logged log record :=
  run.history Logged
    (fun log s entry t logged step => by
      have next : Logged (log ++ [(entry.1, (entry.1.exec config s).2)]) (entry.1.exec config s).1 :=
        logged_exec logged entry.1
      rw [step] at next
      exact next)
    (logged_none [])

/-! ### A call that does not follow -/

def Call.sessionKey : Call Key → Option Key
  | .observe sessionKey _ _ | .suspend sessionKey _ _ => sessionKey
  | .reset => none

def Call.time : Call Key → Option ℤ
  | .observe _ _ now | .suspend _ now _ => now
  | .reset => none

/-- The second call is of the same session, not before the first and at most 30 seconds after it. -/
def Continues (x y : Call Key) : Prop :=
  ∃ key t u, x.sessionKey = some key ∧ y.sessionKey = some key ∧ x.time = some t ∧ y.time = some u ∧
    t ≤ u ∧ u ≤ t + 30

theorem sampled_key (key : Key) (now : ℤ) (record : Tracker Key) :
    (sampled key now record).key = key ∧ (sampled key now record).last = now := by
  cases record with
  | none => exact ⟨rfl, rfl⟩
  | some old =>
    by_cases follows : continues old key now = true
    · rw [sampled, if_pos follows]
      exact ⟨(continues_iff.mp follows).1, rfl⟩
    · rw [sampled, if_neg follows]
      exact ⟨rfl, rfl⟩

/-- A record is of the call that left it. -/
theorem exec_record {call : Call Key} (left : (call.exec config record).1 = some r) :
    call.sessionKey = some r.key ∧ call.time = some r.last := by
  cases call with
  | observe sessionKey ok now =>
    obtain _ | key := sessionKey
    · cases left
    cases ok with
    | false => cases left
    | true =>
      obtain _ | now := now
      · cases left
      · obtain ⟨keyed, last⟩ := sampled_key key now record
        obtain rfl := Option.some.inj ((observe_some config key now record).1.symm.trans left)
        split_ifs
        · exact ⟨congrArg some keyed.symm, congrArg some last.symm⟩
        · exact ⟨congrArg some keyed.symm, congrArg some last.symm⟩
  | suspend sessionKey now stale =>
    obtain ⟨-, none | ⟨r', key, t, s, staleSince, rfl, rfl, rfl, rfl, suspends, stored⟩⟩ :=
      suspend_cases config sessionKey now stale record
    · cases none.symm.trans left
    · obtain rfl := Option.some.inj (stored.symm.trans left)
      exact ⟨congrArg some (continues_iff.mp (retains_iff.mp suspends.retains).2.1).1.symm, rfl⟩
  | reset => cases left

/-- A call that does not go on from the record does as with a new tracker. -/
theorem exec_restart {call : Call Key}
    (apart : ∀ r key now, record = some r → call.sessionKey = some key → call.time = some now →
      continues r key now = false) : call.exec config record = call.exec config none := by
  obtain _ | r := record
  · rfl
  cases call with
  | observe sessionKey ok now =>
    obtain _ | key := sessionKey
    · rfl
    cases ok with
    | false => rfl
    | true =>
      obtain _ | now := now
      · rfl
      · have fresh : sampled key now (some r) = sampled key now none :=
          if_neg (by rw [apart r key now rfl rfl rfl]; exact Bool.false_ne_true)
        simp only [Call.exec, observe, fresh]
  | suspend sessionKey now stale =>
    obtain _ | key := sessionKey
    · rfl
    obtain _ | now := now
    · rfl
    obtain _ | stale := stale
    · rfl
    have refused : ¬retains config r key now = true := fun retained =>
      absurd ((apart r key now rfl rfl rfl).symm.trans (retains_iff.mp retained).2.1)
        Bool.false_ne_true
    simp only [Call.exec, suspend, if_neg refused]
  | reset => rfl

/-! ### Admission -/

/-- The entry ends an admissible chain of one session. -/
def EndsChain (log : List (Entry Key)) (entry : Entry Key) : Prop :=
  ∃ key t, entry.1 = .observe (some key) true (some t) ∧ ∃ before chain ms,
    log ++ [entry] = before ++ chain ∧ chain.map (Entry.moment key) = ms.map some ∧
      Admissible ms ∧ ms.getLast? = some ⟨t, none, true⟩

/-- Only an observation answers that it is ready, and the record is then qualified. -/
theorem exec_ready {call : Call Key} (ready : Entry.ready (call, (call.exec config record).2) = true) :
    ∃ key t r, call = .observe (some key) true (some t) ∧
      (call.exec config record).1 = some r ∧ r.key = key ∧ r.qualified = true := by
  cases call with
  | observe sessionKey ok now =>
    obtain _ | key := sessionKey
    · cases ready
    cases ok with
    | false => cases ready
    | true =>
      obtain _ | now := now
      · cases ready
      · have answered : readyAt config now (sampled key now record) = true := ready
        refine ⟨key, now, validated now (sampled key now record), rfl, ?_,
          (sampled_key key now record).1, rfl⟩
        exact (observe_some config key now record).1.trans
          (congrArg some (if_pos answered))
  | suspend sessionKey now stale =>
    have unready := (suspend_cases config sessionKey now stale record).1
    exact absurd (unready.symm.trans ready) Bool.false_ne_true
  | reset => cases ready

theorem ends_chain (run : Run (answers config) none log record)
    (step : answers config record entry record') (ready : entry.ready = true) :
    EndsChain log entry := by
  obtain ⟨call, answer⟩ := entry
  have answered : answer = (call.exec config record).2 := (congrArg Prod.snd step).symm
  have left : record' = (call.exec config record).1 := (congrArg Prod.fst step).symm
  subst answered
  obtain ⟨key, t, r, rfl, stored, rfl, qualified⟩ := exec_ready ready
  refine ⟨r.key, t, rfl, ?_⟩
  obtain ⟨before, chain, ms, whole, moments, tracks⟩ :=
    run_logged (run.snoc step) r (left.trans stored)
  obtain ⟨⟨first, later, split, retained, -⟩, -⟩ := tracks.qualified qualified
  refine ⟨before, chain, ms, whole, moments, ⟨tracks.steady, first, later, split, retained⟩, ?_⟩
  -- the chain is not empty, so it ends with the entry
  obtain ⟨last, ends, -⟩ := tracks.ends
  have final := congrArg List.getLast? moments
  rw [List.getLast?_map, List.getLast?_map, ends] at final
  obtain ⟨e, chain_ends, told⟩ := Option.map_eq_some_iff.mp final
  have entry_last := congrArg List.getLast? whole
  rw [List.getLast?_concat, List.getLast?_append, chain_ends, Option.some_or] at entry_last
  obtain rfl := Option.some.inj entry_last
  have now : Entry.moment r.key ((.observe (some r.key) true (some t),
      ((Call.observe (some r.key) true (some t)).exec config record).2) : Entry Key) =
      some ⟨t, none, true⟩ := by
    simp only [Entry.moment, ready, and_self, if_true, Option.map_some]
  rw [ends]
  exact told.symm.trans now

/-- The chain cannot begin before a call that does not follow: from there on the log is that of a
new tracker. -/
theorem restarts {earlier later : List (Entry Key)} {x y : Entry Key}
    (run : Run (answers config) none (earlier ++ x :: y :: later) record)
    (breaks : ¬Continues x.1 y.1) : Run (answers config) none (y :: later) record := by
  obtain ⟨before, a, -, first, rest⟩ := run.split
  cases rest with
  | cons second rest =>
    refine .cons ?_ rest
    have left : (x.1.exec config before).1 = a := congrArg Prod.fst first
    have same : y.1.exec config a = y.1.exec config none := by
      refine exec_restart fun r key now old keyed timed => Bool.eq_false_iff.mpr fun follows => ?_
      obtain ⟨keyed', timed'⟩ := exec_record (left.trans old)
      obtain ⟨rfl, next, near⟩ := continues_iff.mp follows
      exact breaks ⟨_, _, _, keyed', keyed, timed', timed, next, near⟩
    exact same.symm.trans second

/-- The tracker was left alone, or suspended or reset without a ready answer. -/
def Interrupted (config : ExtendedConfig) (sessionKey : Option Key) (now : Option ℤ)
    (record : Tracker Key) (outcome : Tracker Key × Option ExtendedAnswer) : Prop :=
  outcome = (record, none) ∨
    ∃ (call : Call Key) (answer : ExtendedAnswer),
      (call = .reset ∨ ∃ stale, call = .suspend sessionKey now stale) ∧
        outcome = ((call.exec config record).1, some answer) ∧ answer.ready = false

theorem interrupt_calls (config : ExtendedConfig) (checks : Checks) (sessionKey : Option Key)
    (now : Option ℤ) (record : Tracker Key) : Interrupted config sessionKey now record
      (interruptExtendedAdmission config checks sessionKey now record) := by
  rw [interruptExtendedAdmission]
  split_ifs
  · exact .inl rfl
  · have unready := (suspend_cases config sessionKey now (some !checks.resultOk) record).1
    exact .inr ⟨.suspend sessionKey now (some !checks.resultOk), _, .inr ⟨_, rfl⟩, rfl, unready⟩
  · exact .inr ⟨.reset, unavailable, .inl rfl, rfl, rfl⟩

/-- In every run: whatever answers that it is ready is an observation that ends an admissible chain,
and a call that does not follow the one before it is answered, as all after it, by a tracker as good
as new. -/
theorem extended_sessions_qualify (run : Run (answers config) none log record) :
    (∀ earlier entry later, log = earlier ++ entry :: later → entry.ready = true →
      EndsChain earlier entry) ∧
    (∀ earlier x y later, log = earlier ++ x :: y :: later → ¬Continues x.1 y.1 →
      Run (answers config) none (y :: later) record) ∧
    ∀ checks sessionKey now, Interrupted config sessionKey now record
      (interruptExtendedAdmission config checks sessionKey now record) := by
  refine ⟨?_, ?_, fun checks sessionKey now => interrupt_calls config checks sessionKey now record⟩
  · rintro earlier entry later rfl ready
    obtain ⟨a, b, before, step, -⟩ := run.split
    exact ends_chain before step ready
  · rintro earlier x y later rfl breaks
    exact restarts run breaks

/-! ### A session -/

/-- The log of a list of calls, and the record that it leaves. -/
def play (config : ExtendedConfig) : Tracker Key → List (Call Key) → List (Entry Key) × Tracker Key
  | record, [] => ([], record)
  | record, call :: calls =>
    let (record, answer) := call.exec config record
    let (log, final) := play config record calls
    ((call, answer) :: log, final)

theorem run_play (config : ExtendedConfig) (record : Tracker Key) (calls : List (Call Key)) :
    Run (answers config) record (play config record calls).1 (play config record calls).2 := by
  induction calls generalizing record with
  | nil => exact .nil record
  | cons call calls ih => exact .cons rfl (ih _)

def sampleConfig : ExtendedConfig := ⟨3, 900, some 120, rfl, .inr ⟨by decide, rfl⟩⟩

/-- An observation every 15 seconds, for a quarter of an hour. -/
def sampleCalls : List (Call ℕ) :=
  (List.range 60).map fun n => .observe (some 7) true (some (1000 + 15 * n))

def sampleLast : Call ℕ := .observe (some 7) true (some 1900)

theorem sample_qualifies : EndsChain (play sampleConfig none sampleCalls).1
    (sampleLast, (sampleLast.exec sampleConfig (play sampleConfig none sampleCalls).2).2) := by
  have run := (run_play sampleConfig none sampleCalls).snoc
    (i := (sampleLast, (sampleLast.exec sampleConfig (play sampleConfig none sampleCalls).2).2))
    (u := (sampleLast.exec sampleConfig (play sampleConfig none sampleCalls).2).1) rfl
  exact (extended_sessions_qualify run).1 _ _ [] rfl (by decide +kernel)

end Turret.RiskMonitor.ExtendedSessionAdmission
