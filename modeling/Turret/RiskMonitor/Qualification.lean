import Turret.RiskMonitor.ExtendedSessions

/-! What an admission stands for: an unbroken chain of moments of one session,
which first qualifies by observations alone and after that is suspended only
for so long. Every record of the tracker is of such a chain, at the end of the
log. -/

namespace Turret.RiskMonitor

/-- A moment of a session: an observation, or a suspension with its staleness. -/
structure Moment where
  time : ℤ
  stale : Option Bool
  ready : Bool

namespace Moment

def Follows (x y : Moment) : Prop := x.time ≤ y.time ∧ y.time ≤ x.time + 30

/-- The time of the last ready moment. -/
def lastReady (ms : List Moment) : Option ℤ := (ms.filter Moment.ready).getLast?.map Moment.time

/-- Observations only, the last of them the first that is ready: 900 seconds and 60 samples. -/
structure Qualifies (ms : List Moment) : Prop where
  observes : ∀ m ∈ ms, m.stale = none
  first_ready : ∃ before last, ms = before ++ [last] ∧ last.ready = true ∧
    ∀ m ∈ before, m.ready = false
  span : ∃ first last, ms.head? = some first ∧ ms.getLast? = some last ∧
    first.time + 900 ≤ last.time
  samples : 60 ≤ (ms.map Moment.time).toFinset.card

/-- Each suspension comes within 900 seconds of the last ready moment. -/
def Suspended (qualified later : List Moment) : Prop :=
  ∀ before m, before ++ [m] <+: later → m.stale.isSome →
    ∃ v, lastReady (qualified ++ before) = some v ∧ m.time < v + 900

/-- Each uninterrupted run of stale suspensions spans less than 120 seconds. -/
def BrieflyStale (later : List Moment) : Prop :=
  ∀ run, run <:+: later → (∀ m ∈ run, m.stale = some true) →
    ∀ x ∈ run, ∀ y ∈ run, y.time < x.time + 120

/-- A qualification and what came of it. -/
structure Retained (qualified later : List Moment) : Prop where
  qualifies : Qualifies qualified
  suspended : Suspended qualified later
  briefly : BrieflyStale later

structure Admissible (ms : List Moment) : Prop where
  steady : ms.IsChain Follows
  retained : ∃ qualified later, ms = qualified ++ later ∧ Retained qualified later

/-! ### One more moment -/

variable {ms qualified later : List Moment} {m : Moment}

theorem steady_snoc (h : ms.IsChain Follows) (next : ∀ x ∈ ms.getLast?, Follows x m) :
    (ms ++ [m]).IsChain Follows := by
  refine List.isChain_append.mpr ⟨h, List.isChain_singleton m, fun x last y first => ?_⟩
  obtain rfl : m = y := Option.some.inj first
  exact next x last

theorem lastReady_snoc :
    lastReady (ms ++ [m]) = if m.ready then some m.time else lastReady ms := by
  by_cases ready : m.ready = true
  · simp [lastReady, ready]
  · simp [lastReady, ready]

theorem Suspended.snoc (h : Suspended qualified later)
    (new : m.stale.isSome → ∃ v, lastReady (qualified ++ later) = some v ∧ m.time < v + 900) :
    Suspended qualified (later ++ [m]) := by
  intro before m' inside
  rcases List.prefix_concat_iff.mp inside with same | old
  · obtain ⟨rfl, last⟩ := List.append_inj' same rfl
    obtain rfl := List.singleton_inj.mp last
    exact new
  · exact h before m' old

theorem BrieflyStale.snoc (h : BrieflyStale later) (bound : ∀ x ∈ later, x.time ≤ m.time)
    (trailing : m.stale = some true → ∀ run, run <:+ later → (∀ x ∈ run, x.stale = some true) →
      ∀ x ∈ run, m.time < x.time + 120) : BrieflyStale (later ++ [m]) := by
  intro run inside stale x hx y hy
  rcases List.infix_concat_iff.mp inside with ends | old
  · rcases List.suffix_concat_iff.mp ends with none | ⟨before, rfl, tail⟩
    · rw [none] at hx
      exact absurd hx List.not_mem_nil
    · have earlier : ∀ x ∈ before, x.stale = some true :=
        fun x hx => stale x (List.mem_append_left _ hx)
      have now : m.stale = some true := stale m (List.mem_append_right _ List.mem_cons_self)
      rcases List.mem_append.mp hx with hx | hx <;> rcases List.mem_append.mp hy with hy | hy
      · exact h before tail.isInfix earlier x hx y hy
      · rw [List.mem_singleton.mp hy]
        exact trailing now before tail earlier x hx
      · have below := bound y (tail.mem hy)
        rw [List.mem_singleton.mp hx]
        omega
      · rw [List.mem_singleton.mp hx, List.mem_singleton.mp hy]
        omega
  · exact h run old stale x hx y hy

theorem Retained.snoc (h : Retained qualified later) (bound : ∀ x ∈ later, x.time ≤ m.time)
    (suspended : m.stale.isSome →
      ∃ v, lastReady (qualified ++ later) = some v ∧ m.time < v + 900)
    (trailing : m.stale = some true → ∀ run, run <:+ later → (∀ x ∈ run, x.stale = some true) →
      ∀ x ∈ run, m.time < x.time + 120) : Retained qualified (later ++ [m]) :=
  ⟨h.qualifies, h.suspended.snoc suspended, h.briefly.snoc bound trailing⟩

theorem Qualifies.retained (h : Qualifies qualified) : Retained qualified [] where
  qualifies := h
  suspended before m inside := by
    have none := List.prefix_nil.mp inside
    exact absurd none (List.append_ne_nil_of_right_ne_nil _ (List.cons_ne_nil m []))
  briefly run inside _ x member := by
    rw [List.infix_nil.mp inside] at member
    exact absurd member List.not_mem_nil

/-- The chain so far when nothing of it was ready. -/
structure Qualifying (ms : List Moment) : Prop where
  observes : ∀ m ∈ ms, m.stale = none
  unready : ∀ m ∈ ms, m.ready = false

theorem Qualifying.snoc (h : Qualifying ms) (observed : m.stale = none) (unready : m.ready = false) :
    Qualifying (ms ++ [m]) := by
  constructor
  · intro x inside
    rcases List.mem_append.mp inside with old | new
    · exact h.observes x old
    · rw [List.mem_singleton.mp new, observed]
  · intro x inside
    rcases List.mem_append.mp inside with old | new
    · exact h.unready x old
    · rw [List.mem_singleton.mp new, unready]

/-- The moment at which a chain qualifies. -/
theorem Qualifying.qualifies (h : Qualifying ms) (observed : m.stale = none) (ready : m.ready = true)
    {first : Moment} (head : (ms ++ [m]).head? = some first) (span : first.time + 900 ≤ m.time)
    (samples : 60 ≤ ((ms ++ [m]).map Moment.time).toFinset.card) : Qualifies (ms ++ [m]) where
  observes x inside := by
    rcases List.mem_append.mp inside with old | new
    · exact h.observes x old
    · rw [List.mem_singleton.mp new, observed]
  first_ready := ⟨ms, m, rfl, ready, h.unready⟩
  span := ⟨first, m, head, List.getLast?_concat .., span⟩
  samples := samples

/-- Another time is another sample. -/
theorem samples_snoc {last : Moment} (ends : ms.getLast? = some last)
    (bound : ∀ x ∈ ms, x.time ≤ last.time) (next : last.time ≤ m.time) :
    ((ms ++ [m]).map Moment.time).toFinset.card =
      if m.time = last.time then (ms.map Moment.time).toFinset.card
      else (ms.map Moment.time).toFinset.card + 1 := by
  have inside : last ∈ ms := List.mem_of_getLast? ends
  have more : ((ms ++ [m]).map Moment.time).toFinset =
      insert m.time (ms.map Moment.time).toFinset := by
    ext t
    simp only [List.map_append, List.toFinset_append, Finset.mem_union, List.mem_toFinset,
      List.map_singleton, List.mem_singleton, Finset.mem_insert]
    exact or_comm
  rw [more]
  split_ifs with same
  · refine congrArg Finset.card (Finset.insert_eq_of_mem ?_)
    rw [List.mem_toFinset, same]
    exact List.mem_map_of_mem inside
  · refine Finset.card_insert_of_notMem fun seen => ?_
    rw [List.mem_toFinset] at seen
    obtain ⟨x, old, time⟩ := List.mem_map.mp seen
    have below := bound x old
    omega

end Moment

namespace ExtendedSessionAdmission

open Execution Moment

variable {Key : Type} {config : ExtendedConfig} {key : Key} {now : ℤ} {r : ExtendedRecord Key}
  {ms : List Moment}

section

variable [DecidableEq Key]

/-- The moment that a call is of a session; a reset, a failed observation and a call with another
key are of none. -/
def Entry.moment (key : Key) (entry : Entry Key) : Option Moment :=
  match entry.1 with
  | .observe sessionKey ok now =>
    if sessionKey = some key ∧ ok = true then now.map fun t => ⟨t, none, entry.ready⟩ else none
  | .suspend sessionKey now stale =>
    if sessionKey = some key then
      now.bind fun t => stale.map fun stale => ⟨t, some stale, entry.ready⟩
    else none
  | .reset => none

theorem continues_iff :
    continues r key now = true ↔ r.key = key ∧ r.last ≤ now ∧ now ≤ r.last + 30 := by
  rw [continues, decide_eq_true_iff, sub_le_iff_le_add']

end

/-- What a record remembers of a chain once it has qualified. -/
structure Validated (r : ExtendedRecord Key) (ms : List Moment) : Prop where
  retained : ∃ qualified later, ms = qualified ++ later ∧ Retained qualified later ∧
    ∀ run, run <:+ later → (∀ m ∈ run, m.stale = some true) →
      ∀ m ∈ run, ∃ s, r.staleSince = some s ∧ s ≤ m.time
  validated : ∃ v, r.lastValidated = some v ∧ lastReady ms = some v

/-- The record is of the chain. -/
structure Tracks (r : ExtendedRecord Key) (ms : List Moment) : Prop where
  steady : ms.IsChain Follows
  ends : ∃ last, ms.getLast? = some last ∧ last.time = r.last
  bound : ∀ m ∈ ms, m.time ≤ r.last
  begins : ∃ first, ms.head? = some first ∧ first.time = r.since
  stale_le : ∀ s, r.staleSince = some s → s ≤ r.last
  qualifying : r.qualified = false → Qualifying ms ∧ r.samples = (ms.map Moment.time).toFinset.card
  qualified : r.qualified = true → Validated r ms

theorem tracks_fresh (key : Key) (now : ℤ) :
    Tracks ⟨key, now, 1, now, false, none, none⟩ [⟨now, none, false⟩] where
  steady := List.isChain_singleton _
  ends := ⟨_, rfl, rfl⟩
  bound m inside := by rw [List.mem_singleton.mp inside]
  begins := ⟨_, rfl, rfl⟩
  stale_le _ none := by cases none
  qualifying _ := ⟨⟨fun m inside => by rw [List.mem_singleton.mp inside],
    fun m inside => by rw [List.mem_singleton.mp inside]⟩, rfl⟩
  qualified done := by cases done

namespace Tracks

variable (h : Tracks r ms) (next : r.last ≤ now) (near : now ≤ r.last + 30)

include h next near

theorem steady_next (stale : Option Bool) (ready : Bool) :
    (ms ++ [Moment.mk now stale ready]).IsChain Follows := by
  obtain ⟨last, ends, time⟩ := h.ends
  refine steady_snoc h.steady fun x final => ?_
  obtain rfl : last = x := Option.some.inj (ends.symm.trans final)
  exact ⟨time ▸ next, time ▸ near⟩

omit near in
theorem bound_next (stale : Option Bool) (ready : Bool) :
    ∀ m ∈ ms ++ [⟨now, stale, ready⟩], m.time ≤ now := by
  intro m inside
  rcases List.mem_append.mp inside with old | new
  · exact (h.bound m old).trans next
  · rw [List.mem_singleton.mp new]

omit next near in
theorem begins_next (m : Moment) : ∃ first, (ms ++ [m]).head? = some first ∧ first.time = r.since := by
  obtain ⟨first, head, time⟩ := h.begins
  exact ⟨first, by rw [List.head?_append, head]; rfl, time⟩

omit near in
/-- The samples that the record counts on. -/
theorem samples_next (open_ : r.qualified = false) (stale : Option Bool) (ready : Bool) :
    ((ms ++ [Moment.mk now stale ready]).map Moment.time).toFinset.card =
      if now = r.last then r.samples else r.samples + 1 := by
  obtain ⟨last, ends, time⟩ := h.ends
  have bound : ∀ m ∈ ms, m.time ≤ last.time := fun m inside => time ▸ h.bound m inside
  have after : last.time ≤ (Moment.mk now stale ready).time := time ▸ next
  rw [samples_snoc ends bound after, time, (h.qualifying open_).2]

omit near in
/-- A chain that has qualified goes on with an observation. -/
theorem validated_observed (old : Validated r ms) :
    Validated (validated now (counted now r)) (ms ++ [⟨now, none, true⟩]) := by
  obtain ⟨⟨qualified, later, rfl, retained, -⟩, -⟩ := old
  have bound : ∀ m ∈ later, m.time ≤ now :=
    fun m inside => (h.bound m (List.mem_append_right _ inside)).trans next
  refine ⟨⟨qualified, later ++ [⟨now, none, true⟩], List.append_assoc .., ?_, ?_⟩, now, rfl, ?_⟩
  · exact retained.snoc bound (fun stale => by cases stale) fun stale => by cases stale
  · intro run ends stale m inside
    rcases List.suffix_concat_iff.mp ends with none | ⟨before, rfl, -⟩
    · rw [none] at inside
      exact absurd inside List.not_mem_nil
    · have last := stale _ (List.mem_append_right _ List.mem_cons_self)
      cases last
  · rw [lastReady_snoc, if_pos rfl]

omit near in
/-- A chain qualifies. -/
theorem validated_first (config : ExtendedConfig) (open_ : r.qualified = false)
    (ready : readyAt config now (counted now r) = true) :
    Validated (validated now (counted now r)) (ms ++ [⟨now, none, true⟩]) := by
  obtain ⟨first, head, time⟩ := h.begins_next ⟨now, none, true⟩
  have counts := h.samples_next next open_ none true
  have enough : config.healthySeconds ≤ now - r.since ∧ 60 ≤ (counted now r).samples := by
    simpa only [readyAt, counted, open_, Bool.false_or, decide_eq_true_iff] using ready
  rw [config.healthy_eq] at enough
  have qualifies : Qualifies (ms ++ [⟨now, none, true⟩]) := by
    refine (h.qualifying open_).1.qualifies rfl rfl head ?_ ?_
    · change first.time + 900 ≤ now
      omega
    · rw [counts]
      exact enough.2
  refine ⟨⟨_, [], (List.append_nil _).symm, qualifies.retained, fun run ends _ m inside => ?_⟩, now,
    rfl, ?_⟩
  · rw [List.suffix_nil.mp ends] at inside
    exact absurd inside List.not_mem_nil
  · rw [lastReady_snoc, if_pos rfl]

theorem observed (config : ExtendedConfig) :
    Tracks
      (if readyAt config now (counted now r) then validated now (counted now r) else counted now r)
      (ms ++ [⟨now, none, readyAt config now (counted now r)⟩]) := by
  have steady := h.steady_next next near none (readyAt config now (counted now r))
  have bound := h.bound_next next none (readyAt config now (counted now r))
  have begins := h.begins_next ⟨now, none, readyAt config now (counted now r)⟩
  have ends : (ms ++ [Moment.mk now none (readyAt config now (counted now r))]).getLast? = some _ :=
    List.getLast?_concat ..
  by_cases ready : readyAt config now (counted now r) = true
  · rw [if_pos ready]
    refine ⟨steady, ⟨_, ends, rfl⟩, bound, begins, fun s none => (by cases none),
      fun open_ => (by cases open_), fun _ => ?_⟩
    rw [ready]
    cases before : r.qualified with
    | true => exact h.validated_observed next (h.qualified before)
    | false => exact h.validated_first next config before ready
  · rw [if_neg ready]
    have open_ : r.qualified = false := by
      cases before : r.qualified with
      | true => exact absurd (by rw [readyAt, counted, before, Bool.true_or]) ready
      | false => rfl
    have counts := h.samples_next next open_ none (readyAt config now (counted now r))
    have unready : readyAt config now (counted now r) = false := Bool.not_eq_true _ ▸ ready
    refine ⟨steady, ⟨_, ends, rfl⟩, bound, begins, fun s stale => (h.stale_le s stale).trans next,
      fun _ => ⟨(h.qualifying open_).1.snoc rfl unready, counts.symm⟩, fun done => ?_⟩
    exact absurd (open_.symm.trans done) Bool.false_ne_true

/-- A suspension, and the stale time it leaves behind. -/
theorem suspended (done : r.qualified = true) {stale : Bool} {staleSince : Option ℤ}
    (recent : ∀ v, r.lastValidated = some v → now < v + 900)
    (since : ∀ s, staleSince = some s → s ≤ now)
    (begun : stale = true → ∃ s, staleSince = some s ∧ now < s + 120)
    (kept : stale = true → ∀ s, r.staleSince = some s → staleSince = some s) :
    Tracks { r with staleSince, last := now } (ms ++ [⟨now, some stale, false⟩]) := by
  have steady := h.steady_next next near (some stale) false
  have bound := h.bound_next next (some stale) false
  have begins := h.begins_next ⟨now, some stale, false⟩
  have ends : (ms ++ [Moment.mk now (some stale) false]).getLast? = some _ :=
    List.getLast?_concat ..
  refine ⟨steady, ⟨_, ends, rfl⟩, bound, begins, since,
    fun open_ => absurd (done.symm.trans open_) Bool.noConfusion, fun _ => ?_⟩
  obtain ⟨⟨qualified, later, rfl, retained, trailing⟩, v, validated, last⟩ := h.qualified done
  have below : ∀ m ∈ later, m.time ≤ now :=
    fun m inside => (h.bound m (List.mem_append_right _ inside)).trans next
  refine ⟨⟨qualified, later ++ [⟨now, some stale, false⟩], List.append_assoc .., ?_, ?_⟩, v,
    validated, ?_⟩
  · refine retained.snoc below (fun _ => ⟨v, last, recent v validated⟩) fun now_stale => ?_
    intro run tail all m inside
    obtain ⟨s, old, le⟩ := trailing run tail all m inside
    obtain ⟨s', same, brief⟩ := begun (Option.some.inj now_stale)
    obtain rfl := Option.some.inj ((kept (Option.some.inj now_stale) s old).symm.trans same)
    change now < m.time + 120
    omega
  · intro run tail all m inside
    rcases List.suffix_concat_iff.mp tail with none | ⟨before, rfl, earlier⟩
    · rw [none] at inside
      exact absurd inside List.not_mem_nil
    · have now_stale : stale = true :=
        Option.some.inj (all _ (List.mem_append_right _ List.mem_cons_self))
      rcases List.mem_append.mp inside with inside | new
      · obtain ⟨s, old, le⟩ :=
          trailing before earlier (fun x hx => all x (List.mem_append_left _ hx)) m inside
        exact ⟨s, kept now_stale s old, le⟩
      · obtain ⟨s, same, -⟩ := begun now_stale
        rw [List.mem_singleton.mp new]
        exact ⟨s, same, since s same⟩
  · rw [lastReady_snoc, if_neg Bool.false_ne_true]
    exact last

end Tracks

end ExtendedSessionAdmission

end Turret.RiskMonitor
