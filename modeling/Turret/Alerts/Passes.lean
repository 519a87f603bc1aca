import Turret.Alerts.Observations

/-! What a delivery keeps, from the outbox it reads to the last of its jobs, whatever
the requests do while a message is on its way. -/

namespace Turret.Alerts

variable {x : Engine} {l : Limits} {w w' : World} {job : Job} {rest : List Job}
  (ordered : Monotone x.times)

/-! ### The pass -/

theorem Inv.snapshot (h : Inv x l w) (resting : Resting w) {jobs : List Job}
    (all : jobs.Perm w.outbox) : Inv x l { w with pass := jobs } := by
  have queued : ∀ job, job ∈ w.outbox ∨ job ∈ jobs → job ∈ w.outbox :=
    fun job mem => mem.elim id fun mem => all.mem_iff.mp mem
  refine ⟨h.subscriptions, h.jobs, h.rows, h.consented, h.addressed,
    fun job mem sub key status body => ?_, fun job mem => h.confirms job (.inl (queued job mem)),
    fun job mem job' mem' => h.apart job (.inl (queued job mem)) job' (.inl (queued job' mem')),
    (all.map _).nodup_iff.mpr h.jobs, fun job mem sub key status body job' mem' same => ?_, h.wallets,
    h.ages, h.recorded, h.spaced, h.told, fun start is => ?_, fun calm => ?_, fun wallet is => ?_⟩
  · have fits := h.fits job (.inl (queued job mem)) sub key status body
    exact ⟨fits.wallet, fits.named, fits.severity, fits.expires, fits.same, fits.allowed⟩
  · have one : job' = job := List.inj_on_of_nodup_map h.jobs mem' (queued job (.inr mem)) same
    rw [one]
    exact ⟨rfl, rfl⟩
  · change w.flight = some start at is
    rw [resting.flight] at is
    cases is
  · exact ⟨(h.calm calm).consents, fun job mem _ _ _ => ⟨job, queued job (.inr mem), rfl⟩,
      (h.calm calm).flight⟩
  · obtain ⟨one, told, flight⟩ := h.single wallet is
    exact ⟨one, told, flight⟩

/-- A send starts after a job that may go. -/
theorem Inv.start (h : Inv x l w) (pass : w.pass = job :: rest) {sub : SubId} {key : RiskKey}
    {status : Status} (body : job.body = .risk sub key status) {row : Subscription}
    (there : row ∈ w.subscriptions) (is : row.id = sub) (found : ∃ row ∈ w.risk, row.key = key)
    {starts : List Start} :
    Inv x l { w with
      flight := some ⟨job, sub, key, status, row.consent, w.lives sub, w.episodes key, x.now w⟩
      starts := starts } := by
  have mem : job ∈ w.pass := pass ▸ List.mem_cons_self
  have fits := h.fits job (.inr mem) sub key status body
  refine ⟨h.subscriptions, h.jobs, h.rows, h.consented, h.addressed,
    fun job mem sub key status body => ?_, h.confirms, h.apart, h.pass, h.kept, h.wallets, h.ages,
    h.recorded, h.spaced, h.told, fun start at_start => ?_, fun calm => ?_, fun wallet single => ?_⟩
  · have fits := h.fits job mem sub key status body
    exact ⟨fits.wallet, fits.named, fits.severity, fits.expires, fits.same, fits.allowed⟩
  · cases at_start
    refine ⟨⟨rest, pass⟩, body, le_rfl, rfl, fun _ _ => found, fun m at_m same life at_key episode => ?_⟩
    have current : Current w m.start := by
      refine ⟨⟨row, there, is.trans same.symm⟩, life.trans (congrArg w.lives same.symm), ?_⟩
      exact episode.trans (congrArg w.episodes at_key.symm)
    rcases fits.allowed m at_m current at_key with early | ⟨-, below⟩
    · have bound := fits.expires
      exact .inl (by dsimp only; omega)
    · exact .inr (below same)
  · obtain ⟨consents, queued, -⟩ := h.calm calm
    refine ⟨consents, queued, fun start at_start _ => ?_⟩
    cases at_start
    exact is ▸ consents row there
  · obtain ⟨one, told, -⟩ := h.single wallet single
    refine ⟨one, told, fun start at_start _ _ => ?_⟩
    cases at_start
    exact ⟨⟨row, there, is⟩, rfl⟩

/-! ### The record of a message -/

/-- The row of the market after a message about it. -/
def touch (key : RiskKey) (status : Status) (time : ℕ) (row : RiskRow) : RiskRow :=
  if row.key = key then { row with notifiedStatus := some status, sent := some time } else row

theorem touch_key {key : RiskKey} {status : Status} {time : ℕ} (row : RiskRow) :
    (touch key status time row).key = row.key ∧ (touch key status time row).status = row.status := by
  unfold touch
  split
  · exact ⟨rfl, rfl⟩
  · exact ⟨rfl, rfl⟩

/-- What is known of a message when it has arrived. -/
structure Arrived (x : Engine) (l : Limits) (w : World) (start : Start) : Prop where
  wallet : start.sub.wallet = start.key.wallet
  life : start.life ≤ w.lives start.sub
  episode : start.episode = w.episodes start.key
  spaced : ∀ m ∈ w.messages, Spaced m ⟨start, 0⟩
  row : Live w start.sub → start.life = w.lives start.sub → ∃ row ∈ w.risk, row.key = start.key
  same : ∀ row ∈ w.risk, row.key = start.key → row.status = start.status
  room : ∀ m ∈ w.messages, Current w m.start → m.start.key = start.key →
    m.time + hour ≤ x.now w ∨ riskSeverity m.start.status ≤ riskSeverity start.status
  others : ∀ job, job ∈ w.outbox ∨ job ∈ w.pass → ∀ sub status,
    job.body = .risk sub start.key status → sub ≠ start.sub
  single : ∀ wallet, l.single = some wallet → start.key.wallet = wallet →
    (∃ row ∈ w.risk, row.key = start.key) → Live w start.sub ∧ start.life = w.lives start.sub

include ordered in
theorem Inv.record (h : Inv x l w) (landed : w.flight = none) {start : Start}
    (arrived : Arrived x l w start) {reads : ℕ} (later : w.reads ≤ reads) :
    Inv x l { w with
      reads := reads
      risk := w.risk.map (touch start.key start.status (x.now w))
      messages := w.messages ++ [⟨start, x.now w⟩] } := by
  have passed : x.now w ≤ x.times reads := ordered later
  have rows : ∀ row' ∈ w.risk.map (touch start.key start.status (x.now w)),
      ∃ row ∈ w.risk, row' = touch start.key start.status (x.now w) row := by
    intro row' mem
    obtain ⟨row, at_row, same⟩ := List.mem_map.mp mem
    exact ⟨row, at_row, same.symm⟩
  have sent : ∀ m ∈ w.messages ++ [⟨start, x.now w⟩], m ∈ w.messages ∨ m = ⟨start, x.now w⟩ :=
    fun m mem => (List.mem_append.mp mem).imp_right List.mem_singleton.mp
  refine ⟨h.subscriptions, h.jobs, ?_, h.consented, h.addressed,
    fun job mem sub key status body => ?_, h.confirms, h.apart, h.pass, h.kept, fun m mem => ?_,
    fun m mem => ?_, fun m mem current => ?_, ?_, fun row mem τ is => ?_, fun other is => ?_,
    fun calm => ?_, fun wallet is => ?_⟩
  · have keys : RiskRow.key ∘ touch start.key start.status (x.now w) = RiskRow.key :=
      funext fun row => (touch_key row).1
    rw [List.map_map, keys]
    exact h.rows
  · obtain ⟨wallet, named, severity, expires, same, allowed⟩ := h.fits job mem sub key status body
    refine ⟨wallet, named, severity, expires.trans (Nat.add_le_add_right passed _),
      fun row' mem' at_key => ?_, fun m at_m current at_key => ?_⟩
    · obtain ⟨row, at_row, rfl⟩ := rows row' mem'
      rw [(touch_key row).2]
      exact same row at_row ((touch_key row).1.symm.trans at_key)
    · rcases sent m at_m with at_m | rfl
      · exact allowed m at_m current at_key
      · obtain ⟨row, at_row, is⟩ := arrived.row current.1 current.2.1
        have status_row := same row at_row (is.trans at_key)
        have equal : start.status = status := (arrived.same row at_row is).symm.trans status_row
        subst at_key equal
        exact .inr ⟨le_rfl, fun own => absurd own.symm (arrived.others job mem sub _ body)⟩
  · rcases sent m mem with mem | rfl
    · exact h.wallets m mem
    · exact arrived.wallet
  · rcases sent m mem with mem | rfl
    · obtain ⟨life, episode, time⟩ := h.ages m mem
      exact ⟨life, episode, time.trans passed⟩
    · exact ⟨arrived.life, arrived.episode.le, passed⟩
  · -- the row of the market tells the message, or one that it leaves room for
    have told : ∀ row : RiskRow, row.key = start.key →
        (touch start.key start.status (x.now w) row).notifiedStatus = some start.status ∧
        (touch start.key start.status (x.now w) row).sent = some (x.now w) := by
      intro row at_key
      rw [touch, if_pos at_key]
      exact ⟨rfl, rfl⟩
    rcases sent m mem with mem | rfl
    · obtain ⟨row, at_row, at_key, n, τ, notified, is, early, spaced⟩ := h.recorded m mem current
      refine ⟨_, List.mem_map_of_mem at_row, (touch_key row).1.trans at_key, ?_⟩
      by_cases same : row.key = start.key
      · obtain ⟨told, time⟩ := told row same
        exact ⟨_, _, told, time, (h.ages m mem).2.2,
          arrived.room m mem current (at_key.symm.trans same)⟩
      · rw [touch, if_neg same]
        exact ⟨n, τ, notified, is, early, spaced⟩
    · obtain ⟨row, at_row, at_key⟩ := arrived.row current.1 current.2.1
      obtain ⟨told, time⟩ := told row at_key
      exact ⟨_, List.mem_map_of_mem at_row, (touch_key row).1.trans at_key, _, _, told, time, le_rfl,
        .inr le_rfl⟩
  · refine List.pairwise_append.mpr ⟨h.spaced, List.pairwise_singleton _ _, fun m mem m' last => ?_⟩
    rw [List.mem_singleton.mp last]
    exact arrived.spaced m mem
  · obtain ⟨row, at_row, rfl⟩ := rows row mem
    unfold touch at is
    split at is
    · cases is
      exact passed
    · exact (h.told row at_row τ is).trans passed
  · change w.flight = some other at is
    rw [landed] at is
    cases is
  · exact ⟨(h.calm calm).consents, (h.calm calm).queued, (h.calm calm).flight⟩
  · obtain ⟨one, told, -⟩ := h.single wallet is
    refine ⟨one, fun row mem at_wallet n notified => ?_, fun other at_other => ?_⟩
    · obtain ⟨row, at_row, rfl⟩ := rows row mem
      by_cases same : row.key = start.key
      · rw [(touch_key row).1] at at_wallet
        obtain ⟨live, life⟩ := arrived.single wallet is ((congrArg _ same.symm).trans at_wallet)
          ⟨row, at_row, same⟩
        rw [touch, if_pos same] at notified
        refine ⟨_, List.mem_append_right _ (List.mem_singleton_self _), ⟨live, life, arrived.episode⟩,
          same.symm.trans (touch_key row).1.symm, Option.some.inj notified, ?_⟩
        rw [touch, if_pos same]
      · rw [touch, if_neg same] at at_wallet notified ⊢
        obtain ⟨m, at_m, rest⟩ := told row at_row at_wallet n notified
        exact ⟨m, List.mem_append_left _ at_m, rest⟩
    · change w.flight = some other at at_other
      rw [landed] at at_other
      cases at_other

theorem live_putSubscription {row : Subscription} (live : Live w row.id) {sub : SubId} :
    Live (putSubscription row w) sub ↔ Live w sub := by
  constructor
  · rintro ⟨other, mem, rfl⟩
    rcases Table.mem_of_mem_upsert mem with rfl | ⟨mem, -⟩
    · exact live
    · exact ⟨other, mem, rfl⟩
  · rintro ⟨other, mem, rfl⟩
    by_cases same : other.id = row.id
    · exact ⟨row, Table.mem_upsert_self _ _, same.symm⟩
    · exact ⟨other, Table.mem_upsert_of_ne mem same, rfl⟩

/-- A subscription that is still there is written back. -/
theorem Inv.putBack (h : Inv x l w) {row : Subscription} (live : Live w row.id)
    (consent : l.calm = true → w.consents row.id = some row.consent) :
    Inv x l (putSubscription row w) := by
  have lives : ∀ {sub}, Live (putSubscription row w) sub ↔ Live w sub := live_putSubscription live
  have currents : ∀ {start}, Current (putSubscription row w) start → Current w start :=
    fun current => ⟨lives.mp current.1, current.2⟩
  have rows : ∀ other ∈ (putSubscription row w).subscriptions,
      other = row ∨ other ∈ w.subscriptions ∧ other.id ≠ row.id :=
    fun other mem => Table.mem_of_mem_upsert mem
  refine ⟨Table.keys_upsert h.subscriptions, h.jobs, h.rows, fun other mem => ?_,
    fun job mem sub is => lives.mpr (h.addressed job mem sub is),
    fun job mem sub key status body => ?_, h.confirms, h.apart, h.pass, h.kept, h.wallets, h.ages,
    fun m mem current => h.recorded m mem (currents current), h.spaced, h.told, fun start is => ?_,
    fun calm => ?_, fun wallet is => ?_⟩
  · rcases rows other mem with rfl | ⟨mem, -⟩
    · obtain ⟨old, at_old, same⟩ := live
      exact same ▸ h.consented old at_old
    · exact h.consented other mem
  · have fits := h.fits job mem sub key status body
    exact ⟨fits.wallet, fits.named, fits.severity, fits.expires, fits.same,
      fun m at_m current => fits.allowed m at_m (currents current)⟩
  · obtain ⟨head, body, life, episode, row, spaced⟩ := h.flight start is
    exact ⟨head, body, life, episode, fun live => row (lives.mp live), spaced⟩
  · obtain ⟨consents, queued, flight⟩ := h.calm calm
    refine ⟨fun other mem => ?_, fun job mem sub is live => queued job mem sub is (lives.mp live),
      fun start is live => flight start is (lives.mp live)⟩
    rcases rows other mem with rfl | ⟨mem, -⟩
    · exact consent calm
    · exact consents other mem
  · obtain ⟨one, told, flight⟩ := h.single wallet is
    have old : ∀ other ∈ (putSubscription row w).subscriptions, ∃ old ∈ w.subscriptions,
        old.id = other.id := fun other mem => lives.mp ⟨other, mem, rfl⟩
    refine ⟨fun a mem b mem' at_a at_b => ?_, fun row mem at_wallet n notified => ?_,
      fun start is at_wallet found => ?_⟩
    · obtain ⟨a', at_a', same⟩ := old a mem
      obtain ⟨b', at_b', same'⟩ := old b mem'
      rw [← same] at at_a ⊢
      rw [← same'] at at_b ⊢
      exact one a' at_a' b' at_b' at_a at_b
    · obtain ⟨m, at_m, current, rest⟩ := told row mem at_wallet n notified
      exact ⟨m, at_m, ⟨lives.mpr current.1, current.2⟩, rest⟩
    · obtain ⟨live, life⟩ := flight start is at_wallet found
      exact ⟨lives.mpr live, life⟩

theorem liveRows_reads {α : Type} (expires : α → ℕ) (rows : List α) (w : World) :
    ∃ reads, w.reads ≤ reads ∧ (liveRows x expires rows w).2 = { w with reads := reads } := by
  induction rows generalizing w with
  | nil => exact ⟨w.reads, le_rfl, rfl⟩
  | cons row rows ih =>
    obtain ⟨reads, later, same⟩ := ih w.tick
    exact ⟨reads, (Nat.le_succ _).trans later, same⟩

/-- What is pruned are rows of links and limits. -/
theorem prune_same (w : World) : Same w (prune x w) ∧ (prune x w).starts = w.starts ∧
    (prune x w).observed = w.observed := by
  obtain ⟨reads, later, same⟩ := liveRows_reads (x := x) Pending.expires w.pending w
  obtain ⟨reads', later', same'⟩ := liveRows_reads (x := x) RateRow.expires w.rate
    (liveRows x Pending.expires w.pending w).2
  rw [same] at later' same'
  unfold prune
  dsimp only
  rw [same, same']
  exact ⟨⟨later.trans later', rfl, rfl, rfl, rfl, rfl, rfl, rfl, rfl, rfl⟩, rfl, rfl⟩

/-! ### The turn of a job -/

/-- What a step of the engine tells: a send goes to a subscription that is there, for a job that is
queued, and an observation alerts. -/
structure Stepped (l : Limits) (w w' : World) : Prop where
  started : ∀ start ∈ w'.starts, start ∈ w.starts ∨ Live w start.sub ∧
    (l.calm = true → ∃ job ∈ w.outbox, job.id = start.job.id ∧ job.body = start.job.body)
  alerted : ∀ o ∈ w'.observed, o ∈ w.observed ∨
    (riskSeverity o.status ≠ 0 → l.single = some o.key.wallet →
      ∀ row ∈ w'.subscriptions, row.id.wallet = o.key.wallet → Alerted w' o row.id)

theorem Stepped.still (starts : w'.starts = w.starts) (observed : w'.observed = w.observed) :
    Stepped l w w' := by
  refine ⟨fun start mem => .inl ?_, fun o mem => .inl ?_⟩
  · rwa [starts] at mem
  · rwa [observed] at mem

/-- What the turn of a job knows while its message is on its way. -/
def Carries (job : Job) (sub : Option Subscription) (flight : Option Start) : Prop :=
  (∃ id contact pending, job.body = .verify id contact pending) ∧ sub = none ∧ flight = none ∨
    ∃ row start, sub = some row ∧ flight = some start ∧ start.job = job ∧ row.id = start.sub ∧
      row.consent = start.consent

theorem subscription_eq_some (h : Inv x l w) {id : SubId} {row : Subscription} :
    w.subscription id = some row ↔ row ∈ w.subscriptions ∧ row.id = id :=
  Table.find?_eq_some_iff h.subscriptions id

theorem subscription_isSome (h : Inv x l w) {id : SubId} :
    (w.subscription id).isSome = true ↔ Live w id := by
  rw [Option.isSome_iff_exists]
  constructor
  · rintro ⟨row, found⟩
    exact ⟨row, (subscription_eq_some h).mp found⟩
  · rintro ⟨row, there⟩
    exact ⟨row, (subscription_eq_some h).mpr there⟩

/-- What a turn leads to. -/
def Turned (job : Job) (rest : List Job) (w : World) : Turn → Prop
  | .dropped => w.pass = rest ∧ w.flight = none
  | .held => w.pass = rest ∧ w.flight = none
  | .sends sub => w.pass = job :: rest ∧ Carries job sub w.flight

include ordered in
theorem takeUp_spec (h : Inv x l w) (pass : w.pass = job :: rest) (landed : w.flight = none) :
    Inv x l (takeUp x job w).2 ∧ Turned job rest (takeUp x job w).2 (takeUp x job w).1 ∧
      Stepped l w (takeUp x job w).2 := by
  have tail : w.pass.tail = rest := by rw [pass, List.tail_cons]
  unfold takeUp
  split
  · exact ⟨h.drop pass, ⟨tail, rfl⟩, .still rfl rfl⟩
  · rename_i still
    split
    · exact ⟨(h.tick ordered).drop pass, ⟨tail, rfl⟩, .still rfl rfl⟩
    · rename_i wanted
      dsimp only
      split
      · exact ⟨((h.tick ordered).tick ordered).finish, ⟨tail, rfl⟩, .still rfl rfl⟩
      · have inv := h.tick ordered
        cases body : job.body with
        | verify id contact pending =>
          have none_starts : job.start x w.tick = none := by rw [Job.start, body]
          have none_sub : job.subscription w.tick = none := by rw [Job.subscription, body]
          rw [none_starts, none_sub]
          refine ⟨?_, ⟨pass, .inl ⟨⟨id, contact, pending, body⟩, rfl, rfl⟩⟩, ?_⟩
          · exact (inv.tick ordered).of_same ordered
              ⟨le_rfl, rfl, rfl, rfl, rfl, rfl, rfl, rfl, landed.symm, rfl⟩
          · exact .still (by simp [World.tick]) rfl
        | risk sub key status =>
          have is_some : (w.tick.subscription sub).isSome = true := by
            by_contra gone
            exact wanted (.inr (by rw [addressed, body]; exact Bool.not_eq_true _ ▸ gone))
          obtain ⟨row, found⟩ := Option.isSome_iff_exists.mp is_some
          obtain ⟨there, is⟩ := (subscription_eq_some inv).mp found
          have started : job.start x w.tick = some ⟨job, sub, key, status, row.consent,
              w.lives sub, w.episodes key, x.now w.tick⟩ := by
            rw [Job.start, body]
            dsimp only
            rw [found]
            rfl
          have known : job.subscription w.tick = some row := by
            rw [Job.subscription, body]
            exact found
          have risky : ∃ row ∈ w.risk, row.key = key := by
            rw [stillAtRisk, body, Bool.not_eq_false, Option.any_eq_true] at still
            obtain ⟨row, found, -⟩ := still
            exact ⟨row, (riskRow_eq_some h).mp found⟩
          rw [started, known]
          refine ⟨(inv.start pass body there is risky).tick ordered,
            ⟨pass, .inr ⟨row, _, rfl, rfl, rfl, is, rfl⟩⟩, fun start mem => ?_, fun o mem => .inl mem⟩
          refine (List.mem_append.mp mem).imp_right fun last => ?_
          rw [List.mem_singleton.mp last]
          refine ⟨⟨row, there, is⟩, fun calm => ?_⟩
          have waits : job ∈ w.pass := pass ▸ List.mem_cons_self
          have for_sub : job.subId = some sub := by rw [Job.subId, body]
          obtain ⟨queued, mem, same⟩ := (h.calm calm).queued job waits sub for_sub ⟨row, there, is⟩
          exact ⟨queued, mem, same, (h.kept job waits sub key status body queued mem same).1⟩

/-! ### After a message -/

theorem map_touch_eq_self {key : RiskKey} {status : Status} {time : ℕ} {rows : List RiskRow}
    (absent : ∀ row ∈ rows, row.key ≠ key) : rows.map (touch key status time) = rows :=
  (List.map_congr_left fun row mem => if_neg (absent row mem)).trans (List.map_id rows)

theorem recordRisk_eq {u : World} (rows : (u.risk.map RiskRow.key).Nodup) {sub : SubId}
    {key : RiskKey} {status : Status} (body : job.body = .risk sub key status) :
    ∃ reads, u.reads ≤ reads ∧ recordRisk x job u =
      { u with reads := reads, risk := u.risk.map (touch key status (x.now u)) } := by
  unfold recordRisk
  rw [body]
  dsimp only
  cases found : u.riskRow key with
  | none =>
    have absent : ∀ row ∈ u.risk, row.key ≠ key := by
      simpa [World.riskRow] using found
    exact ⟨u.reads, le_rfl, by rw [map_touch_eq_self absent]⟩
  | some row =>
    obtain ⟨mem, at_key⟩ := (Table.find?_eq_some_iff rows key).mp found
    refine ⟨u.reads + 1, Nat.le_succ _, ?_⟩
    have put : Table.upsert RiskRow.key
        { row with notifiedStatus := some status, sent := some (x.now u) } u.risk =
        u.risk.map (touch key status (x.now u)) := by
      have same : ({ row with notifiedStatus := some status, sent := some (x.now u) } : RiskRow).key =
          row.key := rfl
      rw [Table.upsert_old mem same]
      refine List.map_congr_left fun other there => ?_
      unfold touch
      dsimp only
      rw [at_key]
      split
      · rename_i is
        rw [Table.eq_of_key rows there mem (is.trans at_key.symm), at_key]
      · rfl
    dsimp only
    rw [putRisk, World.tick]
    dsimp only
    rw [put]

/-- What is known of the message of a job when it has arrived. -/
theorem Inv.arrived (h : Inv x l w) (pass : w.pass = job :: rest) {start : Start}
    (flight : w.flight = some start) (own : start.job = job) :
    Arrived x l (Alerts.finish (deleteJob job.id w)) start := by
  obtain ⟨-, body, life, episode, row, spaced⟩ := h.flight start flight
  rw [own] at body
  have mem : job ∈ w.pass := pass ▸ List.mem_cons_self
  have fits := h.fits job (.inr mem) _ _ _ body
  refine ⟨fits.wallet, life, episode, spaced, row, fits.same, fun m at_m current at_key => ?_,
    fun other at_other sub status other_body => ?_,
    fun wallet is => (h.single wallet is).flight start flight⟩
  · rcases fits.allowed m at_m current at_key with early | ⟨low, -⟩
    · have bound := fits.expires
      change m.time + hour ≤ x.now w ∨ _
      exact .inl (by omega)
    · exact .inr low
  · rintro rfl
    have earlier : other ∈ w.outbox ∨ other ∈ w.pass :=
      at_other.imp List.mem_of_mem_filter List.mem_of_mem_tail
    have same : other.id = job.id := h.apart job (.inr mem) other earlier _ _ _ _ body other_body
    rcases at_other with at_other | at_other
    · exact of_decide_eq_true (List.mem_filter.mp at_other).2 same
    · change other ∈ w.pass.tail at at_other
      have nodup := h.pass
      rw [pass, List.map_cons, List.nodup_cons] at nodup
      rw [pass, List.tail_cons] at at_other
      exact nodup.1 (same ▸ List.mem_map_of_mem at_other)

/-- The jobs that are left, after a turn. -/
structure Passed (x : Engine) (l : Limits) (rest : List Job) (w w' : World) : Prop where
  inv : Inv x l w'
  pass : w'.pass = rest
  flight : w'.flight = none
  starts : w'.starts = w.starts
  observed : w'.observed = w.observed

include ordered in
theorem sent_spec (h : Inv x l w) (pass : w.pass = job :: rest) {sub : Option Subscription}
    (carries : Carries job sub w.flight) : Passed x l rest w (sent x job sub w) := by
  have tail : w.pass.tail = rest := by rw [pass, List.tail_cons]
  have dropped := h.drop pass
  rcases carries with ⟨⟨id, contact, pending, body⟩, rfl, landed⟩ |
    ⟨row, start, rfl, flight, own, at_sub, consent⟩
  · have same : sent x job none w = finish (deleteJob job.id w) := by
      simp [sent, recordMessage, landed, recordRisk, body, putDelivered, deleteJob, finish]
    rw [same]
    exact ⟨dropped, tail, rfl, rfl, rfl⟩
  · have body := (h.flight start flight).body
    rw [own] at body
    have arrived := h.arrived pass flight own
    have rows : ((deleteJob job.id (recordMessage x w)).risk.map RiskRow.key).Nodup := h.rows
    obtain ⟨reads, later, recorded⟩ := recordRisk_eq rows body
    have told := dropped.record ordered rfl arrived later
    have result : sent x job (some row) w = finish (putDelivered x (some row)
        { deleteJob job.id (recordMessage x w) with
          reads := reads
          risk := w.risk.map (touch start.key start.status (x.now w)) }) := by
      rw [sent, recorded]
      rfl
    have flown : recordMessage x w = { w with messages := w.messages ++ [⟨start, x.now w⟩] } := by
      rw [recordMessage, flight]
      rfl
    rw [result, flown]
    unfold putDelivered
    dsimp only
    split
    · rename_i there
      have live : Live w row.id := (subscription_isSome h).mp there
      refine ⟨(told.tick ordered).putBack live fun calm => ?_, tail, rfl, rfl, rfl⟩
      have consents := (h.calm calm).flight start flight (at_sub ▸ live)
      rw [← at_sub, ← consent] at consents
      exact consents
    · exact ⟨told, tail, rfl, rfl, rfl⟩

include ordered in
theorem retry_spec (h : Inv x l w) (pass : w.pass = job :: rest) :
    Inv x l (retry x job w) := by
  have mem : job ∈ w.pass := pass ▸ List.mem_cons_self
  unfold retry
  split
  · rename_i there
    obtain ⟨old, at_old, is⟩ := List.any_eq_true.mp there
    have same : old.id = job.id := of_decide_eq_true is
    refine (h.tick ordered).putJob ?_
    cases body : job.body with
    | verify id contact pending =>
      exact .inl ⟨id, contact, pending, rfl, h.confirms job (.inr mem) id contact pending body⟩
    | risk sub key status =>
      obtain ⟨bodies, expires⟩ := h.kept job mem sub key status body old at_old same
      exact .inr ⟨old, at_old, same, bodies.trans body, expires⟩
  · exact h

include ordered in
theorem failed_spec (h : Inv x l w) (pass : w.pass = job :: rest) {sub : Option Subscription}
    (carries : Carries job sub w.flight) : Passed x l rest w (failed x job sub w) := by
  have inv := retry_spec ordered h pass
  have same : (retry x job w).subscriptions = w.subscriptions ∧ (retry x job w).pass = w.pass ∧
      (retry x job w).flight = w.flight ∧ (retry x job w).starts = w.starts ∧
      (retry x job w).observed = w.observed := by
    unfold retry
    split
    · exact ⟨rfl, rfl, rfl, rfl, rfl⟩
    · exact ⟨rfl, rfl, rfl, rfl, rfl⟩
  obtain ⟨subscriptions, at_pass, at_flight, starts, observed⟩ := same
  have tail : (retry x job w).pass.tail = rest := by rw [at_pass, pass, List.tail_cons]
  unfold failed
  rcases carries with ⟨-, rfl, -⟩ | ⟨row, start, rfl, flight, own, at_sub, consent⟩
  · exact ⟨inv.finish, tail, rfl, starts, observed⟩
  · unfold putFailed
    dsimp only
    split
    · rename_i there
      have live : Live (retry x job w) row.id := (subscription_isSome inv).mp there
      have back : Inv x l (putSubscription { row with failed := true } (retry x job w)) := by
        refine inv.putBack live fun calm => ?_
        have consents := (inv.calm calm).flight start (at_flight.trans flight) (at_sub ▸ live)
        rw [← at_sub, ← consent] at consents
        exact consents
      exact ⟨back.finish, tail, rfl, starts, observed⟩
    · exact ⟨inv.finish, tail, rfl, starts, observed⟩

end Turret.Alerts
