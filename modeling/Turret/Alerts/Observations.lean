import Turret.Alerts.Requests

/-! What an observation keeps, and whom it warns. No delivery is in progress then. -/

namespace Turret.Alerts

variable {x : Engine} {l : Limits} {w w' u : World} {sub : SubId} {key : RiskKey} {status : Status}

/-- Nothing has changed but the outbox, and the clock has gone on. -/
structure Only (w w' : World) : Prop where
  reads : w.reads ≤ w'.reads
  subscriptions : w'.subscriptions = w.subscriptions
  risk : w'.risk = w.risk
  lives : w'.lives = w.lives
  episodes : w'.episodes = w.episodes
  pass : w'.pass = w.pass
  flight : w'.flight = w.flight
  starts : w'.starts = w.starts
  messages : w'.messages = w.messages

theorem Only.refl (w : World) : Only w w := ⟨le_rfl, rfl, rfl, rfl, rfl, rfl, rfl, rfl, rfl⟩

theorem Only.trans (h : Only w w') (h' : Only w' u) : Only w u :=
  ⟨h.reads.trans h'.reads, h'.subscriptions.trans h.subscriptions, h'.risk.trans h.risk,
    h'.lives.trans h.lives, h'.episodes.trans h.episodes, h'.pass.trans h.pass,
    h'.flight.trans h.flight, h'.starts.trans h.starts, h'.messages.trans h.messages⟩

theorem Only.current {start : Start} (h : Only w w') : Current w' start ↔ Current w start := by
  rw [Current, Current, Live, Live, h.subscriptions, h.lives, h.episodes]

/-- No delivery is in progress. -/
structure Resting (w : World) : Prop where
  pass : w.pass = []
  flight : w.flight = none

theorem Resting.only (h : Resting w) (only : Only w w') : Resting w' :=
  ⟨only.pass.trans h.pass, only.flight.trans h.flight⟩

theorem Inv.deleteJobs_resting (h : Inv x l w) (resting : Resting w) (p : Job → Bool) :
    Inv x l (Alerts.deleteJobs p w) := by
  refine h.deleteJobs fun _ job mem => ?_
  rw [resting.pass] at mem
  cases mem

/-! ### The rows of a market -/

theorem riskRow_eq_some (h : Inv x l w) {row : RiskRow} :
    w.riskRow key = some row ↔ row ∈ w.risk ∧ row.key = key :=
  Table.find?_eq_some_iff h.rows key

/-- The new state of a market, with the history that it had. -/
theorem Inv.putRisk (h : Inv x l w) (resting : Resting w)
    (told : ∀ job ∈ w.outbox, ∀ sub status', job.body = .risk sub key status' → status' = status) :
    Inv x l (putRisk ⟨key, status, (w.riskRow key).bind RiskRow.notifiedStatus,
      (w.riskRow key).bind RiskRow.sent⟩ w) := by
  have rows : ∀ row ∈ (Alerts.putRisk ⟨key, status, (w.riskRow key).bind RiskRow.notifiedStatus,
      (w.riskRow key).bind RiskRow.sent⟩ w).risk,
      row = ⟨key, status, (w.riskRow key).bind RiskRow.notifiedStatus,
        (w.riskRow key).bind RiskRow.sent⟩ ∨ row ∈ w.risk ∧ row.key ≠ key :=
    fun row mem => Table.mem_of_mem_upsert mem
  have queued : ∀ job, job ∈ w.outbox ∨ job ∈ w.pass → job ∈ w.outbox := by
    rintro job (mem | mem)
    · exact mem
    · rw [resting.pass] at mem
      cases mem
  refine ⟨h.subscriptions, h.jobs, Table.keys_upsert h.rows, h.consented, h.addressed,
    fun job mem sub key' status' body => ?_, h.confirms, h.apart, h.pass, h.kept, h.wallets, h.ages,
    fun m mem current => ?_, h.spaced, fun row at_row τ sent => ?_, fun start is => ?_,
    fun calm => ?_, fun wallet is => ?_⟩
  · obtain ⟨wallet, named, severity, expires, same, allowed⟩ := h.fits job mem sub key' status' body
    refine ⟨wallet, named, severity, expires, fun row at_row at_key => ?_, allowed⟩
    rcases rows row at_row with rfl | ⟨at_row, -⟩
    · subst at_key
      exact (told job (queued job mem) sub status' body).symm
    · exact same row at_row at_key
  · obtain ⟨row, at_row, at_key, n, τ, notified, sent, rest⟩ := h.recorded m mem current
    by_cases same : m.start.key = key
    · have found : w.riskRow key = some row := (riskRow_eq_some h).mpr ⟨at_row, at_key.trans same⟩
      refine ⟨_, Table.mem_upsert_self _ _, same.symm, n, τ, ?_, ?_, rest⟩
      · rw [found, Option.bind_some]
        exact notified
      · rw [found, Option.bind_some]
        exact sent
    · exact ⟨row, Table.mem_upsert_of_ne at_row fun eq => same (at_key.symm.trans eq), at_key, n, τ,
        notified, sent, rest⟩
  · rcases rows row at_row with rfl | ⟨at_row, -⟩
    · obtain ⟨old, found, sent⟩ := Option.bind_eq_some_iff.mp sent
      exact h.told old ((riskRow_eq_some h).mp found).1 τ sent
    · exact h.told row at_row τ sent
  · change w.flight = some start at is
    rw [resting.flight] at is
    cases is
  · exact ⟨(h.calm calm).consents, (h.calm calm).queued, (h.calm calm).flight⟩
  · obtain ⟨one, told, -⟩ := h.single wallet is
    refine ⟨one, fun row at_row at_wallet n notified => ?_, fun start is => ?_⟩
    · rcases rows row at_row with rfl | ⟨at_row, -⟩
      · obtain ⟨old, found, notified⟩ := Option.bind_eq_some_iff.mp notified
        obtain ⟨at_old, at_key⟩ := (riskRow_eq_some h).mp found
        obtain ⟨m, at_m, current, same, status, sent⟩ :=
          told old at_old ((congrArg _ at_key).trans at_wallet) n notified
        refine ⟨m, at_m, current, same.trans at_key, status, ?_⟩
        dsimp only
        rw [found, Option.bind_some]
        exact sent
      · exact told row at_row at_wallet n notified
    · change w.flight = some start at is
      rw [resting.flight] at is
      cases is

/-- A market without debt forgets what was told of it. -/
theorem Inv.forget (h : Inv x l w) (resting : Resting w)
    (none_left : ∀ job ∈ w.outbox, ∀ sub status, job.body ≠ .risk sub key status) :
    Inv x l (Alerts.forget key status w) := by
  have rows : ∀ row ∈ Table.upsert RiskRow.key ⟨key, status, none, none⟩ w.risk,
      row = ⟨key, status, none, none⟩ ∨ row ∈ w.risk ∧ row.key ≠ key :=
    fun row mem => Table.mem_of_mem_upsert mem
  have grows : ∀ k, w.episodes k ≤ Function.update w.episodes key (w.episodes key + 1) k := by
    intro k
    by_cases same : k = key
    · rw [same, Function.update_self]
      exact Nat.le_succ _
    · rw [Function.update_of_ne same]
  -- what was sent before is of another episode
  have other : ∀ start : Start, start.episode ≤ w.episodes start.key →
      start.episode = Function.update w.episodes key (w.episodes key + 1) start.key →
      start.key ≠ key ∧ start.episode = w.episodes start.key := by
    intro start aged same
    by_cases at_key : start.key = key
    · rw [at_key, Function.update_self] at same
      rw [at_key] at aged
      omega
    · rw [Function.update_of_ne at_key] at same
      exact ⟨at_key, same⟩
  refine ⟨h.subscriptions, h.jobs, Table.keys_upsert h.rows, h.consented, h.addressed,
    fun job mem sub key' status' body => ?_, h.confirms, h.apart, h.pass, h.kept, h.wallets,
    fun m mem => ?_, fun m mem current => ?_, h.spaced, fun row at_row τ sent => ?_,
    fun start is => ?_, fun calm => ?_, fun wallet is => ?_⟩
  · obtain ⟨wallet, named, severity, expires, same, allowed⟩ := h.fits job mem sub key' status' body
    refine ⟨wallet, named, severity, expires, fun row at_row at_key => ?_,
      fun m at_m current => allowed m at_m ⟨current.1, current.2.1,
        (other m.start (h.ages m at_m).2.1 current.2.2).2⟩⟩
    rcases rows row at_row with rfl | ⟨at_row, -⟩
    · subst at_key
      rcases mem with mem | mem
      · exact absurd body (none_left job mem sub status')
      · change job ∈ w.pass at mem
        rw [resting.pass] at mem
        cases mem
    · exact same row at_row at_key
  · obtain ⟨life, episode, time⟩ := h.ages m mem
    exact ⟨life, episode.trans (grows _), time⟩
  · obtain ⟨differs, episode⟩ := other m.start (h.ages m mem).2.1 current.2.2
    obtain ⟨row, at_row, at_key, rest⟩ := h.recorded m mem ⟨current.1, current.2.1, episode⟩
    exact ⟨row, Table.mem_upsert_of_ne at_row fun eq => differs (at_key.symm.trans eq), at_key, rest⟩
  · rcases rows row at_row with rfl | ⟨at_row, -⟩
    · cases sent
    · exact h.told row at_row τ sent
  · change w.flight = some start at is
    rw [resting.flight] at is
    cases is
  · exact ⟨(h.calm calm).consents, (h.calm calm).queued, (h.calm calm).flight⟩
  · obtain ⟨one, told, -⟩ := h.single wallet is
    refine ⟨one, fun row at_row at_wallet n notified => ?_, fun start is => ?_⟩
    · rcases rows row at_row with rfl | ⟨at_row, differs⟩
      · cases notified
      · obtain ⟨m, at_m, ⟨live, life, episode⟩, same, rest⟩ := told row at_row at_wallet n notified
        refine ⟨m, at_m, ⟨live, life, ?_⟩, same, rest⟩
        change _ = Function.update w.episodes key _ m.start.key
        rw [Function.update_of_ne (same ▸ differs)]
        exact episode
    · change w.flight = some start at is
      rw [resting.flight] at is
      cases is

/-! ### Warnings -/

variable (ordered : Monotone x.times)

/-- The subscription has a warning of the status in the outbox. -/
def Warned (w : World) (key : RiskKey) (status : Status) (sub : SubId) : Prop :=
  ∃ job ∈ w.outbox, job.body = .risk sub key status

/-- The subscriptions of the market may be warned of the status. -/
structure Room (x : Engine) (w : World) (key : RiskKey) (status : Status) : Prop where
  severity : riskSeverity status ≠ 0
  row : ∀ row ∈ w.risk, row.key = key → row.status = status
  room : ∀ m ∈ w.messages, Current w m.start → m.start.key = key →
    m.time + hour ≤ x.now w ∨ riskSeverity m.start.status < riskSeverity status

include ordered in
theorem Room.only (h : Room x w key status) (only : Only w w') : Room x w' key status := by
  refine ⟨h.severity, ?_, fun m mem current at_key => ?_⟩
  · rw [only.risk]
    exact h.row
  · rw [only.messages] at mem
    refine (h.room m mem (only.current.mp current) at_key).imp_left fun early => ?_
    exact early.trans (ordered only.reads)

/-- A new warning of a subscription that has none. -/
theorem Inv.putWarning (h : Inv x l w) (resting : Resting w) (live : Live w sub)
    (absent : ∀ job ∈ w.outbox, ∀ status', job.body ≠ .risk sub key status') {job : Job}
    (body : job.body = .risk sub key status) (fits : Fits x w job sub key status) :
    Inv x l (Alerts.putJob job w) ∧ (∀ old ∈ w.outbox, old ∈ (Alerts.putJob job w).outbox) ∧
      job ∈ (Alerts.putJob job w).outbox := by
  have fresh : ∀ old ∈ w.outbox, old.id ≠ job.id := by
    intro old mem same
    obtain ⟨time, name⟩ := fits.named
    cases body' : old.body with
    | verify sub' contact pending =>
      have name' := h.confirms old (.inl mem) sub' contact pending body'
      rw [same, name] at name'
      cases name'
    | risk sub' key' status' =>
      obtain ⟨time', name'⟩ := (h.fits old (.inl mem) sub' key' status' body').named
      rw [same, name] at name'
      cases name'
      exact absent old mem status' body'
  have outbox : (Alerts.putJob job w).outbox = w.outbox ++ [job] := Table.upsert_new fresh
  have cases_of : ∀ other, other ∈ (Alerts.putJob job w).outbox ∨ other ∈ (Alerts.putJob job w).pass →
      other ∈ w.outbox ∨ other = job := by
    rintro other (mem | mem)
    · rw [outbox] at mem
      exact (List.mem_append.mp mem).imp_right List.mem_singleton.mp
    · change other ∈ w.pass at mem
      rw [resting.pass] at mem
      cases mem
  refine ⟨⟨h.subscriptions, ?_, h.rows, h.consented, fun other mem sub' is => ?_,
    fun other mem sub' key' status' body' => ?_, fun other mem sub' contact pending body' => ?_,
    fun other mem other' mem' sub' key' status' status'' body' body'' => ?_, h.pass,
    fun other mem => ?_, h.wallets, h.ages, h.recorded, h.spaced, h.told, fun start is => ?_,
    fun calm => ?_, fun wallet is => ?_⟩, ?_, ?_⟩
  · rw [outbox, List.map_append]
    refine List.nodup_append.mpr ⟨h.jobs, List.nodup_singleton _, fun name mem name' mem' => ?_⟩
    obtain ⟨old, at_old, rfl⟩ := List.mem_map.mp mem
    rw [List.mem_singleton.mp mem']
    exact fresh old at_old
  · rcases cases_of other (.inl mem) with mem | rfl
    · exact h.addressed other mem sub' is
    · rw [Job.subId, body] at is
      cases is
      exact live
  · rcases cases_of other mem with mem | rfl
    · have old := h.fits other (.inl mem) sub' key' status' body'
      exact ⟨old.wallet, old.named, old.severity, old.expires, old.same, old.allowed⟩
    · cases body.symm.trans body'
      exact ⟨fits.wallet, fits.named, fits.severity, fits.expires, fits.same, fits.allowed⟩
  · rcases cases_of other mem with mem | rfl
    · exact h.confirms other (.inl mem) sub' contact pending body'
    · cases body.symm.trans body'
  · rcases cases_of other mem with old | is_job
    · rcases cases_of other' mem' with old' | is_job'
      · exact h.apart other (.inl old) other' (.inl old') sub' key' status' status'' body' body''
      · cases body.symm.trans (is_job' ▸ body'')
        exact absurd body' (absent other old status')
    · rcases cases_of other' mem' with old' | is_job'
      · cases body.symm.trans (is_job ▸ body')
        exact absurd body'' (absent other' old' status'')
      · rw [is_job, is_job']
  · change other ∈ w.pass at mem
    rw [resting.pass] at mem
    cases mem
  · change w.flight = some start at is
    rw [resting.flight] at is
    cases is
  · refine ⟨(h.calm calm).consents, fun other mem => ?_, (h.calm calm).flight⟩
    change other ∈ w.pass at mem
    rw [resting.pass] at mem
    cases mem
  · obtain ⟨one, told, flight⟩ := h.single wallet is
    exact ⟨one, told, flight⟩
  · rw [outbox]
    exact fun old mem => List.mem_append_left _ mem
  · rw [outbox]
    exact List.mem_append_right _ (List.mem_singleton_self job)

/-- What the warnings lead to. -/
structure Warns (x : Engine) (l : Limits) (key : RiskKey) (status : Status) (w w' : World) : Prop where
  inv : Inv x l w'
  only : Only w w'
  kept : ∀ sub, Warned w key status sub → Warned w' key status sub

include ordered in
theorem notifyOne_warns (h : Inv x l w) (resting : Resting w) (room : Room x w key status)
    (live : Live w sub) (wallet : sub.wallet = key.wallet) {text : String} {time : ℕ} :
    Warns x l key status w (notifyOne x key status text time w sub) ∧
      Warned (notifyOne x key status text time w sub) key status sub := by
  let cleared := deleteJobs (fun job => job.warns key && job.belongsTo sub) w
  have inv : Inv x l cleared.tick.tick := ((h.deleteJobs_resting resting _).tick ordered).tick ordered
  have only : Only w cleared.tick.tick :=
    ⟨Nat.le_add_right _ 2, rfl, rfl, rfl, rfl, rfl, rfl, rfl, rfl⟩
  have absent : ∀ job ∈ cleared.outbox, ∀ status', job.body ≠ .risk sub key status' := by
    intro job mem status' body
    obtain ⟨-, other⟩ := List.mem_filter.mp mem
    simp [Job.warns, Job.belongsTo, body] at other
  have unnamed : (cleared.tick.outbox.any (·.id = .risk sub key time)) = false := by
    refine List.any_eq_false.mpr fun job mem same => ?_
    have name : job.id = .risk sub key time := of_decide_eq_true same
    cases body : job.body with
    | verify sub' contact pending =>
      have name' := inv.confirms job (.inl mem) sub' contact pending body
      rw [name] at name'
      cases name'
    | risk sub' key' status' =>
      obtain ⟨time', name'⟩ := (inv.fits job (.inl mem) sub' key' status' body).named
      rw [name] at name'
      cases name'
      exact absent job mem status' body
  have result : notifyOne x key status text time w sub =
      putJob ⟨.risk sub key time, .risk sub key status, text, 0, x.now cleared.tick,
        x.now cleared + hour⟩ cleared.tick.tick := by
    change enqueue x _ _ _ _ cleared.tick = _
    rw [enqueue, unnamed]
    rfl
  have began : x.now w ≤ x.now cleared := le_rfl
  have passed : x.now cleared ≤ x.now cleared.tick.tick := ordered (Nat.le_add_right _ 2)
  have fits : Fits x cleared.tick.tick ⟨.risk sub key time, .risk sub key status, text, 0,
      x.now cleared.tick, x.now cleared + hour⟩ sub key status := by
    refine ⟨wallet, ⟨time, rfl⟩, room.severity, Nat.add_le_add_right passed hour, room.row,
      fun m mem current at_key => ?_⟩
    rcases room.room m mem (only.current.mp current) at_key with before | below
    · exact .inl (by dsimp only; omega)
    · exact .inr ⟨below.le, fun _ => below⟩
  obtain ⟨put, kept, there⟩ := inv.putWarning (resting.only only) live absent rfl fits
  rw [result]
  refine ⟨⟨put, only.trans ⟨le_rfl, rfl, rfl, rfl, rfl, rfl, rfl, rfl, rfl⟩, ?_⟩, _, there, rfl⟩
  rintro other ⟨job, mem, body⟩
  by_cases same : other = sub
  · exact ⟨_, there, by rw [same]⟩
  · refine ⟨job, kept job (List.mem_filter.mpr ⟨mem, ?_⟩), body⟩
    simp [Job.belongsTo, body, same]

theorem Warns.refl (h : Inv x l w) : Warns x l key status w w := ⟨h, .refl w, fun _ warned => warned⟩

theorem Warns.trans (h : Warns x l key status w w') (h' : Warns x l key status w' u) :
    Warns x l key status w u :=
  ⟨h'.inv, h.only.trans h'.only, fun sub warned => h'.kept sub (h.kept sub warned)⟩

include ordered in
/-- Each of the subscriptions is warned. -/
theorem notifyAll_warns (h : Inv x l w) (resting : Resting w) (room : Room x w key status)
    {text : String} {time : ℕ} (rows : List Subscription)
    (there : ∀ row ∈ rows, Live w row.id ∧ row.id.wallet = key.wallet) :
    Warns x l key status w
        (rows.foldl (fun w row => notifyOne x key status text time w row.id) w) ∧
      ∀ row ∈ rows,
        Warned (rows.foldl (fun w row => notifyOne x key status text time w row.id) w) key status
          row.id := by
  induction rows generalizing w with
  | nil => exact ⟨.refl h, nofun⟩
  | cons row rows ih =>
    obtain ⟨head, tail⟩ := List.forall_mem_cons.mp there
    have one : Warns x l key status w (notifyOne x key status text time w row.id) ∧
        Warned (notifyOne x key status text time w row.id) key status row.id :=
      notifyOne_warns ordered h resting room head.1 head.2
    obtain ⟨first, warned⟩ := one
    have still : ∀ row' ∈ rows, Live (notifyOne x key status text time w row.id) row'.id ∧
        row'.id.wallet = key.wallet := by
      intro row' mem
      rw [Live, first.only.subscriptions]
      exact tail row' mem
    obtain ⟨rest, others⟩ := ih first.inv (resting.only first.only) (room.only ordered first.only)
      still
    exact ⟨first.trans rest, List.forall_mem_cons.mpr ⟨rest.kept _ warned, others⟩⟩

include ordered in
/-- The subscriptions of the wallet are warned. -/
theorem warn_warns (h : Inv x l w) (resting : Resting w) {health : Health}
    (room : Room x w key health.status) :
    Warns x l key health.status w (warn x key health w) ∧
      ∀ row ∈ w.subscriptions, row.id.wallet = key.wallet →
        Warned (warn x key health w) key health.status row.id := by
  have only : Only w w.tick := ⟨Nat.le_succ _, rfl, rfl, rfl, rfl, rfl, rfl, rfl, rfl⟩
  obtain ⟨warns, each⟩ := notifyAll_warns ordered (h.tick ordered) (resting.only only)
    (room.only ordered only) (w.tick.subscriptions.filter (·.id.wallet = key.wallet)) fun row mem => by
      obtain ⟨mem, same⟩ := List.mem_filter.mp mem
      exact ⟨⟨row, mem, rfl⟩, of_decide_eq_true same⟩
  refine ⟨⟨warns.inv, only.trans warns.only, warns.kept⟩, fun row mem same => ?_⟩
  exact each row (List.mem_filter.mpr ⟨mem, decide_eq_true same⟩)

/-! ### Observations -/

/-- The subscription has a warning of the status, or was told it less than an hour ago. -/
def Alerted (w : World) (o : Observation) (sub : SubId) : Prop :=
  Warned w o.key o.status sub ∨
    ∃ m ∈ w.messages, m.start.sub = sub ∧ Current w m.start ∧ m.start.key = o.key ∧
      riskSeverity o.status ≤ riskSeverity m.start.status ∧ o.time < m.time + hour

/-- What an observation changes. -/
structure Observes (x : Engine) (l : Limits) (w w' : World) : Prop where
  inv : Inv x l w'
  subscriptions : w'.subscriptions = w.subscriptions
  pass : w'.pass = w.pass
  flight : w'.flight = w.flight
  starts : w'.starts = w.starts

theorem Job.warns_iff {job : Job} :
    job.warns key = true ↔ ∃ sub status, job.body = .risk sub key status := by
  unfold Job.warns
  cases body : job.body with
  | verify sub contact pending => simp
  | risk sub k status => simp [eq_comm]

theorem notAtRisk_observes (h : Inv x l w) (resting : Resting w) :
    Observes x l w (notAtRisk key status (w.riskRow key) w) := by
  have inv := h.deleteJobs_resting resting (·.warns key)
  have none_left : ∀ job ∈ (deleteJobs (·.warns key) w).outbox, ∀ sub status,
      job.body ≠ .risk sub key status := by
    intro job mem sub status body
    obtain ⟨-, other⟩ := List.mem_filter.mp mem
    have warns : job.warns key = true := Job.warns_iff.mpr ⟨sub, status, body⟩
    simp [warns] at other
  have still : Resting (deleteJobs (·.warns key) w) := ⟨resting.pass, resting.flight⟩
  unfold notAtRisk
  dsimp only
  split
  · exact ⟨inv.forget still none_left, rfl, rfl, rfl, rfl⟩
  · exact ⟨inv.putRisk still fun job mem sub status' body => absurd body (none_left job mem sub status'),
      rfl, rfl, rfl, rfl⟩

/-- The state of the outbox and of the row when the warnings are decided on. -/
def noted (key : RiskKey) (status : Status) (w : World) : World :=
  putRisk ⟨key, status, (w.riskRow key).bind RiskRow.notifiedStatus,
    (w.riskRow key).bind RiskRow.sent⟩
    (if (w.riskRow key).map RiskRow.status = some status then w
    else deleteJobs (fun job => job.warns key && job.riskStatus != some status) w)

/-- The warnings of the market that are left tell the status. -/
theorem noted_observes (h : Inv x l w) (resting : Resting w) :
    Observes x l w (noted key status w) ∧
      (∀ job ∈ (noted key status w).outbox, ∀ sub status', job.body = .risk sub key status' →
        status' = status) := by
  unfold noted
  split
  · rename_i same
    obtain ⟨row, found, is⟩ := Option.map_eq_some_iff.mp same
    obtain ⟨at_row, at_key⟩ := (riskRow_eq_some h).mp found
    have told : ∀ job ∈ w.outbox, ∀ sub status', job.body = .risk sub key status' →
        status' = status := fun job mem sub status' body =>
      ((h.fits job (.inl mem) sub key status' body).same row at_row at_key).symm.trans is
    exact ⟨⟨h.putRisk resting told, rfl, rfl, rfl, rfl⟩, told⟩
  · have still : Resting (deleteJobs (fun job => job.warns key && job.riskStatus != some status) w) :=
      ⟨resting.pass, resting.flight⟩
    have told : ∀ job ∈ (deleteJobs (fun job => job.warns key && job.riskStatus != some status)
        w).outbox, ∀ sub status', job.body = .risk sub key status' → status' = status := by
      intro job mem sub status' body
      obtain ⟨-, other⟩ := List.mem_filter.mp mem
      simpa [Job.warns, Job.riskStatus, body] using other
    exact ⟨⟨(h.deleteJobs_resting resting _).putRisk still told, rfl, rfl, rfl, rfl⟩, told⟩

theorem noted_reads (key : RiskKey) (status : Status) (w : World) :
    (noted key status w).reads = w.reads := by
  unfold noted
  split
  · rfl
  · rfl

theorem atRisk_eq (x : Engine) (key : RiskKey) (health : Health) (w : World) :
    atRisk x key health (w.riskRow key) w =
      if (noted key health.status w).outbox.any fun job =>
        job.warns key && job.riskStatus == some health.status then noted key health.status w
      else
        match (w.riskRow key).bind RiskRow.notifiedStatus with
        | none => warn x key health (noted key health.status w)
        | some notified =>
          if riskSeverity notified < riskSeverity health.status then
            warn x key health (noted key health.status w)
          else if hour ≤ x.now (noted key health.status w) -
              ((w.riskRow key).bind RiskRow.sent).getD 0 then
            warn x key health (noted key health.status w).tick
          else (noted key health.status w).tick :=
  rfl

/-- The row of the market after it was noted. -/
theorem riskRow_noted (h : Inv x l (noted key status w)) {row : RiskRow}
    (mem : row ∈ (noted key status w).risk) (at_key : row.key = key) :
    row = ⟨key, status, (w.riskRow key).bind RiskRow.notifiedStatus,
      (w.riskRow key).bind RiskRow.sent⟩ :=
  Table.eq_of_key h.rows mem (Table.mem_upsert_self _ _) at_key

include ordered in
theorem Observes.warn (h : Observes x l w w') (resting : Resting w) {health : Health}
    (room : Room x w' key health.status) :
    Observes x l w (warn x key health w') ∧
      ∀ row ∈ w.subscriptions, row.id.wallet = key.wallet →
        Warned (Alerts.warn x key health w') key health.status row.id := by
  have still : Resting w' := ⟨h.pass.trans resting.pass, h.flight.trans resting.flight⟩
  obtain ⟨⟨inv, only, -⟩, each⟩ := warn_warns ordered h.inv still room
  refine ⟨⟨inv, only.subscriptions.trans h.subscriptions, only.pass.trans h.pass,
    only.flight.trans h.flight, only.starts.trans h.starts⟩, fun row mem wallet => ?_⟩
  exact each row (h.subscriptions.symm ▸ mem) wallet

include ordered in
theorem Observes.tick (h : Observes x l w w') : Observes x l w w'.tick :=
  ⟨h.inv.tick ordered, h.subscriptions, h.pass, h.flight, h.starts⟩

include ordered in
/-- The markets at risk, and whom they alert. -/
theorem atRisk_observes (h : Inv x l w) (resting : Resting w) {health : Health}
    (severity : riskSeverity health.status ≠ 0) :
    Observes x l w (atRisk x key health (w.riskRow key) w) ∧
      (l.single = some key.wallet → ∀ row ∈ w.subscriptions, row.id.wallet = key.wallet →
        Alerted (atRisk x key health (w.riskRow key) w) ⟨key, health.status, x.now w⟩ row.id) := by
  have spec : Observes x l w (noted key health.status w) ∧
      (∀ job ∈ (noted key health.status w).outbox, ∀ sub status', job.body = .risk sub key status' →
        status' = health.status) := noted_observes h resting
  obtain ⟨first, told⟩ := spec
  have inv := first.inv
  have now : x.now (noted key health.status w) = x.now w := congrArg x.times (noted_reads ..)
  have rows : ∀ row ∈ (noted key health.status w).risk, row.key = key → row.status = health.status :=
    fun row mem at_key => by rw [riskRow_noted inv mem at_key]
  -- what the history of the market says of a message
  have history : ∀ m ∈ (noted key health.status w).messages,
      Current (noted key health.status w) m.start → m.start.key = key →
      ∃ n τ, (w.riskRow key).bind RiskRow.notifiedStatus = some n ∧
        (w.riskRow key).bind RiskRow.sent = some τ ∧ m.time ≤ τ ∧ τ ≤ x.now w ∧
        (m.time + hour ≤ τ ∨ riskSeverity m.start.status ≤ riskSeverity n) := by
    intro m mem current at_key
    obtain ⟨row, at_row, same, n, τ, notified, sent, early, told⟩ := inv.recorded m mem current
    have is := riskRow_noted inv at_row (same.trans at_key)
    have passed := inv.told row at_row τ sent
    subst is
    exact ⟨n, τ, notified, sent, early, now ▸ passed, told⟩
  rw [atRisk_eq]
  split
  · rename_i queued
    refine ⟨first, fun single row mem wallet => .inl ?_⟩
    obtain ⟨job, at_job, is⟩ := List.any_eq_true.mp queued
    obtain ⟨warns, -⟩ := Bool.and_eq_true_iff.mp is
    obtain ⟨sub, status', body⟩ := Job.warns_iff.mp warns
    obtain rfl := told job at_job sub status' body
    obtain ⟨other, at_other, rfl⟩ := inv.addressed job at_job sub (by rw [Job.subId, body])
    have same := (inv.single _ single).one other at_other row (first.subscriptions.symm ▸ mem)
      (inv.fits job (.inl at_job) _ _ _ body).wallet wallet
    exact ⟨job, at_job, same ▸ body⟩
  · split
    · rename_i none_told
      have room : Room x (noted key health.status w) key health.status :=
        ⟨severity, rows, fun m mem current at_key => by
          obtain ⟨n, τ, notified, -⟩ := history m mem current at_key
          cases none_told.symm.trans notified⟩
      obtain ⟨warns, each⟩ := first.warn ordered resting room
      exact ⟨warns, fun _ row mem wallet => .inl (each row mem wallet)⟩
    · rename_i n₀ before
      split
      · rename_i rises
        have room : Room x (noted key health.status w) key health.status := by
          refine ⟨severity, rows, fun m mem current at_key => ?_⟩
          obtain ⟨n, τ, notified, -, early, passed, told⟩ := history m mem current at_key
          obtain rfl := Option.some.inj (before.symm.trans notified)
          rw [now]
          rcases told with long | low
          · exact .inl (long.trans passed)
          · exact .inr (low.trans_lt rises)
        obtain ⟨warns, each⟩ := first.warn ordered resting room
        exact ⟨warns, fun _ row mem wallet => .inl (each row mem wallet)⟩
      · rename_i falls
        split
        · rename_i long
          have room : Room x (noted key health.status w).tick key health.status := by
            refine ⟨severity, rows, fun m mem current at_key => .inl ?_⟩
            obtain ⟨n, τ, notified, sent, early, passed, told⟩ := history m mem current at_key
            rw [now, sent, Option.getD_some] at long
            have later : x.now (noted key health.status w) ≤ x.now (noted key health.status w).tick :=
              ordered (Nat.le_succ _)
            have positive : 0 < hour := by decide
            omega
          obtain ⟨warns, each⟩ := (first.tick ordered).warn ordered resting room
          exact ⟨warns, fun _ row mem wallet => .inl (each row mem wallet)⟩
        · rename_i short
          refine ⟨first.tick ordered, fun single row mem wallet => .inr ?_⟩
          have found : (⟨key, health.status, (w.riskRow key).bind RiskRow.notifiedStatus,
              (w.riskRow key).bind RiskRow.sent⟩ : RiskRow) ∈ (noted key health.status w).risk :=
            Table.mem_upsert_self _ _
          obtain ⟨m, at_m, current, at_key, is, sent⟩ :=
            (inv.single _ single).told _ found rfl n₀ before
          obtain ⟨other, at_other, is_other⟩ := current.1
          have same := (inv.single _ single).one other at_other row (first.subscriptions.symm ▸ mem)
            (is_other ▸ (inv.wallets m at_m).trans (congrArg _ at_key)) wallet
          refine ⟨m, at_m, is_other.symm.trans same, current, at_key, ?_, ?_⟩
          · rw [is]
            exact Nat.le_of_not_lt falls
          · dsimp only at sent
            rw [now, sent, Option.getD_some] at short
            dsimp only
            omega

include ordered in
theorem Observes.log (h : Observes x l w w') (observed : List Observation) :
    Observes x l w { w' with observed := observed } :=
  ⟨h.inv.of_same ordered ⟨le_rfl, rfl, rfl, rfl, rfl, rfl, rfl, rfl, rfl, rfl⟩, h.subscriptions,
    h.pass, h.flight, h.starts⟩

include ordered in
/-- An observation keeps the invariant. Where the market is at risk, and its wallet has one channel at
a time, every subscription of the wallet is alerted. -/
theorem risk_observes (h : Inv x l w) (resting : Resting w) {health : Health} :
    Observes x l w (risk x key health w) ∧
      ∀ o ∈ (risk x key health w).observed, o ∈ w.observed ∨
        (riskSeverity o.status ≠ 0 → l.single = some o.key.wallet →
          ∀ row ∈ (risk x key health w).subscriptions, row.id.wallet = o.key.wallet →
            Alerted (risk x key health w) o row.id) := by
  unfold risk
  split
  · dsimp only
    split
    · rename_i calm
      have kept : Observes x l w (notAtRisk key health.status (w.riskRow key) w) :=
        notAtRisk_observes h resting
      refine ⟨kept.log ordered _, fun o mem => (List.mem_append.mp mem).imp_right fun last => ?_⟩
      rw [List.mem_singleton.mp last]
      exact fun severity => absurd calm severity
    · rename_i severity
      obtain ⟨kept, alerted⟩ := atRisk_observes ordered h resting severity
      refine ⟨kept.log ordered _, fun o mem => (List.mem_append.mp mem).imp_right fun last => ?_⟩
      rw [List.mem_singleton.mp last]
      exact fun _ single row at_row wallet =>
        alerted single row (kept.subscriptions ▸ at_row) wallet
  · exact ⟨⟨h, rfl, rfl, rfl, rfl⟩, fun o mem => .inl mem⟩

end Turret.Alerts
