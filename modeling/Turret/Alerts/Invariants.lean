import Turret.Alerts.Delivery

/-! What every state of the alerts keeps. Two parts hold only where the requests keep to
a condition: `calm`, that no subscription is activated while the pass has a warning to it
left, and `single`, that a wallet has one channel at a time. -/

namespace Turret.Alerts

variable {x : Engine} {w w' : World}

/-- The subscription that a warning is for. -/
def Job.subId (job : Job) : Option SubId :=
  match job.body with
  | .verify _ _ _ => none
  | .risk sub _ _ => some sub

def Live (w : World) (id : SubId) : Prop := ∃ row ∈ w.subscriptions, row.id = id

/-- The subscription still stands that the warning went to, and the debt too. -/
def Current (w : World) (start : Start) : Prop :=
  Live w start.sub ∧ start.life = w.lives start.sub ∧ start.episode = w.episodes start.key

/-- The severity rises from the first to the second, or an hour passes between them. -/
def Spaced (m m' : Message) : Prop :=
  m.start.sub = m'.start.sub → m.start.life = m'.start.life → m.start.key = m'.start.key →
    m.start.episode = m'.start.episode →
    m.time + hour ≤ m'.start.time ∨ riskSeverity m.start.status < riskSeverity m'.start.status

/-- A message leaves room for a warning of this status that expires then. -/
def Allows (m : Message) (sub : SubId) (status : Status) (expires : ℕ) : Prop :=
  m.time + 2 * hour ≤ expires ∨
    riskSeverity m.start.status ≤ riskSeverity status ∧
      (m.start.sub = sub → riskSeverity m.start.status < riskSeverity status)

/-- What is known of a warning. -/
structure Fits (x : Engine) (w : World) (job : Job) (sub : SubId) (key : RiskKey) (status : Status) :
    Prop where
  wallet : sub.wallet = key.wallet
  named : ∃ time, job.id = .risk sub key time
  severity : riskSeverity status ≠ 0
  expires : job.expires ≤ x.now w + hour
  same : ∀ row ∈ w.risk, row.key = key → row.status = status
  allowed : ∀ m ∈ w.messages, Current w m.start → m.start.key = key →
    Allows m sub status job.expires

/-- A warning that is told. -/
def Recorded (w : World) (m : Message) : Prop :=
  ∃ row ∈ w.risk, row.key = m.start.key ∧ ∃ n τ, row.notifiedStatus = some n ∧ row.sent = some τ ∧
    m.time ≤ τ ∧ (m.time + hour ≤ τ ∨ riskSeverity m.start.status ≤ riskSeverity n)

/-- What is known of the warning that is on its way. -/
structure Flying (w : World) (start : Start) : Prop where
  head : ∃ rest, w.pass = start.job :: rest
  body : start.job.body = .risk start.sub start.key start.status
  life : start.life ≤ w.lives start.sub
  episode : start.episode = w.episodes start.key
  row : Live w start.sub → start.life = w.lives start.sub → ∃ row ∈ w.risk, row.key = start.key
  spaced : ∀ m ∈ w.messages, Spaced m ⟨start, 0⟩

structure Calm (w : World) : Prop where
  consents : ∀ row ∈ w.subscriptions, w.consents row.id = some row.consent
  queued : ∀ job ∈ w.pass, ∀ sub, job.subId = some sub → Live w sub →
    ∃ job' ∈ w.outbox, job'.id = job.id
  flight : ∀ start, w.flight = some start → Live w start.sub →
    w.consents start.sub = some start.consent

structure Single (wallet : Wallet) (w : World) : Prop where
  one : ∀ row ∈ w.subscriptions, ∀ row' ∈ w.subscriptions, row.id.wallet = wallet →
    row'.id.wallet = wallet → row.id = row'.id
  told : ∀ row ∈ w.risk, row.key.wallet = wallet → ∀ n, row.notifiedStatus = some n →
    ∃ m ∈ w.messages, Current w m.start ∧ m.start.key = row.key ∧ m.start.status = n ∧
      row.sent = some m.time
  flight : ∀ start, w.flight = some start → start.key.wallet = wallet →
    (∃ row ∈ w.risk, row.key = start.key) → Live w start.sub ∧ start.life = w.lives start.sub

/-- What the requests keep to. -/
structure Limits where
  calm : Bool
  single : Option Wallet

structure Inv (x : Engine) (l : Limits) (w : World) : Prop where
  subscriptions : (w.subscriptions.map Subscription.id).Nodup
  jobs : (w.outbox.map Job.id).Nodup
  rows : (w.risk.map RiskRow.key).Nodup
  consented : ∀ row ∈ w.subscriptions, (w.consents row.id).isSome
  addressed : ∀ job ∈ w.outbox, ∀ sub, job.subId = some sub → Live w sub
  fits : ∀ job, job ∈ w.outbox ∨ job ∈ w.pass → ∀ sub key status, job.body = .risk sub key status →
    Fits x w job sub key status
  confirms : ∀ job, job ∈ w.outbox ∨ job ∈ w.pass → ∀ sub contact pending,
    job.body = .verify sub contact pending → job.id = .verify pending
  /-- A subscription has one warning for a market. -/
  apart : ∀ job, job ∈ w.outbox ∨ job ∈ w.pass → ∀ job', job' ∈ w.outbox ∨ job' ∈ w.pass →
    ∀ sub key status status', job.body = .risk sub key status →
      job'.body = .risk sub key status' → job'.id = job.id
  pass : (w.pass.map Job.id).Nodup
  kept : ∀ job ∈ w.pass, ∀ sub key status, job.body = .risk sub key status →
    ∀ job' ∈ w.outbox, job'.id = job.id → job'.body = job.body ∧ job'.expires = job.expires
  wallets : ∀ m ∈ w.messages, m.start.sub.wallet = m.start.key.wallet
  ages : ∀ m ∈ w.messages, m.start.life ≤ w.lives m.start.sub ∧
    m.start.episode ≤ w.episodes m.start.key ∧ m.time ≤ x.now w
  recorded : ∀ m ∈ w.messages, Current w m.start → Recorded w m
  spaced : w.messages.Pairwise Spaced
  told : ∀ row ∈ w.risk, ∀ τ, row.sent = some τ → τ ≤ x.now w
  flight : ∀ start, w.flight = some start → Flying w start
  calm : l.calm = true → Calm w
  single : ∀ wallet, l.single = some wallet → Single wallet w

/-- The request keeps to the limits. -/
def Admits (x : Engine) (l : Limits) (w : World) (e : Event) : Prop :=
  ∀ sub, activated x w e = some sub →
    (l.calm = true → ∀ job ∈ w.pass, job.subId ≠ some sub) ∧
    ∀ wallet, l.single = some wallet → sub.wallet = wallet →
      ∀ row ∈ w.subscriptions, row.id.wallet = wallet → row.id = sub

/-! ### Small changes -/

/-- What the invariant does not look at may change, and the clock may go on. -/
structure Same (w w' : World) : Prop where
  reads : w.reads ≤ w'.reads
  subscriptions : w'.subscriptions = w.subscriptions
  outbox : w'.outbox = w.outbox
  risk : w'.risk = w.risk
  consents : w'.consents = w.consents
  lives : w'.lives = w.lives
  episodes : w'.episodes = w.episodes
  pass : w'.pass = w.pass
  flight : w'.flight = w.flight
  messages : w'.messages = w.messages

variable {l : Limits} (ordered : Monotone x.times)

include ordered in
theorem Inv.of_same (h : Inv x l w) (same : Same w w') : Inv x l w' := by
  cases w with
  | mk reads subscriptions pending outbox risk rate consents lives episodes pass flight starts
      messages observed =>
  cases w' with
  | mk reads' subscriptions' pending' outbox' risk' rate' consents' lives' episodes' pass' flight'
      starts' messages' observed' =>
  obtain ⟨later, rfl, rfl, rfl, rfl, rfl, rfl, rfl, rfl, rfl⟩ := same
  have passed : x.times reads ≤ x.times reads' := ordered later
  refine ⟨h.subscriptions, h.jobs, h.rows, h.consented, h.addressed,
    fun job mem sub key status body => ?_, h.confirms, h.apart, h.pass, h.kept, h.wallets, fun m mem => ?_,
    h.recorded, h.spaced, fun row mem τ sent => (h.told row mem τ sent).trans passed,
    fun start is => ?_, fun calm => ?_, fun wallet is => ?_⟩
  · obtain ⟨wallet, named, severity, expires, same, allowed⟩ := h.fits job mem sub key status body
    exact ⟨wallet, named, severity, expires.trans (Nat.add_le_add_right passed _), same, allowed⟩
  · obtain ⟨life, episode, time⟩ := h.ages m mem
    exact ⟨life, episode, time.trans passed⟩
  · obtain ⟨head, body, life, episode, row, spaced⟩ := h.flight start is
    exact ⟨head, body, life, episode, row, spaced⟩
  · obtain ⟨consents, queued, flight⟩ := h.calm calm
    exact ⟨consents, queued, flight⟩
  · obtain ⟨one, told, flight⟩ := h.single wallet is
    exact ⟨one, told, flight⟩

/-- The job confirms an address, and is named so. -/
def Job.Confirms (job : Job) : Prop :=
  ∃ sub contact pending, job.body = .verify sub contact pending ∧ job.id = .verify pending

/-- The job is in the outbox, maybe with other times of its next attempt. -/
def Queued (w : World) (job : Job) : Prop :=
  ∃ old ∈ w.outbox, old.id = job.id ∧ old.body = job.body ∧ old.expires = job.expires

/-- The warnings of the new outbox are of the old one, and the pass may have ended some. -/
theorem Inv.setQueue (h : Inv x l w) {outbox pass : List Job} {flight : Option Start}
    (jobs : (outbox.map Job.id).Nodup)
    (old : ∀ job ∈ outbox, job.Confirms ∨ Queued w job)
    (rest : pass.Sublist w.pass) (flying : flight = none ∨ flight = w.flight ∧ pass = w.pass)
    (queued : l.calm = true → ∀ job ∈ pass, ∀ sub, job.subId = some sub → Live w sub →
      ∃ job' ∈ outbox, job'.id = job.id) :
    Inv x l { w with outbox := outbox, pass := pass, flight := flight } := by
  have warning : ∀ {job : Job}, job ∈ outbox → ∀ {sub key status},
      job.body = .risk sub key status → Queued w job := by
    intro job mem sub key status body
    rcases old job mem with ⟨_, _, _, confirms, -⟩ | queued
    · rw [body] at confirms
      cases confirms
    · exact queued
  have earlier : ∀ {job : Job}, job ∈ outbox ∨ job ∈ pass → ∀ {sub key status},
      job.body = .risk sub key status → ∃ old, (old ∈ w.outbox ∨ old ∈ w.pass) ∧
        old.id = job.id ∧ old.body = job.body ∧ old.expires = job.expires := by
    rintro job (mem | mem) sub key status body
    · obtain ⟨before, at_before, same⟩ := warning mem body
      exact ⟨before, .inl at_before, same⟩
    · exact ⟨job, .inr (rest.subset mem), rfl, rfl, rfl⟩
  have aloft : ∀ start, flight = some start → w.flight = some start ∧ pass = w.pass := by
    intro start is
    rcases flying with none | ⟨same, all⟩
    · rw [none] at is
      cases is
    · exact ⟨same ▸ is, all⟩
  refine ⟨h.subscriptions, jobs, h.rows, h.consented, fun job mem sub is => ?_,
    fun job mem sub key status body => ?_, fun job mem sub contact pending body => ?_,
    fun job mem job' mem' sub key status status' body body' => ?_, h.pass.sublist (rest.map _),
    fun job mem sub key status body job' mem' id => ?_, h.wallets, h.ages, h.recorded, h.spaced, h.told, fun start is => ?_, fun calm => ?_,
    fun wallet is => ?_⟩
  · unfold Job.subId at is
    split at is
    · cases is
    · obtain ⟨before, at_before, -, body, -⟩ := warning mem ‹_›
      refine h.addressed before at_before sub ?_
      rw [Job.subId, body, ‹job.body = _›]
      exact is
  · obtain ⟨before, at_before, id, same, expires⟩ := earlier mem body
    have fits := h.fits before at_before sub key status (same.trans body)
    exact ⟨fits.wallet, id ▸ fits.named, fits.severity, expires ▸ fits.expires, fits.same,
      expires ▸ fits.allowed⟩
  · rcases mem with mem | mem
    · rcases old job mem with ⟨_, _, _, is, named⟩ | ⟨before, at_before, id, same, -⟩
      · cases is.symm.trans body
        exact named
      · exact id.symm.trans (h.confirms before (.inl at_before) sub contact pending (same.trans body))
    · exact h.confirms job (.inr (rest.subset mem)) sub contact pending body
  · obtain ⟨before, at_before, id, same, -⟩ := earlier mem body
    obtain ⟨before', at_before', id', same', -⟩ := earlier mem' body'
    rw [← id, ← id']
    exact h.apart before at_before before' at_before' sub key status status' (same.trans body)
      (same'.trans body')
  · rcases old job' mem' with ⟨_, _, _, -, confirms⟩ | ⟨before, at_before, same, is, expires⟩
    · obtain ⟨time, named⟩ := (h.fits job (.inr (rest.subset mem)) sub key status body).named
      cases confirms.symm.trans (id.trans named)
    · rw [← is, ← expires]
      exact h.kept job (rest.subset mem) sub key status body before at_before (same.trans id)
  · obtain ⟨is, all⟩ := aloft start is
    obtain ⟨head, body, life, episode, row, spaced⟩ := h.flight start is
    exact ⟨all ▸ head, body, life, episode, row, spaced⟩
  · exact ⟨(h.calm calm).consents, queued calm,
      fun start is => (h.calm calm).flight start (aloft start is).1⟩
  · obtain ⟨one, told, flight⟩ := h.single wallet is
    exact ⟨one, told, fun start is => flight start (aloft start is).1⟩

/-- Some jobs are deleted, but none that the pass has to come to. -/
theorem Inv.deleteJobs (h : Inv x l w) {p : Job → Bool}
    (spared : l.calm = true → ∀ job ∈ w.pass, ∀ sub, job.subId = some sub → Live w sub →
      ∀ job' ∈ w.outbox, job'.id = job.id → p job' = false) :
    Inv x l (deleteJobs p w) := by
  refine h.setQueue (h.jobs.sublist (List.filter_sublist.map _)) (fun job mem => .inr ?_)
    (List.Sublist.refl _) (.inr ⟨rfl, rfl⟩) fun calm job mem sub is live => ?_
  · exact ⟨job, List.mem_of_mem_filter mem, rfl, rfl, rfl⟩
  · obtain ⟨job', mem', id⟩ := (h.calm calm).queued job mem sub is live
    refine ⟨job', List.mem_filter.mpr ⟨mem', ?_⟩, id⟩
    rw [spared calm job mem sub is live job' mem' id]
    rfl

/-- The first job of the pass is done with, and deleted. -/
theorem Inv.drop (h : Inv x l w) {job : Job} {rest : List Job} (pass : w.pass = job :: rest) :
    Inv x l (finish (deleteJob job.id w)) := by
  have apart : ∀ other ∈ rest, other.id ≠ job.id := by
    intro other mem same
    have nodup := h.pass
    rw [pass, List.map_cons, List.nodup_cons] at nodup
    exact nodup.1 (same ▸ List.mem_map_of_mem mem)
  refine h.setQueue (h.jobs.sublist (List.filter_sublist.map _)) (fun job mem => .inr ?_)
    (List.tail_sublist _) (.inl rfl) fun calm other mem sub is live => ?_
  · exact ⟨job, List.mem_of_mem_filter mem, rfl, rfl, rfl⟩
  · change other ∈ w.pass.tail at mem
    rw [pass, List.tail_cons] at mem
    obtain ⟨job', mem', id⟩ :=
      (h.calm calm).queued other (pass ▸ List.mem_cons_of_mem _ mem) sub is live
    refine ⟨job', List.mem_filter.mpr ⟨mem', decide_eq_true ?_⟩, id⟩
    rw [id]
    exact apart other mem

theorem Inv.finish (h : Inv x l w) : Inv x l (finish w) := by
  refine h.setQueue h.jobs (fun job mem => .inr ⟨job, mem, rfl, rfl, rfl⟩) (List.tail_sublist _)
    (.inl rfl) fun calm job mem => (h.calm calm).queued job (List.mem_of_mem_tail mem)

/-- A job is put in the place of one of its name, or a confirmation is put in. -/
theorem Inv.putJob (h : Inv x l w) {job : Job}
    (old : job.Confirms ∨ Queued w job) : Inv x l (putJob job w) := by
  refine h.setQueue (Table.keys_upsert h.jobs) (fun other mem => ?_)
    (List.Sublist.refl _) (.inr ⟨rfl, rfl⟩) fun calm other mem sub is live => ?_
  · rcases Table.mem_of_mem_upsert mem with rfl | ⟨mem, -⟩
    · exact old
    · exact .inr ⟨other, mem, rfl, rfl, rfl⟩
  · obtain ⟨job', mem', id⟩ := (h.calm calm).queued other mem sub is live
    by_cases same : job'.id = job.id
    · exact ⟨job, Table.mem_upsert_self _ _, same.symm.trans id⟩
    · exact ⟨job', Table.mem_upsert_of_ne mem' same, id⟩

end Turret.Alerts
