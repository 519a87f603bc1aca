import Turret.Alerts.Invariants

/-! What the requests keep: a removal, an activation and a new link. -/

namespace Turret.Alerts

variable {x : Engine} {l : Limits} {w w' : World} {id sub : SubId}

theorem not_any {wallet : Wallet} {rows : List Subscription}
    (h : (rows.any (·.id.wallet = wallet)) = false) : ∀ row ∈ rows, row.id.wallet ≠ wallet :=
  fun row mem same => absurd (List.any_eq_false.mp h row mem) (by simp [same])

/-! ### Removals -/

theorem live_remove : Live (remove id w) sub ↔ Live w sub ∧ sub ≠ id := by
  constructor
  · rintro ⟨row, mem, rfl⟩
    obtain ⟨mem, other⟩ := List.mem_filter.mp mem
    exact ⟨⟨row, mem, rfl⟩, of_decide_eq_true other⟩
  · rintro ⟨⟨row, mem, rfl⟩, other⟩
    exact ⟨row, List.mem_filter.mpr ⟨mem, decide_eq_true other⟩, rfl⟩

theorem mem_risk_remove {row : RiskRow} (h : row ∈ (remove id w).risk) :
    row ∈ w.risk ∧ (row.key.wallet = id.wallet → ∃ other, Live (remove id w) other ∧
      other.wallet = id.wallet) := by
  unfold remove at h ⊢
  dsimp only at h ⊢
  split at h
  · rename_i some_left
    refine ⟨h, fun _ => ?_⟩
    obtain ⟨other, mem, same⟩ := List.any_eq_true.mp some_left
    exact ⟨other.id, ⟨other, mem, rfl⟩, of_decide_eq_true same⟩
  · obtain ⟨mem, other⟩ := List.mem_filter.mp h
    exact ⟨mem, fun same => absurd same (of_decide_eq_true other)⟩

/-- The rows of a wallet stay, while it has a subscription. -/
theorem risk_remove {row : RiskRow} (mem : row ∈ w.risk) (live : Live (remove id w) sub)
    (wallet : sub.wallet = row.key.wallet) : row ∈ (remove id w).risk := by
  obtain ⟨other, at_other, rfl⟩ := live
  unfold remove at at_other ⊢
  dsimp only at at_other ⊢
  split
  · exact mem
  · rename_i none_left
    refine List.mem_filter.mpr ⟨mem, decide_eq_true fun same => ?_⟩
    exact not_any (Bool.not_eq_true _ ▸ none_left) other at_other (wallet.trans same)

theorem current_remove {start : Start} (h : Current (remove id w) start) : Current w start :=
  ⟨(live_remove.mp h.1).1, h.2⟩

theorem Job.body_of_subId {job : Job} (h : job.subId = some sub) :
    ∃ key status, job.body = .risk sub key status := by
  unfold Job.subId at h
  cases body : job.body with
  | verify sub' contact pending =>
    rw [body] at h
    cases h
  | risk sub' key status =>
    rw [body] at h
    obtain rfl := Option.some.inj h
    exact ⟨key, status, rfl⟩

theorem Job.belongsTo_of_subId {job : Job} (h : job.subId = some sub) :
    job.belongsTo sub = true := by
  obtain ⟨key, status, body⟩ := Job.body_of_subId h
  rw [Job.belongsTo, body]
  exact decide_eq_true rfl

/-- A warning is named by its subscription, and other jobs are named otherwise. -/
theorem Inv.not_belongs (h : Inv x l w) {job job' : Job} (mem : job ∈ w.pass)
    (is : job.subId = some sub) (other : sub ≠ id) (mem' : job' ∈ w.outbox)
    (same : job'.id = job.id) : job'.belongsTo id = false := by
  obtain ⟨key, status, body⟩ := Job.body_of_subId is
  obtain ⟨time, named⟩ := (h.fits job (.inr mem) sub key status body).named
  cases body' : job'.body with
  | verify sub' contact pending =>
    have name := h.confirms job' (.inl mem') sub' contact pending body'
    rw [same, named] at name
    cases name
  | risk sub' key' status' =>
    obtain ⟨time', named'⟩ := (h.fits job' (.inl mem') sub' key' status' body').named
    rw [same, named] at named'
    cases named'
    rw [Job.belongsTo, body']
    exact decide_eq_false other

theorem Inv.remove (h : Inv x l w) (id : SubId) : Inv x l (remove id w) := by
  have job_of : ∀ {job : Job}, job ∈ (Alerts.remove id w).outbox →
      job ∈ w.outbox ∧ job.belongsTo id = false := by
    intro job mem
    obtain ⟨mem, other⟩ := List.mem_filter.mp mem
    exact ⟨mem, by simpa using other⟩
  have earlier : ∀ {job : Job}, job ∈ (Alerts.remove id w).outbox ∨ job ∈ (Alerts.remove id w).pass →
      job ∈ w.outbox ∨ job ∈ w.pass := fun mem => mem.imp_left fun mem => (job_of mem).1
  refine ⟨h.subscriptions.sublist (List.filter_sublist.map _),
    h.jobs.sublist (List.filter_sublist.map _), ?_, fun row mem => ?_, fun job mem sub is => ?_,
    fun job mem sub key status body => ?_, fun job mem => h.confirms job (earlier mem),
    fun job mem job' mem' => h.apart job (earlier mem) job' (earlier mem'), h.pass,
    fun job mem sub key status body job' mem' => h.kept job mem sub key status body job' (job_of mem').1,
    h.wallets, h.ages,
    fun m mem current => ?_, h.spaced, fun row mem => h.told row (mem_risk_remove mem).1,
    fun start is => ?_, fun calm => ?_, fun wallet is => ?_⟩
  · unfold Alerts.remove
    dsimp only
    split
    · exact h.rows
    · exact h.rows.sublist (List.filter_sublist.map _)
  · obtain ⟨mem, other⟩ := List.mem_filter.mp mem
    change (Function.update w.consents id none row.id).isSome = true
    rw [Function.update_of_ne (of_decide_eq_true other)]
    exact h.consented row mem
  · obtain ⟨mem, other⟩ := job_of mem
    refine live_remove.mpr ⟨h.addressed job mem sub is, ?_⟩
    rintro rfl
    rw [Job.belongsTo_of_subId is] at other
    cases other
  · obtain ⟨wallet, named, severity, expires, same, allowed⟩ :=
      h.fits job (earlier mem) sub key status body
    exact ⟨wallet, named, severity, expires, fun row at_row => same row (mem_risk_remove at_row).1,
      fun m at_m current => allowed m at_m (current_remove current)⟩
  · obtain ⟨row, at_row, key, rest⟩ := h.recorded m mem (current_remove current)
    exact ⟨row, risk_remove at_row current.1 ((h.wallets m mem).trans (congrArg _ key.symm)), key,
      rest⟩
  · obtain ⟨⟨rest, pass⟩, body, life, episode, row, spaced⟩ := h.flight start is
    refine ⟨⟨rest, pass⟩, body, life, episode, fun live same => ?_, spaced⟩
    obtain ⟨found, at_found, key⟩ := row (live_remove.mp live).1 same
    have mem : start.job ∈ w.pass := pass ▸ List.mem_cons_self
    have wallet := (h.fits start.job (.inr mem) _ _ _ body).wallet
    exact ⟨found, risk_remove at_found live (wallet.trans (congrArg _ key.symm)), key⟩
  · obtain ⟨consents, queued, flight⟩ := h.calm calm
    refine ⟨fun row mem => ?_, fun job mem sub is live => ?_, fun start is live => ?_⟩
    · obtain ⟨mem, other⟩ := List.mem_filter.mp mem
      change Function.update w.consents id none row.id = _
      rw [Function.update_of_ne (of_decide_eq_true other)]
      exact consents row mem
    · obtain ⟨live, other⟩ := live_remove.mp live
      obtain ⟨job', mem', same⟩ := queued job mem sub is live
      refine ⟨job', List.mem_filter.mpr ⟨mem', ?_⟩, same⟩
      rw [h.not_belongs mem is other mem' same]
      rfl
    · obtain ⟨live, other⟩ := live_remove.mp live
      change Function.update w.consents id none start.sub = _
      rw [Function.update_of_ne other]
      exact flight start is live
  · obtain ⟨one, told, flight⟩ := h.single wallet is
    -- where rows of the wallet are left, so are its subscriptions
    have left : ∀ row ∈ (Alerts.remove id w).risk, row.key.wallet = wallet → ∀ sub, Live w sub →
        sub.wallet = wallet → Live (Alerts.remove id w) sub := by
      intro row mem at_wallet sub live at_sub
      refine live_remove.mpr ⟨live, ?_⟩
      rintro rfl
      obtain ⟨other, there, same⟩ := (mem_risk_remove mem).2 (at_wallet.trans at_sub.symm)
      obtain ⟨⟨b, at_b, is_b⟩, differs⟩ := live_remove.mp there
      obtain ⟨a, at_a, rfl⟩ := live
      subst is_b
      exact differs (one b at_b a at_a (same.trans at_sub) at_sub)
    refine ⟨fun row mem row' mem' => one row (List.mem_of_mem_filter mem) row'
      (List.mem_of_mem_filter mem'), fun row mem at_wallet n notified => ?_,
      fun start is at_wallet found => ?_⟩
    · obtain ⟨m, at_m, ⟨live, now⟩, key, rest⟩ :=
        told row (mem_risk_remove mem).1 at_wallet n notified
      have at_sub : m.start.sub.wallet = wallet :=
        (h.wallets m at_m).trans ((congrArg _ key).trans at_wallet)
      exact ⟨m, at_m, ⟨left row mem at_wallet _ live at_sub, now⟩, key, rest⟩
    · obtain ⟨row, mem, key⟩ := found
      obtain ⟨live, life⟩ := flight start is at_wallet ⟨row, (mem_risk_remove mem).1, key⟩
      obtain ⟨⟨rest, pass⟩, body, -⟩ := h.flight start is
      have at_job : start.job ∈ w.pass := pass ▸ List.mem_cons_self
      have at_sub := (h.fits start.job (.inr at_job) _ _ _ body).wallet
      exact ⟨left row mem ((congrArg _ key).trans at_wallet) _ live (at_sub.trans at_wallet), life⟩

/-! ### Activations -/

theorem live_enroll {consent : Consent} (other : sub ≠ id) :
    Live (enroll id consent w) sub ↔ Live w sub := by
  constructor
  · rintro ⟨row, mem, rfl⟩
    rcases Table.mem_of_mem_upsert mem with rfl | ⟨mem, -⟩
    · exact absurd rfl other
    · exact ⟨row, mem, rfl⟩
  · rintro ⟨row, mem, rfl⟩
    exact ⟨row, Table.mem_upsert_of_ne mem other, rfl⟩

theorem lives_enroll {consent : Consent} (other : sub ≠ id) :
    (enroll id consent w).lives sub = w.lives sub :=
  Function.update_of_ne other _ _

/-- What went to the earlier subscription is of another life. -/
theorem life_enroll {consent : Consent} {life : ℕ} (aged : life ≤ w.lives sub)
    (same : life = (enroll id consent w).lives sub) : sub ≠ id := by
  rintro rfl
  have next : (enroll sub consent w).lives sub = w.lives sub + 1 := Function.update_self ..
  omega

theorem current_enroll {consent : Consent} {start : Start} (aged : start.life ≤ w.lives start.sub)
    (h : Current (enroll id consent w) start) : Current w start := by
  have other := life_enroll aged h.2.1
  exact ⟨(live_enroll other).mp h.1, h.2.1.trans (lives_enroll other), h.2.2⟩

theorem Inv.enroll (h : Inv x l w) {consent : Consent} (absent : ∀ row ∈ w.subscriptions, row.id ≠ id)
    (calm : l.calm = true → ∀ job ∈ w.pass, job.subId ≠ some id)
    (single : l.single = some id.wallet → (∀ row ∈ w.subscriptions, row.id.wallet ≠ id.wallet) ∧
      ∀ row ∈ w.risk, row.key.wallet ≠ id.wallet) :
    Inv x l (enroll id consent w) := by
  have others : ∀ row ∈ (Alerts.enroll id consent w).subscriptions,
      row = ⟨id, consent, none, false⟩ ∨ row ∈ w.subscriptions ∧ row.id ≠ id :=
    fun row mem => Table.mem_of_mem_upsert mem
  have there : ∀ sub, Live w sub → sub ≠ id := by
    rintro sub ⟨row, mem, rfl⟩
    exact absent row mem
  refine ⟨Table.keys_upsert h.subscriptions, h.jobs, h.rows, fun row mem => ?_,
    fun job mem sub is => ?_, fun job mem sub key status body => ?_, h.confirms, h.apart, h.pass,
    h.kept, h.wallets, fun m mem => ?_, fun m mem current => ?_, h.spaced, h.told, fun start is => ?_,
    fun at_calm => ?_, fun wallet is => ?_⟩
  · rcases others row mem with rfl | ⟨mem, other⟩
    · change (Function.update w.consents id (some consent) id).isSome = true
      rw [Function.update_self, Option.isSome_some]
    · change (Function.update w.consents id (some consent) row.id).isSome = true
      rw [Function.update_of_ne other]
      exact h.consented row mem
  · have live := h.addressed job mem sub is
    exact (live_enroll (there sub live)).mpr live
  · have fits := h.fits job mem sub key status body
    exact ⟨fits.wallet, fits.named, fits.severity, fits.expires, fits.same, fun m at_m current =>
      fits.allowed m at_m (current_enroll (h.ages m at_m).1 current)⟩
  · obtain ⟨life, rest⟩ := h.ages m mem
    refine ⟨life.trans ?_, rest⟩
    by_cases same : m.start.sub = id
    · rw [same]
      change _ ≤ Function.update w.lives id _ id
      rw [Function.update_self]
      exact Nat.le_succ _
    · rw [lives_enroll same]
  · exact h.recorded m mem (current_enroll (h.ages m mem).1 current)
  · obtain ⟨head, body, life, episode, row, spaced⟩ := h.flight start is
    refine ⟨head, body, life.trans ?_, episode, fun live same => ?_, spaced⟩
    · by_cases same : start.sub = id
      · rw [same]
        change _ ≤ Function.update w.lives id _ id
        rw [Function.update_self]
        exact Nat.le_succ _
      · rw [lives_enroll same]
    · have other := life_enroll life same
      exact row ((live_enroll other).mp live) (same.trans (lives_enroll other))
  · obtain ⟨consents, queued, flight⟩ := h.calm at_calm
    have apart : ∀ job ∈ w.pass, ∀ sub, job.subId = some sub → sub ≠ id := by
      rintro job mem sub is rfl
      exact calm at_calm job mem is
    refine ⟨fun row mem => ?_, fun job mem sub is live => ?_, fun start is live => ?_⟩
    · change Function.update w.consents id (some consent) row.id = _
      rcases others row mem with rfl | ⟨mem, other⟩
      · rw [Function.update_self]
      · rw [Function.update_of_ne other]
        exact consents row mem
    · exact queued job mem sub is ((live_enroll (apart job mem sub is)).mp live)
    · obtain ⟨⟨rest, pass⟩, body, -⟩ := h.flight start is
      have mem : start.job ∈ w.pass := pass ▸ List.mem_cons_self
      have other := apart start.job mem start.sub (by rw [Job.subId, body])
      change Function.update w.consents id (some consent) start.sub = _
      rw [Function.update_of_ne other]
      exact flight start is ((live_enroll other).mp live)
  · obtain ⟨one, told, flight⟩ := h.single wallet is
    by_cases same : id.wallet = wallet
    · subst same
      obtain ⟨empty, none⟩ := single is
      refine ⟨fun row mem row' mem' at_row at_row' => ?_,
        fun row mem at_wallet => absurd at_wallet (none row mem), ?_⟩
      · rcases others row mem with rfl | ⟨mem, -⟩
        · rcases others row' mem' with rfl | ⟨mem', -⟩
          · rfl
          · exact absurd at_row' (empty row' mem')
        · exact absurd at_row (empty row mem)
      · rintro start - at_wallet ⟨row, mem, key⟩
        exact absurd ((congrArg _ key).trans at_wallet) (none row mem)
    · have apart : ∀ sub : SubId, sub.wallet = wallet → sub ≠ id := by
        rintro sub at_sub rfl
        exact same at_sub
      refine ⟨fun row mem row' mem' at_row at_row' => ?_, fun row mem at_wallet n notified => ?_,
        fun start is at_wallet found => ?_⟩
      · rcases others row mem with rfl | ⟨mem, -⟩
        · exact absurd at_row same
        · rcases others row' mem' with rfl | ⟨mem', -⟩
          · exact absurd at_row' same
          · exact one row mem row' mem' at_row at_row'
      · obtain ⟨m, at_m, ⟨live, life, episode⟩, key, rest⟩ := told row mem at_wallet n notified
        have other := apart m.start.sub
          ((h.wallets m at_m).trans ((congrArg _ key).trans at_wallet))
        exact ⟨m, at_m, ⟨(live_enroll other).mpr live, life.trans (lives_enroll other).symm, episode⟩,
          key, rest⟩
      · obtain ⟨live, life⟩ := flight start is at_wallet found
        obtain ⟨⟨rest, pass⟩, body, -⟩ := h.flight start is
        have mem : start.job ∈ w.pass := pass ▸ List.mem_cons_self
        have other := apart start.sub
          ((h.fits start.job (.inr mem) _ _ _ body).wallet.trans at_wallet)
        exact ⟨(live_enroll other).mpr live, life.trans (lives_enroll other).symm⟩

/-! ### Requests -/

/-- From `P` the request leads to `Q`, where it returns and where it throws. -/
def Leads {α : Type} (P Q : World → Prop) (p : Req α) : Prop := ∀ w, P w → Q (p.run w).2

abbrev Keeps {α : Type} (P : World → Prop) (p : Req α) : Prop := Leads P P p

section Keeps

variable {α β : Type} {P Q : World → Prop}

theorem Leads.bind {p : Req α} {k : α → Req β} (h : Keeps P p) (weak : ∀ w, P w → Q w)
    (rest : ∀ a, Leads P Q (k a)) : Leads P Q (p >>= k) := by
  intro w holds
  have first := h w holds
  change Q (ExceptT.bindCont k (p.run w).1 (p.run w).2).2
  cases ran : p.run w with
  | mk result t =>
    rw [ran] at first
    cases result with
    | ok a => exact rest a t first
    | error e => exact weak t first

theorem Keeps.bind {p : Req α} {k : α → Req β} (h : Keeps P p) (rest : ∀ a, Keeps P (k a)) :
    Keeps P (p >>= k) :=
  Leads.bind h (fun _ holds => holds) rest

theorem keeps_pure (a : α) : Keeps P (pure a : Req α) := fun _ holds => holds

theorem keeps_throw (e : InputError) : Keeps P (throw e : Req α) := fun _ holds => holds

theorem keeps_modify {f : World → World} (h : ∀ w, P w → P (f w)) : Keeps P (modify f : Req Unit) :=
  h

theorem keeps_get : Keeps P (get : Req World) := fun _ holds => holds

theorem keeps_demand {c : Prop} {_ : Decidable c} {e : InputError} : Keeps P (demand c e) := by
  unfold demand
  split
  · exact keeps_pure ()
  · exact keeps_throw e

end Keeps

/-- The changes that leave alone what `P` is about. -/
structure Unmoved (x : Engine) (P : World → Prop) : Prop where
  tick : ∀ w, P w → P w.tick
  rate : ∀ w rate, P w → P { w with rate := rate }
  pending : ∀ w pending, P w → P { w with pending := pending }
  confirmation : ∀ w sub contact pending text expires, P w →
    P (enqueue x (.verify pending) (.verify sub contact pending) text expires w)

section Unmoved

variable {P : World → Prop} (unmoved : Unmoved x P)

include unmoved

theorem keeps_readClock : Keeps P (readClock x) := unmoved.tick

theorem keeps_liveRate {name : String} {duration : ℕ} : Keeps P (liveRate x name duration) := by
  refine keeps_get.bind fun w => ?_
  split
  · refine (keeps_readClock unmoved).bind fun time => ?_
    split
    · exact keeps_pure _
    · exact (keeps_readClock unmoved).bind fun _ => keeps_pure _
  · exact (keeps_readClock unmoved).bind fun _ => keeps_pure _

theorem keeps_rate {key : String} {limit duration : ℕ} : Keeps P (rate x key limit duration) := by
  refine (keeps_liveRate unmoved).bind fun row => keeps_demand.bind fun _ => ?_
  exact keeps_modify fun w => unmoved.rate w _

theorem keeps_checkContact {email : Option String} : Keeps P (checkContact x sub email) := by
  unfold checkContact
  split
  · cases email with
    | none => exact keeps_throw _
    | some email => exact keeps_demand.bind fun _ => keeps_rate unmoved
  · exact keeps_pure ()

theorem keeps_subscribe {email : Option String} {verification : String} :
    Keeps P (subscribe x sub email verification) := by
  refine (keeps_rate unmoved).bind fun _ => (keeps_checkContact unmoved).bind fun _ => ?_
  refine (keeps_modify fun w => unmoved.pending w _).bind fun _ => ?_
  refine (keeps_readClock unmoved).bind fun time => ?_
  refine (keeps_modify fun w => unmoved.pending w _).bind fun _ => ?_
  split
  · exact keeps_modify fun w => unmoved.confirmation w _ _ _ _ _
  · exact keeps_pure ()

end Unmoved

/-- What the delivery has read, and what is told of it. -/
structure Aside (w w' : World) : Prop where
  pass : w'.pass = w.pass
  flight : w'.flight = w.flight
  starts : w'.starts = w.starts
  messages : w'.messages = w.messages
  observed : w'.observed = w.observed

theorem unmoved_aside (x : Engine) (w : World) : Unmoved x (Aside w) := by
  refine ⟨fun _ h => ⟨h.pass, h.flight, h.starts, h.messages, h.observed⟩,
    fun _ _ h => ⟨h.pass, h.flight, h.starts, h.messages, h.observed⟩,
    fun _ _ h => ⟨h.pass, h.flight, h.starts, h.messages, h.observed⟩, fun _ _ _ _ _ _ h => ?_⟩
  unfold enqueue
  split
  · exact h
  · exact ⟨h.pass, h.flight, h.starts, h.messages, h.observed⟩

variable (ordered : Monotone x.times)

include ordered

theorem Inv.tick (h : Inv x l w) : Inv x l w.tick :=
  h.of_same ordered ⟨Nat.le_succ _, rfl, rfl, rfl, rfl, rfl, rfl, rfl, rfl, rfl⟩

theorem unmoved_inv : Unmoved x (Inv x l) := by
  refine ⟨fun _ h => h.tick ordered, fun _ _ h => ?_, fun _ _ h => ?_, fun w _ _ _ _ _ h => ?_⟩
  · exact h.of_same ordered ⟨le_rfl, rfl, rfl, rfl, rfl, rfl, rfl, rfl, rfl, rfl⟩
  · exact h.of_same ordered ⟨le_rfl, rfl, rfl, rfl, rfl, rfl, rfl, rfl, rfl, rfl⟩
  · unfold enqueue
    split
    · exact h
    · exact (h.tick ordered).putJob (.inl ⟨_, _, _, rfl, rfl⟩)

/-- The subscription may be activated. -/
def Ready (x : Engine) (l : Limits) (id : SubId) (w : World) : Prop :=
  Inv x l w ∧ (l.calm = true → ∀ job ∈ w.pass, job.subId ≠ some id) ∧
    ∀ wallet, l.single = some wallet → id.wallet = wallet →
      ∀ row ∈ w.subscriptions, row.id.wallet = wallet → row.id = id

theorem Ready.renew (h : Ready x l id w) {consent : Consent} :
    Inv x l (Alerts.enroll id consent (Alerts.remove id w).tick) := by
  obtain ⟨inv, calm, single⟩ := h
  refine ((inv.remove id).tick ordered).enroll (fun row mem => ?_) calm fun is => ⟨fun row mem same => ?_,
    fun row mem same => ?_⟩
  · exact of_decide_eq_true (List.mem_filter.mp mem).2
  · obtain ⟨mem, other⟩ := List.mem_filter.mp mem
    exact of_decide_eq_true other (single _ is rfl row mem same)
  · obtain ⟨other, live, at_wallet⟩ := (mem_risk_remove mem).2 same
    obtain ⟨⟨row', mem', rfl⟩, differs⟩ := live_remove.mp live
    exact differs (single _ is rfl row' mem' at_wallet)

theorem Ready.confirm {row : Pending} {channel : Channel} {chat : Option String}
    {startBlock : Option ℕ} :
    Leads (Ready x l row.sub) (Inv x l) (confirm x row channel chat startBlock) := by
  refine Leads.bind keeps_demand (fun _ ready => ready.1) fun _ => ?_
  refine Leads.bind (fun w ready => ⟨ready.1.tick ordered, ready.2⟩) (fun _ ready => ready.1)
    fun time => ?_
  refine Leads.bind keeps_demand (fun _ ready => ready.1) fun _ => ?_
  refine Leads.bind keeps_demand (fun _ ready => ready.1) fun _ => ?_
  exact fun w ready => ready.renew ordered

omit ordered in
theorem activate_run {verification : String} {channel : Channel} {chat : Option String}
    {startBlock : Option ℕ} :
    ((activate x verification channel chat startBlock).run w).2 =
      match w.pending.find? (·.id = x.hash verification) with
      | none => w
      | some row => ((confirm x row channel chat startBlock).run w).2 := by
  change (ExceptT.run (match w.pending.find? (fun row => decide (row.id = x.hash verification)) with
    | none => throw .expiredLink
    | some row => confirm x row channel chat startBlock) w).2 = _
  cases w.pending.find? (fun row => decide (row.id = x.hash verification)) with
  | none => rfl
  | some row => rfl

/-- What every request does, where it keeps to the limits. -/
theorem Inv.request (h : Inv x l w) {e : Event} (admits : Admits x l w e) :
    Inv x l (request x e w) := by
  cases e with
  | subscribe sub email verification => exact keeps_subscribe (unmoved_inv ordered) w h
  | remove sub => exact h.remove sub
  | clock => exact h.tick ordered
  | activate verification channel chat startBlock =>
    rw [Alerts.request, activate_run]
    cases found : w.pending.find? (·.id = x.hash verification) with
    | none => exact h
    | some row =>
      exact Ready.confirm ordered w ⟨h, admits row.sub (congrArg (Option.map Pending.sub) found)⟩

omit ordered in
theorem aside_request (e : Event) : Aside w (request x e w) := by
  have start : Aside w w := ⟨rfl, rfl, rfl, rfl, rfl⟩
  have unmoved := unmoved_aside x w
  cases e with
  | subscribe sub email verification => exact keeps_subscribe unmoved w start
  | remove sub => exact ⟨rfl, rfl, rfl, rfl, rfl⟩
  | clock => exact ⟨rfl, rfl, rfl, rfl, rfl⟩
  | activate verification channel chat startBlock =>
    rw [Alerts.request, activate_run]
    split
    · exact start
    · refine keeps_demand.bind (fun _ => (keeps_readClock unmoved).bind fun time => ?_) w start
      refine keeps_demand.bind fun _ => keeps_demand.bind fun _ => ?_
      exact fun _ h => ⟨h.pass, h.flight, h.starts, h.messages, h.observed⟩

end Turret.Alerts
