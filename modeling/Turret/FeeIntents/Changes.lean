import Turret.FeeIntents.Store
import Turret.Library.Table

/-! What each call does to the database, whatever the others do between its
reads and its transaction. -/

namespace Turret.FeeIntents

open Execution Tasks Tasks.Program Client

variable {P : Platform} {i j : Task} {s t u : World} {db after : Database}

/-- The audits of one call, in their order. -/
def auditsOf (i : Task) (audits : List AuditRecord) : List AuditRecord :=
  audits.filter (·.task = i)

/-- The last audit of the call was one of the journal, and succeeded. -/
def Audited (P : Platform) (audits : List AuditRecord) (i : Task) (journal : Journal)
    (report : Report) : Prop :=
  ∃ record, (auditsOf i audits).getLast? = some record ∧ record.journal = journal ∧
    Client.read (auditFeeJournal P.viem record.config journal) record.answers = .ok report

/-- A change of the database by the call `i`. -/
inductive Change (P : Platform) (audits : List AuditRecord) (i : Task) (db : Database) :
    Database → Prop
  | reserve {row : JournalRow} {report : Report} {intent : Intent} :
      db.journal = some row → Audited P audits i row.payload report →
      intent.state = .reserved → intent.sourceCollectionIds = report.sourceCollectionIds →
      intent.id ∉ db.intents.map Intent.id → Database.oneActive (db.intents ++ [intent]) →
      Change P audits i db { db with intents := db.intents ++ [intent] }
  | cancel {intent : Intent} :
      intent ∈ db.intents → intent.state = .reserved →
      Change P audits i db
        { db with intents := Database.put { intent with state := .cancelled } db.intents }
  | sign {row : JournalRow} {report : Report} {intent : Intent} {nonce : ℕ} :
      db.journal = some row → Audited P audits i row.payload report →
      intent ∈ db.intents → intent.state = .reserved →
      Change P audits i db { db with
        intents := Database.put { intent with
          state := .signing, nonce := some nonce,
          auditBlock := report.blockNumber, auditHash := report.blockHash } db.intents }
  | submit {intent : Intent} {hash : Hash} :
      intent ∈ db.intents → intent.state = .signing ∨ intent.state = .submitted →
      Change P audits i db { db with
        intents := Database.put { intent with state := .submitted, hash := some hash } db.intents }
  | confirm {row : JournalRow} {report : Report} {intent : Intent} {hash : Hash} {now : ℕ} :
      db.journal = some row → intent ∈ db.intents → intent.state = .submitted →
      intent.hash = some hash →
      Audited P audits i (withRemittance row.payload hash intent.sourceCollectionIds) report →
      Change P audits i db {
        journal := some ⟨row.identity, row.revision + 1,
          withRemittance row.payload hash intent.sourceCollectionIds⟩
        intents := Database.put { intent with
          state := .confirmed, confirmedAt := some now,
          confirmationBlock := some report.blockNumber,
          confirmationHash := some report.blockHash } db.intents }

/-- An action of the call `i`. -/
inductive Act (P : Platform) (i : Task) (s : World) : World → Prop
  | same : Act P i s s
  | audits {record : AuditRecord} : record.task = i →
      Act P i s { s with audits := s.audits ++ [record] }
  | opens {config : Config} {journal : Journal} {db : Database} : s.opened i.1 = none →
      s.db.openJournal (P.fingerprint (.options config journal)) journal = .ok db →
      Act P i s { s with db := db, opened := Function.update s.opened i.1 (some config) }
  | stores {db : Database} : Change P s.audits i s.db db → Act P i s { s with db := db }

/-! ### The rows -/

theorem get_eq_ok {id : String} {intent : Intent} (h : db.get id = .ok intent) :
    intent ∈ db.intents ∧ intent.id = id := by
  rw [Database.get, orRevert_eq_ok] at h
  have at_id := List.find?_some h
  exact ⟨List.mem_of_find?_eq_some h, of_decide_eq_true at_id⟩

theorem requireState_eq_ok {id : String} {state : State} {intent : Intent}
    (h : db.requireState id state = .ok intent) :
    intent ∈ db.intents ∧ intent.id = id ∧ intent.state = state := by
  simp only [Database.requireState, bind_eq_ok, revertIf_eq_ok, not_not, Except.ok.injEq] at h
  obtain ⟨found, at_id, -, is, rfl⟩ := h
  obtain ⟨mem, id⟩ := get_eq_ok at_id
  exact ⟨mem, id, is⟩

theorem requireRevision_eq_ok {revision : ℕ} {u : Unit} (h : db.requireRevision revision = .ok u) :
    ∃ row, db.journal = some row ∧ row.revision = revision := by
  simp only [Database.requireRevision, Database.snapshot, bind_eq_ok, orRevert_eq_ok,
    revertIf_eq_ok, not_not] at h
  obtain ⟨row, found, is⟩ := h
  exact ⟨row, found, is⟩

/-- An update changes one row, where it stands. -/
theorem put_split {a b : Intent} {intents : List Intent} (nodup : (intents.map Intent.id).Nodup)
    (mem : a ∈ intents) (same : b.id = a.id) :
    ∃ before after, intents = before ++ a :: after ∧
      Database.put b intents = before ++ b :: after :=
  Table.replace_split nodup mem same

/-! ### What others leave as it is -/

/-- Every row is still there, with its receipts. -/
def Kept (before after : List Intent) : Prop :=
  (after.map Intent.id).Nodup ∧ ∀ a ∈ before, ∃ b ∈ after, b.id = a.id ∧
    b.sourceCollectionIds = a.sourceCollectionIds

/-- What every action keeps. -/
structure Later (s t : World) : Prop where
  opened : ∀ process config, s.opened process = some config → t.opened process = some config
  journal : ∀ row, s.db.journal = some row → ∃ row', t.db.journal = some row' ∧
    row'.identity = row.identity ∧ row.revision ≤ row'.revision ∧
    (row'.revision = row.revision → row' = row)
  intents : (s.db.intents.map Intent.id).Nodup → Kept s.db.intents t.db.intents

theorem Kept.refl {intents : List Intent} (nodup : (intents.map Intent.id).Nodup) :
    Kept intents intents :=
  ⟨nodup, fun a mem => ⟨a, mem, rfl, rfl⟩⟩

theorem Later.refl (s : World) : Later s s :=
  ⟨fun _ _ is => is, fun row is => ⟨row, is, rfl, le_rfl, fun _ => rfl⟩,
    Kept.refl⟩

theorem Later.trans (h : Later s t) (h' : Later t u) : Later s u where
  opened process config is := h'.opened process config (h.opened process config is)
  journal row is := by
    obtain ⟨mid, at_t, identity, le, same⟩ := h.journal row is
    obtain ⟨last, at_u, identity', le', same'⟩ := h'.journal mid at_t
    refine ⟨last, at_u, identity'.trans identity, le.trans le', fun eq => ?_⟩
    have middle : mid.revision = row.revision := le_antisymm (eq ▸ le') le
    exact (same' (eq.trans middle.symm)).trans (same middle)
  intents nodup := by
    obtain ⟨nodup', kept⟩ := h.intents nodup
    obtain ⟨nodup'', kept'⟩ := h'.intents nodup'
    refine ⟨nodup'', fun a mem => ?_⟩
    obtain ⟨b, mem', id, ids⟩ := kept a mem
    obtain ⟨c, mem'', id', ids'⟩ := kept' b mem'
    exact ⟨c, mem'', id'.trans id, ids'.trans ids⟩

theorem kept_put {a b : Intent} {intents : List Intent} (mem : a ∈ intents) (id : b.id = a.id)
    (ids : b.sourceCollectionIds = a.sourceCollectionIds)
    (nodup : (intents.map Intent.id).Nodup) : Kept intents (Database.put b intents) := by
  obtain ⟨before, after, rfl, changed⟩ := put_split nodup mem id
  rw [changed]
  constructor
  · rw [List.map_append, List.map_cons] at nodup ⊢
    rwa [id]
  · intro c at_c
    rcases List.mem_append.mp at_c with early | late
    · exact ⟨c, List.mem_append_left _ early, rfl, rfl⟩
    · rcases List.mem_cons.mp late with rfl | late
      · exact ⟨b, by simp, id, ids⟩
      · exact ⟨c, by simp [late], rfl, rfl⟩

theorem kept_snoc {b : Intent} {intents : List Intent} (fresh : b.id ∉ intents.map Intent.id)
    (nodup : (intents.map Intent.id).Nodup) : Kept intents (intents ++ [b]) := by
  refine ⟨?_, fun a mem => ⟨a, List.mem_append_left _ mem, rfl, rfl⟩⟩
  rw [List.map_append, List.map_singleton]
  refine List.nodup_append.mpr ⟨nodup, List.nodup_singleton _, fun id mem other at_b => ?_⟩
  rw [List.mem_singleton.mp at_b]
  exact fun same => fresh (same ▸ mem)

theorem Change.kept {audits : List AuditRecord} (h : Change P audits i db after)
    (nodup : (db.intents.map Intent.id).Nodup) : Kept db.intents after.intents := by
  cases h with
  | reserve _ _ _ _ fresh _ => exact kept_snoc fresh nodup
  | cancel mem _ => exact kept_put mem rfl rfl nodup
  | sign _ _ mem _ => exact kept_put mem rfl rfl nodup
  | submit mem _ => exact kept_put mem rfl rfl nodup
  | confirm _ mem _ _ _ => exact kept_put mem rfl rfl nodup

theorem Change.journal {audits : List AuditRecord} (h : Change P audits i db after)
    {row : JournalRow} (is : db.journal = some row) :
    ∃ row', after.journal = some row' ∧ row'.identity = row.identity ∧
      row.revision ≤ row'.revision ∧ (row'.revision = row.revision → row' = row) := by
  cases h with
  | confirm at_row _ _ _ _ =>
    cases is.symm.trans at_row
    exact ⟨_, rfl, rfl, Nat.le_succ _, fun eq => absurd eq (Nat.succ_ne_self _)⟩
  | _ => exact ⟨row, is, rfl, le_rfl, fun _ => rfl⟩

theorem openJournal_eq_ok {identity : String} {journal : Journal}
    (h : db.openJournal identity journal = .ok after) :
    after.intents = db.intents ∧
      ((∃ row, db.journal = some row ∧ row.identity = identity ∧ after = db) ∨
        db.journal = none ∧ after.journal = some ⟨identity, 0, journal⟩) := by
  unfold Database.openJournal at h
  split at h
  · rename_i row is
    simp only [bind_eq_ok, revertIf_eq_ok, not_not, Except.ok.injEq] at h
    obtain ⟨_, same, rfl⟩ := h
    exact ⟨rfl, .inl ⟨row, is, same, rfl⟩⟩
  · cases h
    exact ⟨rfl, .inr ⟨‹_›, rfl⟩⟩

theorem Act.later (h : Act P i s t) : Later s t := by
  cases h with
  | same => exact .refl s
  | audits _ =>
    exact ⟨fun _ _ is => is,
      fun row is => ⟨row, is, rfl, le_rfl, fun _ => rfl⟩, Kept.refl⟩
  | @opens config journal db closed done =>
    obtain ⟨intents, opened⟩ := openJournal_eq_ok done
    refine ⟨fun process other is => ?_, fun row is => ?_, fun nodup => ?_⟩
    · have differ : process ≠ i.1 := by
        rintro rfl
        rw [closed] at is
        cases is
      exact (Function.update_of_ne differ ..).trans is
    · rcases opened with ⟨row', is', -, rfl⟩ | ⟨none, -⟩
      · exact ⟨row, is, rfl, le_rfl, fun _ => rfl⟩
      · rw [none] at is
        cases is
    · change Kept s.db.intents db.intents
      rw [intents]
      exact .refl nodup
  | stores change =>
    exact ⟨fun _ _ is => is, fun _ is => change.journal is, change.kept⟩

/-- What a call may rely on while others act. -/
structure Since (i : Task) (s t : World) : Prop where
  later : Later s t
  own : auditsOf i t.audits = auditsOf i s.audits

theorem Since.refl (i : Task) (s : World) : Since i s s := ⟨.refl s, rfl⟩

theorem Since.trans (h : Since i s t) (h' : Since i t u) : Since i s u :=
  ⟨h.later.trans h'.later, h'.own.trans h.own⟩

theorem Act.since (h : Act P j s t) (other : j ≠ i) : Since i s t := by
  refine ⟨h.later, ?_⟩
  cases h with
  | audits made => simp [auditsOf, made, other]
  | _ => rfl

/-! ### The calls -/

variable (P) in
def contract (i : Task) : Contract World Query (fun q => Except Err q.Result) where
  rely := Since i
  admits _ _ := True
  guarantee := Act P i
  answers _ _ _ := True
  refl := .refl i
  trans := .trans

theorem compatible : Compatible (machine P) (contract P) where
  others other _ act := Act.since act other
  env {_ e} := nomatch e
  answers _ := trivial

abbrev SafeCall (P : Platform) (i : Task) {α : Type} (p : Prog α) (s : World) : Prop :=
  Safe (contract P i) (fun _ _ => True) (fun _ _ => True) p s

section Rules

variable {α β : Type}

theorem safe_call {q : Query} {k : q.Result → Prog β}
    (h : ∀ t a, Since i s t → SafeCall P i (k a) t) : SafeCall P i (call q >>= k) s :=
  Tasks.safe_call (fun _ _ _ _ _ _ => trivial) fun t a since _ _ => h t a since

theorem safe_lift {x : Except Err α} {k : α → Prog β}
    (h : ∀ a, x = .ok a → SafeCall P i (k a) s) : SafeCall P i (lift x >>= k) s :=
  Tasks.safe_lift (fun _ _ _ _ => trivial) h

theorem safe_throwIf {c : Prop} {_ : Decidable c} {e : Err} {k : Unit → Prog β}
    (h : SafeCall P i (k ()) s) : SafeCall P i (throwIf c e >>= k) s :=
  Tasks.safe_throwIf (fun _ _ _ => trivial) fun _ => h

/-- A value that is read off the state. -/
theorem safe_reads {f : World → Except Err α} {k : α → Prog β}
    (h : ∀ t a, Since i s t → f t = .ok a → SafeCall P i (k a) t) :
    SafeCall P i (reads f >>= k) s := by
  refine Safe.bind (Tasks.safe_look (fun _ => .same) fun t since => ?_)
  cases read : f t with
  | error e => exact fun _ _ => trivial
  | ok a => exact fun u later => (h t a since read).stable later

theorem Audited.since {journal : Journal} {report : Report}
    (h : Audited P s.audits i journal report) (since : Since i s t) :
    Audited P t.audits i journal report := by
  rw [Audited, since.own]
  exact h

/-- An audit that succeeds is on record from then on. -/
theorem safe_audit {config : Config} {journal : Journal} {k : Report → Prog β}
    (h : ∀ t report, Later s t → Audited P t.audits i journal report → SafeCall P i (k report) t) :
    SafeCall P i (audit P i config journal >>= k) s := by
  refine Safe.bind (Tasks.safe_call (fun _ _ _ _ _ _ => trivial) fun t answers since _ _ => ?_)
  refine Tasks.safe_modify fun u later _ => ⟨.audits rfl, ?_⟩
  cases passed : Client.read (auditFeeJournal P.viem config journal) answers with
  | error e => exact fun _ _ => trivial
  | ok report =>
    intro v last
    have logged : Later u { u with audits := u.audits ++ [⟨i, config, journal, answers⟩] } :=
      Act.later (P := P) (i := i) (.audits rfl)
    have made : Audited P (u.audits ++ [⟨i, config, journal, answers⟩]) i journal report := by
      refine ⟨⟨i, config, journal, answers⟩, ?_, rfl, passed⟩
      simp [auditsOf]
    exact h v report (((since.later.trans later.later).trans logged).trans last.later)
      (Audited.since (s := { u with audits := _ }) made last)

/-- What a transaction changes. -/
theorem safe_transaction {body : Database → Except Err (α × Database)}
    (h : ∀ t a db, Since i s t → body t.db = .ok (a, db) → Change P t.audits i t.db db) :
    SafeCall P i (transaction body) s := by
  unfold transaction begin
  refine safe_call fun t _ since => ?_
  refine Tasks.safe_attempt (fun _ => .same) (fun u a v later ran _ => ?_)
    fun _ _ _ _ _ _ => trivial
  cases at_u : body u.db with
  | error e =>
    rw [at_u] at ran
    cases ran
  | ok result =>
    rw [at_u] at ran
    cases ran
    exact ⟨.stores (h u result.1 result.2 (since.trans later) at_u), fun _ _ => trivial⟩

end Rules

/-! Where the revision is still the one that was read, so is the journal. -/

theorem same_row {row saved : JournalRow} (before : s.db.journal = some saved)
    (since : Later s t) (now : t.db.journal = some row) (same : row.revision = saved.revision) :
    row = saved := by
  obtain ⟨row', is, -, -, eq⟩ := since.journal saved before
  cases now.symm.trans is
  exact eq same

theorem safe_open {config : Config} {journal : Journal} :
    SafeCall P i (openFacilityFeeIntents P i config journal) s := by
  unfold openFacilityFeeIntents begin
  refine safe_call fun t _ since => ?_
  refine Tasks.safe_attempt (fun _ => .same) (fun u a v later ran _ => ?_)
    fun _ _ _ _ _ _ => trivial
  simp only [bind_eq_ok, revertIf_eq_ok, not_not, Except.ok.injEq, Prod.mk.injEq] at ran
  obtain ⟨_, closed, db, opened, -, rfl⟩ := ran
  exact ⟨.opens closed opened, fun _ _ => trivial⟩

theorem snapshot_eq_ok {row : JournalRow} (h : db.snapshot = .ok row) :
    db.journal = some row := by
  simpa only [Database.snapshot, orRevert_eq_ok] using h

theorem update_eq_ok {intent : Intent} (h : db.update intent = .ok after) :
    after = { db with intents := Database.put intent db.intents } := by
  simp only [Database.update, bind_eq_ok, Except.ok.injEq] at h
  obtain ⟨_, -, rfl⟩ := h
  rfl

theorem safe_reserve : SafeCall P i (reserve P i) s := by
  unfold reserve config snapshot randomUUID FeeIntents.now
  refine safe_reads fun t config _ _ => safe_reads fun u saved _ at_u => ?_
  refine safe_audit fun v report since audited => ?_
  refine safe_lift fun plan _ => safe_throwIf (safe_call fun w id toW => ?_)
  refine safe_call fun x now toX => safe_transaction fun y intent db toY ran => ?_
  simp only [Database.reserve, bind_eq_ok, revertIf_eq_ok, Except.ok.injEq, Prod.mk.injEq] at ran
  obtain ⟨_, same, _, -, after, added, rfl, rfl⟩ := ran
  obtain ⟨row, is, revision⟩ := requireRevision_eq_ok same
  simp only [Database.insert, bind_eq_ok, revertIf_eq_ok, Except.ok.injEq, Bool.not_eq_false] at added
  obtain ⟨_, fresh, _, one, rfl⟩ := added
  have later : Since i v y := (toW.trans toX).trans toY
  cases same_row (snapshot_eq_ok at_u) (since.trans later.later) is revision
  exact .reserve is (audited.since later) rfl rfl fresh one

theorem safe_cancelReserved {id : String} : SafeCall P i (cancelReserved i id) s := by
  unfold cancelReserved config
  refine safe_reads fun t config _ _ => safe_transaction fun u intent db _ ran => ?_
  simp only [Database.cancelReserved, bind_eq_ok, Except.ok.injEq, Prod.mk.injEq] at ran
  obtain ⟨found, at_id, after, changed, -, rfl⟩ := ran
  obtain ⟨mem, -, is⟩ := requireState_eq_ok at_id
  rw [update_eq_ok changed]
  exact .cancel mem is

theorem safe_beginSigning {id : String} : SafeCall P i (beginSigning P i id) s := by
  unfold beginSigning config requireState snapshot client FeeIntents.now
  refine safe_reads fun t config _ _ => safe_reads fun t' before _ _ => ?_
  refine safe_reads fun u saved _ at_u => safe_audit fun v report since audited => ?_
  refine safe_throwIf (safe_call fun w answers toW => safe_lift fun nonce _ => ?_)
  refine safe_call fun x now toX => safe_throwIf (safe_transaction fun y intent db toY ran => ?_)
  simp only [Database.beginSigning, bind_eq_ok, Except.ok.injEq, Prod.mk.injEq] at ran
  obtain ⟨_, same, found, at_id, after, changed, -, rfl⟩ := ran
  obtain ⟨row, is, revision⟩ := requireRevision_eq_ok same
  obtain ⟨mem, -, reserved⟩ := requireState_eq_ok at_id
  rw [update_eq_ok changed]
  have later : Since i v y := (toW.trans toX).trans toY
  cases same_row (snapshot_eq_ok at_u) (since.trans later.later) is revision
  exact .sign is (audited.since later) mem reserved

theorem safe_verify {config : Config} {intent : Intent} {hash : Hash} {β : Type}
    {k : Unit → Prog β} (h : ∀ t, Since i s t → SafeCall P i (k ()) t) :
    SafeCall P i (verify config intent hash >>= k) s := by
  refine Safe.bind (Tasks.safe_call (fun _ _ _ _ _ _ => trivial) fun t answers since _ _ => ?_)
  cases Client.read (verifyTransaction config intent hash) answers with
  | error e => exact fun _ _ => trivial
  | ok u => exact fun v later => h v (since.trans later)

theorem safe_recordSubmission {id : String} {hash : Hash} :
    SafeCall P i (recordSubmission i id hash) s := by
  unfold recordSubmission config get
  refine safe_reads fun t config _ _ => safe_reads fun u before _ _ => safe_throwIf ?_
  refine safe_verify fun v _ => safe_transaction fun w intent db _ ran => ?_
  simp only [Database.recordSubmission, bind_eq_ok, revertIf_eq_ok, Except.ok.injEq,
    Prod.mk.injEq] at ran
  obtain ⟨found, at_id, _, state, after, changed, -, rfl⟩ := ran
  rw [update_eq_ok changed]
  exact .submit (get_eq_ok at_id).1 (by tauto)

/-- The receipts of an intent are those that were read. -/
theorem same_receipts {before found : Intent} (nodup : (s.db.intents.map Intent.id).Nodup)
    (mem : before ∈ s.db.intents) (since : Later s t) (mem' : found ∈ t.db.intents)
    (same : found.id = before.id) : found.sourceCollectionIds = before.sourceCollectionIds := by
  obtain ⟨nodup', kept⟩ := since.intents nodup
  obtain ⟨b, at_b, id, ids⟩ := kept before mem
  have eq : found = b := List.inj_on_of_nodup_map nodup' mem' at_b (same.trans id.symm)
  exact eq ▸ ids

theorem safe_confirm {id : String} (nodup : (s.db.intents.map Intent.id).Nodup) :
    SafeCall P i (confirm P i id) s := by
  unfold confirm config requireState snapshot FeeIntents.now
  refine safe_reads fun t config toT _ => safe_reads fun t' before toT' at_t' => ?_
  refine safe_reads fun u saved toU at_u => safe_lift fun hash at_hash => ?_
  refine safe_verify fun u' toU' => safe_audit fun v report toV audited => ?_
  refine safe_call fun x now toX => safe_transaction fun y intent db toY ran => ?_
  simp only [Database.confirm, bind_eq_ok, revertIf_eq_ok, not_not, Except.ok.injEq,
    Prod.mk.injEq] at ran
  obtain ⟨_, same, found, at_id, _, hashes, row, at_row, after, changed, -, rfl⟩ := ran
  obtain ⟨row', is, revision⟩ := requireRevision_eq_ok same
  cases is.symm.trans (snapshot_eq_ok at_row)
  obtain ⟨mem, foundId, submitted⟩ := requireState_eq_ok at_id
  obtain ⟨earlier, beforeId, -⟩ := requireState_eq_ok at_t'
  rw [orRevert_eq_ok] at at_hash
  have later : Since i v y := toX.trans toY
  have since : Later u y := (toU'.later.trans toV).trans later.later
  have ids := same_receipts (((toT.trans toT').later.intents nodup).1) earlier
    (toU.later.trans since) mem
    (foundId.trans beforeId.symm)
  cases same_row (snapshot_eq_ok at_u) since is revision
  rw [update_eq_ok changed, ← ids]
  rw [← ids] at audited
  exact .confirm is mem submitted (hashes.trans at_hash) (audited.since later)

theorem safe_run {method : Method} (nodup : (s.db.intents.map Intent.id).Nodup) :
    SafeCall P i (run P i method) s := by
  have done : ∀ (t : World) (intent : Intent),
      SafeCall P i (pure (some intent) : Prog (Option Intent)) t := fun _ _ _ _ => trivial
  cases method with
  | openStore config journal =>
    exact Safe.bind (safe_open.mono (fun _ _ _ _ _ => trivial) fun _ _ h => h)
  | reserve => exact Safe.bind (safe_reserve.mono (fun intent t _ => done t intent) fun _ _ h => h)
  | cancelReserved id =>
    exact Safe.bind (safe_cancelReserved.mono (fun intent t _ => done t intent) fun _ _ h => h)
  | beginSigning id =>
    exact Safe.bind (safe_beginSigning.mono (fun intent t _ => done t intent) fun _ _ h => h)
  | recordSubmission id hash =>
    exact Safe.bind (safe_recordSubmission.mono (fun intent t _ => done t intent) fun _ _ h => h)
  | confirm id =>
    exact Safe.bind ((safe_confirm nodup).mono (fun intent t _ => done t intent) fun _ _ h => h)

end Turret.FeeIntents
