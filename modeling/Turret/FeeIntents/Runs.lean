import Turret.FeeIntents.Changes

/-! Every run of calls on the handles of one store. -/

namespace Turret.FeeIntents

open Execution Tasks Client

variable {P : Platform} {i : Task} {db after : Database} {audits : List AuditRecord}

def confirmed (intents : List Intent) : List Intent := intents.filter (·.state = .confirmed)

/-- The receipts of all remittances. -/
def Journal.receipts (journal : Journal) : List String :=
  journal.remittances.flatMap Remittance.collectionIds

/-- The moves of an intent. -/
inductive Next : State → State → Prop
  | cancel : Next .reserved .cancelled
  | sign : Next .reserved .signing
  | submit : Next .signing .submitted
  | replace : Next .submitted .submitted
  | confirm : Next .submitted .confirmed

/-! ### One change -/

theorem Next.active {a b : State} (h : Next a b) : a.active = true := by
  cases h <;> rfl

theorem Next.unconfirmed {a b : State} (h : Next a b) : a ≠ .confirmed := by
  rintro rfl
  cases h

theorem oneActive_put {a b : Intent} {intents : List Intent}
    (nodup : (intents.map Intent.id).Nodup) (mem : a ∈ intents) (same : b.id = a.id)
    (moves : Next a.state b.state) (h : Database.oneActive intents = true) :
    Database.oneActive (Database.put b intents) = true := by
  obtain ⟨before, after, rfl, changed⟩ := put_split nodup mem same
  rw [changed]
  simp only [Database.oneActive, decide_eq_true_eq, List.filter_append, List.filter_cons,
    moves.active, if_true, List.length_append, List.length_cons] at h ⊢
  split
  · simpa only [List.length_cons] using h
  · omega

/-- The confirmed intents after one has moved. -/
theorem confirmed_put {a b : Intent} {intents : List Intent}
    (nodup : (intents.map Intent.id).Nodup) (mem : a ∈ intents) (same : b.id = a.id)
    (moves : Next a.state b.state) :
    (b.state ≠ .confirmed → confirmed (Database.put b intents) = confirmed intents) ∧
      (b.state = .confirmed → (confirmed (Database.put b intents)).Perm (b :: confirmed intents)) := by
  obtain ⟨before, after, rfl, changed⟩ := put_split nodup mem same
  rw [changed]
  simp only [confirmed, List.filter_append, List.filter_cons, moves.unconfirmed, decide_false,
    Bool.false_eq_true, if_false]
  constructor
  · intro still
    simp only [still, decide_false, Bool.false_eq_true, if_false]
  · intro now
    simp only [now, decide_true, if_true]
    exact List.perm_middle

/-- The rows before and after a change. -/
structure Moved (db after : Database) : Prop where
  rows : ∀ a ∈ db.intents, ∃ b ∈ after.intents, b.id = a.id ∧ (b = a ∨ Next a.state b.state)
  added : ∀ b ∈ after.intents, (∃ a ∈ db.intents, a.id = b.id) ∨ b.state = .reserved

theorem Moved.refl (db : Database) : Moved db db :=
  ⟨fun a mem => ⟨a, mem, rfl, .inl rfl⟩, fun b mem => .inl ⟨b, mem, rfl⟩⟩

theorem moved_put {a b : Intent} (nodup : (db.intents.map Intent.id).Nodup) (mem : a ∈ db.intents)
    (same : b.id = a.id) (moves : Next a.state b.state)
    (put : after.intents = Database.put b db.intents) : Moved db after := by
  obtain ⟨before, rest, split, changed⟩ := put_split nodup mem same
  rw [changed] at put
  constructor
  · intro c at_c
    rw [split] at at_c
    rw [put]
    rcases List.mem_append.mp at_c with early | late
    · exact ⟨c, List.mem_append_left _ early, rfl, .inl rfl⟩
    · rcases List.mem_cons.mp late with rfl | late
      · exact ⟨b, by simp, same, .inr moves⟩
      · exact ⟨c, by simp [late], rfl, .inl rfl⟩
  · intro c at_c
    rw [put] at at_c
    refine .inl ?_
    rw [split]
    rcases List.mem_append.mp at_c with early | late
    · exact ⟨c, List.mem_append_left _ early, rfl⟩
    · rcases List.mem_cons.mp late with rfl | late
      · exact ⟨a, by simp, same.symm⟩
      · exact ⟨c, by simp [late], rfl⟩

/-- The audit of a journal that succeeded has found no receipt assigned twice. -/
theorem Audited.receipts {journal : Journal} {report : Report}
    (h : Audited P audits i journal report) : journal.receipts.Nodup := by
  obtain ⟨record, -, rfl, passed⟩ := h
  obtain ⟨collections, attributed⟩ := auditFeeJournal_spec passed
  exact attributed.assigned

/-! ### The invariant -/

/-- The journal is that of the start with the remittances of the confirmed intents. -/
structure Books (row : JournalRow) (intents : List Intent) : Prop where
  revision : row.revision = (confirmed intents).length
  added : ∃ earlier later, row.payload.remittances = earlier ++ later ∧
    (later.map Remittance.collectionIds).Perm
      ((confirmed intents).map Intent.sourceCollectionIds)
  audited : 0 < row.revision → row.payload.receipts.Nodup

structure Inv (P : Platform) (w : World) : Prop where
  ids : (w.db.intents.map Intent.id).Nodup
  one : Database.oneActive w.db.intents = true
  empty : w.db.journal = none → w.db.intents = []
  books : ∀ row, w.db.journal = some row → Books row w.db.intents
  identity : ∀ process config, w.opened process = some config → ∃ row journal,
    w.db.journal = some row ∧ row.identity = P.fingerprint (.options config journal)

/-- The change of the journal that goes with that of an intent. -/
def Follows (P : Platform) (audits : List AuditRecord) (i : Task) (db : Database) (b : Intent)
    (journal : Option JournalRow) : Prop :=
  b.state ≠ .confirmed ∧ journal = db.journal ∨
    b.state = .confirmed ∧ ∃ row hash report, db.journal = some row ∧
      Audited P audits i (withRemittance row.payload hash b.sourceCollectionIds) report ∧
      journal = some ⟨row.identity, row.revision + 1,
        withRemittance row.payload hash b.sourceCollectionIds⟩

/-- A change adds a reserved intent, or moves one on. -/
theorem Change.moves (h : Change P audits i db after) :
    (∃ b, b.state = .reserved ∧ db.journal ≠ none ∧
      Database.oneActive (db.intents ++ [b]) = true ∧
      after = { db with intents := db.intents ++ [b] }) ∨
    ∃ a b, after.intents = Database.put b db.intents ∧ a ∈ db.intents ∧ b.id = a.id ∧
      Next a.state b.state ∧ Follows P audits i db b after.journal := by
  cases h with
  | @reserve row report intent at_row _ reserved _ _ room =>
    exact .inl ⟨intent, reserved, by simp [at_row], room, rfl⟩
  | @cancel intent mem is =>
    exact .inr ⟨intent, _, rfl, mem, rfl, by rw [is]; exact .cancel, .inl ⟨nofun, rfl⟩⟩
  | @sign row report intent nonce _ _ mem is =>
    exact .inr ⟨intent, _, rfl, mem, rfl, by rw [is]; exact .sign, .inl ⟨nofun, rfl⟩⟩
  | @submit intent hash mem is =>
    have next : Next intent.state .submitted := by
      rcases is with is | is
      · rw [is]
        exact .submit
      · rw [is]
        exact .replace
    exact .inr ⟨intent, _, rfl, mem, rfl, next, .inl ⟨nofun, rfl⟩⟩
  | @confirm row report intent hash now at_row mem is _ audited =>
    exact .inr ⟨intent, _, rfl, mem, rfl, by rw [is]; exact .confirm,
      .inr ⟨rfl, row, hash, report, at_row, audited, rfl⟩⟩

theorem Change.moved (h : Change P audits i db after)
    (nodup : (db.intents.map Intent.id).Nodup) : Moved db after := by
  rcases h.moves with ⟨b, reserved, -, -, rfl⟩ | ⟨a, b, put, mem, same, next, -⟩
  · refine ⟨fun a mem => ⟨a, List.mem_append_left _ mem, rfl, .inl rfl⟩, fun c mem => ?_⟩
    rcases List.mem_append.mp mem with old | new
    · exact .inl ⟨c, old, rfl⟩
    · rw [List.mem_singleton.mp new]
      exact .inr reserved
  · exact moved_put nodup mem same next put

theorem Change.one (h : Change P audits i db after) (nodup : (db.intents.map Intent.id).Nodup)
    (one : Database.oneActive db.intents = true) : Database.oneActive after.intents = true := by
  rcases h.moves with ⟨b, -, -, room, rfl⟩ | ⟨a, b, put, mem, same, next, -⟩
  · exact room
  · rw [put]
    exact oneActive_put nodup mem same next one

/-- A change that confirms nothing. -/
theorem Books.quiet {row : JournalRow} {intents intents' : List Intent} (h : Books row intents)
    (same : confirmed intents' = confirmed intents) : Books row intents' :=
  ⟨h.revision.trans (congrArg List.length same.symm), by rw [same]; exact h.added, h.audited⟩

theorem confirmed_snoc {intents : List Intent} {b : Intent} (h : b.state ≠ .confirmed) :
    confirmed (intents ++ [b]) = confirmed intents := by
  simp [confirmed, List.filter_append, h]

theorem Change.books (h : Change P audits i db after) (nodup : (db.intents.map Intent.id).Nodup)
    (books : ∀ row, db.journal = some row → Books row db.intents) (row : JournalRow)
    (is : after.journal = some row) : Books row after.intents := by
  rcases h.moves with ⟨b, reserved, -, -, rfl⟩ | ⟨a, b, put, mem, same, next, follows⟩
  · exact (books row is).quiet (confirmed_snoc (by rw [reserved]; decide))
  · obtain ⟨still, grown⟩ := confirmed_put nodup mem same next
    rw [put]
    rcases follows with ⟨other, kept⟩ | ⟨now, old, hash, report, at_row, audited, changed⟩
    · exact (books row (kept.symm.trans is)).quiet (still other)
    · cases changed.symm.trans is
      obtain ⟨revision, ⟨earlier, later, split, perm⟩, -⟩ := books old at_row
      have one := grown now
      refine ⟨?_, ⟨earlier, later ++ [⟨hash, b.sourceCollectionIds⟩], ?_, ?_⟩,
        fun _ => audited.receipts⟩
      · rw [one.length_eq, List.length_cons, revision]
      · simp only [withRemittance, split, List.append_assoc]
      · rw [List.map_append]
        exact (List.perm_append_comm.trans (perm.cons _)).trans
          (one.map Intent.sourceCollectionIds).symm

/-- The journal is there before any intent is, and stays. -/
theorem Change.stays (h : Change P audits i db after) (empty : db.journal = none → db.intents = []) :
    db.journal ≠ none ∧ after.journal ≠ none := by
  rcases h.moves with ⟨b, -, there, -, rfl⟩ | ⟨a, b, -, mem, -, -, follows⟩
  · exact ⟨there, there⟩
  · have there : db.journal ≠ none := fun none => by
      rw [empty none] at mem
      cases mem
    rcases follows with ⟨-, kept⟩ | ⟨-, _, _, _, _, -, changed⟩
    · exact ⟨there, kept ▸ there⟩
    · exact ⟨there, by simp [changed]⟩

theorem Act.inv {s t : World} (h : Act P i s t) (inv : Inv P s) : Inv P t := by
  cases h with
  | same => exact inv
  | audits _ => exact ⟨inv.ids, inv.one, inv.empty, inv.books, inv.identity⟩
  | @opens config journal db closed done =>
    obtain ⟨intents, opened⟩ := openJournal_eq_ok done
    have named : ∃ row, db.journal = some row ∧
        row.identity = P.fingerprint (.options config journal) ∧
        ∀ row', s.db.journal = some row' → db.journal = some row' := by
      rcases opened with ⟨row, is, identity, rfl⟩ | ⟨none, is⟩
      · exact ⟨row, is, identity, fun _ is' => is'⟩
      · exact ⟨_, is, rfl, fun row' is' => by rw [none] at is'; cases is'⟩
    obtain ⟨row, is, identity, kept⟩ := named
    refine ⟨?_, ?_, fun none => ?_, fun row' is' => ?_, fun process other is' => ?_⟩
    · change (db.intents.map Intent.id).Nodup
      rw [intents]
      exact inv.ids
    · change Database.oneActive db.intents = true
      rw [intents]
      exact inv.one
    · change db.journal = _ at none
      rw [is] at none
      cases none
    · change Books row' db.intents
      rw [intents]
      rcases opened with ⟨row, is, -, rfl⟩ | ⟨none, is⟩
      · exact inv.books row' is'
      · cases is.symm.trans is'
        rw [inv.empty none]
        exact ⟨rfl, ⟨_, [], (List.append_nil _).symm, .nil⟩, fun pos => absurd pos (lt_irrefl 0)⟩
    · by_cases same : process = i.1
      · subst same
        change Function.update _ _ _ _ = _ at is'
        rw [Function.update_self] at is'
        cases is'
        exact ⟨row, journal, is, identity⟩
      · change Function.update _ _ _ _ = _ at is'
        rw [Function.update_of_ne same] at is'
        obtain ⟨row', journal', at_row', identity'⟩ := inv.identity process other is'
        exact ⟨row', journal', kept row' at_row', identity'⟩
  | @stores db change =>
    refine ⟨(change.kept inv.ids).1, change.one inv.ids inv.one, fun none => ?_,
      change.books inv.ids inv.books, fun process config is => ?_⟩
    · exact absurd none (change.stays inv.empty).2
    · obtain ⟨row, journal, at_row, identity⟩ := inv.identity process config is
      obtain ⟨row', is', same, -⟩ := change.journal at_row
      exact ⟨row', journal, is', same.trans identity⟩

/-! ### Every run -/

abbrev Handles := System World Query (fun q => Except Err q.Result) Err (Option Intent) Task

/-- A store that nobody has opened. -/
structure Fresh (s : Handles) : Prop where
  journal : s.shared.db.journal = none
  intents : s.shared.db.intents = []
  opened : ∀ process, s.shared.opened process = none
  tasks : ∀ i, ∃ e, s.task i = .fail e

/-- The journal before and after a step, and what goes with a new revision. -/
def Revised (db after : Database) (row row' : JournalRow) : Prop :=
  row' = row ∧ confirmed after.intents = confirmed db.intents ∨
    row'.revision = row.revision + 1 ∧ ∃ a ∈ db.intents, a.state = .submitted ∧
      ∃ b ∈ after.intents, b.id = a.id ∧ b.state = .confirmed ∧
        (confirmed after.intents).Perm (b :: confirmed db.intents)

/-- What one step does. -/
structure Stepped (P : Platform) (s t : World) : Prop where
  change : t.db = s.db ∨
    s.db.journal = none ∧ (∃ identity journal, t.db = ⟨some ⟨identity, 0, journal⟩, s.db.intents⟩) ∨
    ∃ i, Change P s.audits i s.db t.db
  moved : Moved s.db t.db
  revised : ∀ row row', s.db.journal = some row → t.db.journal = some row' →
    Revised s.db t.db row row'
  receipts : ∀ row row', s.db.journal = some row → t.db.journal = some row' →
    row.payload.receipts.Nodup → row'.payload.receipts.Nodup

theorem Change.stepped {s t : World} (h : Change P s.audits i s.db t.db) (inv : Inv P s) :
    Stepped P s t := by
  refine ⟨.inr (.inr ⟨i, h⟩), h.moved inv.ids, fun row row' is is' => ?_,
    fun row row' is is' clean => ?_⟩
  · rcases h.moves with ⟨b, reserved, -, -, after⟩ | ⟨a, b, put, mem, same, next, follows⟩
    · rw [after] at is' ⊢
      cases is.symm.trans is'
      exact .inl ⟨rfl, confirmed_snoc (by rw [reserved]; decide)⟩
    · obtain ⟨still, grown⟩ := confirmed_put inv.ids mem same next
      rcases follows with ⟨other, kept⟩ | ⟨now, old, hash, report, at_row, -, changed⟩
      · cases is.symm.trans (kept.symm.trans is')
        exact .inl ⟨rfl, by rw [put]; exact still other⟩
      · cases is.symm.trans at_row
        cases changed.symm.trans is'
        have submitted : a.state = .submitted := by
          rw [now] at next
          generalize a.state = state at next
          cases next
          rfl
        refine .inr ⟨rfl, a, mem, submitted, b, ?_, same, now, by rw [put]; exact grown now⟩
        rw [put]
        obtain ⟨before, rest, -, split⟩ := put_split inv.ids mem same
        simp [split]
  · rcases h.moves with ⟨b, -, -, -, after⟩ | ⟨a, b, -, -, -, -, follows⟩
    · rw [after] at is'
      cases is.symm.trans is'
      exact clean
    · rcases follows with ⟨-, kept⟩ | ⟨-, old, hash, report, -, audited, changed⟩
      · cases is.symm.trans (kept.symm.trans is')
        exact clean
      · cases changed.symm.trans is'
        exact audited.receipts

theorem Stepped.same {s t : World} (h : t.db = s.db) : Stepped P s t := by
  refine ⟨.inl h, h ▸ .refl _, fun row row' is is' => ?_, fun row row' is is' clean => ?_⟩
  · rw [h] at is'
    cases is.symm.trans is'
    exact .inl ⟨rfl, by rw [h]⟩
  · rw [h] at is'
    cases is.symm.trans is'
    exact clean

theorem Act.stepped {s t : World} (h : Act P i s t) (inv : Inv P s) : Stepped P s t := by
  cases h with
  | same => exact .same rfl
  | audits _ => exact .same rfl
  | @opens config journal db closed done =>
    obtain ⟨intents, opened⟩ := openJournal_eq_ok done
    rcases opened with ⟨row, -, -, rfl⟩ | ⟨none, is⟩
    · exact .same rfl
    · have made : db = ⟨some ⟨P.fingerprint (.options config journal), 0, journal⟩, s.db.intents⟩ := by
        cases db
        simp_all
      refine ⟨.inr (.inl ⟨none, _, _, made⟩), ?_, fun row _ is' => ?_, fun row _ is' => ?_⟩
      · exact ⟨fun a mem => ⟨a, intents ▸ mem, rfl, .inl rfl⟩,
          fun b mem => .inl ⟨b, intents ▸ mem, rfl⟩⟩
      · rw [none] at is'
        cases is'
      · rw [none] at is'
        cases is'
  | stores change => exact Change.stepped (t := { s with db := _ }) change inv

/-- What holds in every state of a run. -/
structure Going (P : Platform) (s : Handles) : Prop where
  sound : Sound (contract P) (fun _ _ _ => True) (fun _ _ _ => True) s
  inv : Inv P s.shared

theorem Going.start {s : Handles} (fresh : Fresh s) : Going P s := by
  refine ⟨fun i => ?_, ?_, ?_, fun _ => fresh.intents, fun row is => ?_, fun process config is => ?_⟩
  · obtain ⟨e, failed⟩ := fresh.tasks i
    rw [failed]
    exact fun _ _ => trivial
  · rw [fresh.intents]
    exact List.nodup_nil
  · rw [fresh.intents]
    rfl
  · rw [fresh.journal] at is
    cases is
  · rw [fresh.opened] at is
    cases is

theorem effect_act {s t : World} (h : Effect (machine P) (contract P) s t) : ∃ i, Act P i s t := by
  rcases h with rfl | ⟨i, -, act⟩ | ⟨e, -⟩
  · exact ⟨(0, 0), .same⟩
  · exact ⟨i, act⟩
  · exact nomatch e

theorem Going.step {s t : Handles} {move : Move Task Method Empty} (h : Going P s)
    (moved : Step (machine P) s move t) : Going P t ∧ Stepped P s.shared t.shared := by
  obtain ⟨sound, effect⟩ := h.sound.step compatible (fun i k _ => safe_run h.inv.ids) moved
    fun _ _ => trivial
  obtain ⟨i, act⟩ := effect_act effect
  exact ⟨⟨sound, act.inv h.inv⟩, act.stepped h.inv⟩

theorem Going.run {s t : Handles} {moves : List (Move Task Method Empty)} (h : Going P s)
    (run : Run (Step (machine P)) s moves t) : Going P t :=
  run.invariant (Going P) (fun _ _ _ now moved => (now.step moved).1) h

theorem Books.receipts {row : JournalRow} {intents : List Intent} (h : Books row intents) :
    ((confirmed intents).flatMap Intent.sourceCollectionIds).Nodup := by
  by_cases none : row.revision = 0
  · rw [List.length_eq_zero_iff.mp (h.revision.symm.trans none)]
    exact List.nodup_nil
  · obtain ⟨earlier, later, split, perm⟩ := h.added
    have all := h.audited (Nat.pos_of_ne_zero none)
    rw [Journal.receipts, split, List.flatMap_append] at all
    have last : (later.map Remittance.collectionIds).flatten.Nodup :=
      (List.nodup_append.mp all).2.1
    exact perm.flatten.nodup_iff.mp last

/-- The intents, the journal and the audits of every run. -/
theorem fee_intents_exclusive (P : Platform) (s t : Handles) (fresh : Fresh s)
    (moves : List (Move Task Method Empty)) (run : Run (Step (machine P)) s moves t) :
    (t.shared.db.intents.filter (·.state.active)).length ≤ 1 ∧
    (∀ row, t.shared.db.journal = some row →
      row.revision = (confirmed t.shared.db.intents).length ∧
      (0 < row.revision → row.payload.receipts.Nodup)) ∧
    ((confirmed t.shared.db.intents).flatMap Intent.sourceCollectionIds).Nodup ∧
    (∀ move u, Step (machine P) t move u → Stepped P t.shared u.shared) ∧
    ∀ record ∈ t.shared.audits, ∀ report,
      Client.read (auditFeeJournal P.viem record.config record.journal) record.answers =
        .ok report →
      ∃ collections, Attributed P.viem record.answers record.config record.journal report
        collections ∧
      ∀ chain, Truthful P.viem record.answers record.config.router chain → ∀ value ∈ chain,
        record.journal.baseline.blockNumber < value.blockNumber →
        value.blockNumber ≤ report.blockNumber →
        0 < routed P.viem record.config.router value →
        value.transactionHash ∈ record.journal.remittances.map Remittance.hash := by
  have going : Going P t := (Going.start fresh).run run
  have inv := going.inv
  refine ⟨of_decide_eq_true inv.one, fun row is => ?_, ?_, fun move u moved => (going.step moved).2,
    fun record _ report passed => ?_⟩
  · exact ⟨(inv.books row is).revision, (inv.books row is).audited⟩
  · cases at_row : t.shared.db.journal with
    | none =>
      rw [inv.empty at_row]
      exact List.nodup_nil
    | some row => exact (inv.books row at_row).receipts
  · obtain ⟨collections, attributed⟩ := auditFeeJournal_spec passed
    exact ⟨collections, attributed, fun chain truthful => attributed.journaled truthful⟩

/-! ### A fee from its receipt to its confirmed remittance -/

def codeHash : Hash := "0x1a578b7a4b0b5755db6d121b4118d4bc68fe170dca840c59bc922f14175a76b0"
def zeroSlot : Hash := "0x0000000000000000000000000000000000000000000000000000000000000000"
def facility : Address := "0x00000000000000000000000000000000000000a1"
def treasury : Address := "0x00000000000000000000000000000000000000a2"
def router : Address := "0x00000000000000000000000000000000000000a3"
def staking : Address := "0x00000000000000000000000000000000000000a4"
def usdg : Address := "0x00000000000000000000000000000000000000a5"
def vault : Address := "0x00000000000000000000000000000000000000a6"

def collectionHash : Hash := "0xcccccccccccccccccccccccccccccccccccccccccccccccccccccccccccccccc"
def remittanceHash : Hash := "0xdddddddddddddddddddddddddddddddddddddddddddddddddddddddddddddddd"

def feeCollectedTopics : List String :=
  ["0xf1d6c8ee14081f641e2073a1064d870f135f1001a301c6b14a7b9655672fec11",
    "0x0000000000000000000000000000000000000000000000000000000000000001",
    "0x00000000000000000000000000000000000000000000000000000000000000a2"]

def transferTopics (sender recipient : String) : List String :=
  ["0xddf252ad1be2c89b69c2b068fc378daa952ba7f163c4a11628f55a4df523b3ef",
    "0x000000000000000000000000" ++ sender, "0x000000000000000000000000" ++ recipient]

def routedTopics : List String :=
  ["0x4a1809e0c8d83bef190198c44a373b4473530240515edc590230273768bd4359"]

/-- 1 and 0.5 of the token, as words. -/
def whole : String := "00000000000000000000000000000000000000000000000000000000000f4240"
def half : String := "000000000000000000000000000000000000000000000000000000000007a120"

def forwardCall : String := "0x3c0c0582" ++ whole

/-- The events and calls of the sample, as the library decodes them. -/
def sampleViem : Viem where
  keccak256 _ := codeHash
  decodeEventLog topics data :=
    if topics = feeCollectedTopics ∧ data = "0x" ++ whole then
      some (.feeCollected 1 treasury 1000000)
    else if topics = transferTopics "00000000000000000000000000000000000000a6" "00000000000000000000000000000000000000a2" ∧ data = "0x" ++ whole then
      some (.transfer vault treasury 1000000)
    else if topics = transferTopics "00000000000000000000000000000000000000a2" "00000000000000000000000000000000000000a3" ∧ data = "0x" ++ half then
      some (.transfer treasury router 500000)
    else if topics = transferTopics "00000000000000000000000000000000000000a3" "00000000000000000000000000000000000000a4" ∧ data = "0x" ++ half then
      some (.transfer router staking 500000)
    else if topics = routedTopics ∧ data = "0x" ++ whole ++ half then
      some (.claimedFeesForwarded 1000000 500000)
    else none
  decodeFunctionData input := if input = forwardCall then some (.forwardClaimedFees 1000000) else none
  encodeForwardClaimedFees gross := if gross = 1000000 then forwardCall else "0x"

/-- The fingerprints of the sample differ where its values do. -/
def samplePlatform : Platform where
  viem := sampleViem
  fingerprint value := match value with
    | .options _ _ => "options"
    | .ids ids => ",".intercalate ids
    | .plan plan => plan.elim "null" Plan.data

def sampleConfig : Config where
  chainId := 31337
  facilities := [⟨facility, codeHash⟩]
  treasury := treasury
  router := router
  staking := staking
  usdg := usdg
  routerRuntimeHash := codeHash
  stakingRuntimeHash := codeHash
  usdgRuntimeHash := codeHash
  tokenBaseline := ⟨1, 31337, 1, zeroSlot, [⟨usdg, codeHash, zeroSlot, zeroSlot, 6, [], none, none⟩]⟩

def sampleJournal (remittances : List Remittance) : Journal :=
  ⟨1, ⟨1, zeroSlot, 0⟩, [collectionHash], remittances⟩

def collectionReceipt : Receipt where
  status := .success
  transactionHash := collectionHash
  blockNumber := 3
  blockHash := zeroSlot
  transactionIndex := 0
  sender := treasury
  recipient := some facility
  logs := [⟨usdg, transferTopics "00000000000000000000000000000000000000a6" "00000000000000000000000000000000000000a2", "0x" ++ whole, 0⟩,
    ⟨facility, feeCollectedTopics, "0x" ++ whole, 1⟩]

def remittanceReceipt : Receipt where
  status := .success
  transactionHash := remittanceHash
  blockNumber := 12
  blockHash := zeroSlot
  transactionIndex := 0
  sender := treasury
  recipient := some router
  logs := [⟨usdg, transferTopics "00000000000000000000000000000000000000a2" "00000000000000000000000000000000000000a3", "0x" ++ half, 0⟩,
    ⟨usdg, transferTopics "00000000000000000000000000000000000000a3" "00000000000000000000000000000000000000a4", "0x" ++ half, 1⟩,
    ⟨router, routedTopics, "0x" ++ whole ++ half, 2⟩]

def sampleAddress : AddressGetter → Address
  | .treasury => treasury
  | .rewardToken => usdg
  | .staking => staking
  | .distributor => router
  | .feeRecipient => treasury
  | .loanToken => usdg

def sampleUint (block : ℕ) : UintGetter → ℕ
  | .stakerShareBps => 5000
  | .totalCollected => 0
  | .totalTreasuryReported => if block < 12 then 0 else 1000000
  | .totalDistributed => if block < 12 then 0 else 500000
  | .balanceOf _ => 5000000
  | .allowance _ _ => 5000000

/-- The answers of a chain whose head is given; the fees are forwarded in block 12. -/
def sampleClient (head : ℕ) : ChainClient := fun _ q => match q with
  | .now => .ok (1000000 : ℕ)
  | .chainId => .ok (31337 : ℕ)
  | .latestBlock => .ok (⟨some head, some zeroSlot, 1000⟩ : Block)
  | .block number => .ok (⟨some number, some zeroSlot, 1000⟩ : Block)
  | .code _ _ => .ok (some "0x6080" : Option String)
  | .readAddress _ getter _ => .ok (sampleAddress getter)
  | .readUint _ getter block => .ok (sampleUint block getter)
  | .loan _ _ _ => .ok (⟨vault, 2⟩ : Loan)
  | .inspectTokenBaseline _ _ => .ok (none : Option String)
  | .transactionReceipt hash =>
    .ok (if hash = collectionHash then collectionReceipt else remittanceReceipt)
  | .transaction hash => .ok (⟨hash, treasury, some router, 7, 0, forwardCall⟩ : Transaction)
  | .pendingTransactionCount _ => .ok (7 : ℕ)

def sampleAnswers (head : ℕ) : (q : Query) → Option (Except Err q.Result)
  | .client => some (.ok (sampleClient head))
  | .begin => some (.ok ())
  | .now => some (.ok (1000000 : ℕ))
  | .uuid => some (.ok "intent")

def unopened : Handles := ⟨⟨⟨none, []⟩, fun _ => none, []⟩, fun _ => .fail .rpc⟩

theorem fresh_unopened : Fresh unopened :=
  ⟨rfl, rfl, fun _ => rfl, fun _ => ⟨.rpc, rfl⟩⟩

/-- A call that is not interrupted. -/
def alone (head steps : ℕ) (method : Method) :
    List (Choice (fun q : Query => Except Err q.Result) Task Method Empty) :=
  .begin (0, 0) method :: List.replicate steps (.go (0, 0) (sampleAnswers head))

def reachedBy (choices : List (Choice (fun q : Query => Except Err q.Result) Task Method Empty)) :
    Option Handles :=
  System.exec (machine samplePlatform) (fun _ _ _ => true) (fun _ _ _ => true) choices unopened

theorem run_of_reachedBy
    {choices : List (Choice (fun q : Query => Except Err q.Result) Task Method Empty)}
    {t : Handles} (h : reachedBy choices = some t) :
    ∃ moves, Run (Step (machine samplePlatform)) unopened moves t :=
  run_of_exec (fun _ _ _ _ => trivial) (fun _ _ _ moved _ => moved) h

/-- A journal that assigns one receipt twice is opened as it is. -/
theorem opened_assigned_twice : ∃ t moves row id,
    Fresh unopened ∧ Run (Step (machine samplePlatform)) unopened moves t ∧
    t.shared.db.journal = some row ∧
    row.payload.remittances = [⟨remittanceHash, [id]⟩, ⟨collectionHash, [id]⟩] := by
  have computed : (reachedBy (alone 10 2 (.openStore sampleConfig (sampleJournal
      [⟨remittanceHash, ["fee"]⟩, ⟨collectionHash, ["fee"]⟩])))).bind
      (fun t => t.shared.db.journal.map fun row => row.payload.remittances) =
      some [⟨remittanceHash, ["fee"]⟩, ⟨collectionHash, ["fee"]⟩] := by
    decide +kernel
  obtain ⟨t, reached, at_t⟩ := Option.bind_eq_some_iff.mp computed
  obtain ⟨row, is, remittances⟩ := Option.map_eq_some_iff.mp at_t
  obtain ⟨moves, run⟩ := run_of_reachedBy reached
  exact ⟨t, moves, row, "fee", fresh_unopened, run, is, remittances⟩

def sampleCalls : List (Choice (fun q : Query => Except Err q.Result) Task Method Empty) :=
  alone 10 2 (.openStore sampleConfig (sampleJournal [])) ++ alone 10 8 .reserve ++
    alone 10 9 (.beginSigning "intent") ++
    alone 20 5 (.recordSubmission "intent" remittanceHash) ++ alone 20 9 (.confirm "intent")

theorem sample_fee_intents_exclusive : ∃ t moves,
    Run (Step (machine samplePlatform)) unopened moves t ∧
    t.shared.db.intents.map Intent.state = [.confirmed] ∧
    (t.shared.db.intents.filter (·.state.active)).length ≤ 1 ∧
    ∃ row, t.shared.db.journal = some row ∧ row.revision = 1 ∧
      row.revision = (confirmed t.shared.db.intents).length ∧ row.payload.receipts.Nodup := by
  have computed : (reachedBy sampleCalls).map (fun t =>
      (t.shared.db.intents.map Intent.state, t.shared.db.journal.map JournalRow.revision)) =
      some ([.confirmed], some 1) := by
    decide +kernel
  obtain ⟨t, reached, at_t⟩ := Option.map_eq_some_iff.mp computed
  obtain ⟨moves, run⟩ := run_of_reachedBy reached
  obtain ⟨states, revisions⟩ := Prod.mk.inj at_t
  obtain ⟨row, is, revision⟩ := Option.map_eq_some_iff.mp revisions
  obtain ⟨one, journal, -⟩ := fee_intents_exclusive samplePlatform unopened t fresh_unopened moves run
  obtain ⟨count, receipts⟩ := journal row is
  exact ⟨t, moves, run, states, one, row, is, revision, count, receipts (by rw [revision]; decide)⟩

end Turret.FeeIntents
