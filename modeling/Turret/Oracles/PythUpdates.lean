import Turret.Oracles.PythFormat
import Mathlib.Data.List.Perm.Subperm

/-! The payloads that the verifier accepts are the encodings of reports, and what it
stores is what they say. -/

namespace Turret.PythVerifier

open Execution Bytes Uint256

/-- The report of a feed, the order in which its properties are written, and whether the time of
its update is left out. -/
structure Feed where
  id : UInt32
  report : Report
  order : List Property
  absent : Bool

namespace Feed

/-- What is written for the property. -/
def written (feed : Feed) (p : Property) : Option ℕ :=
  if p = .feedUpdateTimestamp ∧ feed.absent = true then none else some (p.word feed.report)

def fields (feed : Feed) : List Field := feed.order.map fun p => (p, feed.written p)

def bytes (feed : Feed) : List UInt8 :=
  encode 4 feed.id.toNat ++ encode 1 6 ++ layoutAll feed.fields

structure Valid (timestampUs : UInt64) (feed : Feed) : Prop where
  id : feed.id ≠ 0
  order : feed.order.Perm Property.all
  absent : feed.absent = true → feed.report.feedUpdateTimestampUs = 0
  timestamp : feed.report.timestampUs = timestampUs
  session : feed.report.session ≤ 4
  updated : feed.report.feedUpdateTimestampUs ≤ timestampUs

end Feed

structure Message where
  timestampUs : UInt64
  channel : ℕ
  feeds : List Feed

namespace Message

def bytes (m : Message) : List UInt8 :=
  encode 4 2479346549 ++ encode 8 m.timestampUs.toNat ++ encode 1 m.channel ++
    encode 1 m.feeds.length ++ m.feeds.flatMap Feed.bytes

/-- A message that may be taken at this time. -/
structure Valid (now : ℕ) (m : Message) : Prop where
  timestamp : m.timestampUs ≠ 0
  past : m.timestampUs.toNat ≤ now * 1000000
  recent : now * 1000000 < m.timestampUs.toNat + MAX_REPORT_AGE * 1000000
  channel : 1 ≤ m.channel ∧ m.channel ≤ 4
  count : 1 ≤ m.feeds.length ∧ m.feeds.length ≤ 32
  ids : (m.feeds.map Feed.id).Nodup
  feeds : ∀ feed ∈ m.feeds, feed.Valid m.timestampUs

/-- The reports after the message. -/
def stored (m : Message) (reports : Reports) : Reports :=
  m.feeds.foldl (fun reports feed => store feed.id feed.report reports) reports

end Message

/-! ### One feed -/

section Feed

variable {timestampUs : UInt64} {feed : Feed} {fields : List Field} {r : Report}

theorem nodup_all : Property.all.Nodup := by decide

theorem mem_all (p : Property) : p ∈ Property.all := by cases p <;> decide

/-- Six different properties are all there are. -/
theorem perm_all {order : List Property} (nodup : order.Nodup) (six : order.length = 6) :
    order.Perm Property.all := by
  refine List.Subperm.perm_of_length_le (List.subperm_of_subset nodup fun p _ => mem_all p) ?_
  exact six.symm.le

theorem marks_all {order : List Property} (h : order.Perm Property.all) : marks order = 4665 :=
  (marks_perm h).trans (by decide)

theorem Feed.fits_fields : ∀ field ∈ feed.fields, field.1.Fits field.2 := by
  intro field mem
  obtain ⟨p, -, rfl⟩ := List.mem_map.mp mem
  dsimp only [Feed.written]
  split
  · exact And.left ‹_›
  · exact Property.word_lt _ _

theorem Feed.names_fields : feed.fields.map Prod.fst = feed.order := by
  rw [Feed.fields, List.map_map]
  exact List.map_id _

/-- What is written of a report reads as the report. -/
theorem Feed.Valid.putAll_fields (h : feed.Valid timestampUs) :
    putAll feed.fields (blank timestampUs) = feed.report := by
  have nodup : (feed.fields.map Prod.fst).Nodup :=
    Feed.names_fields.symm ▸ h.order.nodup_iff.mpr nodup_all
  refine Report.ext_words (timestamp_putAll.trans h.timestamp.symm) fun p => ?_
  have mem : (p, feed.written p) ∈ feed.fields :=
    List.mem_map_of_mem (h.order.mem_iff.mpr (mem_all p))
  rw [word_putAll mem nodup (Feed.fits_fields _ mem), Feed.written]
  split
  · rename_i left
    obtain ⟨rfl, absent⟩ := left
    exact (congrArg UInt64.toNat (h.absent absent)).symm
  · rfl

/-- The feed whose properties were read. -/
def readAs (id : UInt32) (timestampUs : UInt64) (fields : List Field) : Feed where
  id := id
  report := putAll fields (blank timestampUs)
  order := fields.map Prod.fst
  absent := fields.any fun field => decide (field = (.feedUpdateTimestamp, none))

theorem fields_readAs {id : UInt32} (nodup : (fields.map Prod.fst).Nodup)
    (fits : ∀ field ∈ fields, field.1.Fits field.2) :
    (readAs id timestampUs fields).fields = fields := by
  rw [Feed.fields, readAs, List.map_map]
  refine (List.map_congr_left fun field mem => ?_).trans (List.map_id fields)
  obtain ⟨p, word⟩ := field
  refine Prod.ext rfl ?_
  dsimp only [Function.comp_apply, Feed.written, id_eq]
  have read := word_putAll (r := blank timestampUs) mem nodup (fits _ mem)
  cases word with
  | none =>
    refine if_pos ⟨fits _ mem, ?_⟩
    obtain rfl : p = .feedUpdateTimestamp := fits _ mem
    exact List.any_eq_true.mpr ⟨_, mem, decide_eq_true rfl⟩
  | some value =>
    rw [if_neg, read, Option.getD_some]
    rintro ⟨rfl, left⟩
    obtain ⟨other, there, is⟩ := List.any_eq_true.mp left
    rw [of_decide_eq_true is] at there
    cases List.inj_on_of_nodup_map nodup there mem rfl

theorem valid_readAs {id : UInt32} (known : id ≠ 0) (nodup : (fields.map Prod.fst).Nodup)
    (six : fields.length = 6) (fits : ∀ field ∈ fields, field.1.Fits field.2)
    (session : (readAs id timestampUs fields).report.session ≤ 4)
    (updated : (readAs id timestampUs fields).report.feedUpdateTimestampUs ≤ timestampUs) :
    (readAs id timestampUs fields).Valid timestampUs := by
  refine ⟨known, perm_all nodup ((List.length_map _).trans six), fun left => ?_, timestamp_putAll,
    session, updated⟩
  obtain ⟨field, mem, is⟩ := List.any_eq_true.mp left
  rw [of_decide_eq_true is] at mem
  exact UInt64.toNat_inj.mp (word_putAll mem nodup (fits _ mem))

variable {data : List UInt8} {cursor : ℕ} {ids : List UInt32} {reports : Reports}
  {next : ℕ × List UInt32 × Reports}

/-- The body of the outer loop reads the encoding of a feed. -/
theorem readFeed_eq_ok : readFeed data timestampUs cursor ids reports = .ok next ↔
    ∃ feed : Feed, feed.Valid timestampUs ∧ feed.id ∉ ids ∧ Holds data cursor feed.bytes ∧
      next = (cursor + feed.bytes.length, ids ++ [feed.id],
        store feed.id feed.report reports) := by
  simp only [readFeed, bind_eq_ok, revertIf_eq_ok, uint_eq_ok, exists_const, not_or, not_not]
  constructor
  · rintro ⟨word, ⟨small, at_id⟩, _, ⟨-, at_count⟩, ⟨known, rfl⟩, new, ⟨cursor', seen, r⟩, ran, rest⟩
    have within : cursor + 5 ≤ data.length := by
      have le := at_count.le
      rwa [length_encode, Nat.add_assoc] at le
    obtain ⟨fields, six, fits, nodup, stands, is⟩ :=
      (readProperties_eq_ok within List.nodup_nil).mp ran
    rw [List.append_nil, List.nodup_reverse] at nodup
    cases is
    rw [pure_eq_ok] at rest
    obtain ⟨⟨-, session, updated⟩, rfl⟩ := rest
    have bytes : (readAs (UInt32.ofNat word) timestampUs fields).bytes =
        encode 4 word ++ encode 1 6 ++ layoutAll fields := by
      have same : (UInt32.ofNat word).toNat = word :=
        (UInt32.toNat_ofNat' ..).trans (Nat.mod_eq_of_lt small)
      rw [Feed.bytes, fields_readAs nodup fits, readAs, same]
    refine ⟨readAs (UInt32.ofNat word) timestampUs fields,
      valid_readAs known nodup six fits (UInt16.not_lt.mp session) (UInt64.not_lt.mp updated), new,
      ?_, ?_⟩
    · rw [bytes, holds_append, holds_append, List.length_append, length_encode, length_encode]
      exact ⟨⟨at_id, at_count⟩, stands⟩
    · rw [bytes, List.length_append, List.length_append, length_encode, length_encode,
        ← Nat.add_assoc]
      rfl
  · rintro ⟨feed, valid, new, stands, rfl⟩
    obtain ⟨front, at_fields⟩ := holds_append.mp stands
    obtain ⟨at_id, at_count⟩ := holds_append.mp front
    rw [List.length_append, length_encode, length_encode] at at_fields
    rw [length_encode] at at_count
    have same : UInt32.ofNat feed.id.toNat = feed.id := UInt32.ofNat_toNat
    have nodup : feed.order.Nodup := valid.order.nodup_iff.mpr nodup_all
    refine ⟨feed.id.toNat, ⟨feed.id.toNat_lt, at_id⟩, 6, ⟨by decide, at_count⟩, ⟨same.symm ▸ valid.id, rfl⟩,
      same.symm ▸ new, (cursor + 5 + (layoutAll feed.fields).length, 4665, feed.report), ?_, ?_⟩
    · have unseen : ([] : List Property).Nodup := List.nodup_nil
      refine (readProperties_eq_ok at_fields.offset_le unseen).mpr
        ⟨feed.fields, ?_, Feed.fits_fields, ?_, at_fields, ?_⟩
      · rw [Feed.fields, List.length_map]
        exact valid.order.length_eq
      · rwa [List.append_nil, List.nodup_reverse, Feed.names_fields]
      · rw [List.append_nil, Feed.names_fields, valid.putAll_fields,
          marks_all ((List.reverse_perm _).trans valid.order)]
    · rw [pure_eq_ok]
      refine ⟨⟨rfl, UInt16.not_lt.mpr valid.session, UInt64.not_lt.mpr valid.updated⟩, ?_⟩
      rw [same, Feed.bytes, List.length_append, List.length_append, length_encode, length_encode,
        ← Nat.add_assoc]

end Feed

/-! ### The payload -/

section Payload

variable {data payload : List UInt8} {timestampUs : UInt64} {cursor count now : ℕ}
  {ids : List UInt32} {reports reports' : Reports} {next : ℕ × Reports} {m : Message}

theorem readFeeds_eq_ok (within : cursor ≤ data.length) :
    readFeeds data timestampUs count cursor ids reports = .ok next ↔
    ∃ feeds : List Feed, feeds.length = count ∧ (∀ feed ∈ feeds, feed.Valid timestampUs) ∧
      (feeds.map Feed.id).Nodup ∧ (∀ feed ∈ feeds, feed.id ∉ ids) ∧
      Holds data cursor (feeds.flatMap Feed.bytes) ∧
      next = (cursor + (feeds.flatMap Feed.bytes).length,
        feeds.foldl (fun reports feed => store feed.id feed.report reports) reports) := by
  induction count generalizing cursor ids reports with
  | zero =>
    rw [readFeeds, pure_eq_ok]
    constructor
    · rintro rfl
      exact ⟨[], rfl, nofun, List.nodup_nil, nofun, holds_nil.mpr within, rfl⟩
    · rintro ⟨feeds, none, -, -, -, -, rfl⟩
      rw [List.length_eq_zero_iff.mp none]
      rfl
  | succ count ih =>
    simp only [readFeeds, bind_eq_ok, readFeed_eq_ok]
    constructor
    · rintro ⟨_, ⟨feed, valid, new, stands, rfl⟩, rest⟩
      obtain ⟨feeds, length, valids, nodup, apart, at_rest, rfl⟩ := (ih stands.le).mp rest
      have others : ∀ other ∈ feeds, other.id ∉ ids ∧ other.id ≠ feed.id := by
        intro other mem
        have absent := apart other mem
        rw [List.mem_append, List.mem_singleton, not_or] at absent
        exact absent
      refine ⟨feed :: feeds, congrArg _ length, List.forall_mem_cons.mpr ⟨valid, valids⟩, ?_,
        List.forall_mem_cons.mpr ⟨new, fun other mem => (others other mem).1⟩,
        holds_append.mpr ⟨stands, at_rest⟩, ?_⟩
      · refine List.nodup_cons.mpr ⟨fun mem => ?_, nodup⟩
        obtain ⟨other, there, same⟩ := List.mem_map.mp mem
        exact (others other there).2 same
      · rw [List.flatMap_cons, List.length_append, ← Nat.add_assoc]
        rfl
    · rintro ⟨feeds, length, valids, nodup, apart, stands, rfl⟩
      obtain ⟨feed, feeds, rfl⟩ := List.exists_cons_of_length_eq_add_one length
      obtain ⟨valid, valids⟩ := List.forall_mem_cons.mp valids
      obtain ⟨new, apart⟩ := List.forall_mem_cons.mp apart
      obtain ⟨first, nodup⟩ := List.nodup_cons.mp nodup
      obtain ⟨at_first, at_rest⟩ := holds_append.mp stands
      refine ⟨_, ⟨feed, valid, new, at_first, rfl⟩, (ih at_first.le).mpr ?_⟩
      refine ⟨feeds, Nat.succ.inj length, valids, nodup, fun other mem => ?_, at_rest, ?_⟩
      · rw [List.mem_append, List.mem_singleton, not_or]
        exact ⟨apart other mem, fun same => first (same ▸ List.mem_map_of_mem mem)⟩
      · rw [List.flatMap_cons, List.length_append, ← Nat.add_assoc]
        rfl

/-- Where the parts of a message stand. -/
theorem Message.holds_bytes : Holds payload 0 m.bytes ↔
    Holds payload 0 (encode 4 2479346549) ∧ Holds payload 4 (encode 8 m.timestampUs.toNat) ∧
      Holds payload 12 (encode 1 m.channel) ∧ Holds payload 13 (encode 1 m.feeds.length) ∧
      Holds payload 14 (m.feeds.flatMap Feed.bytes) := by
  simp only [Message.bytes, holds_append, List.length_append, length_encode, Nat.zero_add, and_assoc]

theorem Message.length_bytes : m.bytes.length = 14 + (m.feeds.flatMap Feed.bytes).length := by
  simp only [Message.bytes, List.length_append, length_encode]

/-- A payload is accepted where it is the encoding of a message. -/
theorem accept_eq_ok : accept payload now reports = .ok reports' ↔
    ∃ m : Message, m.Valid now ∧ m.bytes = payload ∧ reports' = m.stored reports := by
  simp only [accept, bind_eq_ok, revertIf_eq_ok, uint_eq_ok, checkedMul_eq_ok, pure_eq_ok,
    exists_const, not_or, not_not, Nat.not_lt, Nat.not_le]
  constructor
  · rintro ⟨_, ⟨-, at_magic⟩, rfl, word, ⟨small, at_time⟩, _, ⟨-, rfl⟩, ⟨past, nonzero, recent⟩,
      channel, ⟨-, at_channel⟩, between, count, ⟨-, at_count⟩, few, ⟨cursor, after⟩, ran, whole, rfl⟩
    have same : (UInt64.ofNat word).toNat = word :=
      (UInt64.toNat_ofNat' ..).trans (Nat.mod_eq_of_lt small)
    have within : 14 ≤ payload.length := by
      have le := at_count.le
      rwa [length_encode] at le
    obtain ⟨feeds, rfl, valids, nodup, -, stands, is⟩ := (readFeeds_eq_ok within).mp ran
    cases is
    refine ⟨⟨UInt64.ofNat word, channel, feeds⟩, ⟨nonzero, past, ?_, between, ?_, nodup, valids⟩,
      holds_zero.mp ⟨Message.holds_bytes.mpr ⟨at_magic, ?_, at_channel, at_count, stands⟩, ?_⟩, rfl⟩
    · dsimp only
      omega
    · exact ⟨Nat.one_le_iff_ne_zero.mpr few.1, few.2⟩
    · rwa [same]
    · exact Message.length_bytes.trans whole
  · rintro ⟨m, valid, rfl, rfl⟩
    obtain ⟨stands, -⟩ := holds_zero.mpr (rfl : m.bytes = m.bytes)
    obtain ⟨at_magic, at_time, at_channel, at_count, at_feeds⟩ := Message.holds_bytes.mp stands
    have same : UInt64.ofNat m.timestampUs.toNat = m.timestampUs := UInt64.ofNat_toNat
    have small := m.timestampUs.toNat_lt
    have recent := valid.recent
    have age : MAX_REPORT_AGE * 1000000 = 30000000 := rfl
    rw [age] at recent
    have word : now * 1000000 < MODULUS := by
      unfold MODULUS
      omega
    refine ⟨_, ⟨by decide, at_magic⟩, rfl, _, ⟨small, at_time⟩, _, ⟨word, rfl⟩, ?_, _, ⟨?_, at_channel⟩,
      valid.channel, _, ⟨?_, at_count⟩, ?_, (m.bytes.length, m.stored reports), ?_, rfl, rfl⟩
    · rw [same, age]
      exact ⟨valid.past, valid.timestamp, by omega⟩
    · have := valid.channel
      omega
    · have := valid.count
      omega
    · exact ⟨Nat.one_le_iff_ne_zero.mp valid.count.1, valid.count.2⟩
    · rw [same]
      refine (readFeeds_eq_ok at_feeds.offset_le).mpr
        ⟨m.feeds, rfl, valid.feeds, valid.ids, fun _ _ => List.not_mem_nil, at_feeds, ?_⟩
      rw [Message.length_bytes]
      rfl

end Payload

/-! ### What is stored -/

section Stored

variable {feeds : List Feed} {reports : Reports}

theorem store_of_ne {id id' : UInt32} (ne : id' ≠ id) (r : Report) :
    store id r reports id' = reports id' := by
  unfold store
  split
  · exact Function.update_of_ne ne _ _
  · rfl

theorem store_self (id : UInt32) (r : Report) :
    store id r reports id = if (reports id).timestampUs < r.timestampUs then r else reports id := by
  unfold store
  split
  · exact Function.update_self _ _ _
  · rfl

theorem stored_of_notMem {id : UInt32} (absent : id ∉ feeds.map Feed.id) :
    feeds.foldl (fun reports feed => store feed.id feed.report reports) reports id = reports id := by
  induction feeds generalizing reports with
  | nil => rfl
  | cons feed feeds ih =>
    rw [List.map_cons, List.mem_cons, not_or] at absent
    exact (ih absent.2).trans (store_of_ne absent.1 _)

theorem stored_of_mem (nodup : (feeds.map Feed.id).Nodup) {feed : Feed} (mem : feed ∈ feeds) :
    feeds.foldl (fun reports feed => store feed.id feed.report reports) reports feed.id =
      if (reports feed.id).timestampUs < feed.report.timestampUs then feed.report
      else reports feed.id := by
  induction feeds generalizing reports with
  | nil => cases mem
  | cons first feeds ih =>
    obtain ⟨absent, nodup⟩ := List.nodup_cons.mp nodup
    rcases List.mem_cons.mp mem with rfl | later
    · exact (stored_of_notMem absent).trans (store_self _ _)
    · have ne : feed.id ≠ first.id := fun same => absent (same ▸ List.mem_map_of_mem later)
      refine (ih nodup later).trans ?_
      simp only [store_of_ne ne]

/-- A report changes where its time rises. -/
def Renews (s t : Reports) : Prop :=
  ∀ id, t id = s id ∨ (s id).timestampUs < (t id).timestampUs

theorem Renews.refl (s : Reports) : Renews s s := fun _ => .inl rfl

theorem Renews.trans {s t u : Reports} (h : Renews s t) (h' : Renews t u) : Renews s u := by
  intro id
  rcases h id with same | rises
  · rw [← same]
    exact h' id
  · rcases h' id with same | rises'
    · exact .inr (same ▸ rises)
    · exact .inr (UInt64.lt_trans rises rises')

theorem renews_stored (m : Message) (reports : Reports) : Renews reports (m.stored reports) := by
  unfold Message.stored
  induction m.feeds generalizing reports with
  | nil => exact .refl reports
  | cons feed feeds ih =>
    refine Renews.trans (fun id => ?_) (ih _)
    by_cases same : id = feed.id
    · subst same
      dsimp only
      rw [store_self]
      split
      · exact .inr ‹_›
      · exact .inl rfl
    · exact .inl (store_of_ne same _)

end Stored

/-- A call of `update`, which may revert. -/
def called (s : Reports) (x : Update) (t : Reports) : Prop :=
  match update x s with
  | .ok u => t = u
  | .error _ => t = s

variable {x : Update} {payload : List UInt8} {reports s t : Reports}

theorem update_eq (paid : x.value = x.verifier.verification_fee)
    (verified : x.verifier.verifyUpdate x.signedUpdate = some payload) :
    update x reports = accept payload x.now reports := by
  rw [update, revertIf, if_neg (not_not.mpr paid), verified]
  rfl

theorem renews_called (h : called s x t) : Renews s t := by
  unfold called at h
  cases ran : update x s with
  | error e =>
    rw [ran] at h
    exact h ▸ .refl s
  | ok u =>
    rw [ran] at h
    subst h
    simp only [update, bind_eq_ok] at ran
    obtain ⟨-, -, payload, -, accepted⟩ := ran
    obtain ⟨m, -, -, rfl⟩ := accept_eq_ok.mp accepted
    exact renews_stored m s

/-- What is accepted of a verified payload is the encoding of a message; each of its reports is
stored as it was written, where it is newer. Anything else changes nothing, and in any run of calls
a report changes only where its time rises. -/
theorem update_exact (x : Update) (payload : List UInt8) (reports : Reports)
    (paid : x.value = x.verifier.verification_fee)
    (verified : x.verifier.verifyUpdate x.signedUpdate = some payload) :
    ((∃ reports', update x reports = .ok reports') ↔
      ∃ m : Message, m.Valid x.now ∧ m.bytes = payload) ∧
    (∀ m : Message, m.Valid x.now → m.bytes = payload →
      ∃ reports', update x reports = .ok reports' ∧
        (∀ feed ∈ m.feeds, reports' feed.id =
          if (reports feed.id).timestampUs < m.timestampUs then feed.report else reports feed.id) ∧
        ∀ id, id ∉ m.feeds.map Feed.id → reports' id = reports id) ∧
    ((¬∃ m : Message, m.Valid x.now ∧ m.bytes = payload) → ∀ t, called reports x t → t = reports) ∧
    ∀ calls t, Run called reports calls t → Renews reports t := by
  have accepts : ∀ reports', update x reports = .ok reports' ↔
      ∃ m : Message, m.Valid x.now ∧ m.bytes = payload ∧ reports' = m.stored reports := by
    intro reports'
    rw [update_eq paid verified, accept_eq_ok]
  refine ⟨⟨?_, ?_⟩, fun m valid is => ?_, fun malformed t call => ?_, fun calls t run => ?_⟩
  · rintro ⟨reports', ran⟩
    obtain ⟨m, valid, is, -⟩ := (accepts reports').mp ran
    exact ⟨m, valid, is⟩
  · rintro ⟨m, valid, is⟩
    exact ⟨_, (accepts _).mpr ⟨m, valid, is, rfl⟩⟩
  · refine ⟨_, (accepts _).mpr ⟨m, valid, is, rfl⟩, fun feed mem => ?_, fun id => stored_of_notMem⟩
    rw [← (valid.feeds feed mem).timestamp]
    exact stored_of_mem valid.ids mem
  · unfold called at call
    cases ran : update x reports with
    | error e => rwa [ran] at call
    | ok u =>
      obtain ⟨m, valid, is, -⟩ := (accepts u).mp ran
      exact absurd ⟨m, valid, is⟩ malformed
  · exact run.relates Renews .refl (fun _ _ _ => .trans) fun _ _ _ => renews_called

/-- A report at a negative price, whose exponent comes first. -/
def sampleFeed : Feed where
  id := 7
  report := ⟨1000000, 999999, -5, 3, 2, -8, 1⟩
  order := [.exponent, .feedUpdateTimestamp, .price, .session, .publishers, .confidence]
  absent := false

def sampleMessage : Message := ⟨1000000, 1, [sampleFeed]⟩

def sampleUpdate : Update := ⟨2, 1, ⟨1, some⟩, sampleMessage.bytes⟩

theorem valid_sample : sampleMessage.Valid 2 := by
  refine ⟨by decide, by decide, by decide, by decide, by decide, by decide, ?_⟩
  intro feed mem
  rw [List.mem_singleton.mp mem]
  exact ⟨by decide, by decide, nofun, rfl, by decide, by decide⟩

theorem sample_update_exact : ∃ reports',
    update sampleUpdate (fun _ => blank 0) = .ok reports' ∧ reports' 7 = sampleFeed.report := by
  obtain ⟨-, stores, -⟩ := update_exact sampleUpdate sampleMessage.bytes (fun _ => blank 0) rfl rfl
  obtain ⟨reports', ran, stored, -⟩ := stores sampleMessage valid_sample rfl
  exact ⟨reports', ran, (stored sampleFeed (List.mem_singleton_self _)).trans (if_pos (by decide))⟩

end Turret.PythVerifier
