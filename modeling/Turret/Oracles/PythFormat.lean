import Mathlib.Data.Nat.Bitwise
import Mathlib.Logic.Function.Basic
import Turret.Library.Bytes
import Turret.Library.Rounding

/-! `DockyardPythVerifier`: a cache of the reports that a verifier has authenticated.
The payload is read with a cursor; the words of a report have the widths of the
source. -/

namespace Turret.PythVerifier

open Execution Bytes Uint256

inductive Error
  | invalidFee
  | invalidPayload
  | staleReport
  | verifier
  | panic
  deriving DecidableEq

def MAX_REPORT_AGE : ℕ := 30

structure Report where
  timestampUs : UInt64
  feedUpdateTimestampUs : UInt64
  price : Int64
  confidence : UInt64
  publishers : UInt16
  exponent : Int16
  session : UInt16
  deriving DecidableEq

/-- A report of this time before its properties are read. -/
def blank (timestampUs : UInt64) : Report := ⟨timestampUs, 0, 0, 0, 0, 0, 0⟩

abbrev Reports := UInt32 → Report

/-- `_uint`. -/
def uint (data : List UInt8) (offset size : ℕ) : Except Error ℕ :=
  if data.length < offset + size then .error .invalidPayload
  else .ok (decode ((data.drop offset).take size))

/-- The width of the property's word. -/
def sizeOf (tag : ℕ) : Option ℕ :=
  if tag = 0 ∨ tag = 5 ∨ tag = 12 then some 8
  else if tag = 3 ∨ tag = 4 ∨ tag = 9 then some 2
  else none

def assign (tag value : ℕ) (r : Report) : Report :=
  if tag = 0 then { r with price := (UInt64.ofNat value).toInt64 }
  else if tag = 3 then { r with publishers := UInt16.ofNat value }
  else if tag = 4 then { r with exponent := (UInt16.ofNat value).toInt16 }
  else if tag = 5 then { r with confidence := UInt64.ofNat value }
  else if tag = 9 then { r with session := UInt16.ofNat value }
  else { r with feedUpdateTimestampUs := UInt64.ofNat value }

def readValue (data : List UInt8) (tag cursor seen : ℕ) (r : Report) :
    Except Error (ℕ × ℕ × Report) := do
  let size ← orRevert (sizeOf tag) .invalidPayload
  let value ← uint data cursor size
  pure (cursor + size, seen, assign tag value r)

/-- The body of the inner loop. -/
def readProperty (data : List UInt8) (cursor seen : ℕ) (r : Report) :
    Except Error (ℕ × ℕ × Report) := do
  let tag ← uint data cursor 1
  revertIf (12 < tag ∨ seen &&& (1 <<< tag) ≠ 0) .invalidPayload
  if tag = 12 then do
    let present ← uint data (cursor + 1) 1
    revertIf (1 < present) .invalidPayload
    if present = 0 then pure (cursor + 2, seen ||| (1 <<< tag), r)
    else readValue data tag (cursor + 2) (seen ||| (1 <<< tag)) r
  else readValue data tag (cursor + 1) (seen ||| (1 <<< tag)) r

/-- The inner loop. -/
def readProperties (data : List UInt8) : ℕ → ℕ → ℕ → Report → Except Error (ℕ × ℕ × Report)
  | 0, cursor, seen, r => pure (cursor, seen, r)
  | count + 1, cursor, seen, r => do
    let next ← readProperty data cursor seen r
    readProperties data count next.1 next.2.1 next.2.2

/-- A report that is newer replaces the stored one. -/
def store (id : UInt32) (r : Report) (reports : Reports) : Reports :=
  if (reports id).timestampUs < r.timestampUs then Function.update reports id r else reports

/-- The body of the outer loop; `ids` are those that were read before. -/
def readFeed (data : List UInt8) (timestampUs : UInt64) (cursor : ℕ) (ids : List UInt32)
    (reports : Reports) : Except Error (ℕ × List UInt32 × Reports) := do
  let word ← uint data cursor 4
  let id := UInt32.ofNat word
  let properties ← uint data (cursor + 4) 1
  revertIf (id = 0 ∨ properties ≠ 6) .invalidPayload
  revertIf (id ∈ ids) .invalidPayload
  let (cursor, seen, r) ← readProperties data properties (cursor + 5) 0 (blank timestampUs)
  revertIf (seen ≠ 4665 ∨ 4 < r.session ∨ timestampUs < r.feedUpdateTimestampUs) .invalidPayload
  pure (cursor, ids ++ [id], store id r reports)

/-- The outer loop. -/
def readFeeds (data : List UInt8) (timestampUs : UInt64) :
    ℕ → ℕ → List UInt32 → Reports → Except Error (ℕ × Reports)
  | 0, cursor, _, reports => pure (cursor, reports)
  | count + 1, cursor, ids, reports => do
    let next ← readFeed data timestampUs cursor ids reports
    readFeeds data timestampUs count next.1 next.2.1 next.2.2

/-- What follows the verification. -/
def accept (payload : List UInt8) (now : ℕ) (reports : Reports) : Except Error Reports := do
  let magic ← uint payload 0 4
  revertIf (magic ≠ 2479346549) .invalidPayload
  let word ← uint payload 4 8
  let timestampUs := UInt64.ofNat word
  let nowUs ← checkedMul now 1000000 .panic
  revertIf (nowUs < timestampUs.toNat ∨ timestampUs = 0 ∨
    MAX_REPORT_AGE * 1000000 ≤ nowUs - timestampUs.toNat) .staleReport
  let channel ← uint payload 12 1
  revertIf (channel < 1 ∨ 4 < channel) .invalidPayload
  let count ← uint payload 13 1
  revertIf (count = 0 ∨ 32 < count) .invalidPayload
  let (cursor, reports) ← readFeeds payload timestampUs count 14 [] reports
  revertIf (cursor ≠ payload.length) .invalidPayload
  pure reports

/-- The deployed verifier, as it is when it is called. -/
structure Verifier where
  verification_fee : ℕ
  verifyUpdate : List UInt8 → Option (List UInt8)

/-- A call of `update`, at the time of its block. -/
structure Update where
  now : ℕ
  value : ℕ
  verifier : Verifier
  signedUpdate : List UInt8

def update (x : Update) (reports : Reports) : Except Error Reports := do
  revertIf (x.value ≠ x.verifier.verification_fee) .invalidFee
  let payload ← orRevert (x.verifier.verifyUpdate x.signedUpdate) .verifier
  accept payload x.now reports

end Turret.PythVerifier

/-! The format of a payload, as it is written, and what the cursor of the verifier
reads of it. -/

namespace Turret.PythVerifier

open Execution Bytes

inductive Property
  | price
  | publishers
  | exponent
  | confidence
  | session
  | feedUpdateTimestamp
  deriving DecidableEq

namespace Property

def all : List Property :=
  [.price, .publishers, .exponent, .confidence, .session, .feedUpdateTimestamp]

def tag : Property → ℕ
  | .price => 0
  | .publishers => 3
  | .exponent => 4
  | .confidence => 5
  | .session => 9
  | .feedUpdateTimestamp => 12

def size : Property → ℕ
  | .price => 8
  | .publishers => 2
  | .exponent => 2
  | .confidence => 8
  | .session => 2
  | .feedUpdateTimestamp => 8

/-- The word that is written for the property. -/
def word (r : Report) : Property → ℕ
  | .price => r.price.toUInt64.toNat
  | .publishers => r.publishers.toNat
  | .exponent => r.exponent.toUInt16.toNat
  | .confidence => r.confidence.toNat
  | .session => r.session.toNat
  | .feedUpdateTimestamp => r.feedUpdateTimestampUs.toNat

/-- The tag of the property and its word. Only the time of the update may be missing, and tells
whether it is. -/
def layout (p : Property) : Option ℕ → List UInt8
  | none => encode 1 p.tag ++ encode 1 0
  | some value =>
    encode 1 p.tag ++ (if p = .feedUpdateTimestamp then encode 1 1 else []) ++ encode p.size value

/-- What may be written for the property. -/
def Fits (p : Property) : Option ℕ → Prop
  | none => p = .feedUpdateTimestamp
  | some value => value < 256 ^ p.size

/-- The report with what was read of the property. -/
def put (p : Property) (value : Option ℕ) (r : Report) : Report :=
  value.elim r fun value => assign p.tag value r

theorem word_lt (r : Report) (p : Property) : p.word r < 256 ^ p.size := by
  cases p with
  | price => exact r.price.toUInt64.toNat_lt
  | publishers => exact r.publishers.toNat_lt
  | exponent => exact r.exponent.toUInt16.toNat_lt
  | confidence => exact r.confidence.toNat_lt
  | session => exact r.session.toNat_lt
  | feedUpdateTimestamp => exact r.feedUpdateTimestampUs.toNat_lt

theorem word_assign (r : Report) {p : Property} {value : ℕ} (fits : value < 256 ^ p.size) :
    p.word (assign p.tag value r) = value := by
  have small := Nat.mod_eq_of_lt fits
  cases p with
  | price => exact (UInt64.toNat_ofNat' ..).trans small
  | publishers => exact (UInt16.toNat_ofNat' ..).trans small
  | exponent => exact (UInt16.toNat_ofNat' ..).trans small
  | confidence => exact (UInt64.toNat_ofNat' ..).trans small
  | session => exact (UInt16.toNat_ofNat' ..).trans small
  | feedUpdateTimestamp => exact (UInt64.toNat_ofNat' ..).trans small

theorem word_assign_of_ne (r : Report) {p q : Property} (ne : p ≠ q) (value : ℕ) :
    q.word (assign p.tag value r) = q.word r := by
  cases p <;> cases q <;> first | rfl | exact absurd rfl ne

theorem timestamp_assign (r : Report) (p : Property) (value : ℕ) :
    (assign p.tag value r).timestampUs = r.timestampUs := by
  cases p <;> rfl

theorem tag_injective : Function.Injective tag := by
  intro p q same
  cases p <;> cases q <;> first | rfl | cases same

theorem sizeOf_eq_some {n size : ℕ} :
    sizeOf n = some size ↔ ∃ p : Property, p.tag = n ∧ p.size = size := by
  constructor
  · intro is
    unfold sizeOf at is
    split at is
    · rename_i wide
      cases is
      rcases wide with rfl | rfl | rfl
      · exact ⟨.price, rfl, rfl⟩
      · exact ⟨.confidence, rfl, rfl⟩
      · exact ⟨.feedUpdateTimestamp, rfl, rfl⟩
    · split at is
      · rename_i narrow
        cases is
        rcases narrow with rfl | rfl | rfl
        · exact ⟨.publishers, rfl, rfl⟩
        · exact ⟨.exponent, rfl, rfl⟩
        · exact ⟨.session, rfl, rfl⟩
      · cases is
  · rintro ⟨p, rfl, rfl⟩
    cases p <;> rfl

end Property

/-- A report is told by its time and the words of its properties. -/
theorem Report.ext_words {r r' : Report} (timestamp : r.timestampUs = r'.timestampUs)
    (words : ∀ p : Property, p.word r = p.word r') : r = r' := by
  have price : r.price = r'.price :=
    congrArg UInt64.toInt64 (UInt64.toNat_inj.mp (words .price))
  have publishers := UInt16.toNat_inj.mp (words .publishers)
  have exponent : r.exponent = r'.exponent :=
    congrArg UInt16.toInt16 (UInt16.toNat_inj.mp (words .exponent))
  have confidence := UInt64.toNat_inj.mp (words .confidence)
  have session := UInt16.toNat_inj.mp (words .session)
  have updated := UInt64.toNat_inj.mp (words .feedUpdateTimestamp)
  cases r
  cases r'
  simp_all

/-! ### The reader -/

variable {data : List UInt8} {cursor size value seen count : ℕ} {r : Report}
  {done : List Property} {next : ℕ × ℕ × Report}

theorem uint_eq_ok : uint data cursor size = .ok value ↔
    value < 256 ^ size ∧ Holds data cursor (encode size value) := by
  rw [← holds_encode_iff, uint]
  split
  · rename_i short
    simp only [reduceCtorEq, false_iff]
    exact fun long => absurd long.1 (Nat.not_le.mpr short)
  · rename_i long
    rw [Except.ok.injEq]
    exact ⟨fun same => ⟨Nat.le_of_not_lt long, same⟩, fun same => same.2⟩

/-- The properties that were read. -/
def marks : List Property → ℕ
  | [] => 0
  | p :: done => marks done ||| (1 <<< p.tag)

theorem testBit_marks (p : Property) : (marks done).testBit p.tag = true ↔ p ∈ done := by
  induction done with
  | nil => simp [marks]
  | cons q done ih =>
    rw [marks, Nat.testBit_or, Bool.or_eq_true, ih, Nat.one_shiftLeft, Nat.testBit_two_pow,
      decide_eq_true_eq, List.mem_cons, or_comm, Property.tag_injective.eq_iff, eq_comm]

theorem marked_iff (p : Property) : marks done &&& (1 <<< p.tag) ≠ 0 ↔ p ∈ done := by
  rw [← testBit_marks, Nat.one_shiftLeft, Nat.and_two_pow]
  cases (marks done).testBit p.tag with
  | false => simp
  | true => simp

theorem marks_perm {done' : List Property} (h : done.Perm done') : marks done = marks done' := by
  induction h with
  | nil => rfl
  | cons p _ ih => rw [marks, marks, ih]
  | swap p q done => rw [marks, marks, marks, marks, Nat.or_assoc, Nat.or_comm (1 <<< _), Nat.or_assoc]
  | trans _ _ ih ih' => exact ih.trans ih'

theorem readValue_eq_ok {tag : ℕ} : readValue data tag cursor seen r = .ok next ↔
    ∃ (p : Property) (value : ℕ), p.tag = tag ∧ value < 256 ^ p.size ∧
      Holds data cursor (encode p.size value) ∧
      next = (cursor + p.size, seen, assign tag value r) := by
  simp only [readValue, bind_eq_ok, orRevert_eq_ok, uint_eq_ok, pure_eq_ok, Property.sizeOf_eq_some]
  constructor
  · rintro ⟨_, ⟨p, is, rfl⟩, value, ⟨fits, stands⟩, rfl⟩
    exact ⟨p, value, is, fits, stands, rfl⟩
  · rintro ⟨p, value, is, fits, stands, rfl⟩
    exact ⟨p.size, ⟨p, is, rfl⟩, value, ⟨fits, stands⟩, rfl⟩

theorem readProperty_eq_ok : readProperty data cursor (marks done) r = .ok next ↔
    ∃ (p : Property) (word : Option ℕ), p ∉ done ∧ p.Fits word ∧
      Holds data cursor (p.layout word) ∧
      next = (cursor + (p.layout word).length, marks (p :: done), p.put word r) := by
  simp only [readProperty, bind_eq_ok, revertIf_eq_ok, uint_eq_ok, exists_const, not_or, Nat.not_lt]
  constructor
  · rintro ⟨tag, ⟨-, stands⟩, ⟨small, unseen⟩, rest⟩
    split at rest
    · rename_i is
      subst is
      have new : Property.feedUpdateTimestamp ∉ done := fun mem =>
        unseen ((marked_iff .feedUpdateTimestamp).mpr mem)
      simp only [bind_eq_ok, revertIf_eq_ok, uint_eq_ok, exists_const, Nat.not_lt] at rest
      obtain ⟨present, ⟨-, at_present⟩, bit, rest⟩ := rest
      split at rest
      · rename_i absent
        subst absent
        rw [pure_eq_ok] at rest
        exact ⟨.feedUpdateTimestamp, none, new, rfl, holds_append.mpr ⟨stands, at_present⟩, rest.symm⟩
      · rename_i there
        obtain rfl : present = 1 := by omega
        obtain ⟨p, value, is, fits, at_value, rfl⟩ := readValue_eq_ok.mp rest
        obtain rfl : p = .feedUpdateTimestamp := Property.tag_injective is
        refine ⟨.feedUpdateTimestamp, some value, new, fits, ?_, rfl⟩
        exact holds_append.mpr ⟨holds_append.mpr ⟨stands, at_present⟩, at_value⟩
    · rename_i other
      obtain ⟨p, value, rfl, fits, at_value, rfl⟩ := readValue_eq_ok.mp rest
      have ne : p ≠ .feedUpdateTimestamp := fun is => other (is ▸ rfl)
      have layout : p.layout (some value) = encode 1 p.tag ++ encode p.size value := by
        rw [Property.layout, if_neg ne, List.append_nil]
      refine ⟨p, some value, fun mem => unseen ((marked_iff p).mpr mem), fits, ?_, ?_⟩
      · rw [layout]
        exact holds_append.mpr ⟨stands, by rwa [length_encode]⟩
      · rw [layout, List.length_append, length_encode, length_encode, Nat.add_assoc]
        rfl
  · rintro ⟨p, word, new, fits, stands, rfl⟩
    have small : p.tag ≤ 12 := by cases p <;> decide
    have fresh : ¬(marks done &&& (1 <<< p.tag) ≠ 0) := fun marked => new ((marked_iff p).mp marked)
    cases word with
    | none =>
      obtain rfl : p = .feedUpdateTimestamp := fits
      obtain ⟨at_tag, at_present⟩ := holds_append.mp stands
      refine ⟨12, ⟨by decide, at_tag⟩, ⟨small, fresh⟩, ?_⟩
      simp only [if_pos, bind_eq_ok, revertIf_eq_ok, uint_eq_ok, exists_const]
      exact ⟨0, ⟨by decide, at_present⟩, by decide, rfl⟩
    | some value =>
      by_cases is : p = .feedUpdateTimestamp
      · subst is
        obtain ⟨front, at_value⟩ := holds_append.mp stands
        obtain ⟨at_tag, at_present⟩ := holds_append.mp front
        refine ⟨12, ⟨by decide, at_tag⟩, ⟨small, fresh⟩, ?_⟩
        simp only [if_pos, bind_eq_ok, revertIf_eq_ok, uint_eq_ok, exists_const]
        refine ⟨1, ⟨by decide, at_present⟩, by decide, ?_⟩
        exact readValue_eq_ok.mpr ⟨.feedUpdateTimestamp, value, rfl, fits, at_value, rfl⟩
      · have other : p.tag ≠ 12 := fun same =>
          is (Property.tag_injective (same.trans (rfl : 12 = Property.tag .feedUpdateTimestamp)))
        have layout : p.layout (some value) = encode 1 p.tag ++ encode p.size value := by
          rw [Property.layout, if_neg is, List.append_nil]
        rw [layout] at stands ⊢
        obtain ⟨at_tag, at_value⟩ := holds_append.mp stands
        rw [length_encode] at at_value
        refine ⟨p.tag, ⟨by omega, at_tag⟩, ⟨small, fresh⟩, ?_⟩
        rw [if_neg other, readValue_eq_ok]
        refine ⟨p, value, rfl, fits, at_value, ?_⟩
        rw [List.length_append, length_encode, length_encode, Nat.add_assoc]
        rfl

/-- A property and what is written of it. -/
abbrev Field := Property × Option ℕ

def layoutAll (fields : List Field) : List UInt8 := fields.flatMap fun field => field.1.layout field.2

def putAll (fields : List Field) (r : Report) : Report :=
  fields.foldl (fun r field => field.1.put field.2 r) r

/-- The inner loop reads properties that are all different. -/
theorem readProperties_eq_ok (within : cursor ≤ data.length) (nodup : done.Nodup) :
    readProperties data count cursor (marks done) r = .ok next ↔
    ∃ fields : List Field, fields.length = count ∧ (∀ field ∈ fields, field.1.Fits field.2) ∧
      ((fields.map Prod.fst).reverse ++ done).Nodup ∧ Holds data cursor (layoutAll fields) ∧
      next = (cursor + (layoutAll fields).length, marks ((fields.map Prod.fst).reverse ++ done),
        putAll fields r) := by
  induction count generalizing cursor done r with
  | zero =>
    rw [readProperties, pure_eq_ok]
    constructor
    · rintro rfl
      exact ⟨[], rfl, nofun, nodup, holds_nil.mpr within, rfl⟩
    · rintro ⟨fields, none, -, -, -, rfl⟩
      rw [List.length_eq_zero_iff.mp none]
      rfl
  | succ count ih =>
    simp only [readProperties, bind_eq_ok, readProperty_eq_ok]
    constructor
    · rintro ⟨_, ⟨p, word, new, fits, stands, rfl⟩, rest⟩
      obtain ⟨fields, length, fit, apart, at_rest, rfl⟩ :=
        (ih stands.le (List.nodup_cons.mpr ⟨new, nodup⟩)).mp rest
      refine ⟨(p, word) :: fields, congrArg _ length, List.forall_mem_cons.mpr ⟨fits, fit⟩, ?_,
        holds_append.mpr ⟨stands, at_rest⟩, ?_⟩
      · rwa [List.map_cons, List.reverse_cons, List.append_assoc]
      · simp only [layoutAll, List.flatMap_cons, List.length_append, List.map_cons,
          List.reverse_cons, List.append_assoc, ← Nat.add_assoc]
        rfl
    · rintro ⟨fields, length, fit, apart, stands, rfl⟩
      obtain ⟨⟨p, word⟩, fields, rfl⟩ := List.exists_cons_of_length_eq_add_one length
      obtain ⟨fits, fit⟩ := List.forall_mem_cons.mp fit
      obtain ⟨at_first, at_rest⟩ := holds_append.mp stands
      rw [List.map_cons, List.reverse_cons, List.append_assoc] at apart
      have inner : (p :: done).Nodup := (List.nodup_append.mp apart).2.1
      refine ⟨_, ⟨p, word, (List.nodup_cons.mp inner).1, fits, at_first, rfl⟩, ?_⟩
      refine (ih at_first.le inner).mpr ⟨fields, Nat.succ.inj length, fit, apart, at_rest, ?_⟩
      simp only [layoutAll, List.flatMap_cons, List.length_append, List.map_cons,
        List.reverse_cons, List.append_assoc, ← Nat.add_assoc]
      rfl

/-! ### The report that is read -/

section PutAll

variable {fields : List Field}

theorem timestamp_putAll : (putAll fields r).timestampUs = r.timestampUs := by
  induction fields generalizing r with
  | nil => rfl
  | cons field fields ih =>
    rw [putAll, List.foldl_cons]
    refine ih.trans ?_
    obtain ⟨p, word⟩ := field
    cases word with
    | none => rfl
    | some value => exact Property.timestamp_assign r p value

theorem word_putAll_of_notMem {p : Property} (absent : p ∉ fields.map Prod.fst) :
    p.word (putAll fields r) = p.word r := by
  induction fields generalizing r with
  | nil => rfl
  | cons field fields ih =>
    obtain ⟨q, word⟩ := field
    rw [List.map_cons, List.mem_cons, not_or] at absent
    rw [putAll, List.foldl_cons]
    refine (ih absent.2).trans ?_
    cases word with
    | none => rfl
    | some value => exact Property.word_assign_of_ne r (Ne.symm absent.1) value

/-- A property that was written has its word, and one that is missing keeps what was there. -/
theorem word_putAll {p : Property} {word : Option ℕ} (mem : (p, word) ∈ fields)
    (nodup : (fields.map Prod.fst).Nodup) (fits : p.Fits word) :
    p.word (putAll fields r) = word.getD (p.word r) := by
  induction fields generalizing r with
  | nil => cases mem
  | cons field fields ih =>
    rw [List.map_cons, List.nodup_cons] at nodup
    rw [putAll, List.foldl_cons]
    rcases List.mem_cons.mp mem with rfl | later
    · refine (word_putAll_of_notMem nodup.1).trans ?_
      cases word with
      | none => rfl
      | some value => exact Property.word_assign r fits
    · refine (ih later nodup.2).trans ?_
      obtain ⟨q, other⟩ := field
      have named : p ∈ fields.map Prod.fst := List.mem_map.mpr ⟨_, later, rfl⟩
      have ne : q ≠ p := fun same => nodup.1 (same ▸ named)
      cases other with
      | none => rfl
      | some value =>
        dsimp only [Property.put, Option.elim]
        rw [Property.word_assign_of_ne r ne]

end PutAll

end Turret.PythVerifier
