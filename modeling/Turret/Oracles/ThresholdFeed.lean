import Mathlib.Data.Finset.Card
import Turret.Library.Execution
import Turret.Library.Ledger

/-! `DockyardThresholdPriceFeed`: a report is stored when enough of the fixed
reporters have signed it. The words of a report have the widths that the ABI
decoder checks; signatures recover to the address that has made them. -/

namespace Turret.ThresholdFeed

open Execution

inductive Error
  | invalidConfiguration
  | invalidReport
  | invalidSignatures
  | ecdsa
  | unavailable
  | panic
  deriving DecidableEq

abbrev Word := Fin (2 ^ 256)

def MAX_REPORTERS : ℕ := 9

structure PriceReport where
  asset : Address
  quote : Address
  sequence : Fin (2 ^ 64)
  reporterSetEpoch : Fin (2 ^ 64)
  observedAt : Fin (2 ^ 64)
  signedAt : Fin (2 ^ 64)
  validUntil : Fin (2 ^ 64)
  price : Fin (2 ^ 192)
  sourceMask : BitVec 32
  policyHash : Word
  observationsHash : Word
  deriving DecidableEq

/-- The arguments of the constructor. -/
structure Setup where
  asset : Address
  quote : Address
  reporters : List Address
  threshold : ℕ
  maxAge : ℕ
  requiredSourceMask : BitVec 32
  reporterSetEpoch : Fin (2 ^ 64)
  policyHash : Word

structure Feed where
  asset : Address
  quote : Address
  reporterSetEpoch : Fin (2 ^ 64)
  policyHash : Word
  maxAge : ℕ
  requiredSourceMask : BitVec 32
  threshold : ℕ
  reporterCount : ℕ
  isReporter : Address → Bool
  latestReport : PriceReport

/-- `ECDSA.recover`, and the digest that is signed. -/
structure Signing (Digest Signature : Type) where
  recover : Digest → Signature → Option Address
  reportDigest : PriceReport → Digest

def uint160 (a : Address) : ℕ := Fin.val a

def empty : PriceReport := ⟨0, 0, 0, 0, 0, 0, 0, 0, 0, 0, 0⟩

/-- `_atLeastThreeBits`. -/
def atLeastThreeBits (value : BitVec 32) : Bool :=
  let two := value &&& (value - 1)
  value ≠ 0 ∧ two ≠ 0 ∧ two &&& (two - 1) ≠ 0

/-- The loop of the constructor. -/
def register : Address → List Address → (Address → Bool) → Except Error (Address → Bool)
  | _, [], isReporter => pure isReporter
  | previous, reporter :: rest, isReporter => do
    revertIf (reporter = 0 ∨ uint160 reporter ≤ uint160 previous) .invalidConfiguration
    register reporter rest (Function.update isReporter reporter true)

def deploy (x : Setup) : Except Error Feed := do
  revertIf (x.asset = 0 ∨ x.quote = 0 ∨ x.asset = x.quote ∨ x.reporters.length < 4 ∨
    MAX_REPORTERS < x.reporters.length ∨ x.threshold < 3 ∨ x.reporters.length < x.threshold ∨
    x.threshold * 2 ≤ x.reporters.length ∨ x.maxAge = 0 ∨ 60 < x.maxAge ∨
    ¬atLeastThreeBits x.requiredSourceMask ∨ x.reporterSetEpoch = 0 ∨ x.policyHash = 0)
    .invalidConfiguration
  let isReporter ← register 0 x.reporters fun _ => false
  pure ⟨x.asset, x.quote, x.reporterSetEpoch, x.policyHash, x.maxAge, x.requiredSourceMask,
    x.threshold, x.reporters.length, isReporter, empty⟩

variable {Digest Signature : Type} (signing : Signing Digest Signature)

/-- The loop of `submit`. -/
def checkSignatures (isReporter : Address → Bool) (digest : Digest) :
    Address → List Signature → Except Error Unit
  | _, [] => pure ()
  | previous, signature :: rest => do
    let signer ← orRevert (signing.recover digest signature) .ecdsa
    revertIf (isReporter signer = false ∨ uint160 signer ≤ uint160 previous) .invalidSignatures
    checkSignatures isReporter digest signer rest

/-- A call of `submit`, at the time of its block. -/
structure Submission (Signature : Type) where
  now : ℕ
  report : PriceReport
  signatures : List Signature

def submit (x : Submission Signature) (f : Feed) : Except Error Feed := do
  let report := x.report
  revertIf (report.asset ≠ f.asset ∨ report.quote ≠ f.quote ∨
    report.reporterSetEpoch ≠ f.reporterSetEpoch ∨ report.policyHash ≠ f.policyHash ∨
    report.sequence ≤ f.latestReport.sequence ∨ report.observedAt = 0 ∨
    report.observedAt ≤ f.latestReport.observedAt ∨ report.signedAt < report.observedAt ∨
    x.now < report.signedAt ∨ f.maxAge ≤ report.signedAt.val - report.observedAt.val ∨
    f.maxAge ≤ x.now - report.observedAt ∨ (report.validUntil : ℕ) ≤ x.now) .invalidReport
  revertIf (2 ^ 64 ≤ report.signedAt.val + f.maxAge) .panic
  revertIf (report.signedAt.val + f.maxAge < report.validUntil ∨ report.price = 0 ∨
    report.sourceMask &&& f.requiredSourceMask ≠ f.requiredSourceMask ∨
    report.observationsHash = 0) .invalidReport
  revertIf (x.signatures.length < f.threshold ∨ f.reporterCount < x.signatures.length)
    .invalidSignatures
  checkSignatures signing f.isReporter (signing.reportDigest report) 0 x.signatures
  pure { f with latestReport := report }

structure RoundData where
  roundId : ℕ
  answer : ℤ
  startedAt : ℕ
  updatedAt : ℕ
  answeredInRound : ℕ
  deriving DecidableEq

def latestRoundData (now : ℕ) (f : Feed) : Except Error RoundData := do
  let report := f.latestReport
  revertIf (report.sequence = 0 ∨ report.observedAt = 0 ∨ now < report.observedAt ∨
    f.maxAge ≤ now - report.observedAt ∨ (report.validUntil : ℕ) ≤ now) .unavailable
  pure ⟨report.sequence, (report.price : ℕ), report.observedAt, report.observedAt, report.sequence⟩

/-- The submissions one after the other; the feed at the end, and those that were accepted. -/
def submitAll : Feed → List (Submission Signature) → Feed × List (Submission Signature)
  | f, [] => (f, [])
  | f, x :: rest =>
    match submit signing x f with
    | .ok g => ((submitAll g rest).1, x :: (submitAll g rest).2)
    | .error _ => submitAll f rest

/-! ### The reporters -/

theorem register_eq_ok {reporters : List Address} {previous : Address}
    {isReporter registered : Address → Bool}
    (h : register previous reporters isReporter = .ok registered) :
    ((previous :: reporters).Pairwise fun a b => uint160 a < uint160 b) ∧
      ∀ a, registered a = true ↔ isReporter a = true ∨ a ∈ reporters := by
  induction reporters generalizing previous isReporter with
  | nil =>
    cases h
    exact ⟨List.pairwise_singleton _ _, by simp⟩
  | cons reporter rest ih =>
    simp only [register, bind_eq_ok, revertIf_eq_ok, not_or, not_le] at h
    obtain ⟨-, ⟨-, above⟩, tail⟩ := h
    obtain ⟨ascending, registered_iff⟩ := ih tail
    refine ⟨List.pairwise_cons.mpr ⟨fun a mem => ?_, ascending⟩, fun a => ?_⟩
    · rcases List.mem_cons.mp mem with rfl | later
      · exact above
      · exact above.trans ((List.pairwise_cons.mp ascending).1 a later)
    · rw [registered_iff, List.mem_cons]
      by_cases same : a = reporter
      · simp [same]
      · simp [same]

/-- The signers ascend from the previous one on, and each is a reporter. -/
theorem checkSignatures_eq_ok {isReporter : Address → Bool} {digest : Digest} {previous : Address}
    {signatures : List Signature} {u : Unit}
    (h : checkSignatures signing isReporter digest previous signatures = .ok u) :
    ∃ signers : List Address, signatures.map (signing.recover digest) = signers.map some ∧
      ((previous :: signers).Pairwise fun a b => uint160 a < uint160 b) ∧
      ∀ a ∈ signers, isReporter a = true := by
  induction signatures generalizing previous with
  | nil => exact ⟨[], rfl, List.pairwise_singleton _ _, nofun⟩
  | cons signature rest ih =>
    simp only [checkSignatures, bind_eq_ok, orRevert_eq_ok, revertIf_eq_ok, not_or, not_le,
      Bool.not_eq_false] at h
    obtain ⟨signer, recovered, -, ⟨reporter, above⟩, tail⟩ := h
    obtain ⟨signers, all, ascending, reporters⟩ := ih tail
    refine ⟨signer :: signers, ?_, List.pairwise_cons.mpr ⟨fun a mem => ?_, ascending⟩, ?_⟩
    · rw [List.map_cons, List.map_cons, recovered, all]
    · rcases List.mem_cons.mp mem with rfl | later
      · exact above
      · exact above.trans ((List.pairwise_cons.mp ascending).1 a later)
    · exact List.forall_mem_cons.mpr ⟨reporter, reporters⟩

/-- Who has signed the report of the submission. -/
def signers (x : Submission Signature) : Finset Address :=
  (x.signatures.filterMap (signing.recover (signing.reportDigest x.report))).toFinset

theorem nodup_of_ascending {as : List Address}
    (h : as.Pairwise fun a b => uint160 a < uint160 b) : as.Nodup :=
  h.imp fun {a b} less same => by
    rw [same] at less
    exact lt_irrefl _ less

/-- What a submission that is accepted has passed. -/
theorem submit_eq_ok {x : Submission Signature} {f g : Feed} (h : submit signing x f = .ok g) :
    g = { f with latestReport := x.report } ∧
      f.latestReport.sequence < x.report.sequence ∧
      f.latestReport.observedAt < x.report.observedAt ∧
      x.report.observedAt ≠ 0 ∧
      (x.report.observedAt ≤ x.now ∧ x.now - x.report.observedAt < f.maxAge ∧
        x.now < x.report.validUntil) ∧
      f.threshold ≤ x.signatures.length ∧
      ∃ signers : List Address,
        x.signatures.map (signing.recover (signing.reportDigest x.report)) = signers.map some ∧
        signers.Nodup ∧ ∀ a ∈ signers, f.isReporter a = true := by
  simp only [submit, bind_eq_ok, revertIf_eq_ok, pure_eq_ok, not_or, not_lt, not_le, not_not] at h
  obtain ⟨-, ⟨-, -, -, -, sequence, observed, newer, signed, past, -, fresh, valid⟩, -, -, -, -, -,
    ⟨enough, -⟩, u, checked, done⟩ := h
  obtain ⟨signers, all, ascending, reporters⟩ := checkSignatures_eq_ok signing checked
  have observed_le : (x.report.observedAt : ℕ) ≤ x.now := by
    have le : (x.report.observedAt : ℕ) ≤ x.report.signedAt := signed
    omega
  exact ⟨done.symm, sequence, newer, observed, ⟨observed_le, fresh, valid⟩, enough, signers, all,
    nodup_of_ascending (List.pairwise_cons.mp ascending).2, reporters⟩

/-- The signers of an accepted report are reporters, and at least as many as the threshold. -/
theorem signers_of_submit {x : Submission Signature} {f g : Feed}
    (h : submit signing x f = .ok g) :
    (∀ a ∈ signers signing x, f.isReporter a = true) ∧ f.threshold ≤ (signers signing x).card := by
  obtain ⟨-, -, -, -, -, enough, as, all, nodup, reporters⟩ := submit_eq_ok signing h
  have found : x.signatures.filterMap (signing.recover (signing.reportDigest x.report)) = as := by
    have mapped : x.signatures.filterMap (signing.recover (signing.reportDigest x.report)) =
        (x.signatures.map (signing.recover (signing.reportDigest x.report))).filterMap id := by
      rw [List.filterMap_map, Function.id_comp]
    rw [mapped, all, List.filterMap_map, Function.id_comp, List.filterMap_some]
  have length := congrArg List.length all
  rw [List.length_map, List.length_map] at length
  rw [signers, found]
  refine ⟨fun a mem => reporters a (List.mem_toFinset.mp mem), ?_⟩
  rw [List.toFinset_card_of_nodup nodup]
  omega

/-! ### Every run -/

/-- What the constructor has made sure of. -/
structure Deployed (x : Setup) (f : Feed) : Prop where
  reporters : ∀ a, f.isReporter a = true ↔ a ∈ x.reporters
  nodup : x.reporters.Nodup
  threshold : f.threshold = x.threshold
  maxAge : f.maxAge = x.maxAge
  majority : x.reporters.length < 2 * x.threshold

theorem deployed_of_deploy {x : Setup} {f : Feed} (h : deploy x = .ok f) :
    Deployed x f ∧ f.latestReport = empty := by
  simp only [deploy, bind_eq_ok, revertIf_eq_ok, pure_eq_ok, not_or, not_le] at h
  obtain ⟨-, ⟨-, -, -, -, -, -, -, majority, -⟩, isReporter, registered, rfl⟩ := h
  obtain ⟨ascending, reporters⟩ := register_eq_ok registered
  refine ⟨⟨fun a => ?_, nodup_of_ascending (List.pairwise_cons.mp ascending).2, rfl, rfl, ?_⟩, rfl⟩
  · rw [reporters]
    simp
  · omega

/-- The report of `y` follows that of `x`. -/
def Newer (x y : PriceReport) : Prop := x.sequence < y.sequence ∧ x.observedAt < y.observedAt

theorem Newer.trans {x y z : PriceReport} (h : Newer x y) (h' : Newer y z) : Newer x z :=
  ⟨h.1.trans h'.1, h.2.trans h'.2⟩

/-- Signed by enough of the reporters, and fresh when it was submitted. -/
structure Accepted (f : Feed) (x : Submission Signature) : Prop where
  reporters : ∀ a ∈ signers signing x, f.isReporter a = true
  enough : f.threshold ≤ (signers signing x).card
  observed : (x.report.observedAt : ℕ) ≤ x.now
  fresh : x.now - x.report.observedAt < f.maxAge
  valid : x.now < x.report.validUntil

theorem accepted_of_submit {x : Submission Signature} {f g : Feed}
    (h : submit signing x f = .ok g) :
    g = { f with latestReport := x.report } ∧ Newer f.latestReport x.report ∧ Accepted signing f x := by
  obtain ⟨reporters, enough⟩ := signers_of_submit signing h
  obtain ⟨stored, sequence, newer, -, ⟨observed, fresh, valid⟩, -⟩ := submit_eq_ok signing h
  exact ⟨stored, ⟨sequence, newer⟩, reporters, enough, observed, fresh, valid⟩

/-- Of a run: each report that is accepted follows the one before, and the last one is stored. -/
theorem submitAll_accepts (f : Feed) (xs : List (Submission Signature)) :
    (f.latestReport :: (submitAll signing f xs).2.map Submission.report).Pairwise Newer ∧
      (∀ x ∈ (submitAll signing f xs).2, Accepted signing f x) ∧
      (submitAll signing f xs).1 = { f with latestReport :=
        ((submitAll signing f xs).2.getLast?.map Submission.report).getD f.latestReport } ∧
      submitAll signing f (submitAll signing f xs).2 = submitAll signing f xs := by
  induction xs generalizing f with
  | nil => exact ⟨List.pairwise_singleton _ _, nofun, rfl, rfl⟩
  | cons x rest ih =>
    cases submitted : submit signing x f with
    | error e =>
      have skip : submitAll signing f (x :: rest) = submitAll signing f rest := by
        rw [submitAll, submitted]
      rw [skip]
      exact ih f
    | ok g =>
      obtain ⟨stored, newer, accepted⟩ := accepted_of_submit signing submitted
      obtain ⟨ascending, all, last, again⟩ := ih g
      have next : submitAll signing f (x :: rest) =
          ((submitAll signing g rest).1, x :: (submitAll signing g rest).2) := by
        rw [submitAll, submitted]
      have latest : g.latestReport = x.report := by rw [stored]
      rw [latest] at ascending last
      rw [next]
      refine ⟨?_, ?_, ?_, ?_⟩
      · rw [List.map_cons, List.pairwise_cons]
        refine ⟨fun r mem => ?_, ascending⟩
        rcases List.mem_cons.mp mem with rfl | later
        · exact newer
        · exact newer.trans ((List.pairwise_cons.mp ascending).1 r later)
      · refine List.forall_mem_cons.mpr ⟨accepted, fun y mem => ?_⟩
        obtain ⟨reporters, enough, observed, fresh, valid⟩ := all y mem
        rw [stored] at reporters enough fresh
        exact ⟨reporters, enough, observed, fresh, valid⟩
      · rw [last, stored]
        cases (submitAll signing { f with latestReport := x.report } rest).2 with
        | nil => rfl
        | cons y ys =>
          rw [List.getLast?_cons_cons, List.getLast?_eq_some_getLast (List.cons_ne_nil y ys)]
          rfl
      · change submitAll signing f (x :: (submitAll signing g rest).2) = _
        rw [submitAll, submitted]
        change ((submitAll signing g (submitAll signing g rest).2).1,
          x :: (submitAll signing g (submitAll signing g rest).2).2) = _
        rw [again]

/-- Two sets within a third overlap in what they have too much. -/
theorem le_card_inter {α : Type} [DecidableEq α] {a b c : Finset α} (ha : a ⊆ c) (hb : b ⊆ c) :
    a.card + b.card - c.card ≤ (a ∩ b).card := by
  have union := Finset.card_union_add_card_inter a b
  have within := Finset.card_le_card (Finset.union_subset ha hb)
  omega

/-- The accepted reports of every run, what they are signed by, and what is served. -/
theorem threshold_feed (x : Setup) (f : Feed) (deployed : deploy x = .ok f)
    (xs : List (Submission Signature)) :
    ((submitAll signing f xs).2.Pairwise fun a b =>
      a.report.sequence < b.report.sequence ∧ a.report.observedAt < b.report.observedAt) ∧
    (∀ a ∈ (submitAll signing f xs).2,
      (∀ signer ∈ signers signing a, signer ∈ x.reporters) ∧
      x.threshold ≤ (signers signing a).card ∧ (a.report.observedAt : ℕ) ≤ a.now ∧
      a.now - a.report.observedAt < x.maxAge ∧ a.now < a.report.validUntil) ∧
    (∀ a ∈ (submitAll signing f xs).2, ∀ b ∈ (submitAll signing f xs).2,
      2 * x.threshold - x.reporters.length ≤ (signers signing a ∩ signers signing b).card) ∧
    0 < 2 * x.threshold - x.reporters.length ∧
    (∀ now data, latestRoundData now (submitAll signing f xs).1 = .ok data →
      ∃ a, (submitAll signing f xs).2.getLast? = some a ∧
        data = ⟨a.report.sequence, (a.report.price : ℕ), a.report.observedAt, a.report.observedAt,
          a.report.sequence⟩ ∧
        (a.report.observedAt : ℕ) ≤ now ∧ now - a.report.observedAt < x.maxAge ∧
        now < a.report.validUntil) ∧
    submitAll signing f (submitAll signing f xs).2 = submitAll signing f xs := by
  obtain ⟨made, fresh⟩ := deployed_of_deploy deployed
  obtain ⟨ascending, all, last, again⟩ := submitAll_accepts signing f xs
  have within : ∀ a ∈ (submitAll signing f xs).2, signers signing a ⊆ x.reporters.toFinset :=
    fun a mem signer signed => List.mem_toFinset.mpr ((made.reporters signer).mp
      ((all a mem).reporters signer signed))
  have enough : ∀ a ∈ (submitAll signing f xs).2, x.threshold ≤ (signers signing a).card :=
    fun a mem => made.threshold ▸ (all a mem).enough
  refine ⟨?_, fun a mem => ?_, fun a at_a b at_b => ?_, ?_, fun now data served => ?_, again⟩
  · exact List.pairwise_map.mp (List.pairwise_cons.mp ascending).2
  · obtain ⟨-, -, observed, young, valid⟩ := all a mem
    exact ⟨fun signer signed => List.mem_toFinset.mp (within a mem signed), enough a mem, observed,
      made.maxAge ▸ young, valid⟩
  · have overlap := le_card_inter (within a at_a) (within b at_b)
    rw [List.toFinset_card_of_nodup made.nodup] at overlap
    have first := enough a at_a
    have second := enough b at_b
    omega
  · have majority := made.majority
    omega
  · rw [last] at served
    simp only [latestRoundData, bind_eq_ok, revertIf_eq_ok, pure_eq_ok, not_or, not_lt,
      not_le] at served
    obtain ⟨-, ⟨sequence, -, observed, young, valid⟩, rfl⟩ := served
    cases at_last : (submitAll signing f xs).2.getLast? with
    | none =>
      rw [at_last, fresh] at sequence
      exact absurd rfl sequence
    | some a =>
      rw [at_last] at observed young valid
      exact ⟨a, rfl, rfl, observed, made.maxAge ▸ young, valid⟩

/-! ### Two reports -/

/-- A signature that names its signer. -/
def sampleSigning : Signing PriceReport Address := ⟨fun _ a => some a, id⟩

def sampleSetup : Setup where
  asset := 1
  quote := 2
  reporters := [11, 12, 13, 14]
  threshold := 3
  maxAge := 30
  requiredSourceMask := 7
  reporterSetEpoch := 1
  policyHash := 5

def sampleReport (sequence observedAt : Fin (2 ^ 64)) : PriceReport :=
  ⟨1, 2, sequence, 1, observedAt, observedAt, observedAt + 20, 1000, 7, 5, 9⟩

/-- Two reports that are accepted, by different reporters, and one that is signed twice by one. -/
def sampleSubmissions : List (Submission Address) :=
  [⟨1000, sampleReport 1 1000, [11, 12, 13]⟩, ⟨1005, sampleReport 2 1004, [11, 12, 12]⟩,
    ⟨1010, sampleReport 2 1005, [12, 13, 14]⟩]

theorem sample_threshold_feed : ∃ f, deploy sampleSetup = .ok f ∧
    (submitAll sampleSigning f sampleSubmissions).2.map Submission.now = [1000, 1010] ∧
    ((submitAll sampleSigning f sampleSubmissions).2.Pairwise fun a b =>
      a.report.sequence < b.report.sequence ∧ a.report.observedAt < b.report.observedAt) := by
  have deploys : (deploy sampleSetup).isOk = true := by decide +kernel
  have computed : (submitAll sampleSigning (reached ⟨0, 0, 0, 0, 0, 0, 0, 0, fun _ => false, empty⟩
      (deploy sampleSetup)) sampleSubmissions).2.map Submission.now = [1000, 1010] := by
    decide +kernel
  have deployed := eq_ok_reached ⟨0, 0, 0, 0, 0, 0, 0, 0, fun _ => false, empty⟩ deploys
  exact ⟨_, deployed, computed,
    (threshold_feed sampleSigning sampleSetup _ deployed sampleSubmissions).1⟩

end Turret.ThresholdFeed
