import Turret.Cashback.Accounting
import Turret.Cashback.LoanReplay
import Turret.Cashback.WalletReplay
import Turret.Isolated.CreditEngine

/-! `quoteCashback` of the shared code: the rebate that a borrower is shown
before a draw. -/

namespace Turret.Cashback

open Execution

inductive QuoteError
  | invalidLoanEstimate
  | invalidCampaign
  | invalidEnrollment
  deriving DecidableEq

inductive QuoteStatus
  | inactive
  | ended
  | notEnrolled
  | notStarted
  | enrolled
  deriving DecidableEq

structure QuoteEnrollment where
  startsAt : ℕ
  cap : ℤ
  /-- Earlier rebates under this cap, also the estimated ones. -/
  committedRebate : ℤ

structure Quote where
  grossInterest : ℤ
  eligibleInterest : ℤ
  rebate : ℤ
  netInterest : ℤ
  coveredSeconds : ℕ
  capped : Bool
  status : QuoteStatus
  deriving DecidableEq

def ceilDiv (a b : ℕ) : ℕ := (a + b - 1) / b

def Quote.empty (grossInterest : ℤ) (status : QuoteStatus) : Quote :=
  ⟨grossInterest, 0, 0, grossInterest, 0, false, status⟩

/-- The fields of a campaign that every quote checks. -/
def InvalidCampaign (campaign : Policy) : Prop :=
  MAX_SAFE_INTEGER < campaign.startsAt ∨ MAX_SAFE_INTEGER < campaign.endsAt ∨
    MAX_SAFE_INTEGER < campaign.settlementDeadline ∨ MAX_SAFE_INTEGER < campaign.claimDeadline ∨
    campaign.endsAt ≤ campaign.startsAt ∨ campaign.settlementDeadline < campaign.endsAt ∨
    campaign.claimDeadline ≤ campaign.settlementDeadline ∨ campaign.rebateBps ≠ 5000

instance (campaign : Policy) : Decidable (InvalidCampaign campaign) :=
  inferInstanceAs (Decidable (_ ∨ _))

def InvalidEnrollment (campaign : Policy) (enrollment : QuoteEnrollment) : Prop :=
  MAX_SAFE_INTEGER < enrollment.startsAt ∨ enrollment.startsAt < campaign.startsAt ∨
    campaign.endsAt ≤ enrollment.startsAt ∨ enrollment.cap ≤ 0 ∨ enrollment.committedRebate < 0 ∨
    enrollment.cap < enrollment.committedRebate

instance (campaign : Policy) (enrollment : QuoteEnrollment) :
    Decidable (InvalidEnrollment campaign enrollment) := inferInstanceAs (Decidable (_ ∨ _))

/-- Where `now + seconds` is no longer exact in JavaScript, the end of the campaign is less. -/
def coveredSeconds (campaign : Policy) (now seconds : ℕ) : ℕ :=
  min (now + seconds) campaign.endsAt - now

/-- The quote of a draw that is covered. -/
def quoteCovered (grossInterest : ℤ) (campaign : Policy) (enrollment : QuoteEnrollment)
    (principal aprBps now seconds : ℕ) : Quote :=
  let covered := coveredSeconds campaign now seconds
  let numerator := principal * aprBps * covered
  let eligibleInterest := numerator / INTEREST_DENOMINATOR
  let uncapped : ℤ := numerator * campaign.rebateBps / (INTEREST_DENOMINATOR * 10000)
  let rebate := min uncapped (enrollment.cap - enrollment.committedRebate)
  ⟨grossInterest, eligibleInterest, rebate, grossInterest - rebate, covered,
    decide (rebate < uncapped), .enrolled⟩

def quoteEnrollment (grossInterest : ℤ) (campaign : Policy) (enrollment : QuoteEnrollment)
    (principal aprBps now seconds : ℕ) : Except QuoteError Quote := do
  revertIf (InvalidEnrollment campaign enrollment) .invalidEnrollment
  if now < enrollment.startsAt then pure (.empty grossInterest .notStarted)
  else pure (quoteCovered grossInterest campaign enrollment principal aprBps now seconds)

def quoteCampaign (grossInterest : ℤ) (campaign : Policy) (enrollment : Option QuoteEnrollment)
    (principal aprBps now seconds : ℕ) : Except QuoteError Quote := do
  revertIf (InvalidCampaign campaign) .invalidCampaign
  if campaign.endsAt ≤ now then pure (.empty grossInterest .ended)
  else match enrollment with
    | none => pure (.empty grossInterest .notEnrolled)
    | some enrollment =>
      quoteEnrollment grossInterest campaign enrollment principal aprBps now seconds

def quoteCashback (principal : ℤ) (aprBps now days : ℕ) (campaign : Option Policy)
    (enrollment : Option QuoteEnrollment) : Except QuoteError Quote := do
  revertIf (principal < 0 ∨ MAX_SAFE_INTEGER < aprBps ∨ MAX_SAFE_INTEGER < now ∨ 3650 < days)
    .invalidLoanEstimate
  let seconds := days * 86400
  let grossInterest := ceilDiv (principal.toNat * aprBps * seconds) INTEREST_DENOMINATOR
  match campaign with
  | none => pure (.empty grossInterest .inactive)
  | some campaign =>
    quoteCampaign grossInterest campaign enrollment principal.toNat aprBps now seconds

/-- The error under which the replay passes on one of the quote. -/
def QuoteError.replayError : QuoteError → ReplayError
  | .invalidLoanEstimate => .invalidLoanEstimate
  | .invalidCampaign => .invalidCampaign
  | .invalidEnrollment => .invalidEnrollmentReceipt

/-- The replay checks its campaign with a quote of nothing at the start of it. -/
theorem checkCampaign_eq (policy : Policy) :
    checkCampaign policy =
      match quoteCashback 0 0 policy.startsAt 0 (some policy) none with
      | .ok _ => .ok ()
      | .error e => .error e.replayError := by
  by_cases unsafeStart : MAX_SAFE_INTEGER < policy.startsAt
  · simp [checkCampaign, quoteCashback, revertIf, unsafeStart, QuoteError.replayError]
  · have later : InvalidCampaign policy ↔ (MAX_SAFE_INTEGER < policy.endsAt ∨
        MAX_SAFE_INTEGER < policy.settlementDeadline ∨ MAX_SAFE_INTEGER < policy.claimDeadline ∨
        policy.endsAt ≤ policy.startsAt ∨ policy.settlementDeadline < policy.endsAt ∨
        policy.claimDeadline ≤ policy.settlementDeadline ∨ policy.rebateBps ≠ 5000) := by
      rw [InvalidCampaign, or_iff_right unsafeStart]
    by_cases invalid : InvalidCampaign policy
    · simp only [checkCampaign, ← later, revertIf, if_neg unsafeStart, if_pos invalid, ok_bind]
      simp [quoteCashback, quoteCampaign, revertIf, unsafeStart, invalid, QuoteError.replayError]
    · have order : ¬policy.endsAt ≤ policy.startsAt := fun ended => invalid (later.mpr (by tauto))
      simp only [checkCampaign, ← later, revertIf, if_neg unsafeStart, if_neg invalid, ok_bind]
      simp [quoteCashback, quoteCampaign, revertIf, unsafeStart, invalid, order]

/-! ### The covered draw -/

variable {principal : ℤ} {aprBps now days : ℕ} {campaign : Policy}
  {enrollment : QuoteEnrollment} {quote : Quote}

/-- What a quote that shows a covered draw was computed from. -/
structure Covered (principal : ℤ) (aprBps now days : ℕ) (campaign : Policy)
    (enrollment : QuoteEnrollment) (quote : Quote) : Prop where
  principal_nonneg : 0 ≤ principal
  now_safe : now ≤ MAX_SAFE_INTEGER
  campaign_valid : ¬InvalidCampaign campaign
  enrollment_valid : ¬InvalidEnrollment campaign enrollment
  started : enrollment.startsAt ≤ now
  running : now < campaign.endsAt
  rebate_eq : quote.rebate =
    min (rebateOf (principal.toNat * aprBps * coveredSeconds campaign now (days * 86400)) : ℤ)
      (enrollment.cap - enrollment.committedRebate)

theorem quote_covered
    (quoted : quoteCashback principal aprBps now days (some campaign) (some enrollment) = .ok quote)
    (status : quote.status = .enrolled) :
    Covered principal aprBps now days campaign enrollment quote := by
  simp only [quoteCashback, quoteCampaign, bind_eq_ok, revertIf_eq_ok, not_or, not_lt] at quoted
  obtain ⟨-, ⟨principal_nonneg, -, now_safe, -⟩, -, campaign_valid, quoted⟩ := quoted
  split_ifs at quoted with ended
  · obtain rfl := Except.ok.inj quoted
    cases status
  · simp only [quoteEnrollment, bind_eq_ok, revertIf_eq_ok] at quoted
    obtain ⟨-, enrollment_valid, quoted⟩ := quoted
    split_ifs at quoted with early
    · obtain rfl := Except.ok.inj quoted
      cases status
    · obtain rfl := Except.ok.inj quoted
      have bps : campaign.rebateBps = 5000 := by
        by_contra other
        exact campaign_valid (by simp [InvalidCampaign, other])
      refine ⟨principal_nonneg, now_safe, campaign_valid, enrollment_valid, not_lt.mp early,
        not_le.mp ended, ?_⟩
      simp only [quoteCovered, bps, rebateOf]
      push_cast
      rfl

/-- A covered draw is quoted so, whatever its principal, rate and duration. -/
theorem covered_quotes (principal_nonneg : 0 ≤ principal) (rate : aprBps ≤ MAX_SAFE_INTEGER)
    (now_safe : now ≤ MAX_SAFE_INTEGER) (long : days ≤ 3650)
    (campaign_valid : ¬InvalidCampaign campaign)
    (enrollment_valid : ¬InvalidEnrollment campaign enrollment)
    (started : enrollment.startsAt ≤ now) (running : now < campaign.endsAt) :
    ∃ quote, quoteCashback principal aprBps now days (some campaign) (some enrollment) =
      .ok quote ∧ quote.status = .enrolled := by
  have estimate : ¬(principal < 0 ∨ MAX_SAFE_INTEGER < aprBps ∨ MAX_SAFE_INTEGER < now ∨
      3650 < days) := by
    omega
  let gross := ceilDiv (principal.toNat * aprBps * (days * 86400)) INTEREST_DENOMINATOR
  refine ⟨quoteCovered gross campaign enrollment principal.toNat aprBps now (days * 86400), ?_, rfl⟩
  simp only [quoteCashback, quoteCampaign, quoteEnrollment, revertIf, if_neg estimate,
    if_neg campaign_valid, if_neg enrollment_valid, if_neg (not_lt.mpr started),
    if_neg (not_le.mpr running), ok_bind]
  rfl

end Turret.Cashback

/-! The quote of a draw and the replay of its receipts agree: the interest that
the replay accrues in seconds and pays oldest first earns the rebate that the
quote computes from the covered seconds. -/

namespace Turret.Cashback

open Execution Function Uint256 Rounding

variable {policy : Policy} {walletCap : Option ℕ} {apr timestamp now stop startsAt : ℕ}
  {p q : Position} {s t : Replay} {b e : Address}

/-! ### A single loan -/

/-- The events of a single loan: the enrollment, the draw and the full repayment. -/
def loanEvents (b e : Address) (cap principal interest : ℤ) (enrolledAt startsAt now stop : ℕ) :
    List (ℕ × Event) :=
  [(enrolledAt, .enrolled b e cap startsAt), (now, .borrowed b e principal),
    (stop, .repaid b e principal interest)]

theorem walletStep_eq_ok {view v : (Address → Option Position) × ℤ} {event : Event}
    (own : event.key = some (b, e)) (approved : policy.aprBps e = some apr) :
    walletStep policy walletCap view (timestamp, event) = .ok v ↔
      ∃ p q used, accrue policy apr timestamp ((view.1 e).getD (.opened timestamp)) = .ok p ∧
        onEvent policy walletCap timestamp [] view.2 p event = .ok (q, used) ∧
        v = (update view.1 e (some q), used) := by
  simp only [walletStep, own, approved, orRevert_eq_ok, bind_eq_ok, pure_eq_ok,
    Option.some.injEq, Prod.exists, exists_eq_left', eq_comm (a := v)]
  constructor
  · rintro ⟨p, accrued, q, used, done, same⟩
    exact ⟨p, q, used, accrued, done, same⟩
  · rintro ⟨p, q, used, accrued, done, same⟩
    exact ⟨p, accrued, q, used, done, same⟩

/-- The interest units of a covered loan up to the end of the campaign, and after it. -/
def coveredUnits (policy : Policy) (principal apr now stop : ℕ) : ℕ :=
  principal * ((min stop policy.endsAt - now) * apr)

def uncoveredUnits (policy : Policy) (principal apr stop : ℕ) : ℕ :=
  principal * ((stop - policy.endsAt) * apr)

theorem units_add (running : now < policy.endsAt) (order : now ≤ stop) (principal : ℕ) :
    coveredUnits policy principal apr now stop + uncoveredUnits policy principal apr stop =
      principal * ((stop - now) * apr) := by
  have seconds : stop - now = (min stop policy.endsAt - now) + (stop - policy.endsAt) := by omega
  rw [coveredUnits, uncoveredUnits, ← Nat.mul_add, ← Nat.add_mul, ← seconds]

theorem loan_run {cap principal interest : ℤ} {enrolledAt : ℕ}
    {v : (Address → Option Position) × ℤ}
    (run : (loanEvents b e cap principal interest enrolledAt startsAt now stop).foldlM
      (walletStep policy walletCap) (fun _ => none, 0) = .ok v)
    (approved : policy.aprBps e = some apr) (started : startsAt ≤ now)
    (running : now < policy.endsAt) (inTime : stop ≤ policy.settlementDeadline) :
    ∃ p, v.1 e = some p ∧ RepaidLoan walletCap stop startsAt cap.toNat
      (coveredUnits policy principal.toNat apr now stop) p := by
  simp only [loanEvents, List.foldlM_cons, List.foldlM_nil, bind_eq_ok, pure_eq_ok] at run
  obtain ⟨v₁, first, v₂, second, v₃, third, rfl⟩ := run
  -- the enrollment
  obtain ⟨p, q, used, accrued, enrolled, rfl⟩ := (walletStep_eq_ok rfl approved).mp first
  have opened : (Position.opened enrolledAt).updatedAt ≤ enrolledAt := le_rfl
  rw [Option.getD_none, accrue_idle rfl opened] at accrued
  obtain rfl := Except.ok.inj accrued
  simp only [onEvent, bind_eq_ok, pure_eq_ok, Prod.mk.injEq] at enrolled
  obtain ⟨_, enrolled, rfl, rfl⟩ := enrolled
  obtain ⟨cap, rfl, -, -, starts, -, matching, rfl⟩ := onEnrolled_opened.mp enrolled
  -- the draw
  obtain ⟨p, q, used, accrued, drawn, rfl⟩ := (walletStep_eq_ok rfl approved).mp second
  simp only [update_self, Option.getD_some] at accrued
  have entered : enrolledAt ≤ now := (accrue_ok accrued).1
  rw [accrue_idle rfl entered] at accrued
  obtain rfl := Except.ok.inj accrued
  simp only [onEvent, bind_eq_ok, pure_eq_ok, Prod.mk.injEq] at drawn
  obtain ⟨_, drawn, rfl, rfl⟩ := drawn
  obtain ⟨principal, rfl, -, rfl⟩ := (onBorrowed_loan started running).mp drawn
  -- the repayment
  obtain ⟨p, q, used, accrued, repaid, rfl⟩ := (walletStep_eq_ok rfl approved).mp third
  simp only [update_self, Option.getD_some] at accrued
  have order : now ≤ stop := (accrue_ok accrued).1
  have inCampaign : policy.startsAt ≤ now := (starts ▸ le_max_right ..).trans started
  rw [accrue_loan inCampaign running order] at accrued
  obtain rfl := Except.ok.inj accrued
  have empty : principal = 0 → coveredUnits policy principal apr now stop +
      uncoveredUnits policy principal apr stop = 0 := by
    intro zero
    rw [units_add running order, zero, Nat.zero_mul]
  refine ⟨q, update_self .., ?_⟩
  exact (onRepaid_loan inTime matching empty rfl repaid).2

/-! ### The rows -/

theorem confirmedOf_accrue {cap : ℕ} (done : accrue policy apr timestamp p = .ok q) :
    confirmedOf walletCap cap q = confirmedOf walletCap cap p := by
  obtain ⟨-, rfl⟩ := accrue_ok done
  cases walletCap <;> rfl

/-- The row of an account that confirms an amount. -/
theorem row_of_account {receipts : List Receipt} {asOf : Option ℕ} {rows : List Row} {amount : ℤ}
    (done : accountReceipts policy receipts asOf = .ok rows)
    (account : ∀ walletCap s, checkPolicy policy = .ok walletCap →
      replay policy walletCap receipts = .ok s →
      ∃ p enrollment, s.positions b e = some p ∧ p.enrollment = some enrollment ∧
        confirmedOf walletCap enrollment.cap p = amount) :
    (∃ row ∈ rows, row.borrower = b ∧ row.engine = e) ∧
      ∀ row ∈ rows, row.borrower = b → row.engine = e → row.confirmedRebate = amount := by
  obtain ⟨walletCap, s, timestamp, checked, replayed, listed⟩ := accountReceipts_ok done
  obtain ⟨p, enrollment, present, enrolled, confirmed⟩ := account walletCap s checked replayed
  have member : (b, e) ∈ s.keys.insertionSort keyLe := by
    rw [List.mem_insertionSort, (replay_sound replayed).1.mem_keys, present]
    rfl
  refine ⟨exists_row listed member present enrolled, fun row mem isBorrower isEngine => ?_⟩
  obtain ⟨key, -, p', q, enrollment', apr, used, present', enrolled', accrued, rfl⟩ :=
    mem_rowsOf listed mem
  rw [rowOf_key.1] at isBorrower
  rw [rowOf_key.2] at isEngine
  rw [isBorrower, isEngine, present] at present'
  obtain rfl := Option.some.inj present'
  rw [enrolled] at enrolled'
  obtain rfl := Option.some.inj enrolled'
  rw [rowOf_confirmed, confirmedOf_accrue accrued, confirmed]

/-! ### The receipts of a loan -/

theorem replayReceipt_single {event : Event} {hash : String}
    {v : (Address → Option Position) × ℤ} (own : event.key = some (b, e))
    (safe : timestamp ≤ MAX_SAFE_INTEGER) (order : s.lastTimestamp ≤ timestamp)
    (named : hash ≠ "") (fresh : hash ∉ s.seen)
    (step : walletStep policy walletCap (s.view b) (timestamp, event) = .ok v) :
    ∃ t, replayReceipt policy walletCap s ⟨timestamp, hash, [event]⟩ = .ok t ∧ t.view b = v := by
  have alive : (b, e) ∉ liquidatedIn [event] := by
    cases event with
    | liquidated => cases own
    | enrolled | borrowed | repaid | positionLoss | published => exact List.not_mem_nil
  have recorded : ({ s with
      seen := hash :: s.seen
      lastTimestamp := timestamp } : Replay).view b = s.view b := rfl
  rw [← recorded] at step
  obtain ⟨t, done, view⟩ := (replayEvent_own own alive).mpr step
  refine ⟨t, ?_, view⟩
  simp only [replayReceipt, bind_eq_ok, revertIf_eq_ok, not_or, not_lt, List.foldlM_cons,
    List.foldlM_nil, pure_eq_ok]
  exact ⟨(), ⟨safe, order, named, fresh⟩, t, done, rfl⟩

/-- The receipts of a single loan, with their transactions. -/
def loanReceipts (b e : Address) (cap principal interest : ℤ) (enrolledAt startsAt now stop : ℕ)
    (enrolling drawing repaying : String) : List Receipt :=
  [⟨enrolledAt, enrolling, [.enrolled b e cap startsAt]⟩,
    ⟨now, drawing, [.borrowed b e principal]⟩, ⟨stop, repaying, [.repaid b e principal interest]⟩]

theorem walletEvents_loanReceipts {cap principal interest : ℤ} {enrolledAt : ℕ}
    {enrolling drawing repaying : String} :
    walletEvents b (loanReceipts b e cap principal interest enrolledAt startsAt now stop enrolling
      drawing repaying) = loanEvents b e cap principal interest enrolledAt startsAt now stop := by
  simp [walletEvents, loanReceipts, loanEvents, Event.concerns]

theorem loan_accepts {cap principal interest enrolledAt : ℕ} {enrolling drawing repaying : String}
    (approved : policy.aprBps e = some apr) (starts : startsAt = max enrolledAt policy.startsAt)
    (entered : enrolledAt ≤ now) (started : startsAt ≤ now) (running : now < policy.endsAt)
    (order : now ≤ stop) (inTime : stop ≤ policy.settlementDeadline)
    (safe : stop ≤ MAX_SAFE_INTEGER)
    (matching : walletCap = none ∨ walletCap = some cap) (cap_pos : cap ≠ 0)
    (cap_word : cap < MODULUS) (principal_word : principal < MODULUS)
    (interest_word : interest < MODULUS)
    (interest_eq : interest = principal * ((stop - now) * apr) / INTEREST_DENOMINATOR)
    (named : "" ∉ [enrolling, drawing, repaying]) (distinct : [enrolling, drawing, repaying].Nodup) :
    ∃ s, replay policy walletCap (loanReceipts b e cap principal interest enrolledAt startsAt now
      stop enrolling drawing repaying) = .ok s := by
  have inCampaign : policy.startsAt ≤ now := (starts ▸ le_max_right ..).trans started
  simp only [List.mem_cons, List.not_mem_nil, or_false, not_or] at named
  simp only [List.nodup_cons, List.mem_cons, List.not_mem_nil, or_false, not_or] at distinct
  obtain ⟨⟨notDrawing, notRepaying⟩, other, -⟩ := distinct
  -- the enrollment
  have enrolled : walletStep policy walletCap (Replay.initial.view b)
      (enrolledAt, .enrolled b e cap startsAt) =
      .ok (update (fun _ => none) e (some (loanAccount enrolledAt startsAt cap 0 [])), 0) := by
    refine (walletStep_eq_ok rfl approved).mpr ⟨_, _, 0, accrue_idle rfl le_rfl, ?_, rfl⟩
    simp only [onEvent, bind_eq_ok, pure_eq_ok]
    exact ⟨_, onEnrolled_opened.mpr ⟨cap, rfl, cap_word, cap_pos, starts, by omega, matching, rfl⟩,
      rfl⟩
  obtain ⟨s₁, first, view₁⟩ := replayReceipt_single (s := .initial) rfl (by omega) (Nat.zero_le _)
    (Ne.symm named.1) List.not_mem_nil enrolled
  obtain ⟨current₁, clock₁, seen₁⟩ := replayReceipt_current Replay.current_initial first
  -- the draw
  have drawn : walletStep policy walletCap (s₁.view b) (now, .borrowed b e principal) =
      .ok (update (s₁.view b).1 e (some (loanAccount now startsAt cap principal [])), 0) := by
    have idle : accrue policy apr now (loanAccount enrolledAt startsAt cap 0 []) =
        .ok (loanAccount now startsAt cap 0 []) := accrue_idle rfl entered
    rw [view₁]
    refine (walletStep_eq_ok rfl approved).mpr ⟨loanAccount now startsAt cap 0 [], _, 0, ?_, ?_, rfl⟩
    · simp only [update_self, Option.getD_some, idle]
    · simp only [onEvent, bind_eq_ok, pure_eq_ok]
      exact ⟨_, (onBorrowed_loan started running).mpr ⟨principal, rfl, principal_word, rfl⟩, rfl⟩
  obtain ⟨s₂, second, view₂⟩ := replayReceipt_single rfl (by omega) (clock₁.trans_le entered)
    (Ne.symm named.2.1) (by simpa [seen₁, Replay.initial] using Ne.symm notDrawing) drawn
  obtain ⟨current₂, clock₂, seen₂⟩ := replayReceipt_current current₁ second
  -- the repayment
  have units : coveredUnits policy principal apr now stop + uncoveredUnits policy principal apr stop =
      principal * ((stop - now) * apr) := units_add running order principal
  obtain ⟨q, used, repaid⟩ : ∃ q used, onRepaid policy walletCap stop 0 false principal interest
      (loanAccount stop startsAt cap principal (loanChunks
        (coveredUnits policy principal apr now stop) (uncoveredUnits policy principal apr stop))) =
      .ok (q, used) :=
    onRepaid_accepts inTime matching principal_word (units ▸ interest_eq) interest_word
  have settled : walletStep policy walletCap (s₂.view b) (stop, .repaid b e principal interest) =
      .ok (update (s₂.view b).1 e (some q), used) := by
    have accrued : accrue policy apr stop (loanAccount now startsAt cap principal []) =
        .ok (loanAccount stop startsAt cap principal (loanChunks
          (coveredUnits policy principal apr now stop)
          (uncoveredUnits policy principal apr stop))) := accrue_loan inCampaign running order
    rw [view₂]
    refine (walletStep_eq_ok rfl approved).mpr ⟨_, q, used, ?_, repaid, rfl⟩
    simp only [update_self, Option.getD_some]
    exact accrued
  obtain ⟨s₃, third, -⟩ := replayReceipt_single rfl safe (clock₂.trans_le order)
    (Ne.symm named.2.2) (by
      rw [seen₂, seen₁]
      simpa [Replay.initial] using ⟨Ne.symm other, Ne.symm notRepaying⟩) settled
  refine ⟨s₃, ?_⟩
  simp only [replay, loanReceipts, List.foldlM_cons, List.foldlM_nil, bind_eq_ok, pure_eq_ok]
  exact ⟨s₁, first, s₂, second, s₃, third, rfl⟩

/-! ### The quote and the replay -/

/-- The interest of a fresh loan of the engine, without the remainder it keeps. -/
theorem engineInterest_eq {p : Turret.Position} {w : IsolatedEngine.World}
    (fresh : p.remainder = 0) :
    (IsolatedEngine.interest p w).1 =
      p.principal * ((w.now - p.updatedAt) * w.capital.cfg.borrowAprBps) /
        INTEREST_DENOMINATOR := by
  have small : p.principal * ((w.now - p.updatedAt) * w.capital.cfg.borrowAprBps) %
      Turret.DENOMINATOR / Turret.DENOMINATOR = 0 :=
    Nat.div_eq_of_lt (Nat.mod_lt _ (by decide))
  simp only [IsolatedEngine.interest, carry, fresh, Nat.add_zero, small, mulDiv]
  rfl

theorem Covered.cap_pos {principal cap : ℤ} {days : ℕ} {quote : Quote}
    (h : Covered principal apr now days policy ⟨startsAt, cap, 0⟩ quote) : 0 < cap := by
  have valid := h.enrollment_valid
  simp only [InvalidEnrollment, not_or, not_le] at valid
  exact valid.2.2.2.1

theorem Covered.deadline_safe {principal : ℤ} {days : ℕ} {enrollment : QuoteEnrollment}
    {quote : Quote} (h : Covered principal apr now days policy enrollment quote) :
    policy.settlementDeadline ≤ MAX_SAFE_INTEGER := by
  have valid := h.campaign_valid
  simp only [InvalidCampaign, not_or, not_lt] at valid
  exact valid.2.2.1

/-- For a covered draw with a fresh wallet and cap, repaid in full at the end of the quoted
duration and before the settlement deadline, the replay confirms the quoted rebate, whatever else
the receipts hold about other wallets. The receipts of such a loan, with the interest that the
engine charges, are accepted. -/
theorem quote_replayed :
    (∀ (policy : Policy) (receipts : List Receipt) (asOf : Option ℕ) (rows : List Row)
        (b e : Address) (cap principal interest : ℤ) (apr enrolledAt startsAt now days : ℕ)
        (quote : Quote),
      quoteCashback principal apr now days (some policy) (some ⟨startsAt, cap, 0⟩) = .ok quote →
      quote.status = .enrolled → policy.aprBps e = some apr →
      now + days * 86400 ≤ policy.settlementDeadline →
      walletEvents b receipts = loanEvents b e cap principal interest enrolledAt startsAt now
        (now + days * 86400) →
      accountReceipts policy receipts asOf = .ok rows →
      (∃ row ∈ rows, row.borrower = b ∧ row.engine = e) ∧
        ∀ row ∈ rows, row.borrower = b → row.engine = e → row.confirmedRebate = quote.rebate) ∧
    ∀ (policy : Policy) (walletCap : Option ℕ) (b e : Address)
        (cap principal apr enrolledAt startsAt now days : ℕ) (quote : Quote)
        (enrolling drawing repaying : String) (p : Turret.Position)
        (w : IsolatedEngine.World),
      checkPolicy policy = .ok walletCap → policy.aprBps e = some apr →
      quoteCashback principal apr now days (some policy) (some ⟨startsAt, cap, 0⟩) = .ok quote →
      quote.status = .enrolled → startsAt = max enrolledAt policy.startsAt →
      (walletCap = none ∨ walletCap = some cap) → cap < MODULUS → principal < MODULUS →
      now + days * 86400 ≤ policy.settlementDeadline →
      p.principal = principal → p.remainder = 0 → p.updatedAt = now →
      w.now = now + days * 86400 → w.capital.cfg.borrowAprBps = apr →
      (IsolatedEngine.interest p w).1 < MODULUS →
      "" ∉ [enrolling, drawing, repaying] → [enrolling, drawing, repaying].Nodup →
      ∃ rows, accountReceipts policy
        (loanReceipts b e cap principal (IsolatedEngine.interest p w).1 enrolledAt startsAt now
          (now + days * 86400) enrolling drawing repaying) none = .ok rows := by
  constructor
  · intro policy receipts asOf rows b e cap principal interest apr enrolledAt startsAt now days
      quote quoted status approved inTime events done
    have covered := quote_covered quoted status
    refine row_of_account done fun walletCap s _ replayed => ?_
    have alive : ∀ receipt ∈ receipts, Unliquidated b receipt.events := by
      refine unliquidated_of_events fun entry mem f => ?_
      rw [events] at mem
      simp only [loanEvents, List.mem_cons, List.not_mem_nil, or_false] at mem
      rcases mem with rfl | rfl | rfl <;> exact nofun
    have run := receipts_view alive replayed
    rw [events] at run
    obtain ⟨account, present, repaid⟩ :=
      loan_run run approved covered.started covered.running inTime
    refine ⟨account, _, present, repaid.enrolled, ?_⟩
    have positive := covered.cap_pos
    have order : now ≤ now + days * 86400 := Nat.le_add_right ..
    have units : coveredUnits policy principal.toNat apr now (now + days * 86400) =
        principal.toNat * apr * coveredSeconds policy now (days * 86400) := by
      rw [coveredUnits, coveredSeconds]
      ring
    have whole : ((cap.toNat : ℕ) : ℤ) = cap := Int.toNat_of_nonneg positive.le
    rw [repaid.confirmed, covered.rebate_eq, units, whole, sub_zero, min_comm]
  · intro policy walletCap b e cap principal apr enrolledAt startsAt now days quote enrolling
      drawing repaying p w checked approved quoted status starts matching cap_word principal_word
      inTime isPrincipal fresh isUpdatedAt isNow isApr interest_word named distinct
    have covered := quote_covered quoted status
    have started : startsAt ≤ now := covered.started
    have positive := covered.cap_pos
    have interest_eq : (IsolatedEngine.interest p w).1 =
        principal * ((now + days * 86400 - now) * apr) / INTEREST_DENOMINATOR := by
      rw [engineInterest_eq fresh, isPrincipal, isUpdatedAt, isNow, isApr]
    obtain ⟨s, replayed⟩ := loan_accepts (b := b) approved starts
      ((starts ▸ le_max_left ..).trans started) started covered.running (Nat.le_add_right ..)
      inTime (inTime.trans covered.deadline_safe) matching (by omega) cap_word principal_word
      interest_word interest_eq named distinct
    exact accountReceipts_accepts checked replayed

/-- A draw of ten days under the sample campaign, and what its receipts confirm. -/
theorem sample_quote_replayed : ∃ quote rows,
    quoteCashback 365000000 1000 1000 10 (some samplePolicy) (some ⟨1000, 25000000, 0⟩) =
      .ok quote ∧ quote.rebate = 500000 ∧
    accountReceipts samplePolicy (loanReceipts 1 7 25000000 365000000 1000000 1000 1000 1000 865000
      "0x01" "0x02" "0x03") none = .ok rows ∧
    ∀ row ∈ rows, row.borrower = 1 → row.engine = 7 → row.confirmedRebate = quote.rebate := by
  have quoted : quoteCashback 365000000 1000 1000 10 (some samplePolicy)
      (some ⟨1000, 25000000, 0⟩) =
      .ok ⟨1000000, 1000000, 500000, 500000, 864000, false, .enrolled⟩ := by decide +kernel
  have done : accountReceipts samplePolicy (loanReceipts 1 7 25000000 365000000 1000000 1000 1000
      1000 865000 "0x01" "0x02" "0x03") none =
      .ok [⟨1, 7, 1000, 25000000, 0, 0, 0, 0, 500000, 1000000, 500000⟩] := by decide +kernel
  refine ⟨_, _, quoted, rfl, done, ?_⟩
  exact (quote_replayed.1 _ _ _ _ 1 7 25000000 365000000 1000000 1000 1000 1000 1000 10 _ quoted rfl
    (by decide +kernel) (by decide) walletEvents_loanReceipts done).2

end Turret.Cashback
