import Mathlib.Algebra.Order.Floor.Div
import Turret.P2P.FacilityCalls
import Turret.P2P.SignedQuotes
import Turret.P2P.SplitDraws

/-! The assessment of a signed quote beside the facility's own checks of a draw: what
is shown as available can be drawn, what is shown as gone cannot, and the quotes
that are counted together give no more than the capacity that is shown. -/

namespace Turret.SignedQuotes

open Execution Rounding Uint256 LenderFacility

variable {v : Viem} {e : Envelope} {s : Observation} {w w' : World} {now : ℕ}
  {account : Option String}

/-- An observation of the facility `w`, its domain of typed data included. -/
structure Observes (v : Viem) (s : Observation) (e : Envelope) (w : World) : Prop where
  facility : s.facility = w.cfg.self
  lender : s.lender = w.cfg.lender
  feeBps : s.feeBps = w.cfg.feeBps
  hash : ∀ quote, v.hashTypedData s.chainId s.facility quote = w.cfg.quoteHash quote
  epoch : s.epoch = w.facility.epoch
  idleCash : s.idleCash = w.facility.idleCash
  cashBalance : s.cashBalance = cash w
  activePrincipal : s.activePrincipal = w.facility.activePrincipal
  unresolvedDefaultPrincipal :
    s.unresolvedDefaultPrincipal = w.facility.unresolvedDefaultPrincipal
  limits : s.limits = w.facility.limits
  paused : s.paused = w.facility.newLoansPaused
  timestamp : s.block.timestamp = w.now
  use : s.use = w.facility.quoteUses e.quote.epoch e.quote.nonce
  signature : s.signatureValid = isValidQuoteSignature e.quote e.signature w

/-! ### Terms -/

/-- `ceilDiv` of the page is the rounding of the contract. -/
theorem ceilDiv_eq_mulDivUp {a b c : ℕ} (positive : 0 < c) : ceilDiv (a * b) c = mulDivUp a b c := by
  refine eq_of_forall_ge_iff fun q => ?_
  rw [mulDivUp_le_iff positive, ceilDiv, ← Nat.ceilDiv_eq_add_pred_div,
    ceilDiv_le_iff_le_mul positive, Nat.mul_comm c q]

theorem drawAmounts_spec {q : Quote} {principal feeBps : ℕ} (positive : 0 < principal)
    (le : principal ≤ q.capacity) (fee : feeBps ≤ 10000) :
    ∃ amounts, drawAmounts q principal feeBps = .ok amounts ∧
      quoteTerms q principal = .ok (amounts.collateral, amounts.interest) ∧
      amounts.fee = mulDiv amounts.interest feeBps 10000 ∧
      amounts.lenderRepayment = principal + amounts.interest - amounts.fee := by
  have capacity : 0 < q.capacity := positive.trans_le le
  have collateral := ceilDiv_eq_mulDivUp (a := principal) (b := q.collateralForCapacity) capacity
  have interest := ceilDiv_eq_mulDivUp (a := principal) (b := q.interestForCapacity) capacity
  have valid : ¬(principal = 0 ∨ q.capacity < principal ∨ 10000 < feeBps) := by omega
  have inside : ¬(principal = 0 ∨ q.capacity = 0 ∨ q.capacity < principal) := by omega
  have computed : drawAmounts q principal feeBps = .ok
      ⟨principal, mulDivUp principal q.collateralForCapacity q.capacity,
        mulDivUp principal q.interestForCapacity q.capacity,
        principal + mulDivUp principal q.interestForCapacity q.capacity,
        mulDivUp principal q.interestForCapacity q.capacity * feeBps / 10000,
        principal + mulDivUp principal q.interestForCapacity q.capacity -
          mulDivUp principal q.interestForCapacity q.capacity * feeBps / 10000⟩ := by
    simp only [drawAmounts, revertIf, if_neg valid, ok_bind, collateral, interest]
    rfl
  refine ⟨_, computed, ?_, rfl, rfl⟩
  simp only [quoteTerms, revertIf, if_neg inside, ok_bind]
  rfl

/-- A rate that the whole quote meets, every part of it meets, rounded up as both are. -/
theorem mulDivUp_rate_le {p total capacity rate scale : ℕ} (capacity_pos : 0 < capacity)
    (scale_pos : 0 < scale) (meets : capacity * rate ≤ total * scale) :
    mulDivUp p rate scale ≤ mulDivUp p total capacity := by
  rw [mulDivUp_le_iff scale_pos]
  have whole := le_mulDivUp_mul (a := p) (b := total) capacity_pos
  refine Nat.le_of_mul_le_mul_left ?_ capacity_pos
  calc capacity * (p * rate) = p * (capacity * rate) := by ring
    _ ≤ p * (total * scale) := Nat.mul_le_mul_left _ meets
    _ = p * total * scale := by ring
    _ ≤ mulDivUp p total capacity * capacity * scale := Nat.mul_le_mul_right _ whole
    _ = capacity * (mulDivUp p total capacity * scale) := by ring

theorem quoteValues_valid {raw : RawQuote} {q : Quote} (h : quoteValues v raw = .ok q) :
    ¬InvalidTerms q := by
  simp only [quoteValues, bind_eq_ok, revertIf_eq_ok, exists_const, pure_eq_ok] at h
  obtain ⟨_, -, _, -, _, -, _, -, _, -, _, -, _, -, _, -, _, -, _, -, valid, rfl⟩ := h
  exact valid

theorem parse_valid {value : RawEnvelope} (h : parseSignedQuote v value = .ok e) :
    ¬InvalidTerms e.quote ∧ e.quote.borrower ≠ e.facility := by
  simp only [parseSignedQuote, bind_eq_ok, revertIf_eq_ok, exists_const, pure_eq_ok] at h
  obtain ⟨-, facility, -, signature, -, -, quote, valid, other, rfl⟩ := h
  exact ⟨quoteValues_valid valid, other⟩

/-! ### What an assessment says -/

/-- What has been checked of a quote that is shown as available. -/
structure Open (v : Viem) (e : Envelope) (s : Observation) : Prop where
  facility : s.facility = e.facility
  chainId : s.chainId = e.chainId
  maxQuote : s.limits.minDraw ≠ 0
  signed : s.signatureValid = true
  epoch : e.quote.epoch = s.epoch
  kept : s.use.cancelled = false
  digest : s.use.filled = 0 ∨ s.use.digest = quoteDigest v e
  policy : ¬OutsidePolicy e.quote s
  running : s.paused = false
  filled : s.use.filled ≤ e.quote.capacity
  backed : s.idleCash ≤ s.cashBalance

theorem assessCapacity_available (h : (assessCapacity v e.quote s account).status = .available) :
    assessCapacity v e.quote s account =
      ⟨.available, none, s.capacity e.quote, min (s.capacity e.quote) s.limits.maxDraw,
        max e.quote.minDraw s.limits.minDraw, eligible v e.quote s account⟩ := by
  revert h
  simp only [assessCapacity]
  split_ifs
  · nofun
  · nofun
  · intro
    trivial

theorem assess_available (h : (assess v e s now account).status = .available) :
    Open v e s ∧ assess v e s now account =
      ⟨.available, none, s.capacity e.quote, min (s.capacity e.quote) s.limits.maxDraw,
        max e.quote.minDraw s.limits.minDraw, eligible v e.quote s account⟩ := by
  revert h
  simp only [assess]
  split_ifs with unread unsigned replaced outside late early paused unbacked
  iterate 8 exact nofun
  intro shown
  refine ⟨?_, assessCapacity_available shown⟩
  simp only [not_or, not_not, not_lt, not_and, ne_eq, Bool.not_eq_true, Bool.not_eq_false] at *
  obtain ⟨valid, facility, chainId⟩ := unread
  obtain ⟨-, -, -, -, -, -, -, -, -, limits⟩ := valid
  obtain ⟨epoch, kept, digest⟩ := replaced
  refine ⟨facility, chainId, limits.1.ne', unsigned, epoch, kept, ?_, outside, paused, unbacked.1,
    unbacked.2⟩
  rcases Nat.eq_zero_or_pos s.use.filled with none | some_
  · exact .inl none
  · exact .inr (digest some_)

/-! ### What can be drawn -/

/-- The account's side of a draw: bounds that suffice, and collateral that it holds and has
approved. Its loan gets a vault of its own. -/
structure Supplied (account vault : Address) (q : Quote) (principal maxCollateral maxInterest
    minRemainingCapacity : ℕ) (w : World) : Prop where
  collateral_le : mulDivUp principal q.collateralForCapacity q.capacity ≤ maxCollateral
  interest_le : mulDivUp principal q.interestForCapacity q.capacity ≤ maxInterest
  remaining_le : minRemainingCapacity ≤
    q.capacity - (w.facility.quoteUses w.facility.epoch q.nonce).filled
  approved : mulDivUp principal q.collateralForCapacity q.capacity ≤
    w.collateralToken.allowance account w.cfg.self
  held : mulDivUp principal q.collateralForCapacity q.capacity ≤ w.collateralToken.balanceOf account
  apart : account ≠ vault

variable {borrower vault : Address} {principal maxCollateral maxInterest minRemainingCapacity : ℕ}

theorem eligible_spec {text : String} (spelled : v.address text = some borrower)
    (h : eligible v e.quote s (some text) = true) :
    borrower ≠ 0 ∧ borrower ≠ s.lender ∧ borrower ≠ s.facility ∧
      (e.quote.borrower = 0 ∨ e.quote.borrower = borrower) := by
  simpa only [eligible, spelled, decide_eq_true_eq] using h

/-- The policy that the whole quote meets, its part meets. -/
theorem policy_part {q : Quote} (outside : ¬OutsidePolicy q s) (capacity : 0 < q.capacity) :
    mulDivUp principal s.limits.minCollateralPerPrincipalWad (10 ^ 18) ≤
        mulDivUp principal q.collateralForCapacity q.capacity ∧
      mulDivUp principal s.limits.minInterestBps 10000 ≤
        mulDivUp principal q.interestForCapacity q.capacity := by
  simp only [OutsidePolicy, not_or, not_lt] at outside
  obtain ⟨-, -, -, collateral, interest, -⟩ := outside
  exact ⟨mulDivUp_rate_le capacity (by decide) collateral,
    mulDivUp_rate_le capacity (by decide) interest⟩

theorem checkQuote_passes (h : Open v e s) (observed : Observes v s e w)
    (valid : ¬InvalidTerms e.quote) (own : e.quote.borrower ≠ e.facility)
    (lender : borrower ≠ s.lender)
    (admitted : e.quote.borrower = 0 ∨ e.quote.borrower = borrower)
    (least : max e.quote.minDraw s.limits.minDraw ≤ principal)
    (most : principal ≤ min (s.capacity e.quote) s.limits.maxDraw) {t : ℕ}
    (after : e.quote.validAfter ≤ t) (before : t < e.quote.expiresAt) :
    checkQuote borrower e.quote principal { w with now := t } =
      .ok (mulDivUp principal e.quote.collateralForCapacity e.quote.capacity,
        mulDivUp principal e.quote.interestForCapacity e.quote.capacity) := by
  have outside := h.policy
  simp only [InvalidTerms, not_or, not_le, not_lt, ne_eq, not_not] at valid
  obtain ⟨-, capacity, positive, minimum, collateral, words, duration, days, lifetime, horizon⟩ :=
    valid
  have part : mulDivUp principal s.limits.minCollateralPerPrincipalWad (10 ^ 18) ≤
        mulDivUp principal e.quote.collateralForCapacity e.quote.capacity ∧
      mulDivUp principal s.limits.minInterestBps 10000 ≤
        mulDivUp principal e.quote.interestForCapacity e.quote.capacity :=
    policy_part outside (Nat.pos_of_ne_zero capacity)
  simp only [OutsidePolicy, not_or, not_lt] at outside
  obtain ⟨short, minDuration, maxDuration, -, -, -⟩ := outside
  have within : principal ≤ e.quote.capacity := by
    have := (most.trans (min_le_left ..)).trans ((min_le_left ..).trans (min_le_left ..))
    omega
  have least_quote := (le_max_left ..).trans least
  have least_policy := (le_max_right ..).trans least
  have most_policy := most.trans (min_le_right ..)
  rw [observed.limits] at part short minDuration maxDuration least_policy most_policy
  have epoch := h.epoch.trans observed.epoch
  rw [← h.facility, observed.facility] at own
  rw [observed.lender] at lender
  have horizon' : e.quote.expiresAt + e.quote.duration + GRACE_PERIOD ≤ MAX_TIMESTAMP := horizon
  simp only [checkQuote, quoteTerms, bind_eq_ok, revertIf_eq_ok, exists_const, pure_eq_ok, not_or,
    not_lt, not_le, ne_eq, not_not]
  refine ⟨⟨epoch, lender, fun other => other.2 (admitted.resolve_left other.1), own, capacity,
    positive, minimum, collateral, ?_, after, before, lifetime, short, ?_, ?_, minDuration,
    maxDuration, days, least_quote, least_policy, most_policy⟩, _, ⟨⟨?_, capacity, within⟩, rfl⟩,
    part, rfl⟩
  · omega
  · omega
  · omega
  · omega

theorem le_room_iff (positive : 0 < principal) :
    principal ≤ s.room ↔
      s.activePrincipal + s.unresolvedDefaultPrincipal + principal ≤ s.limits.maxExposure := by
  unfold Observation.room Observation.exposure
  split_ifs <;> omega

/-- With exact-transfer tokens nothing else stands between an available quote and its loan. -/
theorem draw_passes (h : Open v e s) (observed : Observes v s e w)
    (valid : ¬InvalidTerms e.quote) (own : e.quote.borrower ≠ e.facility) (real : borrower ≠ 0)
    (lender : borrower ≠ s.lender) (other : borrower ≠ s.facility)
    (admitted : e.quote.borrower = 0 ∨ e.quote.borrower = borrower)
    (least : max e.quote.minDraw s.limits.minDraw ≤ principal)
    (most : principal ≤ min (s.capacity e.quote) s.limits.maxDraw) {t : ℕ}
    (after : e.quote.validAfter ≤ t) (before : t < e.quote.expiresAt)
    (supplied : Supplied borrower vault e.quote principal maxCollateral maxInterest
      minRemainingCapacity w) :
    ∃ w' id, draw borrower vault e.quote e.signature principal maxCollateral maxInterest
      minRemainingCapacity { w with now := t } = .ok (w', id) := by
  have checked := checkQuote_passes h observed valid own lender admitted least most after before
  have use : w.facility.quoteUses w.facility.epoch e.quote.nonce = s.use := by
    rw [observed.use, h.epoch, observed.epoch]
  have running : ¬w.facility.newLoansPaused = true := by
    rw [← observed.paused, h.running]
    nofun
  have signed : ¬isValidQuoteSignature e.quote e.signature { w with now := t } = false := by
    have same : isValidQuoteSignature e.quote e.signature { w with now := t } =
        isValidQuoteSignature e.quote e.signature w := rfl
    rw [same, ← observed.signature, h.signed]
    nofun
  have digest : s.use.filled = 0 ∨ s.use.digest = w.cfg.quoteHash e.quote := by
    refine h.digest.imp_right fun same => same.trans ?_
    rw [quoteDigest, ← h.chainId, ← h.facility, observed.hash]
  have capacity := most.trans (min_le_left ..)
  simp only [Observation.capacity, le_min_iff] at capacity
  obtain ⟨⟨remaining, idle⟩, room⟩ := capacity
  have positive : 0 < principal := by
    have least_quote := (le_max_left ..).trans least
    simp only [InvalidTerms, not_or] at valid
    omega
  have exposed : w.facility.activePrincipal + w.facility.unresolvedDefaultPrincipal + principal ≤
      w.facility.limits.maxExposure := by
    rw [← observed.activePrincipal, ← observed.unresolvedDefaultPrincipal, ← observed.limits]
    exact (le_room_iff positive).mp room
  have funded : principal ≤ w.facility.idleCash := observed.idleCash ▸ idle
  have backed : w.facility.idleCash ≤ cash w := by
    rw [← observed.idleCash, ← observed.cashBalance]
    exact h.backed
  have bounds := supplied.remaining_le
  rw [use] at bounds
  obtain ⟨c, pulled⟩ : ∃ c, P2PVault.pullExact w.cfg.self borrower vault
      (mulDivUp principal e.quote.collateralForCapacity e.quote.capacity) w.collateralToken =
        .ok c :=
    ⟨_, (P2PVault.pullExact_eq_ok supplied.apart).mpr ⟨⟨supplied.approved, supplied.held⟩, rfl⟩⟩
  have away : borrower ≠ w.cfg.self := observed.facility ▸ other
  obtain ⟨c', sent⟩ : ∃ c', P2PVault.sendExact w.cfg.self borrower principal w.loanToken = .ok c' :=
    ⟨_, (P2PVault.sendExact_eq_ok (Ne.symm away)).mpr ⟨funded.trans backed, rfl⟩⟩
  simp only [draw, checked, bind_eq_ok, revertIf_eq_ok, exists_const, ok_bind, pure_eq_ok, use,
    onCollateralToken, sendCash, onLoanToken, mapError_eq_ok, not_or, not_lt]
  refine ⟨_, _, running, ⟨supplied.collateral_le, supplied.interest_le⟩, signed,
    ⟨by rw [h.kept]; nofun, fun used => digest.elim used.1 used.2, h.filled, remaining, bounds⟩,
    ⟨by omega, by omega, funded, backed⟩, _, ⟨c, pulled, rfl⟩, _, ⟨⟨real, away⟩, c', sent, rfl⟩, rfl⟩

/-! ### What cannot be drawn -/

/-- What the shown states say of the facility. -/
theorem assess_gone {status : Status} (h : (assess v e s now account).status = status)
    (gone : status = .revoked ∨ status = .paused ∨ status = .filled ∨ status = .unfunded) :
    s.facility = e.facility ∧ s.chainId = e.chainId ∧
      (s.signatureValid = false ∨ e.quote.epoch ≠ s.epoch ∨ s.use.cancelled = true ∨
        (s.use.filled ≠ 0 ∧ s.use.digest ≠ quoteDigest v e) ∨ s.paused = true ∨
        min (s.capacity e.quote) s.limits.maxDraw < max e.quote.minDraw s.limits.minDraw) := by
  subst h
  revert gone
  simp only [assess]
  split_ifs with unread unsigned replaced outside late early paused unbacked
  · simp [stop]
  · simp only [not_or, not_not] at unread
    exact fun _ => ⟨unread.2.1, unread.2.2, .inl unsigned⟩
  · simp only [not_or, not_not] at unread
    refine fun _ => ⟨unread.2.1, unread.2.2, .inr ?_⟩
    rcases replaced with epoch | cancelled | digest
    · exact .inl epoch
    · exact .inr (.inl cancelled)
    · exact .inr (.inr (.inl ⟨digest.1.ne', digest.2⟩))
  · simp [stop]
  · simp [stop]
  · simp [stop]
  · simp only [not_or, not_not] at unread
    exact fun _ => ⟨unread.2.1, unread.2.2, .inr (.inr (.inr (.inr (.inl paused))))⟩
  · simp [stop]
  · simp only [not_or, not_not] at unread
    simp only [assessCapacity]
    split_ifs with short filled
    · exact fun _ => ⟨unread.2.1, unread.2.2, .inr (.inr (.inr (.inr (.inr short))))⟩
    · exact fun _ => ⟨unread.2.1, unread.2.2, .inr (.inr (.inr (.inr (.inr short))))⟩
    · simp

theorem checkQuote_limits {q : Quote} {terms : ℕ × ℕ}
    (h : checkQuote borrower q principal w = .ok terms) :
    w.facility.limits.minDraw ≤ principal ∧ principal ≤ w.facility.limits.maxDraw := by
  simp only [checkQuote, bind_eq_ok, revertIf_eq_ok, exists_const, not_or, not_lt] at h
  obtain ⟨⟨-, -, -, -, -, -, -, -, -, -, -, -, -, -, -, -, -, -, -, least, most⟩, -⟩ := h
  exact ⟨least, most⟩

theorem draw_refused (observed : Observes v s e w)
    (gone : (assess v e s now account).status = .revoked ∨
      (assess v e s now account).status = .paused ∨
      (assess v e s now account).status = .filled ∨
      (assess v e s now account).status = .unfunded) (t : ℕ) (done : World × ℕ) :
    draw borrower vault e.quote e.signature principal maxCollateral maxInterest minRemainingCapacity
      { w with now := t } ≠ .ok done := by
  intro h
  obtain ⟨facility, chainId, because⟩ := assess_gone rfl gone
  have passed := h
  simp only [draw, bind_eq_ok, revertIf_eq_ok, exists_const, not_or, not_lt, Prod.exists] at passed
  obtain ⟨running, _, _, checked, -, signed, ⟨kept, digest, -, remaining, -⟩,
    ⟨-, room, idle, -⟩, -⟩ := passed
  have quoted := checkQuote_ok checked
  have limits := checkQuote_limits checked
  have epoch : e.quote.epoch = w.facility.epoch := quoted.epoch_eq
  have use : w.facility.quoteUses w.facility.epoch e.quote.nonce = s.use := by
    rw [observed.use, epoch]
  have hash : quoteDigest v e = w.cfg.quoteHash e.quote := by
    rw [quoteDigest, ← chainId, ← facility, observed.hash]
  simp only [use] at kept digest remaining
  rcases because with unsigned | replaced | cancelled | used | paused | short
  · exact signed (observed.signature.symm.trans unsigned)
  · exact replaced (epoch.trans observed.epoch.symm)
  · exact kept cancelled
  · exact digest ⟨used.1, hash ▸ used.2⟩
  · exact running (observed.paused.symm.trans paused)
  · have positive : 0 < principal := quoted.principal_pos
    have inRoom : principal ≤ s.room := by
      rw [le_room_iff positive, observed.activePrincipal, observed.unresolvedDefaultPrincipal,
        observed.limits]
      omega
    have fits : principal ≤ s.capacity e.quote :=
      le_min (le_min remaining (observed.idleCash ▸ idle)) inRoom
    have policy : s.limits = w.facility.limits := observed.limits
    have above : max e.quote.minDraw s.limits.minDraw ≤ principal :=
      max_le quoted.minDraw_le (policy ▸ limits.1)
    have below : principal ≤ min (s.capacity e.quote) s.limits.maxDraw :=
      le_min fits (policy ▸ limits.2)
    exact absurd (above.trans below) (not_le.mpr short)

/-! ### What is counted together -/

deriving instance DecidableEq for LenderFacility.Quote

def filled (q : Quote) (w : World) : ℕ := (w.facility.quoteUses w.facility.epoch q.nonce).filled

def exposure (w : World) : ℕ := w.facility.activePrincipal + w.facility.unresolvedDefaultPrincipal

/-- What a quote can still give. -/
def left (q : Quote) (w : World) : ℕ :=
  min (min (q.capacity - filled q w) w.facility.idleCash)
    (w.facility.limits.maxExposure - exposure w)

/-- What all the quotes together can still give. -/
def takeable (quotes : List Quote) (w : World) : ℕ :=
  min (min (quotes.map (left · w)).sum w.facility.idleCash)
    (w.facility.limits.maxExposure - exposure w)

/-- The calls that can give the facility new capacity. -/
def Replenishes : Op → Prop
  | .setPolicy .. | .deposit .. | .repay .. | .recycleRepayment _ | .acknowledgeDefault .. => True
  | _ => False

/-- What a call draws of the quotes. -/
def takenFrom (quotes : List Quote) : Op → ℕ
  | .draw _ _ quote _ principal _ _ _ => if quote ∈ quotes then principal else 0
  | _ => 0

/-- No call but those gives capacity back. -/
structure Shrinks (w w' : World) : Prop where
  limits : w'.facility.limits = w.facility.limits
  idleCash : w'.facility.idleCash ≤ w.facility.idleCash
  exposure : exposure w ≤ exposure w'
  filled : ∀ q, filled q w ≤ filled q w'

namespace Shrinks

theorem left_le (h : Shrinks w w') (q : Quote) : left q w' ≤ left q w := by
  have used := h.filled q
  have exposed := h.exposure
  have idle := h.idleCash
  simp only [left, h.limits]
  omega

theorem takeable_le (h : Shrinks w w') (quotes : List Quote) :
    takeable quotes w' ≤ takeable quotes w := by
  have parts : (quotes.map (left · w')).sum ≤ (quotes.map (left · w)).sum :=
    List.sum_le_sum fun q _ => h.left_le q
  have exposed := h.exposure
  have idle := h.idleCash
  simp only [takeable, h.limits]
  omega

end Shrinks

theorem accepted_shrinks {op : Op} (h : Accepted w op w') (quiet : ¬Replenishes op) :
    Shrinks w w' := by
  cases h with
  | setPolicy | deposit | repay | recycleRepayment | acknowledgeDefault =>
    exact absurd trivial quiet
  | draw sender vault quote signature principal =>
    refine ⟨rfl, Nat.sub_le .., ?_, fun q => ?_⟩
    · simp only [exposure, drawn, setLoan, setUse]
      omega
    · simp only [filled, drawn, setLoan, setUse, Function.update_self]
      by_cases same : q.nonce = quote.nonce
      · rw [same, Function.update_self]
        exact Nat.le_add_right ..
      · rw [Function.update_of_ne same]
  | cancelQuote nonce =>
    refine ⟨rfl, le_rfl, le_rfl, fun q => ?_⟩
    simp only [filled, setUse, Function.update_self]
    by_cases same : q.nonce = nonce
    · rw [same, Function.update_self]
    · rw [Function.update_of_ne same]
  | withdrawIdle => exact ⟨rfl, Nat.sub_le .., le_rfl, fun _ => le_rfl⟩
  | acknowledgeIdleLoss lost => exact ⟨rfl, lost.le, le_rfl, fun _ => le_rfl⟩
  | claimDefault id active late covered =>
    refine ⟨rfl, le_rfl, ?_, fun _ => le_rfl⟩
    simp only [exposure, setLoan]
    omega
  | setNewLoansPaused | withdrawSurplus | withdrawRepayment | collectFee | withdrawCollateral
  | writeOffRepayment | writeOffCollateral | proposeExtension | cancelExtension | acceptExtension
  | outside => exact ⟨rfl, le_rfl, le_rfl, fun _ => le_rfl⟩

/-- A part that gives at least `n` less makes the sum at least `n` less. -/
theorem sum_add_le {α : Type} {f g : α → ℕ} {n : ℕ} {x : α} {l : List α} (mem : x ∈ l)
    (all : ∀ y, f y ≤ g y) (one : f x + n ≤ g x) : (l.map f).sum + n ≤ (l.map g).sum := by
  induction l with
  | nil => simp at mem
  | cons y l ih =>
    simp only [List.map_cons, List.sum_cons]
    have rest : (l.map f).sum ≤ (l.map g).sum := List.sum_le_sum fun z _ => all z
    have head := all y
    rcases List.mem_cons.mp mem with rfl | mem
    · omega
    · have := ih mem
      omega

/-- A draw takes its principal of what its quote, and all the quotes together, can give. -/
theorem draw_takeable {quotes : List Quote} {quote : Quote} {signature : Signature}
    (h : Accepted w (.draw borrower vault quote signature principal maxCollateral maxInterest
      minRemainingCapacity) w') (mem : quote ∈ quotes) :
    takeable quotes w' + principal ≤ takeable quotes w := by
  have shrinks := accepted_shrinks h (fun replenishes => replenishes)
  cases h with
  | draw _ _ _ _ _ _ _ _ collateral interest c t admitted =>
    have room := admitted.room
    have exposed := admitted.exposure
    have funded := admitted.funded
    set w' : World :=
      { w with
        loanToken := t
        collateralToken := c
        facility := drawn borrower vault quote principal collateral interest w } with w'_eq
    have used : filled quote w' = filled quote w + principal := by
      simp only [filled, w'_eq, drawn, setLoan, setUse, Function.update_self]
    have lent : exposure w' = exposure w + principal := by
      simp only [exposure, w'_eq, drawn, setLoan, setUse]
      omega
    have idle : w'.facility.idleCash = w.facility.idleCash - principal := rfl
    have within : exposure w + principal ≤ w.facility.limits.maxExposure := exposed
    have inQuote : filled quote w + principal ≤ quote.capacity := room
    have one : left quote w' + principal ≤ left quote w := by
      simp only [left, used, lent, idle, shrinks.limits]
      omega
    have parts := sum_add_le mem shrinks.left_le one
    simp only [takeable, lent, idle, shrinks.limits]
    omega

theorem exec_takeable {op : Op} (quotes : List Quote) (h : exec op w = .ok w')
    (quiet : ¬Replenishes op) : takeable quotes w' + takenFrom quotes op ≤ takeable quotes w := by
  have accepted := exec_accepted h
  have whole := (accepted_shrinks accepted quiet).takeable_le quotes
  cases op with
  | draw sender vault quote signature principal maxCollateral maxInterest minRemainingCapacity =>
    simp only [takenFrom]
    split_ifs with mem
    · exact draw_takeable accepted mem
    · exact whole
  | _ => exact whole

/-- Until the facility gets new capacity, the draws of the quotes take no more than this. -/
theorem run_takeable {ops : List Op} (quotes : List Quote) (h : Run (accepts exec) w ops w')
    (quiet : ∀ op ∈ ops, ¬Replenishes op) :
    takeable quotes w' + (ops.map (takenFrom quotes)).sum ≤ takeable quotes w := by
  induction h with
  | nil => simp
  | cons first _ ih =>
    have head := exec_takeable quotes first (quiet _ (List.mem_cons_self ..))
    have rest := ih fun op mem => quiet op (List.mem_cons_of_mem _ mem)
    simp only [List.map_cons, List.sum_cons]
    omega

/-! ### The summary -/

variable {key : Key} {items : List Item} {quotes : List Assessed}

/-- The quotes that a summary counts. -/
def Summary.counted (summary : Summary) : List Quote :=
  match summary.status with
  | .unavailable => []
  | .checked => (summary.quotes.filter Assessed.counted).map fun a => a.envelope.quote

/-- What is collected are assessments of the rows. -/
theorem collect_assessed {nonces : List Seen} (h : collect v now account nonces items = some quotes) :
    ∀ a ∈ quotes, ∃ item ∈ items, a.envelope = item.envelope ∧
      a.availability = assess v item.envelope item.observation now account := by
  induction items generalizing nonces quotes with
  | nil =>
    obtain rfl : [] = quotes := by simpa [collect] using h
    simp
  | cons item items ih =>
    simp only [collect] at h
    split at h
    · split_ifs at h
      intro a mem
      obtain ⟨found, listed, same⟩ := ih h a mem
      exact ⟨found, List.mem_cons_of_mem _ listed, same⟩
    · simp only [Option.bind_eq_bind, Option.bind_eq_some_iff, Option.some.injEq] at h
      obtain ⟨rest, collected, rfl⟩ := h
      intro a mem
      rcases List.mem_cons.mp mem with rfl | mem
      · exact ⟨item, List.mem_cons_self .., rfl, rfl⟩
      · obtain ⟨found, listed, same⟩ := ih collected a mem
        exact ⟨found, List.mem_cons_of_mem _ listed, same⟩

theorem room_eq (observed : Observes v s e w) :
    s.room = w.facility.limits.maxExposure - exposure w := by
  simp only [Observation.room, Observation.exposure, exposure, observed.limits,
    observed.activePrincipal, observed.unresolvedDefaultPrincipal]
  split_ifs <;> omega

theorem capacity_eq (observed : Observes v s e w) (epoch : e.quote.epoch = s.epoch) :
    s.capacity e.quote = left e.quote w := by
  rw [Observation.capacity, left, room_eq observed, observed.use, epoch, observed.epoch,
    observed.idleCash]
  rfl

/-- A counted quote is shown with what it can give. -/
theorem counted_capacity {a : Assessed} {item : Item} (counted : a.counted = true)
    (envelope : a.envelope = item.envelope)
    (assessed : a.availability = assess v item.envelope item.observation now account)
    (observed : Observes v item.observation item.envelope w) :
    a.availability.capacity = left a.envelope.quote w := by
  simp only [Assessed.counted, Bool.and_eq_true, decide_eq_true_eq, assessed] at counted
  obtain ⟨open_, shown⟩ := assess_available counted.1
  rw [assessed, shown, envelope]
  exact capacity_eq observed open_.epoch

theorem takeable_counted {first : Item} (observed : ∀ item ∈ items,
      Observes v item.observation item.envelope w) (listed : first ∈ items)
    (collected : collect v now account [] items = some quotes) :
    takeable ((quotes.filter Assessed.counted).map fun a => a.envelope.quote) w =
      groupCapacity first.observation quotes := by
  have parts : (((quotes.filter Assessed.counted).map fun a => a.envelope.quote).map (left · w)).sum =
      ((quotes.filter Assessed.counted).map fun a => a.availability.capacity).sum := by
    rw [List.map_map]
    congr 1
    refine List.map_congr_left fun a mem => ?_
    obtain ⟨kept, counted⟩ := List.mem_filter.mp mem
    obtain ⟨item, source, envelope, assessed⟩ := collect_assessed collected a kept
    exact (counted_capacity counted envelope assessed (observed item source)).symm
  have seen := observed first listed
  simp only [takeable, groupCapacity, parts, room_eq seen, seen.idleCash]
  split_ifs with some_
  · rfl
  · omega

theorem summarizeGroup_bound (observed : ∀ item ∈ items,
      Observes v item.observation item.envelope w) :
    takeable (summarizeGroup v now account key items).counted w ≤
      (summarizeGroup v now account key items).capacity := by
  have none : takeable [] w = 0 := by simp [takeable]
  cases items with
  | nil => simp [summarizeGroup, Summary.counted, none]
  | cons first others =>
    simp only [summarizeGroup]
    split_ifs
    · simp [Summary.counted, none]
    · simp [Summary.counted, none]
    · split
      · simp [Summary.counted, none]
      · rename_i quotes collected
        split_ifs
        · simp [Summary.counted, none]
        · exact (takeable_counted observed (List.mem_cons_self ..) collected).le

/-- A group holds rows of its key. -/
theorem addItem_mem {groups : List (Key × List Item)} {item : Item}
    (sound : ∀ g ∈ groups, ∀ i ∈ g.2, i.key = g.1 ∧ i ∈ items) :
    ∀ g ∈ addItem groups item, ∀ i ∈ g.2, i.key = g.1 ∧ (i ∈ items ∨ i = item) := by
  intro g mem i held
  unfold addItem at mem
  split_ifs at mem
  · obtain ⟨old, member, rfl⟩ := List.mem_map.mp mem
    split_ifs at held ⊢ with same
    · rcases List.mem_append.mp held with before | last
      · exact ⟨(sound old member i before).1, .inl (sound old member i before).2⟩
      · obtain rfl := List.mem_singleton.mp last
        exact ⟨same.symm, .inr rfl⟩
    · exact ⟨(sound old member i held).1, .inl (sound old member i held).2⟩
  · rcases List.mem_append.mp mem with before | last
    · exact ⟨(sound g before i held).1, .inl (sound g before i held).2⟩
    · obtain rfl := List.mem_singleton.mp last
      obtain rfl := List.mem_singleton.mp held
      exact ⟨rfl, .inr rfl⟩

theorem groups_mem (items : List Item) :
    ∀ g ∈ items.foldl addItem [], ∀ i ∈ g.2, i.key = g.1 ∧ i ∈ items := by
  induction items using List.reverseRecOn with
  | nil => simp
  | append_singleton items item ih =>
    rw [List.foldl_append]
    intro g mem i held
    obtain ⟨key, listed⟩ := addItem_mem ih g mem i held
    exact ⟨key, by simpa using listed⟩

theorem readRow_ok {row : Row} {item : Item} (h : readRow v row = .ok item) :
    parseSignedQuote v row.envelope = .ok item.envelope ∧ item.observation = row.observation := by
  simp only [readRow, bind_eq_ok, pure_eq_ok] at h
  obtain ⟨envelope, parsed, rfl⟩ := h
  exact ⟨parsed, rfl⟩

theorem mapM_mem {rows : List Row} {items : List Item} (h : rows.mapM (readRow v) = .ok items) :
    ∀ item ∈ items, ∃ row ∈ rows, readRow v row = .ok item := by
  induction rows generalizing items with
  | nil =>
    obtain rfl : [] = items := by simpa using h
    simp
  | cons row rows ih =>
    simp only [List.mapM_cons, bind_eq_ok, pure_eq_ok] at h
    obtain ⟨first, read, rest, others, rfl⟩ := h
    intro item mem
    rcases List.mem_cons.mp mem with rfl | mem
    · exact ⟨row, List.mem_cons_self .., read⟩
    · obtain ⟨source, listed, same⟩ := ih others item mem
      exact ⟨source, List.mem_cons_of_mem _ listed, same⟩

theorem summarizeGroup_key : (summarizeGroup v now account key items).key = key := by
  cases items with
  | nil => rfl
  | cons first others =>
    simp only [summarizeGroup]
    split_ifs
    · rfl
    · rfl
    · split
      · rfl
      · split_ifs <;> rfl

/-- The rows of a summary were taken from one state `w` of its facility. -/
def ObservedAt (v : Viem) (rows : List Row) (summary : Summary) (w : World) : Prop :=
  ∀ row ∈ rows, ∀ e, parseSignedQuote v row.envelope = .ok e →
    (e.chainId, e.facility) = summary.key → Observes v row.observation e w

theorem summarizeFacilities_bound {rows : List Row} {summaries : List Summary}
    (h : summarizeFacilities v rows now account = .ok summaries) {summary : Summary}
    (mem : summary ∈ summaries) (observed : ObservedAt v rows summary w) :
    takeable summary.counted w ≤ summary.capacity := by
  simp only [summarizeFacilities, bind_eq_ok, pure_eq_ok] at h
  obtain ⟨items, read, rfl⟩ := h
  obtain ⟨g, listed, rfl⟩ := List.mem_map.mp mem
  refine summarizeGroup_bound fun item held => ?_
  obtain ⟨key, member⟩ := groups_mem items g listed item held
  obtain ⟨row, source, parsed⟩ := mapM_mem read item member
  obtain ⟨envelope, same⟩ := readRow_ok parsed
  rw [same]
  refine observed row source item.envelope envelope ?_
  rw [summarizeGroup_key, ← key]
  rfl

/-! ### Agreement -/

/-- The amounts that are shown of a draw are those of the contract, its repayment included. -/
structure AmountsExact (q : Quote) (principal : ℕ) (w : World) (amounts : DrawAmounts) : Prop where
  shown : drawAmounts q principal w.cfg.feeBps = .ok amounts
  terms : quoteTerms q principal = .ok (amounts.collateral, amounts.interest)
  repaid : ∀ payer id u u', u.cfg = w.cfg → (u.loan id).principal = principal →
    (u.loan id).interest = amounts.interest → repay payer id u = .ok u' →
    (u'.loan id).feeCredit = amounts.fee ∧ (u'.loan id).lenderCredit = amounts.lenderRepayment

theorem amounts_exact {q : Quote} (positive : 0 < principal) (le : principal ≤ q.capacity)
    (w : World) : ∃ amounts, AmountsExact q principal w amounts := by
  obtain ⟨amounts, shown, terms, fee, lender⟩ := drawAmounts_spec positive le w.cfg.fee_le
  refine ⟨amounts, shown, terms, fun payer id u u' cfg lent interest done => ?_⟩
  have accepted : Accepted u (.repay payer id) u' := exec_accepted done
  cases accepted with
  | repay =>
    have loan : (setLoan id (LenderFacility.repaid u (u.loan id))
        { u.facility with
          activePrincipal := u.facility.activePrincipal - (u.loan id).principal }).loans id =
        LenderFacility.repaid u (u.loan id) := Function.update_self ..
    simp only [World.loan] at loan lent interest ⊢
    rw [loan]
    simp only [LenderFacility.repaid, lent, interest, cfg, fee, lender, and_self]

/-- A quote that is shown as available can be drawn, one that is shown as gone cannot, and the
capacity of a summary bounds what its quotes give before the facility gets new capacity. -/
theorem quotes_assessed (v : Viem) :
    (∀ value e s now text borrower w, parseSignedQuote v value = .ok e → Observes v s e w →
      v.address text = some borrower →
      (assessQuote v value s now (some text)).status = .available →
      (assessQuote v value s now (some text)).borrowerEligible = true →
      ∀ principal, (assessQuote v value s now (some text)).minDraw ≤ principal →
      principal ≤ (assessQuote v value s now (some text)).maxDraw →
        (∃ amounts, AmountsExact e.quote principal w amounts) ∧
        ∀ t vault maxCollateral maxInterest minRemainingCapacity,
          e.quote.validAfter ≤ t → t < e.quote.expiresAt →
          Supplied borrower vault e.quote principal maxCollateral maxInterest
            minRemainingCapacity w →
          ∃ w' id, draw borrower vault e.quote e.signature principal maxCollateral maxInterest
            minRemainingCapacity { w with now := t } = .ok (w', id)) ∧
    (∀ value e s now account w, parseSignedQuote v value = .ok e → Observes v s e w →
      ((assessQuote v value s now account).status = .revoked ∨
        (assessQuote v value s now account).status = .paused ∨
        (assessQuote v value s now account).status = .filled ∨
        (assessQuote v value s now account).status = .unfunded) →
      ∀ borrower vault principal maxCollateral maxInterest minRemainingCapacity t done,
        draw borrower vault e.quote e.signature principal maxCollateral maxInterest
          minRemainingCapacity { w with now := t } ≠ .ok done) ∧
    ∀ rows now account summaries, summarizeFacilities v rows now account = .ok summaries →
      ∀ summary ∈ summaries, ∀ w, ObservedAt v rows summary w →
      ∀ ops w', Run (accepts exec) w ops w' → (∀ op ∈ ops, ¬Replenishes op) →
        (ops.map (takenFrom summary.counted)).sum ≤ summary.capacity := by
  refine ⟨fun value e s now text borrower w parsed observed spelled available elig principal least
      most => ?_, fun value e s now account w parsed observed gone => ?_,
    fun rows now account summaries summarized summary mem w observed ops w' run quiet => ?_⟩
  · simp only [assessQuote, parsed] at available elig least most
    obtain ⟨open_, shown⟩ := assess_available available
    rw [shown] at elig least most
    obtain ⟨valid, own⟩ := parse_valid parsed
    obtain ⟨real, lender, other, admitted⟩ := eligible_spec spelled elig
    refine ⟨amounts_exact ?_ ?_ w, fun t vault maxCollateral maxInterest minRemainingCapacity after
      before supplied => draw_passes open_ observed valid own real lender other admitted least most
        after before supplied⟩
    · have positive := (le_max_left ..).trans least
      simp only [InvalidTerms, not_or] at valid
      omega
    · have capacity := most.trans (min_le_left ..)
      simp only [Observation.capacity, le_min_iff] at capacity
      omega
  · simp only [assessQuote, parsed] at gone
    exact fun _ _ _ _ _ _ t done => draw_refused observed gone t done
  · have shown := summarizeFacilities_bound summarized mem observed
    have taken := run_takeable summary.counted run quiet
    omega

/-! The quote of the three draws, observed on the facility that they were made of. -/

def sampleViem : Viem where
  address text :=
    if text = "0x0000000000000000000000000000000000000064" then some 100
    else if text = "0x0000000000000000000000000000000000000003" then some 3
    else if text = "0x0000000000000000000000000000000000000000" then some 0
    else none
  bytes text := if text = "0x" then some [] else none
  hashTypedData _ _ _ := 9

def sampleEnvelope : RawEnvelope where
  schemaVersion := 1
  chainId := 1
  facility := "0x0000000000000000000000000000000000000064"
  quote :=
    { epoch := "1", nonce := "5", borrower := "0x0000000000000000000000000000000000000000"
      capacity := "1000", minDraw := "1", collateralForCapacity := "7", interestForCapacity := "3"
      duration := "86400", validAfter := "900", expiresAt := "2000" }
  signature := "0x"

def sampleObservation : Observation where
  healthy := true
  facility := 100
  chainId := 1
  lender := 2
  paused := false
  epoch := 1
  idleCash := 10 ^ 6
  cashBalance := 10 ^ 6
  activePrincipal := 0
  unresolvedDefaultPrincipal := 0
  feeBps := 2500
  limits := ⟨10 ^ 9, 1, 10 ^ 6, 86400, 86400, 5000, 1, 0⟩
  block := ⟨1, 1, 1000⟩
  signatureValid := true
  use := noUse
  checkedAt := 10 ^ 6

def sampleParsed : Envelope := ⟨1, 100, sampleQuote, []⟩

theorem sample_parsed : parseSignedQuote sampleViem sampleEnvelope = .ok sampleParsed := by
  rfl

theorem sample_observed : Observes sampleViem sampleObservation sampleParsed sample :=
  ⟨rfl, rfl, rfl, fun _ => rfl, by decide +kernel, by decide +kernel, by decide +kernel,
    by decide +kernel, by decide +kernel, rfl, by decide +kernel, by decide +kernel,
    rfl, by decide +kernel⟩

/-- An account is shown the whole quote, and can draw four tenths of it a little later. -/
theorem sample_assessed :
    (assessQuote sampleViem sampleEnvelope sampleObservation (10 ^ 6)
      (some "0x0000000000000000000000000000000000000003")).maxDraw = 1000 ∧
    ∃ w' id, draw 3 11 sampleQuote [] 400 3 2 600 { sample with now := 1500 } = .ok (w', id) := by
  have drawable := (quotes_assessed sampleViem).1 sampleEnvelope sampleParsed sampleObservation
    (10 ^ 6) "0x0000000000000000000000000000000000000003" 3 sample sample_parsed sample_observed rfl
    (by decide +kernel) (by decide +kernel) 400 (by decide +kernel) (by decide +kernel)
  exact ⟨by decide +kernel, drawable.2 1500 11 3 2 600 (by decide) (by decide)
    ⟨by decide, by decide, by decide +kernel, by decide +kernel, by decide +kernel, by decide⟩⟩

end Turret.SignedQuotes
