import Turret.P2P.LenderFacility

/-! `setupTerms` of `standing-model.ts`: the policy and the quote of a standing
offer from what the lender has entered, and what a draw of such a quote gives.
The units of `viem` are a parameter. -/

namespace Turret.StandingOffers

open Execution Rounding Uint256 LenderFacility

inductive SetupError
  | precisionUnavailable
  | notAnAmount
  | notPositive
  | unitSyntax
  | minimumAboveMaximum
  | invalidDuration
  | exceedsAmountLimit
  | collateralOutsideRange
  deriving DecidableEq

/-- `parseUnits`, which may throw, and `formatUnits`. -/
structure Units where
  parseUnits : String → ℕ → Option ℤ
  formatUnits : ℕ → ℕ → String

/-! ### What is entered -/

def isNatural : List Char → Bool
  | [] => false
  | ['0'] => true
  | first :: rest => decide ('1' ≤ first ∧ first ≤ '9') && rest.all Char.isDigit

/-- The pattern of an amount with at most so many decimal places. -/
def isAmount (decimals : ℕ) (value : List Char) : Bool :=
  match value.splitOn '.' with
  | [whole] => isNatural whole
  | [whole, fraction] => isNatural whole && decide (0 < fraction.length) &&
      decide (fraction.length ≤ decimals) && fraction.all Char.isDigit
  | _ => false

/-- `amount` of `ui-model.ts`. -/
def amount (units : Units) (value : String) (decimals : ℕ) : Except SetupError ℕ := do
  revertIf (36 < decimals) .precisionUnavailable
  revertIf (isAmount decimals value.toList = false) .notAnAmount
  let result ← orRevert (units.parseUnits value decimals) .unitSyntax
  revertIf (result ≤ 0 ∨ (MODULUS : ℤ) ≤ result) .notPositive
  pure result.toNat

structure SetupDraft where
  budget : String
  minimum : String
  maximum : String
  collateral : String
  interest : String
  days : String

def digitsValue (digits : List Char) : ℕ := digits.foldl (fun n c => 10 * n + (c.toNat - 48)) 0

/-- `/^[1-9][0-9]*$/`. -/
def isPositive : List Char → Bool
  | [] => false
  | first :: rest => decide ('1' ≤ first ∧ first ≤ '9') && rest.all Char.isDigit

/-- `draft.interest === "0" ? 0n : amount(draft.interest, 6)`. -/
def interestAmount (units : Units) (value : String) : Except SetupError ℕ :=
  if value = "0" then pure 0 else amount units value 6

/-- The amounts that were entered. -/
structure Entered where
  budget : ℕ
  minimum : ℕ
  maximum : ℕ
  collateral : ℕ
  interest : ℕ
  duration : ℕ

def readDraft (units : Units) (draft : SetupDraft) (decimals : ℕ) : Except SetupError Entered := do
  let budget ← amount units draft.budget 6
  let minimum ← amount units draft.minimum 6
  let maximum ← amount units draft.maximum 6
  let collateral ← amount units draft.collateral decimals
  let interest ← interestAmount units draft.interest
  revertIf (maximum < minimum ∨ budget < maximum) .minimumAboveMaximum
  revertIf (isPositive draft.days.toList = false ∨ 365 < digitsValue draft.days.toList)
    .invalidDuration
  pure ⟨budget, minimum, maximum, collateral, interest, digitsValue draft.days.toList * 86400⟩

/-! ### What is generated -/

/-- `scale`: rounded upward to the full budget. -/
def Entered.scale (e : Entered) (value : ℕ) : ℕ := (value * e.budget + e.maximum - 1) / e.maximum

def Entered.fullCollateral (e : Entered) : ℕ := e.scale e.collateral
def Entered.fullInterest (e : Entered) : ℕ := e.scale e.interest
def Entered.ratio (e : Entered) : ℕ := e.collateral * 10 ^ 18 / e.maximum
def Entered.interestBps (e : Entered) : ℕ := e.interest * 10000 / e.maximum

def Entered.limits (e : Entered) : Limits where
  maxExposure := e.budget
  minDraw := e.minimum
  maxDraw := e.maximum
  minDuration := e.duration
  maxDuration := e.duration
  maxQuoteLifetime := 86400
  minCollateralPerPrincipalWad := e.ratio
  minInterestBps := if 10000 < e.interestBps then 10000 else e.interestBps

structure QuoteDraft where
  cash : String
  capacity : String
  minimum : String
  collateral : String
  interest : String
  days : String
  minutes : String

structure SetupTerms where
  limits : Limits
  quote : QuoteDraft

/-- What does not fit the contract is refused. -/
def checkRange (e : Entered) : Except SetupError Unit := do
  revertIf (MODULUS ≤ e.fullCollateral ∨ MODULUS ≤ e.fullInterest + e.budget) .exceedsAmountLimit
  revertIf (e.ratio = 0 ∨ MODULUS ≤ e.ratio) .collateralOutsideRange

def setupTerms (units : Units) (draft : SetupDraft) (decimals : ℕ) :
    Except SetupError SetupTerms := do
  let e ← readDraft units draft decimals
  checkRange e
  pure
    { limits := e.limits
      quote :=
        { cash := draft.budget
          capacity := draft.budget
          minimum := draft.minimum
          collateral := units.formatUnits e.fullCollateral decimals
          interest := units.formatUnits e.fullInterest 6
          days := draft.days
          minutes := "1440" } }

/-! ### Accepted drafts -/

/-- What the checks of a draft say of its amounts. -/
structure Valid (e : Entered) : Prop where
  minimum_pos : 0 < e.minimum
  minimum_le : e.minimum ≤ e.maximum
  maximum_le : e.maximum ≤ e.budget
  collateral_pos : 0 < e.collateral
  days : ∃ days, 0 < days ∧ days ≤ 365 ∧ e.duration = days * 86400
  collateral_fits : e.fullCollateral < MODULUS
  interest_fits : e.fullInterest + e.budget < MODULUS
  ratio_pos : 0 < e.ratio

theorem amount_pos {units : Units} {value : String} {decimals n : ℕ}
    (h : amount units value decimals = .ok n) : 0 < n := by
  simp only [amount, bind_eq_ok, revertIf_eq_ok, pure_eq_ok] at h
  obtain ⟨⟨⟩, -, ⟨⟩, -, _, -, ⟨⟩, range, rfl⟩ := h
  omega

theorem digitsValue_pos {digits : List Char} (h : isPositive digits = true) :
    0 < digitsValue digits := by
  have grows (rest : List Char) : ∀ n, 0 < n →
      0 < rest.foldl (fun n c => 10 * n + (c.toNat - 48)) n := by
    induction rest with
    | nil => exact fun n positive => positive
    | cons c rest ih =>
      exact fun n positive => ih _ (Nat.add_pos_left (Nat.mul_pos (by decide) positive) _)
  cases digits with
  | nil => cases h
  | cons first rest =>
    simp only [isPositive, Bool.and_eq_true, decide_eq_true_eq] at h
    have digit : 49 ≤ first.toNat := h.1.1
    have positive : 0 < 10 * 0 + (first.toNat - 48) := by omega
    exact grows rest _ positive

theorem setupTerms_valid {units : Units} {draft : SetupDraft} {decimals : ℕ} {terms : SetupTerms}
    (h : setupTerms units draft decimals = .ok terms) :
    ∃ e, readDraft units draft decimals = .ok e ∧ Valid e ∧ terms.limits = e.limits := by
  simp only [setupTerms, checkRange, bind_eq_ok, revertIf_eq_ok, pure_eq_ok, not_or, not_le] at h
  obtain ⟨e, entered, ⟨⟩, ⟨⟨⟩, ⟨collateral_fits, interest_fits⟩, ratio⟩, rfl⟩ := h
  refine ⟨e, entered, ?_, rfl⟩
  simp only [readDraft, bind_eq_ok, revertIf_eq_ok, pure_eq_ok, not_or, not_lt,
    Bool.not_eq_false] at entered
  obtain ⟨budget, -, minimum, minimum_read, maximum, -, collateral, collateral_read, interest, -,
    ⟨⟩, order, ⟨⟩, days, rfl⟩ := entered
  exact
    { minimum_pos := amount_pos minimum_read
      minimum_le := order.1
      maximum_le := order.2
      collateral_pos := amount_pos collateral_read
      days := ⟨_, digitsValue_pos days.1, days.2, rfl⟩
      collateral_fits := collateral_fits
      interest_fits := interest_fits
      ratio_pos := Nat.pos_of_ne_zero ratio.1 }

/-! ### Draws -/

variable {e : Entered} {q : Quote} {p : ℕ}

/-- The draw of a full-budget quote is at least the entered ratio, and at the maximum at most one
unit more. -/
structure NoLess (entered drawn maximum p : ℕ) : Prop where
  ratio : p * entered ≤ drawn * maximum
  whole : p = maximum → drawn = entered ∨ drawn = entered + 1

theorem le_scale_mul (e : Entered) (positive : 0 < e.maximum) (value : ℕ) :
    value * e.budget ≤ e.scale value * e.maximum := by
  have rest := Nat.div_add_mod (value * e.budget + e.maximum - 1) e.maximum
  have small := Nat.mod_lt (value * e.budget + e.maximum - 1) positive
  rw [Entered.scale, Nat.mul_comm (_ / _)]
  omega

theorem scale_mul_lt (e : Entered) (positive : 0 < e.maximum) (value : ℕ) :
    e.scale value * e.maximum < value * e.budget + e.maximum := by
  have below := Nat.div_mul_le_self (value * e.budget + e.maximum - 1) e.maximum
  rw [Entered.scale]
  omega

theorem noLess_of_scale (valid : Valid e) (value : ℕ) (p : ℕ) :
    NoLess value (mulDivUp p (e.scale value) e.budget) e.maximum p := by
  have maximum_pos : 0 < e.maximum := valid.minimum_pos.trans_le valid.minimum_le
  have budget_pos : 0 < e.budget := maximum_pos.trans_le valid.maximum_le
  have ratio : p * value ≤ mulDivUp p (e.scale value) e.budget * e.maximum := by
    have drawn := le_mulDivUp_mul (a := p) (b := e.scale value) budget_pos
    have scaled := le_scale_mul e maximum_pos value
    refine Nat.le_of_mul_le_mul_right ?_ budget_pos
    calc p * value * e.budget = p * (value * e.budget) := Nat.mul_assoc ..
      _ ≤ p * (e.scale value * e.maximum) := Nat.mul_le_mul_left p scaled
      _ = p * e.scale value * e.maximum := (Nat.mul_assoc ..).symm
      _ ≤ mulDivUp p (e.scale value) e.budget * e.budget * e.maximum :=
        Nat.mul_le_mul_right _ drawn
      _ = mulDivUp p (e.scale value) e.budget * e.maximum * e.budget := Nat.mul_right_comm ..
  refine ⟨ratio, ?_⟩
  rintro rfl
  have least : value ≤ mulDivUp e.maximum (e.scale value) e.budget := by
    rw [Nat.mul_comm] at ratio
    exact Nat.le_of_mul_le_mul_right ratio maximum_pos
  have most : mulDivUp e.maximum (e.scale value) e.budget ≤ value + 1 := by
    have scaled := scale_mul_lt e maximum_pos value
    have room := valid.maximum_le
    rw [mulDivUp_le_iff budget_pos, Nat.mul_comm e.maximum, Nat.add_mul, Nat.one_mul]
    omega
  omega

/-- A floor of the entered ratio, taken in parts of `unit`, is met by what is drawn. -/
theorem policy_le {entered drawn maximum unit : ℕ} (maximum_pos : 0 < maximum) (unit_pos : 0 < unit)
    (h : NoLess entered drawn maximum p) {part : ℕ} (le : part ≤ entered * unit / maximum) :
    mulDivUp p part unit ≤ drawn := by
  rw [mulDivUp_le_iff unit_pos]
  refine Nat.le_of_mul_le_mul_right ?_ maximum_pos
  have floor := (Nat.le_div_iff_mul_le maximum_pos).mp le
  calc p * part * maximum = p * (part * maximum) := Nat.mul_assoc ..
    _ ≤ p * (entered * unit) := Nat.mul_le_mul_left p floor
    _ = p * entered * unit := (Nat.mul_assoc ..).symm
    _ ≤ drawn * maximum * unit := Nat.mul_le_mul_right _ h.ratio
    _ = drawn * unit * maximum := Nat.mul_right_comm ..

/-- A quote of the generated capacity, collateral and interest. -/
structure Generated (e : Entered) (q : Quote) : Prop where
  capacity : q.capacity = e.budget
  minDraw : q.minDraw = e.minimum
  collateral : q.collateralForCapacity = e.fullCollateral
  interest : q.interestForCapacity = e.fullInterest
  duration : q.duration = e.duration

/-- The quote is of the current epoch, for the sender, and in force for at most a day. -/
structure InForce (sender : Address) (q : Quote) (w : World) : Prop where
  epoch : q.epoch = w.facility.epoch
  sender_ne : sender ≠ w.cfg.lender
  borrower : q.borrower = 0 ∨ q.borrower = sender
  borrower_ne : q.borrower ≠ w.cfg.self
  started : q.validAfter ≤ w.now
  open_ : w.now < q.expiresAt
  lifetime : q.expiresAt - q.validAfter ≤ 86400
  bounded : q.expiresAt + q.duration + GRACE_PERIOD ≤ MAX_TIMESTAMP

theorem quoteTerms_generated (valid : Valid e) (generated : Generated e q) (low : e.minimum ≤ p)
    (high : p ≤ e.maximum) :
    quoteTerms q p =
      .ok (mulDivUp p e.fullCollateral e.budget, mulDivUp p e.fullInterest e.budget) := by
  have positive := valid.minimum_pos
  have fits := valid.maximum_le
  simp only [quoteTerms, bind_eq_ok, revertIf_eq_ok, pure_eq_ok, generated.capacity,
    generated.collateral, generated.interest]
  exact ⟨⟨⟩, by omega, trivial⟩

theorem checkQuote_generated {sender : Address} {w : World} (valid : Valid e)
    (generated : Generated e q) (limits : w.facility.limits = e.limits) (inForce : InForce sender q w)
    (low : e.minimum ≤ p) (high : p ≤ e.maximum) :
    checkQuote sender q p w = quoteTerms q p := by
  have terms := quoteTerms_generated valid generated low high
  have positive := valid.minimum_pos
  have maximum_pos : 0 < e.maximum := positive.trans_le valid.minimum_le
  have fits := valid.maximum_le
  have collateral := noLess_of_scale valid e.collateral p
  have interest := noLess_of_scale valid e.interest p
  have collateral_met : mulDivUp p e.ratio (10 ^ 18) ≤ mulDivUp p e.fullCollateral e.budget :=
    policy_le maximum_pos (by decide) collateral le_rfl
  have interest_met : mulDivUp p e.limits.minInterestBps 10000 ≤
      mulDivUp p e.fullInterest e.budget := by
    refine policy_le maximum_pos (by decide) interest ?_
    simp only [Entered.limits]
    split_ifs with above
    · exact above.le
    · exact le_rfl
  have full_pos : 0 < e.fullCollateral := by
    have scaled := le_scale_mul e maximum_pos e.collateral
    have some_ := Nat.mul_pos valid.collateral_pos (maximum_pos.trans_le fits)
    exact Nat.pos_of_mul_pos_right (some_.trans_le scaled)
  obtain ⟨days, -, most, duration⟩ := valid.days
  have range := valid.interest_fits
  have bounded := inForce.bounded
  have lifetime := inForce.lifetime
  have started := inForce.started
  have open_ := inForce.open_
  rw [terms]
  simp only [checkQuote, bind_eq_ok, revertIf_eq_ok, pure_eq_ok, terms, limits]
  refine ⟨⟨⟩, ?_, _, rfl, ⟨⟩, ?_, rfl⟩
  · simp only [not_or, generated.capacity, generated.minDraw, generated.collateral,
      generated.interest, generated.duration, Entered.limits] at bounded ⊢
    have addressed : ¬(q.borrower ≠ 0 ∧ q.borrower ≠ sender) := fun other =>
      inForce.borrower.elim other.1 other.2
    refine ⟨fun other => other inForce.epoch, inForce.sender_ne, addressed, inForce.borrower_ne, ?_⟩
    unfold GRACE_PERIOD MAX_TIMESTAMP at *
    omega
  · exact not_or.mpr ⟨not_lt.mpr collateral_met, not_lt.mpr interest_met⟩

/-- The constructor of the facility accepts the generated policy. -/
theorem validateLimits_generated (valid : Valid e) : validateLimits e.limits = .ok ⟨⟩ := by
  have minimum_pos := valid.minimum_pos
  have minimum_le := valid.minimum_le
  have maximum_le := valid.maximum_le
  have ratio_pos := valid.ratio_pos
  obtain ⟨days, some_, most, duration⟩ := valid.days
  have bps : e.limits.minInterestBps ≤ 10000 := by
    simp only [Entered.limits]
    split_ifs <;> omega
  rw [validateLimits, revertIf_eq_ok]
  simp only [Entered.limits] at bps ⊢
  unfold GRACE_PERIOD MAX_TIMESTAMP
  omega

/-- Whatever the lender has entered, a draw of the generated quote meets the generated policy and
is at the entered ratio or above it. -/
theorem setup_never_undercuts {units : Units} {draft : SetupDraft} {decimals : ℕ}
    {terms : SetupTerms} (h : setupTerms units draft decimals = .ok terms) :
    ∃ e, readDraft units draft decimals = .ok e ∧ terms.limits = e.limits ∧
      terms.quote.capacity = draft.budget ∧
      terms.quote.collateral = units.formatUnits e.fullCollateral decimals ∧
      terms.quote.interest = units.formatUnits e.fullInterest 6 ∧
      validateLimits terms.limits = .ok ⟨⟩ ∧
      ∀ q p, Generated e q → e.minimum ≤ p → p ≤ e.maximum →
        ∃ collateral interest, quoteTerms q p = .ok (collateral, interest) ∧
          (∀ sender w, w.facility.limits = terms.limits → InForce sender q w →
            checkQuote sender q p w = .ok (collateral, interest)) ∧
          NoLess e.collateral collateral e.maximum p ∧ NoLess e.interest interest e.maximum p := by
  obtain ⟨e, entered, valid, limits⟩ := setupTerms_valid h
  have printed : terms.quote.capacity = draft.budget ∧
      terms.quote.collateral = units.formatUnits e.fullCollateral decimals ∧
      terms.quote.interest = units.formatUnits e.fullInterest 6 := by
    simp only [setupTerms, bind_eq_ok, pure_eq_ok, entered, Except.ok.injEq] at h
    obtain ⟨_, rfl, ⟨⟩, -, rfl⟩ := h
    exact ⟨rfl, rfl, rfl⟩
  refine ⟨e, entered, limits, printed.1, printed.2.1, printed.2.2,
    limits ▸ validateLimits_generated valid, fun q p generated low high => ?_⟩
  have drawn := quoteTerms_generated valid generated low high
  refine ⟨_, _, drawn, fun sender w policy inForce => ?_, noLess_of_scale valid e.collateral p,
    noLess_of_scale valid e.interest p⟩
  rw [checkQuote_generated valid generated (policy.trans limits) inForce low high, drawn]

/-! A budget of 1000 USDG, in loans of 100 to 300 USDG at 7 tokens and 2 USDG for 300. -/

def sampleUnits : Units where
  parseUnits := fun value decimals =>
    match value.toList.splitOn '.' with
    | [whole] => some (digitsValue whole * 10 ^ decimals)
    | [whole, fraction] =>
      some (digitsValue (whole ++ fraction) * 10 ^ (decimals - fraction.length))
    | _ => none
  formatUnits := fun value decimals =>
    let display := Nat.toDigits 10 value
    let padded := List.replicate (decimals - display.length) '0' ++ display
    let whole := padded.take (padded.length - decimals)
    let fraction := ((padded.drop (padded.length - decimals)).reverse.dropWhile (· = '0')).reverse
    String.ofList ((if whole = [] then ['0'] else whole) ++
      if fraction = [] then [] else '.' :: fraction)

def sampleDraft : SetupDraft := ⟨"1000", "100", "300", "7", "2", "30"⟩

def noTerms : SetupTerms := ⟨⟨0, 0, 0, 0, 0, 0, 0, 0⟩, ⟨"", "", "", "", "", "", ""⟩⟩

theorem sample_never_undercuts : ∃ terms e,
    setupTerms sampleUnits sampleDraft 18 = .ok terms ∧
      readDraft sampleUnits sampleDraft 18 = .ok e ∧ terms.limits = e.limits := by
  have accepted : setupTerms sampleUnits sampleDraft 18 = .ok _ :=
    eq_ok_reached noTerms (by decide +kernel)
  obtain ⟨e, entered, limits, -⟩ := setup_never_undercuts accepted
  exact ⟨_, e, accepted, entered, limits⟩

end Turret.StandingOffers
