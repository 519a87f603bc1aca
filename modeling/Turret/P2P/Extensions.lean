import Turret.Library.Amendments
import Turret.P2P.FacilityCalls
import Turret.P2P.MarketCalls

/-! Whose consent moves a deadline, in both markets: a loan of either is a deal
whose deadline its parties amend. A settlement empties the slot of a proposal in one
market and leaves it behind in the other, where it is of no more use. -/

namespace Turret.LendingV3

open Execution Function Amendments

def vacant : Proposal Address := ⟨0, 0, 0, 0, 0⟩

def Status.phase : Status → Phase
  | .active => .active
  | .repaid | .defaulted => .settled
  | .none | .open_ | .cancelled | .expired => .unopened

def dealOf (o : Offer) (nonce : ℕ) (p : ExtensionProposal) : Deal Address :=
  ⟨o.status.phase, o.lender, o.borrower, o.dueAt + GRACE_PERIOD, nonce,
    ⟨p.proposer, p.nonce, p.oldDeadline, p.newDeadline, p.expiresAt⟩⟩

/-- The offer `id` as a deal about its repayment deadline. -/
def deal (id : ℕ) (w : World) : Deal Address :=
  dealOf (w.market.offers id) (w.market.extensionNonce id) (w.market.extensionProposals id)

def Op.act (id : ℕ) : Op → Option (Act Address)
  | .proposeExtension sender other newDeadline expiresAt =>
    if other = id then some (.propose sender newDeadline expiresAt) else none
  | .cancelExtension _ other _ => if other = id then some .cancel else none
  | .acceptExtension sender other nonce oldDeadline newDeadline expiresAt =>
    if other = id then some (.accept sender nonce oldDeadline newDeadline expiresAt) else none
  | .repay _ other | .repayWithCredits _ other _ _ _ | .claimDefault other =>
    if other = id then some .settle else none
  | _ => none

variable {w w' : World} {op : Op} {id other now : ℕ} {o : Offer} {n : ℕ} {p : ExtensionProposal}

theorem phase_eq_active {s : Status} : s.phase = .active ↔ s = .active := by
  cases s <;> simp [Status.phase]

theorem rest_step (offers : w'.market.offers = w.market.offers)
    (nonce : w'.market.extensionNonce = w.market.extensionNonce)
    (proposals : w'.market.extensionProposals = w.market.extensionProposals) :
    (deal id w).Step vacant now none (deal id w') := by
  have same : deal id w' = deal id w := by simp only [deal, offers, nonce, proposals]
  exact same ▸ .rest

/-- A call that rewrites an offer that is not active yet. -/
theorem open_step (before : (w.market.offers other).status.phase = .unopened)
    (offers : w'.market.offers = update w.market.offers other o)
    (nonce : w'.market.extensionNonce = w.market.extensionNonce)
    (proposals : w'.market.extensionProposals = w.market.extensionProposals) :
    (deal id w).Step vacant now none (deal id w') := by
  by_cases here : id = other
  · subst here
    refine .opens _ before ?_ ?_
    · simp only [deal, dealOf, nonce]
    · simp only [deal, dealOf, proposals]
  · have same : deal id w' = deal id w := by
      simp only [deal, offers, update_of_ne here, nonce, proposals]
    exact same ▸ .rest

/-- A call about one loan moves the deal of that loan, and no other. -/
theorem touch_step {a : Act Address} (offers : w'.market.offers = update w.market.offers other o)
    (nonce : w'.market.extensionNonce = update w.market.extensionNonce other n)
    (proposals : w'.market.extensionProposals = update w.market.extensionProposals other p)
    (step : (deal other w).Step vacant now (some a) (dealOf o n p)) :
    (deal id w).Step vacant now (if other = id then some a else none) (deal id w') := by
  by_cases here : other = id
  · subst here
    have after : deal other w' = dealOf o n p := by
      simp only [deal, offers, nonce, proposals, update_self]
    rwa [if_pos rfl, after]
  · have same : deal id w' = deal id w := by
      simp only [deal, offers, nonce, proposals, update_of_ne (Ne.symm here)]
    rw [if_neg here, same]
    exact .rest

/-- Every call moves every deal of the market. -/
theorem Accepted.deal_step (h : Accepted w op w') (sound : w.market.loans.Sound) (id : ℕ) :
    (deal id w).Step vacant w.now (op.act id) (deal id w') := by
  have offers_kept := fun other => (update_eq_self other w.market.offers).symm
  have nonce_kept := fun other => (update_eq_self other w.market.extensionNonce).symm
  cases h with
  | createOffer sender vault borrower principal collateralAmount interest duration expiresAt =>
    obtain ⟨offers, -, -, -, -, -, -, -, -, proposals, nonce⟩ := created_frame sender vault borrower
      principal collateralAmount interest duration expiresAt w
    have fresh : (w.market.offers w.market.nextOfferId).status = .none :=
      sound.unused w.market.nextOfferId le_rfl
    exact open_step (by rw [fresh]; rfl) offers nonce proposals
  | acceptOffer sender other c t was => exact open_step (by rw [was]; rfl) rfl rfl rfl
  | cancelOffer other was => exact open_step (by rw [was]; rfl) rfl rfl rfl
  | expireOffer other was => exact open_step (by rw [was]; rfl) rfl rfl rfl
  | repay sender other t active inTime pulled ends =>
    exact touch_step rfl (nonce_kept other) rfl
      (.settle vacant (phase_eq_active.mpr ends.was) (.inr rfl))
  | repayWithCredits sender other sourceIds sourceAmounts walletAmount mid paid active was inTime
      sourced spent pulled arrived ends =>
    obtain ⟨-, -, _, _, _, market⟩ := spendSources_frame spent
    have frame := (pullWallet_frame pulled).2.2.trans market
    refine touch_step (o := { w.market.offers other with status := .repaid }) ?_
      (Eq.trans ?_ (nonce_kept other)) (p := noProposal) ?_
      (.settle vacant (phase_eq_active.mpr was) (.inr rfl))
    · change update paid.market.offers other { paid.market.offers other with status := _ } = _
      rw [frame]
    · change paid.market.extensionNonce = _
      rw [frame]
    · change update paid.market.extensionProposals other noProposal = _
      rw [frame]
  | claimDefault other active late ends =>
    exact touch_step rfl (nonce_kept other) rfl
      (.settle vacant (phase_eq_active.mpr ends.was) (.inr rfl))
  | proposeExtension sender other newDeadline expiresAt active party later =>
    exact touch_step (offers_kept other) rfl rfl
      (.propose sender newDeadline expiresAt (phase_eq_active.mpr active) party.symm later)
  | acceptExtension sender other active party apart proposed inTime current graced =>
    have step : (deal other w).Step vacant w.now _ _ :=
      .accept sender (phase_eq_active.mpr active) party.symm apart proposed inTime current
    refine touch_step rfl (nonce_kept other) rfl ?_
    simp only [dealOf, Nat.sub_add_cancel graced]
    exact step
  | cancelExtension other => exact touch_step (offers_kept other) (nonce_kept other) rfl .cancel
  | _ => exact rest_step rfl rfl rfl

/-- The clock admits exactly one of a repayment and a default of the loan. -/
def ClockSplits (id : ℕ) (w : World) : Prop :=
  (repayable id w = .ok (w.market.offers id) ∧ claimDefault id w = .error .tooEarly) ∨
    (repayable id w = .error .repaymentDeadlinePassed ∧ claimDefault id w ≠ .error .tooEarly)

theorem clockSplits (active : (w.market.offers id).status = .active) : ClockSplits id w := by
  by_cases inTime : w.now ≤ (w.market.offers id).dueAt + GRACE_PERIOD
  · left
    constructor
    · simp [repayable, revertIf, active, inTime, pure, Except.pure]
    · simp [claimDefault, revertIf, active, inTime]
  · right
    have late := Nat.lt_of_not_le inTime
    constructor
    · simp [repayable, revertIf, active, late]
    · simp [claimDefault, bind_ne_error, released, settled, removeActive, active, late]

theorem consented {start : World} {ops : List Op} (fresh : Deployed start)
    (run : Run (accepts exec) start ops w) (id : ℕ) :
    Consented (accepts exec) (deal id) (Op.act id) World.now start ops w := by
  obtain ⟨guardian, -, -, empty⟩ := fresh
  have sound : start.market.loans.Sound := empty ▸ deployed_sound guardian
  have keeps : ∀ v i u, v.market.loans.Sound → accepts exec v i u → u.market.loans.Sound :=
    fun _ _ _ sound done => (exec_step done).sound sound
  have moves : ∀ v i u, v.market.loans.Sound → accepts exec v i u →
      (deal id v).Step vacant v.now (i.act id) (deal id u) :=
    fun _ _ _ sound done => (exec_accepted done).deal_step sound id
  refine consented_of_run keeps moves sound ?_ ?_ run
  · rw [deal, empty]
    rfl
  · rw [deal, empty]
    rfl

end Turret.LendingV3

namespace Turret.LenderFacility

open Execution Function Amendments

def vacant : Proposal Address := ⟨0, 0, 0, 0, 0⟩

def Status.phase : Status → Phase
  | .none => .unopened
  | .active => .active
  | .repaid | .defaulted => .settled

def dealOf (lender : Address) (l : Loan) (nonce : ℕ) (p : Extension) : Deal Address :=
  ⟨l.status.phase, lender, l.borrower, l.dueAt + GRACE_PERIOD, nonce,
    ⟨p.proposer, p.nonce, p.oldDeadline, p.newDeadline, p.expiresAt⟩⟩

/-- The loan `id` as a deal about its repayment deadline. -/
def deal (id : ℕ) (w : World) : Deal Address :=
  dealOf w.cfg.lender (w.loan id) (w.facility.extensionNonce id) (w.facility.extensions id)

def Op.act (id : ℕ) : Op → Option (Act Address)
  | .proposeExtension sender other newDeadline expiresAt =>
    if other = id then some (.propose sender newDeadline expiresAt) else none
  | .cancelExtension _ other => if other = id then some .cancel else none
  | .acceptExtension sender other nonce oldDeadline newDeadline expiresAt =>
    if other = id then some (.accept sender nonce oldDeadline newDeadline expiresAt) else none
  | .repay _ other | .claimDefault other => if other = id then some .settle else none
  | _ => none

variable {w w' : World} {op : Op} {id other now : ℕ} {l : Loan} {n : ℕ} {p : Extension}

theorem phase_eq_active {s : Status} : s.phase = .active ↔ s = .active := by
  cases s <;> simp [Status.phase]

/-- A call that leaves the terms of the loans, though it may move their credits. -/
theorem rest_step (cfg : w'.cfg = w.cfg)
    (loans : ∀ id, (w'.loan id).status = (w.loan id).status ∧
      (w'.loan id).borrower = (w.loan id).borrower ∧ (w'.loan id).dueAt = (w.loan id).dueAt)
    (nonce : w'.facility.extensionNonce = w.facility.extensionNonce)
    (extensions : w'.facility.extensions = w.facility.extensions) :
    (deal id w).Step vacant now none (deal id w') := by
  obtain ⟨status, borrower, dueAt⟩ := loans id
  have same : deal id w' = deal id w := by
    simp only [deal, dealOf, cfg, status, borrower, dueAt, nonce, extensions]
  exact same ▸ .rest

/-- A call that changes the credits of one loan. -/
theorem credits_step (cfg : w'.cfg = w.cfg)
    (loans : w'.facility.loans = update w.facility.loans other l)
    (status : l.status = (w.loan other).status) (borrower : l.borrower = (w.loan other).borrower)
    (dueAt : l.dueAt = (w.loan other).dueAt)
    (nonce : w'.facility.extensionNonce = w.facility.extensionNonce)
    (extensions : w'.facility.extensions = w.facility.extensions) :
    (deal id w).Step vacant now none (deal id w') := by
  refine rest_step cfg (fun id => ?_) nonce extensions
  by_cases here : id = other
  · subst here
    simp only [World.loan, loans, update_self]
    exact ⟨status, borrower, dueAt⟩
  · simp only [World.loan, loans, update_of_ne here, and_self]

/-- A call about one loan moves the deal of that loan, and no other. -/
theorem touch_step {a : Act Address} (cfg : w'.cfg = w.cfg)
    (loans : w'.facility.loans = update w.facility.loans other l)
    (nonce : w'.facility.extensionNonce = update w.facility.extensionNonce other n)
    (extensions : w'.facility.extensions = update w.facility.extensions other p)
    (step : (deal other w).Step vacant now (some a) (dealOf w.cfg.lender l n p)) :
    (deal id w).Step vacant now (if other = id then some a else none) (deal id w') := by
  by_cases here : other = id
  · subst here
    have after : deal other w' = dealOf w.cfg.lender l n p := by
      simp only [deal, World.loan, cfg, loans, nonce, extensions, update_self]
    rwa [if_pos rfl, after]
  · have same : deal id w' = deal id w := by
      simp only [deal, World.loan, cfg, loans, nonce, extensions, update_of_ne (Ne.symm here)]
    rw [if_neg here, same]
    exact .rest

/-- Every call moves every deal of the facility. -/
theorem Accepted.deal_step (h : Accepted w op w') (sound : w.facility.book.Sound) (id : ℕ) :
    (deal id w).Step vacant w.now (op.act id) (deal id w') := by
  have loans_kept := fun other => (update_eq_self other w.facility.loans).symm
  have nonce_kept := fun other => (update_eq_self other w.facility.extensionNonce).symm
  have extensions_kept := fun other => (update_eq_self other w.facility.extensions).symm
  cases h with
  | draw sender vault quote signature principal maxCollateral maxInterest minRemainingCapacity
      collateral interest c t =>
    have fresh : (w.loan w.facility.nextLoanId).status = .none :=
      sound.unused w.facility.nextLoanId le_rfl
    by_cases here : id = w.facility.nextLoanId
    · subst here
      refine .opens _ ?_ rfl rfl
      simp only [deal, dealOf, fresh, Status.phase]
    · have same : deal id { w with
          loanToken := t
          collateralToken := c
          facility := drawn sender vault quote principal collateral interest w } = deal id w := by
        simp only [deal, World.loan, drawn, setLoan, setUse, update_of_ne here]
      rw [same]
      exact .rest
  | repay sender other t active inTime covered pulled =>
    exact touch_step rfl rfl (nonce_kept other) (extensions_kept other)
      (.settle _ (phase_eq_active.mpr active) (.inl rfl))
  | claimDefault other active late covered =>
    exact touch_step rfl rfl (nonce_kept other) (extensions_kept other)
      (.settle _ (phase_eq_active.mpr active) (.inl rfl))
  | recycleRepayment | withdrawRepayment | collectFee | withdrawCollateral | writeOffRepayment
  | writeOffCollateral | acknowledgeDefault => exact credits_step rfl rfl rfl rfl rfl rfl rfl
  | proposeExtension sender other newDeadline expiresAt party active later =>
    exact touch_step rfl (loans_kept other) rfl rfl
      (.propose sender newDeadline expiresAt (phase_eq_active.mpr active) party later)
  | cancelExtension other =>
    exact touch_step rfl (loans_kept other) (nonce_kept other) rfl .cancel
  | acceptExtension sender other party apart active proposed inTime future current graced =>
    have step : (deal other w).Step vacant w.now _ _ :=
      .accept sender (phase_eq_active.mpr active) party apart proposed inTime current
    refine touch_step rfl rfl (nonce_kept other) rfl ?_
    simp only [dealOf, Nat.sub_add_cancel graced]
    exact step
  | _ => exact rest_step rfl (fun _ => ⟨rfl, rfl, rfl⟩) rfl rfl

/-- The clock admits exactly one of a repayment and a default of the loan. -/
def ClockSplits (id : ℕ) (w : World) : Prop :=
  ((∀ sender, repay sender id w ≠ .error .deadlinePassed) ∧
      claimDefault id w = .error .tooEarly) ∨
    ((∀ sender, repay sender id w = .error .deadlinePassed) ∧
      claimDefault id w ≠ .error .tooEarly)

theorem onLoanToken_ne_error {e : Error}
    {f : TokenLedger Address → Except P2PVault.TransferError (TokenLedger Address)}
    (other : ∀ cause, .transfer cause ≠ e) : onLoanToken f w ≠ .error e := by
  simp [onLoanToken, other]

theorem clockSplits (active : (w.loan id).status = .active) : ClockSplits id w := by
  by_cases inTime : w.now ≤ (w.loan id).dueAt + GRACE_PERIOD
  · left
    constructor
    · intro sender
      simp [repay, bind_ne_error, active, inTime, Uint256.checkedAdd_eq_error, onLoanToken_ne_error]
    · simp [claimDefault, revertIf, active, inTime]
  · right
    have late := Nat.lt_of_not_le inTime
    constructor
    · intro sender
      simp [repay, revertIf, active, late]
    · simp [claimDefault, bind_ne_error, active, late]

theorem consented {start : World} {ops : List Op} (fresh : Deployed start)
    (run : Run (accepts exec) start ops w) (id : ℕ) :
    Consented (accepts exec) (deal id) (Op.act id) World.now start ops w := by
  obtain ⟨limits, -, empty⟩ := fresh
  have sound : start.facility.book.Sound := empty ▸ deployed_sound limits
  have keeps : ∀ v i u, v.facility.book.Sound → accepts exec v i u → u.facility.book.Sound :=
    fun _ _ _ sound done => (exec_step done).sound sound
  have moves : ∀ v i u, v.facility.book.Sound → accepts exec v i u →
      (deal id v).Step vacant v.now (i.act id) (deal id u) :=
    fun _ _ _ sound done => (exec_accepted done).deal_step sound id
  refine consented_of_run keeps moves sound ?_ ?_ run
  · rw [deal, World.loan, empty]
    rfl
  · rw [deal, World.loan, empty]
    rfl

end Turret.LenderFacility

namespace Turret

open Execution Amendments

/-- In both markets, along every run: the deadline of a loan moves by consent of its parties only,
and the clock admits exactly one of the two ends of an active loan. -/
theorem extension_consent :
    (∀ start ops w, LendingV3.Deployed start → Run (accepts LendingV3.exec) start ops w → ∀ id,
      Consented (accepts LendingV3.exec) (LendingV3.deal id) (LendingV3.Op.act id)
        LendingV3.World.now start ops w ∧
      ((w.market.offers id).status = .active → LendingV3.ClockSplits id w)) ∧
    ∀ start ops w, LenderFacility.Deployed start → Run (accepts LenderFacility.exec) start ops w →
      ∀ id, Consented (accepts LenderFacility.exec) (LenderFacility.deal id)
        (LenderFacility.Op.act id) LenderFacility.World.now start ops w ∧
      ((w.loan id).status = .active → LenderFacility.ClockSplits id w) :=
  ⟨fun _ _ _ fresh run id => ⟨LendingV3.consented fresh run id, LendingV3.clockSplits⟩,
    fun _ _ _ fresh run id => ⟨LenderFacility.consented fresh run id, LenderFacility.clockSplits⟩⟩

/-! A loan of each market whose deadline is put off by a day, once. -/

def extendedMarketStart : LendingV3.World where
  self := 100
  now := 1000
  token
    | .loanToken => (TokenLedger.empty.mint 2 (10 ^ 9)).approve 2 100 (10 ^ 9)
    | .collateralToken => (TokenLedger.empty.mint 3 (10 ^ 18)).approve 3 100 (10 ^ 18)
    | .other => .empty
  market := LendingV3.deployed 1

def extendedMarketOps : List LendingV3.Op :=
  [.createOffer 2 11 0 (10 ^ 9) (10 ^ 18) (10 ^ 7) 86400 5000, .acceptOffer 3 1,
    .proposeExtension 3 1 260200 2000, .acceptExtension 2 1 1 173800 260200 2000]

def extendedMarket : LendingV3.World :=
  reached extendedMarketStart (execAll LendingV3.exec extendedMarketOps extendedMarketStart)

def extendedFacilityStart : LenderFacility.World where
  cfg := LenderFacility.sampleConfig fun _ => 9
  now := 1000
  loanToken := (TokenLedger.empty.mint 2 (10 ^ 9)).approve 2 100 (10 ^ 9)
  collateralToken := (TokenLedger.empty.mint 3 (10 ^ 9)).approve 3 100 (10 ^ 9)
  isValidSignatureNow signer _ _ := signer == 2
  facility := LenderFacility.deployed ⟨10 ^ 9, 1, 10 ^ 6, 86400, 86400, 5000, 1, 0⟩

def extendedQuote : LenderFacility.Quote := { LenderFacility.sampleQuote with borrower := 3 }

def extendedFacilityOps : List LenderFacility.Op :=
  [.deposit 2 (10 ^ 6), .draw 3 11 extendedQuote [] 333 10 10 0,
    .proposeExtension 2 1 260200 2000, .acceptExtension 3 1 1 173800 260200 2000]

def extendedFacility : LenderFacility.World :=
  reached extendedFacilityStart
    (execAll LenderFacility.exec extendedFacilityOps extendedFacilityStart)

theorem extended_consent :
    (Consented (accepts LendingV3.exec) (LendingV3.deal 1) (LendingV3.Op.act 1)
        LendingV3.World.now extendedMarketStart extendedMarketOps extendedMarket ∧
      (LendingV3.deal 1 extendedMarket).deadline = 260200) ∧
    Consented (accepts LenderFacility.exec) (LenderFacility.deal 1) (LenderFacility.Op.act 1)
        LenderFacility.World.now extendedFacilityStart extendedFacilityOps extendedFacility ∧
      (LenderFacility.deal 1 extendedFacility).deadline = 260200 := by
  have market : Run (accepts LendingV3.exec) extendedMarketStart extendedMarketOps extendedMarket :=
    run_of_execAll (eq_ok_reached _ (by decide +kernel))
  have facility : Run (accepts LenderFacility.exec) extendedFacilityStart extendedFacilityOps
      extendedFacility := run_of_execAll (eq_ok_reached _ (by decide +kernel))
  exact ⟨⟨(extension_consent.1 _ _ _ ⟨1, by decide, by decide, rfl⟩ market 1).1, by decide +kernel⟩,
    (extension_consent.2 _ _ _ ⟨_, by decide, rfl⟩ facility 1).1, by decide +kernel⟩

end Turret
