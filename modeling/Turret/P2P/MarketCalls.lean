import Turret.P2P.ActiveSets

/-! What a call of the market that goes through has checked, and all that it
writes: said once for every call, as for the facility. -/

namespace Turret.LendingV3

open Execution Function

variable {w w' : World}

/-! ### What is written -/

/-- The market with a new offer in it. -/
def created (sender vault borrower : Address)
    (principal collateralAmount interest duration expiresAt : ℕ) (w : World) : Market :=
  let m := w.market
  let id := m.nextOfferId
  let m :=
    { m with
      nextOfferId := id + 1
      offers := update m.offers id ⟨sender, borrower, principal, collateralAmount, interest,
        duration, expiresAt, 0, .open_⟩
      offerCreatedAt := update m.offerCreatedAt id (w.now % 2 ^ 64)
      vaults := update m.vaults id vault }
  let m := listed id borrower (remembered sender id m)
  { m with
    committedPrincipal := m.committedPrincipal + principal
    reservedPrincipal := m.reservedPrincipal + principal }

/-- Listing an offer changes neither the offers nor what is said about them. -/
theorem created_frame (sender vault borrower : Address)
    (principal collateralAmount interest duration expiresAt : ℕ) (w : World) :
    let m := created sender vault borrower principal collateralAmount interest duration expiresAt w
    m.offers = update w.market.offers w.market.nextOfferId ⟨sender, borrower, principal,
      collateralAmount, interest, duration, expiresAt, 0, .open_⟩ ∧
    m.vaults = update w.market.vaults w.market.nextOfferId vault ∧
    m.nextOfferId = w.market.nextOfferId + 1 ∧
    m.committedPrincipal = w.market.committedPrincipal + principal ∧
    m.reservedPrincipal = w.market.reservedPrincipal + principal ∧
    m.lockedCollateral = w.market.lockedCollateral ∧
    m.loanCredits = w.market.loanCredits ∧ m.credits = w.market.credits ∧
    m.totalCredits = w.market.totalCredits ∧
    m.extensionProposals = w.market.extensionProposals ∧
    m.extensionNonce = w.market.extensionNonce := by
  simp only [created, listed]
  split_ifs <;> exact ⟨rfl, rfl, rfl, rfl, rfl, rfl, rfl, rfl, rfl, rfl, rfl⟩

/-- The market with the offer taken by `sender`. -/
def takenBy (sender : Address) (id : ℕ) (w : World) : Market :=
  let offer := w.market.offers id
  let m := remembered sender id (setOffer id
    { offer with borrower := sender, status := .active, dueAt := w.now + offer.duration } w.market)
  let m :=
    { m with
      reservedPrincipal := w.market.reservedPrincipal - offer.principal
      lockedCollateral := m.lockedCollateral + offer.collateralAmount }
  addActive sender id (addActive offer.lender id m)

/-- The market with the offer closed, and its principal credited to its lender. -/
def closedOffer (id : ℕ) (status : Status) (m : Market) : Market :=
  let offer := m.offers id
  credit id .loanToken offer.lender offer.principal
    { setOffer id { offer with status } m with
      committedPrincipal := m.committedPrincipal - offer.principal
      reservedPrincipal := m.reservedPrincipal - offer.principal }

/-- The loan has ended: nothing of it is committed or locked, and its parties' sets are `active`. -/
def endedLoan (id : ℕ) (status : Status) (active : Address → SwapPop ℕ) (m : Market) : Market :=
  let offer := m.offers id
  let m :=
    { setOffer id { offer with status } m with
      committedPrincipal := m.committedPrincipal - offer.principal
      lockedCollateral := m.lockedCollateral - offer.collateralAmount }
  let m := bumpRevision offer.borrower (bumpRevision offer.lender { m with activeLoanIds := active })
  { m with extensionProposals := update m.extensionProposals id noProposal }

/-- The sets of the two parties of `offer` have given it up. -/
def Delisted (id : ℕ) (offer : Offer) (sets active : Address → SwapPop ℕ) : Prop :=
  ∃ first second, (sets offer.lender).erase id = some first ∧
    (update sets offer.lender first offer.borrower).erase id = some second ∧
    active = update (update sets offer.lender first) offer.borrower second

/-- What is left of the credits once `sender` has spent `amount` of its own. -/
def debited (sender : Address) (id : ℕ) (token : Token) (amount : ℕ) (m : Market) : Market :=
  { m with
    loanCredits := update m.loanCredits id
      (update (m.loanCredits id) token (m.loanCredits id token - amount))
    credits := update m.credits token
      (update (m.credits token) sender (m.credits token sender - amount))
    totalCredits := update m.totalCredits token (m.totalCredits token - amount) }

/-- The three ledgers of credits cover a debit. -/
structure Covers (sender : Address) (id : ℕ) (token : Token) (amount : ℕ) (m : Market) : Prop where
  claim : amount ≤ m.loanCredits id token
  owned : amount ≤ m.credits token sender
  total : amount ≤ m.totalCredits token

/-- A credit that its beneficiary may spend, and that its vault backs. -/
structure Spendable (sender : Address) (id : ℕ) (token : Token) (amount : ℕ) (w : World) :
    Prop where
  owner : beneficiary id token w.market = sender
  positive : 0 < amount
  backed : amount ≤ (w.token token).balanceOf (w.market.vaults id)
  covers : Covers sender id token amount w.market

theorem debitCredit_eq_ok {sender : Address} {id amount : ℕ} {token : Token} {m m' : Market} :
    debitCredit sender id token amount m = .ok m' ↔
      Covers sender id token amount m ∧ debited sender id token amount m = m' := by
  simp only [debitCredit, bind_eq_ok, checkedSub_eq_ok, pure_eq_ok]
  constructor
  · rintro ⟨_, ⟨claim, rfl⟩, _, ⟨owned, rfl⟩, _, ⟨total, rfl⟩, rfl⟩
    exact ⟨⟨claim, owned, total⟩, rfl⟩
  · rintro ⟨⟨claim, owned, total⟩, rfl⟩
    exact ⟨_, ⟨claim, rfl⟩, _, ⟨owned, rfl⟩, _, ⟨total, rfl⟩, rfl⟩

theorem spendCredit_eq_ok {sender : Address} {id amount : ℕ} {token : Token} :
    spendCredit sender id token amount w = .ok w' ↔
      Spendable sender id token amount w ∧
        { w with market := debited sender id token amount w.market } = w' := by
  simp only [spendCredit, bind_eq_ok, revertIf_eq_ok, exists_const, pure_eq_ok, debitCredit_eq_ok,
    not_or, not_lt, ne_eq, not_not]
  simp only [loanCredit]
  constructor
  · rintro ⟨owner, ⟨some_, nominal⟩, available, _, ⟨covers, rfl⟩, rfl⟩
    have positive := Nat.pos_of_ne_zero some_
    rw [if_neg (by omega)] at available
    exact ⟨⟨owner, positive, available.trans (min_le_left ..), covers⟩, rfl⟩
  · rintro ⟨h, rfl⟩
    have nominal := h.covers.claim
    have positive := h.positive
    refine ⟨h.owner, ⟨by omega, nominal⟩, ?_, _, ⟨h.covers, rfl⟩, rfl⟩
    rw [if_neg (by omega)]
    exact le_min h.backed nominal

/-! ### The end of a loan -/

/-- What a repayment leaves: the loan ended, its repayment owed to the lender, and its collateral
to the borrower. -/
def repaidLoan (id repayment : ℕ) (active : Address → SwapPop ℕ) (m : Market) : Market :=
  let offer := m.offers id
  credit id .collateralToken offer.borrower offer.collateralAmount
    (credit id .loanToken offer.lender repayment (endedLoan id .repaid active m))

def defaultedLoan (id : ℕ) (active : Address → SwapPop ℕ) (m : Market) : Market :=
  let offer := m.offers id
  credit id .collateralToken offer.lender offer.collateralAmount (endedLoan id .defaulted active m)

/-- The loan can end: it is accounted for, and listed for both parties. -/
structure Ends (id : ℕ) (m : Market) (active : Address → SwapPop ℕ) : Prop where
  was : (m.offers id).status = .active
  committed : (m.offers id).principal ≤ m.committedPrincipal
  locked : (m.offers id).collateralAmount ≤ m.lockedCollateral
  delisted : Delisted id (m.offers id) m.activeLoanIds active

theorem settled_eq_ok {id : ℕ} {m m' : Market} :
    settled id m = .ok m' ↔ ∃ active, Delisted id (m.offers id) m.activeLoanIds active ∧
      (let m := bumpRevision (m.offers id).borrower (bumpRevision (m.offers id).lender
        { m with activeLoanIds := active })
      { m with extensionProposals := update m.extensionProposals id noProposal }) = m' := by
  simp only [settled, removeActive, bind_eq_ok, orRevert_eq_ok, pure_eq_ok, Delisted]
  constructor
  · rintro ⟨_, ⟨first, removed, rfl⟩, _, ⟨second, removed', rfl⟩, rfl⟩
    exact ⟨_, ⟨first, second, removed, removed', rfl⟩, rfl⟩
  · rintro ⟨_, ⟨first, second, removed, removed', rfl⟩, rfl⟩
    exact ⟨_, ⟨first, removed, rfl⟩, _, ⟨second, removed', rfl⟩, rfl⟩

theorem setOffer_self (id : ℕ) (o : Offer) (m : Market) : (setOffer id o m).offers id = o := by
  simp only [setOffer, update_self]

theorem finishRepayment_eq_ok {id repayment : ℕ} {offer : Offer} {m m' : Market}
    (stored : m.offers id = offer) (was : offer.status = .active) :
    finishRepayment id offer repayment m = .ok m' ↔
      ∃ active, Ends id m active ∧ repaidLoan id repayment active m = m' := by
  subst stored
  simp only [finishRepayment, released, bind_eq_ok, checkedSub_eq_ok, pure_eq_ok, settled_eq_ok]
  constructor
  · rintro ⟨_, ⟨_, ⟨committed, rfl⟩, _, ⟨locked, rfl⟩, rfl⟩, active, delisted, rfl⟩
    simp only [credit, setOffer_self] at delisted
    refine ⟨active, ⟨was, committed, locked, delisted⟩, ?_⟩
    simp only [repaidLoan, endedLoan, credit, setOffer_self]
    rfl
  · rintro ⟨active, ends, rfl⟩
    refine ⟨_, ⟨_, ⟨ends.committed, rfl⟩, _, ⟨ends.locked, rfl⟩, rfl⟩, active, ?_, ?_⟩
    · simp only [credit, setOffer_self]
      exact ends.delisted
    · simp only [repaidLoan, endedLoan, credit, setOffer_self]
      rfl

theorem claimDefault_eq_ok {id : ℕ} :
    claimDefault id w = .ok w' ↔ (w.market.offers id).dueAt + GRACE_PERIOD < w.now ∧
      ∃ active, Ends id w.market active ∧
        { w with market := defaultedLoan id active w.market } = w' := by
  simp only [claimDefault, released, bind_eq_ok, revertIf_eq_ok, exists_const, checkedSub_eq_ok,
    pure_eq_ok, settled_eq_ok, ne_eq, not_not, not_le]
  constructor
  · rintro ⟨was, late, _, ⟨_, ⟨committed, rfl⟩, _, ⟨locked, rfl⟩, rfl⟩, _, ⟨active, delisted, rfl⟩,
      rfl⟩
    simp only [credit, setOffer_self] at delisted
    refine ⟨late, active, ⟨was, committed, locked, delisted⟩, ?_⟩
    simp only [defaultedLoan, endedLoan, credit, setOffer_self]
    rfl
  · rintro ⟨late, active, ends, rfl⟩
    refine ⟨ends.was, late, _, ⟨_, ⟨ends.committed, rfl⟩, _, ⟨ends.locked, rfl⟩, rfl⟩, _,
      ⟨active, ?_, rfl⟩, ?_⟩
    · simp only [credit, setOffer_self]
      exact ends.delisted
    · simp only [defaultedLoan, endedLoan, credit, setOffer_self]
      rfl

/-! ### The calls -/

/-- A token other than the two of the market is never sent. -/
def Sends (vault : Address) (token : Token) (recipient : Address) (amount : ℕ) (w : World)
    (t : TokenLedger Address) : Prop :=
  token ≠ .other ∧ P2PVault.transferTo vault recipient amount (w.token token) = .ok t

/-- What a repayment by credits has checked of its sources before it moves anything. -/
structure Sourced (id : ℕ) (sourceIds sourceAmounts : List ℕ) (walletAmount repayment : ℕ) :
    Prop where
  lengths : sourceIds.length = sourceAmounts.length
  count : sourceIds.length ≤ MAX_CREDIT_SOURCES
  valid : ValidSources id (sourceIds.zip sourceAmounts)
  sum : sourceAmounts.sum + walletAmount = repayment

inductive Accepted (w : World) : Op → World → Prop
  | createOffer (sender vault borrower : Address)
      (principal collateralAmount interest duration expiresAt : ℕ) (t : TokenLedger Address)
      (other : borrower ≠ sender) (positive : 0 < principal)
      (pulled : P2PVault.pullExact w.self sender vault principal (w.token .loanToken) = .ok t) :
      Accepted w
        (.createOffer sender vault borrower principal collateralAmount interest duration expiresAt)
        { w with
          token := update w.token .loanToken t
          market := created sender vault borrower principal collateralAmount interest duration
            expiresAt w }
  | acceptOffer (sender : Address) (id : ℕ) (c t : TokenLedger Address)
      (was : (w.market.offers id).status = .open_) (other : sender ≠ (w.market.offers id).lender)
      (reserved : (w.market.offers id).principal ≤ w.market.reservedPrincipal)
      (pulled : P2PVault.pullExact w.self sender (w.market.vaults id)
        (w.market.offers id).collateralAmount (w.token .collateralToken) = .ok c)
      (sent : P2PVault.transferTo (w.market.vaults id) sender (w.market.offers id).principal
        (w.token .loanToken) = .ok t) :
      Accepted w (.acceptOffer sender id)
        { w with
          token := update (update w.token .collateralToken c) .loanToken t
          market := takenBy sender id w }
  | cancelOffer (id : ℕ) (was : (w.market.offers id).status = .open_)
      (committed : (w.market.offers id).principal ≤ w.market.committedPrincipal)
      (reserved : (w.market.offers id).principal ≤ w.market.reservedPrincipal) :
      Accepted w (.cancelOffer (w.market.offers id).lender id)
        { w with market := closedOffer id .cancelled w.market }
  | expireOffer (id : ℕ) (was : (w.market.offers id).status = .open_)
      (late : (w.market.offers id).expiresAt ≤ w.now)
      (committed : (w.market.offers id).principal ≤ w.market.committedPrincipal)
      (reserved : (w.market.offers id).principal ≤ w.market.reservedPrincipal) :
      Accepted w (.expireOffer id) { w with market := closedOffer id .expired w.market }
  | repay (sender : Address) (id : ℕ) (t : TokenLedger Address) (active : Address → SwapPop ℕ)
      (inTime : w.now ≤ (w.market.offers id).dueAt + GRACE_PERIOD)
      (pulled : P2PVault.pullExact w.self sender (w.market.vaults id)
        ((w.market.offers id).principal + (w.market.offers id).interest) (w.token .loanToken) =
          .ok t)
      (ends : Ends id w.market active) :
      Accepted w (.repay sender id)
        { w with
          token := update w.token .loanToken t
          market := repaidLoan id
            ((w.market.offers id).principal + (w.market.offers id).interest) active w.market }
  | repayWithCredits (sender : Address) (id : ℕ) (sourceIds sourceAmounts : List ℕ)
      (walletAmount : ℕ) (mid paid : World) (active : Address → SwapPop ℕ)
      (was : (w.market.offers id).status = .active)
      (inTime : w.now ≤ (w.market.offers id).dueAt + GRACE_PERIOD)
      (sourced : Sourced id sourceIds sourceAmounts walletAmount
        ((w.market.offers id).principal + (w.market.offers id).interest))
      (spent : spendSources sender (w.market.vaults id) (sourceIds.zip sourceAmounts) w = .ok mid)
      (pulled : pullWallet sender (w.market.vaults id) walletAmount mid = .ok paid)
      (arrived : (paid.token .loanToken).balanceOf (w.market.vaults id) =
        (w.token .loanToken).balanceOf (w.market.vaults id) +
          ((w.market.offers id).principal + (w.market.offers id).interest))
      (ends : Ends id paid.market active) :
      Accepted w (.repayWithCredits sender id sourceIds sourceAmounts walletAmount)
        { paid with
          market := repaidLoan id
            ((w.market.offers id).principal + (w.market.offers id).interest) active paid.market }
  | claimDefault (id : ℕ) (active : Address → SwapPop ℕ)
      (late : (w.market.offers id).dueAt + GRACE_PERIOD < w.now) (ends : Ends id w.market active) :
      Accepted w (.claimDefault id) { w with market := defaultedLoan id active w.market }
  | withdrawCredit (sender : Address) (id : ℕ) (token : Token) (amount : ℕ) (recipient : Address)
      (t : TokenLedger Address) (away : recipient ≠ w.self)
      (spendable : Spendable sender id token amount w)
      (sent : Sends (w.market.vaults id) token recipient amount w t) :
      Accepted w (.withdrawCredit sender id token amount recipient)
        { w with
          token := update w.token token t
          market := debited sender id token amount w.market }
  | withdrawAvailableCredit (id : ℕ) (token : Token) (minReceived : ℕ) (recipient : Address)
      (token' : Token → TokenLedger Address) (away : recipient ≠ w.self)
      (some_ : 0 < w.market.loanCredits id token)
      (covers : Covers (beneficiary id token w.market) id token (w.market.loanCredits id token)
        w.market)
      (sent : token' = w.token ∨ ∃ t, Sends (w.market.vaults id) token recipient
        (loanCredit id token w).2.2 w t ∧ token' = update w.token token t) :
      Accepted w (.withdrawAvailableCredit (beneficiary id token w.market) id token minReceived
          recipient)
        { w with
          token := token'
          market := debited (beneficiary id token w.market) id token (w.market.loanCredits id token)
            w.market }
  | proposeExtension (sender : Address) (id newDeadline expiresAt : ℕ)
      (active : (w.market.offers id).status = .active)
      (party : isParty sender (w.market.offers id))
      (later : (w.market.offers id).dueAt + GRACE_PERIOD < newDeadline) :
      Accepted w (.proposeExtension sender id newDeadline expiresAt)
        { w with
          market :=
            { w.market with
              extensionNonce := update w.market.extensionNonce id (w.market.extensionNonce id + 1)
              extensionProposals := update w.market.extensionProposals id
                ⟨sender, w.market.extensionNonce id + 1, (w.market.offers id).dueAt + GRACE_PERIOD,
                  newDeadline, expiresAt⟩ } }
  | acceptExtension (sender : Address) (id : ℕ) (active : (w.market.offers id).status = .active)
      (party : isParty sender (w.market.offers id))
      (other : sender ≠ (w.market.extensionProposals id).proposer)
      (proposed : (w.market.extensionProposals id).proposer ≠ 0)
      (inTime : w.now < (w.market.extensionProposals id).expiresAt)
      (current : (w.market.offers id).dueAt + GRACE_PERIOD =
        (w.market.extensionProposals id).oldDeadline)
      (graced : GRACE_PERIOD ≤ (w.market.extensionProposals id).newDeadline) :
      Accepted w (.acceptExtension sender id (w.market.extensionProposals id).nonce
          (w.market.extensionProposals id).oldDeadline (w.market.extensionProposals id).newDeadline
          (w.market.extensionProposals id).expiresAt)
        { w with
          market := setOffer id
            { w.market.offers id with
              dueAt := (w.market.extensionProposals id).newDeadline - GRACE_PERIOD }
            { w.market with
              extensionProposals := update w.market.extensionProposals id noProposal } }
  | cancelExtension (id : ℕ) :
      Accepted w (.cancelExtension (w.market.extensionProposals id).proposer id
          (w.market.extensionProposals id).nonce)
        { w with
          market :=
            { w.market with
              extensionProposals := update w.market.extensionProposals id noProposal } }
  | setNewLoansPaused (paused : Bool) :
      Accepted w (.setNewLoansPaused w.market.guardian paused)
        { w with market := { w.market with newLoansPaused := paused } }
  | nominateGuardian (replacement : Address) :
      Accepted w (.nominateGuardian w.market.guardian replacement)
        { w with market := { w.market with pendingGuardian := replacement } }
  | cancelGuardianNomination :
      Accepted w (.cancelGuardianNomination w.market.guardian)
        { w with market := { w.market with pendingGuardian := 0 } }
  | acceptGuardian :
      Accepted w (.acceptGuardian w.market.pendingGuardian)
        { w with
          market := { w.market with guardian := w.market.pendingGuardian, pendingGuardian := 0 } }
  | outside (token : Token → TokenLedger Address) (seconds : ℕ) :
      Accepted w (.outside token seconds) { w with token, now := w.now + seconds }

section Tokens

variable {token : Token} {src dst : Address} {amount : ℕ}

theorem onToken_eq_ok
    {f : TokenLedger Address → Except P2PVault.TransferError (TokenLedger Address)} :
    onToken token f w = .ok w' ↔
      ∃ t, f (w.token token) = .ok t ∧ { w with token := update w.token token t } = w' := by
  simp only [onToken, bind_eq_ok, mapError_eq_ok, pure_eq_ok]

theorem pullToExact_eq_ok : pullToExact token src dst amount w = .ok w' ↔
    ∃ t, P2PVault.pullExact w.self src dst amount (w.token token) = .ok t ∧
      { w with token := update w.token token t } = w' := by
  rw [pullToExact, onToken_eq_ok]

theorem transferTo_eq_ok : transferTo src token dst amount w = .ok w' ↔
    ∃ t, Sends src token dst amount w t ∧ { w with token := update w.token token t } = w' := by
  simp only [transferTo, bind_eq_ok, revertIf_eq_ok, exists_const, onToken_eq_ok, Sends, and_assoc,
    exists_and_left, ne_eq]

/-- The loop over the sources changes credits and balances only. -/
theorem spendSources_frame {sender target : Address} {sources : List (ℕ × ℕ)}
    (h : spendSources sender target sources w = .ok w') :
    w'.self = w.self ∧ w'.now = w.now ∧ ∃ loanCredits credits totalCredits,
      w'.market = { w.market with loanCredits, credits, totalCredits } := by
  induction sources generalizing w with
  | nil =>
    rw [spendSources, pure_eq_ok] at h
    exact h ▸ ⟨rfl, rfl, _, _, _, rfl⟩
  | cons source rest ih =>
    simp only [spendSources, bind_eq_ok, spendCredit_eq_ok, transferTo_eq_ok] at h
    obtain ⟨_, ⟨-, rfl⟩, _, ⟨t, -, rfl⟩, done⟩ := h
    obtain ⟨self, now, l, c, n, market⟩ := ih done
    exact ⟨self, now, l, c, n, market⟩

theorem pullWallet_frame (h : pullWallet src dst amount w = .ok w') :
    w'.self = w.self ∧ w'.now = w.now ∧ w'.market = w.market := by
  unfold pullWallet at h
  split_ifs at h
  · obtain ⟨t, -, rfl⟩ := pullToExact_eq_ok.mp h
    exact ⟨rfl, rfl, rfl⟩
  · rw [pure_eq_ok] at h
    exact h ▸ ⟨rfl, rfl, rfl⟩

end Tokens

theorem exec_accepted {op : Op} (h : exec op w = .ok w') : Accepted w op w' := by
  cases op with
  | createOffer sender vault borrower principal collateralAmount interest duration expiresAt =>
    simp only [exec, createOffer, bind_eq_ok, revertIf_eq_ok, exists_const, not_or,
      pullToExact_eq_ok] at h
    obtain ⟨-, ⟨-, other, some_, -⟩, t, pulled, rfl⟩ := h
    exact .createOffer sender vault borrower principal collateralAmount interest duration expiresAt
      t other (Nat.pos_of_ne_zero some_) pulled
  | acceptOffer sender id =>
    simp only [exec, acceptOffer, bind_eq_ok, revertIf_eq_ok, exists_const, checkedSub_eq_ok,
      not_or, ne_eq, not_not, pullToExact_eq_ok, transferTo_eq_ok] at h
    obtain ⟨-, was, ⟨other, -⟩, -, -, _, ⟨reserved, rfl⟩, _, ⟨c, pulled, rfl⟩, t, sent, rfl⟩ := h
    exact .acceptOffer sender id c t was other reserved pulled sent.2
  | cancelOffer sender id =>
    simp only [exec, cancelOffer, closeOffer, bind_eq_ok, revertIf_eq_ok, exists_const,
      checkedSub_eq_ok, pure_eq_ok, ne_eq, not_not] at h
    obtain ⟨was, rfl, _, ⟨_, ⟨committed, rfl⟩, _, ⟨reserved, rfl⟩, rfl⟩, rfl⟩ := h
    exact .cancelOffer id was committed reserved
  | expireOffer id =>
    simp only [exec, expireOffer, closeOffer, bind_eq_ok, revertIf_eq_ok, exists_const,
      checkedSub_eq_ok, pure_eq_ok, ne_eq, not_not, not_lt] at h
    obtain ⟨was, late, _, ⟨_, ⟨committed, rfl⟩, _, ⟨reserved, rfl⟩, rfl⟩, rfl⟩ := h
    exact .expireOffer id was late committed reserved
  | repay sender id =>
    simp only [exec, repay, repayable, bind_eq_ok, revertIf_eq_ok, exists_const, pure_eq_ok, ne_eq,
      not_not, not_lt, pullToExact_eq_ok] at h
    obtain ⟨_, ⟨was, inTime, rfl⟩, _, ⟨t, pulled, rfl⟩, _, finished, rfl⟩ := h
    obtain ⟨active, ends, rfl⟩ := (finishRepayment_eq_ok rfl was).mp finished
    exact .repay sender id t active inTime pulled ends
  | repayWithCredits sender id sourceIds sourceAmounts walletAmount =>
    simp only [exec, repayWithCredits, repayable, bind_eq_ok, revertIf_eq_ok, exists_const,
      pure_eq_ok, ne_eq, not_not, not_lt, not_or] at h
    obtain ⟨_, ⟨was, inTime, rfl⟩, ⟨lengths, count⟩, valid, ⟨within, exact_⟩, mid, spent, paid,
      pulled, arrived, _, finished, rfl⟩ := h
    obtain ⟨-, -, _, _, _, market⟩ := spendSources_frame spent
    have offers : paid.market.offers = w.market.offers := by
      rw [(pullWallet_frame pulled).2.2, market]
    obtain ⟨active, ends, rfl⟩ :=
      (finishRepayment_eq_ok (congrFun offers id) was).mp finished
    exact .repayWithCredits sender id sourceIds sourceAmounts walletAmount mid paid active was
      inTime ⟨lengths, count, valid, by omega⟩ spent pulled arrived ends
  | claimDefault id =>
    obtain ⟨late, active, ends, rfl⟩ := claimDefault_eq_ok.mp h
    exact .claimDefault id active late ends
  | withdrawCredit sender id token amount recipient =>
    simp only [exec, withdrawCredit, validRecipient, bind_eq_ok, revertIf_eq_ok, exists_const,
      not_or, spendCredit_eq_ok, transferTo_eq_ok] at h
    obtain ⟨⟨-, away⟩, _, ⟨spendable, rfl⟩, t, sent, rfl⟩ := h
    exact .withdrawCredit sender id token amount recipient t away spendable sent
  | withdrawAvailableCredit sender id token minReceived recipient =>
    simp only [exec, withdrawAvailableCredit, validRecipient, bind_eq_ok, revertIf_eq_ok,
      exists_const, not_or, debitCredit_eq_ok, ne_eq, not_not, not_lt] at h
    obtain ⟨⟨-, away⟩, rfl, ⟨some_, -⟩, _, ⟨covers, rfl⟩, paid⟩ := h
    unfold payAvailable at paid
    split_ifs at paid
    · obtain ⟨t, sent, rfl⟩ := transferTo_eq_ok.mp paid
      exact .withdrawAvailableCredit id token minReceived recipient _ away
        (Nat.pos_of_ne_zero some_) covers (.inr ⟨t, sent, rfl⟩)
    · rw [pure_eq_ok] at paid
      exact paid ▸ .withdrawAvailableCredit id token minReceived recipient w.token away
        (Nat.pos_of_ne_zero some_) covers (.inl rfl)
  | proposeExtension sender id newDeadline expiresAt =>
    simp only [exec, proposeExtension, bind_eq_ok, revertIf_eq_ok, exists_const, pure_eq_ok, not_or,
      not_le, not_lt, ne_eq, not_not] at h
    obtain ⟨active, party, ⟨later, -⟩, rfl⟩ := h
    exact .proposeExtension sender id newDeadline expiresAt active party later
  | acceptExtension sender id nonce oldDeadline newDeadline expiresAt =>
    simp only [exec, acceptExtension, bind_eq_ok, revertIf_eq_ok, exists_const, checkedSub_eq_ok,
      pure_eq_ok, not_or, not_le, ne_eq, not_not] at h
    obtain ⟨active, ⟨other, party⟩, ⟨proposed, rfl, rfl, rfl, rfl, current, inTime⟩, _,
      ⟨graced, rfl⟩, rfl⟩ := h
    exact .acceptExtension sender id active party other proposed inTime current graced
  | cancelExtension sender id nonce =>
    simp only [exec, cancelExtension, bind_eq_ok, revertIf_eq_ok, exists_const, pure_eq_ok, ne_eq,
      not_not] at h
    obtain ⟨rfl, rfl, rfl⟩ := h
    exact .cancelExtension id
  | setNewLoansPaused sender paused =>
    simp only [exec, setNewLoansPaused, bind_eq_ok, revertIf_eq_ok, exists_const, pure_eq_ok, ne_eq,
      not_not] at h
    obtain ⟨rfl, rfl⟩ := h
    exact .setNewLoansPaused paused
  | nominateGuardian sender replacement =>
    simp only [exec, nominateGuardian, bind_eq_ok, revertIf_eq_ok, exists_const, pure_eq_ok, ne_eq,
      not_not] at h
    obtain ⟨rfl, -, rfl⟩ := h
    exact .nominateGuardian replacement
  | cancelGuardianNomination sender =>
    simp only [exec, cancelGuardianNomination, bind_eq_ok, revertIf_eq_ok, exists_const, pure_eq_ok,
      ne_eq, not_not] at h
    obtain ⟨rfl, rfl⟩ := h
    exact .cancelGuardianNomination
  | acceptGuardian sender =>
    simp only [exec, acceptGuardian, bind_eq_ok, revertIf_eq_ok, exists_const, pure_eq_ok, ne_eq,
      not_not] at h
    obtain ⟨rfl, rfl⟩ := h
    exact .acceptGuardian
  | outside token seconds =>
    rw [exec, pure_eq_ok] at h
    exact h ▸ .outside token seconds

end Turret.LendingV3
