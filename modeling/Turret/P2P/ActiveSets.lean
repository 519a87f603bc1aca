import Turret.P2P.LendingV3

/-! The active loans of each party, as the market keeps them beside its offers,
and reading them page by page while the market moves on. Five changes cover
every call; the revision of an account counts those that touch its set. -/

namespace Turret.LendingV3

open Execution Function

structure Parties where
  lender : Address
  borrower : Address
  status : Status

def Parties.include (p : Parties) (account : Address) : Prop :=
  p.status = .active ∧ (p.lender = account ∨ p.borrower = account)

/-- The part of the market that the active sets depend on, and the sets. -/
structure Loans where
  next : ℕ
  offer : ℕ → Parties
  active : Address → SwapPop ℕ
  revision : Address → ℕ

def parties (o : Offer) : Parties := ⟨o.lender, o.borrower, o.status⟩

def Market.loans (m : Market) : Loans :=
  ⟨m.nextOfferId, fun id => parties (m.offers id), m.activeLoanIds, m.activeLoanRevision⟩

namespace Loans

def bump (account : Address) (revision : Address → ℕ) : Address → ℕ :=
  update revision account (revision account + 1)

def enlist (account : Address) (id : ℕ) (active : Address → SwapPop ℕ) : Address → SwapPop ℕ :=
  update active account ((active account).insert id)

inductive Step (l : Loans) : Loans → Prop
  | rest : Step l l
  | create (lender borrower : Address) :
      Step l
        { l with next := l.next + 1, offer := update l.offer l.next ⟨lender, borrower, .open_⟩ }
  | close (id : ℕ) (status : Status) (was : (l.offer id).status = .open_) (ends : status ≠ .active)
      (some_ : status ≠ .none) :
      Step l { l with offer := update l.offer id { l.offer id with status } }
  | accept (id : ℕ) (account : Address) (was : (l.offer id).status = .open_) :
      Step l
        { l with
          offer := update l.offer id ⟨(l.offer id).lender, account, .active⟩
          active := enlist account id (enlist (l.offer id).lender id l.active)
          revision := bump account (bump (l.offer id).lender l.revision) }
  | settle (id : ℕ) (status : Status) (was : (l.offer id).status = .active)
      (ends : status ≠ .active) (some_ : status ≠ .none) (first second : SwapPop ℕ)
      (removed : (l.active (l.offer id).lender).erase id = some first)
      (removed' : (update l.active (l.offer id).lender first (l.offer id).borrower).erase id =
        some second) :
      Step l
        { l with
          offer := update l.offer id { l.offer id with status }
          active := update (update l.active (l.offer id).lender first) (l.offer id).borrower second
          revision := bump (l.offer id).borrower (bump (l.offer id).lender l.revision) }

/-- Each set holds the active loans of its account, and only numbered offers exist. -/
structure Sound (l : Loans) : Prop where
  wellFormed : ∀ a, (l.active a).WellFormed
  index_iff : ∀ a id, (l.active a).index id ≠ 0 ↔ (l.offer id).include a
  unused : ∀ id, l.next ≤ id → (l.offer id).status = .none

/-- Revisions only grow, and while one stays its set stays. -/
structure Later (l l' : Loans) : Prop where
  revision_le : ∀ a, l.revision a ≤ l'.revision a
  active_eq : ∀ a, l'.revision a = l.revision a → l'.active a = l.active a

theorem Later.refl (l : Loans) : Later l l := ⟨fun _ => le_rfl, fun _ _ => rfl⟩

theorem Later.trans {l m n : Loans} (h : Later l m) (k : Later m n) : Later l n where
  revision_le a := (h.revision_le a).trans (k.revision_le a)
  active_eq a same := by
    have first := h.revision_le a
    have second := k.revision_le a
    rw [k.active_eq a (by omega), h.active_eq a (by omega)]

variable {l l' : Loans} {a b : Address} {id : ℕ}

theorem bump_le (a b : Address) (r : Address → ℕ) : r b ≤ bump a r b := by
  by_cases h : b = a
  · subst h
    simp [bump]
  · simp [bump, h]

theorem bump_self (a : Address) (r : Address → ℕ) : bump a r a = r a + 1 := by simp [bump]

/-- Both parties' revisions grow, so whoever's revision stays was no party. -/
theorem bump_bump_eq {r : Address → ℕ} {c : Address} (h : bump a (bump b r) c = r c) :
    c ≠ a ∧ c ≠ b := by
  constructor
  · rintro rfl
    have := bump_le b c r
    rw [bump_self] at h
    omega
  · rintro rfl
    have := bump_le a c (bump c r)
    rw [bump_self] at this
    omega

theorem Step.later (h : Step l l') : Later l l' := by
  cases h with
  | rest => exact .refl l
  | create | close => exact ⟨fun _ => le_rfl, fun _ _ => rfl⟩
  | accept id account was =>
    refine ⟨fun a => (bump_le ..).trans (bump_le ..), fun a same => ?_⟩
    have away := bump_bump_eq same
    simp only [enlist, update_of_ne away.1, update_of_ne away.2]
  | settle id status was ends some_ first second removed removed' =>
    refine ⟨fun a => (bump_le ..).trans (bump_le ..), fun a same => ?_⟩
    have away := bump_bump_eq same
    simp only [update_of_ne away.1, update_of_ne away.2]

/-- An offer that is and stays inactive is in no set. -/
theorem Sound.update_idle (h : l.Sound) {p : Parties} {n : ℕ}
    (before : (l.offer id).status ≠ .active) (after : p.status ≠ .active) (below : id < n)
    (onward : l.next ≤ n) : Sound { l with next := n, offer := update l.offer id p } where
  wellFormed := h.wellFormed
  index_iff a other := by
    rw [h.index_iff a other]
    by_cases same : other = id
    · subst same
      simp only [update_self]
      exact ⟨fun k => absurd k.1 before, fun k => absurd k.1 after⟩
    · simp only [update_of_ne same]
  unused other above := by
    have ne : other ≠ id := by
      have : n ≤ other := above
      omega
    simp only [update_of_ne ne]
    exact h.unused other (onward.trans above)

theorem Sound.numbered (h : l.Sound) (some_ : (l.offer id).status ≠ .none) : id < l.next := by
  by_contra above
  exact some_ (h.unused id (Nat.le_of_not_lt above))

/-- A change of the offer `id` for which the two parties' sets make up. -/
theorem Sound.update_parties (h : l.Sound) (numbered : id < l.next) {p : Parties}
    {active : Address → SwapPop ℕ} {revision : Address → ℕ}
    (wellFormed : ∀ a, (active a).WellFormed)
    (changed : ∀ a, (active a).index id ≠ 0 ↔ p.include a)
    (kept : ∀ a other, other ≠ id → ((active a).index other ≠ 0 ↔ (l.active a).index other ≠ 0)) :
    Sound { l with offer := update l.offer id p, active, revision } where
  wellFormed := wellFormed
  index_iff a other := by
    by_cases same : other = id
    · subst same
      simp only [update_self]
      exact changed a
    · simp only [update_of_ne same]
      rw [kept a other same, h.index_iff a other]
  unused other above := by
    have ne : other ≠ id := by
      have : l.next ≤ other := above
      omega
    simp only [update_of_ne ne]
    exact h.unused other above

section Membership

variable {f : Address → SwapPop ℕ} {r : SwapPop ℕ} {x : ℕ}

theorem enlist_wellFormed (h : ∀ a, (f a).WellFormed) (a : Address) :
    (enlist b id f a).WellFormed := by
  by_cases same : a = b
  · subst same
    simpa [enlist] using SwapPop.insert_wellFormed (h a)
  · simpa [enlist, same] using h a

theorem enlist_index : (enlist b id f a).index x ≠ 0 ↔ (a = b ∧ x = id) ∨ (f a).index x ≠ 0 := by
  by_cases same : a = b
  · subst same
    simp only [enlist, update_self, true_and]
    exact SwapPop.insert_index_ne_zero
  · simp [enlist, same]

theorem delist_wellFormed (h : ∀ a, (f a).WellFormed) (removed : (f b).erase id = some r)
    (a : Address) : (update f b r a).WellFormed := by
  by_cases same : a = b
  · subst same
    simpa using SwapPop.erase_wellFormed (h a) removed
  · simpa [same] using h a

theorem delist_index (h : ∀ a, (f a).WellFormed) (removed : (f b).erase id = some r) :
    (update f b r a).index x ≠ 0 ↔ ¬(a = b ∧ x = id) ∧ (f a).index x ≠ 0 := by
  by_cases same : a = b
  · subst same
    simp only [update_self, true_and]
    exact SwapPop.erase_index_ne_zero (h a) removed
  · simp [same]

end Membership

theorem Step.sound (hl : l.Sound) (h : Step l l') : l'.Sound := by
  cases h with
  | rest => exact hl
  | create lender borrower =>
    have fresh := hl.unused l.next le_rfl
    exact hl.update_idle (by simp [fresh]) (by simp) (Nat.lt_succ_self _) (Nat.le_succ _)
  | close id status was ends some_ =>
    exact hl.update_idle (by simp [was]) ends (hl.numbered (by simp [was])) le_rfl
  | accept id account was =>
    have idle : ∀ a, ¬(l.active a).index id ≠ 0 := fun a member => by
      have := ((hl.index_iff a id).mp member).1
      simp [was] at this
    refine hl.update_parties (hl.numbered (by simp [was]))
      (enlist_wellFormed (enlist_wellFormed hl.wellFormed)) (fun a => ?_) (fun a other ne => ?_)
    · rw [enlist_index, enlist_index, Parties.include]
      have absent := idle a
      constructor
      · rintro (⟨rfl, -⟩ | ⟨rfl, -⟩ | member)
        · exact ⟨rfl, .inr rfl⟩
        · exact ⟨rfl, .inl rfl⟩
        · exact absurd member absent
      · rintro ⟨-, rfl | rfl⟩
        · exact .inr (.inl ⟨rfl, rfl⟩)
        · exact .inl ⟨rfl, rfl⟩
    · rw [enlist_index, enlist_index]
      simp only [ne, and_false, false_or]
  | settle id status was ends some_ first second removed removed' =>
    have between := delist_wellFormed hl.wellFormed removed
    refine hl.update_parties (hl.numbered (by simp [was])) (delist_wellFormed between removed')
      (fun a => ?_) (fun a other ne => ?_)
    · rw [delist_index between removed', delist_index hl.wellFormed removed, hl.index_iff a id]
      constructor
      · rintro ⟨notBorrower, notLender, -, rfl | rfl⟩
        · exact absurd ⟨rfl, rfl⟩ notLender
        · exact absurd ⟨rfl, rfl⟩ notBorrower
      · exact fun k => absurd k.1 ends
    · rw [delist_index between removed', delist_index hl.wellFormed removed]
      simp only [ne, and_false, not_false_eq_true, true_and]

end Loans

/-! ### Every call is one of the changes -/

section Frames

variable {m m' : Market} {w w' : World} {id amount : ℕ} {token : Token} {src dst sender : Address}

theorem onToken_market
    {f : TokenLedger Address → Except P2PVault.TransferError (TokenLedger Address)}
    (h : onToken token f w = .ok w') : w'.market = w.market := by
  simp only [onToken, bind_eq_ok, pure_eq_ok] at h
  obtain ⟨_, -, rfl⟩ := h
  rfl

theorem pullToExact_market (h : pullToExact token src dst amount w = .ok w') :
    w'.market = w.market :=
  onToken_market h

theorem transferTo_market (h : transferTo src token dst amount w = .ok w') :
    w'.market = w.market := by
  simp only [transferTo, bind_eq_ok] at h
  obtain ⟨_, -, done⟩ := h
  exact onToken_market done

theorem credit_loans : (credit id token src amount m).loans = m.loans := rfl

theorem debitCredit_loans (h : debitCredit sender id token amount m = .ok m') :
    m'.loans = m.loans := by
  simp only [debitCredit, bind_eq_ok, pure_eq_ok] at h
  obtain ⟨_, -, _, -, _, -, rfl⟩ := h
  rfl

theorem spendCredit_loans (h : spendCredit sender id token amount w = .ok w') :
    w'.market.loans = w.market.loans := by
  simp only [spendCredit, bind_eq_ok, pure_eq_ok] at h
  obtain ⟨_, -, _, -, _, -, market, debited, rfl⟩ := h
  exact debitCredit_loans debited

theorem released_loans {offer : Offer} (h : released offer m = .ok m') : m'.loans = m.loans := by
  simp only [released, bind_eq_ok, pure_eq_ok] at h
  obtain ⟨_, -, _, -, rfl⟩ := h
  rfl

theorem listed_loans (id : ℕ) (borrower : Address) (m : Market) :
    (listed id borrower m).loans = m.loans := by
  unfold listed
  split_ifs <;> rfl

theorem offers_update (m : Market) (id : ℕ) (o : Offer) :
    (fun other => parties (update m.offers id o other)) =
      update (fun other => parties (m.offers other)) id (parties o) := by
  funext other
  exact apply_update (fun _ => parties) m.offers id o other

theorem setOffer_loans (id : ℕ) (o : Offer) (m : Market) :
    (setOffer id o m).loans =
      { m.loans with offer := update m.loans.offer id (parties o) } := by
  simp only [setOffer, Market.loans, offers_update]

theorem settled_loans (h : settled id m = .ok m') :
    ∃ first second, (m.loans.active (m.offers id).lender).erase id = some first ∧
      (update m.loans.active (m.offers id).lender first (m.offers id).borrower).erase id =
        some second ∧
      m'.loans =
        { m.loans with
          active := update (update m.loans.active (m.offers id).lender first)
            (m.offers id).borrower second
          revision := Loans.bump (m.offers id).borrower
            (Loans.bump (m.offers id).lender m.loans.revision) } := by
  simp only [settled, removeActive, bind_eq_ok, orRevert_eq_ok, pure_eq_ok] at h
  obtain ⟨_, ⟨first, removed, rfl⟩, _, ⟨second, removed', rfl⟩, rfl⟩ := h
  exact ⟨first, second, removed, removed', rfl⟩

theorem spendSources_loans {target : Address} {sources : List (ℕ × ℕ)}
    (h : spendSources sender target sources w = .ok w') :
    w'.market.loans = w.market.loans := by
  induction sources generalizing w with
  | nil =>
    rw [spendSources, pure_eq_ok] at h
    rw [h]
  | cons source rest ih =>
    simp only [spendSources, bind_eq_ok] at h
    obtain ⟨mid, spent, sent, moved, done⟩ := h
    rw [ih done, transferTo_market moved, spendCredit_loans spent]

theorem pullWallet_market (h : pullWallet src dst amount w = .ok w') : w'.market = w.market := by
  unfold pullWallet at h
  split_ifs at h
  · exact pullToExact_market h
  · rw [pure_eq_ok] at h
    rw [h]

theorem payAvailable_market (h : payAvailable src token dst amount w = .ok w') :
    w'.market = w.market := by
  unfold payAvailable at h
  split_ifs at h
  · exact transferTo_market h
  · rw [pure_eq_ok] at h
    rw [h]

end Frames

variable {w w' : World} {id : ℕ} {sender : Address}

theorem createOffer_step {vault borrower : Address}
    {principal collateralAmount interest duration expiresAt : ℕ}
    (h : createOffer sender vault borrower principal collateralAmount interest duration expiresAt
      w = .ok w') : w.market.loans.Step w'.market.loans := by
  simp only [createOffer, bind_eq_ok, revertIf_eq_ok, exists_const] at h
  obtain ⟨-, -, pulled⟩ := h
  rw [pullToExact_market pulled]
  have listing := listed_loans w.market.nextOfferId borrower
  simp only [Market.loans, Loans.mk.injEq] at listing ⊢
  simp only [listing, remembered, offers_update]
  exact .create sender borrower

theorem acceptOffer_step (h : acceptOffer sender id w = .ok w') :
    w.market.loans.Step w'.market.loans := by
  simp only [acceptOffer, bind_eq_ok, revertIf_eq_ok, exists_const, ne_eq, not_not] at h
  obtain ⟨-, was, -, -, -, _, -, mid, pulled, sent⟩ := h
  rw [transferTo_market sent, pullToExact_market pulled]
  simp only [Market.loans, addActive, remembered, setOffer, offers_update]
  exact .accept id sender was

/-- The end of a loan: its status changes, and its parties' sets give it up. -/
theorem finished_step {status : Status} {m m' : Market}
    (was : (w.market.offers id).status = .active) (ends : status ≠ .active) (some_ : status ≠ .none)
    (same : m.loans =
      { w.market.loans with
        offer := update w.market.loans.offer id { w.market.loans.offer id with status } })
    (h : settled id m = .ok m') : w.market.loans.Step m'.loans := by
  obtain ⟨first, second, removed, removed', result⟩ := settled_loans h
  have there : parties (m.offers id) = { parties (w.market.offers id) with status } := by
    have := congrFun (congrArg Loans.offer same) id
    simpa only [Market.loans, update_self] using this
  have lender := congrArg Parties.lender there
  have borrower := congrArg Parties.borrower there
  simp only [parties] at lender borrower
  rw [same, lender] at removed
  rw [same, lender, borrower] at removed'
  rw [result, same, lender, borrower]
  exact .settle id status was ends some_ first second removed removed'

theorem released_offer {m m' : Market} {offer : Offer} {status : Status}
    (stored : offer = w.market.offers id) (frame : m.loans = w.market.loans)
    (h : released offer (setOffer id { offer with status } m) = .ok m') :
    m'.loans =
      { w.market.loans with
        offer := update w.market.loans.offer id { w.market.loans.offer id with status } } := by
  rw [released_loans h, setOffer_loans, frame, stored]
  rfl

theorem finishRepayment_step {offer : Offer} {repayment : ℕ} {m m' : Market}
    (stored : offer = w.market.offers id) (was : offer.status = .active)
    (frame : m.loans = w.market.loans)
    (h : finishRepayment id offer repayment m = .ok m') : w.market.loans.Step m'.loans := by
  simp only [finishRepayment, bind_eq_ok] at h
  obtain ⟨mid, freed, done⟩ := h
  exact finished_step (stored ▸ was) (by simp) (by simp)
    ((credit_loans.trans credit_loans).trans (released_offer stored frame freed)) done

theorem repay_step (h : repay sender id w = .ok w') : w.market.loans.Step w'.market.loans := by
  simp only [repay, repayable, bind_eq_ok, revertIf_eq_ok, exists_const, pure_eq_ok, ne_eq,
    not_not] at h
  obtain ⟨offer, ⟨was, -, stored⟩, mid, pulled, m, finished, rfl⟩ := h
  exact finishRepayment_step stored.symm (stored ▸ was)
    (congrArg Market.loans (pullToExact_market pulled)) finished

theorem repayWithCredits_step {sourceIds sourceAmounts : List ℕ} {walletAmount : ℕ}
    (h : repayWithCredits sender id sourceIds sourceAmounts walletAmount w = .ok w') :
    w.market.loans.Step w'.market.loans := by
  simp only [repayWithCredits, repayable, bind_eq_ok, revertIf_eq_ok, exists_const, pure_eq_ok,
    ne_eq, not_not] at h
  obtain ⟨offer, ⟨was, -, stored⟩, -, -, -, mid, spent, paid, pulled, -, m, finished, rfl⟩ := h
  refine finishRepayment_step stored.symm (stored ▸ was) ?_ finished
  rw [pullWallet_market pulled, spendSources_loans spent]

theorem claimDefault_step (h : claimDefault id w = .ok w') :
    w.market.loans.Step w'.market.loans := by
  simp only [claimDefault, bind_eq_ok, revertIf_eq_ok, exists_const, pure_eq_ok, ne_eq,
    not_not] at h
  obtain ⟨was, -, mid, freed, m, done, rfl⟩ := h
  exact finished_step was (by simp) (by simp)
    (credit_loans.trans (released_offer rfl rfl freed)) done

theorem closeOffer_step {status : Status} {m' : Market} (ends : status ≠ .active)
    (some_ : status ≠ .none) (was : (w.market.offers id).status = .open_)
    (h : closeOffer id status w.market = .ok m') : w.market.loans.Step m'.loans := by
  simp only [closeOffer, bind_eq_ok, pure_eq_ok] at h
  obtain ⟨_, -, _, -, rfl⟩ := h
  have same := setOffer_loans id { w.market.offers id with status } w.market
  have closed : w.market.loans.Step _ := .close id status was ends some_
  exact same ▸ closed

theorem extended_step {dueAt : ℕ} {proposals : ℕ → ExtensionProposal} :
    (setOffer id { w.market.offers id with dueAt }
      { w.market with extensionProposals := proposals }).loans = w.market.loans := by
  have kept : parties { w.market.offers id with dueAt } = w.market.loans.offer id := rfl
  rw [setOffer_loans, kept]
  simp only [Market.loans, update_eq_self]

/-- Every call of the market is one of the changes. -/
theorem exec_step {op : Op} (h : exec op w = .ok w') : w.market.loans.Step w'.market.loans := by
  cases op with
  | createOffer => exact createOffer_step h
  | acceptOffer => exact acceptOffer_step h
  | repay => exact repay_step h
  | repayWithCredits => exact repayWithCredits_step h
  | claimDefault => exact claimDefault_step h
  | cancelOffer sender id =>
    simp only [exec, cancelOffer, bind_eq_ok, revertIf_eq_ok, exists_const, pure_eq_ok, ne_eq,
      not_not] at h
    obtain ⟨was, -, m, closed, rfl⟩ := h
    exact closeOffer_step (by simp) (by simp) was closed
  | expireOffer id =>
    simp only [exec, expireOffer, bind_eq_ok, revertIf_eq_ok, exists_const, pure_eq_ok, ne_eq,
      not_not] at h
    obtain ⟨was, -, m, closed, rfl⟩ := h
    exact closeOffer_step (by simp) (by simp) was closed
  | withdrawCredit sender id token amount recipient =>
    simp only [exec, withdrawCredit, bind_eq_ok] at h
    obtain ⟨-, -, mid, spent, sent⟩ := h
    rw [transferTo_market sent, spendCredit_loans spent]
    exact .rest
  | withdrawAvailableCredit sender id token minReceived recipient =>
    simp only [exec, withdrawAvailableCredit, bind_eq_ok] at h
    obtain ⟨-, -, -, -, -, -, m, debited, paid⟩ := h
    rw [payAvailable_market paid, debitCredit_loans debited]
    exact .rest
  | proposeExtension sender id newDeadline expiresAt =>
    simp only [exec, proposeExtension, bind_eq_ok, pure_eq_ok] at h
    obtain ⟨-, -, -, -, -, -, rfl⟩ := h
    exact .rest
  | acceptExtension sender id nonce oldDeadline newDeadline expiresAt =>
    simp only [exec, acceptExtension, bind_eq_ok, pure_eq_ok] at h
    obtain ⟨-, -, -, -, -, -, dueAt, -, rfl⟩ := h
    rw [extended_step]
    exact .rest
  | cancelExtension sender id nonce =>
    simp only [exec, cancelExtension, bind_eq_ok, pure_eq_ok] at h
    obtain ⟨-, -, -, -, rfl⟩ := h
    exact .rest
  | setNewLoansPaused sender paused =>
    simp only [exec, setNewLoansPaused, bind_eq_ok, pure_eq_ok] at h
    obtain ⟨-, -, rfl⟩ := h
    exact .rest
  | nominateGuardian sender replacement =>
    simp only [exec, nominateGuardian, bind_eq_ok, pure_eq_ok] at h
    obtain ⟨-, -, -, -, rfl⟩ := h
    exact .rest
  | cancelGuardianNomination sender =>
    simp only [exec, cancelGuardianNomination, bind_eq_ok, pure_eq_ok] at h
    obtain ⟨-, -, rfl⟩ := h
    exact .rest
  | acceptGuardian sender =>
    simp only [exec, acceptGuardian, bind_eq_ok, pure_eq_ok] at h
    obtain ⟨-, -, rfl⟩ := h
    exact .rest
  | outside token seconds =>
    rw [exec, pure_eq_ok] at h
    exact h ▸ .rest

theorem deployed_sound (guardian : Address) : (deployed guardian).loans.Sound where
  wellFormed _ := SwapPop.empty_wellFormed
  index_iff a id := by
    simp [deployed, Market.loans, SwapPop.empty, Parties.include, parties, noOffer]
  unused _ _ := rfl

theorem Reachable.sound (h : Reachable w) : w.market.loans.Sound := by
  obtain ⟨start, ops, ⟨guardian, -, -, fresh⟩, run⟩ := h
  refine run.invariant (fun w => w.market.loans.Sound)
    (fun _ _ _ sound step => (exec_step step).sound sound) ?_
  rw [fresh]
  exact deployed_sound guardian

theorem run_later {ops : List Op} (run : Run (accepts exec) w ops w') :
    w.market.loans.Later w'.market.loans :=
  run.relates (fun w w' => w.market.loans.Later w'.market.loans) (fun _ => .refl _)
    (fun _ _ _ => .trans) (fun _ _ _ step => (exec_step step).later)

end Turret.LendingV3
