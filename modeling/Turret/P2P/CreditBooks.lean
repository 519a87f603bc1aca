import Turret.P2P.MarketCalls

/-! The five ledgers of `TurretP2PLendingV3`: offers, credits of each loan,
credits of each account, totals, and the counters of committed principal and
locked collateral. A call turns the record of one loan, and a repayment by
credits those of its sources one after another. -/

namespace Turret.LendingV3

open Execution Finset Function

variable {m m' : Market} {w w' : World} {id amount : ℕ} {token : Token}

/-! ### What an offer holds -/

def openPrincipal (offer : Offer) : ℕ := if offer.status = .open_ then offer.principal else 0

def activeCollateral (offer : Offer) : ℕ :=
  if offer.status = .active then offer.collateralAmount else 0

def commitment (offer : Offer) : ℕ :=
  if offer.status = .open_ ∨ offer.status = .active then offer.principal else 0

/-- What an offer holds of a token. -/
def custody (token : Token) (offer : Offer) : ℕ :=
  match token with
  | .loanToken => openPrincipal offer
  | .collateralToken => activeCollateral offer
  | .other => 0

/-- The ways an offer can go. -/
inductive Status.Next : Status → Status → Prop
  | created : Next .none .open_
  | accepted : Next .open_ .active
  | cancelled : Next .open_ .cancelled
  | expired : Next .open_ .expired
  | repaid : Next .active .repaid
  | defaulted : Next .active .defaulted

/-- No credit of the loan exists in this status. -/
def Status.isUnsettled : Status → Bool
  | .none | .open_ | .active => true
  | .repaid | .defaulted | .cancelled | .expired => false

/-! ### The record of a loan -/

/-- An offer and the credits that remain of it. -/
structure Record where
  offer : Offer
  credits : Token → ℕ

def Market.record (m : Market) (id : ℕ) : Record := ⟨m.offers id, m.loanCredits id⟩

/-- `_beneficiary`, read off the offer. -/
def Record.beneficiary (r : Record) (token : Token) : Address :=
  if token = .loanToken ∧ (r.offer.status = .repaid ∨ r.offer.status = .cancelled ∨
      r.offer.status = .expired) then
    r.offer.lender
  else if token = .collateralToken ∧ r.offer.status = .repaid then r.offer.borrower
  else if token = .collateralToken ∧ r.offer.status = .defaulted then r.offer.lender
  else 0

/-- What a loan still owes an account. -/
def Record.owedTo (token : Token) (a : Address) (r : Record) : ℕ :=
  if r.beneficiary token = a then r.credits token else 0

/-- An unsettled loan has no credits, and no loan has any in a third token. -/
structure Record.Sound (r : Record) : Prop where
  unsettled : r.offer.status.isUnsettled = true → ∀ token, r.credits token = 0
  other_eq : r.credits .other = 0

/-- The books agree. -/
structure Books (m : Market) : Prop where
  fresh : ∀ id, m.nextOfferId ≤ id → (m.offers id).status = .none
  sound : ∀ id, (m.record id).Sound
  committed_eq : m.committedPrincipal =
    ∑ id ∈ range m.nextOfferId, commitment (m.record id).offer
  reserved_eq : m.reservedPrincipal =
    ∑ id ∈ range m.nextOfferId, openPrincipal (m.record id).offer
  locked_eq : m.lockedCollateral =
    ∑ id ∈ range m.nextOfferId, activeCollateral (m.record id).offer
  credits_eq : ∀ token a, m.credits token a =
    ∑ id ∈ range m.nextOfferId, (m.record id).owedTo token a
  totals_eq : ∀ token, m.totalCredits token = ∑ a, m.credits token a

/-- The credits of every token still add up to their total. -/
def Tallied (m m' : Market) : Prop :=
  ∀ token, m'.totalCredits token + ∑ a, m.credits token a =
    m.totalCredits token + ∑ a, m'.credits token a

/-- The record of one loan, new or not, has turned into another, and the counters and credits with
it. -/
structure Turned (id : ℕ) (m m' : Market) : Prop where
  record_eq : m'.record = update m.record id (m'.record id)
  next_eq : id < m.nextOfferId ∧ m'.nextOfferId = m.nextOfferId ∨
    id = m.nextOfferId ∧ m'.nextOfferId = m.nextOfferId + 1
  sound : (m'.record id).Sound
  status : (m'.offers id).status = (m.offers id).status ∨
    (m.offers id).status.Next (m'.offers id).status
  committed : m'.committedPrincipal + commitment (m.offers id) =
    m.committedPrincipal + commitment (m'.offers id)
  reserved : m'.reservedPrincipal + openPrincipal (m.offers id) =
    m.reservedPrincipal + openPrincipal (m'.offers id)
  locked : m'.lockedCollateral + activeCollateral (m.offers id) =
    m.lockedCollateral + activeCollateral (m'.offers id)
  owed : ∀ token a, m'.credits token a + (m.record id).owedTo token a =
    m.credits token a + (m'.record id).owedTo token a
  tallied : Tallied m m'

theorem Record.owedTo_none {r : Record} (h : r.Sound) (none : r.offer.status = .none)
    (token : Token) (a : Address) : r.owedTo token a = 0 := by
  rw [Record.owedTo, h.unsettled (by rw [none]; rfl), ite_self]

theorem Books.turned (h : Books m) (turned : Turned id m m') : Books m' := by
  have total (g : Record → ℕ)
      (none : ∀ r : Record, r.Sound → r.offer.status = .none → g r = 0) :
      (∑ i ∈ range m'.nextOfferId, g (m'.record i)) + g (m.record id) =
        (∑ i ∈ range m.nextOfferId, g (m.record i)) + g (m'.record id) := by
    rw [turned.record_eq, update_self]
    obtain ⟨below, next⟩ | ⟨new, next⟩ := turned.next_eq
    · rw [next]
      exact sum_range_update g m.record below _
    · have blank := none _ (h.sound id) (h.fresh id new.ge)
      rw [next, blank, Nat.add_zero, new]
      exact sum_range_update_next g m.record _ _
  have commitments := total (fun r => commitment r.offer) fun r _ none => by
    simp [commitment, none]
  have reserves := total (fun r => openPrincipal r.offer) fun r _ none => by
    simp [openPrincipal, none]
  have locks := total (fun r => activeCollateral r.offer) fun r _ none => by
    simp [activeCollateral, none]
  have away : ∀ i, i ≠ id → m'.record i = m.record i := fun i ne => by
    rw [turned.record_eq, update_of_ne ne]
  refine
    { fresh := fun i later => ?_
      sound := fun i => ?_
      committed_eq := by have := h.committed_eq; have := turned.committed; simp only [Market.record] at *; omega
      reserved_eq := by have := h.reserved_eq; have := turned.reserved; simp only [Market.record] at *; omega
      locked_eq := by have := h.locked_eq; have := turned.locked; simp only [Market.record] at *; omega
      credits_eq := fun token a => ?_
      totals_eq := fun token => by have := h.totals_eq token; have := turned.tallied token; omega }
  · have ne : i ≠ id := by
      have := turned.next_eq
      omega
    have same : m'.offers i = m.offers i := congrArg Record.offer (away i ne)
    rw [same]
    refine h.fresh i ?_
    have := turned.next_eq
    omega
  · by_cases same : i = id
    · exact same ▸ turned.sound
    · exact away i same ▸ h.sound i
  · have parts := total (Record.owedTo token a) fun r sound none =>
      Record.owedTo_none sound none token a
    have credits := h.credits_eq token a
    have owed := turned.owed token a
    omega

/-! ### Credits -/

theorem record_of_update {o : Offer} {c : Token → ℕ} (offers : m'.offers = update m.offers id o)
    (credits : m'.loanCredits = update m.loanCredits id c) :
    m'.record = update m.record id ⟨o, c⟩ := by
  funext i
  by_cases same : i = id
  · subst same
    simp only [Market.record, offers, credits, update_self]
  · simp only [Market.record, offers, credits, update_of_ne same]

theorem record_of_offer {o : Offer} (offers : m'.offers = update m.offers id o)
    (credits : m'.loanCredits = m.loanCredits) :
    m'.record = update m.record id ⟨o, m.loanCredits id⟩ :=
  record_of_update offers (credits.trans (update_eq_self ..).symm)

theorem credit_credits (token some : Token) (owner a : Address) (amount : ℕ) :
    (credit id token owner amount m).credits some a =
      m.credits some a + if some = token ∧ owner = a then amount else 0 := by
  simp only [credit]
  by_cases same : some = token
  · subst same
    by_cases mine : owner = a
    · subst mine
      simp only [update_self, and_self, if_true]
    · simp only [update_self, update_of_ne (Ne.symm mine), mine, and_false, if_false, Nat.add_zero]
  · simp only [update_of_ne same, same, false_and, if_false, Nat.add_zero]

theorem credit_total (token some : Token) (owner : Address) (amount : ℕ) :
    (credit id token owner amount m).totalCredits some =
      m.totalCredits some + if some = token then amount else 0 := by
  simp only [credit]
  by_cases same : some = token
  · rw [same, update_self, if_pos rfl]
  · rw [update_of_ne same, if_neg same, Nat.add_zero]

theorem Tallied.credit (h : Tallied m m') (token : Token) (owner : Address) (amount : ℕ) :
    Tallied m (credit id token owner amount m') := fun some => by
  have before := h some
  rw [credit_total]
  by_cases same : some = token
  · subst same
    have moved := sum_update_add (m'.credits some) owner (m'.credits some owner + amount)
    simp only [LendingV3.credit, update_self, if_true]
    omega
  · simp only [LendingV3.credit, update_of_ne same, if_neg same, Nat.add_zero]
    exact before

theorem debited_credits (sender a : Address) (some : Token) (covers : Covers sender id token amount m) :
    (debited sender id token amount m).credits some a +
      (if some = token ∧ sender = a then amount else 0) = m.credits some a := by
  simp only [debited]
  have owned := covers.owned
  by_cases same : some = token
  · subst same
    by_cases mine : sender = a
    · subst mine
      simp only [update_self, and_self, if_true]
      omega
    · simp only [update_self, update_of_ne (Ne.symm mine), mine, and_false, if_false, Nat.add_zero]
  · simp only [update_of_ne same, same, false_and, if_false, Nat.add_zero]

/-- A credit spent by its owner turns its loan. -/
theorem debited_turned {sender : Address} (h : Books m) (owner : beneficiary id token m = sender)
    (positive : 0 < amount) (covers : Covers sender id token amount m) :
    Turned id m (debited sender id token amount m) := by
  have claim := covers.claim
  have settled : (m.offers id).status.isUnsettled ≠ true := fun open_ => by
    have none : m.loanCredits id token = 0 := (h.sound id).unsettled open_ token
    omega
  have below : id < m.nextOfferId := by
    by_contra above
    exact settled (by rw [h.fresh id (not_lt.mp above)]; rfl)
  have record : (debited sender id token amount m).record = update m.record id
      ⟨m.offers id, update (m.loanCredits id) token (m.loanCredits id token - amount)⟩ :=
    record_of_update (update_eq_self ..).symm rfl
  have here : (debited sender id token amount m).record id =
      ⟨m.offers id, update (m.loanCredits id) token (m.loanCredits id token - amount)⟩ := by
    rw [record, update_self]
  refine
    { record_eq := here ▸ record
      next_eq := .inl ⟨below, rfl⟩
      sound := ⟨fun open_ => absurd open_ settled, ?_⟩
      status := .inl rfl
      committed := rfl
      reserved := rfl
      locked := rfl
      owed := fun some a => ?_
      tallied := fun some => ?_ }
  · have none : m.loanCredits id .other = 0 := (h.sound id).other_eq
    by_cases same : Token.other = token
    · subst same
      simp only [debited, Market.record, update_self, none, Nat.zero_sub]
    · simp only [debited, Market.record, update_self, update_of_ne same, none]
  · have left := debited_credits sender a some covers
    have before : (m.record id).owedTo some a =
        if beneficiary id some m = a then m.loanCredits id some else 0 := rfl
    have after : ((debited sender id token amount m).record id).owedTo some a =
        if beneficiary id some m = a then
          update (m.loanCredits id) token (m.loanCredits id token - amount) some else 0 := by
      rw [here]
      rfl
    rw [before, after]
    by_cases same : some = token
    · subst same
      rw [owner, update_self]
      by_cases mine : sender = a
      · simp only [mine, if_true, and_self] at left ⊢
        omega
      · simp only [mine, if_false, and_false] at left ⊢
        omega
    · simp only [same, false_and, if_false, update_of_ne same] at left ⊢
      omega
  · by_cases same : some = token
    · subst same
      have moved := sum_update_add (m.credits some) sender (m.credits some sender - amount)
      have owned := covers.owned
      have total := covers.total
      simp only [debited, update_self]
      omega
    · simp only [debited, update_of_ne same]

/-! ### The calls about one loan -/

theorem Books.exists_of_status (h : Books m) (some_ : (m.offers id).status ≠ .none) :
    id < m.nextOfferId := by
  by_contra above
  exact some_ (h.fresh id (not_lt.mp above))

/-- A loan that has had no credits so far. -/
theorem Books.uncredited (h : Books m) (id : ℕ)
    (open_ : (m.offers id).status.isUnsettled = true) : m.loanCredits id = fun _ => 0 :=
  funext fun token => (h.sound id).unsettled open_ token

theorem Record.owedTo_zero (o : Offer) (token : Token) (a : Address) :
    Record.owedTo token a ⟨o, fun _ => 0⟩ = 0 := by
  rw [Record.owedTo, ite_self]

theorem Record.sound_zero (o : Offer) : Record.Sound ⟨o, fun _ => 0⟩ := ⟨fun _ _ => rfl, rfl⟩

/-- A change of an offer that leaves all credits alone. -/
theorem offer_turned {o : Offer} (h : Books m) (open_ : (m.offers id).status.isUnsettled = true)
    (offers : m'.offers = update m.offers id o) (claims : m'.loanCredits = m.loanCredits)
    (credits : m'.credits = m.credits) (totals : m'.totalCredits = m.totalCredits)
    (next_eq : id < m.nextOfferId ∧ m'.nextOfferId = m.nextOfferId ∨
      id = m.nextOfferId ∧ m'.nextOfferId = m.nextOfferId + 1)
    (status : o.status = (m.offers id).status ∨ (m.offers id).status.Next o.status)
    (committed : m'.committedPrincipal + commitment (m.offers id) =
      m.committedPrincipal + commitment o)
    (reserved : m'.reservedPrincipal + openPrincipal (m.offers id) =
      m.reservedPrincipal + openPrincipal o)
    (locked : m'.lockedCollateral + activeCollateral (m.offers id) =
      m.lockedCollateral + activeCollateral o) : Turned id m m' := by
  have none := h.uncredited id open_
  have record := record_of_offer offers claims
  have here : m'.record id = ⟨o, fun _ => 0⟩ := by rw [record, update_self, none]
  have before : m.record id = ⟨m.offers id, fun _ => 0⟩ := by rw [Market.record, none]
  have same : m'.offers id = o := by rw [offers, update_self]
  refine ⟨?_, next_eq, here ▸ Record.sound_zero o, same ▸ status, same ▸ committed,
    same ▸ reserved, same ▸ locked, fun token a => ?_, fun token => ?_⟩
  · rw [here, record, none]
  · rw [here, before, Record.owedTo_zero, Record.owedTo_zero, credits]
  · rw [credits, totals]

theorem created_turned (sender vault borrower : Address)
    (principal collateralAmount interest duration expiresAt : ℕ) (h : Books w.market) :
    Turned w.market.nextOfferId w.market
      (created sender vault borrower principal collateralAmount interest duration expiresAt w) := by
  obtain ⟨offers, -, next, committed, reserved, locked, claims, credits, totals, -, -⟩ :=
    created_frame sender vault borrower principal collateralAmount interest duration expiresAt w
  have none := h.fresh _ le_rfl
  refine offer_turned h (by rw [none]; rfl) offers claims credits totals (.inr ⟨rfl, next⟩)
    (.inr (none ▸ .created)) ?_ ?_ ?_
  · simp only [committed, commitment, none]
    simp
  · simp only [reserved, openPrincipal, none]
    simp
  · simp only [locked, activeCollateral, none]
    simp

theorem takenBy_turned {sender : Address} (h : Books w.market)
    (was : (w.market.offers id).status = .open_)
    (reserved : (w.market.offers id).principal ≤ w.market.reservedPrincipal) :
    Turned id w.market (takenBy sender id w) := by
  have below := h.exists_of_status (by rw [was]; decide)
  refine offer_turned h (by rw [was]; rfl) rfl rfl rfl rfl (.inl ⟨below, rfl⟩)
    (.inr (was ▸ .accepted)) ?_ ?_ ?_
  · simp [takenBy, remembered, setOffer, addActive, commitment, was]
  · simp [takenBy, remembered, setOffer, addActive, openPrincipal, was]
    omega
  · simp [takenBy, remembered, setOffer, addActive, activeCollateral, was]

theorem acceptExtension_turned {dueAt : ℕ} {proposals : ℕ → ExtensionProposal} (h : Books m)
    (active : (m.offers id).status = .active) :
    Turned id m (setOffer id { m.offers id with dueAt }
      { m with extensionProposals := proposals }) := by
  have below := h.exists_of_status (by rw [active]; decide)
  exact offer_turned h (by rw [active]; rfl) rfl rfl rfl rfl (.inl ⟨below, rfl⟩) (.inl rfl) rfl rfl
    rfl

/-- The end of an offer: its status changes for good, and `c` is owed to its beneficiaries. -/
theorem ended_turned {status : Status} {c : Token → ℕ} (h : Books m)
    (open_ : (m.offers id).status.isUnsettled = true) (next : (m.offers id).status.Next status)
    (settled : status.isUnsettled = false) (none : c .other = 0)
    (offers : m'.offers = update m.offers id { m.offers id with status })
    (claims : m'.loanCredits = update m.loanCredits id c) (next_eq : m'.nextOfferId = m.nextOfferId)
    (committed : m'.committedPrincipal + commitment (m.offers id) = m.committedPrincipal)
    (reserved : m'.reservedPrincipal + openPrincipal (m.offers id) = m.reservedPrincipal)
    (locked : m'.lockedCollateral + activeCollateral (m.offers id) = m.lockedCollateral)
    (owed : ∀ token a, m'.credits token a = m.credits token a +
      Record.owedTo token a ⟨{ m.offers id with status }, c⟩) (tallied : Tallied m m') :
    Turned id m m' := by
  have below : id < m.nextOfferId := by
    refine h.exists_of_status fun none => ?_
    rw [none] at next
    cases next
    simp [Status.isUnsettled] at settled
  have record := record_of_update offers claims
  have here : m'.record id = ⟨{ m.offers id with status }, c⟩ := by rw [record, update_self]
  have before : m.record id = ⟨m.offers id, fun _ => 0⟩ := by rw [Market.record, h.uncredited id open_]
  have same : m'.offers id = { m.offers id with status } := by rw [offers, update_self]
  have past : status ≠ .open_ ∧ status ≠ .active := by
    constructor <;> rintro rfl <;> cases settled
  refine ⟨?_, .inl ⟨below, next_eq⟩, ?_, ?_, ?_, ?_, ?_, fun token a => ?_, tallied⟩
  · rw [here]
    exact record
  · rw [here]
    exact ⟨fun unsettled => absurd unsettled (by simp [settled]), none⟩
  · rw [same]
    exact .inr next
  · simpa [same, commitment, past] using committed
  · simpa [same, openPrincipal, past] using reserved
  · simpa [same, activeCollateral, past] using locked
  · rw [here, before, Record.owedTo_zero, Nat.add_zero, owed]

theorem closedOffer_turned {status : Status} (h : Books m) (was : (m.offers id).status = .open_)
    (ended : status = .cancelled ∨ status = .expired)
    (committed : (m.offers id).principal ≤ m.committedPrincipal)
    (reserved : (m.offers id).principal ≤ m.reservedPrincipal) :
    Turned id m (closedOffer id status m) := by
  have none := h.uncredited id (by rw [was]; rfl)
  refine ended_turned (c := update (fun _ => 0) .loanToken (m.offers id).principal) h
    (by rw [was]; rfl) ?_ ?_ rfl rfl ?_ rfl ?_ ?_ ?_ (fun token a => ?_) ?_
  · rw [was]
    obtain rfl | rfl := ended
    · exact .cancelled
    · exact .expired
  · obtain rfl | rfl := ended <;> rfl
  · simp only [closedOffer, credit, setOffer, none, Nat.zero_add]
  · simp [closedOffer, credit, commitment, was]
    omega
  · simp [closedOffer, credit, openPrincipal, was]
    omega
  · simp [closedOffer, credit, setOffer, activeCollateral, was]
  · rw [closedOffer, credit_credits]
    obtain rfl | rfl := ended <;> cases token <;>
      simp [Record.owedTo, Record.beneficiary, setOffer, eq_comm]
  · refine Tallied.credit ?_ _ _ _
    exact fun _ => rfl

theorem repaidLoan_turned {repayment : ℕ} {active : Address → SwapPop ℕ} (h : Books m)
    (ends : Ends id m active) : Turned id m (repaidLoan id repayment active m) := by
  have was := ends.was
  have committed := ends.committed
  have locked := ends.locked
  have none := h.uncredited id (by rw [was]; rfl)
  refine ended_turned (c := update (update (fun _ => 0) .loanToken repayment) .collateralToken
    (m.offers id).collateralAmount) h (by rw [was]; rfl) (was ▸ .repaid) rfl rfl rfl ?_ rfl ?_ ?_
    ?_ (fun token a => ?_) ?_
  · simp [repaidLoan, endedLoan, bumpRevision, credit, setOffer, none]
  · simp [repaidLoan, endedLoan, bumpRevision, credit, setOffer, commitment, was]
    omega
  · simp [repaidLoan, endedLoan, bumpRevision, credit, setOffer, openPrincipal, was]
  · simp [repaidLoan, endedLoan, bumpRevision, credit, setOffer, activeCollateral, was]
    omega
  · rw [repaidLoan, credit_credits, credit_credits]
    cases token <;>
      simp [Record.owedTo, Record.beneficiary, endedLoan, bumpRevision, setOffer, eq_comm]
  · refine Tallied.credit (Tallied.credit ?_ _ _ _) _ _ _
    exact fun _ => rfl

theorem defaultedLoan_turned {active : Address → SwapPop ℕ} (h : Books m)
    (ends : Ends id m active) : Turned id m (defaultedLoan id active m) := by
  have was := ends.was
  have committed := ends.committed
  have locked := ends.locked
  have none := h.uncredited id (by rw [was]; rfl)
  refine ended_turned (c := update (fun _ => 0) .collateralToken (m.offers id).collateralAmount) h
    (by rw [was]; rfl) (was ▸ .defaulted) rfl rfl rfl ?_ rfl ?_ ?_ ?_ (fun token a => ?_) ?_
  · simp [defaultedLoan, endedLoan, bumpRevision, credit, setOffer, none]
  · simp [defaultedLoan, endedLoan, bumpRevision, credit, setOffer, commitment, was]
    omega
  · simp [defaultedLoan, endedLoan, bumpRevision, credit, setOffer, openPrincipal, was]
  · simp [defaultedLoan, endedLoan, bumpRevision, credit, setOffer, activeCollateral, was]
    omega
  · rw [defaultedLoan, credit_credits]
    cases token <;>
      simp [Record.owedTo, Record.beneficiary, endedLoan, bumpRevision, setOffer, eq_comm]
  · refine Tallied.credit ?_ _ _ _
    exact fun _ => rfl

/-! ### Every call -/

/-- The books agree afterwards, and every offer has gone on as offers do. -/
structure Leads (m m' : Market) : Prop where
  books : Books m'
  status : ∀ id, Relation.ReflTransGen Status.Next (m.offers id).status (m'.offers id).status

theorem Leads.trans {m'' : Market} (h : Leads m m') (k : Leads m' m'') : Leads m m'' :=
  ⟨k.books, fun id => (h.status id).trans (k.status id)⟩

theorem Books.leads (h : Books m) : Leads m m := ⟨h, fun _ => .refl⟩

theorem Books.leads_turned (h : Books m) (turned : Turned id m m') : Leads m m' := by
  refine ⟨h.turned turned, fun i => ?_⟩
  by_cases same : i = id
  · subst same
    obtain kept | next := turned.status
    · rw [kept]
    · exact .single next
  · have kept : m'.record i = m.record i := by rw [turned.record_eq, update_of_ne same]
    have offers : m'.offers i = m.offers i := congrArg Record.offer kept
    rw [offers]

/-- A change of what the books are not about. -/
theorem Books.leads_kept (h : Books m) (record : m'.record = m.record)
    (next : m'.nextOfferId = m.nextOfferId) (committed : m'.committedPrincipal = m.committedPrincipal)
    (reserved : m'.reservedPrincipal = m.reservedPrincipal)
    (locked : m'.lockedCollateral = m.lockedCollateral) (credits : m'.credits = m.credits)
    (totals : m'.totalCredits = m.totalCredits) : Leads m m' := by
  have offers : ∀ i, m'.offers i = m.offers i := fun i => congrArg Record.offer (congrFun record i)
  refine ⟨⟨fun i later => ?_, fun i => ?_, ?_, ?_, ?_, fun token a => ?_, fun token => ?_⟩,
    fun i => ?_⟩
  · rw [offers]
    exact h.fresh i (next ▸ later)
  · rw [record]
    exact h.sound i
  · rw [committed, record, next, h.committed_eq]
  · rw [reserved, record, next, h.reserved_eq]
  · rw [locked, record, next, h.locked_eq]
  · rw [credits, record, next, h.credits_eq]
  · rw [credits, totals, h.totals_eq]
  · rw [offers]

/-- Each source turns in its turn. -/
theorem spendSources_leads {sender target : Address} {sources : List (ℕ × ℕ)}
    (h : Books w.market) (done : spendSources sender target sources w = .ok w') :
    Leads w.market w'.market := by
  induction sources generalizing w with
  | nil =>
    rw [spendSources, pure_eq_ok] at done
    exact done ▸ h.leads
  | cons source rest ih =>
    simp only [spendSources, bind_eq_ok, spendCredit_eq_ok, transferTo_eq_ok] at done
    obtain ⟨_, ⟨spendable, rfl⟩, _, ⟨t, -, rfl⟩, done⟩ := done
    have first := h.leads_turned (debited_turned h spendable.owner spendable.positive
      spendable.covers)
    exact first.trans (ih first.books done)

theorem exec_leads {op : Op} (h : Books w.market) (done : exec op w = .ok w') :
    Leads w.market w'.market := by
  cases exec_accepted done with
  | createOffer => exact h.leads_turned (created_turned _ _ _ _ _ _ _ _ h)
  | acceptOffer sender id c t was other reserved =>
    exact h.leads_turned (takenBy_turned h was reserved)
  | cancelOffer id was committed reserved =>
    exact h.leads_turned (closedOffer_turned h was (.inl rfl) committed reserved)
  | expireOffer id was late committed reserved =>
    exact h.leads_turned (closedOffer_turned h was (.inr rfl) committed reserved)
  | repay sender id t active inTime pulled ends => exact h.leads_turned (repaidLoan_turned h ends)
  | repayWithCredits sender id sourceIds sourceAmounts walletAmount mid paid active was inTime
      sourced spent pulled arrived ends =>
    have spends := spendSources_leads h spent
    rw [(pullWallet_frame pulled).2.2] at ends ⊢
    exact spends.trans (spends.books.leads_turned (repaidLoan_turned spends.books ends))
  | claimDefault id active late ends => exact h.leads_turned (defaultedLoan_turned h ends)
  | withdrawCredit sender id token amount recipient t away spendable =>
    exact h.leads_turned (debited_turned h spendable.owner spendable.positive spendable.covers)
  | withdrawAvailableCredit id token minReceived recipient token' away some_ covers =>
    exact h.leads_turned (debited_turned h rfl some_ covers)
  | acceptExtension sender id active => exact h.leads_turned (acceptExtension_turned h active)
  | proposeExtension | cancelExtension | setNewLoansPaused | nominateGuardian
  | cancelGuardianNomination | acceptGuardian | outside =>
    exact h.leads_kept rfl rfl rfl rfl rfl rfl rfl

theorem Deployed.books (h : Deployed w) : Books w.market := by
  obtain ⟨guardian, -, -, empty⟩ := h
  rw [empty]
  exact
    { fresh := fun _ _ => rfl
      sound := fun _ => Record.sound_zero _
      committed_eq := rfl
      reserved_eq := rfl
      locked_eq := rfl
      credits_eq := fun token a => (sum_eq_zero fun id _ => Record.owedTo_zero _ token a).symm
      totals_eq := fun _ => (sum_eq_zero fun _ _ => rfl).symm }

theorem run_leads {ops : List Op} (passed : Run (accepts exec) w ops w') (h : Books w.market) :
    Leads w.market w'.market := by
  induction passed with
  | nil => exact h.leads
  | cons first _ ih =>
    have here := exec_leads h first
    exact here.trans (ih here.books)

/-- The books of every reachable state agree, and from there on every offer only goes forward. -/
theorem market_books_exact {start : World} {ops : List Op} (fresh : Deployed start)
    (passed : Run (accepts exec) start ops w) :
    Books w.market ∧ ∀ later w', Run (accepts exec) w later w' → ∀ id,
      Relation.ReflTransGen Status.Next (w.market.offers id).status
        (w'.market.offers id).status := by
  have books := (run_leads passed fresh.books).books
  exact ⟨books, fun _ _ later => (run_leads later books).status⟩

/-! A sample: of two loans between the same parties one is repaid, and the vault of the other is
emptied from outside. -/

def ledgerStart : World where
  self := 100
  now := 1000
  token _ := ⟨fun a => if a = 2 ∨ a = 3 then 1000 else 0,
    fun a spender => if (a = 2 ∨ a = 3) ∧ spender = 100 then 1000 else 0⟩
  market := deployed 1

/-- The collateral of the second vault is gone. -/
def ledgerDrained (w : World) (token : Token) : TokenLedger Address :=
  { w.token token with
    balanceOf := if token = .collateralToken then update (w.token token).balanceOf 12 0
      else (w.token token).balanceOf }

def ledgerLoans : List Op :=
  [ .createOffer 2 11 0 100 20 5 86400 5000, .createOffer 2 12 3 100 20 5 86400 5000,
    .acceptOffer 3 1, .acceptOffer 3 2 ]

def ledgerMid : World := reached ledgerStart (execAll exec ledgerLoans ledgerStart)

def ledgerEnd : List Op := [.outside (ledgerDrained ledgerMid) 10, .repay 3 1]

def ledgerSample : World := reached ledgerStart (execAll exec ledgerEnd ledgerMid)

theorem ledgerStart_deployed : Deployed ledgerStart := ⟨1, by decide, by decide, rfl⟩

theorem sample_books : Books ledgerSample.market :=
  (market_books_exact ledgerStart_deployed ((run_of_execAll (eq_ok_reached ledgerStart
    (x := execAll exec ledgerLoans ledgerStart) (by decide +kernel))).append
      (run_of_execAll (eq_ok_reached ledgerStart (by decide +kernel))))).1

end Turret.LendingV3
