import Turret.P2P.CreditBooks

/-! The vaults of `TurretP2PLendingV3` one by one. Others may drain or fill any
vault from outside; the vault of a loan that is left alone still holds all that
the loan owes. A new vault is a new contract: nobody's account and no earlier
vault has its address, and vaults make no calls of their own. -/

namespace Turret.LendingV3

open Execution Finset Function

variable {w w' : World} {id amount : ℕ} {token : Token} {src dst : Address}

/-! ### What a vault holds and owes -/

/-- What the vault of a loan holds. -/
def World.held (id : ℕ) (token : Token) (w : World) : ℕ :=
  (w.token token).balanceOf (w.market.vaults id)

/-- What the vault of a loan owes: the principal while open, the collateral while active, and the
remaining credits afterwards. -/
def Record.liability (token : Token) (r : Record) : ℕ := custody token r.offer + r.credits token

def Covered (id : ℕ) (w : World) : Prop :=
  ∀ token, (w.market.record id).liability token ≤ w.held id token

def Created (id : ℕ) (w : World) : Prop := (w.market.offers id).status ≠ .none

/-- Every loan has a vault of its own. -/
structure Separate (w : World) : Prop where
  apart : ∀ i j, Created i w → Created j w → w.market.vaults i = w.market.vaults j → i = j
  vault_ne : ∀ i, Created i w → w.market.vaults i ≠ 0

/-! ### Who calls, and about what -/

def Op.sender : Op → Option Address
  | .createOffer sender .. | .acceptOffer sender _ | .cancelOffer sender _ | .repay sender _
  | .repayWithCredits sender .. | .withdrawCredit sender .. | .withdrawAvailableCredit sender ..
  | .proposeExtension sender .. | .acceptExtension sender .. | .cancelExtension sender ..
  | .setNewLoansPaused sender _ | .nominateGuardian sender _ | .cancelGuardianNomination sender
  | .acceptGuardian sender => some sender
  | .expireOffer _ | .claimDefault _ | .outside .. => none

def Op.newVault : Op → Option Address
  | .createOffer _ vault .. => some vault
  | _ => none

/-- The loan a call is about. -/
def Op.subject (op : Op) (w : World) : Option ℕ :=
  match op with
  | .createOffer .. => some w.market.nextOfferId
  | .acceptOffer _ id | .cancelOffer _ id | .expireOffer id | .repay _ id
  | .repayWithCredits _ id .. | .claimDefault id | .withdrawCredit _ id ..
  | .withdrawAvailableCredit _ id .. | .proposeExtension _ id .. | .acceptExtension _ id ..
  | .cancelExtension _ id _ => some id
  | .setNewLoansPaused .. | .nominateGuardian .. | .cancelGuardianNomination _ | .acceptGuardian _
  | .outside .. => none

/-- No vault calls, and a new vault is new. -/
structure Lawful (op : Op) (w : World) : Prop where
  sender_away : ∀ i < w.market.nextOfferId, Created i w → op.sender ≠ some (w.market.vaults i)
  vault_ne : op.newVault ≠ some 0
  vault_away : op.newVault ≠ none → op.newVault ≠ op.sender
  vault_new : ∀ i < w.market.nextOfferId, Created i w → op.newVault ≠ some (w.market.vaults i)

instance (id : ℕ) (w : World) : Decidable (Created id w) := inferInstanceAs (Decidable (_ ≠ _))

instance (op : Op) (w : World) : Decidable (Lawful op w) :=
  decidable_of_iff (_ ∧ _ ∧ _ ∧ _)
    ⟨fun h => ⟨h.1, h.2.1, h.2.2.1, h.2.2.2⟩, fun h => ⟨h.1, h.2, h.3, h.4⟩⟩

/-- What happens outside takes nothing from the vault of the loan. -/
def Undrained (id : ℕ) (op : Op) (w : World) : Prop :=
  ∀ tokens seconds, op = .outside tokens seconds → Created id w →
    ∀ token, w.held id token ≤ (tokens token).balanceOf (w.market.vaults id)

/-- A call by anyone but a vault, or what happens outside. -/
def Lawfully (w : World) (op : Op) (w' : World) : Prop := exec op w = .ok w' ∧ Lawful op w

/-- One that leaves the vault of the loan alone. -/
def Observed (id : ℕ) (w : World) (op : Op) (w' : World) : Prop :=
  Lawfully w op w' ∧ Undrained id op w

/-! ### One loan's vault -/

/-- A call about one loan: the other vaults lose nothing, and its own still holds what it owes. -/
structure Stays (id : ℕ) (w w' : World) : Prop where
  turned : Turned id w.market w'.market
  vaults_eq : ∀ i, Created i w → w'.market.vaults i = w.market.vaults i
  others : ∀ i, Created i w → i ≠ id → ∀ token, w.held i token ≤ w'.held i token
  own : Covered id w → Covered id w'

theorem covered_of_none (h : Books w.market) (none : ¬Created id w) : Covered id w := fun token => by
  have blank : (w.market.offers id).status = .none := not_not.mp none
  have empty : (w.market.record id).liability token = 0 := by
    have credits := congrFun (h.uncredited id (by rw [blank]; rfl)) token
    cases token <;>
      simp [Record.liability, Market.record, custody, openPrincipal, activeCollateral, blank,
        credits]
  rw [empty]
  exact Nat.zero_le _

theorem Stays.covered {i : ℕ} (h : Books w.market) (stays : Stays id w w') (covered : Covered i w) :
    Covered i w' := by
  by_cases same : i = id
  · exact same ▸ stays.own (same ▸ covered)
  · have record : w'.market.record i = w.market.record i := by
      rw [stays.turned.record_eq, update_of_ne same]
    by_cases created : Created i w
    · intro token
      rw [record]
      exact (covered token).trans (stays.others i created same token)
    · refine covered_of_none (h.turned stays.turned) ?_
      have offers : w'.market.offers i = w.market.offers i := congrArg Record.offer record
      rwa [Created, offers]

/-- A loan that was there before. -/
theorem Turned.created_of (turned : Turned id w.market w'.market) (there : Created id w) {i : ℕ}
    (created : Created i w') : Created i w := by
  by_cases same : i = id
  · exact same ▸ there
  · have record : w'.market.record i = w.market.record i := by
      rw [turned.record_eq, update_of_ne same]
    have offers : w'.market.offers i = w.market.offers i := congrArg Record.offer record
    rwa [Created, offers] at created

theorem Stays.separate (h : Separate w) (stays : Stays id w w') (there : Created id w) :
    Separate w' where
  apart i j ci cj same := by
    have ci := stays.turned.created_of there ci
    have cj := stays.turned.created_of there cj
    rw [stays.vaults_eq i ci, stays.vaults_eq j cj] at same
    exact h.apart i j ci cj same
  vault_ne i ci := by
    have ci := stays.turned.created_of there ci
    rw [stays.vaults_eq i ci]
    exact h.vault_ne i ci

/-! ### Payments in and out of a vault -/

section Payments

variable {f : Token → TokenLedger Address} {t : TokenLedger Address}

open P2PVault (Moved)

/-- Only the payer can end with less. -/
theorem paid_le (moved : Moved src dst amount (f token) t) {a : Address} (away : a ≠ src)
    (some : Token) : (f some).balanceOf a ≤ (update f token t some).balanceOf a := by
  by_cases same : some = token
  · subst same
    rw [update_self]
    exact moved.others a away
  · rw [update_of_ne same]

theorem paid_dst (moved : Moved src dst amount (f token) t) :
    (update f token t token).balanceOf dst = (f token).balanceOf dst + amount := by
  rw [update_self]
  exact moved.dst_eq

theorem paid_src (moved : Moved src dst amount (f token) t) (some : Token) :
    (update f token t some).balanceOf src + (if some = token then amount else 0) =
      (f some).balanceOf src := by
  by_cases same : some = token
  · subst same
    rw [update_self, if_pos rfl]
    exact moved.src_eq
  · rw [update_of_ne same, if_neg same, Nat.add_zero]

end Payments

/-! ### The calls about one loan -/

section Calls

variable {m' : Market} {t : TokenLedger Address}

/-- Nothing is paid. -/
theorem stays_of_unpaid (turned : Turned id w.market m') (vaults : m'.vaults = w.market.vaults)
    (liable : ∀ token, (m'.record id).liability token ≤ (w.market.record id).liability token) :
    Stays id w { w with market := m' } where
  turned := turned
  vaults_eq _ _ := congrFun vaults _
  others i _ _ token := by simp only [World.held, vaults, le_refl]
  own covered token := by
    simp only [World.held, vaults]
    exact (liable token).trans (covered token)

/-- Something is paid into the vault. -/
theorem stays_of_received (turned : Turned id w.market m') (vaults : m'.vaults = w.market.vaults)
    (away : ∀ i, Created i w → w.market.vaults i ≠ src) (there : Created id w)
    (moved : P2PVault.Moved src (w.market.vaults id) amount (w.token token) t)
    (liable : ∀ some, (m'.record id).liability some ≤
      (w.market.record id).liability some + if some = token then amount else 0) :
    Stays id w { w with token := update w.token token t, market := m' } where
  turned := turned
  vaults_eq _ _ := congrFun vaults _
  others i created _ some := by
    simp only [World.held, vaults]
    exact paid_le moved (away i created) some
  own covered some := by
    have before := covered some
    have after := liable some
    simp only [World.held, vaults] at before ⊢
    by_cases same : some = token
    · subst same
      have gained := paid_dst moved
      rw [if_pos rfl] at after
      omega
    · have kept := paid_le moved (away id there) some
      rw [if_neg same] at after
      omega

/-- The vault pays, and owes that much less. -/
theorem stays_of_sent (separate : Separate w) (there : Created id w)
    (turned : Turned id w.market m') (vaults : m'.vaults = w.market.vaults)
    (moved : P2PVault.Moved (w.market.vaults id) dst amount (w.token token) t)
    (liable : ∀ some, (m'.record id).liability some + (if some = token then amount else 0) ≤
      (w.market.record id).liability some ∨ (m'.record id).liability some = 0) :
    Stays id w { w with token := update w.token token t, market := m' } where
  turned := turned
  vaults_eq _ _ := congrFun vaults _
  others i created ne some := by
    simp only [World.held, vaults]
    exact paid_le moved (fun same => ne (separate.apart i id created there same)) some
  own covered some := by
    have before := covered some
    have left := paid_src moved some
    simp only [World.held, vaults] at before ⊢
    obtain less | none := liable some
    · omega
    · rw [none]
      exact Nat.zero_le _

theorem takenBy_stays {sender : Address} {c t : TokenLedger Address} (h : Books w.market)
    (separate : Separate w) (away : ∀ i, Created i w → w.market.vaults i ≠ sender)
    (was : (w.market.offers id).status = .open_)
    (reserved : (w.market.offers id).principal ≤ w.market.reservedPrincipal)
    (pulled : P2PVault.pullExact w.self sender (w.market.vaults id)
      (w.market.offers id).collateralAmount (w.token .collateralToken) = .ok c)
    (sent : P2PVault.transferTo (w.market.vaults id) sender (w.market.offers id).principal
      (w.token .loanToken) = .ok t) :
    Stays id w
      { w with
        token := update (update w.token .collateralToken c) .loanToken t
        market := takenBy sender id w } := by
  have there : Created id w := by rw [Created, was]; decide
  have into := P2PVault.pullExact_moved (Ne.symm (away id there)) pulled
  have out := P2PVault.transferTo_moved sent
  have credits := h.uncredited id (by rw [was]; rfl)
  have vaults : (takenBy sender id w).vaults = w.market.vaults := rfl
  have apart : ∀ i, Created i w → i ≠ id → w.market.vaults i ≠ w.market.vaults id :=
    fun i created ne same => ne (separate.apart i id created there same)
  have out' : P2PVault.Moved (w.market.vaults id) sender (w.market.offers id).principal
      (update w.token .collateralToken c .loanToken) t := by
    rwa [update_of_ne (by decide)]
  refine ⟨takenBy_turned h was reserved, fun _ _ => rfl, fun i created ne some => ?_,
    fun covered some => ?_⟩
  · simp only [World.held, vaults]
    exact (paid_le into (away i created) some).trans (paid_le out' (apart i created ne) some)
  · simp only [World.held, vaults]
    cases some with
    | loanToken =>
      simp [Record.liability, Market.record, takenBy, remembered, setOffer, addActive, custody,
        openPrincipal, credits]
    | collateralToken =>
      have gained := paid_dst into
      rw [update_of_ne (by decide), gained]
      simp [Record.liability, Market.record, takenBy, remembered, setOffer, addActive, custody,
        activeCollateral, credits]
    | other =>
      simp [Record.liability, Market.record, takenBy, remembered, setOffer, addActive, custody,
        credits]

theorem closedOffer_liability {status : Status} (h : Books w.market)
    (was : (w.market.offers id).status = .open_) (ended : status = .cancelled ∨ status = .expired) :
    ((closedOffer id status w.market).record id).liability token ≤
      (w.market.record id).liability token := by
  have credits := h.uncredited id (by rw [was]; rfl)
  obtain rfl | rfl := ended <;> cases token <;>
    simp [Record.liability, Market.record, closedOffer, credit, setOffer, custody, openPrincipal,
      activeCollateral, credits, was]

theorem repaidLoan_liability {active : Address → SwapPop ℕ} {m : Market} (repayment : ℕ)
    (h : Books m) (ends : Ends id m active) (some : Token) :
    ((repaidLoan id repayment active m).record id).liability some ≤
      (m.record id).liability some + if some = .loanToken then repayment else 0 := by
  have was := ends.was
  have credits := h.uncredited id (by rw [was]; rfl)
  cases some <;>
    simp [Record.liability, Market.record, repaidLoan, endedLoan, bumpRevision, credit, setOffer,
      custody, openPrincipal, activeCollateral, credits, was]

theorem defaultedLoan_liability {active : Address → SwapPop ℕ} (h : Books w.market)
    (ends : Ends id w.market active) :
    ((defaultedLoan id active w.market).record id).liability token ≤
      (w.market.record id).liability token := by
  have was := ends.was
  have credits := h.uncredited id (by rw [was]; rfl)
  cases token <;>
    simp [Record.liability, Market.record, defaultedLoan, endedLoan, bumpRevision, credit, setOffer,
      custody, openPrincipal, activeCollateral, credits, was]

/-- A settled loan holds nothing beside its credits. -/
theorem custody_settled {offer : Offer} (settled : offer.status.isUnsettled = false)
    (token : Token) : custody token offer = 0 := by
  cases token <;> cases status : offer.status <;>
    simp_all [custody, openPrincipal, activeCollateral, Status.isUnsettled]

/-- Credits are left of settled loans only. -/
theorem Books.settled_of_claim {m : Market} (h : Books m) (some_ : 0 < m.loanCredits id token) :
    (m.offers id).status.isUnsettled = false := by
  rw [Bool.eq_false_iff]
  intro open_
  have none : m.loanCredits id token = 0 := (h.sound id).unsettled open_ token
  omega

theorem created_of_settled (settled : (w.market.offers id).status.isUnsettled = false) :
    Created id w := fun none => by
  rw [none] at settled
  cases settled

theorem debited_liability (sender : Address) (h : Books w.market)
    (positive : 0 < amount) (claim : amount ≤ w.market.loanCredits id token) (some : Token) :
    ((debited sender id token amount w.market).record id).liability some +
      (if some = token then amount else 0) = (w.market.record id).liability some := by
  have none := custody_settled (h.settled_of_claim (positive.trans_le claim)) some
  simp only [Record.liability, Market.record, debited, none, update_self, Nat.zero_add]
  by_cases same : some = token
  · subst same
    rw [update_self, if_pos rfl, Nat.sub_add_cancel claim]
  · rw [update_of_ne same, if_neg same, Nat.add_zero]

theorem spent_stays {sender : Address} (h : Books w.market) (separate : Separate w)
    (spendable : Spendable sender id token amount w)
    (sent : Sends (w.market.vaults id) token dst amount w t) :
    Created id w ∧ Stays id w
      { w with
        token := update w.token token t
        market := debited sender id token amount w.market } := by
  have claim := spendable.covers.claim
  have settled := h.settled_of_claim (spendable.positive.trans_le claim)
  have there := created_of_settled settled
  exact ⟨there, stays_of_sent separate there
    (debited_turned h spendable.owner spendable.positive spendable.covers) rfl
    (P2PVault.transferTo_moved sent.2)
    fun some => .inl (debited_liability _ h spendable.positive claim some).le⟩

end Calls

/-! ### Every call -/

/-- The call repays by a credit of `i` that its caller owns. -/
def Spends (op : Op) (i : ℕ) (token : Token) (w : World) : Prop :=
  token = .loanToken ∧ ∃ id ids amounts wallet amount,
    op = .repayWithCredits (beneficiary i .loanToken w.market) id ids amounts wallet ∧
      (i, amount) ∈ ids.zip amounts

/-- The vaults after a call. -/
structure Isolated (op : Op) (w w' : World) : Prop where
  separate : Separate w'
  covered : ∀ i, Covered i w → Covered i w'
  others : ∀ i, Created i w → op.subject w ≠ some i → ∀ token,
    w'.held i token < w.held i token → Spends op i token w

variable {op : Op}

theorem Stays.isolated (h : Books w.market) (separate : Separate w) (there : Created id w)
    (about : op.subject w = some id) (stays : Stays id w w') : Isolated op w w' where
  separate := stays.separate separate there
  covered _ covered := stays.covered h covered
  others i created apart token less := by
    have ne : i ≠ id := fun same => apart (same ▸ about)
    have kept := stays.others i created ne token
    omega

/-- A call that changes neither the records nor the vaults. -/
theorem isolated_of_same (separate : Separate w) (record : w'.market.record = w.market.record)
    (vaults : w'.market.vaults = w.market.vaults) (tokens : w'.token = w.token) :
    Isolated op w w' where
  separate :=
    { apart := fun i j ci cj same => by
        have offers : ∀ k, w'.market.offers k = w.market.offers k := fun k =>
          congrArg Record.offer (congrFun record k)
        rw [Created, offers] at ci cj
        rw [vaults] at same
        exact separate.apart i j ci cj same
      vault_ne := fun i ci => by
        have offers : w'.market.offers i = w.market.offers i :=
          congrArg Record.offer (congrFun record i)
        rw [Created, offers] at ci
        rw [vaults]
        exact separate.vault_ne i ci }
  covered i covered token := by
    simp only [World.held, record, vaults, tokens]
    exact covered token
  others i _ _ token less := by
    simp only [World.held, vaults, tokens, lt_irrefl] at less

theorem createOffer_isolated {sender vault borrower : Address}
    {principal collateralAmount interest duration expiresAt : ℕ} {t : TokenLedger Address}
    (h : Books w.market) (separate : Separate w)
    (lawful : Lawful (.createOffer sender vault borrower principal collateralAmount interest
      duration expiresAt) w)
    (pulled : P2PVault.pullExact w.self sender vault principal (w.token .loanToken) = .ok t) :
    Isolated (.createOffer sender vault borrower principal collateralAmount interest duration
        expiresAt) w
      { w with
        token := update w.token .loanToken t
        market := created sender vault borrower principal collateralAmount interest duration
          expiresAt w } := by
  obtain ⟨offers, vaults, -, -, -, -, claims, -, -, -, -⟩ :=
    created_frame sender vault borrower principal collateralAmount interest duration expiresAt w
  have turned := created_turned sender vault borrower principal collateralAmount interest duration
    expiresAt h
  have none := h.fresh _ le_rfl
  have moved := P2PVault.pullExact_moved
    (fun same => lawful.vault_away (by simp [Op.newVault]) (congrArg some same.symm)) pulled
  have away : ∀ i, Created i w → w.market.vaults i ≠ sender := fun i there same =>
    lawful.sender_away i (h.exists_of_status there) there (congrArg some same.symm)
  have before : ∀ i, Created i w → i ≠ w.market.nextOfferId := fun i there same =>
    there (by rw [same, none])
  have created_iff : ∀ i, i ≠ w.market.nextOfferId →
      (created sender vault borrower principal collateralAmount interest duration expiresAt
        w).offers i = w.market.offers i := fun i ne => by rw [offers, update_of_ne ne]
  have vault_of : ∀ i, i ≠ w.market.nextOfferId →
      (created sender vault borrower principal collateralAmount interest duration expiresAt
        w).vaults i = w.market.vaults i := fun i ne => by rw [vaults, update_of_ne ne]
  have vault_next : (created sender vault borrower principal collateralAmount interest duration
      expiresAt w).vaults w.market.nextOfferId = vault := by rw [vaults, update_self]
  refine ⟨⟨fun i j ci cj same => ?_, fun i ci => ?_⟩, fun i covered some => ?_,
    fun i there _ some less => ?_⟩
  · by_cases hi : i = w.market.nextOfferId <;> by_cases hj : j = w.market.nextOfferId
    · rw [hi, hj]
    · simp only [hi, vault_next, vault_of j hj] at same
      simp only [Created, created_iff j hj] at cj
      exact absurd (congrArg some same) (lawful.vault_new j (h.exists_of_status cj) cj)
    · simp only [hj, vault_next, vault_of i hi] at same
      simp only [Created, created_iff i hi] at ci
      exact absurd (congrArg some same.symm) (lawful.vault_new i (h.exists_of_status ci) ci)
    · simp only [vault_of i hi, vault_of j hj] at same
      simp only [Created, created_iff i hi] at ci
      simp only [Created, created_iff j hj] at cj
      exact separate.apart i j ci cj same
  · by_cases hi : i = w.market.nextOfferId
    · rw [hi, vault_next]
      exact fun zero => lawful.vault_ne (congrArg some zero)
    · rw [vault_of i hi]
      simp only [Created, created_iff i hi] at ci
      exact separate.vault_ne i ci
  · by_cases hi : i = w.market.nextOfferId
    · subst hi
      have claim := congrFun (h.uncredited w.market.nextOfferId (by rw [none]; rfl)) some
      have gained : t.balanceOf vault = (w.token .loanToken).balanceOf vault + principal :=
        moved.dst_eq
      simp only [World.held, vault_next]
      cases some <;>
        simp [Record.liability, Market.record, offers, claims, claim, custody, openPrincipal,
          activeCollateral, gained]
    · by_cases there : Created i w
      · have record : (created sender vault borrower principal collateralAmount interest duration
            expiresAt w).record i = w.market.record i := by
          rw [turned.record_eq, update_of_ne hi]
        simp only [World.held, vault_of i hi, record]
        exact (covered some).trans (paid_le moved (away i there) some)
      · refine covered_of_none (h.turned turned) ?_ some
        simpa only [Created, created_iff i hi] using there
  · have kept := paid_le moved (away i there) some
    simp only [World.held, vault_of i (before i there)] at less
    omega

/-- What the loop over the sources does to the vaults. -/
theorem spendSources_isolated {sender target : Address} {sources : List (ℕ × ℕ)}
    (h : Books w.market) (separate : Separate w)
    (done : spendSources sender target sources w = .ok w') :
    Separate w' ∧ (∀ i, Covered i w → Covered i w') ∧
      ∀ i, Created i w → ∀ token, w'.held i token < w.held i token → token = .loanToken ∧
        beneficiary i .loanToken w.market = sender ∧ ∃ amount, (i, amount) ∈ sources := by
  induction sources generalizing w with
  | nil =>
    rw [spendSources, pure_eq_ok] at done
    subst done
    exact ⟨separate, fun _ covered => covered, fun _ _ _ less => absurd less (lt_irrefl _)⟩
  | cons source rest ih =>
    simp only [spendSources, bind_eq_ok, spendCredit_eq_ok, transferTo_eq_ok] at done
    obtain ⟨_, ⟨spendable, rfl⟩, v, ⟨t, sent, rfl⟩, done⟩ := done
    obtain ⟨there, stays⟩ := spent_stays h separate spendable sent
    obtain ⟨apart, covered, later⟩ := ih (h.turned stays.turned) (stays.separate separate there) done
    refine ⟨apart, fun i before => covered i (stays.covered h before), fun i created some less => ?_⟩
    by_cases same : i = source.1
    · subst same
      by_cases loan : some = .loanToken
      · exact ⟨loan, spendable.owner, source.2, List.mem_cons_self ..⟩
      · -- the other tokens of the source are touched by no payment
        have kept : World.held source.1 some
            { w with
              token := update w.token .loanToken t
              market := debited sender source.1 .loanToken source.2 w.market } =
              w.held source.1 some := by
          simp only [World.held, debited, update_of_ne loan]
        obtain ⟨loan', -⟩ := later source.1 created some (kept ▸ less)
        exact absurd loan' loan
    · have kept := stays.others i created same some
      obtain ⟨loan, owner, amount, mem⟩ := later i created some (less.trans_le kept)
      exact ⟨loan, owner, amount, List.mem_cons_of_mem _ mem⟩

theorem pullWallet_moved {wallet : ℕ} (away : src ≠ dst) (done : pullWallet src dst wallet w = .ok w') :
    ∀ a, a ≠ src → ∀ some, (w.token some).balanceOf a ≤ (w'.token some).balanceOf a := by
  unfold pullWallet at done
  split_ifs at done
  · obtain ⟨t, pulled, rfl⟩ := pullToExact_eq_ok.mp done
    intro a other some
    exact paid_le (P2PVault.pullExact_moved away pulled) other some
  · rw [pure_eq_ok] at done
    subst done
    exact fun _ _ _ => le_rfl

theorem repayWithCredits_isolated {sender : Address} {ids amounts : List ℕ} {wallet : ℕ}
    {mid paid : World} {active : Address → SwapPop ℕ} (h : Books w.market) (separate : Separate w)
    (away : ∀ i, Created i w → w.market.vaults i ≠ sender)
    (was : (w.market.offers id).status = .active)
    (spent : spendSources sender (w.market.vaults id) (ids.zip amounts) w = .ok mid)
    (pulled : pullWallet sender (w.market.vaults id) wallet mid = .ok paid)
    (arrived : (paid.token .loanToken).balanceOf (w.market.vaults id) =
      (w.token .loanToken).balanceOf (w.market.vaults id) +
        ((w.market.offers id).principal + (w.market.offers id).interest))
    (ends : Ends id paid.market active) :
    Isolated (.repayWithCredits sender id ids amounts wallet) w
      { paid with
        market := repaidLoan id ((w.market.offers id).principal + (w.market.offers id).interest)
          active paid.market } := by
  have there : Created id w := by rw [Created, was]; decide
  have leads := spendSources_leads h spent
  obtain ⟨-, -, _, _, _, frame⟩ := spendSources_frame spent
  have vaults : mid.market.vaults = w.market.vaults := by rw [frame]
  have offers : mid.market.offers = w.market.offers := by rw [frame]
  have created : ∀ i, Created i mid ↔ Created i w := fun i => by simp only [Created, offers]
  have market := (pullWallet_frame pulled).2.2
  have wallet_moved := pullWallet_moved (Ne.symm (away id there)) pulled
  obtain ⟨apart, covered, lowered⟩ := spendSources_isolated h separate spent
  rw [market] at ends ⊢
  have stays : Stays id mid
      { paid with
        market := repaidLoan id ((w.market.offers id).principal + (w.market.offers id).interest)
          active mid.market } := by
    refine ⟨repaidLoan_turned leads.books ends, fun _ _ => rfl, fun i ci _ some => ?_,
      fun before some => ?_⟩
    · have other : mid.market.vaults i ≠ sender := by
        rw [vaults]
        exact away i ((created i).mp ci)
      exact wallet_moved _ other some
    · have liable := repaidLoan_liability ((w.market.offers id).principal +
        (w.market.offers id).interest) leads.books ends some
      have kept := wallet_moved (mid.market.vaults id)
        (by rw [vaults]; exact away id there) some
      have owes := before some
      refine liable.trans ?_
      simp only [World.held, repaidLoan, endedLoan, credit, bumpRevision, setOffer] at owes ⊢
      by_cases loan : some = .loanToken
      · subst loan
        -- an active loan owes no loan token, and the repayment has arrived
        have none : (mid.market.record id).liability .loanToken = 0 := by
          have claims := leads.books.uncredited id (by rw [ends.was]; rfl)
          simp [Record.liability, Market.record, custody, openPrincipal, ends.was, claims]
        rw [none, vaults, if_pos rfl, arrived, Nat.zero_add]
        exact Nat.le_add_left ..
      · rw [if_neg loan, Nat.add_zero]
        exact owes.trans kept
  refine ⟨stays.separate apart ((created id).mpr there),
    fun i before => stays.covered leads.books (covered i before), fun i ci about some less => ?_⟩
  have ne : i ≠ id := fun same => about (congrArg _ same.symm)
  have kept := stays.others i ((created i).mpr ci) ne some
  obtain ⟨loan, owner, amount, mem⟩ := lowered i ci some (kept.trans_lt less)
  exact ⟨loan, id, ids, amounts, wallet, amount, by rw [owner], mem⟩

/-- Every call of the market, by anyone but a vault. -/
theorem exec_isolated (h : Books w.market) (separate : Separate w) (lawful : Lawful op w)
    (inside : ∀ tokens seconds, op ≠ .outside tokens seconds) (done : exec op w = .ok w') :
    Isolated op w w' := by
  have away : ∀ a, op.sender = some a → ∀ i, Created i w → w.market.vaults i ≠ a :=
    fun a sent i there same =>
      lawful.sender_away i (h.exists_of_status there) there (sent.trans (congrArg some same.symm))
  cases exec_accepted done with
  | createOffer sender vault borrower principal collateralAmount interest duration expiresAt t other
      positive pulled =>
    exact createOffer_isolated h separate lawful pulled
  | acceptOffer sender id c t was other reserved pulled sent =>
    have there : Created id w := by rw [Created, was]; decide
    exact (takenBy_stays h separate (away sender rfl) was reserved pulled sent).isolated h separate
      there rfl
  | cancelOffer id was committed reserved =>
    have there : Created id w := by rw [Created, was]; decide
    exact (stays_of_unpaid (closedOffer_turned h was (.inl rfl) committed reserved) rfl
      fun _ => closedOffer_liability h was (.inl rfl)).isolated h separate there rfl
  | expireOffer id was late committed reserved =>
    have there : Created id w := by rw [Created, was]; decide
    exact (stays_of_unpaid (closedOffer_turned h was (.inr rfl) committed reserved) rfl
      fun _ => closedOffer_liability h was (.inr rfl)).isolated h separate there rfl
  | repay sender id t active inTime pulled ends =>
    have there : Created id w := by rw [Created, ends.was]; decide
    exact (stays_of_received (repaidLoan_turned h ends) rfl (away sender rfl) there
      (P2PVault.pullExact_moved (Ne.symm (away sender rfl id there)) pulled)
      (repaidLoan_liability _ h ends)).isolated h separate there rfl
  | repayWithCredits sender id sourceIds sourceAmounts walletAmount mid paid active was inTime
      sourced spent pulled arrived ends =>
    exact repayWithCredits_isolated h separate (away sender rfl) was spent pulled arrived ends
  | claimDefault id active late ends =>
    have there : Created id w := by rw [Created, ends.was]; decide
    exact (stays_of_unpaid (defaultedLoan_turned h ends) rfl
      fun _ => defaultedLoan_liability h ends).isolated h separate there rfl
  | withdrawCredit sender id token amount recipient t away spendable sent =>
    obtain ⟨there, stays⟩ := spent_stays h separate spendable sent
    exact stays.isolated h separate there rfl
  | withdrawAvailableCredit id token minReceived recipient token' away some_ covers sent =>
    have settled := h.settled_of_claim some_
    have there := created_of_settled settled
    have turned := debited_turned h rfl some_ covers
    -- the whole claim is written off, whatever the vault can pay of it
    have liable := debited_liability (beneficiary id token w.market) h some_ le_rfl
    have gone : ∀ some, ((debited (beneficiary id token w.market) id token
        (w.market.loanCredits id token) w.market).record id).liability some =
          (w.market.record id).liability some ∨
        ((debited (beneficiary id token w.market) id token (w.market.loanCredits id token)
          w.market).record id).liability some = 0 := by
      intro some
      by_cases same : some = token
      · subst same
        refine .inr ?_
        have none := custody_settled settled some
        simp only [Record.liability, Market.record, debited, none, update_self, Nat.sub_self]
      · have less := liable some
        rw [if_neg same, Nat.add_zero] at less
        exact .inl less
    obtain rfl | ⟨t, sent, rfl⟩ := sent
    · refine (stays_of_unpaid turned rfl fun some => ?_).isolated h separate there rfl
      have less := liable some
      omega
    · refine (stays_of_sent separate there turned rfl (P2PVault.transferTo_moved sent.2)
        fun some => ?_).isolated h separate there rfl
      by_cases same : some = token
      · subst same
        refine .inr ?_
        have none := custody_settled settled some
        simp only [Record.liability, Market.record, debited, none, update_self, Nat.sub_self]
      · have less := liable some
        rw [if_neg same, Nat.add_zero] at less ⊢
        exact .inl less.le
  | acceptExtension sender id active =>
    have there : Created id w := by rw [Created, active]; decide
    refine (stays_of_unpaid (acceptExtension_turned h active) rfl fun some => ?_).isolated h separate
      there rfl
    simp only [Record.liability, Market.record, setOffer, update_self]
    cases some <;> simp only [custody, openPrincipal, activeCollateral, le_refl]
  | proposeExtension | cancelExtension | setNewLoansPaused | nominateGuardian
  | cancelGuardianNomination | acceptGuardian => exact isolated_of_same separate rfl rfl rfl
  | outside tokens seconds => exact absurd rfl (inside tokens seconds)

/-! ### Runs -/

/-- What is known of the market and of the vault of one loan. -/
structure Guarded (id : ℕ) (w : World) : Prop where
  books : Books w.market
  separate : Separate w
  covered : Covered id w

theorem Lawfully.separate (h : Books w.market) (separate : Separate w) (step : Lawfully w op w') :
    Separate w' := by
  obtain ⟨done, lawful⟩ := step
  by_cases outside : ∃ tokens seconds, op = .outside tokens seconds
  · obtain ⟨tokens, seconds, rfl⟩ := outside
    rw [exec, pure_eq_ok] at done
    exact done ▸ ⟨separate.apart, separate.vault_ne⟩
  · exact (exec_isolated h separate lawful
      (fun tokens seconds same => outside ⟨tokens, seconds, same⟩) done).separate

theorem Guarded.step (h : Guarded id w) (observed : Observed id w op w') : Guarded id w' := by
  obtain ⟨step, undrained⟩ := observed
  have books := (exec_leads h.books step.1).books
  refine ⟨books, step.separate h.books h.separate, ?_⟩
  by_cases outside : ∃ tokens seconds, op = .outside tokens seconds
  · obtain ⟨tokens, seconds, rfl⟩ := outside
    obtain ⟨done, -⟩ := step
    rw [exec, pure_eq_ok] at done
    subst done
    by_cases created : Created id w
    · exact fun token => (h.covered token).trans (undrained tokens seconds rfl created token)
    · exact covered_of_none books created
  · exact (exec_isolated h.books h.separate step.2
      (fun tokens seconds same => outside ⟨tokens, seconds, same⟩) step.1).covered id h.covered

theorem Deployed.not_created (h : Deployed w) (id : ℕ) : ¬Created id w := by
  obtain ⟨guardian, -, -, empty⟩ := h
  exact fun created => created (by rw [empty]; rfl)

theorem Deployed.separate (h : Deployed w) : Separate w :=
  ⟨fun i _ created => absurd created (h.not_created i),
    fun i created => absurd created (h.not_created i)⟩

theorem Deployed.guarded (h : Deployed w) (id : ℕ) : Guarded id w :=
  ⟨h.books, h.separate, covered_of_none h.books (h.not_created id)⟩

/-- The beneficiary of a covered loan can withdraw all of its credit. -/
theorem Guarded.withdraws (h : Guarded id w) {recipient : Address} (known : token ≠ .other)
    (some_ : 0 < w.market.loanCredits id token) (recipient_ne : recipient ≠ 0)
    (away : recipient ≠ w.self) (apart : recipient ≠ w.market.vaults id) :
    ∃ w', exec (.withdrawCredit (beneficiary id token w.market) id token
      (w.market.loanCredits id token) recipient) w = .ok w' := by
  have there := created_of_settled (h.books.settled_of_claim some_)
  have below := h.books.exists_of_status there
  have mine : (w.market.record id).owedTo token (beneficiary id token w.market) =
      w.market.loanCredits id token := if_pos rfl
  have owned : w.market.loanCredits id token ≤
      w.market.credits token (beneficiary id token w.market) := by
    rw [h.books.credits_eq, ← mine]
    exact single_le_sum
      (f := fun i => (w.market.record i).owedTo token (beneficiary id token w.market))
      (fun _ _ => Nat.zero_le _) (mem_range.mpr below)
  have total : w.market.loanCredits id token ≤ w.market.totalCredits token := by
    rw [h.books.totals_eq]
    exact owned.trans (le_sum (w.market.credits token) _)
  have backed : w.market.loanCredits id token ≤ w.held id token :=
    (Nat.le_add_left ..).trans (h.covered token)
  have spendable : Spendable (beneficiary id token w.market) id token
      (w.market.loanCredits id token) w := ⟨rfl, some_, backed, le_rfl, owned, total⟩
  have sent := P2PVault.transferTo_eq_ok.mpr
    ⟨⟨Nat.ne_of_gt some_, recipient_ne, apart⟩, backed, rfl⟩
  have spent := spendCredit_eq_ok.mpr ⟨spendable, rfl⟩
  let v : World :=
    { w with
      market := debited (beneficiary id token w.market) id token (w.market.loanCredits id token)
        w.market }
  have paid : transferTo (v.market.vaults id) token recipient (w.market.loanCredits id token) v =
      .ok _ := transferTo_eq_ok.mpr ⟨_, ⟨known, sent⟩, rfl⟩
  simp only [exec, withdrawCredit, validRecipient, bind_eq_ok, revertIf_eq_ok, exists_const, not_or]
  exact ⟨_, ⟨recipient_ne, away⟩, _, spent, paid⟩

/-- Whatever happens to the other vaults, the vault of a loan that is left alone holds what the
loan owes, its beneficiary can withdraw it all, and of the calls about other loans only a repayment
by the beneficiary's own credit takes anything from it. -/
theorem vault_isolated {start : World} {ops : List Op} (fresh : Deployed start)
    (passed : Run (Observed id) start ops w) :
    Covered id w ∧
      (∀ token recipient, token ≠ .other → 0 < w.market.loanCredits id token → recipient ≠ 0 →
        recipient ≠ w.self → recipient ≠ w.market.vaults id →
        ∃ w', exec (.withdrawCredit (beneficiary id token w.market) id token
          (w.market.loanCredits id token) recipient) w = .ok w') ∧
      ∀ op w', Lawful op w → (∀ tokens seconds, op ≠ .outside tokens seconds) →
        exec op w = .ok w' → Created id w → op.subject w ≠ some id →
        ∀ token, w'.held id token < w.held id token → Spends op id token w := by
  have guarded := passed.invariant (Guarded id) (fun _ _ _ h observed => h.step observed)
    (fresh.guarded id)
  exact ⟨guarded.covered, fun _ _ known some_ => guarded.withdraws known some_,
    fun _ _ lawful inside done created apart =>
      (exec_isolated guarded.books guarded.separate lawful inside done).others id created apart⟩

/-! In the sample the collateral of the second loan is lost, and the first is repaid in full. -/

/-- Each call of a list is lawful where it is made. -/
def lawfulAll : List Op → World → Bool
  | [], _ => true
  | op :: rest, w => decide (Lawful op w) && lawfulAll rest (reached w (exec op w))

theorem observed_of_lawfulAll {ops : List Op}
    (inside : ∀ op ∈ ops, ∀ tokens seconds, op ≠ .outside tokens seconds)
    (lawful : lawfulAll ops w = true) (done : execAll exec ops w = .ok w') :
    Run (Observed id) w ops w' := by
  induction ops generalizing w with
  | nil =>
    simp only [execAll, Except.ok.injEq] at done
    exact done ▸ .nil w
  | cons op rest ih =>
    simp only [execAll, bind_eq_ok] at done
    obtain ⟨v, first, later⟩ := done
    simp only [lawfulAll, first, reached, Bool.and_eq_true, decide_eq_true_eq] at lawful
    have away := inside op (List.mem_cons_self ..)
    exact .cons ⟨⟨first, lawful.1⟩, fun tokens seconds same => absurd same (away tokens seconds)⟩
      (ih (fun o mem => inside o (List.mem_cons_of_mem _ mem)) lawful.2 later)

theorem ledgerSample_observed : Run (Observed 1) ledgerStart (ledgerLoans ++ ledgerEnd)
    ledgerSample := by
  refine (observed_of_lawfulAll (fun op mem => ?_) (by decide +kernel) (eq_ok_reached ledgerStart
    (by decide +kernel))).append (.cons ⟨⟨rfl, by decide +kernel⟩, ?_⟩ (observed_of_lawfulAll
      (fun op mem => ?_) (by decide +kernel) (eq_ok_reached ledgerStart (by decide +kernel))))
  · simp only [ledgerLoans, List.mem_cons, List.not_mem_nil, or_false] at mem
    obtain rfl | rfl | rfl | rfl := mem <;> simp
  · rintro tokens seconds same -
    obtain ⟨rfl, rfl⟩ := Op.outside.inj same
    intro token
    cases token <;> decide +kernel
  · simp only [List.mem_cons, List.not_mem_nil, or_false] at mem
    obtain rfl := mem
    simp

theorem sample_vault : ∃ w', exec (.withdrawCredit (beneficiary 1 .collateralToken
    ledgerSample.market) 1 .collateralToken (ledgerSample.market.loanCredits 1 .collateralToken) 3)
      ledgerSample = .ok w' :=
  (vault_isolated ledgerStart_deployed ledgerSample_observed).2.1 .collateralToken 3 (by decide)
    (by decide +kernel) (by decide) (by decide +kernel) (by decide +kernel)

end Turret.LendingV3
