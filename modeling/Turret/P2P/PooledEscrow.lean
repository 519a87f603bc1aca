import Turret.P2P.CreditBooks
import Turret.P2P.LendingV2

/-! The pooled escrow of `TurretP2PLendingV2`. What the contract holds of a
token covers the principal of the open offers, the collateral of the active
ones and all credits, so that credits can be withdrawn in any order. What each
offer brought in is what it paid out, credited, or still has in custody. -/

namespace Turret.P2PLendingV2

open Execution Finset Function
open LendingV3 (Status Offer Token openPrincipal activeCollateral commitment custody)

variable {w w' : World} {sender : Address} {id amount : ℕ} {token : Token}

/-! ### What an offer moves -/

/-- The tokens brought to the contract for an offer, those paid out for it, and those left as
credits. -/
@[ext] structure Flow where
  entered : ℕ
  paid : ℕ
  credited : ℕ
  deriving DecidableEq

namespace Flow

def zero : Flow := ⟨0, 0, 0⟩

def plus (f g : Flow) : Flow :=
  ⟨f.entered + g.entered, f.paid + g.paid, f.credited + g.credited⟩

theorem plus_zero (f : Flow) : f.plus zero = f := rfl

theorem zero_plus (f : Flow) : zero.plus f = f := by
  ext <;> exact Nat.zero_add _

theorem plus_assoc (f g h : Flow) : (f.plus g).plus h = f.plus (g.plus h) := by
  ext <;> exact Nat.add_assoc ..

end Flow

/-- All that an offer has moved of a token up to its status. -/
def life (token : Token) (offer : Offer) : Flow :=
  match token, offer.status with
  | .loanToken, .open_ => ⟨offer.principal, 0, 0⟩
  | .loanToken, .active | .loanToken, .defaulted => ⟨offer.principal, offer.principal, 0⟩
  | .loanToken, .repaid =>
    ⟨offer.principal + (offer.principal + offer.interest), offer.principal,
      offer.principal + offer.interest⟩
  | .loanToken, .cancelled | .loanToken, .expired => ⟨offer.principal, 0, offer.principal⟩
  | .collateralToken, .active => ⟨offer.collateralAmount, 0, 0⟩
  | .collateralToken, .repaid | .collateralToken, .defaulted =>
    ⟨offer.collateralAmount, 0, offer.collateralAmount⟩
  | _, _ => .zero

theorem life_balanced (token : Token) (offer : Offer) :
    (life token offer).entered =
      (life token offer).paid + (life token offer).credited + custody token offer := by
  obtain ⟨lender, borrower, principal, collateralAmount, interest, duration, expiresAt, dueAt,
    status⟩ := offer
  cases token <;> cases status <;> simp [life, custody, openPrincipal, activeCollateral, Flow.zero]

/-- What the contract holds of a token. -/
def World.held (w : World) (token : Token) : ℕ := (w.token token).balanceOf w.self

/-- What one call has moved of a token. -/
def between (token : Token) (w w' : World) : Flow where
  entered := w'.held token - w.held token
  paid := w.held token - w'.held token
  credited := w'.market.totalCredits token - w.market.totalCredits token

/-- The offer a call is about. -/
def Op.offer (op : Op) (w : World) : Option ℕ :=
  match op with
  | .createOffer .. => some w.market.nextOfferId
  | .acceptOffer _ id | .cancelOffer _ id | .expireOffer _ id | .repay _ id | .claimDefault _ id =>
    some id
  | .withdraw .. | .setNewLoansPaused .. | .callToken .. | .elapse _ => none

/-- What the calls about an offer have moved of a token. -/
def flow (id : ℕ) (token : Token) : List Op → World → Flow
  | [], _ => .zero
  | op :: rest, w =>
    match exec op w with
    | .ok w' =>
      (if op.offer w = some id then between token w w' else .zero).plus (flow id token rest w')
    | .error _ => .zero

structure Books (w : World) : Prop where
  fresh : ∀ id, w.market.nextOfferId ≤ id → (w.market.offers id).status = .none
  committed_eq : w.market.committedPrincipal =
    ∑ id ∈ range w.market.nextOfferId, commitment (w.market.offers id)
  reserved_eq : w.market.reservedPrincipal =
    ∑ id ∈ range w.market.nextOfferId, openPrincipal (w.market.offers id)
  locked_eq : w.market.lockedCollateral =
    ∑ id ∈ range w.market.nextOfferId, activeCollateral (w.market.offers id)
  credits_eq : ∀ token, w.market.totalCredits token = ∑ a, w.market.credits token a
  closed : ∀ token a, (w.token token).allowance w.self a = 0
  backed : ∀ token,
    (∑ id ∈ range w.market.nextOfferId, custody token (w.market.offers id)) +
      w.market.totalCredits token ≤ w.held token

/-! ### What a call does -/

/-- The contract is the same and still lets nobody spend for it. -/
structure Tokens (w w' : World) : Prop where
  self_eq : w'.self = w.self
  closed : (∀ token a, (w.token token).allowance w.self a = 0) →
    ∀ token a, (w'.token token).allowance w.self a = 0

/-- The credits of every token still add up to their total. -/
def Tallied (m m' : Market) : Prop :=
  ∀ token, m'.totalCredits token + ∑ a, m.credits token a =
    m.totalCredits token + ∑ a, m'.credits token a

/-- An offer has turned into another, new or not, and the contract's part in the tokens and the
credits with it. -/
structure Turned (id : ℕ) (w w' : World) : Prop extends Tokens w w' where
  offers_eq : w'.market.offers = update w.market.offers id (w'.market.offers id)
  next_eq : id < w.market.nextOfferId ∧ w'.market.nextOfferId = w.market.nextOfferId ∨
    id = w.market.nextOfferId ∧ w'.market.nextOfferId = w.market.nextOfferId + 1
  committed : w'.market.committedPrincipal + commitment (w.market.offers id) =
    w.market.committedPrincipal + commitment (w'.market.offers id)
  reserved : w'.market.reservedPrincipal + openPrincipal (w.market.offers id) =
    w.market.reservedPrincipal + openPrincipal (w'.market.offers id)
  locked : w'.market.lockedCollateral + activeCollateral (w.market.offers id) =
    w.market.lockedCollateral + activeCollateral (w'.market.offers id)
  tallied : Tallied w.market w'.market
  credited : ∀ token, w.market.totalCredits token ≤ w'.market.totalCredits token
  moved : ∀ token, (life token (w.market.offers id)).plus (between token w w') =
    life token (w'.market.offers id)

/-- No offer has changed. -/
structure Kept (w w' : World) : Prop extends Tokens w w' where
  offers_eq : w'.market.offers = w.market.offers
  next_eq : w'.market.nextOfferId = w.market.nextOfferId
  committed : w'.market.committedPrincipal = w.market.committedPrincipal
  reserved : w'.market.reservedPrincipal = w.market.reservedPrincipal
  locked : w'.market.lockedCollateral = w.market.lockedCollateral
  tallied : Tallied w.market w'.market
  backed : ∀ token, (∀ a, (w.token token).allowance w.self a = 0) →
    w.held token + w'.market.totalCredits token ≤ w'.held token + w.market.totalCredits token

theorem Books.turned (h : Books w) (turned : Turned id w w') : Books w' := by
  have total (g : Offer → ℕ) (none : ∀ offer : Offer, offer.status = .none → g offer = 0) :
      (∑ i ∈ range w'.market.nextOfferId, g (w'.market.offers i)) + g (w.market.offers id) =
        (∑ i ∈ range w.market.nextOfferId, g (w.market.offers i)) + g (w'.market.offers id) := by
    rw [turned.offers_eq, update_self]
    obtain ⟨below, next⟩ | ⟨new, next⟩ := turned.next_eq
    · rw [next]
      exact sum_range_update g w.market.offers below _
    · have blank := none _ (h.fresh id new.ge)
      rw [next, blank, Nat.add_zero, new]
      exact sum_range_update_next g w.market.offers _ _
  have commitments := total commitment fun offer none => by simp [commitment, none]
  have reserves := total openPrincipal fun offer none => by simp [openPrincipal, none]
  have locks := total activeCollateral fun offer none => by simp [activeCollateral, none]
  refine
    { fresh := fun i later => ?_
      committed_eq := by have := h.committed_eq; have := turned.committed; omega
      reserved_eq := by have := h.reserved_eq; have := turned.reserved; omega
      locked_eq := by have := h.locked_eq; have := turned.locked; omega
      credits_eq := fun token => by have := h.credits_eq token; have := turned.tallied token; omega
      closed := turned.self_eq ▸ turned.closed h.closed
      backed := fun token => ?_ }
  · have away : i ≠ id := by
      have := turned.next_eq
      omega
    rw [turned.offers_eq, update_of_ne away]
    refine h.fresh i ?_
    have := turned.next_eq
    omega
  · have parts := total (custody token) fun offer none => by
      cases token <;> simp [custody, openPrincipal, activeCollateral, none]
    have backed := h.backed token
    -- what came in is in custody, credited, or was paid out again
    have before := life_balanced token (w.market.offers id)
    have after := life_balanced token (w'.market.offers id)
    have credited := turned.credited token
    rw [← turned.moved token] at after
    simp only [Flow.plus, between] at after
    omega

theorem Books.kept (h : Books w) (kept : Kept w w') : Books w' where
  fresh id later := by
    rw [kept.offers_eq]
    exact h.fresh id (kept.next_eq ▸ later)
  committed_eq := by rw [kept.committed, kept.offers_eq, kept.next_eq, h.committed_eq]
  reserved_eq := by rw [kept.reserved, kept.offers_eq, kept.next_eq, h.reserved_eq]
  locked_eq := by rw [kept.locked, kept.offers_eq, kept.next_eq, h.locked_eq]
  credits_eq token := by have := h.credits_eq token; have := kept.tallied token; omega
  closed := kept.self_eq ▸ kept.closed h.closed
  backed token := by
    have backed := h.backed token
    have moved := kept.backed token (h.closed token)
    rw [kept.offers_eq, kept.next_eq]
    omega

/-! ### Payments and credits -/

theorem pullExact_ok {src : Address} (done : pullExact token src amount w = .ok w') :
    ∃ t, { w with token := t } = w' ∧ Tokens w w' ∧
      ∀ some, w'.held some = w.held some + if some = token then amount else 0 := by
  simp only [pullExact, bind_eq_ok, pure_eq_ok] at done
  obtain ⟨t, pulled, rfl⟩ := done
  have pulled := TokenLedger.pullExact_eq_ok.mp pulled
  refine ⟨_, rfl, ⟨rfl, fun closed some a => ?_⟩, fun some => ?_⟩
  · by_cases same : some = token
    · subst same
      simp only [update_self]
      exact (TokenLedger.pullTo_received pulled (closed some)).2 a
    · simp only [update_of_ne same]
      exact closed some a
  · simp only [World.held]
    by_cases same : some = token
    · subst same
      obtain ⟨-, funded, apart, rfl⟩ := TokenLedger.pullTo_eq_ok.mp pulled
      simp only [update_self, if_true]
      exact (TokenLedger.move_exact (by exact funded)).mpr apart
    · rw [update_of_ne same, if_neg same, Nat.add_zero]

theorem pushExact_ok {recipient : Address} (done : pushExact token recipient amount w = .ok w') :
    ∃ t, { w with token := t } = w' ∧ Tokens w w' ∧
      ∀ some, w'.held some + (if some = token then amount else 0) = w.held some := by
  simp only [pushExact, bind_eq_ok, pure_eq_ok] at done
  obtain ⟨t, sent, rfl⟩ := done
  obtain ⟨left, -, allowance⟩ := TokenLedger.sendTo_paid (TokenLedger.sendExact_eq_ok.mp sent)
  refine ⟨_, rfl, ⟨rfl, fun closed some a => ?_⟩, fun some => ?_⟩
  · by_cases same : some = token
    · subst same
      simp only [update_self, allowance]
      exact closed some a
    · simp only [update_of_ne same]
      exact closed some a
  · simp only [World.held]
    by_cases same : some = token
    · subst same
      simp only [update_self, if_true]
      exact left
    · rw [update_of_ne same, if_neg same, Nat.add_zero]

theorem Tokens.refl (w : World) : Tokens w w := ⟨rfl, fun closed => closed⟩

theorem Tokens.trans {v : World} (h : Tokens w v) (k : Tokens v w') : Tokens w w' where
  self_eq := k.self_eq.trans h.self_eq
  closed closed := h.self_eq ▸ k.closed (h.self_eq ▸ h.closed closed)

theorem credit_total (m : Market) (token some : Token) (account : Address) (amount : ℕ) :
    (credit token account amount m).totalCredits some =
      m.totalCredits some + if some = token then amount else 0 := by
  simp only [credit]
  by_cases same : some = token
  · rw [same, update_self, if_pos rfl]
  · rw [update_of_ne same, if_neg same, Nat.add_zero]

theorem le_credit_total (m : Market) (token some : Token) (account : Address) (amount : ℕ) :
    m.totalCredits some ≤ (credit token account amount m).totalCredits some := by
  rw [credit_total]
  exact Nat.le_add_right ..

theorem Tallied.credit {m m' : Market} (h : Tallied m m') (token : Token) (account : Address)
    (amount : ℕ) : Tallied m (credit token account amount m') := fun some => by
  have before := h some
  have total := credit_total m' token some account amount
  rw [total]
  by_cases same : some = token
  · subst same
    have moved := sum_update_add (m'.credits some) account (m'.credits some account + amount)
    simp only [P2PLendingV2.credit, update_self, if_true]
    omega
  · simp only [P2PLendingV2.credit, update_of_ne same, if_neg same, Nat.add_zero]
    exact before

/-! ### The calls about one offer -/

/-- Listing an offer changes neither the offers nor the accounts of the market. -/
theorem listed_frame (id : ℕ) (borrower : Address) (m : Market) :
    ∃ isPublicOffer publicOfferIds accountOfferIds, listed id borrower m =
      { m with isPublicOffer, publicOfferIds, accountOfferIds } := by
  rw [listed]
  split_ifs
  · exact ⟨_, _, _, rfl⟩
  · exact ⟨_, _, _, rfl⟩

theorem bound_frame (sender : Address) (id : ℕ) (m : Market) :
    ∃ borrower accountOfferIds, bound sender id m =
      { m with
        accountOfferIds
        offers := update m.offers id { m.offers id with borrower } } := by
  rw [bound]
  split_ifs
  · exact ⟨_, _, rfl⟩
  · exact ⟨(m.offers id).borrower, m.accountOfferIds, by rw [update_eq_self]⟩

theorem Books.exists_of_status (h : Books w) (some_ : (w.market.offers id).status ≠ .none) :
    id < w.market.nextOfferId := by
  by_contra above
  exact some_ (h.fresh id (not_lt.mp above))

theorem createOffer_turned {borrower : Address}
    {principal collateralAmount interest duration expiresAt : ℕ} (h : Books w)
    (done : createOffer sender borrower principal collateralAmount interest duration expiresAt w =
      .ok w') : Turned w.market.nextOfferId w w' := by
  simp only [createOffer, bind_eq_ok, revertIf_eq_ok, exists_const] at done
  obtain ⟨-, -, pulled⟩ := done
  have blank := h.fresh _ le_rfl
  obtain ⟨p, l, a, frame⟩ := listed_frame w.market.nextOfferId borrower (remembered sender
    w.market.nextOfferId
      { w.market with
        nextOfferId := w.market.nextOfferId + 1
        offers := update w.market.offers w.market.nextOfferId ⟨sender, borrower, principal,
          collateralAmount, interest, duration, expiresAt, 0, .open_⟩
        offerCreatedAt := update w.market.offerCreatedAt w.market.nextOfferId (w.now % 2 ^ 64) })
  rw [frame] at pulled
  obtain ⟨t, rfl, tokens, received⟩ := pullExact_ok pulled
  refine
    { self_eq := tokens.self_eq
      closed := tokens.closed
      offers_eq := by simp only [remembered, update_self]
      next_eq := .inr ⟨rfl, rfl⟩
      committed := ?_
      reserved := ?_
      locked := ?_
      tallied := fun token => rfl
      credited := fun token => le_rfl
      moved := fun token => ?_ }
  · simp only [remembered, update_self, commitment, blank]
    simp
  · simp only [remembered, update_self, openPrincipal, blank]
    simp
  · simp only [remembered, update_self, activeCollateral, blank]
    simp
  · have moved := received token
    simp only [World.held] at moved
    cases token <;>
      simp [between, World.held, remembered, moved, life, blank, Flow.plus, Flow.zero]

theorem acceptOffer_turned (h : Books w) (done : acceptOffer sender id w = .ok w') :
    Turned id w w' := by
  simp only [acceptOffer, bind_eq_ok, revertIf_eq_ok, exists_const, checkedSub_eq_ok, ne_eq,
    not_not] at done
  obtain ⟨-, was, -, -, reserved, ⟨within, same⟩, v, pulled, sent⟩ := done
  have below := h.exists_of_status (by rw [was]; decide)
  obtain ⟨borrower, ids, frame⟩ := bound_frame sender id w.market
  rw [frame] at pulled same within
  simp only [setOffer, update_self, update_idem] at pulled same within
  obtain ⟨t, rfl, kept, received⟩ := pullExact_ok pulled
  obtain ⟨t', rfl, kept', left⟩ := pushExact_ok sent
  have tokens : Tokens w _ := Tokens.trans ⟨kept.self_eq, kept.closed⟩ kept'
  refine
    { tokens with
      offers_eq := by simp only [update_self]
      next_eq := .inl ⟨below, rfl⟩
      committed := ?_
      reserved := ?_
      locked := ?_
      tallied := fun token => rfl
      credited := fun token => le_rfl
      moved := fun token => ?_ }
  · simp only [update_self, commitment, was]
    simp
  · simp only [update_self, openPrincipal, was]
    simp
    omega
  · simp only [update_self, activeCollateral, was]
    simp
  · have came := received token
    have went := left token
    simp only [World.held] at came went
    cases token <;> simp at came went <;>
      simp [between, World.held, life, was, Flow.plus, Flow.zero] <;> omega

/-- The principal of an offer that closes without a loan is its lender's credit. -/
theorem closeOffer_turned {status : Status} {m : Market} (h : Books w)
    (was : (w.market.offers id).status = .open_) (ended : status = .cancelled ∨ status = .expired)
    (done : closeOffer id status w.market = .ok m) : Turned id w { w with market := m } := by
  simp only [closeOffer, bind_eq_ok, checkedSub_eq_ok, pure_eq_ok] at done
  obtain ⟨committed, ⟨committed_le, rfl⟩, reserved, ⟨reserved_le, rfl⟩, rfl⟩ := done
  have below := h.exists_of_status (by rw [was]; decide)
  refine
    { Tokens.refl w with
      offers_eq := by simp only [credit, setOffer, update_self]
      next_eq := .inl ⟨below, rfl⟩
      committed := ?_
      reserved := ?_
      locked := ?_
      tallied := by
        refine Tallied.credit ?_ _ _ _
        exact fun _ => rfl
      credited := fun token => le_credit_total _ _ token (w.market.offers id).lender _
      moved := fun token => ?_ }
  · obtain rfl | rfl := ended <;> simp [credit, setOffer, commitment, was] <;> omega
  · obtain rfl | rfl := ended <;> simp [credit, setOffer, openPrincipal, was] <;> omega
  · obtain rfl | rfl := ended <;> simp [credit, setOffer, activeCollateral, was]
  · obtain rfl | rfl := ended <;> cases token <;>
      simp [between, World.held, life, was, Flow.plus, Flow.zero, credit, setOffer]

theorem repay_turned (h : Books w) (done : repay sender id w = .ok w') : Turned id w w' := by
  simp only [repay, released, bind_eq_ok, revertIf_eq_ok, exists_const, checkedSub_eq_ok,
    pure_eq_ok, ne_eq, not_not] at done
  obtain ⟨was, -, m, ⟨committed, ⟨committed_le, rfl⟩, locked, ⟨locked_le, rfl⟩, rfl⟩, pulled⟩ := done
  have below := h.exists_of_status (by rw [was]; decide)
  obtain ⟨t, rfl, kept, received⟩ := pullExact_ok pulled
  refine
    { self_eq := kept.self_eq
      closed := kept.closed
      offers_eq := by simp only [credit, setOffer, update_self]
      next_eq := .inl ⟨below, rfl⟩
      committed := ?_
      reserved := ?_
      locked := ?_
      tallied := by
        refine Tallied.credit (Tallied.credit ?_ _ _ _) _ _ _
        exact fun _ => rfl
      credited := fun token => ?_
      moved := fun token => ?_ }
  · simp [credit, setOffer, commitment, was]
    simp only [setOffer] at committed_le
    omega
  · simp [credit, setOffer, openPrincipal, was]
  · simp [credit, setOffer, activeCollateral, was]
    simp only [setOffer] at locked_le
    omega
  · exact (le_credit_total _ _ token (w.market.offers id).lender _).trans
      (le_credit_total _ _ token (w.market.offers id).borrower _)
  · have came := received token
    simp only [World.held] at came
    cases token <;> simp at came <;>
      simp [between, World.held, life, was, Flow.plus, Flow.zero, credit, setOffer,
        came]

theorem claimDefault_turned (h : Books w) (done : claimDefault id w = .ok w') : Turned id w w' := by
  simp only [claimDefault, released, bind_eq_ok, revertIf_eq_ok, exists_const, checkedSub_eq_ok,
    pure_eq_ok, ne_eq, not_not] at done
  obtain ⟨was, -, m, ⟨committed, ⟨committed_le, rfl⟩, locked, ⟨locked_le, rfl⟩, rfl⟩, rfl⟩ := done
  have below := h.exists_of_status (by rw [was]; decide)
  refine
    { Tokens.refl w with
      offers_eq := by simp only [credit, setOffer, update_self]
      next_eq := .inl ⟨below, rfl⟩
      committed := ?_
      reserved := ?_
      locked := ?_
      tallied := by
        refine Tallied.credit ?_ _ _ _
        exact fun _ => rfl
      credited := fun token => le_credit_total _ _ token (w.market.offers id).lender _
      moved := fun token => ?_ }
  · simp [credit, setOffer, commitment, was]
    simp only [setOffer] at committed_le
    omega
  · simp [credit, setOffer, openPrincipal, was]
  · simp [credit, setOffer, activeCollateral, was]
    simp only [setOffer] at locked_le
    omega
  · cases token <;>
      simp [between, World.held, life, was, Flow.plus, Flow.zero, credit, setOffer]

/-! ### The other calls -/

theorem withdraw_kept {recipient : Address}
    (done : withdraw sender token amount recipient w = .ok w') : Kept w w' := by
  simp only [withdraw, bind_eq_ok, revertIf_eq_ok, exists_const, checkedSub_eq_ok] at done
  obtain ⟨-, owned, ⟨owned_le, rfl⟩, total, ⟨total_le, rfl⟩, sent⟩ := done
  obtain ⟨t, rfl, kept, left⟩ := pushExact_ok sent
  refine
    { self_eq := kept.self_eq
      closed := kept.closed
      offers_eq := rfl
      next_eq := rfl
      committed := rfl
      reserved := rfl
      locked := rfl
      tallied := fun some => ?_
      backed := fun some _ => ?_ }
  · by_cases same : some = token
    · subst same
      have moved := sum_update_add (w.market.credits some) sender
        (w.market.credits some sender - amount)
      simp only [update_self]
      omega
    · simp only [update_of_ne same]
  · have went := left some
    simp only [World.held] at went ⊢
    by_cases same : some = token
    · subst same
      simp only [if_true, update_self] at went ⊢
      omega
    · simp only [if_neg same, update_of_ne same] at went ⊢
      omega

theorem callToken_kept {call : TokenCall Address} (away : call.sender ≠ some w.self)
    (done : callToken token call w = .ok w') : Kept w w' := by
  simp only [callToken, bind_eq_ok, orRevert_eq_ok, pure_eq_ok] at done
  obtain ⟨t, called, rfl⟩ := done
  refine
    { self_eq := rfl
      closed := fun closed some a => ?_
      offers_eq := rfl
      next_eq := rfl
      committed := rfl
      reserved := rfl
      locked := rfl
      tallied := fun _ => rfl
      backed := fun some closed => ?_ }
  · by_cases same : some = token
    · subst same
      simp only [update_self]
      exact TokenCall.exec_keeps_closed called away (closed some) a
    · simp only [update_of_ne same]
      exact closed some a
  · simp only [World.held]
    by_cases same : some = token
    · subst same
      simp only [update_self]
      exact Nat.add_le_add_right (TokenCall.exec_closed called away closed).1 _
    · rw [update_of_ne same]

/-- Every call turns one offer, or leaves all offers as they are. -/
theorem exec_changed {op : Op} (h : Books w) (done : exec op w = .ok w') :
    (∃ id, op.offer w = some id ∧ Turned id w w') ∨ op.offer w = none ∧ Kept w w' := by
  simp only [exec, bind_eq_ok, revertIf_eq_ok, exists_const] at done
  obtain ⟨away, done⟩ := done
  cases op with
  | createOffer => exact .inl ⟨_, rfl, createOffer_turned h done⟩
  | acceptOffer => exact .inl ⟨_, rfl, acceptOffer_turned h done⟩
  | cancelOffer sender id =>
    simp only [cancelOffer, bind_eq_ok, revertIf_eq_ok, exists_const, pure_eq_ok, ne_eq,
      not_not] at done
    obtain ⟨was, -, m, closed, rfl⟩ := done
    exact .inl ⟨id, rfl, closeOffer_turned h was (.inl rfl) closed⟩
  | expireOffer sender id =>
    simp only [expireOffer, bind_eq_ok, revertIf_eq_ok, exists_const, pure_eq_ok, ne_eq,
      not_not] at done
    obtain ⟨was, -, m, closed, rfl⟩ := done
    exact .inl ⟨id, rfl, closeOffer_turned h was (.inr rfl) closed⟩
  | repay => exact .inl ⟨_, rfl, repay_turned h done⟩
  | claimDefault => exact .inl ⟨_, rfl, claimDefault_turned h done⟩
  | withdraw => exact .inr ⟨rfl, withdraw_kept done⟩
  | setNewLoansPaused sender paused =>
    simp only [setNewLoansPaused, bind_eq_ok, revertIf_eq_ok, exists_const, pure_eq_ok] at done
    obtain ⟨-, rfl⟩ := done
    exact .inr ⟨rfl, ⟨rfl, fun closed => closed⟩, rfl, rfl, rfl, rfl, rfl, fun _ => rfl, fun _ _ => le_rfl⟩
  | callToken => exact .inr ⟨rfl, callToken_kept away done⟩
  | elapse seconds =>
    rw [pure_eq_ok] at done
    subst done
    exact .inr ⟨rfl, ⟨rfl, fun closed => closed⟩, rfl, rfl, rfl, rfl, rfl, fun _ => rfl, fun _ _ => le_rfl⟩

theorem Books.step {op : Op} (h : Books w) (done : exec op w = .ok w') : Books w' := by
  obtain ⟨id, -, turned⟩ | ⟨-, kept⟩ := exec_changed h done
  · exact h.turned turned
  · exact h.kept kept

theorem Deployed.books (h : Deployed w) : Books w := by
  have empty := h.market_eq
  have credits : ∀ token, ∑ a, w.market.credits token a = 0 := fun token =>
    sum_eq_zero fun a _ => by rw [empty]; rfl
  refine
    { fresh := fun id _ => by rw [empty]; rfl
      committed_eq := by rw [empty]; rfl
      reserved_eq := by rw [empty]; rfl
      locked_eq := by rw [empty]; rfl
      credits_eq := fun token => by rw [credits, empty]; rfl
      closed := h.closed
      backed := fun token => ?_ }
  have none : ∑ id ∈ range w.market.nextOfferId, custody token (w.market.offers id) = 0 :=
    sum_eq_zero fun id _ => by rw [empty]; cases token <;> rfl
  rw [none, empty]
  exact Nat.zero_le _

/-! ### Runs -/

theorem run_books (passed : Run (accepts exec) w ops w') (h : Books w) : Books w' :=
  passed.invariant Books (fun _ _ _ sound done => sound.step done) h

theorem run_flow (passed : Run (accepts exec) w ops w') (h : Books w) (id : ℕ) (token : Token) :
    (life token (w.market.offers id)).plus (flow id token ops w) =
      life token (w'.market.offers id) := by
  induction passed with
  | nil w => rfl
  | @cons w v w' op rest first _ ih =>
    have here : exec op w = .ok v := first
    have later := ih (h.step first)
    simp only [flow, here]
    rw [← later, ← Flow.plus_assoc]
    congr 1
    obtain ⟨turning, about, turned⟩ | ⟨about, kept⟩ := exec_changed h here
    · rw [about]
      by_cases same : turning = id
      · subst same
        rw [if_pos rfl]
        exact turned.moved token
      · rw [if_neg (fun eq => same (Option.some.inj eq)), Flow.plus_zero, turned.offers_eq,
          update_of_ne (Ne.symm same)]
    · rw [about, if_neg (by simp), Flow.plus_zero, kept.offers_eq]

/-! ### Withdrawing the credits -/

structure Withdrawal where
  account : Address
  token : Token
  amount : ℕ
  recipient : Address

namespace Withdrawal

def op (x : Withdrawal) : Op := .withdraw x.account x.token x.amount x.recipient

structure Valid (escrow : Address) (x : Withdrawal) : Prop where
  token_ne : x.token ≠ .other
  amount_ne : x.amount ≠ 0
  recipient_ne : x.recipient ≠ 0
  recipient_away : x.recipient ≠ escrow
  account_away : x.account ≠ escrow

/-- What the withdrawal takes of a credit. -/
def part (token : Token) (a : Address) (x : Withdrawal) : ℕ :=
  if x.account = a ∧ x.token = token then x.amount else 0

/-- What some withdrawals take of a credit together. -/
def asked (token : Token) (a : Address) (xs : List Withdrawal) : ℕ := (xs.map (part token a)).sum

end Withdrawal

/-- A credit that is there can be withdrawn. -/
theorem Books.withdraws {x : Withdrawal} (h : Books w) (valid : x.Valid w.self)
    (within : x.amount ≤ w.market.credits x.token x.account) :
    ∃ w', exec x.op w = .ok w' ∧ w'.self = w.self ∧ ∀ token a,
      w'.market.credits token a + x.part token a = w.market.credits token a := by
  have total : w.market.credits x.token x.account ≤ w.market.totalCredits x.token := by
    rw [h.credits_eq]
    exact le_sum (w.market.credits x.token) x.account
  have held : x.amount ≤ (w.token x.token).balanceOf w.self := by
    have backed := h.backed x.token
    simp only [World.held] at backed
    omega
  have sent : (w.token x.token).sendExact Error.erc20 .unsupportedTransfer w.self x.recipient
      x.amount = .ok ((w.token x.token).move w.self x.recipient x.amount) :=
    TokenLedger.sendExact_eq_ok.mpr
      (TokenLedger.sendTo_eq_ok.mpr ⟨held, .inl valid.recipient_away.symm, rfl⟩)
  have ran : exec x.op w = .ok
      { w with
        token := update w.token x.token ((w.token x.token).move w.self x.recipient x.amount)
        market :=
          { w.market with
            credits := update w.market.credits x.token (update (w.market.credits x.token) x.account
              (w.market.credits x.token x.account - x.amount))
            totalCredits := update w.market.totalCredits x.token
              (w.market.totalCredits x.token - x.amount) } } := by
    simp only [Withdrawal.op, exec, Op.sender, withdraw, pushExact, bind_eq_ok, revertIf_eq_ok,
      exists_const, checkedSub_eq_ok, pure_eq_ok, Option.some.injEq, not_or, not_lt]
    exact ⟨valid.account_away, ⟨valid.token_ne, valid.amount_ne, valid.recipient_ne,
      valid.recipient_away, within⟩, _, ⟨within, rfl⟩, _, ⟨within.trans total, rfl⟩, _, sent, rfl⟩
  refine ⟨_, ran, rfl, fun token a => ?_⟩
  simp only [Withdrawal.part]
  by_cases same : x.token = token
  · subst same
    by_cases owner : x.account = a
    · subst owner
      simp only [update_self, and_self, if_true]
      omega
    · simp only [update_self, update_of_ne (Ne.symm owner), owner, false_and, if_false,
        Nat.add_zero]
  · simp only [update_of_ne (Ne.symm same), same, and_false, if_false, Nat.add_zero]

theorem Books.withdraws_all {xs : List Withdrawal} (h : Books w)
    (valid : ∀ x ∈ xs, x.Valid w.self)
    (within : ∀ token a, Withdrawal.asked token a xs ≤ w.market.credits token a) :
    ∃ w', Run (accepts exec) w (xs.map Withdrawal.op) w' ∧ ∀ token a,
      w'.market.credits token a + Withdrawal.asked token a xs = w.market.credits token a := by
  induction xs generalizing w with
  | nil => exact ⟨w, .nil w, fun _ _ => rfl⟩
  | cons x rest ih =>
    have split : ∀ token a, Withdrawal.asked token a (x :: rest) =
        x.part token a + Withdrawal.asked token a rest := fun _ _ => List.sum_cons
    have mine : x.part x.token x.account = x.amount := if_pos ⟨rfl, rfl⟩
    have first : x.amount ≤ w.market.credits x.token x.account := by
      have all := within x.token x.account
      rw [split, mine] at all
      omega
    obtain ⟨v, ran, self_eq, left⟩ := h.withdraws (valid x (List.mem_cons_self ..)) first
    have room : ∀ token a, Withdrawal.asked token a rest ≤ v.market.credits token a := by
      intro token a
      have all := within token a
      have here := left token a
      rw [split] at all
      omega
    obtain ⟨w', passed, done⟩ := ih (h.step ran)
      (fun y mem => self_eq ▸ valid y (List.mem_cons_of_mem _ mem)) room
    refine ⟨w', .cons ran passed, fun token a => ?_⟩
    have here := left token a
    have there := done token a
    rw [split]
    omega

/-! ### The two results -/

variable {start : World} {ops : List Op}

/-- The escrow covers offers, loans and credits, and no order in which accounts withdraw what they
are owed makes a withdrawal fail. -/
theorem pooled_escrow_solvent (fresh : Deployed start) (passed : Run (accepts exec) start ops w) :
    Books w ∧ ∀ xs : List Withdrawal, (∀ x ∈ xs, x.Valid w.self) →
      (∀ token a, Withdrawal.asked token a xs ≤ w.market.credits token a) →
      ∃ w', Run (accepts exec) w (xs.map Withdrawal.op) w' ∧ ∀ token a,
        w'.market.credits token a + Withdrawal.asked token a xs = w.market.credits token a := by
  have books := run_books passed fresh.books
  exact ⟨books, fun _ valid within => books.withdraws_all valid within⟩

/-- What the calls about an offer have moved is what its status says, and of an offer that is over
all that came in was paid out or credited. -/
theorem offer_flows_exact (fresh : Deployed start) (passed : Run (accepts exec) start ops w)
    (id : ℕ) (token : Token) :
    flow id token ops start = life token (w.market.offers id) ∧
      ((w.market.offers id).status ≠ .open_ → (w.market.offers id).status ≠ .active →
        (flow id token ops start).entered =
          (flow id token ops start).paid + (flow id token ops start).credited) := by
  have moved := run_flow passed fresh.books id token
  have blank : life token (start.market.offers id) = .zero := by
    rw [fresh.market_eq]
    cases token <;> rfl
  rw [blank, Flow.zero_plus] at moved
  refine ⟨moved, fun closed ended => ?_⟩
  have balanced := life_balanced token (w.market.offers id)
  have empty : custody token (w.market.offers id) = 0 := by
    cases token <;> simp [custody, openPrincipal, activeCollateral, closed, ended]
  rw [moved, balanced, empty, Nat.add_zero]

/-! A sample: a public offer is taken and repaid, and both parties withdraw. -/

def sampleStart : World where
  self := 9
  now := 1000
  token _ := ⟨fun _ => 1000, fun a _ => if a = 9 then 0 else 1000⟩
  market := deployed 3

def sampleOps : List Op :=
  [.createOffer 1 0 100 20 5 86400 2000, .acceptOffer 2 1, .elapse 86400, .repay 2 1]

def sample : World := reached sampleStart (execAll exec sampleOps sampleStart)

def sampleWithdrawals : List Withdrawal := [⟨2, .collateralToken, 20, 7⟩, ⟨1, .loanToken, 105, 1⟩]

theorem sampleStart_deployed : Deployed sampleStart where
  guardian_ne := by decide
  market_eq := rfl
  closed _ _ := rfl

theorem sample_run : Run (accepts exec) sampleStart sampleOps sample :=
  run_of_execAll (eq_ok_reached sampleStart (by decide +kernel))

theorem sampleWithdrawals_within (token : Token) (a : Address) :
    Withdrawal.asked token a sampleWithdrawals ≤ sample.market.credits token a := by
  by_cases lender : a = 1
  · subst lender
    cases token <;> decide +kernel
  · by_cases borrower : a = 2
    · subst borrower
      cases token <;> decide +kernel
    · have none : Withdrawal.asked token a sampleWithdrawals = 0 := by
        simp [Withdrawal.asked, Withdrawal.part, sampleWithdrawals, Ne.symm lender,
          Ne.symm borrower]
      rw [none]
      exact Nat.zero_le _

theorem sample_pooled_escrow :
    ∃ w', Run (accepts exec) sample (sampleWithdrawals.map Withdrawal.op) w' ∧ ∀ token a,
      w'.market.credits token a + Withdrawal.asked token a sampleWithdrawals =
        sample.market.credits token a := by
  refine (pooled_escrow_solvent sampleStart_deployed sample_run).2 sampleWithdrawals
    (fun x mem => ?_) sampleWithdrawals_within
  simp only [sampleWithdrawals, List.mem_cons, List.not_mem_nil, or_false] at mem
  obtain rfl | rfl := mem
  · exact ⟨by decide, by decide, by decide, by decide, by decide⟩
  · exact ⟨by decide, by decide, by decide, by decide, by decide⟩

theorem sample_offer_flows : flow 1 .loanToken sampleOps sampleStart = ⟨205, 100, 105⟩ :=
  (offer_flows_exact sampleStart_deployed sample_run 1 .loanToken).1.trans (by decide +kernel)

end Turret.P2PLendingV2
