import Turret.P2P.NFTLending

/-! Custody of the NFT market. The vault of an offer holds the principal while the
offer is open, the NFT while the loan is active, and afterwards what its parties
have not withdrawn yet; the receiver of an NFT can move none of it. Contracts
that only answer calls send none, and a new clone is nobody's account. -/

namespace Turret.NFTLending

open Execution Finset Function

variable {w w' : World} {call : Call} {id amount : ℕ} {x sender recipient vault : Address}

/-! ### An offer -/

namespace Offer

def reserved (o : Offer) : ℕ := if o.status = .open_ then o.terms.principal else 0

def lent (o : Offer) : ℕ := if o.status = .active then o.terms.principal else 0

/-- The USDG that the vault must hold. -/
def funds (o : Offer) : ℕ := o.reserved + o.usdgCredit

/-- The NFT was taken and has not been given back. -/
def Pledged (o : Offer) : Prop := o.status = .active ∨ o.nftBeneficiary ≠ 0

/-- The accounts that have acted in the offer: its lender, and its borrower once accepted. -/
def Party (a : Address) (o : Offer) : Prop :=
  a = o.lender ∨ a = o.terms.borrower ∧
    (o.status = .active ∨ o.status = .repaid ∨ o.status = .defaulted)

structure Sound (o : Offer) : Prop where
  credit : o.usdgCredit ≠ 0 → o.status = .repaid ∨ o.status = .cancelled ∨ o.status = .expired
  beneficiary : o.nftBeneficiary ≠ 0 →
    o.status = .repaid ∧ o.nftBeneficiary = o.terms.borrower ∨
      o.status = .defaulted ∧ o.nftBeneficiary = o.lender

/-- What a call makes of the offer it is about, when it may, and who may send it. -/
inductive Next (now id : ℕ) : Call → Offer → Offer → Prop
  | created {o : Offer} {sender vault : Address} {terms : Terms} (was : o.status = .none) :
      Next now id (.createOffer sender terms vault) o ⟨sender, terms, vault, 0, .open_, 0, 0⟩
  | accepted {o : Offer} {sender : Address} (was : o.status = .open_)
      (early : now < o.terms.expiresAt) (other : sender ≠ o.lender)
      (named : o.terms.borrower ≠ 0 → sender = o.terms.borrower) :
      Next now id (.acceptOffer sender id) o
        { o with
          terms := { o.terms with borrower := sender }
          status := .active
          dueAt := now + o.terms.duration }
  | cancelled {o : Offer} {sender : Address} (was : o.status = .open_) (mine : sender = o.lender) :
      Next now id (.cancelOffer sender id) o
        { o with status := .cancelled, usdgCredit := o.terms.principal }
  | expired {o : Offer} {sender : Address} (was : o.status = .open_)
      (late : o.terms.expiresAt ≤ now) :
      Next now id (.expireOffer sender id) o
        { o with status := .expired, usdgCredit := o.terms.principal }
  | repaid {o : Offer} {sender : Address} (was : o.status = .active)
      (early : now ≤ o.dueAt + GRACE_PERIOD) :
      Next now id (.repay sender id) o
        { o with
          status := .repaid
          usdgCredit := o.terms.principal + o.terms.interest
          nftBeneficiary := o.terms.borrower }
  | defaulted {o : Offer} {sender : Address} (was : o.status = .active)
      (late : o.dueAt + GRACE_PERIOD < now) :
      Next now id (.settleDefault sender id) o
        { o with status := .defaulted, nftBeneficiary := o.lender }
  | paid {o : Offer} {sender recipient : Address} {amount : ℕ} (mine : sender = o.lender)
      (within : amount ≤ o.usdgCredit) :
      Next now id (.withdrawUSDG sender id amount recipient) o
        { o with usdgCredit := o.usdgCredit - amount }
  | released {o : Offer} {sender recipient : Address} (mine : sender = o.nftBeneficiary) :
      Next now id (.withdrawNFT sender id recipient) o { o with nftBeneficiary := 0 }

variable {o o' : Offer} {now : ℕ} {call : Call}

theorem Sound.uncredited (h : o.Sound)
    (was : o.status = .none ∨ o.status = .open_ ∨ o.status = .active ∨ o.status = .defaulted) :
    o.usdgCredit = 0 := by
  by_contra some_
  obtain settled | settled | settled := h.credit some_ <;> simp [settled] at was

theorem Sound.unclaimed (h : o.Sound) (was : o.status ≠ .repaid ∧ o.status ≠ .defaulted) :
    o.nftBeneficiary = 0 := by
  by_contra some_
  exact (h.beneficiary some_).elim (fun repaid => was.1 repaid.1) fun defaulted => was.2 defaulted.1

theorem Next.sound (next : Next now id call o o') (h : o.Sound) : o'.Sound := by
  cases next with
  | created was => exact ⟨fun some_ => absurd rfl some_, fun some_ => absurd rfl some_⟩
  | accepted was =>
    have credit := h.uncredited (by simp [was])
    have beneficiary := h.unclaimed (by simp [was])
    exact ⟨fun some_ => absurd credit some_, fun some_ => absurd beneficiary some_⟩
  | cancelled was =>
    have beneficiary := h.unclaimed (by simp [was])
    exact ⟨fun _ => .inr (.inl rfl), fun some_ => absurd beneficiary some_⟩
  | expired was =>
    have beneficiary := h.unclaimed (by simp [was])
    exact ⟨fun _ => .inr (.inr rfl), fun some_ => absurd beneficiary some_⟩
  | repaid was => exact ⟨fun _ => .inl rfl, fun _ => .inl ⟨rfl, rfl⟩⟩
  | defaulted was =>
    have credit := h.uncredited (by simp [was])
    exact ⟨fun some_ => absurd credit some_, fun _ => .inr ⟨rfl, rfl⟩⟩
  | paid mine within =>
    refine ⟨fun some_ => h.credit ?_, h.beneficiary⟩
    simp only at some_
    omega
  | released => exact ⟨h.credit, fun some_ => absurd rfl some_⟩

/-- The vault and the NFT of an offer never change. -/
theorem Next.fixed (next : Next now id call o o') (created : o.status ≠ .none) :
    o'.vault = o.vault ∧ o'.lender = o.lender ∧ o'.terms.collection = o.terms.collection ∧
      o'.terms.tokenId = o.terms.tokenId := by
  cases next with
  | created was => exact absurd was created
  | _ => exact ⟨rfl, rfl, rfl, rfl⟩

end Offer

/-! ### Accounts and vaults -/

def Created (id : ℕ) (w : World) : Prop := (w.market.offers id).status ≠ .none

instance createdDecidable (id : ℕ) (w : World) : Decidable (Created id w) :=
  inferInstanceAs (Decidable ((w.market.offers id).status ≠ .none))

/-- An account that may send calls. -/
structure Account (a : Address) (w : World) : Prop where
  ne_zero : a ≠ 0
  ne_self : a ≠ w.self
  ne_implementation : a ≠ w.vaultImplementation
  ne_vault : ∀ i < w.market.nextOfferId, Created i w → a ≠ (w.market.offers i).vault

/-- An address at which nothing has been deployed, and that nobody has acted from. -/
structure Unused (a : Address) (w : World) : Prop where
  ne_zero : a ≠ 0
  ne_vault : ∀ i < w.market.nextOfferId, Created i w → a ≠ (w.market.offers i).vault
  ne_party : ∀ i < w.market.nextOfferId, Created i w → ¬(w.market.offers i).Party a
  closed : ∀ b, w.usdg.allowance a b = 0
  silent : ∀ c, (w.nft c).Silent a

/-- What others' calls do to the assets of a contract that sends no calls. -/
structure Quiet (x : Address) (w w' : World) : Prop where
  vault_at : w'.vaultAt x = w.vaultAt x
  closed : (∀ a, w.usdg.allowance x a = 0) → ∀ a, w'.usdg.allowance x a = 0
  balance : (∀ a, w.usdg.allowance x a = 0) → w.usdg.balanceOf x ≤ w'.usdg.balanceOf x
  nft : ∀ c, NftLedger.Keeps x (w.nft c) (w'.nft c)

theorem Quiet.refl (x : Address) (w : World) : Quiet x w w :=
  ⟨rfl, id, fun _ => le_rfl, fun c => .refl x (w.nft c)⟩

theorem Quiet.trans {v : World} (h : Quiet x w v) (k : Quiet x v w') : Quiet x w w' where
  vault_at := k.vault_at.trans h.vault_at
  closed closed := k.closed (h.closed closed)
  balance closed := (h.balance closed).trans (k.balance (h.closed closed))
  nft c := (h.nft c).trans (k.nft c)

/-- The vault of an offer, and what it holds. -/
structure Vaulted (id : ℕ) (w : World) : Prop where
  ne_zero : (w.market.offers id).vault ≠ 0
  vault_at : w.vaultAt (w.market.offers id).vault =
    some ⟨(w.market.offers id).terms.collection, (w.market.offers id).terms.tokenId⟩
  closed : ∀ a, w.usdg.allowance (w.market.offers id).vault a = 0
  silent : ∀ c, (w.nft c).Silent (w.market.offers id).vault
  funded : (w.market.offers id).funds ≤ w.usdg.balanceOf (w.market.offers id).vault
  held : (w.market.offers id).Pledged →
    (w.nft (w.market.offers id).terms.collection).ownerOf (w.market.offers id).terms.tokenId =
      (w.market.offers id).vault

theorem Vaulted.quiet (h : Vaulted id w) (quiet : Quiet (w.market.offers id).vault w w')
    (same : w'.market.offers id = w.market.offers id) : Vaulted id w' := by
  refine ⟨?_, ?_, ?_, ?_, ?_, ?_⟩ <;> rw [same]
  · exact h.ne_zero
  · rw [quiet.vault_at, h.vault_at]
  · exact quiet.closed h.closed
  · exact fun c => (quiet.nft c).silent (h.silent c)
  · exact h.funded.trans (quiet.balance h.closed)
  · exact fun pledged => (quiet.nft _).owned (h.silent _) _ (h.held pledged)

structure Custody (w : World) : Prop where
  fresh : ∀ id, w.market.nextOfferId ≤ id → w.market.offers id = noOffer
  sound : ∀ id, (w.market.offers id).Sound
  reserved_eq : w.market.reservedPrincipal =
    ∑ id ∈ range w.market.nextOfferId, (w.market.offers id).reserved
  active_eq : w.market.activePrincipal =
    ∑ id ∈ range w.market.nextOfferId, (w.market.offers id).lent
  credits_eq : w.market.totalUSDGCredits =
    ∑ id ∈ range w.market.nextOfferId, (w.market.offers id).usdgCredit
  vaulted : ∀ id, Created id w → Vaulted id w
  apart : ∀ i j, Created i w → Created j w →
    (w.market.offers i).vault = (w.market.offers j).vault → i = j
  parties : ∀ id, Created id w → ∀ a, (w.market.offers id).Party a → Account a w

theorem Custody.below (h : Custody w) (created : Created id w) : id < w.market.nextOfferId := by
  by_contra above
  have blank := h.fresh id (not_lt.mp above)
  rw [Created, blank] at created
  exact created rfl

/-! ### What a call does -/

/-- The contract and its surroundings. -/
structure Fixed (w w' : World) : Prop where
  self_eq : w'.self = w.self
  implementation_eq : w'.vaultImplementation = w.vaultImplementation

/-- An offer has turned into another, new or not, and its vault with it. -/
structure Turned (call : Call) (id : ℕ) (w w' : World) : Prop extends Fixed w w' where
  next : Offer.Next w.now id call (w.market.offers id) (w'.market.offers id)
  offers_eq : w'.market.offers = update w.market.offers id (w'.market.offers id)
  next_eq : id < w.market.nextOfferId ∧ w'.market.nextOfferId = w.market.nextOfferId ∨
    id = w.market.nextOfferId ∧ w'.market.nextOfferId = w.market.nextOfferId + 1
  reserved : w'.market.reservedPrincipal + (w.market.offers id).reserved =
    w.market.reservedPrincipal + (w'.market.offers id).reserved
  lent : w'.market.activePrincipal + (w.market.offers id).lent =
    w.market.activePrincipal + (w'.market.offers id).lent
  credits : w'.market.totalUSDGCredits + (w.market.offers id).usdgCredit =
    w.market.totalUSDGCredits + (w'.market.offers id).usdgCredit
  vaulted : Vaulted id w'
  others : ∀ i, Created i w → i ≠ id → Quiet (w.market.offers i).vault w w'
  acted : ∀ a, (w'.market.offers id).Party a → Created id w ∧ (w.market.offers id).Party a ∨
    Account a w ∧ (¬Created id w → a ≠ (w'.market.offers id).vault)
  new : ¬Created id w → Unused (w'.market.offers id).vault w

/-- No offer has changed. -/
structure Kept (w w' : World) : Prop extends Fixed w w' where
  offers_eq : w'.market.offers = w.market.offers
  next_eq : w'.market.nextOfferId = w.market.nextOfferId
  reserved : w'.market.reservedPrincipal = w.market.reservedPrincipal
  lent : w'.market.activePrincipal = w.market.activePrincipal
  credits : w'.market.totalUSDGCredits = w.market.totalUSDGCredits
  quiet : ∀ i, Created i w → Quiet (w.market.offers i).vault w w'

theorem Turned.offer_other (turned : Turned call id w w') {i : ℕ} (other : i ≠ id) :
    w'.market.offers i = w.market.offers i := by
  rw [turned.offers_eq, update_of_ne other]

theorem Turned.below (turned : Turned call id w w') : id < w'.market.nextOfferId := by
  have := turned.next_eq
  omega

theorem Turned.created_of (turned : Turned call id w w') {i : ℕ} (other : i ≠ id)
    (created : Created i w') : Created i w := by
  rwa [Created, turned.offer_other other] at created

theorem Turned.vault_eq (turned : Turned call id w w') (created : Created id w) :
    (w'.market.offers id).vault = (w.market.offers id).vault :=
  (turned.next.fixed created).1

theorem Account.turned {a : Address} (h : Account a w) (custody : Custody w)
    (turned : Turned call id w w') (away : ¬Created id w → a ≠ (w'.market.offers id).vault) :
    Account a w' where
  ne_zero := h.ne_zero
  ne_self := turned.self_eq ▸ h.ne_self
  ne_implementation := turned.implementation_eq ▸ h.ne_implementation
  ne_vault i _ created := by
    by_cases same : i = id
    · subst same
      by_cases before : Created i w
      · rw [turned.vault_eq before]
        exact h.ne_vault i (custody.below before) before
      · exact away before
    · have before := turned.created_of same created
      rw [turned.offer_other same]
      exact h.ne_vault i (custody.below before) before

theorem Account.kept {a : Address} (h : Account a w) (kept : Kept w w') : Account a w' where
  ne_zero := h.ne_zero
  ne_self := kept.self_eq ▸ h.ne_self
  ne_implementation := kept.implementation_eq ▸ h.ne_implementation
  ne_vault i below created := by
    rw [Created, kept.offers_eq] at created
    rw [kept.offers_eq]
    exact h.ne_vault i (kept.next_eq ▸ below) created

theorem Custody.sum_turned (h : Custody w) (turned : Turned call id w w') (g : Offer → ℕ)
    (none : g noOffer = 0) :
    (∑ i ∈ range w'.market.nextOfferId, g (w'.market.offers i)) + g (w.market.offers id) =
      (∑ i ∈ range w.market.nextOfferId, g (w.market.offers i)) + g (w'.market.offers id) := by
  rw [turned.offers_eq, update_self]
  obtain ⟨below, next⟩ | ⟨new, next⟩ := turned.next_eq
  · rw [next]
    exact sum_range_update g w.market.offers below _
  · rw [next, h.fresh id new.ge, none, Nat.add_zero, new]
    exact sum_range_update_next g w.market.offers _ _

theorem Custody.turned (h : Custody w) (turned : Turned call id w w') : Custody w' := by
  have reserves := h.sum_turned turned Offer.reserved rfl
  have loans := h.sum_turned turned Offer.lent rfl
  have credits := h.sum_turned turned Offer.usdgCredit rfl
  have meets : ∀ i, Created i w → i ≠ id →
      (w.market.offers i).vault ≠ (w'.market.offers id).vault := by
    intro i created other same
    by_cases before : Created id w
    · rw [turned.vault_eq before] at same
      exact other (h.apart i id created before same)
    · exact (turned.new before).ne_vault i (h.below created) created same.symm
  refine
    { fresh := fun i later => ?_
      sound := fun i => ?_
      reserved_eq := by have := h.reserved_eq; have := turned.reserved; omega
      active_eq := by have := h.active_eq; have := turned.lent; omega
      credits_eq := by have := h.credits_eq; have := turned.credits; omega
      vaulted := fun i created => ?_
      apart := fun i j ci cj same => ?_
      parties := fun i created a party => ?_ }
  · have away : i ≠ id := by
      have := turned.below
      omega
    rw [turned.offer_other away]
    refine h.fresh i ?_
    have := turned.next_eq
    omega
  · by_cases same : i = id
    · exact same ▸ turned.next.sound (h.sound id)
    · exact turned.offer_other same ▸ h.sound i
  · by_cases same : i = id
    · exact same ▸ turned.vaulted
    · have before := turned.created_of same created
      exact (h.vaulted i before).quiet (turned.others i before same) (turned.offer_other same)
  · by_cases hi : i = id <;> by_cases hj : j = id
    · exact hi.trans hj.symm
    · subst hi
      rw [turned.offer_other hj] at same
      exact absurd same.symm (meets j (turned.created_of hj cj) hj)
    · subst hj
      rw [turned.offer_other hi] at same
      exact absurd same (meets i (turned.created_of hi ci) hi)
    · rw [turned.offer_other hi, turned.offer_other hj] at same
      exact h.apart i j (turned.created_of hi ci) (turned.created_of hj cj) same
  · by_cases same : i = id
    · subst same
      obtain ⟨before, party⟩ | ⟨account, away⟩ := turned.acted a party
      · exact (h.parties i before a party).turned h turned fun none => absurd before none
      · exact account.turned h turned away
    · have before := turned.created_of same created
      rw [turned.offer_other same] at party
      refine (h.parties i before a party).turned h turned fun none fresh => ?_
      exact (turned.new none).ne_party i (h.below before) before (fresh ▸ party)

theorem Custody.kept (h : Custody w) (kept : Kept w w') : Custody w' where
  fresh i later := by
    rw [kept.offers_eq]
    exact h.fresh i (kept.next_eq ▸ later)
  sound i := kept.offers_eq ▸ h.sound i
  reserved_eq := by rw [kept.reserved, kept.offers_eq, kept.next_eq, h.reserved_eq]
  active_eq := by rw [kept.lent, kept.offers_eq, kept.next_eq, h.active_eq]
  credits_eq := by rw [kept.credits, kept.offers_eq, kept.next_eq, h.credits_eq]
  vaulted i created := by
    rw [Created, kept.offers_eq] at created
    exact (h.vaulted i created).quiet (kept.quiet i created) (congrFun kept.offers_eq i)
  apart i j ci cj same := by
    rw [Created, kept.offers_eq] at ci cj
    rw [kept.offers_eq] at same
    exact h.apart i j ci cj same
  parties i created a party := by
    rw [Created, kept.offers_eq] at created
    rw [kept.offers_eq] at party
    exact (h.parties i created a party).kept kept

/-! ### Transfers -/

theorem pull_ok {src : Address} (apart : src ≠ vault) (done : pull src vault amount w = .ok w') :
    ∃ usdg, { w with usdg } = w' ∧ P2PVault.Moved src vault amount w.usdg usdg ∧
      ∀ x, (∀ a, w.usdg.allowance x a = 0) → ∀ a, usdg.allowance x a = 0 := by
  simp only [pull, bind_eq_ok, mapError_eq_ok, pure_eq_ok] at done
  obtain ⟨usdg, pulled, rfl⟩ := done
  refine ⟨usdg, rfl, P2PVault.pullExact_moved apart pulled, fun x closed => ?_⟩
  obtain ⟨⟨allowed, funded⟩, rfl⟩ := (P2PVault.pullExact_eq_ok apart).mp pulled
  exact TokenLedger.transferFrom_keeps_closed closed
    ((TokenLedger.transferFrom_eq_some ..).mpr ⟨⟨allowed, funded⟩, rfl⟩)

theorem transferUSDG_ok (done : transferUSDG vault recipient amount w = .ok w') :
    ∃ usdg, { w with usdg } = w' ∧ P2PVault.Moved vault recipient amount w.usdg usdg ∧
      usdg.allowance = w.usdg.allowance := by
  simp only [transferUSDG, bind_eq_ok, mapError_eq_ok, pure_eq_ok] at done
  obtain ⟨usdg, sent, rfl⟩ := done
  refine ⟨usdg, rfl, P2PVault.transferTo_moved sent, ?_⟩
  obtain ⟨-, -, rfl⟩ := P2PVault.transferTo_eq_ok.mp sent
  rfl

/-- A payment leaves everyone but the payer quiet. -/
theorem quiet_of_paid {src dst : Address} {usdg : TokenLedger Address} {market : Market}
    (moved : P2PVault.Moved src dst amount w.usdg usdg)
    (closed : (∀ a, w.usdg.allowance x a = 0) → ∀ a, usdg.allowance x a = 0) (away : x ≠ src) :
    Quiet x w { w with usdg, market } where
  vault_at := rfl
  closed := closed
  balance _ := moved.others x away
  nft c := .refl x (w.nft c)

theorem keeps_update {nft : Address → NftLedger} {collection : Address} {l : NftLedger}
    (keeps : NftLedger.Keeps x (nft collection) l) (c : Address) :
    NftLedger.Keeps x (nft c) (update nft collection l c) := by
  by_cases same : c = collection
  · subst same
    simpa using keeps
  · simpa [same] using NftLedger.Keeps.refl x (nft c)

/-! ### The code of a receiver -/

theorem nonReentrant_eq_ok {body : World → Except Error World} :
    nonReentrant body w = .ok w' ↔ w.market.entered = false ∧
      ∃ v, body { w with market := { w.market with entered := true } } = .ok v ∧
        { v with market := { v.market with entered := false } } = w' := by
  simp only [nonReentrant, bind_eq_ok, revertIf_eq_ok, exists_const, pure_eq_ok,
    Bool.not_eq_true]

/-- USDG or a collection is called by others: nothing else changes, and who sends nothing keeps its
assets. -/
structure Outside (call : Call) (w w' : World) : Prop where
  frame : w' = { w with usdg := w'.usdg, nft := w'.nft }
  quiet : ∀ x, x ≠ 0 → call.sender ≠ some x → call.sender ≠ some 0 → Quiet x w w'

theorem callToken_outside {foreign : World → Except Error World} {call : TokenCall Address}
    (done : exec foreign (.callToken call) w = .ok w') : Outside (.callToken call) w w' := by
  simp only [exec, bind_eq_ok, orRevert_eq_ok, pure_eq_ok] at done
  obtain ⟨usdg, called, rfl⟩ := done
  refine ⟨rfl, fun x _ away _ => ⟨rfl, ?_, ?_, fun c => .refl x (w.nft c)⟩⟩
  · exact TokenCall.exec_keeps_closed called away
  · exact fun closed => (TokenCall.exec_closed called away closed).1

theorem callCollection_outside {foreign : World → Except Error World} {collection : Address}
    {call : NftCall} (done : exec foreign (.callCollection collection call) w = .ok w') :
    Outside (.callCollection collection call) w w' := by
  simp only [exec, bind_eq_ok, orRevert_eq_ok, pure_eq_ok] at done
  obtain ⟨next, called, rfl⟩ := done
  exact ⟨rfl, fun x some_ away nobody => ⟨rfl, id, fun _ => le_rfl,
    keeps_update (NftCall.exec_keeps called some_ away nobody)⟩⟩

/-- While the guard is taken, no call of the market gets through. -/
theorem exec_entered {foreign : World → Except Error World} {call : Call}
    (entered : w.market.entered = true) (done : exec foreign call w = .ok w') :
    Outside call w w' := by
  have shut (body : World → Except Error World) : nonReentrant body w ≠ .ok w' := fun ok => by
    simp [nonReentrant_eq_ok, entered] at ok
  cases call with
  | callToken call => exact callToken_outside done
  | callCollection collection call => exact callCollection_outside done
  | elapse seconds => simp [exec, revertIf, entered] at done
  | _ => exact absurd done (shut _)

theorem runCalls_outside (calls : List Call) (entered : w.market.entered = true) :
    runCalls calls w = { w with usdg := (runCalls calls w).usdg, nft := (runCalls calls w).nft } ∧
      ∀ x, x ≠ 0 → (∀ call ∈ calls, call.sender ≠ some x ∧ call.sender ≠ some 0) →
        Quiet x w (runCalls calls w) := by
  induction calls generalizing w with
  | nil => exact ⟨rfl, fun x _ _ => .refl x w⟩
  | cons call rest ih =>
    have first : Outside call w (reached w (exec .ok call w)) := by
      cases done : exec .ok call w with
      | ok v => exact exec_entered entered done
      | error e => exact ⟨rfl, fun x _ _ _ => .refl x w⟩
    have market := congrArg World.market first.frame
    have later := ih (w := reached w (exec .ok call w)) (by rw [market]; exact entered)
    refine ⟨?_, fun x some_ away => ?_⟩
    · rw [runCalls, later.1, first.frame]
    · have head := away call (List.mem_cons_self ..)
      exact (first.quiet x some_ head.1 head.2).trans
        (later.2 x some_ fun c mem => away c (List.mem_cons_of_mem _ mem))

/-! ### The calls about one offer -/

/-- The index of an account says nothing of the offers. -/
theorem indexed_frame (named : Prop) [Decidable named] (account : Address) (id : ℕ) (m : Market) :
    ∃ accountOfferIds, (if named then indexed account id m else m) = { m with accountOfferIds } := by
  split_ifs
  · exact ⟨_, rfl⟩
  · exact ⟨m.accountOfferIds, rfl⟩

theorem createOffer_turned {terms : Terms} (h : Custody w) (account : Account sender w)
    (new : Unused vault w) (apart : vault ≠ sender)
    (done : createOffer sender terms vault w = .ok w') :
    Turned (.createOffer sender terms vault) w.market.nextOfferId w w' := by
  simp only [createOffer, initializeVault, admission, bind_eq_ok, revertIf_eq_ok, exists_const,
    pure_eq_ok] at done
  obtain ⟨-, -, -, v, ⟨-, rfl⟩, pulled⟩ := done
  have blank := h.fresh _ le_rfl
  have none : ¬Created w.market.nextOfferId w := by rw [Created, blank]; exact fun k => k rfl
  obtain ⟨ids, frame⟩ := indexed_frame (terms.borrower ≠ 0) terms.borrower w.market.nextOfferId
    (indexed sender w.market.nextOfferId (setOffer w.market.nextOfferId
      ⟨sender, terms, vault, 0, .open_, 0, 0⟩
      { w.market with nextOfferId := w.market.nextOfferId + 1 }))
  rw [frame] at pulled
  obtain ⟨usdg, rfl, moved, closed⟩ := pull_ok (Ne.symm apart) pulled
  simp only [indexed, setOffer]
  refine
    { self_eq := rfl
      implementation_eq := rfl
      next := ?_
      offers_eq := by simp only [update_self]
      next_eq := .inr ⟨rfl, rfl⟩
      reserved := ?_
      lent := ?_
      credits := ?_
      vaulted := ?_
      others := fun i created _ => ?_
      acted := fun a party => ?_
      new := ?_ }
  · simpa only [update_self] using .created (by rw [blank]; rfl)
  · simp [blank, Offer.reserved, noOffer]
  · simp [blank, Offer.lent, noOffer]
  · simp [blank, noOffer]
  · refine ⟨?_, ?_, ?_, ?_, ?_, ?_⟩ <;> simp only [update_self]
    · exact new.ne_zero
    · exact closed vault new.closed
    · exact new.silent
    · have paid := moved.dst_eq
      simp only [Offer.funds, Offer.reserved, if_true, Nat.add_zero]
      omega
    · exact fun pledged => by simp [Offer.Pledged] at pledged
  · have below := h.below created
    have paid : Quiet (w.market.offers i).vault w { w with usdg, market := w.market } :=
      quiet_of_paid moved (closed _) (Ne.symm (account.ne_vault i below created))
    refine ⟨?_, paid.closed, paid.balance, paid.nft⟩
    simp only [update_of_ne (Ne.symm (new.ne_vault i below created))]
  · simp only [update_self, Offer.Party, reduceCtorEq, or_self, and_false, or_false] at party ⊢
    exact .inr ⟨party ▸ account, fun _ => party ▸ Ne.symm apart⟩
  · simpa only [update_self] using fun _ => new

/-- A vault answers a safe transfer by its check, and runs nothing else. -/
theorem safeTransferFrom_vault {foreign : World → Except Error World}
    {collection operator src dst : Address} {v : Vault} (vaulted : w.vaultAt dst = some v)
    (done : safeTransferFrom foreign collection operator src dst id w = .ok w') :
    ((w.nft collection).ownerOf id = src ∧ dst ≠ 0) ∧
      w' = { w with nft := update w.nft collection ((w.nft collection).give dst id) } := by
  simp only [safeTransferFrom, received, vaulted, bind_eq_ok, orRevert_eq_ok, pure_eq_ok,
    NftLedger.transferFrom_eq_some] at done
  obtain ⟨_, ⟨⟨owned, -, some_, -⟩, rfl⟩, -, -, rfl⟩ := done
  exact ⟨⟨owned, some_⟩, rfl⟩

theorem acceptOffer_turned {foreign : World → Except Error World} (h : Custody w)
    (account : Account sender w) (done : acceptOffer foreign sender id w = .ok w') :
    Turned (.acceptOffer sender id) id w w' := by
  simp only [acceptOffer, admission, bind_eq_ok, revertIf_eq_ok, exists_const, checkedSub_eq_ok,
    ne_eq, not_not] at done
  obtain ⟨was, -, early, able, -, reserved, ⟨within, same⟩, v, sent, arrived, paid⟩ := done
  have created : Created id w := by rw [Created, was]; decide
  have below := h.below created
  have mine := h.vaulted id created
  obtain ⟨ids, frame⟩ := indexed_frame ((w.market.offers id).terms.borrower = 0) sender id w.market
  rw [frame] at sent same within
  obtain ⟨⟨owned, -⟩, rfl⟩ := safeTransferFrom_vault (by exact mine.vault_at) sent
  obtain ⟨usdg, rfl, moved, allowance⟩ := transferUSDG_ok paid
  simp only [setOffer, update_self] at within same arrived moved allowance ⊢
  subst same
  have given : ∀ i, Created i w → ∀ c, NftLedger.Keeps (w.market.offers i).vault (w.nft c)
      (update w.nft (w.market.offers id).terms.collection
        ((w.nft (w.market.offers id).terms.collection).give (w.market.offers id).vault
          (w.market.offers id).terms.tokenId) c) := by
    intro i created
    refine keeps_update (NftLedger.keeps_give ?_)
    rw [owned]
    exact account.ne_vault i (h.below created) created
  have none := (h.sound id).uncredited (by simp [was])
  refine
    { self_eq := rfl
      implementation_eq := rfl
      next := ?_
      offers_eq := by simp only [update_self]
      next_eq := .inl ⟨below, rfl⟩
      reserved := ?_
      lent := ?_
      credits := ?_
      vaulted := ?_
      others := fun i created' other => ?_
      acted := fun a party => ?_
      new := fun new => absurd created new }
  · simpa only [update_self] using .accepted was (not_le.mp early) (fun same => able (.inl same))
      fun named => by_contra fun other => able (.inr ⟨named, other⟩)
  · simp [was, Offer.reserved]
    omega
  · simp [was, Offer.lent]
  · simp
  · refine ⟨?_, ?_, ?_, ?_, ?_, ?_⟩ <;> simp only [update_self]
    · exact mine.ne_zero
    · exact mine.vault_at
    · exact fun a => allowance ▸ mine.closed a
    · exact fun c => (given id created c).silent (mine.silent c)
    · simp [Offer.funds, Offer.reserved, none]
    · exact fun _ => by simp
  · have apart : (w.market.offers i).vault ≠ (w.market.offers id).vault :=
      fun same => other (h.apart i id created' created same)
    exact ⟨rfl, fun closed a => allowance ▸ closed a, fun _ => moved.others _ apart,
      given i created'⟩
  · simp only [update_self, Offer.Party] at party
    obtain lender | ⟨borrower, -⟩ := party
    · exact .inl ⟨created, .inl lender⟩
    · exact .inr ⟨borrower ▸ account, fun new => absurd created new⟩

/-- An offer that changes while nothing is sent. -/
theorem turned_unpaid {market : Market} (h : Custody w) (created : Created id w)
    (next : Offer.Next w.now id call (w.market.offers id) (market.offers id))
    (offers : market.offers = update w.market.offers id (market.offers id))
    (next_eq : market.nextOfferId = w.market.nextOfferId)
    (reserved : market.reservedPrincipal + (w.market.offers id).reserved =
      w.market.reservedPrincipal + (market.offers id).reserved)
    (lent : market.activePrincipal + (w.market.offers id).lent =
      w.market.activePrincipal + (market.offers id).lent)
    (credits : market.totalUSDGCredits + (w.market.offers id).usdgCredit =
      w.market.totalUSDGCredits + (market.offers id).usdgCredit)
    (party : ∀ a, (market.offers id).Party a → (w.market.offers id).Party a)
    (funds : (market.offers id).funds ≤ (w.market.offers id).funds)
    (pledged : (market.offers id).Pledged → (w.market.offers id).Pledged) :
    Turned call id w { w with market } := by
  have mine := h.vaulted id created
  obtain ⟨vault, -, collection, tokenId⟩ := next.fixed created
  refine
    { self_eq := rfl
      implementation_eq := rfl
      next := next
      offers_eq := offers
      next_eq := .inl ⟨h.below created, next_eq⟩
      reserved := reserved
      lent := lent
      credits := credits
      vaulted := ?_
      others := fun i _ _ => ⟨rfl, fun closed => closed, fun _ => le_rfl, fun _ => .refl _ _⟩
      acted := fun a acted => .inl ⟨created, party a acted⟩
      new := fun new => absurd created new }
  refine ⟨?_, ?_, ?_, ?_, ?_, ?_⟩ <;> simp only [vault, collection, tokenId]
  · exact mine.ne_zero
  · exact mine.vault_at
  · exact mine.closed
  · exact mine.silent
  · exact funds.trans mine.funded
  · exact fun still => mine.held (pledged still)

/-- `_close`, for the two calls that close an offer. -/
theorem close_turned {status : Status} (h : Custody w)
    (ended : status = .cancelled ∨ status = .expired)
    (next : (w.market.offers id).status = .open_ →
      Offer.Next w.now id call (w.market.offers id)
        { w.market.offers id with status, usdgCredit := (w.market.offers id).terms.principal })
    (done : close id status w = .ok w') : Turned call id w w' := by
  simp only [close, bind_eq_ok, revertIf_eq_ok, exists_const, checkedSub_eq_ok, pure_eq_ok, ne_eq,
    not_not] at done
  obtain ⟨was, reserved, ⟨within, rfl⟩, rfl⟩ := done
  have created : Created id w := by rw [Created, was]; decide
  have none := (h.sound id).uncredited (by simp [was])
  have unclaimed := (h.sound id).unclaimed (by simp [was])
  apply turned_unpaid h created <;> simp only [setOffer, update_self]
  · exact next was
  · obtain rfl | rfl := ended <;> simp [Offer.reserved, was] <;> omega
  · obtain rfl | rfl := ended <;> simp [Offer.lent, was]
  · rw [none, Nat.add_zero]
  · obtain rfl | rfl := ended <;> simp [Offer.Party]
  · obtain rfl | rfl := ended <;> simp [Offer.funds, Offer.reserved, was]
  · obtain rfl | rfl := ended <;> simp [Offer.Pledged, unclaimed]

theorem cancelOffer_turned (h : Custody w) (done : cancelOffer sender id w = .ok w') :
    Turned (.cancelOffer sender id) id w w' := by
  simp only [cancelOffer, bind_eq_ok, revertIf_eq_ok, exists_const, ne_eq, not_not] at done
  exact close_turned h (.inl rfl) (fun was => .cancelled was done.1) done.2

theorem expireOffer_turned (h : Custody w) (done : expireOffer id w = .ok w') :
    Turned (.expireOffer sender id) id w w' := by
  simp only [expireOffer, bind_eq_ok, revertIf_eq_ok, exists_const, not_lt] at done
  exact close_turned h (.inr rfl) (fun was => .expired was done.1) done.2

theorem settleDefault_turned (h : Custody w) (done : settleDefault id w = .ok w') :
    Turned (.settleDefault sender id) id w w' := by
  simp only [settleDefault, bind_eq_ok, revertIf_eq_ok, exists_const, checkedSub_eq_ok, pure_eq_ok,
    ne_eq, not_not] at done
  obtain ⟨was, late, active, ⟨within, rfl⟩, rfl⟩ := done
  have created : Created id w := by rw [Created, was]; decide
  apply turned_unpaid h created <;> simp only [setOffer, update_self]
  · exact .defaulted was (not_le.mp late)
  · simp [Offer.reserved, was]
  · simp [Offer.lent, was]
    omega
  · simp [Offer.Party, was]
  · simp [Offer.funds, Offer.reserved, was]
  · simp [Offer.Pledged, was]

theorem repay_turned (h : Custody w) (account : Account sender w)
    (done : repay sender id w = .ok w') : Turned (.repay sender id) id w w' := by
  simp only [repay, bind_eq_ok, revertIf_eq_ok, exists_const, checkedSub_eq_ok, ne_eq,
    not_not] at done
  obtain ⟨was, early, active, ⟨within, rfl⟩, pulled⟩ := done
  have created : Created id w := by rw [Created, was]; decide
  have below := h.below created
  have mine := h.vaulted id created
  have none := (h.sound id).uncredited (by simp [was])
  obtain ⟨usdg, rfl, moved, closed⟩ := pull_ok (account.ne_vault id below created) pulled
  simp only [setOffer] at within moved closed ⊢
  refine
    { self_eq := rfl
      implementation_eq := rfl
      next := ?_
      offers_eq := by simp only [update_self]
      next_eq := .inl ⟨below, rfl⟩
      reserved := ?_
      lent := ?_
      credits := ?_
      vaulted := ?_
      others := fun i created' _ => ?_
      acted := fun a party => .inl ⟨created, ?_⟩
      new := fun new => absurd created new }
  · simpa only [update_self] using .repaid was (not_lt.mp early)
  · simp [was, Offer.reserved]
  · simp [was, Offer.lent]
    omega
  · simp [none]
  · refine ⟨?_, ?_, ?_, ?_, ?_, ?_⟩ <;> simp only [update_self]
    · exact mine.ne_zero
    · exact mine.vault_at
    · exact closed _ mine.closed
    · exact mine.silent
    · have paid := moved.dst_eq
      simp only [Offer.funds, Offer.reserved, reduceCtorEq, if_false]
      omega
    · exact fun _ => mine.held (.inl was)
  · exact quiet_of_paid moved (closed _)
      (Ne.symm (account.ne_vault i (h.below created') created'))
  · simpa [Offer.Party, was] using party

theorem withdrawUSDG_turned (h : Custody w)
    (done : withdrawUSDG sender id amount recipient w = .ok w') :
    Turned (.withdrawUSDG sender id amount recipient) id w w' := by
  simp only [withdrawUSDG, validRecipient, bind_eq_ok, revertIf_eq_ok, exists_const,
    checkedSub_eq_ok, not_or, not_lt, ne_eq, not_not] at done
  obtain ⟨lends, -, ⟨positive, -⟩, credit, ⟨within, rfl⟩, total, ⟨counted, rfl⟩, sent⟩ := done
  have some_ : (w.market.offers id).usdgCredit ≠ 0 := by omega
  have settled := (h.sound id).credit some_
  have created : Created id w := by
    obtain is | is | is := settled <;> rw [Created, is] <;> decide
  have mine := h.vaulted id created
  obtain ⟨usdg, rfl, moved, allowance⟩ := transferUSDG_ok sent
  simp only [setOffer] at moved allowance ⊢
  refine
    { self_eq := rfl
      implementation_eq := rfl
      next := ?_
      offers_eq := by simp only [update_self]
      next_eq := .inl ⟨h.below created, rfl⟩
      reserved := ?_
      lent := ?_
      credits := ?_
      vaulted := ?_
      others := fun i created' other => ?_
      acted := fun a party => .inl ⟨created, ?_⟩
      new := fun new => absurd created new }
  · simpa only [update_self] using .paid lends within
  · simp only [update_self, Offer.reserved]
  · simp only [update_self, Offer.lent]
  · simp only [update_self]
    omega
  · refine ⟨?_, ?_, ?_, ?_, ?_, ?_⟩ <;> simp only [update_self]
    · exact mine.ne_zero
    · exact mine.vault_at
    · exact fun a => allowance ▸ mine.closed a
    · exact mine.silent
    · have paid := moved.src_eq
      have funded := mine.funded
      simp only [Offer.funds, Offer.reserved] at funded ⊢
      omega
    · exact mine.held
  · have apart : (w.market.offers i).vault ≠ (w.market.offers id).vault :=
      fun same => other (h.apart i id created' created same)
    exact quiet_of_paid moved (fun closed a => allowance ▸ closed a) apart
  · simp only [update_self] at party
    exact party

/-- The code of a receiver changes nothing of the market, and leaves the assets of who sends
nothing alone. -/
theorem receiver_outside {r : Receiver} (entered : w.market.entered = true)
    (done : r.run w = .ok w') :
    w' = { w with usdg := w'.usdg, nft := w'.nft } ∧
      ∀ x, x ≠ 0 → (∀ call ∈ r.calls, call.sender ≠ some x ∧ call.sender ≠ some 0) →
        Quiet x w w' := by
  simp only [Receiver.run, bind_eq_ok, revertIf_eq_ok, exists_const, pure_eq_ok] at done
  obtain ⟨-, rfl⟩ := done
  exact runCalls_outside r.calls entered

/-- A safe transfer and the code that it runs. -/
theorem safeTransferFrom_ok {r : Receiver} {collection operator src dst : Address} {tokenId : ℕ}
    (entered : w.market.entered = true)
    (done : safeTransferFrom r.run collection operator src dst tokenId w = .ok w') :
    (w.nft collection).ownerOf tokenId = src ∧ w' = { w with usdg := w'.usdg, nft := w'.nft } ∧
      ∀ x, x ≠ 0 → (∀ call ∈ r.calls, call.sender ≠ some x ∧ call.sender ≠ some 0) →
        Quiet x { w with nft := update w.nft collection ((w.nft collection).give dst tokenId) }
          w' := by
  simp only [safeTransferFrom, bind_eq_ok, orRevert_eq_ok,
    NftLedger.transferFrom_eq_some] at done
  obtain ⟨_, ⟨⟨owned, -, -, -⟩, rfl⟩, told⟩ := done
  refine ⟨owned, ?_⟩
  simp only [received] at told
  split at told
  · simp only [bind_eq_ok, pure_eq_ok] at told
    obtain ⟨-, -, rfl⟩ := told
    exact ⟨rfl, fun x _ _ => .refl x _⟩
  · obtain ⟨frame, quiet⟩ := receiver_outside (by exact entered) told
    refine ⟨?_, quiet⟩
    rw [frame]

theorem withdrawNFT_turned {r : Receiver} (h : Custody w) (entered : w.market.entered = true)
    (account : Account sender w)
    (away : ∀ call ∈ r.calls, ∀ a, call.sender = some a → Account a w)
    (done : withdrawNFT r.run sender id recipient w = .ok w') :
    Turned (.withdrawNFT sender id recipient) id w w' := by
  simp only [withdrawNFT, transferNFT, validRecipient, setOffer, bind_eq_ok, revertIf_eq_ok,
    exists_const, orRevert_eq_ok, pure_eq_ok, ne_eq, not_not] at done
  obtain ⟨mine, -, -, v, vaulted, v', sent, -, rfl⟩ := done
  have some_ : (w.market.offers id).nftBeneficiary ≠ 0 := mine ▸ account.ne_zero
  have settled := (h.sound id).beneficiary some_
  have created : Created id w := by
    obtain is | is := settled <;> rw [Created, is.1] <;> decide
  have held := h.vaulted id created
  rw [held.vault_at, Option.some.injEq] at vaulted
  subst vaulted
  obtain ⟨owned, frame, quiet⟩ := safeTransferFrom_ok (by exact entered) sent
  have silent : ∀ i, Created i w → ∀ call ∈ r.calls,
      call.sender ≠ some (w.market.offers i).vault ∧ call.sender ≠ some 0 := fun i created call mem =>
    ⟨fun is => (away call mem _ is).ne_vault i (h.below created) created rfl,
      fun is => (away call mem _ is).ne_zero rfl⟩
  have later := fun i created => quiet _ (h.vaulted i created).ne_zero (silent i created)
  have market := congrArg World.market frame
  have offer : v'.market.offers id = { w.market.offers id with nftBeneficiary := 0 } := by
    rw [market]
    exact update_self ..
  refine
    { self_eq := by rw [frame]
      implementation_eq := by rw [frame]
      next := offer ▸ .released mine
      offers_eq := by rw [offer, market]
      next_eq := .inl ⟨h.below created, by rw [market]⟩
      reserved := by rw [offer, market]; rfl
      lent := by rw [offer, market]; rfl
      credits := by rw [offer, market]
      vaulted := ?_
      others := fun i created' other => ?_
      acted := fun a party => .inl ⟨created, by rwa [offer] at party⟩
      new := fun new => absurd created new }
  · have mine := later id created
    refine ⟨?_, ?_, ?_, ?_, ?_, ?_⟩ <;> rw [offer]
    · exact held.ne_zero
    · exact mine.vault_at.trans held.vault_at
    · exact mine.closed held.closed
    · refine fun c => (mine.nft c).silent ?_
      by_cases same : c = (w.market.offers id).terms.collection
      · subst same
        simpa using (held.silent _).give _ _
      · simpa [same] using held.silent c
    · exact held.funded.trans (mine.balance held.closed)
    · intro pledged
      obtain is | is := settled <;> simp [Offer.Pledged, is.1] at pledged
  · have apart : (w.market.offers id).vault ≠ (w.market.offers i).vault :=
      fun same => other (h.apart id i created created' same).symm
    have given : Quiet (w.market.offers i).vault w
        { w with
          nft := update w.nft (w.market.offers id).terms.collection
            ((w.nft (w.market.offers id).terms.collection).give recipient
              (w.market.offers id).terms.tokenId) } :=
      ⟨rfl, fun closed => closed, fun _ => le_rfl,
        keeps_update (NftLedger.keeps_give (by rw [owned]; exact apart))⟩
    have quiet := later i created'
    exact given.trans ⟨quiet.vault_at, quiet.closed, quiet.balance, quiet.nft⟩

/-! ### Transactions -/

def Tx.calls (tx : Tx) : List Call := tx.call :: tx.receiver.calls

/-- Calls come from accounts, and a new clone is new. -/
structure Lawful (tx : Tx) (w : World) : Prop where
  accounts : ∀ call ∈ tx.calls, ∀ a, call.sender = some a → Account a w
  clone : ∀ sender terms vault, tx.call = .createOffer sender terms vault →
    Unused vault w ∧ vault ≠ sender

def Step (w : World) (tx : Tx) (w' : World) : Prop := transact tx w = .ok w' ∧ Lawful tx w

/-- A call about one offer, or about none. -/
inductive Effect (call : Call) (w w' : World) : Prop
  | turned (id : ℕ) (turned : Turned call id w w')
  | kept (kept : Kept w w')

def World.guarded (entered : Bool) (w : World) : World :=
  { w with market := { w.market with entered } }

theorem Custody.guarded (h : Custody w) (entered : Bool) : Custody (w.guarded entered) where
  fresh := h.fresh
  sound := h.sound
  reserved_eq := h.reserved_eq
  active_eq := h.active_eq
  credits_eq := h.credits_eq
  vaulted id created := have v := h.vaulted id created; ⟨v.1, v.2, v.3, v.4, v.5, v.6⟩
  apart := h.apart
  parties id created a party := have p := h.parties id created a party; ⟨p.1, p.2, p.3, p.4⟩

theorem Account.guarded {a : Address} (h : Account a w) (entered : Bool) :
    Account a (w.guarded entered) :=
  ⟨h.ne_zero, h.ne_self, h.ne_implementation, h.ne_vault⟩

theorem Unused.guarded {a : Address} (h : Unused a w) (entered : Bool) :
    Unused a (w.guarded entered) :=
  ⟨h.ne_zero, h.ne_vault, h.ne_party, h.closed, h.silent⟩

/-- The guard is nothing that an offer or a vault shows. -/
theorem Turned.guarded {before after : Bool} (turned : Turned call id (w.guarded before) w') :
    Turned call id w (w'.guarded after) where
  self_eq := turned.self_eq
  implementation_eq := turned.implementation_eq
  next := turned.next
  offers_eq := turned.offers_eq
  next_eq := turned.next_eq
  reserved := turned.reserved
  lent := turned.lent
  credits := turned.credits
  vaulted := have v := turned.vaulted; ⟨v.1, v.2, v.3, v.4, v.5, v.6⟩
  others i created other := have q := turned.others i created other; ⟨q.1, q.2, q.3, q.4⟩
  acted a party := (turned.acted a party).imp_right fun k => ⟨⟨k.1.1, k.1.2, k.1.3, k.1.4⟩, k.2⟩
  new none := have u := turned.new none; ⟨u.1, u.2, u.3, u.4, u.5⟩

/-- The settings of the market concern no offer. -/
theorem kept_of_settings {market : Market} (offers_eq : market.offers = w.market.offers)
    (next_eq : market.nextOfferId = w.market.nextOfferId)
    (reserved : market.reservedPrincipal = w.market.reservedPrincipal)
    (lent : market.activePrincipal = w.market.activePrincipal)
    (credits : market.totalUSDGCredits = w.market.totalUSDGCredits) : Kept w { w with market } where
  self_eq := rfl
  implementation_eq := rfl
  offers_eq := offers_eq
  next_eq := next_eq
  reserved := reserved
  lent := lent
  credits := credits
  quiet _ _ := ⟨rfl, fun closed => closed, fun _ => le_rfl, fun _ => .refl _ _⟩

theorem Outside.kept (h : Custody w) (outside : Outside call w w')
    (accounts : ∀ a, call.sender = some a → Account a w) : Kept w w' := by
  have market := congrArg World.market outside.frame
  refine
    { self_eq := by rw [outside.frame]
      implementation_eq := by rw [outside.frame]
      offers_eq := by rw [market]
      next_eq := by rw [market]
      reserved := by rw [market]
      lent := by rw [market]
      credits := by rw [market]
      quiet := fun i created => outside.quiet _ (h.vaulted i created).ne_zero ?_ ?_ }
  · exact fun is => (accounts _ is).ne_vault i (h.below created) created rfl
  · exact fun is => (accounts _ is).ne_zero rfl

theorem transact_effect {tx : Tx} (h : Custody w) (lawful : Lawful tx w)
    (done : transact tx w = .ok w') : Effect tx.call w w' := by
  have h' := h.guarded true
  obtain ⟨call, r⟩ := tx
  have accounts : ∀ a, call.sender = some a → Account a w :=
    lawful.accounts call (List.mem_cons_self ..)
  simp only [transact] at done
  cases call with
  | callToken call => exact .kept ((callToken_outside done).kept h accounts)
  | callCollection collection call => exact .kept ((callCollection_outside done).kept h accounts)
  | elapse seconds =>
    simp only [exec, bind_eq_ok, revertIf_eq_ok, exists_const, pure_eq_ok] at done
    obtain ⟨-, rfl⟩ := done
    exact .kept ⟨⟨rfl, rfl⟩, rfl, rfl, rfl, rfl, rfl,
      fun _ _ => ⟨rfl, id, fun _ => le_rfl, fun _ => .refl _ _⟩⟩
  | setCollectionAllowed sender collection allowed =>
    simp only [exec, nonReentrant_eq_ok, setCollectionAllowed, bind_eq_ok, revertIf_eq_ok,
      exists_const, pure_eq_ok, onlyOwner] at done
    obtain ⟨-, v, ⟨-, -, rfl⟩, rfl⟩ := done
    exact .kept (kept_of_settings rfl rfl rfl rfl rfl)
  | setNewLoansPaused sender paused =>
    simp only [exec, nonReentrant_eq_ok, setNewLoansPaused, bind_eq_ok, revertIf_eq_ok,
      exists_const, pure_eq_ok, onlyOwner] at done
    obtain ⟨-, v, ⟨-, rfl⟩, rfl⟩ := done
    exact .kept (kept_of_settings rfl rfl rfl rfl rfl)
  | nominateOwner sender nominee =>
    simp only [exec, nonReentrant_eq_ok, nominateOwner, bind_eq_ok, revertIf_eq_ok,
      exists_const, pure_eq_ok, onlyOwner] at done
    obtain ⟨-, v, ⟨-, -, rfl⟩, rfl⟩ := done
    exact .kept (kept_of_settings rfl rfl rfl rfl rfl)
  | acceptOwnership sender =>
    simp only [exec, nonReentrant_eq_ok, acceptOwnership, bind_eq_ok, revertIf_eq_ok,
      exists_const, pure_eq_ok] at done
    obtain ⟨-, v, ⟨-, rfl⟩, rfl⟩ := done
    exact .kept (kept_of_settings rfl rfl rfl rfl rfl)
  | createOffer sender terms vault =>
    obtain ⟨-, v, created, rfl⟩ := nonReentrant_eq_ok.mp done
    obtain ⟨new, apart⟩ := lawful.clone sender terms vault rfl
    have turned := createOffer_turned h' ((accounts sender rfl).guarded true) (new.guarded true)
      apart created
    exact .turned _ turned.guarded
  | acceptOffer sender id =>
    obtain ⟨-, v, accepted, rfl⟩ := nonReentrant_eq_ok.mp done
    exact .turned id (acceptOffer_turned h' ((accounts sender rfl).guarded true) accepted).guarded
  | cancelOffer sender id =>
    obtain ⟨-, v, cancelled, rfl⟩ := nonReentrant_eq_ok.mp done
    exact .turned id (cancelOffer_turned h' cancelled).guarded
  | expireOffer sender id =>
    obtain ⟨-, v, expired, rfl⟩ := nonReentrant_eq_ok.mp done
    exact .turned id (expireOffer_turned h' expired).guarded
  | repay sender id =>
    obtain ⟨-, v, repaid, rfl⟩ := nonReentrant_eq_ok.mp done
    exact .turned id (repay_turned h' ((accounts sender rfl).guarded true) repaid).guarded
  | settleDefault sender id =>
    obtain ⟨-, v, defaulted, rfl⟩ := nonReentrant_eq_ok.mp done
    exact .turned id (settleDefault_turned h' defaulted).guarded
  | withdrawUSDG sender id amount recipient =>
    obtain ⟨-, v, paid, rfl⟩ := nonReentrant_eq_ok.mp done
    exact .turned id (withdrawUSDG_turned h' paid).guarded
  | withdrawNFT sender id recipient =>
    obtain ⟨-, v, withdrawn, rfl⟩ := nonReentrant_eq_ok.mp done
    refine .turned id (withdrawNFT_turned h' rfl ((accounts sender rfl).guarded true) ?_
      withdrawn).guarded
    exact fun call mem a is => (lawful.accounts call (List.mem_cons_of_mem _ mem) a is).guarded true

end Turret.NFTLending
