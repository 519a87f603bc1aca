import Turret.P2P.NFTExits

/-! The account index of the NFT market: the offers that an account makes, is named
in or accepts, each once. The index only grows, so that it can be read page by page
while transactions go on. -/

namespace Turret.NFTLending

open Execution Function

variable {w w' : World} {call : Call} {id : ℕ} {a sender vault : Address} {terms : Terms}

/-- The lender of an offer, or its borrower, named by the lender or by acceptance. -/
def Offer.Names (a : Address) (o : Offer) : Prop := a = o.lender ∨ a ≠ 0 ∧ a = o.terms.borrower

/-- Whether a call about an offer enters it into the index of an account. -/
def Call.enters (o : Offer) (a : Address) : Call → Bool
  | .createOffer sender terms _ => decide (a = sender ∨ terms.borrower ≠ 0 ∧ a = terms.borrower)
  | .acceptOffer sender _ => decide (a = sender ∧ o.terms.borrower = 0)
  | _ => false

/-- The index after a call about the offer `id`. -/
def Indexes (call : Call) (id : ℕ) (w w' : World) : Prop :=
  ∀ a, w'.market.accountOfferIds a = w.market.accountOfferIds a ++
    if call.enters (w.market.offers id) a = true then [id] else []

/-! ### What a call does to the index -/

namespace Offer.Next

variable {o o' : Offer} {now : ℕ}

theorem accepted_id {i : ℕ} (next : Next now i (.acceptOffer sender id) o o') : i = id := by
  cases next
  rfl

/-- An offer names one more account exactly when it is entered into the account's index. -/
theorem names (next : Next now id call o o') (sent : ∀ s, call.sender = some s → s ≠ 0) :
    (o'.status ≠ .none ∧ o'.Names a ↔
      (o.status ≠ .none ∧ o.Names a) ∨ call.enters o a = true) ∧
      (call.enters o a = true → ¬(o.status ≠ .none ∧ o.Names a)) := by
  cases next with
  | @created o sender vault terms was =>
    have named : a ≠ 0 ∧ a = terms.borrower ↔ terms.borrower ≠ 0 ∧ a = terms.borrower :=
      and_congr_left fun same => same ▸ Iff.rfl
    simp [Call.enters, Names, was, ← named]
  | @accepted o sender was early other named =>
    have some_ : sender ≠ 0 := sent sender rfl
    by_cases free : o.terms.borrower = 0
    · have lends : a = sender → a ≠ o.lender := fun same => same ▸ other
      have real : a = sender → a ≠ 0 := fun same => same ▸ some_
      simp only [Call.enters, Names, was, free, decide_eq_true_eq]
      tauto
    · have same := named free
      simp [Call.enters, Names, was, free, same]
  | cancelled was => simp [Call.enters, Names, was]
  | expired was => simp [Call.enters, Names, was]
  | repaid was => simp [Call.enters, Names, was]
  | defaulted was => simp [Call.enters, Names, was]
  | paid => simp [Call.enters, Names]
  | released => simp [Call.enters, Names]

end Offer.Next

theorem pull_market {src : Address} {amount : ℕ} (done : pull src vault amount w = .ok w') :
    w'.market = w.market := by
  simp only [pull, bind_eq_ok, pure_eq_ok] at done
  obtain ⟨usdg, -, rfl⟩ := done
  rfl

theorem transferUSDG_market {recipient : Address} {amount : ℕ}
    (done : transferUSDG vault recipient amount w = .ok w') : w'.market = w.market := by
  simp only [transferUSDG, bind_eq_ok, pure_eq_ok] at done
  obtain ⟨usdg, -, rfl⟩ := done
  rfl

theorem createOffer_indexes {foreign : World → Except Error World}
    (done : exec foreign (.createOffer sender terms vault) w = .ok w') :
    w'.market.nextOfferId = w.market.nextOfferId + 1 ∧
      Indexes (.createOffer sender terms vault) w.market.nextOfferId w w' := by
  obtain ⟨-, v, created, rfl⟩ := nonReentrant_eq_ok.mp done
  simp only [createOffer, admission, bind_eq_ok, revertIf_eq_ok, exists_const, not_or] at created
  obtain ⟨-, ⟨other, -⟩, -, _, -, pulled⟩ := created
  have market := pull_market pulled
  simp only [Indexes, Call.enters, decide_eq_true_eq]
  rw [market]
  by_cases named : terms.borrower = 0
  · refine ⟨by simp [named, indexed, setOffer], fun a => ?_⟩
    by_cases mine : a = sender <;> simp [named, mine, indexed, setOffer]
  · refine ⟨by simp [named, indexed, setOffer], fun a => ?_⟩
    by_cases mine : a = sender
    · have apart : sender ≠ terms.borrower := Ne.symm other
      simp [named, mine, apart, indexed, setOffer]
    · by_cases borrows : a = terms.borrower <;>
        simp [named, mine, borrows, other, indexed, setOffer]

theorem acceptOffer_indexes {foreign : World → Except Error World} (h : Custody w)
    (done : exec foreign (.acceptOffer sender id) w = .ok w') :
    w'.market.offers ≠ w.market.offers ∧ Indexes (.acceptOffer sender id) id w w' := by
  obtain ⟨-, v, accepted, rfl⟩ := nonReentrant_eq_ok.mp done
  simp only [acceptOffer, admission, bind_eq_ok, revertIf_eq_ok, exists_const, checkedSub_eq_ok,
    ne_eq, not_not] at accepted
  obtain ⟨was, -, -, -, -, reserved, -, u, sent, -, paid⟩ := accepted
  have created : Created id w := by rw [Created, was]; decide
  have held := (h.vaulted id created).vault_at
  obtain ⟨-, rfl⟩ := safeTransferFrom_vault (by exact held) sent
  have market := transferUSDG_market paid
  constructor
  · intro same
    have turned := congrArg Offer.status (congrFun same id)
    simp [market, setOffer, was] at turned
  · intro a
    simp only [Call.enters, market, setOffer, decide_eq_true_eq]
    by_cases free : (w.market.offers id).terms.borrower = 0 <;> by_cases mine : a = sender <;>
      simp [free, mine, indexed]

/-- No other call touches the index. -/
theorem exec_index {r : Receiver} (created : ∀ s t v, call ≠ .createOffer s t v)
    (accepted : ∀ s i, call ≠ .acceptOffer s i) (done : exec r.run call w = .ok w') :
    w'.market.accountOfferIds = w.market.accountOfferIds := by
  cases call with
  | createOffer sender terms vault => exact absurd rfl (created sender terms vault)
  | acceptOffer sender id => exact absurd rfl (accepted sender id)
  | callToken call => rw [(callToken_outside done).frame]
  | callCollection collection call => rw [(callCollection_outside done).frame]
  | elapse seconds =>
    simp only [exec, bind_eq_ok, revertIf_eq_ok, exists_const, pure_eq_ok] at done
    obtain ⟨-, rfl⟩ := done
    rfl
  | setCollectionAllowed sender collection allowed =>
    obtain ⟨-, v, set, rfl⟩ := nonReentrant_eq_ok.mp done
    simp only [setCollectionAllowed, onlyOwner, bind_eq_ok, revertIf_eq_ok, exists_const,
      pure_eq_ok] at set
    obtain ⟨-, -, rfl⟩ := set
    rfl
  | setNewLoansPaused sender paused =>
    obtain ⟨-, v, set, rfl⟩ := nonReentrant_eq_ok.mp done
    simp only [setNewLoansPaused, onlyOwner, bind_eq_ok, revertIf_eq_ok, exists_const,
      pure_eq_ok] at set
    obtain ⟨-, rfl⟩ := set
    rfl
  | nominateOwner sender nominee =>
    obtain ⟨-, v, set, rfl⟩ := nonReentrant_eq_ok.mp done
    simp only [nominateOwner, onlyOwner, bind_eq_ok, revertIf_eq_ok, exists_const,
      pure_eq_ok] at set
    obtain ⟨-, -, rfl⟩ := set
    rfl
  | acceptOwnership sender =>
    obtain ⟨-, v, set, rfl⟩ := nonReentrant_eq_ok.mp done
    simp only [acceptOwnership, bind_eq_ok, revertIf_eq_ok, exists_const, pure_eq_ok] at set
    obtain ⟨-, rfl⟩ := set
    rfl
  | cancelOffer sender id =>
    obtain ⟨-, v, closed, rfl⟩ := nonReentrant_eq_ok.mp done
    simp only [cancelOffer, close, bind_eq_ok, revertIf_eq_ok, exists_const, pure_eq_ok] at closed
    obtain ⟨-, -, reserved, -, rfl⟩ := closed
    rfl
  | expireOffer sender id =>
    obtain ⟨-, v, closed, rfl⟩ := nonReentrant_eq_ok.mp done
    simp only [expireOffer, close, bind_eq_ok, revertIf_eq_ok, exists_const, pure_eq_ok] at closed
    obtain ⟨-, -, reserved, -, rfl⟩ := closed
    rfl
  | settleDefault sender id =>
    obtain ⟨-, v, settled, rfl⟩ := nonReentrant_eq_ok.mp done
    simp only [settleDefault, bind_eq_ok, revertIf_eq_ok, exists_const, pure_eq_ok] at settled
    obtain ⟨-, -, active, -, rfl⟩ := settled
    rfl
  | repay sender id =>
    obtain ⟨-, v, repaid, rfl⟩ := nonReentrant_eq_ok.mp done
    simp only [repay, bind_eq_ok, revertIf_eq_ok, exists_const] at repaid
    obtain ⟨-, -, active, -, pulled⟩ := repaid
    have index := congrArg Market.accountOfferIds (pull_market pulled)
    exact index
  | withdrawUSDG sender id amount recipient =>
    obtain ⟨-, v, withdrawn, rfl⟩ := nonReentrant_eq_ok.mp done
    simp only [withdrawUSDG, validRecipient, bind_eq_ok, revertIf_eq_ok, exists_const] at withdrawn
    obtain ⟨-, -, -, credit, -, total, -, sent⟩ := withdrawn
    have index := congrArg Market.accountOfferIds (transferUSDG_market sent)
    exact index
  | withdrawNFT sender id recipient =>
    obtain ⟨-, v, withdrawn, rfl⟩ := nonReentrant_eq_ok.mp done
    simp only [withdrawNFT, transferNFT, validRecipient, bind_eq_ok, revertIf_eq_ok, exists_const,
      pure_eq_ok] at withdrawn
    obtain ⟨-, -, -, vault, -, u, sent, -, rfl⟩ := withdrawn
    have market := congrArg World.market (safeTransferFrom_ok (by rfl) sent).2.1
    have index := congrArg Market.accountOfferIds market
    exact index

/-- A transaction turns one offer and indexes it, or leaves the offers and the index alone. -/
theorem transact_indexes {tx : Tx} (h : Custody w) (lawful : Lawful tx w)
    (done : transact tx w = .ok w') :
    (∃ id, Turned tx.call id w w' ∧ Indexes tx.call id w w') ∨
      Kept w w' ∧ w'.market.accountOfferIds = w.market.accountOfferIds := by
  have effect := transact_effect h lawful done
  by_cases created : ∃ s t v, tx.call = .createOffer s t v
  · obtain ⟨s, t, v, is⟩ := created
    rw [transact, is] at done
    obtain ⟨next_eq, indexes⟩ := createOffer_indexes done
    rw [is] at effect ⊢
    cases effect with
    | turned id turned =>
      have new := turned.next_eq
      obtain rfl : id = w.market.nextOfferId := by omega
      exact .inl ⟨_, turned, indexes⟩
    | kept kept =>
      have same := kept.next_eq
      omega
  by_cases accepted : ∃ s i, tx.call = .acceptOffer s i
  · obtain ⟨s, i, is⟩ := accepted
    rw [transact, is] at done
    obtain ⟨changed, indexes⟩ := acceptOffer_indexes h done
    rw [is] at effect ⊢
    cases effect with
    | turned id turned =>
      obtain rfl := turned.next.accepted_id
      exact .inl ⟨_, turned, indexes⟩
    | kept kept => exact absurd kept.offers_eq changed
  · have index := exec_index (fun s t v is => created ⟨s, t, v, is⟩)
      (fun s i is => accepted ⟨s, i, is⟩) done
    cases effect with
    | turned id turned =>
      refine .inl ⟨id, turned, fun a => ?_⟩
      have none : tx.call.enters (w.market.offers id) a = false := by
        unfold Call.enters
        split <;> simp_all
      simp [index, none]
    | kept kept => exact .inr ⟨kept, index⟩

/-! ### The index over a run -/

/-- An account has each offer that names it in its index, once. -/
def Listed (w : World) : Prop :=
  ∀ a, (w.market.accountOfferIds a).Nodup ∧
    ∀ id, id ∈ w.market.accountOfferIds a ↔ Created id w ∧ (w.market.offers id).Names a

theorem Deployed.listed (h : Deployed w) : Listed w := by
  intro a
  have blank : w.market.accountOfferIds a = [] := by rw [h.market_eq]; rfl
  have none (id : ℕ) : ¬Created id w := by
    rw [Created, h.market_eq]
    exact fun created => created rfl
  rw [blank]
  exact ⟨List.nodup_nil, fun id => by simp [none id]⟩

theorem Turned.listed (listed : Listed w) (turned : Turned call id w w')
    (indexes : Indexes call id w w') (sent : ∀ s, call.sender = some s → s ≠ 0) : Listed w' := by
  intro a
  obtain ⟨nodup, members⟩ := listed a
  obtain ⟨names, once⟩ := turned.next.names (a := a) sent
  rw [indexes a]
  refine ⟨?_, fun i => ?_⟩
  · split_ifs with entered
    · refine nodup.append (List.nodup_singleton id) ?_
      rw [List.disjoint_singleton]
      exact fun mem => once entered ((members id).mp mem)
    · rwa [List.append_nil]
  · rw [List.mem_append, members i]
    by_cases same : i = id
    · subst same
      rw [Created, Created, names]
      split_ifs with entered <;> simp [entered]
    · have offer := turned.offer_other same
      rw [Created, Created, offer]
      split_ifs <;> simp [same]

theorem transact_listed {tx : Tx} (h : Custody w) (listed : Listed w) (lawful : Lawful tx w)
    (done : transact tx w = .ok w') : Listed w' := by
  obtain ⟨id, turned, indexes⟩ | ⟨kept, index⟩ := transact_indexes h lawful done
  · exact turned.listed listed indexes fun s is =>
      (lawful.accounts tx.call (List.mem_cons_self ..) s is).ne_zero
  · intro a
    rw [index]
    refine ⟨(listed a).1, fun id => ?_⟩
    rw [(listed a).2 id, Created, Created, kept.offers_eq]

theorem transact_extends {tx : Tx} (h : Custody w) (lawful : Lawful tx w)
    (done : transact tx w = .ok w') (a : Address) :
    w.market.accountOfferIds a <+: w'.market.accountOfferIds a := by
  obtain ⟨id, -, indexes⟩ | ⟨-, index⟩ := transact_indexes h lawful done
  · exact ⟨_, (indexes a).symm⟩
  · exact ⟨[], by rw [index, List.append_nil]⟩

theorem run_listed {txs : List Tx} (h : Custody w) (listed : Listed w)
    (run : Run Step w txs w') : Listed w' := by
  have both := run.invariant (fun v => Custody v ∧ Listed v)
    (fun _ _ _ before step => ⟨transact_custody before.1 step.2 step.1,
      transact_listed before.1 before.2 step.2 step.1⟩) ⟨h, listed⟩
  exact both.2

theorem run_extends {txs : List Tx} (h : Custody w) (run : Run Step w txs w') (a : Address) :
    w.market.accountOfferIds a <+: w'.market.accountOfferIds a := by
  have both := run.invariant
    (fun v => Custody v ∧ w.market.accountOfferIds a <+: v.market.accountOfferIds a)
    (fun _ _ _ before step => ⟨transact_custody before.1 step.2 step.1,
      before.2.trans (transact_extends before.1 step.2 step.1 a)⟩) ⟨h, List.prefix_rfl⟩
  exact both.2

/-! ### Reading it page by page -/

/-- Following `nextCursor` from `cursor` until a page is not full. Page `k` is read with `limit k`
in `state k`; `none` when `fuel` pages are not enough. -/
def readAccountOffers (account : Address) (limit : ℕ → ℕ) (state : ℕ → World) :
    ℕ → ℕ → ℕ → Except Error (Option (List ℕ))
  | 0, _, _ => pure none
  | fuel + 1, k, cursor => do
    let (ids, nextCursor) ← accountOffers account cursor (limit k) (state k)
    if ids.length < limit k then pure (some ids)
    else
      let rest ← readAccountOffers account limit state fuel (k + 1) nextCursor
      pure (rest.map (ids ++ ·))

theorem accountOffers_ok {cursor limit : ℕ} (positive : 0 < limit) (bounded : limit ≤ MAX_PAGE_SIZE)
    (within : cursor ≤ (w.market.accountOfferIds a).length) :
    accountOffers a cursor limit w = .ok
      (((w.market.accountOfferIds a).drop cursor).take limit,
        cursor + min ((w.market.accountOfferIds a).length - cursor) limit) := by
  have accepted : ¬(limit = 0 ∨ MAX_PAGE_SIZE < limit ∨
      (w.market.accountOfferIds a).length < cursor) := by omega
  simp only [accountOffers, revertIf, if_neg accepted, ok_bind]
  refine congrArg Except.ok (Prod.ext ?_ rfl)
  change List.take _ _ = List.take _ _
  rw [Nat.min_comm, ← List.take_take, List.take_of_length_le List.length_drop.le]

section Reading

variable {limit : ℕ → ℕ} {state : ℕ → World}

/-- By induction on the number of pages: what was read before is the index up to the cursor, which
growing leaves alone. -/
theorem readAccountOffers_from (valid : ∀ k, 0 < limit k ∧ limit k ≤ MAX_PAGE_SIZE)
    (grows : ∀ k n, k ≤ n →
      (state k).market.accountOfferIds a <+: (state n).market.accountOfferIds a) (fuel : ℕ) :
    ∀ k cursor, cursor ≤ ((state k).market.accountOfferIds a).length →
      (∃ n, k ≤ n ∧ n < k + fuel ∧ readAccountOffers a limit state fuel k cursor =
        .ok (some (((state n).market.accountOfferIds a).drop cursor))) ∨
      readAccountOffers a limit state fuel k cursor = .ok none ∧
        cursor + fuel ≤ ((state (k + fuel)).market.accountOfferIds a).length := by
  induction fuel with
  | zero => exact fun k cursor within => .inr ⟨rfl, within⟩
  | succ fuel ih =>
    intro k cursor within
    obtain ⟨positive, bounded⟩ := valid k
    have left := List.length_drop (i := cursor) (l := (state k).market.accountOfferIds a)
    rw [readAccountOffers, accountOffers_ok positive bounded within, ok_bind]
    dsimp only
    by_cases short : ((state k).market.accountOfferIds a).length - cursor < limit k
    · rw [List.take_of_length_le (by omega), if_pos (by omega)]
      exact .inl ⟨k, le_rfl, by omega, rfl⟩
    · have full : min (((state k).market.accountOfferIds a).length - cursor) (limit k) = limit k := by
        omega
      have inside : cursor + limit k ≤ ((state k).market.accountOfferIds a).length := by omega
      have later := (grows k (k + 1) (Nat.le_succ k)).length_le
      rw [if_neg (by rw [List.length_take]; omega), full]
      obtain ⟨n, after, before, read⟩ | ⟨read, enough⟩ := ih (k + 1) (cursor + limit k) (by omega)
      · refine .inl ⟨n, by omega, by omega, ?_⟩
        obtain ⟨added, grown⟩ := grows k n (by omega)
        rw [read, ok_bind, ← grown, List.drop_append_of_le_length inside,
          List.drop_append_of_le_length within, ← List.drop_drop]
        refine congrArg (fun ids => Except.ok (some ids)) ?_
        change _ ++ (_ ++ _) = _
        rw [← List.append_assoc, List.take_append_drop]
      · refine .inr ⟨by rw [read]; rfl, ?_⟩
        rw [Nat.add_assoc k, Nat.add_comm 1] at enough
        omega

/-- From any reachable state, whatever transactions go on between the pages and whatever the limits:
as long as the index is shorter than the number of pages allowed, following the cursor ends, and has
read each offer that names the account once, in the state of the last page, those of the first page
before all later ones. -/
theorem account_offers_paged {w₀ : World} {txs : List Tx} (start : Deployed w₀)
    (run : Run Step w₀ txs (state 0)) (between : ∀ k, ∃ txs, Run Step (state k) txs (state (k + 1)))
    (valid : ∀ k, 0 < limit k ∧ limit k ≤ MAX_PAGE_SIZE) (account : Address) (fuel : ℕ)
    (enough : ((state fuel).market.accountOfferIds account).length < fuel) :
    ∃ n < fuel, ∃ ids, readAccountOffers account limit state fuel 0 0 = .ok (some ids) ∧ ids.Nodup ∧
      (∀ id, id ∈ ids ↔ Created id (state n) ∧
        (account = ((state n).market.offers id).lender ∨
          account ≠ 0 ∧ account = ((state n).market.offers id).terms.borrower)) ∧
      (state 0).market.accountOfferIds account <+: ids := by
  have sound (k : ℕ) : Custody (state k) ∧ Listed (state k) := by
    induction k with
    | zero => exact ⟨run_custody start.custody run, run_listed start.custody start.listed run⟩
    | succ k ih =>
      obtain ⟨txs, next⟩ := between k
      exact ⟨run_custody ih.1 next, run_listed ih.1 ih.2 next⟩
  have grows (k n : ℕ) (le : k ≤ n) :
      (state k).market.accountOfferIds account <+: (state n).market.accountOfferIds account := by
    induction n, le using Nat.le_induction with
    | base => exact List.prefix_rfl
    | succ n _ ih =>
      obtain ⟨txs, next⟩ := between n
      exact ih.trans (run_extends (sound n).1 next account)
  obtain ⟨n, -, below, read⟩ | ⟨-, long⟩ :=
    readAccountOffers_from valid grows fuel 0 0 (Nat.zero_le _)
  · rw [Nat.zero_add] at below
    have listed := (sound n).2 account
    exact ⟨n, below, _, read, listed.1, listed.2, grows 0 n (Nat.zero_le _)⟩
  · rw [Nat.zero_add] at long
    omega

end Reading

/-- The borrower of the sample finds the loan on pages of one offer. -/
theorem sample_paged :
    ∃ ids, readAccountOffers 7 (fun _ => 1) (fun _ => sampleRepaid) 3 0 0 = .ok (some ids) ∧
      1 ∈ ids := by
  obtain ⟨n, -, ids, read, -, members, -⟩ := @account_offers_paged (fun _ => 1)
    (fun _ => sampleRepaid) _ _ sample_deployed sample_run (fun _ => ⟨[], .nil _⟩)
    (fun _ => by decide) 7 3 (by decide +kernel)
  exact ⟨ids, read, (members 1).mpr ⟨by decide +kernel, .inr ⟨by decide, by decide +kernel⟩⟩⟩

end Turret.NFTLending
