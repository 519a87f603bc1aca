import Turret.P2P.NFTCustody

/-! What the parties of an NFT loan can rely on: what is in custody, how the NFT
comes into a vault and leaves it, and that neither a pause, a collection taken
off the list, the other party nor a receiver keeps anyone from settling and
withdrawing. -/

namespace Turret.NFTLending

open Execution Finset Function

variable {w w' : World} {call : Call} {id amount : ℕ} {x sender recipient vault : Address}

/-! ### Runs -/

/-- What the constructor leaves; no clone is there yet. -/
structure Deployed (w : World) : Prop where
  market_eq : w.market = deployed w.market.owner
  vaults : ∀ a, w.vaultAt a = none

theorem Deployed.custody (h : Deployed w) : Custody w := by
  have blank : w.market.offers = fun _ => noOffer := by rw [h.market_eq]; rfl
  have none : ∀ id, ¬Created id w := fun id created => by
    rw [Created, blank] at created
    exact created rfl
  have sum (g : Offer → ℕ) (zero : g noOffer = 0) :
      ∑ id ∈ range w.market.nextOfferId, g (w.market.offers id) = 0 :=
    sum_eq_zero fun id _ => by rw [blank, zero]
  refine
    { fresh := fun id _ => congrFun blank id
      sound := fun id => by
        rw [blank]
        exact ⟨fun some_ => absurd rfl some_, fun some_ => absurd rfl some_⟩
      reserved_eq := ?_
      active_eq := ?_
      credits_eq := ?_
      vaulted := fun id created => absurd created (none id)
      apart := fun i _ created => absurd created (none i)
      parties := fun id created => absurd created (none id) }
  · rw [sum Offer.reserved rfl, h.market_eq]
    rfl
  · rw [sum Offer.lent rfl, h.market_eq]
    rfl
  · rw [sum Offer.usdgCredit rfl, h.market_eq]
    rfl

theorem transact_custody {tx : Tx} (h : Custody w) (lawful : Lawful tx w)
    (done : transact tx w = .ok w') : Custody w' := by
  cases transact_effect h lawful done with
  | turned id turned => exact h.turned turned
  | kept kept => exact h.kept kept

/-- The guard is free again when a transaction ends. -/
theorem transact_idle {tx : Tx} (idle : w.market.entered = false)
    (done : transact tx w = .ok w') : w'.market.entered = false := by
  have guarded {body : World → Except Error World} (ok : nonReentrant body w = .ok w') :
      w'.market.entered = false := by
    obtain ⟨-, v, -, rfl⟩ := nonReentrant_eq_ok.mp ok
    rfl
  obtain ⟨call, r⟩ := tx
  cases call with
  | callToken call => rw [(callToken_outside done).frame, idle]
  | callCollection collection call => rw [(callCollection_outside done).frame, idle]
  | elapse seconds =>
    simp only [transact, exec, bind_eq_ok, revertIf_eq_ok, exists_const, pure_eq_ok] at done
    obtain ⟨-, rfl⟩ := done
    exact idle
  | _ => exact guarded done

theorem run_custody {w₀ : World} {txs : List Tx} (h : Custody w₀) (run : Run Step w₀ txs w) :
    Custody w :=
  run.invariant Custody (fun _ _ _ custody step => transact_custody custody step.2 step.1) h

theorem run_idle {w₀ : World} {txs : List Tx} (idle : w₀.market.entered = false)
    (run : Run Step w₀ txs w) : w.market.entered = false :=
  run.invariant (fun v => v.market.entered = false)
    (fun _ _ _ idle step => transact_idle idle step.1) idle

theorem Custody.created_of_pledged (h : Custody w) (pledged : (w.market.offers id).Pledged) :
    Created id w := by
  obtain active | some_ := pledged
  · rw [Created, active]
    decide
  · obtain is | is := (h.sound id).beneficiary some_ <;> rw [Created, is.1] <;> decide

/-- Two vaults cannot own one NFT. -/
theorem Custody.pledged_once (h : Custody w) {i j : ℕ} (hi : (w.market.offers i).Pledged)
    (hj : (w.market.offers j).Pledged)
    (collection : (w.market.offers i).terms.collection = (w.market.offers j).terms.collection)
    (tokenId : (w.market.offers i).terms.tokenId = (w.market.offers j).terms.tokenId) : i = j := by
  have ci := h.created_of_pledged hi
  have cj := h.created_of_pledged hj
  have owns := (h.vaulted i ci).held hi
  rw [collection, tokenId, (h.vaulted j cj).held hj] at owns
  exact h.apart i j ci cj owns.symm

/-- In every reachable state: an open offer's vault holds the principal and every vault the credit
of its lender; the vault of an active loan, or of one whose NFT was not withdrawn yet, owns the NFT,
which only one such loan can name; the totals are those of the offers. -/
theorem nft_custody {w₀ : World} {txs : List Tx} (start : Deployed w₀)
    (run : Run Step w₀ txs w) :
    (∀ id, Created id w →
      ((w.market.offers id).status = .open_ →
        (w.market.offers id).terms.principal ≤ w.usdg.balanceOf (w.market.offers id).vault) ∧
      (w.market.offers id).usdgCredit ≤ w.usdg.balanceOf (w.market.offers id).vault ∧
      ((w.market.offers id).status = .active ∨ (w.market.offers id).nftBeneficiary ≠ 0 →
        (w.nft (w.market.offers id).terms.collection).ownerOf (w.market.offers id).terms.tokenId =
          (w.market.offers id).vault) ∧
      ((w.market.offers id).nftBeneficiary ≠ 0 →
        (w.market.offers id).status = .repaid ∧
            (w.market.offers id).nftBeneficiary = (w.market.offers id).terms.borrower ∨
          (w.market.offers id).status = .defaulted ∧
            (w.market.offers id).nftBeneficiary = (w.market.offers id).lender)) ∧
    (∀ i j, (w.market.offers i).Pledged → (w.market.offers j).Pledged →
      (w.market.offers i).terms.collection = (w.market.offers j).terms.collection →
      (w.market.offers i).terms.tokenId = (w.market.offers j).terms.tokenId → i = j) ∧
    (w.market.reservedPrincipal = ∑ id ∈ range w.market.nextOfferId,
        if (w.market.offers id).status = .open_ then (w.market.offers id).terms.principal else 0) ∧
    (w.market.activePrincipal = ∑ id ∈ range w.market.nextOfferId,
        if (w.market.offers id).status = .active then (w.market.offers id).terms.principal else 0) ∧
    w.market.totalUSDGCredits =
      ∑ id ∈ range w.market.nextOfferId, (w.market.offers id).usdgCredit := by
  have h := run_custody start.custody run
  refine ⟨fun id created => ?_, fun i j hi hj => h.pledged_once hi hj, h.reserved_eq, h.active_eq,
    h.credits_eq⟩
  have mine := h.vaulted id created
  have funded := mine.funded
  rw [Offer.funds] at funded
  refine ⟨fun is => ?_, by omega, mine.held, (h.sound id).beneficiary⟩
  rw [Offer.reserved, if_pos is] at funded
  omega

/-! ### The way of a pledged NFT -/

namespace Offer

variable {o o' : Offer} {now : ℕ}

/-- An NFT is pledged by accepting the offer only. -/
theorem Next.pledged_of (next : Next now id call o o') (h : o.Sound) (pledged : o'.Pledged)
    (before : ¬o.Pledged) : ∃ sender, call = .acceptOffer sender id ∧ o.status = .open_ := by
  cases next with
  | created was => simp [Pledged] at pledged
  | accepted was => exact ⟨_, rfl, was⟩
  | cancelled was => simp [Pledged, h.unclaimed (by simp [was])] at pledged
  | expired was => simp [Pledged, h.unclaimed (by simp [was])] at pledged
  | repaid was => exact absurd (.inl was) before
  | defaulted was => exact absurd (.inl was) before
  | paid => exact absurd pledged before
  | released => exact absurd (pledged.imp_right fun k => absurd rfl k) before

/-- It is given back by the withdrawal of its beneficiary only. -/
theorem Next.released_of (next : Next now id call o o') (h : o.Sound)
    (parties : ∀ a, o.Party a → a ≠ 0) (pledged : o.Pledged) (after : ¬o'.Pledged) :
    ∃ sender recipient, call = .withdrawNFT sender id recipient ∧ sender = o.nftBeneficiary ∧
      o' = { o with nftBeneficiary := 0 } := by
  have unpledged (was : o.status = .none ∨ o.status = .open_) : ¬o.Pledged := by
    have none : o.nftBeneficiary = 0 := by
      obtain is | is := was <;> exact h.unclaimed (by simp [is])
    obtain is | is := was <;> simp [Pledged, is, none]
  cases next with
  | created was => exact absurd pledged (unpledged (.inl was))
  | accepted was => exact absurd pledged (unpledged (.inr was))
  | cancelled was => exact absurd pledged (unpledged (.inr was))
  | expired was => exact absurd pledged (unpledged (.inr was))
  | repaid was => exact absurd (.inr (parties _ (.inr ⟨rfl, .inl was⟩))) after
  | defaulted was => exact absurd (.inr (parties _ (.inl rfl))) after
  | paid => exact absurd pledged after
  | released mine => exact ⟨_, _, rfl, mine, rfl⟩

/-- A loan that has ended and whose NFT was withdrawn. -/
def Returned (o : Offer) : Prop :=
  (o.status = .repaid ∨ o.status = .defaulted) ∧ o.nftBeneficiary = 0

theorem Next.returned (next : Next now id call o o') (h : o.Returned) :
    o'.Returned ∧ o'.status = o.status := by
  obtain ⟨ended, none⟩ := h
  cases next with
  | created was => simp [was] at ended
  | accepted was => simp [was] at ended
  | cancelled was => simp [was] at ended
  | expired was => simp [was] at ended
  | repaid was => simp [was] at ended
  | defaulted was => simp [was] at ended
  | paid => exact ⟨⟨ended, none⟩, rfl⟩
  | released => exact ⟨⟨ended, rfl⟩, rfl⟩

end Offer

/-- One transaction, as one offer sees it. -/
theorem transact_next {tx : Tx} (h : Custody w) (lawful : Lawful tx w)
    (done : transact tx w = .ok w') (id : ℕ) :
    w'.market.offers id = w.market.offers id ∨
      Offer.Next w.now id tx.call (w.market.offers id) (w'.market.offers id) := by
  cases transact_effect h lawful done with
  | turned i turned =>
    by_cases same : id = i
    · exact .inr (same ▸ turned.next)
    · exact .inl (turned.offer_other same)
  | kept kept => exact .inl (congrFun kept.offers_eq id)

theorem acceptOffer_owned {foreign : World → Except Error World}
    (done : exec foreign (.acceptOffer sender id) w = .ok w') :
    (w.nft (w.market.offers id).terms.collection).ownerOf (w.market.offers id).terms.tokenId =
      sender := by
  obtain ⟨-, v, accepted, rfl⟩ := nonReentrant_eq_ok.mp done
  simp only [acceptOffer, admission, bind_eq_ok, revertIf_eq_ok, exists_const, ne_eq,
    not_not] at accepted
  obtain ⟨-, -, -, -, owned, -⟩ := accepted
  exact owned

theorem withdrawNFT_given {foreign : World → Except Error World} (h : Custody w)
    (created : Created id w)
    (done : exec foreign (.withdrawNFT sender id recipient) w = .ok w') :
    (w'.nft (w.market.offers id).terms.collection).ownerOf (w.market.offers id).terms.tokenId =
      recipient := by
  obtain ⟨-, v, withdrawn, rfl⟩ := nonReentrant_eq_ok.mp done
  simp only [withdrawNFT, transferNFT, setOffer, bind_eq_ok, revertIf_eq_ok, exists_const,
    orRevert_eq_ok, pure_eq_ok, ne_eq, not_not] at withdrawn
  obtain ⟨-, -, -, -, vault, vaulted, v', -, given, rfl⟩ := withdrawn
  rw [(h.vaulted id created).vault_at, Option.some.injEq] at vaulted
  subst vaulted
  exact given

theorem run_returned {txs : List Tx} (h : Custody w) (run : Run Step w txs w')
    (returned : (w.market.offers id).Returned) :
    (w'.market.offers id).Returned ∧
      (w'.market.offers id).status = (w.market.offers id).status := by
  have invariant := run.invariant
    (fun v => Custody v ∧ (v.market.offers id).Returned ∧
      (v.market.offers id).status = (w.market.offers id).status)
    (fun v tx v' ⟨custody, ended, same⟩ step => ⟨transact_custody custody step.2 step.1, by
      obtain kept | next := transact_next custody step.2 step.1 id
      · rw [kept]
        exact ⟨ended, same⟩
      · have after := next.returned ended
        exact ⟨after.1, after.2.trans same⟩⟩)
    ⟨h, returned, rfl⟩
  exact invariant.2

/-- An NFT comes into a vault by its owner's acceptance only. It stays there until the borrower of
the repaid loan, or the lender of a defaulted one, withdraws it, and that happens once. -/
theorem nft_leaves_once {w₀ w'' : World} {txs rest : List Tx} {tx : Tx} (start : Deployed w₀)
    (run : Run Step w₀ txs w) (step : Step w tx w') (later : Run Step w' rest w'') (id : ℕ) :
    (¬(w.market.offers id).Pledged → (w'.market.offers id).Pledged →
      ∃ sender, tx.call = .acceptOffer sender id ∧
        (w.nft (w.market.offers id).terms.collection).ownerOf
          (w.market.offers id).terms.tokenId = sender) ∧
    ((w.market.offers id).Pledged →
      (w'.market.offers id).Pledged ∧
          (w'.nft (w.market.offers id).terms.collection).ownerOf
            (w.market.offers id).terms.tokenId = (w.market.offers id).vault ∨
        ∃ sender recipient, tx.call = .withdrawNFT sender id recipient ∧
          ((w.market.offers id).status = .repaid ∧
              sender = (w.market.offers id).terms.borrower ∨
            (w.market.offers id).status = .defaulted ∧ sender = (w.market.offers id).lender) ∧
          (w'.nft (w.market.offers id).terms.collection).ownerOf
            (w.market.offers id).terms.tokenId = recipient ∧
          ¬(w''.market.offers id).Pledged ∧
          (w''.market.offers id).status = (w.market.offers id).status) := by
  have h := run_custody start.custody run
  have h' := transact_custody h step.2 step.1
  have turns := transact_next h step.2 step.1 id
  obtain ⟨call, r⟩ := tx
  refine ⟨fun before after => ?_, fun before => ?_⟩
  · have next := turns.resolve_left fun same => before (same ▸ after)
    obtain ⟨sender, rfl, -⟩ := next.pledged_of (h.sound id) after before
    exact ⟨sender, rfl, acceptOffer_owned step.1⟩
  have created := h.created_of_pledged before
  by_cases after : (w'.market.offers id).Pledged
  · left
    have held := (h'.vaulted id (h'.created_of_pledged after)).held after
    obtain same | next := turns
    · rw [same] at held
      exact ⟨after, held⟩
    · obtain ⟨vault, -, collection, tokenId⟩ := next.fixed created
      rw [vault, collection, tokenId] at held
      exact ⟨after, held⟩
  · right
    have next := turns.resolve_left fun same => after (same ▸ before)
    obtain ⟨sender, recipient, rfl, mine, released⟩ :=
      next.released_of (h.sound id) (fun a party => (h.parties id created a party).ne_zero) before
        after
    have some_ : (w.market.offers id).nftBeneficiary ≠ 0 :=
      mine ▸ (step.2.accounts _ (List.mem_cons_self ..) sender rfl).ne_zero
    have settled := (h.sound id).beneficiary some_
    have returned : (w'.market.offers id).Returned := by
      rw [released]
      exact ⟨settled.imp And.left And.left, rfl⟩
    obtain ⟨⟨ended, none⟩, same⟩ := run_returned h' later returned
    refine ⟨sender, recipient, rfl, ?_, withdrawNFT_given h created step.1, ?_, ?_⟩
    · rw [mine]
      exact settled
    · obtain is | is := ended <;> simp [Offer.Pledged, is, none]
    · rw [same, released]

/-! ### Settlement and withdrawals -/

/-- What one offer has in a total is in the total. -/
theorem part_le {g : Offer → ℕ} {total : ℕ} (h : Custody w) (created : Created id w)
    (sum : total = ∑ i ∈ range w.market.nextOfferId, g (w.market.offers i)) :
    g (w.market.offers id) ≤ total := by
  rw [sum]
  exact single_le_sum (f := fun i => g (w.market.offers i)) (fun i _ => Nat.zero_le _)
    (mem_range.mpr (h.below created))

/-- A recipient that `_recipient` lets pass. -/
structure Receives (recipient : Address) (id : ℕ) (w : World) : Prop where
  ne_zero : recipient ≠ 0
  ne_self : recipient ≠ w.self
  ne_vault : recipient ≠ (w.market.offers id).vault
  ne_implementation : recipient ≠ w.vaultImplementation

theorem guarded_ok {body : World → Except Error World} (idle : w.market.entered = false)
    (done : ∃ v, body (w.guarded true) = .ok v) : ∃ w', nonReentrant body w = .ok w' := by
  obtain ⟨v, done⟩ := done
  exact ⟨_, nonReentrant_eq_ok.mpr ⟨idle, v, done, rfl⟩⟩

theorem close_succeeds {status : Status} (h : Custody w) (was : (w.market.offers id).status = .open_) :
    ∃ v, close id status (w.guarded true) = .ok v := by
  have created : Created id w := by rw [Created, was]; decide
  have within := part_le h created h.reserved_eq
  rw [Offer.reserved, if_pos was] at within
  simp only [close, bind_eq_ok, revertIf_eq_ok, exists_const, checkedSub_eq_ok, pure_eq_ok]
  exact ⟨_, not_not.mpr was, _, ⟨within, rfl⟩, rfl⟩

theorem cancelOffer_succeeds (h : Custody w) (was : (w.market.offers id).status = .open_) :
    ∃ v, cancelOffer (w.market.offers id).lender id (w.guarded true) = .ok v := by
  have closes : ∃ v, close id .cancelled (w.guarded true) = .ok v := close_succeeds h was
  obtain ⟨v, closed⟩ := closes
  refine ⟨v, ?_⟩
  simp only [cancelOffer, bind_eq_ok, revertIf_eq_ok, exists_const]
  exact ⟨fun other => other rfl, closed⟩

theorem expireOffer_succeeds (h : Custody w) (was : (w.market.offers id).status = .open_)
    (late : (w.market.offers id).terms.expiresAt ≤ w.now) :
    ∃ v, expireOffer id (w.guarded true) = .ok v := by
  have closes : ∃ v, close id .expired (w.guarded true) = .ok v := close_succeeds h was
  obtain ⟨v, closed⟩ := closes
  refine ⟨v, ?_⟩
  simp only [expireOffer, bind_eq_ok, revertIf_eq_ok, exists_const]
  exact ⟨not_lt.mpr late, closed⟩

theorem settleDefault_succeeds (h : Custody w) (was : (w.market.offers id).status = .active)
    (late : (w.market.offers id).dueAt + GRACE_PERIOD < w.now) :
    ∃ v, settleDefault id (w.guarded true) = .ok v := by
  have created : Created id w := by rw [Created, was]; decide
  have within := part_le h created h.active_eq
  rw [Offer.lent, if_pos was] at within
  simp only [settleDefault, bind_eq_ok, revertIf_eq_ok, exists_const, checkedSub_eq_ok, pure_eq_ok]
  exact ⟨_, not_not.mpr was, not_le.mpr late, _, ⟨within, rfl⟩, rfl⟩

theorem repay_succeeds {payer : Address} (h : Custody w)
    (was : (w.market.offers id).status = .active)
    (early : w.now ≤ (w.market.offers id).dueAt + GRACE_PERIOD) (account : Account payer w)
    (allowed : (w.market.offers id).terms.principal + (w.market.offers id).terms.interest ≤
      w.usdg.allowance payer w.self)
    (funded : (w.market.offers id).terms.principal + (w.market.offers id).terms.interest ≤
      w.usdg.balanceOf payer) :
    ∃ v, repay payer id (w.guarded true) = .ok v := by
  have created : Created id w := by rw [Created, was]; decide
  have within := part_le h created h.active_eq
  rw [Offer.lent, if_pos was] at within
  have apart := account.ne_vault id (h.below created) created
  simp only [repay, pull, bind_eq_ok, revertIf_eq_ok, exists_const, checkedSub_eq_ok, pure_eq_ok,
    mapError_eq_ok]
  exact ⟨_, not_not.mpr was, not_lt.mpr early, _, ⟨within, rfl⟩, _,
    (P2PVault.pullExact_eq_ok apart).mpr ⟨⟨allowed, funded⟩, rfl⟩, rfl⟩

theorem withdrawUSDG_succeeds (h : Custody w) (created : Created id w) (positive : amount ≠ 0)
    (within : amount ≤ (w.market.offers id).usdgCredit) (receives : Receives recipient id w) :
    ∃ v, withdrawUSDG (w.market.offers id).lender id amount recipient (w.guarded true) = .ok v ∧
      v.usdg.balanceOf recipient = w.usdg.balanceOf recipient + amount := by
  have counted := part_le h created h.credits_eq
  have funded := (h.vaulted id created).funded
  rw [Offer.funds] at funded
  have valid : ¬(recipient = 0 ∨ recipient = w.self ∨ recipient = (w.market.offers id).vault ∨
      recipient = w.vaultImplementation) := by
    simp [receives.ne_zero, receives.ne_self, receives.ne_vault, receives.ne_implementation]
  have sent : P2PVault.transferTo (w.market.offers id).vault recipient amount w.usdg =
      .ok (w.usdg.move (w.market.offers id).vault recipient amount) :=
    P2PVault.transferTo_eq_ok.mpr
      ⟨⟨positive, receives.ne_zero, receives.ne_vault⟩, by omega, rfl⟩
  simp only [withdrawUSDG, validRecipient, transferUSDG, bind_eq_ok, revertIf_eq_ok, exists_const,
    checkedSub_eq_ok, pure_eq_ok, mapError_eq_ok]
  refine ⟨_, ⟨fun other => other rfl, valid, not_or.mpr ⟨positive, not_lt.mpr within⟩, _,
    ⟨within, rfl⟩, _, ⟨within.trans counted, rfl⟩, _, sent, rfl⟩, ?_⟩
  exact TokenLedger.move_dst (Ne.symm receives.ne_vault) ..

/-- A receiver that does not call the collections, whatever else it calls. -/
def Receiver.Keeps (r : Receiver) : Prop :=
  ∀ call ∈ r.calls, ∀ collection c, call ≠ .callCollection collection c

theorem runCalls_nft {calls : List Call} (entered : w.market.entered = true)
    (keeps : ∀ call ∈ calls, ∀ collection c, call ≠ .callCollection collection c) :
    (runCalls calls w).nft = w.nft := by
  induction calls generalizing w with
  | nil => rfl
  | cons call rest ih =>
    have first : (reached w (exec .ok call w)).nft = w.nft ∧
        (reached w (exec .ok call w)).market = w.market := by
      cases done : exec .ok call w with
      | error e => exact ⟨rfl, rfl⟩
      | ok v =>
        have outside := exec_entered entered done
        have market := congrArg World.market outside.frame
        refine ⟨?_, market⟩
        cases call with
        | callToken call =>
          simp only [exec, bind_eq_ok, orRevert_eq_ok, pure_eq_ok] at done
          obtain ⟨usdg, -, rfl⟩ := done
          rfl
        | callCollection collection c => exact absurd rfl (keeps _ (List.mem_cons_self ..) _ c)
        | elapse seconds => simp [exec, revertIf, entered] at done
        | _ => simp [exec, nonReentrant_eq_ok, entered] at done
    rw [runCalls, ih (first.2 ▸ entered) fun c mem => keeps c (List.mem_cons_of_mem _ mem), first.1]

theorem withdrawNFT_succeeds {r : Receiver} (h : Custody w) (created : Created id w)
    (some_ : (w.market.offers id).nftBeneficiary ≠ 0) (receives : Receives recipient id w)
    (noVault : w.vaultAt recipient = none) (accepts : r.accepts = true) (keeps : r.Keeps) :
    ∃ v, withdrawNFT r.run (w.market.offers id).nftBeneficiary id recipient (w.guarded true) =
        .ok v ∧
      (v.nft (w.market.offers id).terms.collection).ownerOf (w.market.offers id).terms.tokenId =
        recipient := by
  have mine := h.vaulted id created
  have held := mine.held (.inr some_)
  have valid : ¬(recipient = 0 ∨ recipient = w.self ∨ recipient = (w.market.offers id).vault ∨
      recipient = w.vaultImplementation) := by
    simp [receives.ne_zero, receives.ne_self, receives.ne_vault, receives.ne_implementation]
  have plain : ¬(recipient = 0 ∨ recipient = (w.market.offers id).vault) := by
    simp [receives.ne_zero, receives.ne_vault]
  have sent : (w.nft (w.market.offers id).terms.collection).transferFrom (w.market.offers id).vault
      (w.market.offers id).vault recipient (w.market.offers id).terms.tokenId =
      some ((w.nft (w.market.offers id).terms.collection).give recipient
        (w.market.offers id).terms.tokenId) :=
    NftLedger.transferFrom_eq_some.mpr
      ⟨⟨held, mine.ne_zero, receives.ne_zero, .inl held.symm⟩, rfl⟩
  have noVault : (w.guarded true).vaultAt recipient = none := noVault
  simp only [withdrawNFT, transferNFT, safeTransferFrom, received, validRecipient, setOffer,
    bind_eq_ok, revertIf_eq_ok, exists_const, orRevert_eq_ok, pure_eq_ok, noVault, Receiver.run]
  refine ⟨_, ⟨fun other => other rfl, valid, plain, _, mine.vault_at, _, ⟨_, sent, ?_, rfl⟩, ?_,
    rfl⟩, ?_⟩
  · simp [accepts]
  all_goals
    rw [runCalls_nft rfl keeps]
    simp

/-- In every reachable state, paused or not and whatever was taken off the list: the lender can
cancel an open offer and anyone can expire a late one; an active loan can be repaid up to the end
of the grace period and declared in default after it; the lender can withdraw any part of its credit
and the beneficiary the NFT, each to any recipient that takes it, whatever else the receiver of an
NFT calls. -/
theorem settlement_never_blocked {w₀ : World} {txs : List Tx} (start : Deployed w₀)
    (run : Run Step w₀ txs w) (id : ℕ) (created : Created id w) :
    ((w.market.offers id).status = .open_ →
      (∀ r, ∃ w', transact ⟨.cancelOffer (w.market.offers id).lender id, r⟩ w = .ok w') ∧
      ((w.market.offers id).terms.expiresAt ≤ w.now →
        ∀ sender r, ∃ w', transact ⟨.expireOffer sender id, r⟩ w = .ok w')) ∧
    ((w.market.offers id).status = .active →
      (w.now ≤ (w.market.offers id).dueAt + GRACE_PERIOD → ∀ payer r, Account payer w →
        (w.market.offers id).terms.principal + (w.market.offers id).terms.interest ≤
          w.usdg.allowance payer w.self →
        (w.market.offers id).terms.principal + (w.market.offers id).terms.interest ≤
          w.usdg.balanceOf payer →
        ∃ w', transact ⟨.repay payer id, r⟩ w = .ok w') ∧
      ((w.market.offers id).dueAt + GRACE_PERIOD < w.now →
        ∀ sender r, ∃ w', transact ⟨.settleDefault sender id, r⟩ w = .ok w')) ∧
    (∀ amount recipient r, amount ≠ 0 → amount ≤ (w.market.offers id).usdgCredit →
      Receives recipient id w →
      ∃ w', transact ⟨.withdrawUSDG (w.market.offers id).lender id amount recipient, r⟩ w = .ok w' ∧
        w'.usdg.balanceOf recipient = w.usdg.balanceOf recipient + amount) ∧
    ((w.market.offers id).nftBeneficiary ≠ 0 → ∀ recipient r, Receives recipient id w →
      w.vaultAt recipient = none → r.accepts = true → r.Keeps →
      ∃ w', transact ⟨.withdrawNFT (w.market.offers id).nftBeneficiary id recipient, r⟩ w =
          .ok w' ∧
        (w'.nft (w.market.offers id).terms.collection).ownerOf
          (w.market.offers id).terms.tokenId = recipient) := by
  have h := run_custody start.custody run
  have idle := run_idle (by rw [start.market_eq]; rfl) run
  refine ⟨fun was => ⟨fun r => ?_, fun late sender r => ?_⟩, fun was =>
    ⟨fun early payer r account allowed funded => ?_, fun late sender r => ?_⟩,
    fun amount recipient r positive within receives => ?_,
    fun some_ recipient r receives noVault accepts keeps => ?_⟩
  · exact guarded_ok idle (cancelOffer_succeeds h was)
  · exact guarded_ok idle (expireOffer_succeeds h was late)
  · exact guarded_ok idle (repay_succeeds h was early account allowed funded)
  · exact guarded_ok idle (settleDefault_succeeds h was late)
  · obtain ⟨v, paid, received⟩ := withdrawUSDG_succeeds h created positive within receives
    exact ⟨v.guarded false, nonReentrant_eq_ok.mpr ⟨idle, v, paid, rfl⟩, received⟩
  · obtain ⟨v, withdrawn, given⟩ :=
      withdrawNFT_succeeds h created some_ receives noVault accepts keeps
    exact ⟨v.guarded false, nonReentrant_eq_ok.mpr ⟨idle, v, withdrawn, rfl⟩, given⟩

/-! In the sample an offer to anyone is accepted and repaid, and the receiver of the NFT tries to
take the lender's credit in the middle of the withdrawal. -/

instance accountDecidable (a : Address) (w : World) : Decidable (Account a w) :=
  decidable_of_iff (a ≠ 0 ∧ a ≠ w.self ∧ a ≠ w.vaultImplementation ∧
      ∀ i < w.market.nextOfferId, Created i w → a ≠ (w.market.offers i).vault)
    ⟨fun h => ⟨h.1, h.2.1, h.2.2.1, h.2.2.2⟩, fun h => ⟨h.1, h.2, h.3, h.4⟩⟩

def Tx.fromAccounts (tx : Tx) (w : World) : Bool :=
  tx.calls.all fun call => call.sender.all fun a => decide (Account a w)

theorem lawful_of_accounts {tx : Tx} (accounts : tx.fromAccounts w = true)
    (plain : ∀ sender terms vault, tx.call = .createOffer sender terms vault →
      Unused vault w ∧ vault ≠ sender) : Lawful tx w where
  accounts call mem a is := by
    simp only [Tx.fromAccounts, List.all_eq_true] at accounts
    have all := accounts call mem
    rw [is, Option.all_some, decide_eq_true_eq] at all
    exact all
  clone := plain

theorem step_of_accounts {tx : Tx} (done : (transact tx w).isOk = true)
    (accounts : tx.fromAccounts w = true)
    (plain : ∀ sender terms vault, tx.call = .createOffer sender terms vault →
      Unused vault w ∧ vault ≠ sender) : Step w tx (reached w (transact tx w)) :=
  ⟨eq_ok_reached w done, lawful_of_accounts accounts plain⟩

def plainReceiver : Receiver := ⟨[], true⟩

def emptyCollection : NftLedger := ⟨fun _ => 0, fun _ => 0, fun _ _ => false⟩

def sampleStart : World where
  self := 2
  loanToken := 3
  vaultImplementation := 4
  supportsERC721 := fun a => decide (a = 5)
  now := 1000
  usdg :=
    { balanceOf := fun a => if a = 6 ∨ a = 7 then 1000 else 0
      allowance := fun a b => if (a = 6 ∨ a = 7) ∧ b = 2 then 1000 else 0 }
  nft := fun c =>
    if c = 5 then { emptyCollection with
      ownerOf := fun id => if id = 1 then 7 else 0
      getApproved := fun id => if id = 1 then 2 else 0 }
    else emptyCollection
  vaultAt := fun _ => none
  market := deployed 1

def advance (call : Call) (w : World) : World := reached w (transact ⟨call, plainReceiver⟩ w)

def sampleOpened : World :=
  advance (.setNewLoansPaused 1 false) (advance (.setCollectionAllowed 1 5 true) sampleStart)

def sampleOffer : Call := .createOffer 6 ⟨0, 5, 1, 100, 5, 86400, 2000⟩ 8

def sampleRepaid : World :=
  advance (.repay 7 1) (advance (.acceptOffer 7 1) (advance sampleOffer sampleOpened))

def sampleReentry : Tx :=
  ⟨.withdrawNFT 7 1 9, ⟨[.withdrawUSDG 6 1 105 9, .callToken (.approve 9 6 1)], true⟩⟩

theorem sample_deployed : Deployed sampleStart := ⟨rfl, fun _ => rfl⟩

theorem sample_blank : ∀ i, ¬Created i sampleOpened := fun _ created => created rfl

theorem sample_unused : Unused 8 sampleOpened where
  ne_zero := by decide
  ne_vault i _ created := absurd created (sample_blank i)
  ne_party i _ created := absurd created (sample_blank i)
  closed b := by
    change (if ((8 : Address) = 6 ∨ (8 : Address) = 7) ∧ b = 2 then 1000 else 0) = 0
    rw [if_neg]
    rintro ⟨is, -⟩
    exact absurd is (by decide)
  silent c := by
    change (sampleStart.nft c).Silent 8
    refine ⟨fun a => ?_, fun id owned => ?_⟩ <;> by_cases pledged : c = 5
    · simp [sampleStart, pledged, emptyCollection]
    · simp [sampleStart, pledged, emptyCollection]
    · by_cases one : id = 1
      · simp [sampleStart, pledged, one] at owned
        exact absurd owned (by decide)
      · simp [sampleStart, pledged, one]
    · simp [sampleStart, pledged, emptyCollection]

theorem sample_run : Run Step sampleStart
    [⟨.setCollectionAllowed 1 5 true, plainReceiver⟩, ⟨.setNewLoansPaused 1 false, plainReceiver⟩,
      ⟨sampleOffer, plainReceiver⟩, ⟨.acceptOffer 7 1, plainReceiver⟩,
      ⟨.repay 7 1, plainReceiver⟩] sampleRepaid := by
  refine .cons (step_of_accounts (by decide +kernel) (by decide +kernel) (by simp))
    (.cons (step_of_accounts (by decide +kernel) (by decide +kernel) (by simp))
      (.cons (step_of_accounts (by decide +kernel) (by decide +kernel) ?_)
        (.cons (step_of_accounts (by decide +kernel) (by decide +kernel) (by simp))
          (.cons (step_of_accounts (by decide +kernel) (by decide +kernel) (by simp)) (.nil _)))))
  intro sender terms vault same
  obtain ⟨rfl, -, rfl⟩ := Call.createOffer.inj same
  exact ⟨sample_unused, by decide⟩

theorem sample_reentry : Step sampleRepaid sampleReentry
    (reached sampleRepaid (transact sampleReentry sampleRepaid)) :=
  step_of_accounts (by decide +kernel) (by decide +kernel) (by simp [sampleReentry])

theorem sample_custody :
    (sampleRepaid.nft (sampleRepaid.market.offers 1).terms.collection).ownerOf
      (sampleRepaid.market.offers 1).terms.tokenId = (sampleRepaid.market.offers 1).vault :=
  ((nft_custody sample_deployed sample_run).1 1 (by decide +kernel)).2.2.1
    (.inr (by decide +kernel))

theorem sample_leaves :
    ¬((reached sampleRepaid (transact sampleReentry sampleRepaid)).market.offers 1).Pledged := by
  have exit := (nft_leaves_once sample_deployed sample_run sample_reentry (.nil _) 1).2
    (.inr (by decide +kernel))
  obtain ⟨-, held⟩ | ⟨-, -, -, -, -, released, -⟩ := exit
  · exact absurd held (by decide +kernel)
  · exact released

theorem sample_settles :
    ∃ w', transact ⟨.withdrawUSDG 6 1 105 6, plainReceiver⟩ sampleRepaid = .ok w' ∧
      w'.usdg.balanceOf 6 = sampleRepaid.usdg.balanceOf 6 + 105 :=
  (settlement_never_blocked sample_deployed sample_run 1 (by decide +kernel)).2.2.1 105 6
    plainReceiver (by decide) (by decide +kernel)
    ⟨by decide, by decide +kernel, by decide +kernel, by decide +kernel⟩

end Turret.NFTLending
