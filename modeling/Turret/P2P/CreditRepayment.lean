import Turret.P2P.VaultIsolation

/-! `repayWithCredits` against the plain way: to withdraw each credit to one's
own account, and then to repay from there. Both end alike, and each goes through
where the other does. -/

namespace Turret.LendingV3

open Execution Function

variable {w w' f s : World} {id : ℕ} {sender target : Address}

/-! ### The plain way -/

/-- Every source is withdrawn to the caller. -/
def withdrawSources (sender : Address) : List (ℕ × ℕ) → World → Except Error World
  | [], w => pure w
  | (source, amount) :: rest, w => do
    let w ← withdrawCredit sender source .loanToken amount sender w
    withdrawSources sender rest w

def withdrawThenRepay (sender : Address) (id : ℕ) (sources : List (ℕ × ℕ)) (w : World) :
    Except Error World := do
  let w ← withdrawSources sender sources w
  repay sender id w

/-- The caller has approved `amount` to the market. -/
def approved (sender : Address) (amount : ℕ) (w : World) : World :=
  { w with
    token := update w.token .loanToken ((w.token .loanToken).approve sender w.self amount) }

/-- The same but for allowances. -/
structure Agrees (w w' : World) : Prop where
  self_eq : w'.self = w.self
  now_eq : w'.now = w.now
  market_eq : w'.market = w.market
  balance_eq : ∀ token, (w'.token token).balanceOf = (w.token token).balanceOf

/-- The two ways after some of the sources: what the fast one has sent to the vault of the loan the
plain one has sent to the caller. -/
structure Apace (sender : Address) (id base granted allowed paid : ℕ) (f s : World) : Prop where
  books : Books f.market
  separate : Separate f
  there : Created id f
  away : ∀ i, Created i f → f.market.vaults i ≠ sender
  self_eq : s.self = f.self
  now_eq : s.now = f.now
  market_eq : s.market = f.market
  rest_eq : ∀ token, token ≠ .loanToken → s.token token = f.token token
  target_fast : f.held id .loanToken = base + paid
  target_plain : s.held id .loanToken = base
  sender_eq : (s.token .loanToken).balanceOf sender = (f.token .loanToken).balanceOf sender + paid
  others_eq : ∀ a, a ≠ sender → a ≠ f.market.vaults id →
    (s.token .loanToken).balanceOf a = (f.token .loanToken).balanceOf a
  granted_eq : (f.token .loanToken).allowance sender f.self = granted
  allowed_eq : (s.token .loanToken).allowance sender s.self = allowed

/-! ### One source -/

section Sources

variable {base granted allowed paid source amount : ℕ}

/-- A world after a source has paid. -/
def spentTo (recipient sender : Address) (source amount : ℕ) (w : World) : World :=
  { w with
    token := update w.token .loanToken
      ((w.token .loanToken).move (w.market.vaults source) recipient amount)
    market := debited sender source .loanToken amount w.market }

theorem spend_eq_ok {recipient : Address} (recipient_ne : recipient ≠ 0)
    (apart : recipient ≠ w.market.vaults source) :
    (spendCredit sender source .loanToken amount w >>= fun v =>
        transferTo (w.market.vaults source) .loanToken recipient amount v) = .ok w' ↔
      Spendable sender source .loanToken amount w ∧ spentTo recipient sender source amount w = w' := by
  simp only [bind_eq_ok, spendCredit_eq_ok, transferTo_eq_ok, Sends, P2PVault.transferTo_eq_ok]
  constructor
  · rintro ⟨_, ⟨spendable, rfl⟩, t, ⟨-, -, -, rfl⟩, rfl⟩
    exact ⟨spendable, rfl⟩
  · rintro ⟨spendable, rfl⟩
    exact ⟨_, ⟨spendable, rfl⟩, _, ⟨by decide, ⟨Nat.ne_of_gt spendable.positive, recipient_ne,
      apart⟩, spendable.backed, rfl⟩, rfl⟩

theorem Books.created_of_spendable (h : Books w.market)
    (spendable : Spendable sender source .loanToken amount w) : Created source w :=
  created_of_settled (h.settled_of_claim (spendable.positive.trans_le spendable.covers.claim))

/-- A vault other than the target holds the same both ways. -/
theorem Apace.held_eq (h : Apace sender id base granted allowed paid f s) (created : Created source f)
    (apart : source ≠ id) : s.held source .loanToken = f.held source .loanToken := by
  have ne : f.market.vaults source ≠ f.market.vaults id :=
    fun same => apart (h.separate.apart source id created h.there same)
  have same := h.others_eq _ (h.away source created) ne
  simpa only [World.held, h.market_eq] using same

theorem Apace.spendable (h : Apace sender id base granted allowed paid f s) (apart : source ≠ id) :
    Spendable sender source .loanToken amount s ↔ Spendable sender source .loanToken amount f := by
  have same := h.market_eq
  constructor
  · intro spends
    have here : Covers sender source .loanToken amount f.market := same ▸ spends.covers
    have created : Created source f :=
      created_of_settled (h.books.settled_of_claim (spends.positive.trans_le here.claim))
    have held := h.held_eq created apart
    exact ⟨same ▸ spends.owner, spends.positive, spends.backed.trans held.le, here⟩
  · intro spends
    have created := h.books.created_of_spendable spends
    have held := h.held_eq created apart
    exact ⟨same ▸ spends.owner, spends.positive, spends.backed.trans held.ge, same ▸ spends.covers⟩

theorem Apace.spend (h : Apace sender id base granted allowed paid f s) (apart : source ≠ id)
    (spends : Spendable sender source .loanToken amount f) :
    Apace sender id base granted allowed (paid + amount)
      (spentTo (f.market.vaults id) sender source amount f)
      (spentTo sender sender source amount s) := by
  have created := h.books.created_of_spendable spends
  have away := h.away source created
  have ne : f.market.vaults source ≠ f.market.vaults id :=
    fun same => apart (h.separate.apart source id created h.there same)
  have target_away := h.away id h.there
  have vault : s.market.vaults source = f.market.vaults source := by rw [h.market_eq]
  have backed : amount ≤ (f.token .loanToken).balanceOf (f.market.vaults source) := spends.backed
  refine
    { books := h.books.turned (debited_turned h.books spends.owner spends.positive spends.covers)
      separate := ⟨h.separate.apart, h.separate.vault_ne⟩
      there := h.there
      away := h.away
      self_eq := h.self_eq
      now_eq := h.now_eq
      market_eq := by simp only [spentTo, h.market_eq]
      rest_eq := fun token loan => ?_
      target_fast := ?_
      target_plain := ?_
      sender_eq := ?_
      others_eq := fun a notSender notTarget => ?_
      granted_eq := ?_
      allowed_eq := ?_ }
  · simp only [spentTo, update_of_ne loan]
    exact h.rest_eq token loan
  · have before := h.target_fast
    simp only [World.held, spentTo, update_self] at before ⊢
    rw [show (debited sender source .loanToken amount f.market).vaults = f.market.vaults from rfl,
      TokenLedger.move_dst ne, before, Nat.add_assoc]
  · have before := h.target_plain
    simp only [World.held, spentTo, update_self, h.market_eq] at before ⊢
    rw [show (debited sender source .loanToken amount f.market).vaults = f.market.vaults from rfl,
      TokenLedger.move_other ne.symm target_away, before]
  · have before := h.sender_eq
    simp only [spentTo, update_self, vault]
    rw [TokenLedger.move_dst away, TokenLedger.move_other away.symm target_away.symm, before,
      Nat.add_assoc]
  · have notTarget : a ≠ f.market.vaults id := notTarget
    simp only [spentTo, update_self, vault]
    have same := h.others_eq a notSender notTarget
    by_cases vaultItself : a = f.market.vaults source
    · subst vaultItself
      rw [TokenLedger.move_src away, TokenLedger.move_src ne, same]
    · rw [TokenLedger.move_other vaultItself notSender, TokenLedger.move_other vaultItself notTarget,
        same]
  · simp only [spentTo, update_self, TokenLedger.move_allowance]
    exact h.granted_eq
  · simp only [spentTo, update_self, TokenLedger.move_allowance]
    exact h.allowed_eq

end Sources

/-! ### All sources -/

theorem withdrawCredit_eq_ok {source amount : ℕ} (sender_ne : sender ≠ 0) (away : sender ≠ w.self)
    (apart : sender ≠ w.market.vaults source) :
    withdrawCredit sender source .loanToken amount sender w = .ok w' ↔
      Spendable sender source .loanToken amount w ∧ spentTo sender sender source amount w = w' := by
  rw [← spend_eq_ok sender_ne apart]
  simp only [withdrawCredit, validRecipient, bind_eq_ok, revertIf_eq_ok, exists_const,
    spendCredit_eq_ok]
  constructor
  · rintro ⟨-, v, ⟨spendable, rfl⟩, sent⟩
    exact ⟨_, ⟨spendable, rfl⟩, sent⟩
  · rintro ⟨v, ⟨spendable, rfl⟩, sent⟩
    exact ⟨not_or.mpr ⟨sender_ne, away⟩, _, ⟨spendable, rfl⟩, sent⟩

section Loop

variable {base granted allowed paid : ℕ}

/-- The next source goes through both ways or neither way. -/
theorem Apace.sources {sources : List (ℕ × ℕ)} (h : Apace sender id base granted allowed paid f s)
    (sender_ne : sender ≠ 0) (away : sender ≠ f.self) (apart : ∀ x ∈ sources, x.1 ≠ id) :
    (∀ f', spendSources sender (f.market.vaults id) sources f = .ok f' →
      ∃ s', withdrawSources sender sources s = .ok s' ∧
        Apace sender id base granted allowed (paid + (sources.map Prod.snd).sum) f' s') ∧
    ∀ s', withdrawSources sender sources s = .ok s' →
      ∃ f', spendSources sender (f.market.vaults id) sources f = .ok f' ∧
        Apace sender id base granted allowed (paid + (sources.map Prod.snd).sum) f' s' := by
  induction sources generalizing f s paid with
  | nil =>
    simp only [spendSources, withdrawSources, pure_eq_ok]
    exact ⟨fun f' same => ⟨s, rfl, same ▸ h⟩, fun s' same => ⟨f, rfl, same ▸ h⟩⟩
  | cons source rest ih =>
    have ne := apart source (List.mem_cons_self ..)
    have target_ne := h.separate.vault_ne id h.there
    have total : paid + ((source :: rest).map Prod.snd).sum =
        paid + source.2 + (rest.map Prod.snd).sum := by
      rw [List.map_cons, List.sum_cons, Nat.add_assoc]
    rw [total]
    have later := fun x mem => apart x (List.mem_cons_of_mem _ mem)
    constructor
    · intro f' done
      simp only [spendSources, bind_eq_ok, spendCredit_eq_ok] at done
      obtain ⟨v, ⟨spends, rfl⟩, u, sent, done⟩ := done
      have created := h.books.created_of_spendable spends
      have vault_ne : f.market.vaults id ≠ f.market.vaults source.1 :=
        fun same => ne (h.separate.apart source.1 id created h.there same.symm)
      have here := (spend_eq_ok target_ne vault_ne).mp
        ((bind_eq_ok ..).mpr ⟨_, spendCredit_eq_ok.mpr ⟨spends, rfl⟩, sent⟩)
      obtain ⟨-, rfl⟩ := here
      obtain ⟨s', ran, apace⟩ := (ih (h.spend ne spends) away later).1 f' done
      refine ⟨s', ?_, apace⟩
      have first := (withdrawCredit_eq_ok sender_ne (h.self_eq ▸ away)
        (h.market_eq ▸ (h.away source.1 created).symm)).mpr ⟨(h.spendable ne).mpr spends, rfl⟩
      simp only [withdrawSources, first, ok_bind]
      exact ran
    · intro s' done
      simp only [withdrawSources, bind_eq_ok] at done
      obtain ⟨u, first, done⟩ := done
      have spends : Spendable sender source.1 .loanToken source.2 s := by
        simp only [withdrawCredit, bind_eq_ok, spendCredit_eq_ok] at first
        obtain ⟨-, -, v, ⟨spends, -⟩, -⟩ := first
        exact spends
      have spends := (h.spendable ne).mp spends
      have created := h.books.created_of_spendable spends
      obtain ⟨-, rfl⟩ := (withdrawCredit_eq_ok sender_ne (h.self_eq ▸ away)
        (h.market_eq ▸ (h.away source.1 created).symm)).mp first
      obtain ⟨f', ran, apace⟩ := (ih (h.spend ne spends) away later).2 s' done
      refine ⟨f', ?_, apace⟩
      have vault_ne : f.market.vaults id ≠ f.market.vaults source.1 :=
        fun same => ne (h.separate.apart source.1 id created h.there same.symm)
      obtain ⟨v, spent, sent⟩ := (bind_eq_ok ..).mp ((spend_eq_ok target_ne vault_ne).mpr
        ⟨spends, rfl⟩)
      obtain ⟨-, rfl⟩ := spendCredit_eq_ok.mp spent
      simp only [spendSources, bind_eq_ok]
      exact ⟨_, spent, _, sent, ran⟩

end Loop

/-! ### The last payment -/

section Payment

variable {base granted allowed paid amount wallet : ℕ}

/-- A pull of the loan token, told by what it moves. -/
theorem pullLoan_eq_ok (apart : sender ≠ target) :
    pullToExact .loanToken sender target amount w = .ok w' ↔
      (amount ≤ (w.token .loanToken).allowance sender w.self ∧
        amount ≤ (w.token .loanToken).balanceOf sender) ∧
      { w with
        token := update w.token .loanToken (((w.token .loanToken).approve sender w.self
          ((w.token .loanToken).allowance sender w.self - amount)).move sender target amount) } =
        w' := by
  simp only [pullToExact_eq_ok, P2PVault.pullExact_eq_ok apart]
  constructor
  · rintro ⟨t, ⟨enough, rfl⟩, rfl⟩
    exact ⟨enough, rfl⟩
  · rintro ⟨enough, rfl⟩
    exact ⟨_, ⟨enough, rfl⟩, rfl⟩

/-- The wallet pays its part, which may be nothing. -/
theorem pullWallet_eq_ok (apart : sender ≠ target) :
    pullWallet sender target wallet w = .ok w' →
      wallet ≤ (w.token .loanToken).balanceOf sender ∧
      (w'.token .loanToken).balanceOf = ((w.token .loanToken).move sender target wallet).balanceOf ∧
      ∀ token, token ≠ .loanToken → w'.token token = w.token token := by
  unfold pullWallet
  split_ifs with some_
  · intro pulled
    obtain ⟨enough, rfl⟩ := (pullLoan_eq_ok apart).mp pulled
    refine ⟨enough.2, ?_, fun token other => update_of_ne other ..⟩
    simp only [update_self]
    rfl
  · intro done
    rw [pure_eq_ok] at done
    subst done
    obtain rfl : wallet = 0 := not_not.mp some_
    refine ⟨Nat.zero_le _, funext fun a => ?_, fun _ _ => rfl⟩
    by_cases paying : a = sender
    · rw [paying, TokenLedger.move_src apart, Nat.sub_zero]
    · by_cases receiving : a = target
      · rw [receiving, TokenLedger.move_dst apart, Nat.add_zero]
      · rw [TokenLedger.move_other paying receiving]

theorem pullWallet_accepts (apart : sender ≠ target)
    (allowed : wallet ≤ (w.token .loanToken).allowance sender w.self)
    (held : wallet ≤ (w.token .loanToken).balanceOf sender) :
    ∃ w', pullWallet sender target wallet w = .ok w' := by
  unfold pullWallet
  split_ifs
  · exact ⟨_, (pullLoan_eq_ok apart).mpr ⟨⟨allowed, held⟩, rfl⟩⟩
  · exact ⟨w, rfl⟩

variable (h : Apace sender id base granted allowed paid f s)

include h

/-- Either way the caller ends with the same, and so does the vault of the loan. -/
theorem Apace.agrees (sum : paid + wallet = amount) {p q : World}
    (pulled : pullWallet sender (f.market.vaults id) wallet f = .ok p)
    (repaid : pullToExact .loanToken sender (f.market.vaults id) amount s = .ok q) :
    Agrees p q ∧ p.market = f.market ∧
      (p.token .loanToken).balanceOf (f.market.vaults id) = base + amount := by
  have apart := (h.away id h.there).symm
  obtain ⟨held, moved, rest⟩ := pullWallet_eq_ok apart pulled
  obtain ⟨self, now, market⟩ := pullWallet_frame pulled
  obtain ⟨enough, rfl⟩ := (pullLoan_eq_ok apart).mp repaid
  have target := h.target_fast
  have plain := h.target_plain
  have caller := h.sender_eq
  simp only [World.held, h.market_eq] at target plain
  refine ⟨⟨h.self_eq.trans self.symm, h.now_eq.trans now.symm, h.market_eq.trans market.symm,
    fun token => ?_⟩, market, ?_⟩
  · by_cases loan : token = .loanToken
    · subst loan
      rw [moved]
      simp only [update_self]
      funext a
      by_cases paying : a = sender
      · rw [paying, TokenLedger.move_src apart, TokenLedger.move_src apart,
          TokenLedger.approve_balanceOf]
        omega
      · by_cases receiving : a = f.market.vaults id
        · rw [receiving, TokenLedger.move_dst apart, TokenLedger.move_dst apart,
            TokenLedger.approve_balanceOf]
          omega
        · rw [TokenLedger.move_other paying receiving, TokenLedger.move_other paying receiving]
          exact h.others_eq a paying receiving
    · rw [rest token loan]
      simp only [update_of_ne loan]
      rw [h.rest_eq token loan]
  · rw [moved, TokenLedger.move_dst apart]
    omega

/-- What the caller lacks for one way it lacks for the other. -/
theorem Apace.pulls (sum : paid + wallet = amount) (full : allowed = amount) :
    (∀ p, pullWallet sender (f.market.vaults id) wallet f = .ok p →
      ∃ q, pullToExact .loanToken sender (f.market.vaults id) amount s = .ok q) ∧
    (wallet ≤ granted → ∀ q, pullToExact .loanToken sender (f.market.vaults id) amount s = .ok q →
      ∃ p, pullWallet sender (f.market.vaults id) wallet f = .ok p) := by
  have apart := (h.away id h.there).symm
  have caller := h.sender_eq
  constructor
  · intro p pulled
    obtain ⟨held, -⟩ := pullWallet_eq_ok apart pulled
    refine ⟨_, (pullLoan_eq_ok apart).mpr ⟨⟨?_, ?_⟩, rfl⟩⟩
    · rw [h.allowed_eq, full]
    · omega
  · intro granted q repaid
    obtain ⟨⟨-, held⟩, -⟩ := (pullLoan_eq_ok apart).mp repaid
    refine pullWallet_accepts apart (h.granted_eq ▸ granted) ?_
    omega

end Payment

/-! ### The two ways -/

theorem Apace.start (repayment : ℕ) (books : Books w.market) (separate : Separate w)
    (there : Created id w) (away : ∀ i, Created i w → w.market.vaults i ≠ sender) :
    Apace sender id (w.held id .loanToken) ((w.token .loanToken).allowance sender w.self) repayment 0
      w (approved sender repayment w) where
  books := books
  separate := separate
  there := there
  away := away
  self_eq := rfl
  now_eq := rfl
  market_eq := rfl
  rest_eq _ loan := update_of_ne loan ..
  target_fast := rfl
  target_plain := by simp only [World.held, approved, update_self, TokenLedger.approve_balanceOf]
  sender_eq := by simp only [approved, update_self, TokenLedger.approve_balanceOf, Nat.add_zero]
  others_eq _ _ _ := by simp only [approved, update_self, TokenLedger.approve_balanceOf]
  granted_eq := rfl
  allowed_eq := by simp only [approved, update_self, TokenLedger.approve_same]

theorem repay_eq_ok : repay sender id w = .ok w' ↔
    (w.market.offers id).status = .active ∧
      w.now ≤ (w.market.offers id).dueAt + GRACE_PERIOD ∧
      ∃ v, pullToExact .loanToken sender (w.market.vaults id)
          ((w.market.offers id).principal + (w.market.offers id).interest) w = .ok v ∧
        ∃ m, finishRepayment id (w.market.offers id)
          ((w.market.offers id).principal + (w.market.offers id).interest) v.market = .ok m ∧
          { v with market := m } = w' := by
  simp only [repay, repayable, bind_eq_ok, revertIf_eq_ok, exists_const, pure_eq_ok, ne_eq, not_not,
    not_lt]
  constructor
  · rintro ⟨_, ⟨was, inTime, rfl⟩, v, pulled, m, finished, rfl⟩
    exact ⟨was, inTime, v, pulled, m, finished, rfl⟩
  · rintro ⟨was, inTime, v, pulled, m, finished, rfl⟩
    exact ⟨_, ⟨was, inTime, rfl⟩, v, pulled, m, finished, rfl⟩

theorem repayWithCredits_eq_ok {ids amounts : List ℕ} {wallet : ℕ} :
    repayWithCredits sender id ids amounts wallet w = .ok w' ↔
      (w.market.offers id).status = .active ∧
        w.now ≤ (w.market.offers id).dueAt + GRACE_PERIOD ∧
        Sourced id ids amounts wallet
          ((w.market.offers id).principal + (w.market.offers id).interest) ∧
        ∃ v, spendSources sender (w.market.vaults id) (ids.zip amounts) w = .ok v ∧
        ∃ u, pullWallet sender (w.market.vaults id) wallet v = .ok u ∧
          (u.token .loanToken).balanceOf (w.market.vaults id) = w.held id .loanToken +
            ((w.market.offers id).principal + (w.market.offers id).interest) ∧
        ∃ m, finishRepayment id (w.market.offers id)
          ((w.market.offers id).principal + (w.market.offers id).interest) u.market = .ok m ∧
          { u with market := m } = w' := by
  simp only [repayWithCredits, repayable, bind_eq_ok, revertIf_eq_ok, exists_const, pure_eq_ok,
    ne_eq, not_not, not_lt, not_or]
  constructor
  · rintro ⟨_, ⟨was, inTime, rfl⟩, ⟨lengths, count⟩, valid, ⟨within, exact_⟩, v, spent, u, pulled,
      arrived, m, finished, rfl⟩
    exact ⟨was, inTime, ⟨lengths, count, valid, by omega⟩, v, spent, u, pulled, arrived, m,
      finished, rfl⟩
  · rintro ⟨was, inTime, sourced, v, spent, u, pulled, arrived, m, finished, rfl⟩
    have sum := sourced.sum
    exact ⟨_, ⟨was, inTime, rfl⟩, ⟨sourced.lengths, sourced.count⟩, sourced.valid,
      ⟨by omega, by omega⟩, v, spent, u, pulled, arrived, m, finished, rfl⟩

theorem withdrawSources_offers {sources : List (ℕ × ℕ)}
    (done : withdrawSources sender sources w = .ok w') : w'.market.offers = w.market.offers := by
  induction sources generalizing w with
  | nil =>
    rw [withdrawSources, pure_eq_ok] at done
    rw [done]
  | cons source rest ih =>
    simp only [withdrawSources, withdrawCredit, bind_eq_ok, spendCredit_eq_ok,
      transferTo_eq_ok] at done
    obtain ⟨_, ⟨_, -, _, ⟨-, rfl⟩, t, -, rfl⟩, done⟩ := done
    have kept := ih done
    exact kept

/-- The amounts of the paired lists are all the amounts. -/
theorem Sourced.zip_sum {ids amounts : List ℕ} {wallet repayment : ℕ}
    (h : Sourced id ids amounts wallet repayment) :
    ((ids.zip amounts).map Prod.snd).sum + wallet = repayment := by
  rw [List.map_snd_zip h.lengths.ge, h.sum]

/-- No credit of anyone but the caller gets less. -/
theorem spendSources_credits {sources : List (ℕ × ℕ)}
    (done : spendSources sender target sources w = .ok w') (token : Token) {a : Address}
    (other : a ≠ sender) : w'.market.credits token a = w.market.credits token a := by
  induction sources generalizing w with
  | nil =>
    rw [spendSources, pure_eq_ok] at done
    rw [done]
  | cons source rest ih =>
    simp only [spendSources, bind_eq_ok, spendCredit_eq_ok, transferTo_eq_ok] at done
    obtain ⟨_, ⟨spendable, rfl⟩, _, ⟨t, -, rfl⟩, done⟩ := done
    have left := debited_credits sender a token spendable.covers
    rw [if_neg (fun both => other both.2.symm), Nat.add_zero] at left
    exact (ih done).trans left

theorem finishRepayment_credits {offer : Offer} {repayment : ℕ} {m m' : Market}
    (stored : m.offers id = offer) (was : offer.status = .active)
    (done : finishRepayment id offer repayment m = .ok m') (token : Token) (a : Address) :
    m.credits token a ≤ m'.credits token a := by
  obtain ⟨active, -, rfl⟩ := (finishRepayment_eq_ok stored was).mp done
  rw [repaidLoan, credit_credits, credit_credits]
  exact (Nat.le_add_right ..).trans (Nat.le_add_right ..)

/-- A repayment by credits is the withdrawals and the repayment they stand for: where the arguments
are in order each way goes through if the other does, and both end with the same market and the
same balances. Only the caller's credits are consumed, and other arguments are refused. -/
theorem credit_repayment_refines {start : World} {ops : List Op} {ids amounts : List ℕ}
    {wallet : ℕ} (fresh : Deployed start) (passed : Run Lawfully start ops w)
    (lawful : Lawful (.repayWithCredits sender id ids amounts wallet) w) (sender_ne : sender ≠ 0)
    (away : sender ≠ w.self) :
    (∀ w', repayWithCredits sender id ids amounts wallet w = .ok w' →
      Sourced id ids amounts wallet
        ((w.market.offers id).principal + (w.market.offers id).interest) ∧
      (∀ token a, a ≠ sender → w.market.credits token a ≤ w'.market.credits token a) ∧
      ∃ w'', withdrawThenRepay sender id (ids.zip amounts) (approved sender
          ((w.market.offers id).principal + (w.market.offers id).interest) w) = .ok w'' ∧
        Agrees w' w'') ∧
    (Sourced id ids amounts wallet
        ((w.market.offers id).principal + (w.market.offers id).interest) →
      wallet ≤ (w.token .loanToken).allowance sender w.self →
      ∀ w'', withdrawThenRepay sender id (ids.zip amounts) (approved sender
          ((w.market.offers id).principal + (w.market.offers id).interest) w) = .ok w'' →
        ∃ w', repayWithCredits sender id ids amounts wallet w = .ok w' ∧ Agrees w' w'') := by
  obtain ⟨books, separate⟩ := passed.invariant (fun w => Books w.market ∧ Separate w)
    (fun _ _ _ h step => ⟨(exec_leads h.1 step.1).books, step.separate h.1 h.2⟩)
    ⟨fresh.books, fresh.separate⟩
  have vaults_away : ∀ i, Created i w → w.market.vaults i ≠ sender := fun i there same =>
    lawful.sender_away i (books.exists_of_status there) there (congrArg some same.symm)
  have begins (active : (w.market.offers id).status = .active) :=
    Apace.start ((w.market.offers id).principal + (w.market.offers id).interest) books separate
      (show Created id w by rw [Created, active]; decide) vaults_away
  constructor
  · intro w' done
    obtain ⟨was, inTime, sourced, v, spent, u, pulled, arrived, m, finished, rfl⟩ :=
      repayWithCredits_eq_ok.mp done
    obtain ⟨-, now, _, _, _, frame⟩ := spendSources_frame spent
    have offers : v.market.offers = w.market.offers := by rw [frame]
    have vaults : v.market.vaults = w.market.vaults := by rw [frame]
    have market := (pullWallet_frame pulled).2.2
    have sum := sourced.zip_sum
    refine ⟨sourced, fun token a other => ?_, ?_⟩
    · rw [← spendSources_credits spent token other, ← market]
      exact finishRepayment_credits (by rw [market, offers]) was finished token a
    · obtain ⟨s', withdrawn, apace⟩ := ((begins was).sources sender_ne away
        fun x mem => (sourced.valid.1 x mem).2.1).1 v spent
      rw [← vaults] at pulled
      obtain ⟨q, repaid⟩ := (apace.pulls (by omega) rfl).1 u pulled
      obtain ⟨agrees, -, -⟩ := apace.agrees (by omega) pulled repaid
      have same : s'.market.offers id = w.market.offers id := by rw [apace.market_eq, offers]
      refine ⟨{ q with market := m }, ?_, ⟨agrees.self_eq, agrees.now_eq, rfl, agrees.balance_eq⟩⟩
      simp only [withdrawThenRepay, bind_eq_ok]
      refine ⟨s', withdrawn, repay_eq_ok.mpr ⟨same ▸ was, ?_, q, ?_, m, ?_, rfl⟩⟩
      · rw [same, apace.now_eq, now]
        exact inTime
      · rw [same, apace.market_eq]
        exact repaid
      · rw [same, agrees.market_eq]
        exact finished
  · intro sourced granted w'' done
    have sum := sourced.zip_sum
    simp only [withdrawThenRepay, bind_eq_ok] at done
    obtain ⟨s', withdrawn, repaid⟩ := done
    obtain ⟨was, inTime, q, pulled, m, finished, rfl⟩ := repay_eq_ok.mp repaid
    have same : s'.market.offers id = w.market.offers id :=
      congrFun (withdrawSources_offers withdrawn) id
    rw [same] at was inTime pulled finished
    obtain ⟨v, spent, apace⟩ := ((begins was).sources sender_ne away
      fun x mem => (sourced.valid.1 x mem).2.1).2 s' withdrawn
    obtain ⟨-, now, _, _, _, frame⟩ := spendSources_frame spent
    have vaults : v.market.vaults = w.market.vaults := by rw [frame]
    rw [apace.market_eq] at pulled
    obtain ⟨u, paid⟩ := (apace.pulls (by omega) rfl).2 granted q pulled
    obtain ⟨agrees, market, arrived⟩ := apace.agrees (by omega) paid pulled
    rw [vaults] at paid arrived
    refine ⟨{ u with market := m }, ?_, ⟨agrees.self_eq, agrees.now_eq, rfl, agrees.balance_eq⟩⟩
    refine repayWithCredits_eq_ok.mpr ⟨was, ?_, sourced, v, spent, u, paid, arrived, m, ?_, rfl⟩
    · rw [apace.now_eq, now] at inTime
      exact inTime
    · rw [← agrees.market_eq]
      exact finished

/-! In the sample the lender settles the second loan, partly with what the first has left it. -/

theorem ledgerSample_lawfully : Run Lawfully ledgerStart (ledgerLoans ++ ledgerEnd) ledgerSample :=
  ledgerSample_observed.mono fun _ _ _ observed => observed.1

theorem sample_credit_repayment :
    ∃ w'', withdrawThenRepay 2 2 ([1].zip [60]) (approved 2
        ((ledgerSample.market.offers 2).principal + (ledgerSample.market.offers 2).interest)
        ledgerSample) = .ok w'' ∧
      Agrees (reached ledgerSample (repayWithCredits 2 2 [1] [60] 45 ledgerSample)) w'' :=
  ((credit_repayment_refines ledgerStart_deployed ledgerSample_lawfully (by decide +kernel)
    (by decide) (by decide +kernel)).1 _ (eq_ok_reached ledgerSample (by decide +kernel))).2.2

end Turret.LendingV3
