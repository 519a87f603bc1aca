import Turret.P2P.LenderFacility

/-! The loans of a facility beside the principal it has out: what every call can
do to them. A loan is opened with terms whose sum is a word, ends once, and the
principal out is that of the active loans. What has been filled of a quote never
shrinks. -/

namespace Turret.LenderFacility

open Execution Function Finset Uint256

structure Terms where
  status : Status
  principal : ℕ
  interest : ℕ

def Terms.activePrincipal (t : Terms) : ℕ := if t.status = .active then t.principal else 0

/-- The part of the facility that its loans' terms concern, and what is filled of each quote. -/
structure Book where
  next : ℕ
  active : ℕ
  loan : ℕ → Terms
  filled : ℕ → ℕ → ℕ

def terms (l : Loan) : Terms := ⟨l.status, l.principal, l.interest⟩

def Facility.book (f : Facility) : Book :=
  ⟨f.nextLoanId, f.activePrincipal, fun id => terms (f.loans id),
    fun epoch nonce => (f.quoteUses epoch nonce).filled⟩

namespace Book

/-- `n` more is filled of the quote. -/
def fill (epoch nonce n : ℕ) (filled : ℕ → ℕ → ℕ) : ℕ → ℕ → ℕ :=
  update filled epoch (update (filled epoch) nonce (filled epoch nonce + n))

inductive Step (b : Book) : Book → Prop
  | rest : Step b b
  | opens (epoch nonce principal interest : ℕ) (fits : principal + interest < MODULUS) :
      Step b ⟨b.next + 1, b.active + principal,
        update b.loan b.next ⟨.active, principal, interest⟩, fill epoch nonce principal b.filled⟩
  | ends (id : ℕ) (status : Status) (was : (b.loan id).status = .active)
      (inactive : status ≠ .active) (some_ : status ≠ .none)
      (covered : (b.loan id).principal ≤ b.active) :
      Step b
        { b with
          active := b.active - (b.loan id).principal
          loan := update b.loan id { b.loan id with status } }

structure Sound (b : Book) : Prop where
  unused : ∀ id, b.next ≤ id → (b.loan id).status = .none
  fits : ∀ id, (b.loan id).status ≠ .none → (b.loan id).principal + (b.loan id).interest < MODULUS
  active_eq : ∑ id ∈ range b.next, (b.loan id).activePrincipal = b.active

variable {b b' : Book} {id : ℕ}

theorem fill_self (epoch nonce n : ℕ) (filled : ℕ → ℕ → ℕ) :
    fill epoch nonce n filled epoch nonce = filled epoch nonce + n := by simp [fill]

theorem le_fill (epoch nonce n : ℕ) (filled : ℕ → ℕ → ℕ) (e m : ℕ) :
    filled e m ≤ fill epoch nonce n filled e m := by
  by_cases he : e = epoch
  · subst he
    by_cases hm : m = nonce
    · subst hm
      simp [fill]
    · simp [fill, hm]
  · simp [fill, he]

/-- What is filled of a quote never shrinks. -/
theorem Step.filled_le (h : Step b b') (epoch nonce : ℕ) :
    b.filled epoch nonce ≤ b'.filled epoch nonce := by
  cases h with
  | rest | ends => exact le_rfl
  | opens => exact le_fill ..

/-- Changing a numbered loan moves the sum by the change of that loan. -/
theorem sum_update (f : ℕ → Terms) {n : ℕ} (below : id < n) (t : Terms) :
    (∑ i ∈ range n, (update f id t i).activePrincipal) + (f id).activePrincipal =
      (∑ i ∈ range n, (f i).activePrincipal) + t.activePrincipal := by
  have mem : id ∈ range n := mem_range.mpr below
  have others : ∑ i ∈ (range n).erase id, (update f id t i).activePrincipal =
      ∑ i ∈ (range n).erase id, (f i).activePrincipal :=
    sum_congr rfl fun i hi => by rw [update_of_ne (ne_of_mem_erase hi)]
  have before := add_sum_erase (range n) (fun i => (f i).activePrincipal) mem
  have after := add_sum_erase (range n) (fun i => (update f id t i).activePrincipal) mem
  simp only [update_self, others] at after
  omega

theorem Sound.numbered (h : b.Sound) (some_ : (b.loan id).status ≠ .none) : id < b.next := by
  by_contra above
  exact some_ (h.unused id (Nat.le_of_not_lt above))

theorem Sound.principal_le (h : b.Sound) (active : (b.loan id).status = .active) :
    (b.loan id).principal ≤ b.active := by
  have numbered : id < b.next := h.numbered (by simp [active])
  have part := single_le_sum (f := fun i => (b.loan i).activePrincipal)
    (fun _ _ => Nat.zero_le _) (mem_range.mpr numbered)
  rw [h.active_eq] at part
  simpa [Terms.activePrincipal, active] using part

theorem Step.sound (hb : b.Sound) (h : Step b b') : b'.Sound := by
  cases h with
  | rest => exact hb
  | opens epoch nonce principal interest fits =>
    refine ⟨fun id above => ?_, fun id some_ => ?_, ?_⟩
    · have ne : id ≠ b.next := by
        have : b.next + 1 ≤ id := above
        omega
      simp only [update_of_ne ne]
      exact hb.unused id (Nat.le_of_succ_le above)
    · by_cases same : id = b.next
      · subst same
        simpa using fits
      · simp only [update_of_ne same] at some_ ⊢
        exact hb.fits id some_
    · rw [sum_range_succ, ← hb.active_eq]
      have others : ∀ i ∈ range b.next,
          (update b.loan b.next ⟨.active, principal, interest⟩ i).activePrincipal =
            (b.loan i).activePrincipal := fun i hi => by
        rw [update_of_ne (mem_range.mp hi).ne]
      rw [sum_congr rfl others]
      change _ + (update b.loan b.next _ b.next).activePrincipal = _ + principal
      rw [update_self]
      rfl
  | ends id status was inactive some_ covered =>
    have numbered : id < b.next := hb.numbered (by simp [was])
    refine ⟨fun other above => ?_, fun other some_ => ?_, ?_⟩
    · have ne : other ≠ id := by
        have : b.next ≤ other := above
        omega
      simp only [update_of_ne ne]
      exact hb.unused other above
    · by_cases same : other = id
      · subst same
        simpa using hb.fits other (by simp [was])
      · simp only [update_of_ne same] at some_ ⊢
        exact hb.fits other some_
    · have moved := sum_update b.loan numbered { b.loan id with status }
      have before : (b.loan id).activePrincipal = (b.loan id).principal := if_pos was
      have after : Terms.activePrincipal { b.loan id with status } = 0 := if_neg inactive
      rw [before, after, hb.active_eq] at moved
      change ∑ i ∈ range b.next, (update b.loan id { b.loan id with status } i).activePrincipal =
        b.active - (b.loan id).principal
      omega

end Book

/-! ### Frames -/

section Frames

variable {w w' : World} {id : ℕ} {recipient : Address} {amount : ℕ}
  {f : TokenLedger Address → Except P2PVault.TransferError (TokenLedger Address)}

theorem onLoanToken_ok (h : onLoanToken f w = .ok w') :
    ∃ t, f w.loanToken = .ok t ∧ w' = { w with loanToken := t } := by
  simp only [onLoanToken, bind_eq_ok, mapError_eq_ok, pure_eq_ok] at h
  obtain ⟨t, sent, rfl⟩ := h
  exact ⟨t, sent, rfl⟩

theorem onLoanToken_of_ok {t : TokenLedger Address} (h : f w.loanToken = .ok t) :
    onLoanToken f w = .ok { w with loanToken := t } := by
  rw [onLoanToken, h]
  rfl

theorem onLoanToken_facility (h : onLoanToken f w = .ok w') : w'.facility = w.facility := by
  obtain ⟨t, -, rfl⟩ := onLoanToken_ok h
  rfl

theorem onCollateralToken_facility (h : onCollateralToken f w = .ok w') :
    w'.facility = w.facility := by
  simp only [onCollateralToken, bind_eq_ok, pure_eq_ok] at h
  obtain ⟨t, -, rfl⟩ := h
  rfl

theorem sendCash_facility (h : sendCash recipient amount w = .ok w') :
    w'.facility = w.facility := by
  simp only [sendCash, bind_eq_ok] at h
  obtain ⟨-, -, sent⟩ := h
  exact onLoanToken_facility sent

theorem setLoan_book (id : ℕ) (l : Loan) (f : Facility) :
    (setLoan id l f).book = { f.book with loan := update f.book.loan id (terms l) } := by
  have same : (fun other => terms (update f.loans id l other)) =
      update (fun other => terms (f.loans other)) id (terms l) := by
    funext other
    exact apply_update (fun _ => terms) f.loans id l other
  simp only [setLoan, Facility.book, same]

/-- Credits, deadlines and acknowledgements are no terms. -/
theorem setLoan_book_of_terms {l : Loan} {g : Facility} (same : terms l = terms (g.loans id)) :
    (setLoan id l g).book = g.book := by
  rw [setLoan_book, same]
  simp only [Facility.book, update_eq_self]

theorem setUse_book (nonce : ℕ) (use : QuoteUse) (f : Facility) :
    (setUse nonce use f).book =
      { f.book with
        filled := update f.book.filled f.epoch
          (update (f.book.filled f.epoch) nonce use.filled) } := by
  have same : (fun e n => ((setUse nonce use f).quoteUses e n).filled) =
      update f.book.filled f.epoch (update (f.book.filled f.epoch) nonce use.filled) := by
    funext e n
    by_cases he : e = f.epoch
    · subst he
      by_cases hn : n = nonce
      · subst hn
        simp [setUse]
      · simp [setUse, hn, Facility.book]
    · simp [setUse, he, Facility.book]
  rw [← same]
  rfl

end Frames

/-! ### Draws -/

/-- Everything a draw checks that its terms and its quote depend on, and what it writes. -/
structure Drawn (quote : Quote) (principal collateral interest : ℕ) (w w' : World) (id : ℕ) :
    Prop where
  epoch_eq : quote.epoch = w.facility.epoch
  capacity_pos : 0 < quote.capacity
  principal_pos : 0 < principal
  words : quote.interestForCapacity ≤ MODULUS - 1 - quote.capacity
  collateral_eq : collateral =
    Rounding.mulDivUp principal quote.collateralForCapacity quote.capacity
  interest_eq : interest = Rounding.mulDivUp principal quote.interestForCapacity quote.capacity
  filled_le : w.facility.book.filled quote.epoch quote.nonce + principal ≤ quote.capacity
  id_eq : id = w.facility.nextLoanId
  book_eq : w'.facility.book = ⟨id + 1, w.facility.activePrincipal + principal,
    update w.facility.book.loan id ⟨.active, principal, interest⟩,
    Book.fill quote.epoch quote.nonce principal w.facility.book.filled⟩
  collateralAmount_eq : (w'.loan id).collateralAmount = collateral

theorem draw_ok {sender vault : Address} {quote : Quote} {signature : Signature}
    {principal maxCollateral maxInterest minRemainingCapacity id : ℕ} {w w' : World}
    (h : draw sender vault quote signature principal maxCollateral maxInterest
      minRemainingCapacity w = .ok (w', id)) :
    ∃ collateral interest, Drawn quote principal collateral interest w w' id := by
  simp only [draw, checkQuote, quoteTerms, bind_eq_ok, revertIf_eq_ok, exists_const, pure_eq_ok,
    not_or, not_lt, Prod.mk.injEq] at h
  obtain ⟨-, terms_, ⟨⟨sameEpoch, -, -, -, positive, -, -, -, words, -⟩, asked,
    ⟨⟨some_, -, -⟩, rfl⟩, -, rfl⟩, -, -, ⟨-, -, room, remaining, -⟩, -, u, pulled, v, sent, rfl,
    rfl⟩ := h
  have stored := (sendCash_facility sent).trans (onCollateralToken_facility pulled)
  have current := not_not.mp sameEpoch
  refine ⟨_, _, ⟨current, Nat.pos_of_ne_zero positive, Nat.pos_of_ne_zero some_, words, rfl, rfl,
    ?_, rfl, ?_, ?_⟩⟩
  · have filled : w.facility.book.filled quote.epoch quote.nonce =
        (w.facility.quoteUses w.facility.epoch quote.nonce).filled := by
      rw [current]
      rfl
    omega
  · rw [stored, setLoan_book, current]
    have used := setUse_book quote.nonce
      { w.facility.quoteUses w.facility.epoch quote.nonce with
        digest := w.cfg.quoteHash quote
        filled := (w.facility.quoteUses w.facility.epoch quote.nonce).filled + principal } w.facility
    simp only [Book.mk.injEq]
    exact ⟨rfl, rfl, rfl, congrArg Book.filled used⟩
  · rw [World.loan, stored]
    simp only [setLoan, setUse, update_self]

/-- The collateral and the interest of a draw are those of the whole quote at most, so principal and
interest together are a word. -/
theorem Drawn.fits {quote : Quote} {principal collateral interest id : ℕ} {w w' : World}
    (h : Drawn quote principal collateral interest w w' id) : principal + interest < MODULUS := by
  have room := h.filled_le
  have whole : interest ≤ quote.interestForCapacity := by
    rw [h.interest_eq, Rounding.mulDivUp_le_iff h.capacity_pos, Nat.mul_comm]
    exact Nat.mul_le_mul_left _ (by omega)
  have words := h.words
  have word := quote.capacity_lt
  omega

/-! ### Every call -/

variable {w w' : World} {id : ℕ} {sender : Address}

theorem fst_map_eq_ok {α β ε : Type} {x : Except ε (α × β)} {a : α} :
    Prod.fst <$> x = .ok a ↔ ∃ b, x = .ok (a, b) := by
  cases x with
  | error e => simp [Functor.map, Except.map]
  | ok p => simp [Functor.map, Except.map, Prod.ext_iff]

theorem repay_ok (h : repay sender id w = .ok w') :
    (w.loan id).status = .active ∧ (w.loan id).principal ≤ w.facility.activePrincipal ∧
      (w.loan id).principal + (w.loan id).interest < MODULUS ∧
      w'.facility =
        setLoan id
          { w.loan id with
            status := .repaid
            feeCredit := Rounding.mulDiv (w.loan id).interest w.cfg.feeBps 10000
            lenderCredit := (w.loan id).principal + (w.loan id).interest -
              Rounding.mulDiv (w.loan id).interest w.cfg.feeBps 10000
            collateralCredit := (w.loan id).collateralAmount }
          { w.facility with
            activePrincipal := w.facility.activePrincipal - (w.loan id).principal } := by
  simp only [repay, bind_eq_ok, revertIf_eq_ok, exists_const, checkedSub_eq_ok, checkedAdd_eq_ok,
    ne_eq, not_not] at h
  obtain ⟨active, -, _, ⟨covered, rfl⟩, _, ⟨fits, rfl⟩, _, ⟨-, rfl⟩, pulled⟩ := h
  exact ⟨active, covered, fits, onLoanToken_facility pulled⟩

/-- An end of a loan that keeps its terms. -/
theorem ends_step {l : Loan} {status : Status} {g : Facility}
    (active : (w.loan id).status = .active)
    (covered : (w.loan id).principal ≤ w.facility.activePrincipal)
    (kept : terms l = { terms (w.loan id) with status }) (inactive : status ≠ .active)
    (some_ : status ≠ .none)
    (rest : g.book =
      { w.facility.book with active := w.facility.activePrincipal - (w.loan id).principal }) :
    w.facility.book.Step (setLoan id l g).book := by
  have ended : w.facility.book.Step _ := .ends id status active inactive some_ covered
  rw [setLoan_book, kept, rest]
  exact ended

/-- A call that writes to a loan but leaves its terms. -/
theorem kept_step {l : Loan} {g : Facility} (same : terms l = terms (g.loans id))
    (rest : g.book = w.facility.book) : w.facility.book.Step (setLoan id l g).book := by
  rw [setLoan_book_of_terms same, rest]
  exact .rest

theorem exec_step {op : Op} (h : exec op w = .ok w') : w.facility.book.Step w'.facility.book := by
  cases op with
  | setPolicy sender next signer =>
    simp only [exec, setPolicy, bind_eq_ok, pure_eq_ok] at h
    obtain ⟨-, -, -, -, -, -, rfl⟩ := h
    exact .rest
  | setNewLoansPaused sender paused =>
    simp only [exec, setNewLoansPaused, bind_eq_ok, pure_eq_ok] at h
    obtain ⟨-, -, rfl⟩ := h
    exact .rest
  | cancelQuote sender nonce =>
    simp only [exec, cancelQuote, bind_eq_ok, pure_eq_ok] at h
    obtain ⟨-, -, rfl⟩ := h
    have kept := setUse_book nonce
      { w.facility.quoteUses w.facility.epoch nonce with cancelled := true } w.facility
    have same : w.facility.book.filled w.facility.epoch nonce =
        (w.facility.quoteUses w.facility.epoch nonce).filled := rfl
    rw [← same, update_eq_self, update_eq_self] at kept
    exact kept ▸ .rest
  | deposit sender amount =>
    simp only [exec, deposit, bind_eq_ok, pure_eq_ok] at h
    obtain ⟨-, -, -, -, mid, pulled, rfl⟩ := h
    rw [onLoanToken_facility pulled]
    exact .rest
  | withdrawIdle sender amount recipient =>
    simp only [exec, withdrawIdle, bind_eq_ok] at h
    obtain ⟨-, -, -, -, sent⟩ := h
    rw [sendCash_facility sent]
    exact .rest
  | withdrawSurplus sender amount recipient =>
    simp only [exec, withdrawSurplus, bind_eq_ok] at h
    obtain ⟨-, -, -, -, sent⟩ := h
    rw [sendCash_facility sent]
    exact .rest
  | acknowledgeIdleLoss sender =>
    simp only [exec, acknowledgeIdleLoss, bind_eq_ok, pure_eq_ok] at h
    obtain ⟨-, -, -, -, rfl⟩ := h
    exact .rest
  | draw sender vault quote signature principal maxCollateral maxInterest minRemainingCapacity =>
    obtain ⟨id, done⟩ := fst_map_eq_ok.mp h
    obtain ⟨collateral, interest, drawn⟩ := draw_ok done
    rw [drawn.book_eq, drawn.id_eq]
    exact .opens quote.epoch quote.nonce principal interest drawn.fits
  | repay sender id =>
    obtain ⟨active, covered, -, stored⟩ := repay_ok h
    rw [stored]
    exact ends_step active covered rfl (by simp) (by simp) rfl
  | claimDefault id =>
    simp only [exec, claimDefault, bind_eq_ok, revertIf_eq_ok, exists_const, checkedSub_eq_ok,
      pure_eq_ok, ne_eq, not_not] at h
    obtain ⟨active, -, _, ⟨covered, rfl⟩, rfl⟩ := h
    exact ends_step active covered rfl (by simp) (by simp) rfl
  | recycleRepayment id =>
    obtain ⟨n, done⟩ := fst_map_eq_ok.mp h
    simp only [recycleRepayment, bind_eq_ok, pure_eq_ok, Prod.mk.injEq] at done
    obtain ⟨-, -, mid, sent, rfl, -⟩ := done
    change w.facility.book.Step mid.facility.book
    rw [onLoanToken_facility sent]
    exact kept_step rfl rfl
  | withdrawRepayment sender id amount recipient =>
    simp only [exec, withdrawRepayment, bind_eq_ok] at h
    obtain ⟨-, -, -, -, sent⟩ := h
    rw [onLoanToken_facility sent]
    exact kept_step rfl rfl
  | collectFee id =>
    obtain ⟨n, done⟩ := fst_map_eq_ok.mp h
    simp only [collectFee, bind_eq_ok, pure_eq_ok, Prod.mk.injEq] at done
    obtain ⟨-, -, mid, sent, rfl, -⟩ := done
    rw [onLoanToken_facility sent]
    exact kept_step rfl rfl
  | withdrawCollateral sender id amount recipient =>
    simp only [exec, withdrawCollateral, bind_eq_ok] at h
    obtain ⟨-, -, -, -, sent⟩ := h
    rw [onCollateralToken_facility sent]
    exact kept_step rfl rfl
  | writeOffRepayment sender id =>
    simp only [exec, writeOffRepayment, bind_eq_ok, pure_eq_ok] at h
    obtain ⟨-, -, -, -, rfl⟩ := h
    exact kept_step rfl rfl
  | writeOffCollateral sender id =>
    simp only [exec, writeOffCollateral, bind_eq_ok, pure_eq_ok] at h
    obtain ⟨-, -, -, -, rfl⟩ := h
    exact kept_step rfl rfl
  | acknowledgeDefault sender id =>
    simp only [exec, acknowledgeDefault, bind_eq_ok, pure_eq_ok] at h
    obtain ⟨-, -, -, -, _, -, rfl⟩ := h
    exact kept_step rfl rfl
  | proposeExtension sender id newDeadline expiresAt =>
    simp only [exec, proposeExtension, bind_eq_ok, pure_eq_ok] at h
    obtain ⟨-, -, -, -, -, -, rfl⟩ := h
    exact .rest
  | cancelExtension sender id =>
    simp only [exec, cancelExtension, bind_eq_ok, pure_eq_ok] at h
    obtain ⟨-, -, rfl⟩ := h
    exact .rest
  | acceptExtension sender id nonce oldDeadline newDeadline expiresAt =>
    simp only [exec, acceptExtension, bind_eq_ok, pure_eq_ok] at h
    obtain ⟨-, -, -, -, -, -, dueAt, -, rfl⟩ := h
    change w.facility.book.Step (setLoan id { w.loan id with dueAt } w.facility).book
    exact kept_step rfl rfl
  | outside loanToken collateralToken isValidSignatureNow seconds =>
    rw [exec, pure_eq_ok] at h
    exact h ▸ .rest

theorem deployed_sound (limits : Limits) : (deployed limits).book.Sound where
  unused _ _ := rfl
  fits _ some_ := absurd rfl some_
  active_eq := rfl

theorem Reachable.sound (h : Reachable w) : w.facility.book.Sound := by
  obtain ⟨start, ops, ⟨limits, -, fresh⟩, run⟩ := h
  refine run.invariant (fun w => w.facility.book.Sound)
    (fun _ _ _ sound step => (exec_step step).sound sound) ?_
  rw [fresh]
  exact deployed_sound limits

end Turret.LenderFacility
