import Mathlib.Data.List.ReduceOption
import Turret.P2P.FacilityBooks

/-! A quote drawn in parts, by whatever split and with whatever calls in between.
Each part is rounded up, so the parts together owe the lender no less than the
quote, and less than one unit more for each part; and every loan that a draw
opened can be repaid and its repayment divided. -/

namespace Turret.LenderFacility

open Execution Rounding Uint256

structure Draw where
  principal : ℕ
  collateral : ℕ
  interest : ℕ

/-- A draw from `quote`, by what it lends and asks for, or any other call. -/
inductive Drawing (quote : Quote) (w : World) : Option Draw → World → Prop
  | draw {sender vault : Address} {signature : Signature}
      {principal maxCollateral maxInterest minRemainingCapacity id : ℕ} {w' : World}
      (done : draw sender vault quote signature principal maxCollateral maxInterest
        minRemainingCapacity w = .ok (w', id)) :
      Drawing quote w (some ⟨principal, (w'.loan id).collateralAmount, (w'.loan id).interest⟩) w'
  | other {op : Op} {w' : World} (done : exec op w = .ok w') : Drawing quote w none w'

/-! ### Rounding up in parts -/

section Parts

variable {capacity : ℕ} (positive : 0 < capacity) (amount : ℕ)

/-- What is asked for each part of `capacity`, pro rata of `amount`. -/
def shares (capacity amount : ℕ) (parts : List ℕ) : ℕ :=
  (parts.map fun part => mulDivUp part amount capacity).sum

include positive

theorem le_shares (parts : List ℕ) :
    parts.sum * amount ≤ shares capacity amount parts * capacity := by
  induction parts with
  | nil => simp [shares]
  | cons part parts ih =>
    have one := le_mulDivUp_mul (a := part) (b := amount) positive
    simp only [shares, List.map_cons, List.sum_cons, Nat.add_mul] at ih ⊢
    omega

theorem shares_le (parts : List ℕ) :
    shares capacity amount parts * capacity + parts.length ≤
      parts.sum * amount + parts.length * capacity := by
  induction parts with
  | nil => simp [shares]
  | cons part parts ih =>
    have one := mulDivUp_mul_lt (a := part) (b := amount) positive
    simp only [shares, List.map_cons, List.sum_cons, List.length_cons, Nat.add_mul] at ih ⊢
    omega

/-- The whole capacity, however it is split, brings in the whole amount. -/
theorem whole_le_shares {parts : List ℕ} (whole : parts.sum = capacity) :
    amount ≤ shares capacity amount parts := by
  have least := le_shares positive amount parts
  rw [whole, Nat.mul_comm] at least
  exact Nat.le_of_mul_le_mul_right least positive

end Parts

/-- What the draws from a quote add up to. -/
structure SplitTerms (quote : Quote) (draws : List Draw) : Prop where
  each : ∀ d ∈ draws,
    d.collateral = mulDivUp d.principal quote.collateralForCapacity quote.capacity ∧
      d.interest = mulDivUp d.principal quote.interestForCapacity quote.capacity
  within : (draws.map Draw.principal).sum ≤ quote.capacity
  collateral_ge : (draws.map Draw.principal).sum * quote.collateralForCapacity ≤
    (draws.map Draw.collateral).sum * quote.capacity
  collateral_lt : draws ≠ [] → (draws.map Draw.collateral).sum * quote.capacity <
    (draws.map Draw.principal).sum * quote.collateralForCapacity + draws.length * quote.capacity
  interest_ge : (draws.map Draw.principal).sum * quote.interestForCapacity ≤
    (draws.map Draw.interest).sum * quote.capacity
  interest_lt : draws ≠ [] → (draws.map Draw.interest).sum * quote.capacity <
    (draws.map Draw.principal).sum * quote.interestForCapacity + draws.length * quote.capacity
  full : draws ≠ [] → (draws.map Draw.principal).sum = quote.capacity →
    quote.collateralForCapacity ≤ (draws.map Draw.collateral).sum ∧
      quote.interestForCapacity ≤ (draws.map Draw.interest).sum

/-- The loan `id` is owed in words, whoever can pay in time can repay it, and what a repayment
leaves is divided without remainder. -/
structure Repayable (id : ℕ) (w : World) : Prop where
  fits : (w.loan id).principal + (w.loan id).interest < MODULUS
  accepts : ∀ payer, payer ≠ (w.loan id).vault → w.now ≤ (w.loan id).dueAt + GRACE_PERIOD →
    (w.loan id).principal + (w.loan id).interest ≤ w.loanToken.allowance payer w.cfg.self →
    (w.loan id).principal + (w.loan id).interest ≤ w.loanToken.balanceOf payer →
    ∃ w', repay payer id w = .ok w'
  splits : ∀ payer w', repay payer id w = .ok w' →
    (w'.loan id).feeCredit = (w.loan id).interest * w.cfg.feeBps / 10000 ∧
      (w'.loan id).feeCredit ≤ (w.loan id).interest ∧
      (w'.loan id).lenderCredit + (w'.loan id).feeCredit =
        (w.loan id).principal + (w.loan id).interest

/-! ### Runs -/

variable {quote : Quote} {w w' : World}

theorem Drawing.step {d : Option Draw} (h : Drawing quote w d w') :
    w.facility.book.Step w'.facility.book := by
  cases h with
  | draw done =>
    obtain ⟨collateral, interest, drawn⟩ := draw_ok done
    rw [drawn.book_eq, drawn.id_eq]
    exact .opens _ _ _ _ drawn.fits
  | other done => exact exec_step done

/-- What each draw of a run asks for, and that they fit into the capacity with all that was filled
before them. -/
structure DrawsOf (quote : Quote) (draws : List Draw) (filled : ℕ) : Prop where
  each : ∀ d ∈ draws,
    d.collateral = mulDivUp d.principal quote.collateralForCapacity quote.capacity ∧
      d.interest = mulDivUp d.principal quote.interestForCapacity quote.capacity
  positive : draws ≠ [] → 0 < quote.capacity
  within : draws ≠ [] → filled + (draws.map Draw.principal).sum ≤ quote.capacity

theorem draws_of_run {labels : List (Option Draw)} (run : Run (Drawing quote) w labels w') :
    DrawsOf quote labels.reduceOption (w.facility.book.filled quote.epoch quote.nonce) := by
  induction run with
  | nil => exact ⟨fun _ none => absurd none (List.not_mem_nil), fun some_ => absurd rfl some_,
      fun some_ => absurd rfl some_⟩
  | @cons u v x d labels first rest ih =>
    cases first with
    | @draw _ _ _ principal _ _ _ id _ done =>
      obtain ⟨collateral, interest, drawn⟩ := draw_ok done
      have loan : terms (v.loan id) = ⟨.active, principal, interest⟩ := by
        have there := congrFun (congrArg Book.loan drawn.book_eq) id
        simpa only [Facility.book, World.loan, Function.update_self] using there
      have asked : (v.loan id).interest = interest := congrArg Terms.interest loan
      have filled : v.facility.book.filled quote.epoch quote.nonce =
          u.facility.book.filled quote.epoch quote.nonce + principal := by
        rw [drawn.book_eq]
        exact Book.fill_self ..
      have room := drawn.filled_le
      rw [List.reduceOption_cons_of_some]
      refine ⟨fun d mem => ?_, fun _ => drawn.capacity_pos, fun _ => ?_⟩
      · rcases List.mem_cons.mp mem with here | later
        · subst here
          exact ⟨drawn.collateralAmount_eq.trans drawn.collateral_eq,
            asked.trans drawn.interest_eq⟩
        · exact ih.each d later
      · simp only [List.map_cons, List.sum_cons]
        by_cases last : labels.reduceOption = []
        · simp only [last, List.map_nil, List.sum_nil]
          omega
        · have := ih.within last
          omega
    | other done =>
      have grows := (exec_step done).filled_le quote.epoch quote.nonce
      rw [List.reduceOption_cons_of_none]
      exact ⟨ih.each, ih.positive, fun some_ => by
        have := ih.within some_
        omega⟩

theorem DrawsOf.split {draws : List Draw} {filled : ℕ} (h : DrawsOf quote draws filled) :
    SplitTerms quote draws := by
  by_cases none : draws = []
  · subst none
    exact ⟨by simp, by simp, by simp, by simp, by simp, by simp, by simp⟩
  have positive := h.positive none
  have some_ : 0 < draws.length := List.length_pos_iff.mpr none
  have collateral : (draws.map Draw.collateral).sum =
      shares quote.capacity quote.collateralForCapacity (draws.map Draw.principal) := by
    rw [shares, List.map_map]
    exact congrArg List.sum (List.map_congr_left fun d mem => (h.each d mem).1)
  have interest : (draws.map Draw.interest).sum =
      shares quote.capacity quote.interestForCapacity (draws.map Draw.principal) := by
    rw [shares, List.map_map]
    exact congrArg List.sum (List.map_congr_left fun d mem => (h.each d mem).2)
  have collateral_le := shares_le positive quote.collateralForCapacity (draws.map Draw.principal)
  have interest_le := shares_le positive quote.interestForCapacity (draws.map Draw.principal)
  rw [List.length_map] at collateral_le interest_le
  have within := h.within none
  constructor
  · exact h.each
  · omega
  · rw [collateral]
    exact le_shares positive _ _
  · intro _
    rw [collateral]
    omega
  · rw [interest]
    exact le_shares positive _ _
  · intro _
    rw [interest]
    omega
  · intro _ whole
    rw [collateral, interest]
    exact ⟨whole_le_shares positive _ whole, whole_le_shares positive _ whole⟩

theorem run_sound {labels : List (Option Draw)} (run : Run (Drawing quote) w labels w')
    (h : w.facility.book.Sound) : w'.facility.book.Sound :=
  run.invariant (fun w => w.facility.book.Sound) (fun _ _ _ sound step => step.step.sound sound) h

/-- A recorded loan that is active can be repaid. -/
theorem repayable (h : w.facility.book.Sound) {id : ℕ} (active : (w.loan id).status = .active) :
    Repayable id w := by
  have fits : (w.loan id).principal + (w.loan id).interest < MODULUS :=
    h.fits id (by rw [show (w.facility.book.loan id).status = _ from active]; simp)
  have covered : (w.loan id).principal ≤ w.facility.activePrincipal := h.principal_le active
  have fee : mulDiv (w.loan id).interest w.cfg.feeBps 10000 ≤ (w.loan id).interest :=
    mulDiv_le_self w.cfg.fee_le _
  refine ⟨fits, fun payer away inTime allowed held => ?_, fun payer w' done => ?_⟩
  · simp only [repay, bind_eq_ok, revertIf_eq_ok, exists_const, checkedSub_eq_ok,
      checkedAdd_eq_ok, ne_eq, not_not, not_lt]
    exact ⟨_, active, inTime, _, ⟨covered, rfl⟩, _, ⟨fits, rfl⟩, _, ⟨by omega, rfl⟩,
      onLoanToken_of_ok ((P2PVault.pullExact_eq_ok away).mpr ⟨⟨allowed, held⟩, rfl⟩)⟩
  · obtain ⟨-, -, -, stored⟩ := repay_ok done
    simp only [World.loan, stored, setLoan, Function.update_self]
    refine ⟨rfl, fee, ?_⟩
    exact Nat.sub_add_cancel (fee.trans (Nat.le_add_left ..))

/-- However a quote is drawn in parts, in every run of the facility: the parts round up, and every
loan they opened stays repayable. -/
theorem split_draws (h : Reachable w) {labels : List (Option Draw)}
    (run : Run (Drawing quote) w labels w') :
    SplitTerms quote labels.reduceOption ∧
      ∀ id, (w'.loan id).status = .active → Repayable id w' :=
  ⟨(draws_of_run run).split, fun _ active => repayable (run_sound run h.sound) active⟩

/-! A quote for a thousand units of cash against seven of collateral and three of interest, drawn in
three parts with a pause of the borrowing in between. -/

def sampleStart : World where
  cfg := sampleConfig fun _ => 9
  now := 1000
  loanToken := (TokenLedger.empty.mint 2 (10 ^ 9)).approve 2 100 (10 ^ 9)
  collateralToken := (TokenLedger.empty.mint 3 (10 ^ 9)).approve 3 100 (10 ^ 9)
  isValidSignatureNow signer _ _ := signer == 2
  facility := deployed ⟨10 ^ 9, 1, 10 ^ 6, 86400, 86400, 5000, 1, 0⟩

def sample : World := reached sampleStart (exec (.deposit 2 (10 ^ 6)) sampleStart)

theorem sample_reachable : Reachable sample :=
  ⟨sampleStart, [.deposit 2 (10 ^ 6)], ⟨_, by decide, rfl⟩,
    .single (eq_ok_reached _ (by decide +kernel))⟩

def sampleDraw (vault : Address) (principal : ℕ) (w : World) : World :=
  (reached (w, 0) (draw 3 vault sampleQuote [] principal 10 10 0 w)).1

def samplePause (paused : Bool) (w : World) : World :=
  reached w (exec (.setNewLoansPaused 2 paused) w)

def sampleDrawn : World :=
  sampleDraw 13 334 (samplePause false (samplePause true
    (sampleDraw 12 333 (sampleDraw 11 333 sample))))

theorem samplePause_drawing (paused : Bool) (w : World)
    (accepted : (exec (.setNewLoansPaused 2 paused) w).isOk = true) :
    Drawing sampleQuote w none (samplePause paused w) :=
  .other (eq_ok_reached w accepted)

theorem sampleDraw_drawing (vault : Address) (principal : ℕ) (w : World)
    (accepted : (draw 3 vault sampleQuote [] principal 10 10 0 w).isOk = true) :
    ∃ collateral interest,
      Drawing sampleQuote w (some ⟨principal, collateral, interest⟩) (sampleDraw vault principal w) :=
  ⟨_, _, .draw (eq_ok_reached (w, 0) accepted)⟩

theorem sample_split_draws : ∃ labels : List (Option Draw),
    (labels.reduceOption.map Draw.principal).sum = sampleQuote.capacity ∧
      SplitTerms sampleQuote labels.reduceOption ∧ Repayable 1 sampleDrawn := by
  obtain ⟨_, _, first⟩ := sampleDraw_drawing 11 333 sample (by decide +kernel)
  obtain ⟨_, _, second⟩ := sampleDraw_drawing 12 333 (sampleDraw 11 333 sample) (by decide +kernel)
  have pause := samplePause_drawing true (sampleDraw 12 333 (sampleDraw 11 333 sample))
    (by decide +kernel)
  have resume := samplePause_drawing false
    (samplePause true (sampleDraw 12 333 (sampleDraw 11 333 sample))) (by decide +kernel)
  obtain ⟨_, _, third⟩ := sampleDraw_drawing 13 334 (samplePause false (samplePause true
    (sampleDraw 12 333 (sampleDraw 11 333 sample)))) (by decide +kernel)
  have run : Run (Drawing sampleQuote) sample _ sampleDrawn :=
    .cons first (.cons second (.cons pause (.cons resume (.single third))))
  obtain ⟨split, repays⟩ := split_draws sample_reachable run
  exact ⟨_, by simp [List.reduceOption, sampleQuote], split, repays 1 (by decide +kernel)⟩

end Turret.LenderFacility
