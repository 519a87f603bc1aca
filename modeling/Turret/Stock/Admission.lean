import Turret.Isolated.Reconciliation
import Turret.Stock.CreditEngine

/-! Every run of any number of stock engines over one guard and one gate: a call
that needs an admission finds, in force, exactly what the guardian has signed
for that engine. -/

namespace Turret.StockCredit

open Execution Rounding Circuit Function
open IsolatedEngine (World Good positionDebt)

variable {p : Prices} {w w' : World} {sender b recipient : Address} {amount : ℕ}

@[simp] theorem base_eq_ok {α : Type} (x : Except IsolatedEngine.Error α) (a : α) :
    base x = .ok a ↔ x = .ok a :=
  mapError_eq_ok ..

/-! ### One engine

At other prices the calls of the base contract move the same loan book. -/

theorem borrow_step (h : Good w) (done : borrow p sender amount w = .ok w') :
    IsolatedEngine.Step 0 w w' ∧ ∃ value, p.borrowingPrice = .ok value := by
  simp only [borrow, IsolatedEngine.requirePool, IsolatedEngine.onPool, base_eq_ok, bind_eq_ok,
    mapError_eq_ok, revertIf_eq_ok, exists_const, pure_eq_ok, Bool.not_eq_false, Bool.not_eq_true,
    not_lt] at done
  obtain ⟨bound, -, positive, enough, value, priced, covered, v, entered, x, ⟨capital, drawn, rfl⟩,
    rfl⟩ := done
  exact ⟨.of_settle (IsolatedEngine.lend_step (h.settle sender)
    (IsolatedEngine.settle_current sender w) bound positive enough covered entered drawn),
    value, priced⟩

theorem depositAndBorrow_step (h : Good w) {collateralAmount : ℕ}
    (done : depositAndBorrow p sender collateralAmount amount w = .ok w') :
    IsolatedEngine.Step 0 w w' ∧ ∃ value, p.borrowingPrice = .ok value := by
  simp only [depositAndBorrow, bind_eq_ok, base_eq_ok] at done
  obtain ⟨v, deposited, borrowed⟩ := done
  have first := IsolatedEngine.depositCollateral_step h deposited
  obtain ⟨second, priced⟩ := borrow_step (first.good h) borrowed
  exact ⟨first.trans second, priced⟩

/-- With debt, a price has been asked for and some collateral stays. -/
theorem checkExit_ok {q : Position} (within : amount ≤ q.collateral)
    (done : checkExit p q amount w = .ok ()) (owes : q.debt ≠ 0) :
    amount < q.collateral ∧ ∃ value, p.borrowingPrice = .ok value := by
  simp only [checkExit, if_neg owes, bind_eq_ok, revertIf_eq_ok, exists_const,
    Bool.not_eq_false] at done
  obtain ⟨-, value, priced, covered⟩ := done
  refine ⟨?_, value, priced⟩
  by_contra all
  have none : q.collateral - amount = 0 := by omega
  rw [none] at covered
  exact owes (safe_zero_amount covered)

theorem withdrawCollateral_step (h : Good w)
    (done : withdrawCollateral p sender amount recipient w = .ok w') :
    IsolatedEngine.Step 0 w w' ∧
      (positionDebt sender w ≠ 0 → ∃ value, p.borrowingPrice = .ok value) := by
  simp only [withdrawCollateral, IsolatedEngine.requirePool, base_eq_ok, bind_eq_ok,
    revertIf_eq_ok, exists_const, pure_eq_ok, Bool.not_eq_false, not_lt] at done
  obtain ⟨bound, -, within, ⟨⟩, checked, v, sent, rfl⟩ := done
  refine ⟨.of_settle (IsolatedEngine.exit_step (h.settle sender) bound within
    (fun owes => (checkExit_ok within checked owes).1) sent), fun owes => ?_⟩
  rw [h.positionDebt] at owes
  exact (checkExit_ok within checked owes).2

theorem close_step (h : Good w) {maxRepay n : ℕ}
    (done : close p sender maxRepay recipient w = .ok (w', n)) : IsolatedEngine.Step 0 w w' := by
  simp only [close, base_eq_ok, bind_eq_ok, revertIf_eq_ok, exists_const, pure_eq_ok, Prod.exists,
    Prod.mk.injEq] at done
  obtain ⟨v, m, repaid, -, u, rest, rfl, rfl⟩ := done
  have first := (IsolatedEngine.repayUpTo_step h repaid).2.2.2.toStep.of_settle
  simp only [withdrawRest] at rest
  split_ifs at rest
  · exact first.trans (withdrawCollateral_step (first.good h) rest).1
  · exact Except.ok.inj rest ▸ first

theorem liquidate_step (h : Good w) {maxRepay minCollateral n m : ℕ}
    (done : liquidate p sender b maxRepay minCollateral w = .ok (w', n, m)) :
    IsolatedEngine.Step 0 w w' := by
  simp only [liquidate, IsolatedEngine.requirePool, base_eq_ok, bind_eq_ok, revertIf_eq_ok,
    exists_const, pure_eq_ok, Prod.exists, Prod.mk.injEq, Bool.not_eq_false] at done
  obtain ⟨bound, value, -, q, s, quoted, -, v, repaid, left, subtracted, x, short, y, finished, z,
    sent, rfl, rfl, rfl⟩ := done
  exact IsolatedEngine.seize_step h bound quoted repaid subtracted short finished sent

/-- The pool's own check, where there is a loan. -/
theorem allowed_of_lender {safety : Option Bool} {call : LenderCall} {c c' : IsolatedPool.World}
    (moves : call.movesAssets = true) (lent : c.pool.outstandingPrincipal ≠ 0)
    (done : IsolatedPool.vault.call safety call c = .ok c') : safety = some true := by
  have allowed : IsolatedPool.capitalOperationsAllowed safety (IsolatedPool.accrue c) = true :=
    LenderVault.call_allowed moves done
  unfold IsolatedPool.capitalOperationsAllowed at allowed
  rw [if_neg (fun none => lent none.1)] at allowed
  cases safety with
  | none => cases allowed
  | some answer => exact congrArg some allowed

/-- An engine with a loan on its books has an active borrower, and so asks for a price. -/
theorem priced_of_allowed (h : Good w) (lent : w.capital.pool.outstandingPrincipal ≠ 0)
    (allowed : capitalOperationsAllowed p w = true) : ∃ value, p.borrowingPrice = .ok value := by
  have some : w.engine.active.members.length ≠ 0 := by
    intro none
    exact lent (h.book_sound.idle (List.length_eq_zero_iff.mp none)).1
  unfold capitalOperationsAllowed at allowed
  rw [if_neg some] at allowed
  cases priced : p.borrowingPrice with
  | error e => simp [priced] at allowed
  | ok value => exact ⟨value, rfl⟩

theorem run_step (h : Good w) {op : IsolatedEngine.Op}
    (outside : ¬(op.sender = some w.self ∨ op.sender = some w.pool))
    (done : run p op w = .ok w') : ∃ n, IsolatedEngine.Step n w w' := by
  have inherited : IsolatedEngine.run op w = .ok w' → ∃ n, IsolatedEngine.Step n w w' := by
    intro done
    have called : IsolatedEngine.exec op w = .ok w' := by
      simp only [IsolatedEngine.exec, bind_eq_ok, revertIf_eq_ok, exists_const]
      exact ⟨outside, done⟩
    obtain ⟨n, step, -⟩ := IsolatedEngine.exec_step h called
    exact ⟨n, step⟩
  cases op with
  | setRiskPaused sender paused =>
    simp only [run, setRiskPaused, IsolatedEngine.onlyOwner, base_eq_ok, bind_eq_ok, revertIf_eq_ok,
      exists_const, pure_eq_ok] at done
    obtain ⟨-, -, -, rfl⟩ := done
    exact ⟨0, h.quiet_step rfl rfl rfl id⟩
  | depositAndBorrow sender collateralAmount borrowAmount =>
    exact ⟨0, (depositAndBorrow_step h done).1⟩
  | borrow sender amount => exact ⟨0, (borrow_step h done).1⟩
  | withdrawCollateral sender amount recipient => exact ⟨0, (withdrawCollateral_step h done).1⟩
  | close sender maxRepay recipient =>
    simp only [run, bind_eq_ok, pure_eq_ok, Prod.exists] at done
    obtain ⟨v, n, closed, rfl⟩ := done
    exact ⟨0, close_step h closed⟩
  | liquidate sender b maxRepay minCollateral =>
    simp only [run, bind_eq_ok, pure_eq_ok, Prod.exists] at done
    obtain ⟨v, n, m, liquidated, rfl⟩ := done
    exact ⟨0, liquidate_step h liquidated⟩
  | capital op =>
    by_cases time : ∃ seconds, op = .elapse seconds
    · obtain ⟨seconds, rfl⟩ := time
      cases done
      exact ⟨0, h.refl⟩
    · have called : IsolatedEngine.onPool (IsolatedPool.exec
          (op.withSafety (some (capitalOperationsAllowed p w)))) w = .ok w' := by
        cases op with
        | elapse seconds => exact absurd ⟨seconds, rfl⟩ time
        | _ => exact (base_eq_ok _ _).mp done
      simp only [IsolatedEngine.onPool, bind_eq_ok, mapError_eq_ok, pure_eq_ok] at called
      obtain ⟨capital, moved, rfl⟩ := called
      refine ⟨0, h.lender_step ?_ moved⟩
      rw [IsolatedEngine.withSafety_sender]
      exact fun same => outside (.inl same)
  | bindPool sender => exact inherited ((base_eq_ok _ _).mp done)
  | retireMarket sender => exact inherited ((base_eq_ok _ _).mp done)
  | transferOwnership sender newOwner => exact inherited ((base_eq_ok _ _).mp done)
  | depositCollateral sender b amount => exact inherited ((base_eq_ok _ _).mp done)
  | repay sender b maxAmount => exact inherited ((base_eq_ok _ _).mp done)
  | collateral call => exact inherited ((base_eq_ok _ _).mp done)
  | feeds primary secondary => exact inherited ((base_eq_ok _ _).mp done)

/-! ### What a call brings along, and leaves -/

section System

variable {ι H M Signature : Type}

def MarketCall.checks : MarketCall H Signature → Option (Checks H Signature)
  | .submitChecks checks | .quoteWithChecks _ checks | .depositAndBorrowChecked _ _ _ checks
  | .borrowChecked _ _ checks | .withdrawCollateralChecked _ _ _ checks => some checks
  | _ => none

def MarketCall.liveness : MarketCall H Signature → Option (LivenessProof Signature)
  | .priceWithLiveness proof | .liquidationQuoteWithLiveness _ _ proof
  | .liquidateChecked _ _ _ _ proof => some proof
  | call => call.checks.map Checks.liveness

def Op.checks : Op ι H Signature → Option (ι × Checks H Signature)
  | .market i _ call => call.checks.map fun checks => (i, checks)
  | _ => none

def Op.health : Op ι H Signature → Option (Health H × Signature)
  | .circuit (.submitHealth h signature _) => some (h, signature)
  | .market _ _ call => call.checks.map fun checks => (checks.health, checks.priceSignature)
  | _ => none

def Op.liveness : Op ι H Signature → Option (Liveness × Signature)
  | .circuit (.submitLiveness record signature) => some (record, signature)
  | .market _ _ call => call.liveness.map fun proof => (proof.record, proof.signature)
  | _ => none

/-- The calls that need an admission: new debt, collateral of an account with debt, and lender
entry or exit while loans are outstanding. `close` withdraws only what is left after the debt. -/
def MarketCall.admits (w : World) : MarketCall H Signature → Bool
  | .inherited (.borrow ..) | .inherited (.depositAndBorrow ..) | .borrowChecked ..
  | .depositAndBorrowChecked .. => true
  | .inherited (.withdrawCollateral sender ..) | .withdrawCollateralChecked sender .. =>
    positionDebt sender w ≠ 0
  | .inherited (.capital (.lender _ call)) =>
    call.movesAssets && decide (w.capital.pool.outstandingPrincipal ≠ 0)
  | _ => false

variable {cfg : Circuit.Config}
  {signing : Signing H M Signature} {s s' s'' : System ι H M} {o : Op ι H Signature} {i : ι}
  {x : Reading}

/-- Whatever a call leaves stored was there before, or came with it and is signed. -/
structure Effect (cfg : Circuit.Config) (signing : Signing H M Signature) (o : Op ι H Signature)
    (s s' : System ι H M) : Prop where
  health : ∀ h ∈ s'.guard.health, h ∈ s.guard.health ∨
    ∃ signature, o.health = some (h, signature) ∧
      signing.recoverHealth h signature = some cfg.guardian
  liveness : ∀ p ∈ s'.gate.liveness, p ∈ s.gate.liveness ∨
    ∃ signature, o.liveness = some (p, signature) ∧
      signing.recoverLiveness p signature = some cfg.guardian
  approved : ∀ i, ∀ m ∈ (s'.markets i).approvedMarketHealth,
    m ∈ (s.markets i).approvedMarketHealth ∨
    ∃ checks, o.checks = some (i, checks) ∧ signing.marketHash checks.health = m ∧
      signing.recoverMarket (s.world i).self m checks.marketSignature = some cfg.guardian
  good : (∀ i, Good (s.world i)) → ∀ i, Good (s'.world i) ∧ (s'.world i).self = (s.world i).self

theorem Effect.refl : Effect cfg signing o s s :=
  ⟨fun _ => .inl, fun _ => .inl, fun _ _ => .inl, fun good i => ⟨good i, rfl⟩⟩

/-- Before the engines of a call move, it only submits. -/
theorem Effect.trans (h : Effect cfg signing o s s') (k : Effect cfg signing o s' s'')
    (self : ∀ i, (s'.world i).self = (s.world i).self) : Effect cfg signing o s s'' where
  health record stored := (k.health record stored).elim (h.health record) .inr
  liveness record stored := (k.liveness record stored).elim (h.liveness record) .inr
  approved i m stored := by
    rcases k.approved i m stored with old | new
    · exact h.approved i m old
    · rw [self i] at new
      exact .inr new
  good good i := by
    obtain ⟨sound, _⟩ := k.good (fun j => (h.good good j).1) i
    exact ⟨sound, (k.good (fun j => (h.good good j).1) i).2.trans (h.good good i).2⟩

theorem elapse_effect (seconds : ℕ) : Effect cfg signing o s (s.elapse seconds) := by
  refine ⟨fun _ => .inl, fun _ => .inl, fun _ _ => .inl, fun good j => ?_⟩
  have outside : (IsolatedPool.Op.elapse seconds).sender ≠ some (s.world j).self := nofun
  have done : IsolatedPool.exec (.elapse seconds) (s.world j).capital =
      .ok ((s.elapse seconds).world j).capital := rfl
  have step := (good j).lender_step outside done
  exact ⟨step.good (good j), rfl⟩

variable [DecidableEq H]

theorem circuit_effect {call : Circuit.Op H Signature}
    (health : ∀ h signature reading, call = .submitHealth h signature reading →
      o.health = some (h, signature))
    (liveness : ∀ p signature, call = .submitLiveness p signature → o.liveness = some (p, signature))
    (done : circuit cfg signing call s = .ok s') :
    Effect cfg signing o s s' ∧ s'.markets = s.markets ∧ s'.now = s.now := by
  simp only [circuit, Circuit.exec, bind_eq_ok, mapError_eq_ok, pure_eq_ok] at done
  obtain ⟨oracles, called, rfl⟩ := done
  refine ⟨⟨?_, ?_, fun _ _ => .inl, fun good i => ⟨good i, rfl⟩⟩, rfl, rfl⟩
  · intro h stored
    cases call with
    | tripGuard sender unsafePrice =>
      simp only [bind_eq_ok, pure_eq_ok, tripGuard, revertIf_eq_ok] at called
      obtain ⟨g, ⟨-, -, -, -, rfl⟩, rfl⟩ := called
      cases stored
    | submitHealth h' signature reading =>
      simp only [bind_eq_ok, pure_eq_ok] at called
      obtain ⟨g, accepted, rfl⟩ := called
      obtain ⟨signed, rfl, -⟩ := submitHealth_eq_ok accepted
      cases Option.mem_some_iff.mp stored
      exact .inr ⟨signature, health _ _ _ rfl, signed⟩
    | tripGate sender =>
      simp only [bind_eq_ok, pure_eq_ok] at called
      obtain ⟨g, -, rfl⟩ := called
      exact .inl stored
    | submitLiveness p signature =>
      simp only [bind_eq_ok, pure_eq_ok] at called
      obtain ⟨g, -, rfl⟩ := called
      exact .inl stored
  · intro p stored
    cases call with
    | tripGuard sender unsafePrice =>
      simp only [bind_eq_ok, pure_eq_ok] at called
      obtain ⟨g, -, rfl⟩ := called
      exact .inl stored
    | submitHealth h' signature reading =>
      simp only [bind_eq_ok, pure_eq_ok] at called
      obtain ⟨g, -, rfl⟩ := called
      exact .inl stored
    | tripGate sender =>
      simp only [bind_eq_ok, pure_eq_ok, tripGate, revertIf_eq_ok] at called
      obtain ⟨g, ⟨-, -, -, -, rfl⟩, rfl⟩ := called
      cases stored
    | submitLiveness p' signature =>
      simp only [bind_eq_ok, pure_eq_ok] at called
      obtain ⟨g, accepted, rfl⟩ := called
      obtain ⟨signed, rfl, -⟩ := submitLiveness_eq_ok accepted
      cases Option.mem_some_iff.mp stored
      exact .inr ⟨signature, liveness _ _ rfl, signed⟩

theorem submitLiveness_effect {proof : LivenessProof Signature}
    (carries : o.liveness = some (proof.record, proof.signature))
    (done : submitLiveness cfg signing proof s = .ok s') :
    Effect cfg signing o s s' ∧ s'.markets = s.markets ∧ s'.now = s.now :=
  circuit_effect (fun _ _ _ same => by cases same) (fun _ _ same => by cases same; exact carries) done

variable [DecidableEq ι]

omit [DecidableEq H] in
theorem approve_world (j : ι) (hash : M) : (s.approve i hash).world j = s.world j := by
  unfold System.approve System.world
  by_cases same : j = i
  · subst same
    simp
  · simp [same]

/-- The proofs of a checked call are stored, and nothing of an engine moves. -/
theorem submit_effect {checks : Checks H Signature} (carries : o.checks = some (i, checks))
    (health : o.health = some (checks.health, checks.priceSignature))
    (liveness : o.liveness = some (checks.liveness.record, checks.liveness.signature))
    (done : submit cfg signing i x checks s = .ok s') :
    Effect cfg signing o s s' ∧ (∀ j, s'.world j = s.world j) ∧ s'.now = s.now := by
  simp only [submit, bind_eq_ok, orRevert_eq_ok, revertIf_eq_ok, pure_eq_ok, not_not] at done
  obtain ⟨signer, recovered, -, rfl, s₁, live, s₂, healthy, rfl⟩ := done
  obtain ⟨first, markets₁, now₁⟩ := submitLiveness_effect (o := o) liveness live
  obtain ⟨second, markets₂, now₂⟩ := circuit_effect (o := o)
    (fun _ _ _ same => by cases same; exact health) (fun _ _ same => by cases same) healthy
  have world : ∀ j, s₂.world j = s.world j := fun j => by
    rw [System.world, markets₂, markets₁]
    rfl
  have third : Effect cfg signing o s₂ (s₂.approve i (signing.marketHash checks.health)) := by
    refine ⟨fun _ => .inl, fun _ => .inl, fun j m stored => ?_, fun good j => ?_⟩
    · unfold System.approve at stored
      by_cases same : j = i
      · subst same
        simp only [update_self, Option.mem_some_iff] at stored
        exact .inr ⟨checks, carries, stored, by rw [world, ← stored]; exact recovered⟩
      · simp only [update_of_ne same] at stored
        exact .inl stored
    · rw [approve_world]
      exact ⟨good j, rfl⟩
  refine ⟨(first.trans second fun j => by rw [System.world, markets₁]; rfl).trans third fun j => by
    rw [world], fun j => by rw [approve_world, world], now₂.trans now₁⟩

theorem submitForDebt_effect {checks : Checks H Signature} {sender : Address}
    (carries : o.checks = some (i, checks))
    (health : o.health = some (checks.health, checks.priceSignature))
    (liveness : o.liveness = some (checks.liveness.record, checks.liveness.signature))
    (done : submitForDebt cfg signing i x sender checks s = .ok s') :
    Effect cfg signing o s s' ∧ (∀ j, s'.world j = s.world j) ∧ s'.now = s.now := by
  unfold submitForDebt at done
  split at done
  · exact submit_effect carries health liveness done
  · cases done
    exact ⟨.refl, fun _ => rfl, rfl⟩

variable [DecidableEq M]

theorem onMarket_effect {call : Prices → World → Except Error World}
    (moves : ∀ p w w', Good w → w.self = (s.world i).self → w.pool = (s.world i).pool →
      call p w = .ok w' → ∃ n, IsolatedEngine.Step n w w')
    (done : onMarket cfg signing i x call s = .ok s') : Effect cfg signing o s s' := by
  simp only [onMarket, bind_eq_ok, pure_eq_ok] at done
  obtain ⟨w, called, rfl⟩ := done
  refine ⟨fun _ => .inl, fun _ => .inl, fun j m stored => ?_, fun good j => ?_⟩
  · unfold System.setWorld at stored
    by_cases same : j = i
    · subst same
      simp only [update_self] at stored
      exact .inl stored
    · simp only [update_of_ne same] at stored
      exact .inl stored
  · by_cases same : j = i
    · subst same
      obtain ⟨n, step⟩ := moves _ _ _ (good j) rfl rfl called
      have self := congrArg IsolatedPool.Config.creditEngine step.capital_cfg_eq
      simp only [System.world, System.setWorld, update_self]
      exact ⟨step.good (good j), self⟩
    · have kept : (s.setWorld i w).world j = s.world j := by
        simp only [System.world, System.setWorld, update_of_ne same]
      rw [kept]
      exact ⟨good j, rfl⟩

theorem exec_effect (done : exec cfg signing o s = .ok s') : Effect cfg signing o s s' := by
  cases o with
  | circuit call =>
    exact (circuit_effect (fun _ _ _ same => by cases same; rfl)
      (fun _ _ same => by cases same; rfl) done).1
  | elapse seconds =>
    cases done
    exact elapse_effect seconds
  | market i x call =>
    simp only [exec, bind_eq_ok, revertIf_eq_ok, exists_const] at done
    obtain ⟨outside, done⟩ := done
    cases call with
    | inherited op =>
      exact onMarket_effect (x := x) (fun p w w' good self pool called =>
        run_step good (by rw [self, pool]; exact outside) called) done
    | submitChecks checks => exact (submit_effect rfl rfl rfl done).1
    | priceWithLiveness proof =>
      simp only [execMarket, priceWithLiveness, bind_eq_ok, pure_eq_ok, Prod.exists,
        Prod.mk.injEq] at done
      obtain ⟨s₁, value, ⟨s₂, live, v, -, rfl, -⟩, rfl⟩ := done
      exact (submitLiveness_effect rfl live).1
    | liquidationQuoteWithLiveness borrower maximum proof =>
      simp only [execMarket, liquidationQuoteWithLiveness, bind_eq_ok, pure_eq_ok, Prod.exists,
        Prod.mk.injEq] at done
      obtain ⟨s₁, paid, seized, ⟨s₂, live, -, -, -, rfl, -⟩, rfl⟩ := done
      exact (submitLiveness_effect rfl live).1
    | quoteWithChecks wallet checks =>
      simp only [execMarket, quoteWithChecks, bind_eq_ok, pure_eq_ok, Prod.exists,
        Prod.mk.injEq] at done
      obtain ⟨s₁, quote, ⟨s₂, submitted, -, -, -, -, -, -, -, -, -, -, rfl, -⟩, rfl⟩ := done
      exact (submit_effect rfl rfl rfl submitted).1
    | depositAndBorrowChecked sender collateralAmount amount checks =>
      simp only [execMarket, depositAndBorrowChecked, bind_eq_ok] at done
      obtain ⟨s₁, submitted, called⟩ := done
      obtain ⟨effect, world, -⟩ := submit_effect (o := Op.market i x
        (.depositAndBorrowChecked sender collateralAmount amount checks)) rfl rfl rfl submitted
      exact effect.trans (onMarket_effect (fun p w w' good _ _ called =>
        ⟨0, (depositAndBorrow_step good called).1⟩) called) fun j => by rw [world]
    | borrowChecked sender amount checks =>
      simp only [execMarket, borrowChecked, bind_eq_ok] at done
      obtain ⟨s₁, submitted, called⟩ := done
      obtain ⟨effect, world, -⟩ := submit_effect (o := Op.market i x
        (.borrowChecked sender amount checks)) rfl rfl rfl submitted
      exact effect.trans (onMarket_effect (fun p w w' good _ _ called =>
        ⟨0, (borrow_step good called).1⟩) called) fun j => by rw [world]
    | withdrawCollateralChecked sender amount recipient checks =>
      simp only [execMarket, withdrawCollateralChecked, bind_eq_ok] at done
      obtain ⟨s₁, submitted, called⟩ := done
      obtain ⟨effect, world, -⟩ := submitForDebt_effect (o := Op.market i x
        (.withdrawCollateralChecked sender amount recipient checks)) rfl rfl rfl submitted
      exact effect.trans (onMarket_effect (fun p w w' good _ _ called =>
        ⟨0, (withdrawCollateral_step good called).1⟩) called) fun j => by rw [world]
    | liquidateChecked sender borrower amount minCollateral proof =>
      simp only [execMarket, liquidateChecked, bind_eq_ok] at done
      obtain ⟨s₁, live, called⟩ := done
      obtain ⟨effect, markets, -⟩ := submitLiveness_effect (o := Op.market i x
        (.liquidateChecked sender borrower amount minCollateral proof)) rfl live
      refine effect.trans (onMarket_effect (fun p w w' good _ _ called => ?_) called)
        fun j => by rw [System.world, markets]; rfl
      simp only [bind_eq_ok, pure_eq_ok, Prod.exists] at called
      obtain ⟨v, paid, seized, liquidated, rfl⟩ := called
      exact ⟨0, liquidate_step good liquidated⟩

/-! ### Every run -/

/-- What is stored has come with one of the calls, signed for where it is stored. -/
structure History (cfg : Circuit.Config) (signing : Signing H M Signature) (address : ι → Address)
    (ops : List (Op ι H Signature)) (s : System ι H M) : Prop where
  good : ∀ i, Good (s.world i)
  self_eq : ∀ i, (s.world i).self = address i
  approved : ∀ i, ∀ m ∈ (s.markets i).approvedMarketHealth, ∃ op ∈ ops, ∃ checks,
    op.checks = some (i, checks) ∧ signing.marketHash checks.health = m ∧
      signing.recoverMarket (address i) m checks.marketSignature = some cfg.guardian

/-- The health in force has come with one of the calls. -/
def HealthFrom (cfg : Circuit.Config) (signing : Signing H M Signature)
    (ops : List (Op ι H Signature)) (s : System ι H M) : Prop :=
  ∀ h ∈ s.guard.health, ∃ op ∈ ops, ∃ signature, op.health = some (h, signature) ∧
    signing.recoverHealth h signature = some cfg.guardian

/-- The liveness in force has come with one of the calls. -/
def LivenessFrom (cfg : Circuit.Config) (signing : Signing H M Signature)
    (ops : List (Op ι H Signature)) (s : System ι H M) : Prop :=
  ∀ p ∈ s.gate.liveness, ∃ op ∈ ops, ∃ signature, op.liveness = some (p, signature) ∧
    signing.recoverLiveness p signature = some cfg.guardian

variable {op : Op ι H Signature} {ops : List (Op ι H Signature)} {address : ι → Address}

theorem History.exec (h : History cfg signing address ops s) (done : exec cfg signing op s = .ok s') :
    History cfg signing address (ops ++ [op]) s' where
  good i := ((exec_effect done).good h.good i).1
  self_eq i := ((exec_effect done).good h.good i).2.trans (h.self_eq i)
  approved i m stored := by
    rcases (exec_effect done).approved i m stored with old | ⟨checks, carries, hash, signed⟩
    · obtain ⟨call, mem, rest⟩ := h.approved i m old
      exact ⟨call, List.mem_append_left _ mem, rest⟩
    · rw [h.self_eq] at signed
      exact ⟨op, List.mem_append_right _ (List.mem_singleton_self op), checks, carries, hash, signed⟩

theorem HealthFrom.exec (h : HealthFrom cfg signing ops s) (done : exec cfg signing op s = .ok s') :
    HealthFrom cfg signing (ops ++ [op]) s' := by
  intro record stored
  rcases (exec_effect done).health record stored with old | new
  · obtain ⟨call, mem, rest⟩ := h record old
    exact ⟨call, List.mem_append_left _ mem, rest⟩
  · exact ⟨op, List.mem_append_right _ (List.mem_singleton_self op), new⟩

theorem LivenessFrom.exec (h : LivenessFrom cfg signing ops s)
    (done : exec cfg signing op s = .ok s') : LivenessFrom cfg signing (ops ++ [op]) s' := by
  intro record stored
  rcases (exec_effect done).liveness record stored with old | new
  · obtain ⟨call, mem, rest⟩ := h record old
    exact ⟨call, List.mem_append_left _ mem, rest⟩
  · exact ⟨op, List.mem_append_right _ (List.mem_singleton_self op), new⟩

omit [DecidableEq ι] [DecidableEq H] [DecidableEq M] in
theorem History.of_deployed (deployed : Deployed s) :
    History cfg signing (fun i => (s.world i).self) ([] : List (Op ι H Signature)) s where
  good i := (deployed.markets i).1.good
  self_eq _ := rfl
  approved i m stored := by
    rw [(deployed.markets i).2.2] at stored
    cases stored

/-- A trip leaves no health in force. -/
theorem healthFrom_of_trip {sender : Address} {unsafePrice : Bool}
    (done : exec cfg signing (.circuit (.tripGuard sender unsafePrice)) s = .ok s') :
    HealthFrom cfg signing [] s' := by
  simp only [exec, circuit, Circuit.exec, tripGuard, bind_eq_ok, mapError_eq_ok,
    revertIf_eq_ok, pure_eq_ok] at done
  obtain ⟨oracles, ⟨g, ⟨-, -, -, -, rfl⟩, rfl⟩, rfl⟩ := done
  exact fun _ stored => absurd stored (Option.not_mem_none _)

theorem livenessFrom_of_trip {sender : Address}
    (done : exec cfg signing (.circuit (.tripGate sender)) s = .ok s') :
    LivenessFrom cfg signing [] s' := by
  simp only [exec, circuit, Circuit.exec, tripGate, bind_eq_ok, mapError_eq_ok,
    revertIf_eq_ok, pure_eq_ok] at done
  obtain ⟨oracles, ⟨g, ⟨-, -, -, -, rfl⟩, rfl⟩, rfl⟩ := done
  exact fun _ stored => absurd stored (Option.not_mem_none _)

/-! ### Admission -/

/-- What a price for borrowing finds in force at the engine `i`. -/
structure InForce (cfg : Circuit.Config) (signing : Signing H M Signature) (i : ι) (x : Reading)
    (s : System ι H M) (h : Health H) (data : Data) (p : Liveness) : Prop where
  health : s.guard.health = some h
  current : currentData cfg s.now x.stock = .ok data
  approves : Approves signing.toSigning s.guard.epoch s.guard.recoveryAt h data s.now
  market : (s.markets i).approvedMarketHealth = some (signing.marketHash h)
  liveness : s.gate.liveness = some p
  epoch : p.epoch = s.gate.epoch
  unexpired : s.now < p.validUntil

omit [DecidableEq ι] in
theorem inForce_of_price {value : ℕ} (priced : (s.prices cfg signing i x).borrowingPrice = .ok value) :
    ∃ h data p, InForce cfg signing i x s h data p := by
  simp only [System.prices, stockPrice, bind_eq_ok, mapError_eq_ok, Prod.exists] at priced
  obtain ⟨-, -, u, live, stockUsd, updatedAt, valid, v, approval, -⟩ := priced
  simp only [validatedPrice, bind_eq_ok, if_true, revertIf_eq_ok] at valid
  obtain ⟨data, current, -, -, checked, stored, -⟩ := valid
  unfold checkStored at stored
  cases health : s.guard.health with
  | none => simp [health] at stored
  | some h =>
    simp only [health] at stored
    simp only [checkApproval, if_true, revertIf_eq_ok, health, Option.mem_some_iff, forall_eq',
      not_not] at approval
    cases liveness : s.gate.liveness with
    | none => simp [requireLive, liveness] at live
    | some p =>
      simp only [requireLive, liveness, revertIf_eq_ok, not_or, not_not, not_le] at live
      exact ⟨h, data, p, health, current, approves_of_checkHealth stored, approval, liveness, live.1,
        live.2⟩

/-- The call has asked for a price before its engine moved. -/
theorem inForce_of_onMarket {call : Prices → World → Except Error World}
    (asks : ∀ w', call (s.prices cfg signing i x) (s.world i) = .ok w' →
      ∃ value, (s.prices cfg signing i x).borrowingPrice = .ok value)
    (done : onMarket cfg signing i x call s = .ok s') :
    ∃ h data p, InForce cfg signing i x s' h data p := by
  simp only [onMarket, bind_eq_ok, pure_eq_ok] at done
  obtain ⟨w, called, rfl⟩ := done
  obtain ⟨value, priced⟩ := asks w called
  obtain ⟨h, data, p, inForce⟩ := inForce_of_price priced
  exact ⟨h, data, p,
    { inForce with market := by simpa [System.setWorld] using inForce.market }⟩

theorem inForce_of_admits {call : MarketCall H Signature} (good : ∀ i, Good (s.world i))
    (admits : call.admits (s.world i) = true) (done : execMarket cfg signing i x s call = .ok s') :
    ∃ h data p, InForce cfg signing i x s' h data p := by
  cases call with
  | inherited op =>
    have done : onMarket cfg signing i x (fun p => run p op) s = .ok s' := done
    refine inForce_of_onMarket (fun w' called => ?_) done
    cases op with
    | borrow sender amount => exact (borrow_step (good i) called).2
    | depositAndBorrow sender collateralAmount amount =>
      exact (depositAndBorrow_step (good i) called).2
    | withdrawCollateral sender amount recipient =>
      exact (withdrawCollateral_step (good i) called).2 (of_decide_eq_true admits)
    | capital op =>
      cases op with
      | lender safety call =>
        obtain ⟨moves, lent⟩ := Bool.and_eq_true_iff.mp admits
        simp only [run, IsolatedEngine.onPool, base_eq_ok, bind_eq_ok, mapError_eq_ok,
          pure_eq_ok] at called
        obtain ⟨capital, moved, -⟩ := called
        have allowed := allowed_of_lender moves (of_decide_eq_true lent) moved
        exact priced_of_allowed (good i) (of_decide_eq_true lent) (Option.some.inj allowed)
      | _ => cases admits
    | _ => cases admits
  | depositAndBorrowChecked sender collateralAmount amount checks =>
    simp only [execMarket, depositAndBorrowChecked, bind_eq_ok] at done
    obtain ⟨s₁, submitted, called⟩ := done
    obtain ⟨-, world, -⟩ := submit_effect (o := Op.market i x
      (.depositAndBorrowChecked sender collateralAmount amount checks)) rfl rfl rfl submitted
    exact inForce_of_onMarket
      (fun w' called => (depositAndBorrow_step (world i ▸ good i) called).2) called
  | borrowChecked sender amount checks =>
    simp only [execMarket, borrowChecked, bind_eq_ok] at done
    obtain ⟨s₁, submitted, called⟩ := done
    obtain ⟨-, world, -⟩ := submit_effect (o := Op.market i x (.borrowChecked sender amount checks))
      rfl rfl rfl submitted
    exact inForce_of_onMarket (fun w' called => (borrow_step (world i ▸ good i) called).2) called
  | withdrawCollateralChecked sender amount recipient checks =>
    simp only [execMarket, withdrawCollateralChecked, bind_eq_ok] at done
    obtain ⟨s₁, submitted, called⟩ := done
    obtain ⟨-, world, -⟩ := submitForDebt_effect (o := Op.market i x
      (.withdrawCollateralChecked sender amount recipient checks)) rfl rfl rfl submitted
    exact inForce_of_onMarket (fun w' called => (withdrawCollateral_step (world i ▸ good i) called).2
      (by rw [world]; exact of_decide_eq_true admits)) called
  | _ => cases admits

/-- Nothing is admitted but under what the guardian has signed for that engine since the last trip. -/
theorem stock_admission (cfg : Circuit.Config) (signing : Signing H M Signature)
    (start : System ι H M) (deployed : Deployed start) (ops : List (Op ι H Signature))
    (s : System ι H M) (run : Run (accepts (exec cfg signing)) start ops s) (i : ι) (x : Reading)
    (call : MarketCall H Signature) (admits : call.admits (s.world i) = true) (s' : System ι H M)
    (done : exec cfg signing (.market i x call) s = .ok s') :
    (∃ h data p, InForce cfg signing i x s' h data p ∧
      ∃ op ∈ ops ++ [.market i x call], ∃ checks, op.checks = some (i, checks) ∧
        signing.marketHash checks.health = signing.marketHash h ∧
        signing.recoverMarket (s.world i).self (signing.marketHash h) checks.marketSignature =
          some cfg.guardian) ∧
    (∀ before sender unsafePrice after,
      ops = before ++ .circuit (.tripGuard sender unsafePrice) :: after →
      HealthFrom cfg signing (after ++ [.market i x call]) s') ∧
    (∀ before sender after, ops = before ++ .circuit (.tripGate sender) :: after →
      LivenessFrom cfg signing (after ++ [.market i x call]) s') := by
  have history : History cfg signing (fun i => (start.world i).self) ops s :=
    run.history (fun ops s => History cfg signing (fun i => (start.world i).self) ops s)
      (fun _ _ _ _ => History.exec) (.of_deployed deployed)
  refine ⟨?_, ?_, ?_⟩
  · have after := history.exec done
    simp only [exec, bind_eq_ok] at done
    obtain ⟨-, -, done⟩ := done
    obtain ⟨h, data, p, inForce⟩ := inForce_of_admits history.good admits done
    obtain ⟨op, mem, checks, carries, hash, signed⟩ := after.approved i _ inForce.market
    exact ⟨h, data, p, inForce, op, mem, checks, carries, hash, history.self_eq i ▸ signed⟩
  · rintro before sender unsafePrice after rfl
    obtain ⟨a, b, -, tripped, rest⟩ := run.split
    exact (rest.history (HealthFrom cfg signing) (fun _ _ _ _ => HealthFrom.exec)
      (healthFrom_of_trip tripped)).exec done
  · rintro before sender after rfl
    obtain ⟨a, b, -, tripped, rest⟩ := run.split
    exact (rest.history (LivenessFrom cfg signing) (fun _ _ _ _ => LivenessFrom.exec)
      (livenessFrom_of_trip tripped)).exec done

end System

/-! ### Two engines, and a first loan at one of them -/

/-- A record is its own hash, and a signature is the account that signs with the contract it is for. -/
def sampleSigning : Signing (ℕ × ℕ × ℕ) (Health (ℕ × ℕ × ℕ)) (Address × Address) where
  roundHash := fun round value updated => (round, value, updated)
  recoverHealth := fun _ signature => some signature.1
  recoverLiveness := fun _ signature => some signature.1
  marketHash := id
  recoverMarket := fun engine _ signature => if signature.2 = engine then some signature.1 else none

def sampleAge : ℕ := 3600
def sampleDecimals : ℕ := 8

def samplePricing : UsdgPricing where
  primaryMaxAge := sampleAge
  secondaryMaxAge := sampleAge
  maxDeviationBps := 100
  maxTimestampSkew := 600
  primaryDecimals := sampleDecimals
  secondaryDecimals := sampleDecimals
  primaryMaxAge_pos := by decide
  primaryMaxAge_le := by decide
  secondaryMaxAge_pos := by decide
  secondaryMaxAge_le := by decide
  skew_pos := by decide
  skew_le := by decide
  deviation_pos := Nat.succ_pos _
  deviation_le := by decide
  primaryDecimals_le := by decide
  secondaryDecimals_le := by decide

/-- The engines 100 and 200, each with a pool of its own. -/
def sampleStart : System Bool (ℕ × ℕ × ℕ) (Health (ℕ × ℕ × ℕ)) where
  now := 1000
  guard := deployGuard 1000
  gate := deployGate 1000
  markets
    | true => ⟨samplePricing, IsolatedEngine.sampleStart, none⟩
    | false =>
      ⟨samplePricing, { IsolatedEngine.sampleStart with
        capital := { IsolatedEngine.sampleStart.capital with
          cfg := { IsolatedEngine.sampleStart.capital.cfg with
            creditEngine := 200, engine_ne_self := by decide } } }, none⟩

/-- The token and USDG at 1 USD each, at the time 1200. -/
def sampleReading : Reading where
  dependencies := true
  stock := ⟨some 8, some false, some ⟨7, 10 ^ 8, 1200, 7⟩, some 0⟩
  usdgPrimary := ⟨some 8, some ⟨1, 10 ^ 8, 1200, 1⟩⟩
  usdgSecondary := ⟨some 8, some ⟨1, 10 ^ 8, 1200, 1⟩⟩

/-- What the guardian 9 has signed, for the engine 100. -/
def sampleChecks : Checks (ℕ × ℕ × ℕ) (Address × Address) where
  health := ⟨7, 1195, 1250, 900, 9000, (7, 10 ^ 18, 1200), 0⟩
  priceSignature := (9, 50)
  marketSignature := (9, 100)
  liveness := ⟨⟨1195, 1010, 1240, 0⟩, (9, 51)⟩

def sampleOps : List (Op Bool (ℕ × ℕ × ℕ) (Address × Address)) :=
  let here := fun op => Op.market true sampleReading (.inherited op)
  [.elapse 200, .circuit (.submitLiveness ⟨1190, 1010, 1230, 0⟩ (9, 51)),
    here (.bindPool 1), here (.setRiskPaused 1 false),
    here (.capital (.usdg (.mint 2 (10 ^ 9)))), here (.capital (.usdg (.approve 2 101 (10 ^ 9)))),
    here (.capital (.lender none (.deposit 2 2 (10 ^ 9)))),
    here (.collateral (.mint 3 (10 ^ 21))), here (.collateral (.approve 3 100 (10 ^ 21)))]

/-- The loan of half the collateral's worth. -/
def sampleCall : MarketCall (ℕ × ℕ × ℕ) (Address × Address) :=
  .depositAndBorrowChecked 3 (10 ^ 21) (5 * 10 ^ 8) sampleChecks

def sampleBefore : System Bool (ℕ × ℕ × ℕ) (Health (ℕ × ℕ × ℕ)) :=
  reached sampleStart (execAll (exec Circuit.sampleConfig sampleSigning) sampleOps sampleStart)

def sampleAfter : System Bool (ℕ × ℕ × ℕ) (Health (ℕ × ℕ × ℕ)) :=
  reached sampleBefore (exec Circuit.sampleConfig sampleSigning (.market true sampleReading sampleCall)
    sampleBefore)

/-- The same checks do for the engine they are signed for, and for no other. -/
theorem sample_stock_admission :
    positionDebt 3 (sampleAfter.world true) = 5 * 10 ^ 8 ∧
    (exec Circuit.sampleConfig sampleSigning (.market false sampleReading sampleCall)
      sampleBefore).isOk = false ∧
    ∃ h data p, InForce Circuit.sampleConfig sampleSigning true sampleReading sampleAfter h data p := by
  have run : Run (accepts (exec Circuit.sampleConfig sampleSigning)) sampleStart sampleOps
      sampleBefore := run_of_execAll (eq_ok_reached _ (by decide +kernel))
  have deployed : Deployed sampleStart := by
    refine ⟨⟨1000, le_rfl, rfl⟩, ⟨1000, le_rfl, rfl⟩, fun i => ?_⟩
    cases i with
    | true => exact ⟨⟨⟨rfl, fun _ => rfl⟩, ⟨1, rfl⟩, fun _ => rfl, fun _ => rfl⟩, rfl, rfl⟩
    | false => exact ⟨⟨⟨rfl, fun _ => rfl⟩, ⟨1, rfl⟩, fun _ => rfl, fun _ => rfl⟩, rfl, rfl⟩
  obtain ⟨⟨h, data, p, inForce, -⟩, -⟩ := stock_admission Circuit.sampleConfig sampleSigning
    sampleStart deployed sampleOps sampleBefore run true sampleReading sampleCall rfl sampleAfter
    (eq_ok_reached _ (by decide +kernel))
  exact ⟨by decide +kernel, by decide +kernel, h, data, p, inForce⟩

end Turret.StockCredit
