import Turret.Variable.RateSync
import Turret.Variable.Reconciliation

/-! A call of the engine, with all that foreign code starts inside it, as a list
of acts: one call of the pool or of USDG, a change of the engine's own books, the
guard, a governing call of the owner, an entry of the record. What every act
keeps, every call keeps, at any depth. -/

namespace Turret.VariablePool

open Execution

/-- Every call but those on the debt limit leaves it, its schedule and retirement alone. -/
theorem exec_limits {c c' : World} {op : Op} (hop : op.isLimitCall = false)
    (done : exec op c = .ok c') : limits c' = limits c := by
  cases op with
  | lender safety call => exact (movement_switches (LenderVault.call_movement done)).1
  | accrueInterest => rw [accrueInterest_ok done]; rfl
  | claimRevenue =>
    obtain ⟨usdg, rfl, -⟩ := claimRevenue_ok done
    rfl
  | draw safety sender recipient amount =>
    obtain ⟨usdg, rfl, -⟩ := draw_ok done
    rfl
  | repay sender principal received =>
    obtain ⟨usdg, rfl, -⟩ := repay_ok done
    rfl
  | recognizeLoss sender principal interest =>
    obtain ⟨rfl, -⟩ := recognizeLoss_ok done
    rfl
  | beginLiquidationSettlement sender =>
    obtain ⟨-, -, rfl⟩ := beginLiquidationSettlement_eq_ok.mp done
    rfl
  | endLiquidationSettlement sender =>
    obtain ⟨-, -, rfl⟩ := endLiquidationSettlement_eq_ok.mp done
    rfl
  | usdg call =>
    simp only [exec, bind_eq_ok, revertIf_eq_ok, exists_const, orRevert_eq_ok, pure_eq_ok] at done
    obtain ⟨-, usdg, -, rfl⟩ := done
    rfl
  | elapse seconds =>
    rw [exec, pure_eq_ok] at done
    exact done ▸ rfl
  | _ => cases hop

end Turret.VariablePool

namespace Turret.VariableEngine

open Execution Rounding Function
open VariablePool (Sound limits)

/-- The owner's calls that reach the debt limit, and the change of owner. -/
def Op.isGoverning : Op → Bool
  | .scheduleDebtLimit .. | .executeDebtLimit .. | .cancelDebtLimit .. | .lowerDebtLimit ..
  | .transferOwnership .. | .retireMarket .. => true
  | _ => false

/-- Within one epoch of the signer the published price only gets later, and what was published for a
moment stands. -/
structure PriceKept (e e' : Engine) : Prop where
  epoch_le : e.signerEpoch ≤ e'.signerEpoch
  later : e'.signerEpoch = e.signerEpoch →
    e.liquidationPrice.observedAt ≤ e'.liquidationPrice.observedAt
  fixed : e'.signerEpoch = e.signerEpoch →
    e'.liquidationPrice.observedAt = e.liquidationPrice.observedAt → e.liquidationPrice.value ≠ 0 →
      e'.liquidationPrice.value = e.liquidationPrice.value ∧
        e'.liquidationPrice.deadline = e.liquidationPrice.deadline

theorem PriceKept.refl (e : Engine) : PriceKept e e :=
  ⟨le_rfl, fun _ => le_rfl, fun _ _ _ => ⟨rfl, rfl⟩⟩

theorem PriceKept.trans {a b c : Engine} (h : PriceKept a b) (k : PriceKept b c) :
    PriceKept a c where
  epoch_le := h.epoch_le.trans k.epoch_le
  later same := by
    have first := h.epoch_le
    have second := k.epoch_le
    exact (h.later (by omega)).trans (k.later (by omega))
  fixed same moment priced := by
    have first := h.epoch_le
    have second := k.epoch_le
    have before := h.later (by omega)
    have after := k.later (by omega)
    obtain ⟨value, deadline⟩ := h.fixed (by omega) (by omega) priced
    obtain ⟨value', deadline'⟩ := k.fixed (by omega) (by omega) (value ▸ priced)
    exact ⟨value'.trans value, deadline'.trans deadline⟩

/-- The engine's own books move: nothing of the pool or the record, no owner, and nonces and prices
only forward. -/
structure Aside (w w' : World) : Prop where
  cfg_eq : w'.cfg = w.cfg
  capital_eq : w'.capital = w.capital
  history_eq : w'.history = w.history
  entered_eq : w'.engine.entered = w.engine.entered
  owner_eq : w'.engine.owner = w.engine.owner
  bound_le : w.engine.bound = true → w'.engine.bound = true
  nonces_le : w.engine.approvalNonces ≤ w'.engine.approvalNonces
  prices : PriceKept w.engine w'.engine

/-- One act; `g` says whether USDG may be sent to the pool outright. -/
inductive Act (g : Prop) (w : World) : World → Prop
  | pool (op : VariablePool.Op) (capital : VariablePool.World) (still : op.isElapse = false)
      (open_ : op.isLimitCall = false) (paid : op.isDonation w.pool → g)
      (done : VariablePool.exec op w.capital = .ok capital) : Act g w { w with capital }
  | aside (w' : World) (moved : Aside w w') : Act g w w'
  | guard (entered : Bool) : Act g w (w.setEntered entered)
  | govern (op : Op) (governs : op.isGoverning = true) (v : World)
      (done : run .ok .ok op w = .ok v) : Act g w (v.record op)
  | note (op : Op) (plain : op.isGoverning = false) : Act g w (w.record op)

abbrev Acts (g : Prop) : World → World → Prop := Relation.ReflTransGen (Act g)

/-- What the pool's own address and its books are while a call is under way. -/
structure Under (p : Address) (w : World) : Prop where
  sound : Sound w.capital
  entered : w.engine.entered = true
  pool_eq : w.pool = p

structure Went (g : Prop) (p : Address) (w w' : World) : Prop where
  acts : Acts g w w'
  under : Under p w'

/-- Code that, while the guard is taken, does nothing but acts. -/
def Goes (g : Prop) (p : Address) (f : World → Except Error World) : Prop :=
  ∀ w w', Under p w → f w = .ok w' → Went g p w w'

variable {g : Prop} {p b sender : Address} {hook callback : World → Except Error World}
  {u v w w' : World}

namespace Went

theorem refl (h : Under p w) : Went g p w w := ⟨.refl, h⟩

theorem trans (h : Went g p u v) (k : Went g p v w) : Went g p u w :=
  ⟨h.acts.trans k.acts, k.under⟩

theorem aside (h : Under p w) (moved : Aside w w') : Went g p w w' where
  acts := .single (.aside w' moved)
  under :=
    { sound := moved.capital_eq ▸ h.sound
      entered := moved.entered_eq.trans h.entered
      pool_eq := (congrArg (·.cfg.self) moved.capital_eq).trans h.pool_eq }

/-- A change of the books, and what comes after it. -/
theorem after (h : Under p w) (next : Under p v → Went g p v w') (moved : Aside w v) :
    Went g p w w' :=
  (aside h moved).trans (next (aside (g := g) h moved).under)

theorem pool (h : Under p w) (op : VariablePool.Op) {capital : VariablePool.World}
    (still : op.isElapse = false) (open_ : op.isLimitCall = false)
    (paid : op.isDonation p → g) (done : VariablePool.exec op w.capital = .ok capital) :
    Went g p w { w with capital } := by
  obtain ⟨sound, cfg_eq⟩ := VariablePool.exec_sound h.sound done
  exact ⟨.single (.pool op capital still open_ (h.pool_eq ▸ paid) done), sound, h.entered,
    (congrArg VariablePool.Config.self cfg_eq).trans h.pool_eq⟩

end Went

/-! ### The engine's functions -/

/-- What a call of the engine's own books leaves alone. -/
theorem aside_of_eq (cfg_eq : w'.cfg = w.cfg) (capital_eq : w'.capital = w.capital)
    (history_eq : w'.history = w.history)
    (kept : (w'.engine.entered, w'.engine.owner, w'.engine.bound, w'.engine.approvalNonces,
        w'.engine.signerEpoch, w'.engine.liquidationPrice) =
      (w.engine.entered, w.engine.owner, w.engine.bound, w.engine.approvalNonces,
        w.engine.signerEpoch, w.engine.liquidationPrice)) : Aside w w' := by
  simp only [Prod.mk.injEq] at kept
  obtain ⟨entered, owner, bound, nonces, epoch, price⟩ := kept
  exact ⟨cfg_eq, capital_eq, history_eq, entered, owner, bound.trans, nonces.ge, epoch.ge,
    fun _ => price ▸ le_rfl, fun _ _ _ => price ▸ ⟨rfl, rfl⟩⟩

theorem settle_goes (b : Address) : Goes g p (settle b) := by
  intro w w' h done
  simp only [settle, bind_eq_ok, onPool_eq_ok, pure_eq_ok] at done
  obtain ⟨v, ⟨capital, accrued, rfl⟩, rfl⟩ := done
  have first : Went g p w { w with capital } := .pool h .accrueInterest rfl rfl False.elim accrued
  exact first.trans (.aside first.under (aside_of_eq rfl rfl rfl rfl))

theorem pullCollateral_goes (goes : Goes g p hook) (src : Address) (amount : ℕ) :
    Goes g p (pullCollateral hook src amount) := by
  intro w w' h done
  simp only [pullCollateral, bind_eq_ok, orRevert_eq_ok, revertIf_eq_ok, exists_const,
    pure_eq_ok] at done
  obtain ⟨collateral, -, v, ran, -, rfl⟩ := done
  have first : Went g p w { w with collateral } := .aside h (aside_of_eq rfl rfl rfl rfl)
  exact first.trans (goes _ _ first.under ran)

theorem sendCollateral_goes (goes : Goes g p hook) (dst : Address) (amount : ℕ) :
    Goes g p (sendCollateral hook dst amount) := by
  intro w w' h done
  simp only [sendCollateral, bind_eq_ok, orRevert_eq_ok, revertIf_eq_ok, exists_const,
    pure_eq_ok] at done
  obtain ⟨-, collateral, -, v, ran, -, rfl⟩ := done
  have first : Went g p w { w with collateral } := .aside h (aside_of_eq rfl rfl rfl rfl)
  exact first.trans (goes _ _ first.under ran)

/-- The engine's own calls of USDG, none of which pays the pool. -/
theorem usdg_goes (h : Under p w) (call : TokenCall Address) {usdg : TokenLedger Address}
    (own : call.sender = some w.self) (away : call.receiver ≠ some p)
    (done : call.exec w.usdg = some usdg) : Went g p w (withUsdg usdg w) := by
  have apart : call.sender ≠ some w.capital.cfg.self := fun same =>
    w.capital.cfg.engine_ne_self (Option.some.inj (own.symm.trans same))
  refine .pool h (.usdg call) rfl rfl (fun donated => absurd donated away) ?_
  simp only [VariablePool.exec, bind_eq_ok, revertIf_eq_ok, exists_const, orRevert_eq_ok, pure_eq_ok]
  exact ⟨apart, usdg, done, rfl⟩

theorem Under.self_ne (h : Under p w) : some w.self ≠ some p := fun same =>
  w.capital.cfg.engine_ne_self ((Option.some.inj same).trans h.pool_eq.symm)

theorem pullUsdg_goes (src : Address) (amount : ℕ) : Goes g p (pullUsdg src amount) := by
  intro w w' h done
  simp only [pullUsdg, bind_eq_ok, orRevert_eq_ok, revertIf_eq_ok, exists_const, pure_eq_ok] at done
  obtain ⟨usdg, pulled, -, rfl⟩ := done
  exact usdg_goes h (.transferFrom w.self src w.self amount) rfl h.self_ne pulled

theorem safeApprove_goes (amount : ℕ) : Goes g p (safeApprove amount) := by
  intro w w' h done
  simp only [safeApprove, bind_eq_ok, revertIf_eq_ok, exists_const, pure_eq_ok] at done
  obtain ⟨-, rfl⟩ := done
  exact usdg_goes h (.approve w.self w.pool amount) rfl (Option.some_ne_none p).symm rfl

theorem repayPosition_goes (sender b : Address) (amount : ℕ) :
    Goes g p (repayPosition sender b amount) := by
  intro w w' h done
  simp only [repayPosition, bind_eq_ok, onPool_eq_ok, checkedSub_eq_ok, pure_eq_ok] at done
  obtain ⟨u, pulled, v, approved, x, ⟨capital, repaid, rfl⟩, left, -, rfl⟩ := done
  have first := pullUsdg_goes (g := g) sender amount w u h pulled
  have second := safeApprove_goes (g := g) amount u v first.under approved
  have third : Went g p v { v with capital } :=
    .pool second.under (.repay v.self _ _) rfl rfl False.elim repaid
  exact ((first.trans second).trans third).trans (.aside third.under (aside_of_eq rfl rfl rfl rfl))

theorem clearRoundingInterest_goes : Goes g p clearRoundingInterest := by
  intro w w' h done
  unfold clearRoundingInterest at done
  split_ifs at done
  · simp only [bind_eq_ok, onPool_eq_ok, pure_eq_ok] at done
    obtain ⟨v, ⟨capital, lost, rfl⟩, rfl⟩ := done
    have first : Went g p w { w with capital } :=
      .pool h (.recognizeLoss w.self _ _) rfl rfl False.elim lost
    exact first.trans (.aside first.under (aside_of_eq rfl rfl rfl rfl))
  · exact pure_eq_ok _ _ |>.mp done ▸ .refl h

theorem finish_goes (b : Address) : Goes g p (finish b) := by
  intro w w' h done
  simp only [finish] at done
  split_ifs at done
  · simp only [bind_eq_ok, checkedSub_eq_ok, orRevert_eq_ok] at done
    obtain ⟨count, -, active, -, cleared⟩ := done
    exact .after h (fun under => clearRoundingInterest_goes _ _ under cleared)
      (aside_of_eq rfl rfl rfl rfl)
  · exact pure_eq_ok _ _ |>.mp done ▸ .refl h

theorem repayUpTo_goes {n : ℕ} {maxAmount : ℕ} (h : Under p w)
    (done : repayUpTo sender b maxAmount w = .ok (w', n)) : Went g p w w' := by
  simp only [repayUpTo, requirePool, bind_eq_ok, revertIf_eq_ok, exists_const, pure_eq_ok,
    Prod.mk.injEq] at done
  obtain ⟨-, s, settled, -, -, u, repaid, v, finished, rfl, -⟩ := done
  have first := settle_goes (g := g) b w s h settled
  have second := repayPosition_goes (g := g) sender b _ s u first.under repaid
  exact (first.trans second).trans (finish_goes b u v second.under finished)

theorem depositCollateralFrom_goes (goes : Goes g p hook) (payer b : Address) (amount : ℕ) :
    Goes g p (depositCollateralFrom hook payer b amount) := by
  intro w w' h done
  simp only [depositCollateralFrom, requirePool, bind_eq_ok, revertIf_eq_ok, exists_const, pure_eq_ok] at done
  obtain ⟨-, -, -, -, v, pulled, rfl⟩ := done
  have first := pullCollateral_goes goes payer amount w v h pulled
  exact first.trans (.aside first.under (aside_of_eq rfl rfl rfl rfl))

theorem enter_aside (b : Address) (w : World) : Aside w (enter b w) := by
  unfold enter
  split_ifs
  · exact aside_of_eq rfl rfl rfl rfl
  · exact aside_of_eq rfl rfl rfl rfl

theorem borrowFor_goes (b : Address) (amount : ℕ) : Goes g p (borrowFor b amount) := by
  intro w w' h done
  simp only [borrowFor, requirePool, bind_eq_ok, revertIf_eq_ok, exists_const, onPool_eq_ok, pure_eq_ok] at done
  obtain ⟨-, -, -, s, settled, -, value, -, -, x, ⟨capital, drawn, rfl⟩, rfl⟩ := done
  have first := settle_goes (g := g) b w s h settled
  have second : Went g p s (enter b s) := .aside first.under (enter_aside b s)
  have third : Went g p (enter b s) ((enter b s).setPosition b
      { (enter b s).position b with
        principal := ((enter b s).position b).principal + amount }) :=
    .aside second.under (aside_of_eq rfl rfl rfl rfl)
  have fourth := Went.pool (g := g) third.under (.draw _ _ b amount) rfl rfl False.elim drawn
  exact (((first.trans second).trans third).trans fourth).trans
    (.aside fourth.under (aside_of_eq rfl rfl rfl rfl))

theorem withdrawCollateralFor_goes (goes : Goes g p hook) (b : Address) (amount : ℕ)
    (recipient : Address) : Goes g p (withdrawCollateralFor hook b amount recipient) := by
  intro w w' h done
  simp only [withdrawCollateralFor, requirePool, bind_eq_ok, revertIf_eq_ok, exists_const, pure_eq_ok] at done
  obtain ⟨-, -, s, settled, -, -, -, v, sent, rfl⟩ := done
  have first := settle_goes (g := g) b w s h settled
  have second : Went g p s (s.setPosition b
      { s.position b with collateral := (s.position b).collateral - amount }) :=
    .aside first.under (aside_of_eq rfl rfl rfl rfl)
  have third := sendCollateral_goes goes recipient amount _ v second.under sent
  exact ((first.trans second).trans third).trans
    (.aside third.under (aside_of_eq rfl rfl rfl rfl))

theorem withdrawRest_goes (goes : Goes g p hook) (sender recipient : Address) :
    Goes g p (withdrawRest hook sender recipient) := by
  intro w w' h done
  simp only [withdrawRest] at done
  split_ifs at done
  · exact withdrawCollateralFor_goes goes sender _ recipient w w' h done
  · exact pure_eq_ok _ _ |>.mp done ▸ .refl h

theorem close_goes (goes : Goes g p hook) {maxRepay n : ℕ} {recipient : Address}
    (h : Under p w) (done : close hook sender maxRepay recipient w = .ok (w', n)) :
    Went g p w w' := by
  simp only [close, bind_eq_ok, revertIf_eq_ok, exists_const, pure_eq_ok, Prod.exists,
    Prod.mk.injEq] at done
  obtain ⟨u, m, repaid, -, v, left, rfl, -⟩ := done
  have first := repayUpTo_goes (g := g) h repaid
  exact first.trans (withdrawRest_goes goes sender recipient u v first.under left)

theorem recognizeShortfall_goes (b : Address) : Goes g p (recognizeShortfall b) := by
  intro w w' h done
  simp only [recognizeShortfall] at done
  split_ifs at done
  · simp only [bind_eq_ok, onPool_eq_ok, pure_eq_ok] at done
    obtain ⟨v, ⟨capital, lost, rfl⟩, rfl⟩ := done
    have first : Went g p w { w with capital } :=
      .pool h (.recognizeLoss w.self _ _) rfl rfl False.elim lost
    exact first.trans (.aside first.under (aside_of_eq rfl rfl rfl rfl))
  · exact pure_eq_ok _ _ |>.mp done ▸ .refl h

theorem releaseCollateral_goes {maxRepay minCollateral n m : ℕ} (h : Under p w)
    (done : releaseCollateral b maxRepay minCollateral w = .ok (w', n, m)) : Went g p w w' := by
  simp only [releaseCollateral, requirePool, bind_eq_ok, revertIf_eq_ok, exists_const, onPool_eq_ok,
    checkedSub_eq_ok, pure_eq_ok, Prod.exists, Prod.mk.injEq] at done
  obtain ⟨-, s, settled, value, -, n, m, -, -, v, ⟨capital, frozen, rfl⟩, left, -, rfl, -⟩ := done
  have first := settle_goes (g := g) b w s h settled
  have second : Went g p s { s with capital } :=
    .pool first.under (.beginLiquidationSettlement s.self) rfl rfl False.elim frozen
  exact (first.trans second).trans (.aside second.under (aside_of_eq rfl rfl rfl rfl))

theorem settleLiquidation_goes (sender b : Address) (paid : ℕ) :
    Goes g p (settleLiquidation sender b paid) := by
  intro w w' h done
  simp only [settleLiquidation, bind_eq_ok] at done
  obtain ⟨u, repaid, v, lost, finished⟩ := done
  have first := repayPosition_goes (g := g) sender b paid w u h repaid
  have second := recognizeShortfall_goes (g := g) b u v first.under lost
  exact (first.trans second).trans (finish_goes b v w' second.under finished)

theorem endLiquidation_goes (sender b : Address) (paid seized : ℕ) :
    Goes g p (endLiquidation sender b paid seized) := by
  intro w w' h done
  simp only [endLiquidation, bind_eq_ok, onPool_eq_ok, pure_eq_ok] at done
  obtain ⟨v, ⟨capital, thawed, rfl⟩, rfl⟩ := done
  have first : Went g p w { w with capital } :=
    .pool h (.endLiquidationSettlement w.self) rfl rfl False.elim thawed
  exact first.trans (.aside first.under (aside_of_eq rfl rfl rfl rfl))

theorem liquidate_goes (goes : Goes g p hook) (sender b : Address)
    (maxRepay minCollateral : ℕ) : Goes g p (liquidate hook sender b maxRepay minCollateral) := by
  intro w w' h done
  simp only [liquidate, bind_eq_ok, Prod.exists] at done
  obtain ⟨r, paid, seized, released, u, settled, v, sent, ended⟩ := done
  have first := releaseCollateral_goes (g := g) h released
  have second := settleLiquidation_goes (g := g) sender b paid r u first.under settled
  have third := sendCollateral_goes goes sender seized u v second.under sent
  exact ((first.trans second).trans third).trans
    (endLiquidation_goes sender b paid seized v w' third.under ended)

theorem liquidateWithCallback_goes (goes : Goes g p hook) (goes' : Goes g p callback)
    (sender b : Address) (maxRepay minCollateral : ℕ) :
    Goes g p (liquidateWithCallback hook callback sender b maxRepay minCollateral) := by
  intro w w' h done
  simp only [liquidateWithCallback, bind_eq_ok, revertIf_eq_ok, exists_const, Prod.exists] at done
  obtain ⟨-, r, paid, seized, released, s, sent, c, called, u, settled, ended⟩ := done
  have first := releaseCollateral_goes (g := g) h released
  have second := first.trans (sendCollateral_goes goes sender seized r s first.under sent)
  have third := second.trans (goes' s c second.under called)
  have fourth := third.trans (settleLiquidation_goes sender b paid c u third.under settled)
  exact fourth.trans (endLiquidation_goes sender b paid seized u w' fourth.under ended)

/-! ### Intents, approvals and prices -/

theorem intentAction_goes (goes : Goes g p hook) (instruction : BorrowIntent) :
    Goes g p (intentAction hook instruction) := by
  intro w w' h done
  unfold intentAction at done
  split_ifs at done
  · simp only [bind_eq_ok] at done
    obtain ⟨v, deposited, borrowed⟩ := done
    have first := depositCollateralFrom_goes goes _ _ _ w v h deposited
    exact first.trans (borrowFor_goes _ _ v w' first.under borrowed)
  · exact borrowFor_goes _ _ w w' h done
  · exact withdrawCollateralFor_goes goes _ _ _ w w' h done

theorem executeBorrowIntent_goes (goes : Goes g p hook) (instruction : BorrowIntent)
    (signature : Signature) (proof : List (Fin 256)) :
    Goes g p (executeBorrowIntent hook instruction signature proof) := by
  intro w w' h done
  simp only [executeBorrowIntent, bind_eq_ok, revertIf_eq_ok, exists_const, pure_eq_ok] at done
  obtain ⟨-, -, -, -, v, acted, -, rfl⟩ := done
  exact .after h (fun under => intentAction_goes goes instruction _ v under acted)
    (aside_of_eq rfl rfl rfl rfl)

theorem approvedAction_goes (goes : Goes g p hook) (sender : Address) (a : Approval) :
    Goes g p (approvedAction hook sender a) := by
  intro w w' h done
  unfold approvedAction at done
  split_ifs at done
  · simp only [bind_eq_ok] at done
    obtain ⟨v, deposited, borrowed⟩ := done
    have first := depositCollateralFrom_goes goes _ _ _ w v h deposited
    exact first.trans (borrowFor_goes _ _ v w' first.under borrowed)
  · exact borrowFor_goes _ _ w w' h done
  · exact withdrawCollateralFor_goes goes _ _ _ w w' h done

/-- A nonce that is raised. -/
def raiseNonce (a : Address) (n : ℕ) (w : World) : World :=
  { w with engine := { w.engine with approvalNonces := update w.engine.approvalNonces a n } }

theorem raiseNonce_aside {a : Address} {n : ℕ} (later : w.engine.approvalNonces a ≤ n) :
    Aside w (raiseNonce a n w) where
  cfg_eq := rfl
  capital_eq := rfl
  history_eq := rfl
  entered_eq := rfl
  owner_eq := rfl
  bound_le := id
  nonces_le := le_update_self_iff.mpr later
  prices := ⟨le_rfl, fun _ => le_rfl, fun _ _ _ => ⟨rfl, rfl⟩⟩

/-- What an accepted approval says, and the world its action starts in. -/
theorem executeApproved_ok {a : Approval} {signature : Signature}
    (done : executeApproved hook sender a signature w = .ok w') :
    (a.borrower = sender ∧ a.nonce = w.engine.approvalNonces sender ∧ a.price ≠ 0 ∧
      validWindow a.observedAt a.deadline a.epoch w) ∧
    w.isValidSignatureNow w.engine.riskSigner (w.cfg.digest (.approval a)) signature = true ∧
    ∃ v, approvedAction hook sender a (setTransactionPrice a.price
        (raiseNonce sender (w.engine.approvalNonces sender + 1) w)) = .ok v ∧
      setTransactionPrice 0 v = w' := by
  simp only [executeApproved, bind_eq_ok, revertIf_eq_ok, exists_const, pure_eq_ok, not_or, not_not,
    Bool.not_eq_false, ne_eq] at done
  obtain ⟨valid, signed, v, acted, -, rfl⟩ := done
  exact ⟨valid, signed, v, acted, rfl⟩

theorem executeApproved_goes (goes : Goes g p hook) (sender : Address) (a : Approval)
    (signature : Signature) : Goes g p (executeApproved hook sender a signature) := by
  intro w w' h done
  obtain ⟨-, -, v, acted, rfl⟩ := executeApproved_ok done
  have first : Went g p w (raiseNonce sender (w.engine.approvalNonces sender + 1) w) :=
    .aside h (raiseNonce_aside (Nat.le_succ _))
  have second : Went g p _ (setTransactionPrice a.price
      (raiseNonce sender (w.engine.approvalNonces sender + 1) w)) :=
    .aside first.under (aside_of_eq rfl rfl rfl rfl)
  have third := approvedAction_goes goes sender a _ v second.under acted
  exact ((first.trans second).trans third).trans
    (.aside third.under (aside_of_eq rfl rfl rfl rfl))

/-- What was spent of the nonces stays spent while the action runs. -/
theorem executeApproved_spends (h : Under p w) (goes : Goes g p hook) {a : Approval}
    {signature : Signature} (done : executeApproved hook sender a signature w = .ok w') :
    Went g p (raiseNonce sender (w.engine.approvalNonces sender + 1) w) w' := by
  obtain ⟨-, -, v, acted, rfl⟩ := executeApproved_ok done
  have first : Went g p w (raiseNonce sender (w.engine.approvalNonces sender + 1) w) :=
    .aside h (raiseNonce_aside (Nat.le_succ _))
  have second : Went g p _ (setTransactionPrice a.price
      (raiseNonce sender (w.engine.approvalNonces sender + 1) w)) :=
    .aside first.under (aside_of_eq rfl rfl rfl rfl)
  have third := approvedAction_goes goes sender a _ v second.under acted
  exact (second.trans third).trans (.aside third.under (aside_of_eq rfl rfl rfl rfl))

theorem submitPrice_aside {q : Price} {signature : Signature}
    (done : submitPrice q signature w = .ok w') : Aside w w' := by
  obtain ⟨rfl, -, -, later, -, kept⟩ := submitPrice_ok done
  exact ⟨rfl, rfl, rfl, rfl, rfl, id, le_rfl, le_rfl, fun _ => later,
    fun _ moment priced => kept moment priced⟩

/-! ### Governing calls -/

/-- The call of the pool that a governing call passes on. -/
def Op.limitCall (self : Address) : Op → Option VariablePool.Op
  | .scheduleDebtLimit _ limit => some (.scheduleDebtLimit self limit)
  | .executeDebtLimit _ => some (.executeDebtLimit self)
  | .cancelDebtLimit _ | .transferOwnership .. => some (.cancelDebtLimit self)
  | .lowerDebtLimit _ limit => some (.lowerDebtLimit self limit)
  | .retireMarket _ => some (.retire self)
  | _ => none

def Op.successor : Op → Option Address
  | .transferOwnership _ newOwner => some newOwner
  | _ => none

/-- What a governing call does: the owner makes it, it passes one call on to the pool, or ownership
moves before a pool is bound. -/
structure Governs (op : Op) (w v : World) : Prop where
  byOwner : op.sender = some w.engine.owner
  capital : (∃ q, op.limitCall w.self = some q ∧ w.engine.bound = true ∧
      VariablePool.exec q w.capital = .ok v.capital) ∨
    w.engine.bound = false ∧ op.successor.isSome = true ∧ v.capital = w.capital
  owner_eq : v.engine.owner = op.successor.getD w.engine.owner
  history_eq : v.history = w.history
  kept : (v.engine.entered, v.engine.bound, v.engine.approvalNonces, v.engine.signerEpoch,
      v.engine.liquidationPrice) =
    (w.engine.entered, w.engine.bound, w.engine.approvalNonces, w.engine.signerEpoch,
      w.engine.liquidationPrice)

theorem governs_of_ownerCall {op : Op} (bySender : op.sender = some sender)
    (stays : op.successor = none) (q : Address → VariablePool.Op)
    (passed : op.limitCall w.self = some (q w.self))
    (done : ownerCall sender (fun self => VariablePool.exec (q self)) w = .ok v) :
    Governs op w v := by
  obtain ⟨rfl, bound, capital, accepted, rfl⟩ := ownerCall_ok done
  exact ⟨bySender, .inl ⟨_, passed, bound, accepted⟩, by rw [stays]; rfl, rfl, rfl⟩

theorem run_governs {op : Op} (governs : op.isGoverning = true) (done : run .ok .ok op w = .ok v) :
    Governs op w v := by
  cases op with
  | scheduleDebtLimit sender limit =>
    exact governs_of_ownerCall rfl rfl (.scheduleDebtLimit · limit) rfl done
  | executeDebtLimit sender =>
    exact governs_of_ownerCall rfl rfl .executeDebtLimit rfl done
  | cancelDebtLimit sender =>
    exact governs_of_ownerCall rfl rfl .cancelDebtLimit rfl done
  | lowerDebtLimit sender limit =>
    exact governs_of_ownerCall rfl rfl (.lowerDebtLimit · limit) rfl done
  | transferOwnership sender newOwner =>
    obtain ⟨rfl, u, cancelled, rfl⟩ := transferOwnership_ok done
    unfold cancelIfBound at cancelled
    split_ifs at cancelled with bound
    · obtain ⟨capital, accepted, rfl⟩ := onPool_eq_ok.mp cancelled
      exact ⟨rfl, .inl ⟨_, rfl, bound, accepted⟩, rfl, rfl, rfl⟩
    · obtain rfl := (pure_eq_ok _ _).mp cancelled
      exact ⟨rfl, .inr ⟨Bool.not_eq_true _ ▸ bound, rfl, rfl⟩, rfl, rfl, rfl⟩
  | retireMarket sender =>
    obtain ⟨free, u, retired, rfl⟩ := nonReentrant_ok done
    simp only [retireMarket, onlyOwner, requirePool, bind_eq_ok, revertIf_eq_ok, exists_const,
      onPool_eq_ok, ne_eq, not_not, Bool.not_eq_false] at retired
    obtain ⟨byOwner, bound, capital, closed, rfl⟩ := retired
    exact ⟨congrArg some byOwner, .inl ⟨_, rfl, bound, closed⟩, rfl, rfl, by
      simp only [World.setEntered, free]⟩
  | _ => cases governs

/-! ### Calls -/

def Op.isDonation (pool : Address) : Op → Bool
  | .capital op => decide (op.isDonation pool)
  | _ => false

/-- No call of the script, at any depth, sends USDG to the pool outright. -/
def Script.withoutDonation (pool : Address) : Script → Bool
  | .return | .revert => true
  | .call op hook callback rest => !op.isDonation pool && hook.withoutDonation pool &&
    callback.withoutDonation pool && rest.withoutDonation pool

def Call.withoutDonation (pool : Address) (c : Call) : Bool :=
  !c.op.isDonation pool && c.hook.withoutDonation pool && c.callback.withoutDonation pool

@[simp] theorem withSafety_isLimitCall (safety : Option Bool) (op : VariablePool.Op) :
    (op.withSafety safety).isLimitCall = op.isLimitCall := by
  cases op <;> rfl

theorem withSafety_isDonation {safety : Option Bool} {op : VariablePool.Op}
    (h : (op.withSafety safety).isDonation p) : op.isDonation p := by
  cases op <;> exact h

theorem isSwitch_of_isLimitCall {op : VariablePool.Op} (h : op.isLimitCall = true) :
    op.isSwitch = true := by
  cases op <;> first | rfl | cases h

/-- A call without the guard is one act, and leaves the guard alone. -/
theorem run_act {op : Op} (unguarded : op.isGuarded = false) (still : op.isElapse = false)
    (plain : op.isGoverning = false) (away : op.sender ≠ some w.self)
    (paid : op.isDonation w.pool = true → g) (done : run hook callback op w = .ok w') :
    Act g w w' ∧ w'.engine.entered = w.engine.entered := by
  cases op with
  | bindPool sender =>
    simp only [run, bindPool, onlyOwner, bind_eq_ok, revertIf_eq_ok, exists_const, pure_eq_ok] at done
    obtain ⟨-, -, rfl⟩ := done
    exact ⟨.aside _ ⟨rfl, rfl, rfl, rfl, rfl, fun _ => rfl, le_rfl,
      ⟨le_rfl, fun _ => le_rfl, fun _ _ _ => ⟨rfl, rfl⟩⟩⟩, rfl⟩
  | setRiskPaused sender paused =>
    simp only [run, setRiskPaused, onlyOwner, bind_eq_ok, revertIf_eq_ok, exists_const,
      pure_eq_ok] at done
    obtain ⟨-, -, -, rfl⟩ := done
    exact ⟨.aside _ (aside_of_eq rfl rfl rfl rfl), rfl⟩
  | invalidateBorrowIntents sender nextNonce =>
    simp only [run, invalidateBorrowIntents, bind_eq_ok, revertIf_eq_ok, exists_const,
      pure_eq_ok] at done
    obtain ⟨-, rfl⟩ := done
    exact ⟨.aside _ (aside_of_eq rfl rfl rfl rfl), rfl⟩
  | setRiskSigner sender signer =>
    simp only [run, setRiskSigner, onlyOwner, bind_eq_ok, revertIf_eq_ok, exists_const,
      pure_eq_ok] at done
    obtain ⟨-, -, rfl⟩ := done
    exact ⟨.aside _ ⟨rfl, rfl, rfl, rfl, rfl, id, le_rfl, Nat.le_succ _,
      fun same => absurd same (Nat.succ_ne_self _), fun same => absurd same (Nat.succ_ne_self _)⟩, rfl⟩
  | invalidateApprovals sender nextNonce =>
    simp only [run, invalidateApprovals, bind_eq_ok, revertIf_eq_ok, exists_const, pure_eq_ok,
      not_le] at done
    obtain ⟨later, rfl⟩ := done
    exact ⟨.aside _ (raiseNonce_aside later.le), rfl⟩
  | submitPrice sender q signature =>
    exact ⟨.aside _ (submitPrice_aside done), (submitPrice_aside done).entered_eq⟩
  | priceWithApproval sender q signature =>
    simp only [run, bind_eq_ok, pure_eq_ok] at done
    obtain ⟨v, submitted, -, -, rfl⟩ := done
    exact ⟨.aside _ (submitPrice_aside submitted), (submitPrice_aside submitted).entered_eq⟩
  | liquidationQuoteWithApproval sender borrower maximum q signature =>
    simp only [run, bind_eq_ok, pure_eq_ok] at done
    obtain ⟨v, submitted, -, -, -, -, rfl⟩ := done
    exact ⟨.aside _ (submitPrice_aside submitted), (submitPrice_aside submitted).entered_eq⟩
  | capital op =>
    simp only [run, bind_eq_ok, revertIf_eq_ok, exists_const, onPool_eq_ok] at done
    obtain ⟨-, capital, done, rfl⟩ := done
    refine ⟨.pool _ capital ?_ ?_
      (fun donated => paid (decide_eq_true (withSafety_isDonation donated))) done, rfl⟩
    · rw [withSafety_isElapse]
      exact still
    · rw [withSafety_isLimitCall]
      by_contra limited
      rw [Bool.not_eq_false] at limited
      have byEngine := (VariablePool.exec_switch
        (isSwitch_of_isLimitCall ((withSafety_isLimitCall _ op).trans limited)) done).1
      rw [withSafety_sender] at byEngine
      exact away byEngine
  | collateral call =>
    simp only [run, bind_eq_ok, orRevert_eq_ok, pure_eq_ok] at done
    obtain ⟨collateral, -, rfl⟩ := done
    exact ⟨.aside _ (aside_of_eq rfl rfl rfl rfl), rfl⟩
  | outside isValidSignatureNow hasCode =>
    simp only [run, pure_eq_ok] at done
    obtain rfl := done
    exact ⟨.aside _ (aside_of_eq rfl rfl rfl rfl), rfl⟩
  | scheduleDebtLimit | executeDebtLimit | cancelDebtLimit | lowerDebtLimit | transferOwnership =>
    cases plain
  | _ => cases unguarded

theorem run_governing {op : Op} (governs : op.isGoverning = true) :
    run hook callback op w = run .ok .ok op w := by
  cases op <;> first | rfl | cases governs

/-- A call without the guard, and its entry. -/
theorem perform_unguarded_acts {op : Op} (unguarded : op.isGuarded = false)
    (still : op.isElapse = false) (paid : op.isDonation w.pool = true → g)
    (done : perform hook callback op w = .ok w') :
    Acts g w w' ∧ w'.engine.entered = w.engine.entered := by
  obtain ⟨away, -, v, ran, rfl⟩ := perform_ok done
  cases governs : op.isGoverning with
  | true =>
    rw [run_governing governs] at ran
    exact ⟨.single (.govern op governs v ran), congrArg Prod.fst (run_governs governs ran).kept⟩
  | false =>
    obtain ⟨act, entered⟩ := run_act unguarded still governs away paid ran
    exact ⟨.tail (.single act) (.note op governs), entered⟩

theorem Act.keeps (h : Act g w w') (sound : Sound w.capital) :
    Sound w'.capital ∧ w'.capital.cfg = w.capital.cfg := by
  cases h with
  | pool op capital _ _ _ done => exact VariablePool.exec_sound sound done
  | aside _ moved =>
    rw [moved.capital_eq]
    exact ⟨sound, rfl⟩
  | guard => exact ⟨sound, rfl⟩
  | govern op governs v done =>
    obtain ⟨-, ⟨q, -, -, done⟩ | ⟨-, -, same⟩, -, -, -⟩ := run_governs governs done
    · exact VariablePool.exec_sound sound done
    · change Sound v.capital ∧ v.capital.cfg = w.capital.cfg
      rw [same]
      exact ⟨sound, rfl⟩
  | note => exact ⟨sound, rfl⟩

theorem Acts.keeps (h : Acts g w w') (sound : Sound w.capital) :
    Sound w'.capital ∧ w'.capital.cfg = w.capital.cfg := by
  induction h with
  | refl => exact ⟨sound, rfl⟩
  | tail _ last ih =>
    obtain ⟨here, cfg_eq⟩ := ih
    obtain ⟨after, cfg_eq'⟩ := last.keeps here
    exact ⟨after, cfg_eq'.trans cfg_eq⟩

theorem perform_entered_goes (h : Under p w) {op : Op} (paid : op.isDonation p = true → g)
    (done : perform hook callback op w = .ok w') : Went g p w w' := by
  by_cases hop : op.isGuarded = true ∨ op.isElapse = true
  · obtain ⟨-, -, v, ran, -⟩ := perform_ok done
    rw [run_entered h.entered hop] at ran
    cases ran
  · obtain ⟨unguarded, still⟩ := not_or.mp hop
    rw [Bool.not_eq_true] at unguarded still
    obtain ⟨acts, entered⟩ := perform_unguarded_acts unguarded still (h.pool_eq ▸ paid) done
    obtain ⟨sound, cfg_eq⟩ := acts.keeps h.sound
    exact ⟨acts, sound, entered.trans h.entered, (congrArg (·.self) cfg_eq).trans h.pool_eq⟩

theorem Script.run_goes (s : Script) (paid : s.withoutDonation p = false → g) :
    Goes g p s.run := by
  induction s with
  | «return» =>
    intro w w' h done
    exact Except.ok.inj done ▸ .refl h
  | revert =>
    intro w w' _ done
    cases done
  | call op hook callback rest _ _ ih =>
    intro w w' h done
    have given : op.isDonation p = true → g := fun donated =>
      paid (by simp only [Script.withoutDonation, donated, Bool.not_true, Bool.false_and])
    have later := ih fun donates => paid (by
      simp only [Script.withoutDonation, donates, Bool.and_false])
    cases tried : perform hook.run callback.run op w with
    | error e =>
      simp only [Script.run, tried, reached] at done
      exact later w w' h done
    | ok v =>
      simp only [Script.run, tried, reached] at done
      have first := perform_entered_goes h given tried
      exact first.trans (later v w' first.under done)

theorem guarded_acts {body : World → Except Error World} (sound : Sound w.capital)
    (goes : Goes g w.pool body) (done : nonReentrant body w = .ok w') : Acts g w w' := by
  obtain ⟨-, v, ran, rfl⟩ := nonReentrant_ok done
  have under : Under w.pool (w.setEntered true) := ⟨sound, rfl, rfl⟩
  exact .tail (.head (.guard true) (goes _ _ under ran).acts) (.guard false)

theorem run_guarded_acts {op : Op} (guarded : op.isGuarded = true) (plain : op.isGoverning = false)
    (sound : Sound w.capital) (goes : Goes g w.pool hook) (goes' : Goes g w.pool callback)
    (done : run hook callback op w = .ok w') : Acts g w w' := by
  cases op with
  | executeBorrowIntent sender instruction signature proof =>
    exact guarded_acts sound (executeBorrowIntent_goes goes instruction signature proof) done
  | depositCollateral sender borrower amount =>
    exact guarded_acts sound (depositCollateralFrom_goes goes sender borrower amount) done
  | depositAndBorrow sender collateralAmount borrowAmount =>
    simp only [run] at done
    refine guarded_acts sound (fun u v h ran => ?_) done
    simp only [bind_eq_ok] at ran
    obtain ⟨x, deposited, borrowed⟩ := ran
    have first := depositCollateralFrom_goes goes _ _ _ u x h deposited
    exact first.trans (borrowFor_goes _ _ x v first.under borrowed)
  | borrow sender amount => exact guarded_acts sound (borrowFor_goes sender amount) done
  | withdrawCollateral sender amount recipient =>
    exact guarded_acts sound (withdrawCollateralFor_goes goes sender amount recipient) done
  | repay sender borrower maxAmount =>
    simp only [run] at done
    refine guarded_acts sound (fun u v h ran => ?_) done
    simp only [bind_eq_ok, pure_eq_ok, Prod.exists] at ran
    obtain ⟨x, n, repaid, rfl⟩ := ran
    exact repayUpTo_goes h repaid
  | close sender maxRepay recipient =>
    simp only [run] at done
    refine guarded_acts sound (fun u v h ran => ?_) done
    simp only [bind_eq_ok, pure_eq_ok, Prod.exists] at ran
    obtain ⟨x, n, closed, rfl⟩ := ran
    exact close_goes goes h closed
  | liquidate sender borrower maxRepay minCollateral =>
    exact guarded_acts sound (liquidate_goes goes sender borrower maxRepay minCollateral) done
  | liquidateWithCallback sender borrower maxRepay minCollateral =>
    exact guarded_acts sound
      (liquidateWithCallback_goes goes goes' sender borrower maxRepay minCollateral) done
  | liquidateApproved sender borrower maximum minimum q signature =>
    simp only [run] at done
    refine guarded_acts sound (fun u v h ran => ?_) done
    simp only [bind_eq_ok] at ran
    obtain ⟨x, submitted, liquidated⟩ := ran
    exact .after h (fun under => liquidate_goes goes _ _ _ _ x v under liquidated)
      (submitPrice_aside submitted)
  | liquidateWithCallbackApproved sender borrower maximum minimum q signature =>
    simp only [run] at done
    refine guarded_acts sound (fun u v h ran => ?_) done
    simp only [bind_eq_ok] at ran
    obtain ⟨x, submitted, liquidated⟩ := ran
    exact .after h (fun under => liquidateWithCallback_goes goes goes' _ _ _ _ x v under liquidated)
      (submitPrice_aside submitted)
  | executeApproved sender a signature =>
    exact guarded_acts sound (executeApproved_goes goes sender a signature) done
  | retireMarket sender => cases plain
  | _ => cases guarded

/-- Every transaction but the passing of time is a list of acts. -/
theorem exec_acts {c : Call} (sound : Sound w.capital) (still : c.op.isElapse = false)
    (paid : c.withoutDonation w.pool = false → g) (done : exec c w = .ok w') :
    Acts g w w' := by
  have given : c.op.isDonation w.pool = true → g := fun donated =>
    paid (by simp only [Call.withoutDonation, donated, Bool.not_true, Bool.false_and])
  by_cases guarded : c.op.isGuarded = true
  swap
  · exact (perform_unguarded_acts (Bool.not_eq_true _ ▸ guarded) still given done).1
  obtain ⟨-, -, v, ran, rfl⟩ := perform_ok done
  cases governs : c.op.isGoverning with
  | true => exact .single (.govern c.op governs v (run_governing governs ▸ ran))
  | false =>
    have goes : Goes g w.pool c.hook.run := c.hook.run_goes fun donates =>
      paid (by simp only [Call.withoutDonation, donates, Bool.and_false, Bool.false_and])
    have goes' : Goes g w.pool c.callback.run := c.callback.run_goes fun donates =>
      paid (by simp only [Call.withoutDonation, donates, Bool.and_false])
    exact .tail (run_guarded_acts guarded governs sound goes goes' ran) (.note c.op governs)

end Turret.VariableEngine
