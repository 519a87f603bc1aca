import Mathlib.Data.List.ReduceOption
import Turret.FeeIntents.Attribution
import Turret.Isolated.CapitalPool
import Turret.Rewards.FeeRouter
import Turret.Rewards.RecoverableStaking
import Turret.Variable.CapitalPool

/-! The split of the fees. Half a unit is carried from call to call, so what the
router and its staking contract have counted is a function of the totals, and
`fee-reconciliation.mjs` can tell the next share from the public totals alone. -/

namespace Turret.FeeRouter

open Execution Function Rounding Uint256
open RecoverableStaking (Counters counters)

variable {w w' : World}

/-! ### Totals -/

/-- What was taken in and given back, however it came in. -/
structure Totals where
  collected : ℕ
  reported : ℕ
  subsidies : ℕ
  recovered : ℕ

namespace Totals

def revenue (t : Totals) : ℕ := t.collected + t.reported

def add (t : Totals) : Event → Totals
  | .revenueDistributed _ fee _ _ => { t with collected := t.collected + fee }
  | .claimedFeesForwarded fee _ => { t with reported := t.reported + fee }
  | .reserveSubsidized amount => { t with subsidies := t.subsidies + amount }
  | .reserveRecovered amount => { t with recovered := t.recovered + amount }

/-- The totals of a history. -/
def ofEvents (events : List Event) : Totals := events.foldl add ⟨0, 0, 0, 0⟩

theorem ofEvents_snoc (events : List Event) (event : Event) :
    ofEvents (events ++ [event]) = (ofEvents events).add event := by
  rw [ofEvents, List.foldl_concat, ofEvents]

end Totals

/-- What the router and its staking contract have counted. -/
structure Books where
  totals : Totals
  distributed : ℕ
  half : ℕ
  staking : Counters

namespace Books

/-- The books that belong to the totals: half of the revenue is distributed, and what does not
divide is carried. -/
def ofTotals (t : Totals) : Books where
  totals := t
  distributed := t.revenue / 2
  half := t.revenue % 2
  staking := ⟨t.revenue / 2 + t.subsidies, t.subsidies, t.recovered⟩

/-- Half of a fee, with the half unit carried. -/
def split (fee : ℕ) (b : Books) : Books :=
  let share := (carry 2 fee 1 b.half).1
  { b with
    distributed := b.distributed + share
    half := (carry 2 fee 1 b.half).2
    staking.totalFunded := b.staking.totalFunded + share }

def record (b : Books) (event : Event) : Books :=
  let totals := b.totals.add event
  match event with
  | .revenueDistributed _ fee _ _ => { b.split fee with totals }
  | .claimedFeesForwarded fee _ => { b.split fee with totals }
  | .reserveSubsidized amount =>
    { b with
      totals
      staking.totalFunded := b.staking.totalFunded + amount
      staking.totalSubsidies := b.staking.totalSubsidies + amount }
  | .reserveRecovered amount =>
    { b with totals, staking.totalRecovered := b.staking.totalRecovered + amount }

end Books

/-- Halving with the half unit carried is halving the sum. -/
theorem halve_add (total fee : ℕ) :
    total / 2 + (carry 2 fee 1 (total % 2)).1 = (total + fee) / 2 ∧
      (carry 2 fee 1 (total % 2)).2 = (total + fee) % 2 := by
  rw [carry_fst (by decide), carry_snd (by decide)]
  omega

/-- However the totals came about, the books are those of the totals. -/
theorem Books.record_ofTotals (t : Totals) (event : Event) :
    (ofTotals t).record event = ofTotals (t.add event) := by
  cases event with
  | revenueDistributed pool fee share retained =>
    obtain ⟨distributed, half⟩ := halve_add t.revenue fee
    have total : t.revenue + fee = (t.collected + fee) + t.reported := by
      rw [Totals.revenue]
      omega
    simp only [record, split, ofTotals, Totals.add, half, Nat.add_right_comm _ t.subsidies,
      distributed]
    rw [total]
    rfl
  | claimedFeesForwarded fee share =>
    obtain ⟨distributed, half⟩ := halve_add t.revenue fee
    have total : t.revenue + fee = t.collected + (t.reported + fee) := Nat.add_assoc ..
    simp only [record, split, ofTotals, Totals.add, half, Nat.add_right_comm _ t.subsidies,
      distributed]
    rw [total]
    rfl
  | reserveSubsidized amount =>
    simp only [record, ofTotals, Totals.add, Totals.revenue, Nat.add_assoc]
  | reserveRecovered amount => rfl

def books (w : World) : Books where
  totals :=
    ⟨w.router.totalCollected, w.router.totalTreasuryReported, w.router.totalSubsidies,
      w.router.totalRecovered⟩
  distributed := w.router.totalDistributed
  half := w.router.halfRemainder
  staking := counters w.staking

/-! ### The calls -/

/-- Who is who, and that there is no pool at the router's address. -/
structure Wired (w : World) : Prop where
  distributor_eq : w.staking.stream.cfg.distributor = w.cfg.self
  treasury_eq : w.staking.treasury = w.cfg.treasury
  treasury_ne_staking : w.cfg.treasury ≠ w.staking.self
  no_pool : w.pools w.cfg.self = none

theorem Wired.staking_ne (h : Wired w) : w.cfg.self ≠ w.staking.self := by
  rw [← h.distributor_eq]
  exact w.staking.stream.cfg.distributor_ne_self

theorem Wired.route (h : Wired w) (router : Router) : Wired { w with router } :=
  ⟨h.distributor_eq, h.treasury_eq, h.treasury_ne_staking, h.no_pool⟩

theorem Wired.of_same (h : Wired w) {staking : RecoverableStaking.World}
    (same : RecoverableStaking.Same w.staking staking) : Wired { w with staking } where
  distributor_eq := by rw [same.cfg_eq, h.distributor_eq]
  treasury_eq := by rw [same.treasury_eq, h.treasury_eq]
  treasury_ne_staking := by
    have self : staking.self = w.staking.self := congrArg RewardStream.Config.self same.cfg_eq
    rw [self]
    exact h.treasury_ne_staking
  no_pool := h.no_pool

/-- A share went from the treasury through the router into the reserve. -/
structure Funded (share : ℕ) (subsidy : Bool) (w w' : World) : Prop where
  frame : w' = { w with staking := w'.staking }
  same : RecoverableStaking.Same w.staking w'.staking
  counters_eq : counters w'.staking = { counters w.staking with
    totalFunded := w.staking.stream.totalFunded + share
    totalSubsidies := w.staking.totalSubsidies + if subsidy then share else 0 }
  router_eq : w'.usdg.balanceOf w.cfg.self = w.usdg.balanceOf w.cfg.self
  staking_eq : w'.usdg.balanceOf w.staking.self = w.usdg.balanceOf w.staking.self + share
  treasury_eq : w'.usdg.balanceOf w.cfg.treasury + share = w.usdg.balanceOf w.cfg.treasury

theorem fund_ok {share : ℕ} {subsidy : Bool} (h : Wired w)
    (done : fund share subsidy w = .ok w') : Funded share subsidy w w' := by
  simp only [fund, callStaking, bind_eq_ok, orRevert_eq_ok, revertIf_eq_ok, exists_const,
    pure_eq_ok, mapError_eq_ok, TokenLedger.transferFrom_eq_some] at done
  obtain ⟨usdg, ⟨⟨-, held⟩, rfl⟩, -, _, ⟨staking, funded, rfl⟩, unchanged, rfl⟩ := done
  obtain ⟨same, -, counted, pulled⟩ := RecoverableStaking.fund_ok funded
  obtain ⟨-, -, -, moved⟩ := TokenLedger.pullTo_eq_ok.mp pulled
  have apart := h.staking_ne
  have other := w.cfg.treasury_ne_self
  have away := h.treasury_ne_staking
  simp only [withUsdg_usdg, withUsdg_self] at moved
  refine ⟨rfl, ⟨same.cfg_eq, same.treasury_eq⟩, counted, not_not.mp unchanged, ?_, ?_⟩
  · rw [World.usdg, ← moved, TokenLedger.move_dst apart, TokenLedger.approve_balanceOf,
      TokenLedger.move_other away.symm apart.symm, TokenLedger.approve_balanceOf]
  · rw [World.usdg, ← moved, TokenLedger.move_other other away, TokenLedger.approve_balanceOf,
      TokenLedger.move_src other, TokenLedger.approve_balanceOf]
    exact Nat.sub_add_cancel held

theorem fundShare_ok {share : ℕ} (h : Wired w) (done : fundShare share w = .ok w') :
    Funded share false w w' := by
  rw [fundShare] at done
  split_ifs at done with none
  · obtain rfl := Except.ok.inj done
    rw [none]
    exact ⟨rfl, ⟨rfl, rfl⟩, rfl, rfl, rfl, rfl⟩
  · exact fund_ok h done

/-- The router after `_forward`, before its share is funded. -/
def forwarding (fee : ℕ) (w : World) : World :=
  { w with
    router :=
      { w.router with
        halfRemainder := (carry 2 fee 1 w.router.halfRemainder).2
        totalDistributed := w.router.totalDistributed + (carry 2 fee 1 w.router.halfRemainder).1 } }

theorem forward_ok {fee share : ℕ} (h : Wired w) (done : forward fee w = .ok (w', share)) :
    share = (carry 2 fee 1 w.router.halfRemainder).1 ∧
      Funded share false (forwarding fee w) w' := by
  have halves : (fee / 2 + (fee % 2 + w.router.halfRemainder) / 2,
      (fee % 2 + w.router.halfRemainder) % 2) = carry 2 fee 1 w.router.halfRemainder := by
    simp only [carry, mulDiv, Nat.mul_one]
  simp only [forward, bind_eq_ok, checkedAdd_eq_ok, pure_eq_ok, Prod.mk.injEq] at done
  obtain ⟨-, ⟨-, rfl⟩, _, funded, rfl, rfl⟩ := done
  rw [forwarding, ← halves]
  exact ⟨rfl, fundShare_ok (h.route _) funded⟩

/-- A call was recorded as its event says, and left the router with what it held. -/
structure Recorded (w : World) (event : Event) (w' : World) : Prop where
  cfg_eq : w'.cfg = w.cfg
  wired : Wired w'
  books_eq : books w' = (books w).record event
  router_eq : w'.usdg.balanceOf w.cfg.self = w.usdg.balanceOf w.cfg.self

theorem Funded.wired {share : ℕ} {subsidy : Bool} (h : Wired w) (funded : Funded share subsidy w w') :
    Wired w' := by
  rw [funded.frame]
  exact h.of_same funded.same

/-- What the funding of a fee's share records. -/
theorem Funded.books_eq {fee share : ℕ} (funded : Funded share false (forwarding fee w) w')
    (eq : share = (carry 2 fee 1 w.router.halfRemainder).1) :
    books w' = (books w).split fee := by
  subst eq
  have counted := funded.counters_eq
  rw [books, counted, funded.frame]
  rfl

def reporting (fee : ℕ) (w : World) : World :=
  { w with
    router :=
      { w.router with totalTreasuryReported := w.router.totalTreasuryReported + fee } }

theorem forwardClaimedFees_ok {sender : Address} {fee : ℕ} {event : Event} (h : Wired w)
    (done : forwardClaimedFees sender fee w = .ok (w', event)) :
    ∃ share, event = .claimedFeesForwarded fee share ∧
      share = (carry 2 fee 1 w.router.halfRemainder).1 ∧
      Funded share false (forwarding fee (reporting fee w)) w' := by
  simp only [forwardClaimedFees, bind_eq_ok, revertIf_eq_ok, exists_const, checkedAdd_eq_ok,
    pure_eq_ok, Prod.mk.injEq, Prod.exists] at done
  obtain ⟨-, -, -, -, ⟨-, rfl⟩, _, share, forwarded, rfl, rfl⟩ := done
  obtain ⟨eq, funded⟩ := forward_ok (h.route _) forwarded
  exact ⟨share, rfl, eq, funded⟩

theorem forwardClaimedFees_recorded {sender : Address} {fee : ℕ} {event : Event} (h : Wired w)
    (done : forwardClaimedFees sender fee w = .ok (w', event)) : Recorded w event w' := by
  obtain ⟨share, rfl, rfl, funded⟩ := forwardClaimedFees_ok h done
  refine ⟨?_, funded.wired (h.route _), ?_, funded.router_eq⟩
  · rw [funded.frame]
    rfl
  · rw [funded.books_eq rfl]
    rfl

/-- A pool pays exactly what it held for its recipient. -/
theorem claimRevenue_ok {pool : Address} (done : claimRevenue pool w = .ok w') :
    ∃ contract usdg, w.pools pool = some contract ∧
      w.usdg.sendTo Error.pool Error.pool pool contract.feeRecipient contract.protocolFees = .ok usdg ∧
      w' = { w.withUsdg usdg with
        pools := update w.pools pool (some { contract with protocolFees := 0 }) } := by
  simp only [claimRevenue, bind_eq_ok, orRevert_eq_ok, revertIf_eq_ok, exists_const,
    pure_eq_ok] at done
  obtain ⟨contract, found, -, -, usdg, sent, rfl⟩ := done
  exact ⟨contract, usdg, found, TokenLedger.sendExact_eq_ok.mp sent, rfl⟩

theorem Wired.claimRevenue (h : Wired w) {pool : Address}
    (done : claimRevenue pool w = .ok w') : Wired w' ∧ w'.cfg = w.cfg ∧ books w' = books w := by
  obtain ⟨contract, usdg, found, -, rfl⟩ := claimRevenue_ok done
  have apart : w.cfg.self ≠ pool := fun same => by
    rw [← same, h.no_pool] at found
    cases found
  refine ⟨⟨h.distributor_eq, h.treasury_eq, h.treasury_ne_staking, ?_⟩, rfl, rfl⟩
  simp only [withUsdg_cfg, update_of_ne apart]
  exact h.no_pool

/-- A fee that reaches the treasury passes the router by. -/
theorem claimRevenue_away (h : Wired w) {pool : Address} {contract : RevenuePool}
    (found : w.pools pool = some contract) (some_ : contract.protocolFees ≠ 0)
    (done : claimRevenue pool w = .ok w')
    (arrived : w'.usdg.balanceOf w.cfg.treasury =
      w.usdg.balanceOf w.cfg.treasury + contract.protocolFees) :
    w'.usdg.balanceOf w.cfg.self = w.usdg.balanceOf w.cfg.self := by
  obtain ⟨_, usdg, found', sent, rfl⟩ := claimRevenue_ok done
  obtain rfl := Option.some.inj (found.symm.trans found')
  obtain ⟨-, apart, rfl⟩ := TokenLedger.sendTo_eq_ok.mp sent
  have away : w.cfg.self ≠ pool := fun same => by
    rw [← same, h.no_pool] at found
    cases found
  simp only [World.usdg, withUsdg_usdg] at arrived ⊢
  by_cases hr : w.cfg.self = contract.feeRecipient
  · -- then the treasury received nothing
    have other : w.cfg.treasury ≠ contract.feeRecipient := hr ▸ w.cfg.treasury_ne_self
    by_cases hp : w.cfg.treasury = pool
    · rw [hp, TokenLedger.move_src (apart.resolve_right some_)] at arrived
      omega
    · rw [TokenLedger.move_other hp other] at arrived
      omega
  · exact TokenLedger.move_other away hr ..

theorem collect_recorded {pool : Address} {event : Event} (h : Wired w)
    (done : collect pool w = .ok (w', event)) : Recorded w event w' := by
  simp only [collect, bind_eq_ok, orRevert_eq_ok, revertIf_eq_ok, exists_const, checkedAdd_eq_ok,
    checkedSub_eq_ok, pure_eq_ok, Prod.mk.injEq, Prod.exists, not_not] at done
  obtain ⟨-, -, contract, found, -, some_, v, claimed, arrived, -, ⟨-, rfl⟩, _, share, forwarded, -,
    -, rfl, rfl⟩ := done
  obtain ⟨wired, cfg, same⟩ := h.claimRevenue claimed
  obtain ⟨eq, funded⟩ := forward_ok (wired.route _) forwarded
  have passed := claimRevenue_away h found some_ claimed (cfg ▸ arrived)
  have kept := funded.router_eq
  refine ⟨?_, funded.wired ((wired.route _).route _), ?_, ?_⟩
  · rw [funded.frame]
    exact cfg
  · rw [funded.books_eq eq]
    rw [← same]
    rfl
  · rw [← passed, ← cfg]
    exact kept

theorem fundReserve_recorded {sender : Address} {amount : ℕ} {event : Event} (h : Wired w)
    (done : fundReserve sender amount w = .ok (w', event)) : Recorded w event w' := by
  simp only [fundReserve, bind_eq_ok, revertIf_eq_ok, exists_const, checkedAdd_eq_ok, pure_eq_ok,
    Prod.mk.injEq] at done
  obtain ⟨-, -, -, ⟨-, rfl⟩, _, done, rfl, rfl⟩ := done
  have funded := fund_ok (h.route _) done
  have counted := funded.counters_eq
  refine ⟨?_, funded.wired (h.route _), ?_, funded.router_eq⟩
  · rw [funded.frame]
  · rw [books, counted, funded.frame]
    rfl

theorem recover_recorded {amount : ℕ} {event : Event} (h : Wired w)
    (done : recover amount w = .ok (w', event)) : Recorded w event w' := by
  simp only [recover, callStaking, bind_eq_ok, mapError_eq_ok, checkedAdd_eq_ok, pure_eq_ok,
    Prod.mk.injEq] at done
  obtain ⟨_, ⟨staking, called, rfl⟩, -, ⟨-, rfl⟩, rfl, rfl⟩ := done
  obtain ⟨same, -, counted, sent⟩ := RecoverableStaking.recoverSubsidy_ok called
  obtain ⟨-, -, moved⟩ := TokenLedger.sendTo_eq_ok.mp sent
  refine ⟨rfl, (h.of_same same).route _, ?_, ?_⟩
  · rw [books, counted]
    rfl
  · rw [World.usdg, ← moved, h.treasury_eq,
      TokenLedger.move_other h.staking_ne w.cfg.treasury_ne_self.symm]
    rfl

theorem call_recorded {c : Call} {event : Event} (h : Wired w)
    (done : call c w = .ok (w', event)) : Recorded w event w' := by
  cases c with
  | collect pool => exact collect_recorded h done
  | forwardClaimedFees sender fee => exact forwardClaimedFees_recorded h done
  | fundReserve sender amount => exact fundReserve_recorded h done
  | recoverReserve sender amount =>
    simp only [call, recoverReserve, bind_eq_ok, revertIf_eq_ok, exists_const] at done
    exact recover_recorded h done.2
  | recoverAllSubsidy sender =>
    simp only [call, recoverAllSubsidy, bind_eq_ok, revertIf_eq_ok, exists_const] at done
    obtain ⟨-, amount, -, -, done⟩ := done
    exact recover_recorded h done

/-- Nothing else is counted. -/
theorem outside_frame {o : Outside} (h : Wired w) (done : outside o w = .ok w') :
    Wired w' ∧ books w' = books w := by
  cases o with
  | staking op =>
    simp only [outside, callStaking, bind_eq_ok, revertIf_eq_ok, exists_const, mapError_eq_ok,
      pure_eq_ok] at done
    obtain ⟨other, staking, called, rfl⟩ := done
    rw [← h.distributor_eq] at other
    obtain ⟨same, counted⟩ := RecoverableStaking.exec_frame other called
    refine ⟨h.of_same same, ?_⟩
    rw [books, counted]
    rfl
  | claimRevenue pool =>
    obtain ⟨wired, -, same⟩ := h.claimRevenue done
    exact ⟨wired, same⟩
  | setPool pool contract =>
    simp only [outside, bind_eq_ok, revertIf_eq_ok, exists_const, pure_eq_ok] at done
    obtain ⟨away, rfl⟩ := done
    refine ⟨⟨h.distributor_eq, h.treasury_eq, h.treasury_ne_staking, ?_⟩, rfl⟩
    simp only [update_of_ne (Ne.symm away)]
    exact h.no_pool

/-! ### Runs -/

theorem allowPools_counts {treasury : Address} {pools : Address → Option RevenuePool}
    {allowed : List Address} {router router' : Router}
    (done : allowPools treasury pools allowed router = .ok router') :
    router' = { router with poolCodeHash := router'.poolCodeHash, pools := router'.pools } := by
  induction allowed generalizing router with
  | nil =>
    obtain rfl := Except.ok.inj done
    rfl
  | cons pool rest ih =>
    simp only [allowPools, bind_eq_ok] at done
    obtain ⟨contract, -, -, -, done⟩ := done
    have counts := ih done
    exact counts

theorem Deployed.wired (h : Deployed w) : Wired w where
  distributor_eq := h.distributor_eq
  treasury_eq := h.treasury_eq
  treasury_ne_staking := by
    rw [← h.treasury_eq]
    exact h.staking.treasury_ne_self
  no_pool := h.no_pool

theorem Deployed.books_eq (h : Deployed w) : books w = .ofTotals (.ofEvents []) := by
  obtain ⟨allowed, -, -, listed⟩ := h.router_eq
  have funded : w.staking.stream.totalFunded = 0 := by rw [h.staking.stream.storage_eq]; rfl
  rw [books, counters, funded, h.staking.subsidies_eq, h.staking.recovered_eq,
    allowPools_counts listed]
  rfl

/-- In every run the books are those of the totals that the events add up to. -/
theorem run_books {start : World} (h : Deployed start) {labels : List (Option Event)}
    (run : Run Step start labels w) :
    Wired w ∧ books w = .ofTotals (.ofEvents labels.reduceOption) := by
  refine run.history (fun labels w => Wired w ∧ books w = .ofTotals (.ofEvents labels.reduceOption))
    (fun labels u label v before step => ?_) ⟨h.wired, h.books_eq⟩
  obtain ⟨wired, eq⟩ := before
  rw [List.reduceOption_append]
  cases step with
  | call done =>
    have recorded := call_recorded wired done
    refine ⟨recorded.wired, ?_⟩
    rw [recorded.books_eq, eq, Books.record_ofTotals]
    exact congrArg _ (Totals.ofEvents_snoc ..).symm
  | outside done =>
    obtain ⟨wired, same⟩ := outside_frame wired done
    refine ⟨wired, same.trans ?_⟩
    simpa only [List.reduceOption_singleton, Option.toList_none, List.append_nil] using eq

/-! ### The forecast -/

/-- The client answers for the counters of the router at a block from the state `w`. -/
structure Reads (answers : FeeIntents.ChainClient) (router : FeeIntents.Address) (block : ℕ)
    (w : World) : Prop where
  collected : ∀ n : ℕ, Client.Answered answers (.readUint router .totalCollected block) n →
    n = w.router.totalCollected
  reported : ∀ n : ℕ, Client.Answered answers (.readUint router .totalTreasuryReported block) n →
    n = w.router.totalTreasuryReported

/-- A gross amount was forwarded, and this share of it reached the staking contract. -/
structure Forwarded (gross share : ℕ) (w : World) (event : Event) (w' : World) : Prop where
  event_eq : event = .claimedFeesForwarded gross share
  staking_eq : w'.usdg.balanceOf w.staking.self = w.usdg.balanceOf w.staking.self + share
  treasury_eq : w'.usdg.balanceOf w.cfg.treasury + share = w.usdg.balanceOf w.cfg.treasury

/-- The report tells the share of its gross amount, and asks for enough. -/
structure Forecast (report : FeeIntents.Report) (w : World) : Prop where
  exact_ : ∀ sender w' event, forwardClaimedFees sender report.gross w = .ok (w', event) →
    Forwarded report.gross report.expectedStakerShare w event w'
  enough : report.expectedStakerShare ≤ report.maximumStakerShare

/-- The share of the next forwarding, from the totals alone. -/
theorem forwardClaimedFees_share {t : Totals} (h : Wired w) (eq : books w = .ofTotals t)
    {sender : Address} {gross : ℕ} {event : Event}
    (done : forwardClaimedFees sender gross w = .ok (w', event)) :
    Forwarded gross ((gross + t.revenue % 2) / 2) w event w' := by
  obtain ⟨share, rfl, split, funded⟩ := forwardClaimedFees_ok h done
  have half : w.router.halfRemainder = t.revenue % 2 := congrArg Books.half eq
  have expected : share = (gross + t.revenue % 2) / 2 := by
    rw [split, carry_fst (by decide), half, Nat.mul_one]
  subst expected
  exact ⟨rfl, funded.staking_eq, funded.treasury_eq⟩

end Turret.FeeRouter

namespace Turret.FeeIntents

open Client

variable {answers : ChainClient} {config : Config}

theorem readRouter_counters {head : ℕ} {counters : Counters}
    (h : Gives answers (readRouter config head) counters) :
    Answered answers (.readUint config.router .totalCollected head) counters.collected ∧
      Answered answers (.readUint config.router .totalTreasuryReported head) counters.reported := by
  have reported := readRouter_spec h
  obtain ⟨_, -, h⟩ := gives_bind h
  obtain ⟨_, -, h⟩ := gives_bind h
  obtain ⟨_, -, h⟩ := gives_bind h
  obtain ⟨_, -, h⟩ := gives_bind h
  obtain ⟨_, -, h⟩ := gives_bind h
  obtain ⟨collected, found, h⟩ := gives_bind h
  obtain ⟨_, -, h⟩ := gives_bind h
  obtain ⟨_, -, h⟩ := gives_bind h
  obtain ⟨_, -, h⟩ := gives_bind h
  obtain ⟨_, -, h⟩ := gives_bind h
  obtain ⟨_, -, h⟩ := gives_bind h
  cases gives_pure h
  exact ⟨gives_request found, reported⟩

/-- The two shares of a report, and the counters they come from. -/
theorem reconcileFacilityFees_shares {viem : Viem} {journal : Journal} {report : Report}
    (h : Gives answers (reconcileFacilityFees viem config journal) report) :
    ∃ counters : Counters,
      Answered answers (.readUint config.router .totalCollected report.blockNumber)
        counters.collected ∧
      Answered answers (.readUint config.router .totalTreasuryReported report.blockNumber)
        counters.reported ∧
      report.expectedStakerShare =
        (report.gross + (counters.collected + counters.reported) % 2) / 2 ∧
      report.maximumStakerShare = (report.gross + 1) / 2 := by
  obtain ⟨token, -, h⟩ := gives_bind h
  obtain ⟨⟨latest, head, headHash⟩, -, h⟩ := gives_bind h
  obtain ⟨_, -, h⟩ := gives_bind h
  obtain ⟨counters, router, h⟩ := gives_bind h
  obtain ⟨_, -, h⟩ := gives_bind h
  obtain ⟨_, -, h⟩ := gives_bind h
  obtain ⟨⟨collections, receipts⟩, -, h⟩ := gives_bind h
  obtain ⟨kept, -, h⟩ := gives_bind h
  obtain ⟨_, -, h⟩ := gives_bind h
  obtain ⟨checkedAt, -, h⟩ := gives_bind h
  cases gives_pure h
  obtain ⟨collected, reported⟩ := readRouter_counters router
  exact ⟨counters, collected, reported, rfl, rfl⟩

end Turret.FeeIntents

namespace Turret.FeeRouter

open Execution Function Uint256

variable {w : World}

/-- What holds of the split after the events of a run. -/
structure Split (events : List Event) (w : World) : Prop where
  totals_eq : (books w).totals = .ofEvents events
  distributed_eq : w.router.totalDistributed =
    (w.router.totalCollected + w.router.totalTreasuryReported) / 2
  funded_eq : w.staking.stream.totalFunded = w.router.totalDistributed + w.router.totalSubsidies
  recovered_eq : w.staking.totalRecovered = w.router.totalRecovered
  /-- No call of the router changes what it holds. -/
  unchanged : ∀ c w' event, call c w = .ok (w', event) →
    w'.usdg.balanceOf w.cfg.self = w.usdg.balanceOf w.cfg.self
  /-- Another run with the same revenue, subsidies and recoveries has distributed, carried and funded
  the same. -/
  determined : ∀ start labels w', Deployed start → Run Step start labels w' →
    (books w').totals.revenue = (books w).totals.revenue →
    w'.router.totalSubsidies = w.router.totalSubsidies →
    w'.router.totalRecovered = w.router.totalRecovered →
    w'.router.totalDistributed = w.router.totalDistributed ∧
      w'.router.halfRemainder = w.router.halfRemainder ∧
      RecoverableStaking.counters w'.staking = RecoverableStaking.counters w.staking
  forecast : ∀ viem answers config journal report,
    Client.Gives answers (FeeIntents.reconcileFacilityFees viem config journal) report →
    Reads answers config.router report.blockNumber w → Forecast report w

/-- In every run, whatever the order and the batching of the calls. -/
theorem fee_split {start : World} (h : Deployed start) {labels : List (Option Event)}
    (run : Run Step start labels w) : Split labels.reduceOption w := by
  obtain ⟨wired, eq⟩ := run_books h run
  have totals : (books w).totals = .ofEvents labels.reduceOption := congrArg Books.totals eq
  rw [← totals] at eq
  have distributed : w.router.totalDistributed =
      (w.router.totalCollected + w.router.totalTreasuryReported) / 2 :=
    congrArg Books.distributed eq
  have staking : RecoverableStaking.counters w.staking =
      ⟨(books w).totals.revenue / 2 + w.router.totalSubsidies, w.router.totalSubsidies,
        w.router.totalRecovered⟩ := congrArg Books.staking eq
  refine
    { totals_eq := totals
      distributed_eq := distributed
      funded_eq := ?_
      recovered_eq := congrArg RecoverableStaking.Counters.totalRecovered staking
      unchanged := fun c w' event done => (call_recorded wired done).router_eq
      determined := fun start' labels' w' h' run' revenue subsidies recovered => ?_
      forecast := fun viem answers config journal report given reads => ?_ }
  · rw [distributed]
    exact congrArg RecoverableStaking.Counters.totalFunded staking
  · obtain ⟨-, eq'⟩ := run_books h' run'
    have totals' : (books w').totals = .ofEvents labels'.reduceOption := congrArg Books.totals eq'
    rw [← totals'] at eq'
    have same : Books.ofTotals (books w').totals =
        { Books.ofTotals (books w).totals with totals := (books w').totals } := by
      have subsidies' : (books w').totals.subsidies = (books w).totals.subsidies := subsidies
      have recovered' : (books w').totals.recovered = (books w).totals.recovered := recovered
      simp only [Books.ofTotals, revenue, subsidies', recovered']
    rw [← eq, ← eq'] at same
    exact ⟨congrArg Books.distributed same, congrArg Books.half same, congrArg Books.staking same⟩
  · obtain ⟨counters, collected, reported, expected, maximum⟩ :=
      FeeIntents.reconcileFacilityFees_shares given
    have revenue : (books w).totals.revenue = counters.collected + counters.reported := by
      rw [reads.collected _ collected, reads.reported _ reported]
      rfl
    rw [← revenue] at expected
    refine ⟨fun sender w' event done => ?_, ?_⟩
    · rw [expected]
      exact forwardClaimedFees_share wired eq done
    · rw [expected, maximum]
      omega

/-! A pool with three units of revenue, and four units that the treasury claimed elsewhere: three of
the seven are distributed, and half a unit is carried. -/

def sampleUsdg : TokenLedger Address :=
  (((TokenLedger.empty.mint 2 1000).mint 7 10).approve 1 3 (MODULUS - 1)).approve 2 1 1000

def sampleConfig : RewardStream.Config where
  self := 3
  distributor := 1
  rpow base n unit := if n = 0 then unit else base
  distributor_ne_zero := by decide
  distributor_ne_self := by decide

def sampleStart : World where
  cfg := ⟨1, 2, Address.two_ne_zero, Address.two_ne_one⟩
  router := { Router.empty with poolCodeHash := update (fun _ => none) 7 (some 99), pools := [7] }
  staking := ⟨RewardStream.constructed sampleConfig 0 0 .empty sampleUsdg, 2, 0, 0, 0⟩
  pools := update (fun _ => none) 7 (some ⟨99, 2, 3⟩)

theorem sampleUsdg_allowance (a : Address) :
    sampleUsdg.allowance 1 a = (if a = 3 then MODULUS - 1 else 0) ∧
      sampleUsdg.allowance 3 a = 0 := by
  constructor
  · rw [sampleUsdg, TokenLedger.approve_other (.inl (by decide))]
    by_cases ha : a = 3
    · rw [if_pos ha, ha, TokenLedger.approve_same]
    · rw [if_neg ha, TokenLedger.approve_other (.inr ha)]
      rfl
  · rw [sampleUsdg, TokenLedger.approve_other (.inl (by decide)),
      TokenLedger.approve_other (.inl (by decide))]
    rfl

theorem sampleStart_deployed : Deployed sampleStart where
  staking :=
    { stream := ⟨by decide, fun _ => rfl, fun a => (sampleUsdg_allowance a).2, rfl⟩
      treasury_ne_zero := by decide
      treasury_ne_self := by decide
      subsidies_eq := rfl
      recovered_eq := rfl
      anchor_eq := rfl }
  distributor_eq := rfl
  treasury_eq := rfl
  approved := fun a => (sampleUsdg_allowance a).1
  no_pool := rfl
  router_eq := ⟨[7], by decide, by decide, rfl⟩

def sampleCall (c : Call) (w : World) : World × Event :=
  reached (w, .reserveSubsidized 0) (call c w)

theorem sampleCall_step (c : Call) (w : World) (accepted : (call c w).isOk = true) :
    Step w (some (sampleCall c w).2) (sampleCall c w).1 :=
  .call (eq_ok_reached _ accepted)

def sampleCollected : World := (sampleCall (.collect 7) sampleStart).1

def sampleForwarded : World := (sampleCall (.forwardClaimedFees 2 4) sampleCollected).1

theorem sample_fee_split : ∃ events, Split events sampleForwarded ∧
    sampleForwarded.router.totalDistributed = 3 ∧ sampleForwarded.router.halfRemainder = 1 ∧
    sampleForwarded.staking.stream.totalFunded = 3 :=
  ⟨_, fee_split sampleStart_deployed
    (.cons (sampleCall_step (.collect 7) sampleStart (by decide +kernel))
      (.single (sampleCall_step (.forwardClaimedFees 2 4) sampleCollected (by decide +kernel)))),
    by decide +kernel, by decide +kernel, by decide +kernel⟩

end Turret.FeeRouter

/-! What the router sees of a capital pool is what both pools do: a claim of the
revenue succeeds for the one exactly when it does for the other, and leaves the
same ledger and no fees. -/

namespace Turret

open Execution

/-- A payment of a pool, as the ledger sees it. -/
theorem LenderVault.sendExact_eq_ok {σ : Type} (V : LenderVault σ) {recipient : Address}
    {amount : ℕ} {w w' : σ} :
    V.sendExact recipient amount w = .ok w' ↔
      (recipient ≠ 0 ∧ recipient ≠ V.self w) ∧ ∃ usdg,
        (V.usdg w).sendTo FeeRouter.Error.pool FeeRouter.Error.pool (V.self w) recipient amount =
          .ok usdg ∧ V.move usdg (V.shares w) w = w' := by
  simp only [LenderVault.sendExact, bind_eq_ok, revertIf_eq_ok, exists_const, orRevert_eq_ok,
    pure_eq_ok, not_or, not_not, TokenLedger.sendTo, ne_eq]
  refine and_congr_right fun valid => exists_congr fun usdg => ?_
  constructor
  · rintro ⟨moved, ⟨-, received⟩, rfl⟩
    exact ⟨⟨usdg, moved, received, rfl⟩, rfl⟩
  · rintro ⟨⟨_, moved, received, rfl⟩, rfl⟩
    obtain ⟨held, rfl⟩ := (TokenLedger.transfer_eq_some ..).mp moved
    exact ⟨moved, ⟨TokenLedger.move_src_exact held (.inl (Ne.symm valid.2)), received⟩, rfl⟩

namespace FeeRouter

variable {w w' : World} {hash : ℕ}

theorem claimRevenue_eq_ok {pool : Address} {contract : RevenuePool}
    (found : w.pools pool = some contract) :
    claimRevenue pool w = .ok w' ↔ contract.protocolFees ≠ 0 ∧
      (contract.feeRecipient ≠ 0 ∧ contract.feeRecipient ≠ pool) ∧ ∃ usdg,
        w.usdg.sendTo Error.pool Error.pool pool contract.feeRecipient contract.protocolFees =
          .ok usdg ∧
        { w.withUsdg usdg with
          pools := Function.update w.pools pool (some { contract with protocolFees := 0 }) } = w' := by
  simp only [claimRevenue, found, orRevert, ok_bind, bind_eq_ok, revertIf_eq_ok, exists_const,
    pure_eq_ok, not_or, TokenLedger.sendExact_eq_ok, ne_eq]

/-- What the router sees of a fixed-rate pool. -/
def ofIsolated (hash : ℕ) (p : IsolatedPool.World) : RevenuePool :=
  ⟨hash, p.cfg.feeRecipient, p.pool.protocolFees⟩

theorem claimRevenue_isolated {p : IsolatedPool.World} (ledger : p.usdg = w.usdg)
    (found : w.pools p.cfg.self = some (ofIsolated hash p)) :
    claimRevenue p.cfg.self w = .ok w' ↔ ∃ p', IsolatedPool.claimRevenue p = .ok p' ∧
      { w.withUsdg p'.usdg with
        pools := Function.update w.pools p.cfg.self (some (ofIsolated hash p')) } = w' := by
  simp only [claimRevenue_eq_ok found, IsolatedPool.claimRevenue, bind_eq_ok, revertIf_eq_ok,
    exists_const, LenderVault.sendExact_eq_ok, ← ledger]
  constructor
  · rintro ⟨some_, valid, usdg, sent, rfl⟩
    exact ⟨_, ⟨some_, valid, usdg, sent, rfl⟩, rfl⟩
  · rintro ⟨_, ⟨some_, valid, usdg, sent, rfl⟩, rfl⟩
    exact ⟨some_, valid, usdg, sent, rfl⟩

/-- What the router sees of a variable-rate pool. -/
def ofVariable (hash : ℕ) (p : VariablePool.World) : RevenuePool :=
  ⟨hash, p.cfg.feeRecipient, p.pool.protocolFees⟩

theorem claimRevenue_variable {p : VariablePool.World} (ledger : p.usdg = w.usdg)
    (found : w.pools p.cfg.self = some (ofVariable hash p)) :
    claimRevenue p.cfg.self w = .ok w' ↔ ∃ p', VariablePool.claimRevenue p = .ok p' ∧
      { w.withUsdg p'.usdg with
        pools := Function.update w.pools p.cfg.self (some (ofVariable hash p')) } = w' := by
  simp only [claimRevenue_eq_ok found, VariablePool.claimRevenue, bind_eq_ok, revertIf_eq_ok,
    exists_const, LenderVault.sendExact_eq_ok, ← ledger]
  constructor
  · rintro ⟨some_, valid, usdg, sent, rfl⟩
    exact ⟨_, ⟨some_, valid, usdg, sent, rfl⟩, rfl⟩
  · rintro ⟨_, ⟨some_, valid, usdg, sent, rfl⟩, rfl⟩
    exact ⟨some_, valid, usdg, sent, rfl⟩

end FeeRouter

end Turret
