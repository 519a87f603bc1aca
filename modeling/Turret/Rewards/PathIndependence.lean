import Turret.Rewards.RecoverableSolvency
import Turret.Rewards.RewardStream
import Turret.Rewards.StreamPaths

/-! Two runs of a staking contract with the same stakes and fundings at the
same times end alike, whatever was claimed, and when. -/

namespace Turret.RewardStream

open Execution Finset Function Rounding Uint256

variable {w w' : World} {a sender : Address} {amount : ℕ}

/-! ### One step -/

/-- A step of the stream: the seconds it takes, and the change it makes to the share. -/
structure Stepped (change : Option (StreamChange Address)) (seconds : ℕ) (w w' : World) : Prop where
  steady : Steady w'
  cfg_eq : w'.cfg = w.cfg
  now_eq : w'.now = w.now + seconds
  share_eq : ∀ t, (share w').advance w.cfg.decay t =
    (match change with
      | none => share w
      | some c => ((share w).advance w.cfg.decay w.now).apply c).advance w.cfg.decay t

theorem Stepped.stake (h : Steady w) (done : stake sender amount w = .ok w') :
    Stepped (some (.weigh sender amount)) 0 w w' := by
  obtain ⟨-, balanced, token, -, rfl⟩ := stake_ok h done
  exact ⟨h.stake balanced sender amount token, rfl, rfl,
    fun t => by rw [share_afterStake h balanced]⟩

theorem Stepped.unstake (h : Steady w) (done : unstake sender amount w = .ok w') :
    Stepped (some (.weigh sender (-amount))) 0 w w' := by
  obtain ⟨⟨-, within⟩, balanced, token, -, rfl⟩ := unstake_ok h done
  exact ⟨h.unstake balanced within token, rfl, rfl,
    fun t => by rw [share_afterUnstake h balanced within]⟩

theorem Stepped.claim (h : Steady w) (done : claim sender w = .ok w') : Stepped none 0 w w' := by
  obtain ⟨balanced, token, rfl, -⟩ := claim_ok h done
  refine ⟨h.claim balanced sender token, rfl, rfl, fun t => ?_⟩
  rw [share_afterClaim, share_advanced h balanced, StreamShare.advance_advance]

theorem Stepped.receiveFunding (h : Steady w) (zero : w.cfg.retention 0 = RAY)
    (done : receiveFunding sender amount w = .ok w') :
    Stepped (some (.fund (amount * RAY : ℕ))) 0 w w' := by
  obtain ⟨balanced, token, -, rfl⟩ := receiveFunding_result h done
  exact ⟨h.funding zero balanced amount token, rfl, rfl,
    fun t => by rw [share_afterFunding h balanced]⟩

theorem Stepped.callStakingToken {call : TokenCall Address} (h : Steady w)
    (done : callStakingToken call w = .ok w') : Stepped none 0 w w' := by
  simp only [RewardStream.callStakingToken, bind_eq_ok, pure_eq_ok] at done
  obtain ⟨token, -, rfl⟩ := done
  exact ⟨{ h with }, rfl, rfl, fun _ => rfl⟩

theorem Stepped.callRewardToken {call : TokenCall Address} (h : Steady w)
    (done : callRewardToken call w = .ok w') : Stepped none 0 w w' := by
  simp only [RewardStream.callRewardToken, bind_eq_ok, pure_eq_ok] at done
  obtain ⟨token, -, rfl⟩ := done
  exact ⟨{ h with }, rfl, rfl, fun _ => rfl⟩

theorem Stepped.elapse {seconds blocks : ℕ} (h : Steady w)
    (done : elapse seconds blocks w = .ok w') : Stepped none seconds w w' := by
  simp only [RewardStream.elapse, bind_eq_ok, revertIf_eq_ok, exists_const, pure_eq_ok] at done
  obtain ⟨-, rfl⟩ := done
  exact ⟨{ h with updated_le := h.updated_le.trans (Nat.le_add_right ..) }, rfl, rfl, fun _ => rfl⟩

/-! ### What two streams have in common -/

/-- The same stakes, and the same answers of the views that return. -/
structure Alike (w w' : World) : Prop where
  totalStaked_eq : w.totalStaked = w'.totalStaked
  stakedBalance_eq : w.stakedBalance = w'.stakedBalance
  index_eq : ∀ i i', rewardPerToken w = .ok i → rewardPerToken w' = .ok i' → i = i'
  reserve_eq : ∀ r r', reserveRay w = .ok r → reserveRay w' = .ok r' → r = r'
  earned_eq : ∀ a e e', earned a w = .ok e → earned a w' = .ok e' →
    w.claimed a + e = w'.claimed a + e'

/-- Every view returns. -/
structure Shown (w : World) : Prop where
  index : ∃ i, rewardPerToken w = .ok i
  reserve : ∃ r, reserveRay w = .ok r
  earned : ∀ a, ∃ e, RewardStream.earned a w = .ok e

theorem Sound.shown {net : ℕ} (h : Sound net w) : Shown w :=
  ⟨⟨_, h.rewardPerToken_eq⟩, ⟨_, h.reserveRay_eq⟩, fun a => ⟨_, h.earned_eq a⟩⟩

/-- Streams whose shares agree at every time. -/
theorem alike_of_share (h : Steady w) (h' : Steady w') (cfg : w'.cfg = w.cfg) (now : w.now = w'.now)
    (same : ∀ t, (share w).advance w.cfg.decay t = (share w').advance w.cfg.decay t) :
    Alike w w' := by
  have present := same w.now
  have staked : w.stakedBalance = w'.stakedBalance := funext fun a =>
    Int.natCast_inj.mp (congrFun (congrArg StreamShare.weight present) a)
  have left (v : World) : (share v).remainingAt v.cfg.decay v.now =
      ((share v).advance v.cfg.decay v.now).reserve -
        ((share v).advance v.cfg.decay v.now).released := by
    change _ = (share v).reserve - ((share v).released + (share v).emission v.cfg.decay v.now)
    rw [StreamShare.emission]
    ring
  rw [now] at present
  refine
    { totalStaked_eq := Int.natCast_inj.mp (congrArg StreamShare.total present)
      stakedBalance_eq := staked
      index_eq := fun i i' first second => ?_
      reserve_eq := fun r r' first second => ?_
      earned_eq := fun a e e' first second => ?_ }
  · have shown := (rewardPerToken_ok h first).2
    have shown' := (rewardPerToken_ok h' second).2
    rw [now, present] at shown
    rw [cfg] at shown'
    exact Int.natCast_inj.mp (shown.trans shown'.symm)
  · have shown := reserveRay_ok h first
    have shown' := reserveRay_ok h' second
    rw [left, now, present] at shown
    rw [left, cfg] at shown'
    exact Int.natCast_inj.mp (shown.trans shown'.symm)
  · have shown := earned_ok h first
    have shown' := earned_ok h' second
    rw [now, present] at shown
    rw [cfg] at shown'
    exact Int.natCast_inj.mp (shown.trans shown'.symm)

end Turret.RewardStream

namespace Turret

open Execution Finset Function RewardStream

/-- A contract that runs a reward stream. -/
structure StakingContract where
  Op : Type
  State : Type
  exec : Op → State → Except RewardStream.Error State
  stream : State → RewardStream.World
  Deployed : State → Prop
  /-- A stake, an unstake, a funding or a recovery. -/
  scheduled : Op → Bool
  seconds : Op → ℕ
  claim : Address → Op
  stake : Address → ℕ → Op

namespace StakingContract

variable (c : StakingContract)

/-- The scheduled operations of a run, each with its time. -/
def schedule (start : ℕ) : List c.Op → List (ℕ × c.Op)
  | [] => []
  | op :: ops =>
    if c.scheduled op then (start, op) :: schedule (start + c.seconds op) ops
    else schedule (start + c.seconds op) ops

/-- Runs with one schedule are alike at a common time; where the retention decays, every view
returns. -/
def PathIndependent : Prop :=
  ∀ s₀ s₁ s₂ ops₁ ops₂, c.Deployed s₀ → (c.stream s₀).cfg.retention 0 = RAY →
    Run (accepts c.exec) s₀ ops₁ s₁ → Run (accepts c.exec) s₀ ops₂ s₂ →
    c.schedule (c.stream s₀).now ops₁ = c.schedule (c.stream s₀).now ops₂ →
    (c.stream s₁).now = (c.stream s₂).now →
    Alike (c.stream s₁) (c.stream s₂) ∧
      ((c.stream s₀).cfg.Decays → Shown (c.stream s₁) ∧ Shown (c.stream s₂))

/-- A claim moves nobody else's earnings, and a stake nobody's: what it earns starts with it. -/
def Undisturbed : Prop :=
  ∀ s₀ s ops, c.Deployed s₀ → (c.stream s₀).cfg.retention 0 = RAY →
    Run (accepts c.exec) s₀ ops s →
    (∀ a b s' e e', c.exec (c.claim a) s = .ok s' → b ≠ a →
      earned b (c.stream s) = .ok e → earned b (c.stream s') = .ok e' → e = e') ∧
    ∀ a b amount s' e e', c.exec (c.stake a amount) s = .ok s' →
      earned b (c.stream s) = .ok e → earned b (c.stream s') = .ok e' → e = e'

/-- What is asked of a contract: each operation is a step of the stream. -/
structure Lawful (change : c.Op → Option (StreamChange Address)) : Prop where
  scheduled_eq : ∀ op, c.scheduled op = (change op).isSome
  deployed : ∀ s, c.Deployed s → ∃ cfg now block stakingToken rewardToken,
    c.stream s = constructed cfg now block stakingToken rewardToken
  stepped : ∀ op s s', Steady (c.stream s) → (c.stream s).cfg.retention 0 = RAY →
    c.exec op s = .ok s' → Stepped (change op) (c.seconds op) (c.stream s) (c.stream s')
  claimed : ∀ a s s', c.exec (c.claim a) s = .ok s' →
    RewardStream.claim a (c.stream s) = .ok (c.stream s')
  staked : ∀ a amount s s', c.exec (c.stake a amount) s = .ok s' →
    RewardStream.stake a amount (c.stream s) = .ok (c.stream s')
  sound : ∀ s₀ s ops, c.Deployed s₀ → (c.stream s₀).cfg.Decays → Run (accepts c.exec) s₀ ops s →
    ∃ net, Sound net (c.stream s)

/-! ### One contract -/

variable {c}
variable {change : c.Op → Option (StreamChange Address)} {s s₀ s' : c.State} {ops : List c.Op}

/-- The changes of a schedule. -/
def changes (change : c.Op → Option (StreamChange Address)) (schedule : List (ℕ × c.Op)) :
    List (ℤ × StreamChange Address) :=
  schedule.filterMap fun entry => (change entry.2).map fun moved => ((entry.1 : ℤ), moved)

def elapsed (ops : List c.Op) : ℕ := (ops.map c.seconds).sum

theorem schedule_snoc (start : ℕ) (ops : List c.Op) (op : c.Op) :
    c.schedule start (ops ++ [op]) =
      c.schedule start ops ++ if c.scheduled op then [(start + elapsed ops, op)] else [] := by
  induction ops generalizing start with
  | nil =>
    simp only [List.nil_append, schedule, elapsed, List.map_nil, List.sum_nil, Nat.add_zero]
  | cons first rest ih =>
    have time : start + c.seconds first + elapsed rest = start + elapsed (first :: rest) := by
      rw [elapsed, elapsed, List.map_cons, List.sum_cons, Nat.add_assoc]
    simp only [List.cons_append, schedule, ih, time]
    split_ifs <;> simp

theorem changes_append (xs ys : List (ℕ × c.Op)) :
    changes change (xs ++ ys) = changes change xs ++ changes change ys :=
  List.filterMap_append ..

/-- The stream after a run: its share is the replay of the changes, at every later time. -/
structure Replays (change : c.Op → Option (StreamChange Address)) (s₀ : c.State) (ops : List c.Op)
    (s : c.State) : Prop where
  steady : Steady (c.stream s)
  cfg_eq : (c.stream s).cfg = (c.stream s₀).cfg
  now_eq : (c.stream s).now = (c.stream s₀).now + elapsed ops
  share_eq : ∀ t, (share (c.stream s)).advance (c.stream s₀).cfg.decay t =
    ((share (c.stream s₀)).replay (c.stream s₀).cfg.decay
      (changes change (c.schedule (c.stream s₀).now ops))).advance (c.stream s₀).cfg.decay t

theorem Replays.step {op : c.Op} (lawful : c.Lawful change)
    (zero : (c.stream s₀).cfg.retention 0 = RAY) (h : Replays change s₀ ops s)
    (done : c.exec op s = .ok s') : Replays change s₀ (ops ++ [op]) s' := by
  have stepped := lawful.stepped op s s' h.steady (h.cfg_eq ▸ zero) done
  have counted := lawful.scheduled_eq op
  have time : elapsed (ops ++ [op]) = elapsed ops + c.seconds op := by
    rw [elapsed, List.map_append, List.sum_append, List.map_singleton, List.sum_singleton, elapsed]
  refine ⟨stepped.steady, stepped.cfg_eq.trans h.cfg_eq, ?_, fun t => ?_⟩
  · rw [stepped.now_eq, h.now_eq, time, Nat.add_assoc]
  · have moved := stepped.share_eq t
    rw [h.cfg_eq] at moved
    rw [moved, schedule_snoc, changes_append, counted]
    cases kind : change op with
    | none =>
      simp only [Option.isSome_none, Bool.false_eq_true, if_false, changes, List.filterMap_nil,
        List.append_nil]
      exact h.share_eq t
    | some moved =>
      have one : changes change [((c.stream s₀).now + elapsed ops, op)] =
          [(((c.stream s).now : ℤ), moved)] := by
        rw [h.now_eq]
        simp [changes, kind]
      simp only [Option.isSome_some, if_true, one]
      rw [StreamShare.replay_snoc, h.share_eq]

theorem steady_constructed (cfg : Config) (now block : ℕ)
    (stakingToken rewardToken : TokenLedger Address) :
    Steady (constructed cfg now block stakingToken rewardToken) where
  staked_eq := sum_const_zero.symm
  updated_le := le_rfl
  anchored_le := le_rfl
  accounted_eq := Rounding.mulDiv_zero_left ..
  remainder_lt some := absurd rfl some
  remainder_eq _ := rfl
  paid_le _ := le_rfl
  fraction_lt _ := SCALE_pos

namespace Lawful

variable (lawful : c.Lawful change)

include lawful

theorem steady (deployed : c.Deployed s) : Steady (c.stream s) := by
  obtain ⟨cfg, now, block, stakingToken, rewardToken, same⟩ := lawful.deployed s deployed
  rw [same]
  exact steady_constructed ..

theorem replays (deployed : c.Deployed s₀) (zero : (c.stream s₀).cfg.retention 0 = RAY)
    (run : Run (accepts c.exec) s₀ ops s) : Replays change s₀ ops s :=
  run.history (Replays change s₀) (fun _ _ _ _ before done => before.step lawful zero done)
    ⟨lawful.steady deployed, rfl, rfl, fun _ => rfl⟩

theorem pathIndependent : c.PathIndependent := by
  intro s₀ s₁ s₂ ops₁ ops₂ deployed zero first second same now
  have one := lawful.replays deployed zero first
  have two := lawful.replays deployed zero second
  refine ⟨?_, fun decays => ⟨?_, ?_⟩⟩
  · refine alike_of_share one.steady two.steady (two.cfg_eq.trans one.cfg_eq.symm) now fun t => ?_
    rw [one.cfg_eq, one.share_eq, two.share_eq, same]
  · obtain ⟨net, sound⟩ := lawful.sound s₀ s₁ ops₁ deployed decays first
    exact sound.shown
  · obtain ⟨net, sound⟩ := lawful.sound s₀ s₂ ops₂ deployed decays second
    exact sound.shown

theorem undisturbed : c.Undisturbed := by
  intro s₀ s ops deployed zero run
  have before := lawful.replays deployed zero run
  have steady := before.steady
  refine ⟨fun a b s' e e' done other first second => ?_,
    fun a b amount s' e e' done first second => ?_⟩
  · have claimed := lawful.claimed a s s' done
    have stepped := Stepped.claim steady claimed
    have alike := alike_of_share steady stepped.steady stepped.cfg_eq stepped.now_eq.symm
      fun t => (stepped.share_eq t).symm
    have total := alike.earned_eq b e e' first second
    obtain ⟨-, token, paid, -⟩ := claim_ok steady claimed
    have untouched : (c.stream s').claimed b = (c.stream s).claimed b := by
      rw [paid, afterClaim]
      exact update_of_ne other ..
    omega
  · have staked := lawful.staked a amount s s' done
    obtain ⟨-, balanced, token, -, paid⟩ := stake_ok steady staked
    have stepped := Stepped.stake steady staked
    have shown := earned_ok steady first
    have shown' := earned_ok stepped.steady second
    have untouched : (c.stream s').claimed = (c.stream s).claimed := by
      rw [paid]
      rfl
    rw [stepped.cfg_eq, stepped.share_eq, stepped.now_eq, Nat.add_zero,
      StreamShare.worth_weigh, ← shown, untouched] at shown'
    omega

end Lawful

end StakingContract

end Turret

namespace Turret.StreamingStaking

open Execution RewardStream

variable {w w' : World}

def Op.scheduled : Op → Bool
  | .stake .. | .unstake .. | .distribute .. => true
  | _ => false

def Op.seconds : Op → ℕ
  | .elapse seconds _ => seconds
  | _ => 0

def Op.change : Op → Option (StreamChange Address)
  | .stake sender amount => some (.weigh sender amount)
  | .unstake sender amount => some (.weigh sender (-amount))
  | .distribute _ amount => some (.fund (amount * RAY : ℕ))
  | _ => none

def contract : StakingContract where
  Op := Op
  State := World
  exec := exec
  stream w := w
  Deployed := Deployed
  scheduled := Op.scheduled
  seconds := Op.seconds
  claim := .claim
  stake := .stake

theorem exec_stepped {op : Op} (h : Steady w) (zero : w.cfg.retention 0 = RAY)
    (done : exec op w = .ok w') : Stepped op.change op.seconds w w' := by
  simp only [exec, bind_eq_ok, revertIf_eq_ok, exists_const] at done
  obtain ⟨-, done⟩ := done
  cases op with
  | stake sender amount => exact .stake h done
  | unstake sender amount => exact .unstake h done
  | claim sender => exact .claim h done
  | distribute sender amount =>
    simp only [distribute, bind_eq_ok] at done
    obtain ⟨-, -, funded⟩ := done
    exact .receiveFunding h zero funded
  | stakingToken call => exact .callStakingToken h done
  | rewardToken call => exact .callRewardToken h done
  | elapse seconds blocks => exact .elapse h done

theorem exec_sound {op : Op} {net : ℕ} (h : Sound net w) (done : exec op w = .ok w') :
    ∃ net, Sound net w' := by
  have steady := h.toSteady
  simp only [exec, bind_eq_ok, revertIf_eq_ok, exists_const] at done
  obtain ⟨away, done⟩ := done
  cases op with
  | stake sender amount =>
    obtain ⟨⟨-, room⟩, -, token, pulled, rfl⟩ := stake_ok steady done
    exact ⟨_, h.stake room pulled⟩
  | unstake sender amount =>
    obtain ⟨⟨-, within⟩, -, token, sent, rfl⟩ := unstake_ok steady done
    exact ⟨_, h.unstake within sent⟩
  | claim sender =>
    obtain ⟨-, token, rfl, paid⟩ := claim_ok steady done
    exact ⟨_, h.claim paid⟩
  | distribute sender amount =>
    simp only [distribute, checkFunding, bind_eq_ok, revertIf_eq_ok, checkedSub_eq_ok, exists_const,
      not_lt] at done
    obtain ⟨⟨-, -, room, ⟨fits, rfl⟩, within⟩, funded⟩ := done
    obtain ⟨-, token, pulled, rfl⟩ := receiveFunding_result steady funded
    exact ⟨_, h.funding (by omega) pulled⟩
  | stakingToken call =>
    simp only [callStakingToken, bind_eq_ok, orRevert_eq_ok, pure_eq_ok] at done
    obtain ⟨token, called, rfl⟩ := done
    exact ⟨_, h.callStakingToken called away⟩
  | rewardToken call =>
    simp only [callRewardToken, bind_eq_ok, orRevert_eq_ok, pure_eq_ok] at done
    obtain ⟨token, called, rfl⟩ := done
    exact ⟨_, h.callRewardToken called away⟩
  | elapse seconds blocks =>
    simp only [elapse, bind_eq_ok, revertIf_eq_ok, exists_const, not_le, pure_eq_ok] at done
    obtain ⟨fits, rfl⟩ := done
    exact ⟨_, h.elapse fits⟩

theorem exec_claim {a : Address} (done : exec (.claim a) w = .ok w') : claim a w = .ok w' := by
  simp only [exec, bind_eq_ok] at done
  obtain ⟨-, -, called⟩ := done
  exact called

theorem exec_stake {a : Address} {amount : ℕ} (done : exec (.stake a amount) w = .ok w') :
    stake a amount w = .ok w' := by
  simp only [exec, bind_eq_ok] at done
  obtain ⟨-, -, called⟩ := done
  exact called

theorem contract_lawful : contract.Lawful Op.change where
  scheduled_eq op := by cases op <;> rfl
  deployed w h := ⟨_, _, _, _, _, h.storage_eq⟩
  stepped _ _ _ steady zero done := exec_stepped steady zero done
  claimed _ _ _ done := exec_claim done
  staked _ _ _ _ done := exec_stake done
  sound w₀ w ops deployed decays run :=
    run.invariant (fun w => ∃ net, Sound net w) (fun _ _ _ ⟨_, sound⟩ done => exec_sound sound done)
      ⟨0, Deployed.sound deployed decays⟩

end Turret.StreamingStaking

namespace Turret.RecoverableStaking

open Execution RewardStream

variable {w w' : World}

def Op.scheduled : Op → Bool
  | .stake .. | .unstake .. | .distribute .. | .distributeSubsidy .. | .recoverSubsidy .. => true
  | _ => false

def Op.seconds : Op → ℕ
  | .elapse seconds _ => seconds
  | _ => 0

def Op.change : Op → Option (StreamChange Address)
  | .stake sender amount => some (.weigh sender amount)
  | .unstake sender amount => some (.weigh sender (-amount))
  | .distribute _ amount | .distributeSubsidy _ amount => some (.fund (amount * RAY : ℕ))
  | .recoverSubsidy _ amount => some (.fund (-(amount * RAY : ℕ)))
  | _ => none

def contract : StakingContract where
  Op := Op
  State := World
  exec := exec
  stream := World.stream
  Deployed := Deployed
  scheduled := Op.scheduled
  seconds := Op.seconds
  claim := .claim
  stake := .stake

theorem onStream_stream {call : RewardStream.World → Except Error RewardStream.World}
    (done : onStream call w = .ok w') : call w.stream = .ok w'.stream := by
  simp only [onStream, bind_eq_ok, pure_eq_ok] at done
  obtain ⟨stream, called, rfl⟩ := done
  exact called

theorem fund_stepped {subsidy : Bool} {sender : Address} {amount : ℕ} (h : Steady w.stream)
    (zero : w.stream.cfg.retention 0 = RAY) (done : fund sender amount subsidy w = .ok w') :
    Stepped (some (.fund (amount * RAY : ℕ))) 0 w.stream w'.stream := by
  obtain ⟨-, balanced, token, -, rfl⟩ := fund_result h done
  exact ⟨h.funding zero balanced amount token, rfl, rfl,
    fun t => congrArg (StreamShare.advance _ t) (share_afterFunding h balanced amount token)⟩

theorem exec_stepped {op : Op} (h : Steady w.stream) (zero : w.stream.cfg.retention 0 = RAY)
    (done : exec op w = .ok w') : Stepped op.change op.seconds w.stream w'.stream := by
  simp only [exec, bind_eq_ok, revertIf_eq_ok, exists_const] at done
  obtain ⟨-, done⟩ := done
  cases op with
  | stake sender amount => exact .stake h (onStream_stream done)
  | unstake sender amount => exact .unstake h (onStream_stream done)
  | claim sender => exact .claim h (onStream_stream done)
  | distribute sender amount => exact fund_stepped h zero done
  | distributeSubsidy sender amount => exact fund_stepped h zero done
  | recoverSubsidy sender amount =>
    obtain ⟨⟨-, -, -, within⟩, balanced, token, -, rfl⟩ := recoverSubsidy_result h done
    exact ⟨h.recovery zero balanced amount token, rfl, rfl,
      fun t => congrArg (StreamShare.advance _ t) (share_afterRecovery h balanced within token)⟩
  | stakingToken call => exact .callStakingToken h (onStream_stream done)
  | rewardToken call => exact .callRewardToken h (onStream_stream done)
  | elapse seconds blocks => exact .elapse h (onStream_stream done)

theorem exec_claim {a : Address} (done : exec (.claim a) w = .ok w') :
    claim a w.stream = .ok w'.stream := by
  simp only [exec, bind_eq_ok] at done
  obtain ⟨-, -, called⟩ := done
  exact onStream_stream called

theorem exec_stake {a : Address} {amount : ℕ} (done : exec (.stake a amount) w = .ok w') :
    stake a amount w.stream = .ok w'.stream := by
  simp only [exec, bind_eq_ok] at done
  obtain ⟨-, -, called⟩ := done
  exact onStream_stream called

theorem contract_lawful : contract.Lawful Op.change where
  scheduled_eq op := by cases op <;> rfl
  deployed w h := ⟨_, _, _, _, _, h.stream.storage_eq⟩
  stepped _ _ _ steady zero done := exec_stepped steady zero done
  claimed _ _ _ done := exec_claim done
  staked _ _ _ _ done := exec_stake done
  sound _ _ _ deployed decays run := ⟨_, (run_solvent deployed decays run).sound⟩

end Turret.RecoverableStaking

namespace Turret

open Execution RewardStream

/-- In both staking contracts what accounts receive and have earned does not depend on who claims,
and when. -/
theorem rewards_path_independent :
    (StreamingStaking.contract.PathIndependent ∧ StreamingStaking.contract.Undisturbed) ∧
      RecoverableStaking.contract.PathIndependent ∧ RecoverableStaking.contract.Undisturbed :=
  ⟨⟨StreamingStaking.contract_lawful.pathIndependent, StreamingStaking.contract_lawful.undisturbed⟩,
    RecoverableStaking.contract_lawful.pathIndependent,
    RecoverableStaking.contract_lawful.undisturbed⟩

/-- The sample's staker claims at the end of the run. -/
def sampleClaimed : RecoverableStaking.World :=
  reached RecoverableStaking.sampleStart (execAll RecoverableStaking.exec
    (RecoverableStaking.sampleOps ++ [.claim 4]) RecoverableStaking.sampleStart)

theorem sampleClaimed_run : Run (accepts RecoverableStaking.exec) RecoverableStaking.sampleStart
    (RecoverableStaking.sampleOps ++ [.claim 4]) sampleClaimed :=
  run_of_execAll (eq_ok_reached RecoverableStaking.sampleStart (by decide +kernel))

theorem sample_rewards_path_independent :
    Alike RecoverableStaking.sample.stream sampleClaimed.stream := by
  have now : RecoverableStaking.sample.stream.now = sampleClaimed.stream.now := by decide +kernel
  exact (rewards_path_independent.2.1 _ _ _ _ _ RecoverableStaking.sampleStart_deployed
    RecoverableStaking.sampleConfig_decays.zero RecoverableStaking.sample_run sampleClaimed_run rfl
    now).1

end Turret
