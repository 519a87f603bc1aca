import Turret.Library.RoundedPower
import Turret.Rewards.PathIndependence

/-! The decay of a reward stream with powers that are rounded to the nearest.
The retention never rises, so no accrual underflows however late it comes:
time alone stops no call, and only a new anchor puts the reserve up. -/

namespace Turret.RewardStream

open Execution Finset Function Rounding Uint256

variable {w w' : World} {a sender : Address} {amount net : ℕ}

theorem retention_le_ray : RETENTION_PER_SECOND ≤ RAY := by
  rw [RAY]
  decide

theorem Config.decays_of_rpow {cfg : Config} (rounded : cfg.rpow = Rounding.rpow) : cfg.Decays where
  zero := by
    rw [Config.retention, rounded, rpow_zero]
  antitone m n le := by
    rw [Config.retention, Config.retention, rounded]
    exact rpow_antitone RAY_pos retention_le_ray le

/-! ### Between two anchors -/

/-- The anchor stays where it is, and the active time does not run back. -/
structure Holding (w w' : World) : Prop where
  cfg_eq : w'.cfg = w.cfg
  reserve_eq : w'.anchorReserveRay = w.anchorReserveRay
  anchor_eq : w'.anchorActiveSeconds = w.anchorActiveSeconds
  active_le : activeAt w ≤ activeAt w'

theorem Holding.refl (w : World) : Holding w w := ⟨rfl, rfl, rfl, le_rfl⟩

theorem Holding.trans {w'' : World} (first : Holding w w') (second : Holding w' w'') :
    Holding w w'' :=
  ⟨second.cfg_eq.trans first.cfg_eq, second.reserve_eq.trans first.reserve_eq,
    second.anchor_eq.trans first.anchor_eq, first.active_le.trans second.active_le⟩

theorem Holding.remaining_le (h : Holding w w') (decays : w.cfg.Decays) :
    remainingNow w' ≤ remainingNow w := by
  have later := decays.antitone _ _ (Nat.sub_le_sub_right h.active_le w.anchorActiveSeconds)
  rw [remainingNow, remainingAt, h.cfg_eq, h.reserve_eq, h.anchor_eq]
  exact Nat.div_le_div_right (Nat.mul_le_mul_left _ later)

/-- Right after an accrual the active time is the one recorded. -/
theorem activeAt_of_updated (updated : w.lastUpdate = w.now) : activeAt w = w.activeSeconds := by
  rw [activeAt, updated, Nat.sub_self, Nat.add_zero, ite_self]

theorem Holding.of_accrued (cfg : w'.cfg = w.cfg) (reserve : w'.anchorReserveRay = w.anchorReserveRay)
    (anchor : w'.anchorActiveSeconds = w.anchorActiveSeconds) (updated : w'.lastUpdate = w'.now)
    (active : w'.activeSeconds = activeAt w) : Holding w w' :=
  ⟨cfg, reserve, anchor, by rw [activeAt_of_updated updated, active]⟩

theorem Holding.stake (h : Steady w) (done : stake sender amount w = .ok w') : Holding w w' := by
  obtain ⟨-, -, token, -, rfl⟩ := stake_ok h done
  exact .of_accrued rfl rfl rfl rfl rfl

theorem Holding.unstake (h : Steady w) (done : unstake sender amount w = .ok w') :
    Holding w w' := by
  obtain ⟨-, -, token, -, rfl⟩ := unstake_ok h done
  exact .of_accrued rfl rfl rfl rfl rfl

theorem Holding.claim (h : Steady w) (done : claim sender w = .ok w') : Holding w w' := by
  obtain ⟨-, token, rfl, -⟩ := claim_ok h done
  exact .of_accrued rfl rfl rfl rfl rfl

theorem Holding.callStakingToken {call : TokenCall Address}
    (done : callStakingToken call w = .ok w') : Holding w w' := by
  simp only [RewardStream.callStakingToken, bind_eq_ok, pure_eq_ok] at done
  obtain ⟨token, -, rfl⟩ := done
  exact ⟨rfl, rfl, rfl, le_rfl⟩

theorem Holding.callRewardToken {call : TokenCall Address}
    (done : callRewardToken call w = .ok w') : Holding w w' := by
  simp only [RewardStream.callRewardToken, bind_eq_ok, pure_eq_ok] at done
  obtain ⟨token, -, rfl⟩ := done
  exact ⟨rfl, rfl, rfl, le_rfl⟩

theorem Holding.elapse {seconds blocks : ℕ} (done : elapse seconds blocks w = .ok w') :
    Holding w w' := by
  simp only [RewardStream.elapse, bind_eq_ok, revertIf_eq_ok, exists_const, pure_eq_ok] at done
  obtain ⟨-, rfl⟩ := done
  refine ⟨rfl, rfl, rfl, ?_⟩
  rw [activeAt, activeAt]
  by_cases none : w.totalStaked = 0
  · rw [if_pos none, if_pos none]
  · rw [if_neg none, if_neg none]
    exact Nat.add_le_add_left (Nat.sub_le_sub_right (Nat.le_add_right ..) _) _

/-- Whoever has the tokens, and room under the cap, can stake. -/
theorem Sound.stake_succeeds (h : Sound net w) (apart : sender ≠ w.self) (some : amount ≠ 0)
    (room : w.totalStaked + amount ≤ UINT128_MAX)
    (allowed : amount ≤ w.stakingToken.allowance sender w.self)
    (funded : amount ≤ w.stakingToken.balanceOf sender) :
    ∃ w', RewardStream.stake sender amount w = .ok w' := by
  have part := le_sum w.stakedBalance sender
  have sum := h.staked_eq
  have word := lt_modulus_of_le_max room
  have pulled : ∃ token, w.stakingToken.pullExact Error.erc20 Error.unsupportedTransfer w.self
      sender w.self amount = .ok token :=
    ⟨_, TokenLedger.pullExact_eq_ok.mpr
      (TokenLedger.pullTo_eq_ok.mpr ⟨allowed, funded, .inl apart, rfl⟩)⟩
  obtain ⟨token, pulled⟩ := pulled
  have staked : w.stakedBalance sender + amount < MODULUS := by omega
  simp only [RewardStream.stake, bind_eq_ok, revertIf_eq_ok, checkedSub_eq_ok, checkedAdd_eq_ok,
    exists_const, not_lt, h.checkpoint_eq, Except.ok.injEq, exists_eq_left', pure_eq_ok]
  exact ⟨_, some, _, ⟨by omega, rfl⟩, by omega, _, pulled, _, ⟨staked, rfl⟩, _, ⟨word, rfl⟩, rfl⟩

end Turret.RewardStream

namespace Turret

open Execution Function RewardStream Uint256

/-- A staking contract with the operations that the passage of time might stop. -/
structure TimedContract extends StakingContract where
  unstake : Address → ℕ → Op
  elapse : ℕ → ℕ → Op
  /-- A funding or a recovery. -/
  anchors : Op → Bool

namespace TimedContract

/-- The emission does not underflow, and no account is kept from its calls. -/
structure Open (c : TimedContract) (s : c.State) : Prop where
  streams : ∃ stream, streamNow (c.stream s) = .ok stream ∧
    stream.remaining + (c.stream s).accountedAnchorReleaseRay + stream.emission =
      (c.stream s).anchorReserveRay
  claims : ∀ a, a ≠ (c.stream s).self → ∃ t, c.exec (c.claim a) s = .ok t
  unstakes : ∀ a amount, a ≠ (c.stream s).self → amount ≠ 0 →
    amount ≤ (c.stream s).stakedBalance a → (c.stream s).lastStakeBlock a < (c.stream s).block →
    ∃ t, c.exec (c.unstake a amount) s = .ok t
  stakes : ∀ a amount, a ≠ (c.stream s).self → amount ≠ 0 →
    (c.stream s).totalStaked + amount ≤ UINT128_MAX →
    amount ≤ (c.stream s).stakingToken.allowance a (c.stream s).self →
    amount ≤ (c.stream s).stakingToken.balanceOf a →
    ∃ t, c.exec (c.stake a amount) s = .ok t

/-- With powers rounded to the nearest, in every reachable state: after any time, up to the last
second that a word can tell, the contract is open, and without a new anchor its reserve is no
larger, whatever else was called. -/
def Enduring (c : TimedContract) : Prop :=
  ∀ s₀ s ops, c.Deployed s₀ → (c.stream s₀).cfg.rpow = Rounding.rpow →
    Run (accepts c.exec) s₀ ops s →
    (∀ seconds blocks, (c.stream s).now + seconds < MODULUS →
      ∃ t, c.exec (c.elapse seconds blocks) s = .ok t ∧
        (c.stream t).now = (c.stream s).now + seconds ∧
        (c.stream t).block = (c.stream s).block + blocks ∧ c.Open t) ∧
    ∀ t later r r', Run (accepts c.exec) s later t → (∀ op ∈ later, c.anchors op = false) →
      reserveRay (c.stream s) = .ok r → reserveRay (c.stream t) = .ok r' → r' ≤ r

/-- The contract passes an operation on to the stream. -/
def Forwards (c : TimedContract) (op : c.Op) (sender : Option Address)
    (call : RewardStream.World → Except RewardStream.Error RewardStream.World) : Prop :=
  ∀ s w, sender ≠ some (c.stream s).self → call (c.stream s) = .ok w →
    ∃ t, c.exec op s = .ok t ∧ c.stream t = w

theorem passes {ε α : Type} {refused : Prop} [Decidable refused] {e : ε} {call : Except ε α} {a : α}
    (free : ¬refused) (called : call = .ok a) :
    (do
      revertIf refused e
      call) = .ok a := by
  rw [revertIf, if_neg free, ok_bind, called]

/-- What is asked of a contract. -/
structure Timed (c : TimedContract) : Prop where
  sound : ∀ s₀ s ops, c.Deployed s₀ → (c.stream s₀).cfg.Decays → Run (accepts c.exec) s₀ ops s →
    ∃ net, Sound net (c.stream s)
  held : ∀ op s t, Steady (c.stream s) → c.anchors op = false → c.exec op s = .ok t →
    Holding (c.stream s) (c.stream t)
  claim : ∀ a, c.Forwards (c.claim a) (some a) (RewardStream.claim a)
  stake : ∀ a amount, c.Forwards (c.stake a amount) (some a) (RewardStream.stake a amount)
  unstake : ∀ a amount, c.Forwards (c.unstake a amount) (some a) (RewardStream.unstake a amount)
  elapse : ∀ seconds blocks, c.Forwards (c.elapse seconds blocks) none
    (RewardStream.elapse seconds blocks)

variable {c : TimedContract} {s s₀ t : c.State} {ops later : List c.Op} {net : ℕ}

theorem Forwards.succeeds {op : c.Op} {sender : Option Address}
    {call : RewardStream.World → Except RewardStream.Error RewardStream.World}
    (h : c.Forwards op sender call) (away : sender ≠ some (c.stream s).self)
    (called : ∃ w, call (c.stream s) = .ok w) : ∃ t, c.exec op s = .ok t := by
  obtain ⟨w, called⟩ := called
  obtain ⟨t, done, -⟩ := h s w away called
  exact ⟨t, done⟩

namespace Timed

variable (timed : c.Timed)

include timed

theorem open_of_sound (h : Sound net (c.stream s)) : c.Open s where
  streams := ⟨_, h.streamNow_eq, h.balanced⟩
  claims a apart :=
    (timed.claim a).succeeds (fun same => apart (Option.some.inj same)) (h.claim_succeeds apart)
  unstakes a amount apart some within free :=
    (timed.unstake a amount).succeeds (fun same => apart (Option.some.inj same))
      (h.unstake_succeeds apart some within free)
  stakes a amount apart some room allowed funded :=
    (timed.stake a amount).succeeds (fun same => apart (Option.some.inj same))
      (h.stake_succeeds apart some room allowed funded)

/-- A run without an anchor holds the stream; the induction needs every state of it to be sound. -/
theorem holding (deployed : c.Deployed s₀) (decays : (c.stream s₀).cfg.Decays)
    (before : Run (accepts c.exec) s₀ ops s) (run : Run (accepts c.exec) s later t)
    (plain : ∀ op ∈ later, c.anchors op = false) : Holding (c.stream s) (c.stream t) := by
  induction run generalizing ops with
  | nil s => exact .refl _
  | cons first rest ih =>
    obtain ⟨net, sound⟩ := timed.sound _ _ _ deployed decays before
    have head := timed.held _ _ _ sound.toSteady (plain _ List.mem_cons_self) first
    have tail := ih (before.snoc first) fun op inside => plain op (List.mem_cons_of_mem _ inside)
    exact head.trans tail

theorem enduring : c.Enduring := by
  intro s₀ s ops deployed rounded run
  have decays := Config.decays_of_rpow rounded
  obtain ⟨net, sound⟩ := timed.sound _ _ _ deployed decays run
  refine ⟨fun seconds blocks fits => ?_, fun t later r r' after plain first second => ?_⟩
  · have passed : RewardStream.elapse seconds blocks (c.stream s) = .ok
        { c.stream s with
          now := (c.stream s).now + seconds, block := (c.stream s).block + blocks } := by
      simp only [RewardStream.elapse, bind_eq_ok, revertIf_eq_ok, exists_const, pure_eq_ok,
        and_true]
      exact Nat.not_le.mpr fits
    obtain ⟨t, done, same⟩ := timed.elapse seconds blocks s _ (by simp) passed
    obtain ⟨net', sound'⟩ := timed.sound _ _ _ deployed decays (run.snoc done)
    exact ⟨t, done, by rw [same], by rw [same], timed.open_of_sound sound'⟩
  · obtain ⟨net', sound'⟩ := timed.sound _ _ _ deployed decays (run.append after)
    have held := timed.holding deployed decays run after plain
    rw [sound.reserveRay_eq] at first
    rw [sound'.reserveRay_eq] at second
    obtain rfl := Except.ok.inj first
    obtain rfl := Except.ok.inj second
    exact held.remaining_le sound.decays

end Timed

end TimedContract

end Turret

namespace Turret.StreamingStaking

open Execution RewardStream

variable {w w' : World}

def Op.anchors : Op → Bool
  | .distribute .. => true
  | _ => false

def timedContract : TimedContract :=
  { contract with
    unstake := .unstake
    elapse := .elapse
    anchors := Op.anchors }

theorem exec_holding {op : Op} (h : Steady w) (plain : op.anchors = false)
    (done : exec op w = .ok w') : Holding w w' := by
  simp only [exec, bind_eq_ok, revertIf_eq_ok, exists_const] at done
  obtain ⟨-, done⟩ := done
  cases op with
  | stake sender amount => exact .stake h done
  | unstake sender amount => exact .unstake h done
  | claim sender => exact .claim h done
  | distribute sender amount => cases plain
  | stakingToken call => exact .callStakingToken done
  | rewardToken call => exact .callRewardToken done
  | elapse seconds blocks => exact .elapse done

theorem contract_timed : timedContract.Timed where
  sound := contract_lawful.sound
  held _ _ _ steady plain done := exec_holding steady plain done
  claim _ _ w away called := ⟨w, TimedContract.passes away called, rfl⟩
  stake _ _ _ w away called := ⟨w, TimedContract.passes away called, rfl⟩
  unstake _ _ _ w away called := ⟨w, TimedContract.passes away called, rfl⟩
  elapse _ _ _ w away called := ⟨w, TimedContract.passes away called, rfl⟩

end Turret.StreamingStaking

namespace Turret.RecoverableStaking

open Execution RewardStream

variable {w w' : World}

def Op.anchors : Op → Bool
  | .distribute .. | .distributeSubsidy .. | .recoverSubsidy .. => true
  | _ => false

def timedContract : TimedContract :=
  { contract with
    unstake := .unstake
    elapse := .elapse
    anchors := Op.anchors }

theorem exec_holding {op : Op} (h : Steady w.stream) (plain : op.anchors = false)
    (done : exec op w = .ok w') : Holding w.stream w'.stream := by
  simp only [exec, bind_eq_ok, revertIf_eq_ok, exists_const] at done
  obtain ⟨-, done⟩ := done
  cases op with
  | stake sender amount => exact .stake h (onStream_stream done)
  | unstake sender amount => exact .unstake h (onStream_stream done)
  | claim sender => exact .claim h (onStream_stream done)
  | distribute sender amount => cases plain
  | distributeSubsidy sender amount => cases plain
  | recoverSubsidy sender amount => cases plain
  | stakingToken call => exact .callStakingToken (onStream_stream done)
  | rewardToken call => exact .callRewardToken (onStream_stream done)
  | elapse seconds blocks => exact .elapse (onStream_stream done)

theorem onStream_eq {call : RewardStream.World → Except Error RewardStream.World}
    {stream : RewardStream.World} (called : call w.stream = .ok stream) :
    onStream call w = .ok { w with stream } := by
  rw [onStream, called, ok_bind]
  rfl

theorem contract_timed : timedContract.Timed where
  sound := contract_lawful.sound
  held _ _ _ steady plain done := exec_holding steady plain done
  claim _ s stream away called :=
    ⟨World.mk stream s.treasury s.totalSubsidies s.totalRecovered s.anchorSubsidyRay,
      TimedContract.passes away (onStream_eq called), rfl⟩
  stake _ _ s stream away called :=
    ⟨World.mk stream s.treasury s.totalSubsidies s.totalRecovered s.anchorSubsidyRay,
      TimedContract.passes away (onStream_eq called), rfl⟩
  unstake _ _ s stream away called :=
    ⟨World.mk stream s.treasury s.totalSubsidies s.totalRecovered s.anchorSubsidyRay,
      TimedContract.passes away (onStream_eq called), rfl⟩
  elapse _ _ s stream away called :=
    ⟨World.mk stream s.treasury s.totalSubsidies s.totalRecovered s.anchorSubsidyRay,
      TimedContract.passes away (onStream_eq called), rfl⟩

end Turret.RecoverableStaking

namespace Turret

open Execution RewardStream

/-- The retention of a stream never rises and starts at one ray, so time alone never stops a
staking contract. -/
theorem stream_emission_never_underflows :
    (Antitone (Rounding.rpow RETENTION_PER_SECOND · RAY) ∧
      Rounding.rpow RETENTION_PER_SECOND 0 RAY = RAY ∧
      ∀ n, Rounding.rpow RETENTION_PER_SECOND n RAY ≤ RAY) ∧
    StreamingStaking.timedContract.Enduring ∧ RecoverableStaking.timedContract.Enduring :=
  ⟨⟨fun _ _ le => Rounding.rpow_antitone RAY_pos retention_le_ray le, Rounding.rpow_zero ..,
      Rounding.rpow_le RAY_pos retention_le_ray⟩,
    StreamingStaking.contract_timed.enduring, RecoverableStaking.contract_timed.enduring⟩

/-- The sample's stream with powers rounded to the nearest. -/
def roundedStart : RecoverableStaking.World :=
  { RecoverableStaking.sampleStart with
    stream := constructed { RecoverableStaking.sampleConfig with rpow := Rounding.rpow } 1000 1
      .empty .empty }

theorem roundedStart_deployed : RecoverableStaking.Deployed roundedStart :=
  ⟨⟨by decide, fun _ => rfl, fun _ => rfl, rfl⟩, by decide, by decide, rfl, rfl, rfl⟩

def roundedSample : RecoverableStaking.World :=
  reached roundedStart
    (execAll RecoverableStaking.exec RecoverableStaking.sampleOps roundedStart)

theorem roundedSample_run : Run (accepts RecoverableStaking.exec) roundedStart
    RecoverableStaking.sampleOps roundedSample :=
  run_of_execAll (eq_ok_reached roundedStart (by decide +kernel))

/-- Thirty years on. -/
theorem sample_stream_emission : ∃ t,
    RecoverableStaking.exec (.elapse 946080000 1) roundedSample = .ok t ∧
      RecoverableStaking.timedContract.Open t := by
  have fits : roundedSample.stream.now + 946080000 < Uint256.MODULUS := by decide +kernel
  obtain ⟨t, done, -, -, still⟩ := (stream_emission_never_underflows.2.2 roundedStart roundedSample
    RecoverableStaking.sampleOps roundedStart_deployed rfl roundedSample_run).1 946080000 1 fits
  exact ⟨t, done, still⟩

end Turret
