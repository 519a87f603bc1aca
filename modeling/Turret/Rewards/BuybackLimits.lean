import Turret.Rewards.BuybackBurn

/-! The limits of the purchases, read off the log of the module: how far apart they
are, what each may spend, and what any number of them leaves of the treasury. -/

namespace Turret.BuybackBurn

open Execution Rounding

variable {w w' : World} {op : Op}

/-! ### The log -/

def firstUnpause : List (ℕ × Event) → Option ℕ
  | [] => none
  | (time, .paused false) :: log => some ((firstUnpause log).getD time)
  | _ :: log => firstUnpause log

/-- The times of the purchases, latest first. -/
def purchases : List (ℕ × Event) → List ℕ
  | [] => []
  | (time, .boughtAndBurned ..) :: log => time :: purchases log
  | _ :: log => purchases log

/-! ### The treasury's calls -/

/-- What the treasury's calls leave as it was, and what they may do to the log. -/
structure Switched (w w' : World) : Prop where
  cfg : w'.cfg = w.cfg
  now : w'.now = w.now
  usdg : w'.usdg = w.usdg
  turret : w'.turret = w.turret
  totalBurned : w'.buyback.totalBurned = w.buyback.totalBurned
  bought : purchases w'.buyback.log = purchases w.buyback.log
  opened : ∀ t, firstUnpause w.buyback.log = some t → firstUnpause w'.buyback.log = some t
  last : w.buyback.lastBuyback = w.now → w'.buyback.lastBuyback = w.now

namespace Switched

theorem refl (w : World) : Switched w w :=
  ⟨rfl, rfl, rfl, rfl, rfl, rfl, fun _ => id, id⟩

theorem trans {v : World} (h : Switched w v) (k : Switched v w') : Switched w w' where
  cfg := k.cfg.trans h.cfg
  now := k.now.trans h.now
  usdg := k.usdg.trans h.usdg
  turret := k.turret.trans h.turret
  totalBurned := k.totalBurned.trans h.totalBurned
  bought := k.bought.trans h.bought
  opened t first := k.opened t (h.opened t first)
  last current := (k.last ((h.last current).trans h.now.symm)).trans h.now

end Switched

theorem firstUnpause_paused (value : Bool) (time : ℕ) (log : List (ℕ × Event)) {t : ℕ}
    (h : firstUnpause log = some t) : firstUnpause ((time, .paused value) :: log) = some t := by
  cases value with
  | false => simp [firstUnpause, h]
  | true => simpa [firstUnpause] using h

theorem resumedAt_last {value : Bool} (current : w.buyback.lastBuyback = w.now) :
    resumedAt value w = w.now := by
  unfold resumedAt
  split_ifs
  · rfl
  · exact current

theorem call_switched {call : Call} (h : call.exec w = .ok w') : Switched w w' := by
  cases call with
  | configure sender operator minRate =>
    simp only [Call.exec, configure, bind_eq_ok, pure_eq_ok] at h
    obtain ⟨-, -, -, -, rfl⟩ := h
    exact ⟨rfl, rfl, rfl, rfl, rfl, rfl, fun t first => firstUnpause_paused true _ _ first, id⟩
  | setPaused sender value =>
    simp only [Call.exec, setPaused, bind_eq_ok, pure_eq_ok] at h
    obtain ⟨-, -, -, -, rfl⟩ := h
    exact ⟨rfl, rfl, rfl, rfl, rfl, rfl, fun t first => firstUnpause_paused value _ _ first,
      resumedAt_last⟩

theorem calls_switched {calls : List Call}
    (h : calls.foldlM (fun w call => call.exec w) w = .ok w') : Switched w w' := by
  induction calls generalizing w with
  | nil =>
    obtain rfl : w = w' := by simpa using h
    exact Switched.refl w
  | cons call calls ih =>
    simp only [List.foldlM_cons, bind_eq_ok] at h
    obtain ⟨v, first, rest⟩ := h
    exact (call_switched first).trans (ih rest)

/-! ### One purchase -/

theorem le_availableBudget {amount : ℕ} (positive : amount ≠ 0) (h : amount ≤ availableBudget w) :
    w.buyback.paused = false ∧ w.buyback.lastBuyback + cooldown ≤ w.now ∧
      amount * RATE_SCALE ≤ (treasuryBalance w - reserveFloor) * HOURLY_RATE := by
  unfold availableBudget at h
  split_ifs at h with closed low
  · omega
  · omega
  · simp only [not_or, not_lt, Bool.not_eq_true] at closed
    refine ⟨closed.1, closed.2, ?_⟩
    exact (le_mulDiv_iff (by decide)).mp (h.trans (min_le_left ..))

/-- What a purchase has waited for, what it spends, and that all of what it buys is burned. -/
structure Bought (w : World) (amount : ℕ) (effects : Effects) (w' : World) : Prop where
  running : w.buyback.paused = false
  waited : w.buyback.lastBuyback + cooldown ≤ w.now
  spent_le : amount * RATE_SCALE ≤ (treasuryBalance w - reserveFloor) * HOURLY_RATE
  spent : treasuryBalance w' + amount = treasuryBalance w
  above : reserveFloor ≤ treasuryBalance w'
  own_usdg : w'.usdg.balanceOf w.cfg.self = w.usdg.balanceOf w.cfg.self
  own_turret : w'.turret.balanceOf w.cfg.self = w.turret.balanceOf w.cfg.self
  burned : ∃ usdg turret bought, effects.swapped = some (usdg, turret) ∧
    turret.balanceOf w.cfg.self = w.turret.balanceOf w.cfg.self + bought ∧
    w'.turret.totalSupply + bought = turret.totalSupply ∧
    w'.buyback.totalBurned = w.buyback.totalBurned + bought

/-- What a purchase writes besides: the window of the next one, and the log. -/
structure Recorded (w w' : World) : Prop where
  cfg : w'.cfg = w.cfg
  now : w'.now = w.now
  last : w'.buyback.lastBuyback = w.now
  bought : purchases w'.buyback.log = w.now :: purchases w.buyback.log
  opened : ∀ t, firstUnpause w.buyback.log = some t → firstUnpause w'.buyback.log = some t

theorem safeApprove_ok {amount : ℕ} {after : Option Token} (h : safeApprove amount after w = .ok w') :
    ∃ usdg, after = some usdg ∧ w' = { w with usdg } := by
  simp only [safeApprove, bind_eq_ok, orRevert_eq_ok, pure_eq_ok] at h
  obtain ⟨-, -, usdg, approved, rfl⟩ := h
  exact ⟨usdg, approved, rfl⟩

theorem swap_ok {effects : Effects} (h : swap effects w = .ok w') :
    ∃ v usdg turret, Switched w v ∧ effects.swapped = some (usdg, turret) ∧
      w' = { v with usdg, turret } := by
  simp only [swap, bind_eq_ok, orRevert_eq_ok, pure_eq_ok] at h
  obtain ⟨v, calls, ⟨usdg, turret⟩, swapped, rfl⟩ := h
  exact ⟨v, usdg, turret, calls_switched calls, swapped, rfl⟩

theorem execute_ok {sender : Address} {execution : SwapExecution} {deadline : ℕ} {effects : Effects}
    (h : execute sender execution deadline effects w = .ok w') :
    Bought w execution.desc.amount effects w' ∧ Recorded w w' := by
  simp only [execute, bind_eq_ok, revertIf_eq_ok, exists_const, orRevert_eq_ok, checkedSub_eq_ok,
    pure_eq_ok, not_or, not_lt, ne_eq, not_not] at h
  obtain ⟨-, -, ⟨positive, budget⟩, -, -, usdg, transferred, _, ⟨covered, rfl⟩, -, w₁, approved, w₂,
    swapped, w₃, cleared, ⟨ownUsdg, treasury⟩, _, ⟨gained, rfl⟩, -, burned, burns, _, ⟨supplied, rfl⟩,
    ⟨ownTurret, supply⟩, rfl⟩ := h
  obtain ⟨usdg₁, -, rfl⟩ := safeApprove_ok approved
  obtain ⟨v, usdg₂, turret, switched, route, rfl⟩ := swap_ok swapped
  obtain ⟨usdg₃, -, rfl⟩ := safeApprove_ok cleared
  obtain ⟨running, waited, spent_le⟩ := le_availableBudget positive budget
  have cfg : v.cfg = w.cfg := switched.cfg
  have now : v.now = w.now := switched.now
  have total : v.buyback.totalBurned = w.buyback.totalBurned := switched.totalBurned
  have part : execution.desc.amount ≤ treasuryBalance w - reserveFloor := by
    unfold RATE_SCALE HOURLY_RATE at spent_le
    omega
  simp only [treasuryBalance, cfg] at treasury ownUsdg gained burns supplied ownTurret supply covered
  constructor
  · refine ⟨running, waited, spent_le, ?_, ?_, ?_, ?_, usdg₂, turret, _, route,
      (Nat.add_sub_of_le gained).symm, ?_, ?_⟩
    · simp only [World.emit, treasuryBalance, cfg, treasury]
      omega
    · simp only [World.emit, treasuryBalance, cfg, treasury]
      unfold treasuryBalance at part
      omega
    · exact ownUsdg
    · exact ownTurret
    · simp only [World.emit, supply]
      omega
    · simp only [World.emit, total, cfg]
  · have last : v.buyback.lastBuyback = w.now := switched.last rfl
    refine ⟨cfg, now, last, ?_, switched.opened⟩
    simp only [World.emit, purchases, now]
    exact congrArg _ switched.bought

/-! ### Spacing -/

/-- No purchase before the module was first resumed; each waits for the window of what came
before it. -/
structure Spaced (w : World) : Prop where
  closed : firstUnpause w.buyback.log = none →
    w.buyback.paused = true ∧ w.buyback.lastBuyback = 0
  opened : ∀ t, firstUnpause w.buyback.log = some t → t ≤ w.buyback.lastBuyback
  last : ∀ t ∈ purchases w.buyback.log, t ≤ w.buyback.lastBuyback
  first : ∀ t ∈ purchases w.buyback.log,
    ∃ opening, firstUnpause w.buyback.log = some opening ∧ opening + cooldown ≤ t
  apart : (purchases w.buyback.log).Pairwise fun later earlier => earlier + cooldown ≤ later

namespace Spaced

theorem deployed (h : Deployed w) : Spaced w := by
  unfold Deployed at h
  constructor <;> simp [h, firstUnpause, purchases]

theorem call {call : Call} (s : Spaced w) (h : call.exec w = .ok w') : Spaced w' := by
  cases call with
  | configure sender operator minRate =>
    simp only [Call.exec, configure, bind_eq_ok, pure_eq_ok] at h
    obtain ⟨-, -, -, -, rfl⟩ := h
    exact ⟨fun none => ⟨rfl, (s.closed none).2⟩, s.opened, s.last, s.first, s.apart⟩
  | setPaused sender value =>
    simp only [Call.exec, setPaused, bind_eq_ok, pure_eq_ok] at h
    obtain ⟨-, -, -, -, rfl⟩ := h
    have grown : w.buyback.lastBuyback ≤ resumedAt value w := by
      unfold resumedAt
      split_ifs <;> omega
    have kept : ∀ t ∈ purchases w.buyback.log,
        ∃ opening, firstUnpause ((w.now, Event.paused value) :: w.buyback.log) = some opening ∧
          opening + cooldown ≤ t := by
      intro t bought
      obtain ⟨opening, first, waited⟩ := s.first t bought
      exact ⟨opening, firstUnpause_paused value _ _ first, waited⟩
    refine ⟨?_, ?_, fun t bought => (s.last t bought).trans grown, kept, s.apart⟩
    · cases value with
      | false => simp [World.emit, firstUnpause]
      | true =>
        intro none
        refine ⟨rfl, ?_⟩
        simp only [World.emit, resumedAt, Bool.true_eq_false, false_and, and_false, if_false]
        exact (s.closed none).2
    · intro t opened
      cases value with
      | true => exact (s.opened t opened).trans grown
      | false =>
        simp only [World.emit, firstUnpause, Option.some.injEq] at opened
        subst opened
        cases before : firstUnpause w.buyback.log with
        | some opening => exact (s.opened opening before).trans grown
        | none =>
          -- the first resumption opens the window of the first purchase
          obtain ⟨paused, unset⟩ := s.closed before
          simp only [World.emit, resumedAt, paused, unset, and_self, if_true, Option.getD_none]
          exact le_rfl

theorem bought (s : Spaced w) {amount : ℕ} {effects : Effects} (h : Bought w amount effects w')
    (r : Recorded w w') : Spaced w' := by
  obtain ⟨opening, first⟩ : ∃ opening, firstUnpause w.buyback.log = some opening := by
    cases before : firstUnpause w.buyback.log with
    | some opening => exact ⟨opening, rfl⟩
    | none => exact absurd (s.closed before).1 (by simp [h.running])
  have waited := h.waited
  have since := s.opened opening first
  refine ⟨fun none => ?_, fun t opened => ?_, fun t mem => ?_, fun t mem => ?_, ?_⟩
  · rw [r.opened opening first] at none
    cases none
  · rw [r.opened opening first, Option.some.injEq] at opened
    rw [r.last]
    omega
  · rw [r.bought] at mem
    rw [r.last]
    rcases List.mem_cons.mp mem with rfl | mem
    · exact le_rfl
    · have := s.last t mem
      omega
  · rw [r.bought] at mem
    rcases List.mem_cons.mp mem with rfl | mem
    · exact ⟨opening, r.opened opening first, by omega⟩
    · obtain ⟨opening, first, late⟩ := s.first t mem
      exact ⟨opening, r.opened opening first, late⟩
  · rw [r.bought]
    refine List.pairwise_cons.mpr ⟨fun t mem => ?_, s.apart⟩
    have := s.last t mem
    omega

theorem exec (s : Spaced w) (h : exec op w = .ok w') : Spaced w' := by
  cases op with
  | call call => exact s.call h
  | execute sender execution deadline effects =>
    obtain ⟨bought, recorded⟩ := execute_ok h
    exact s.bought bought recorded
  | outside usdg turret chainId codehash seconds =>
    simp only [BuybackBurn.exec, pure_eq_ok] at h
    subst h
    exact ⟨s.closed, s.opened, s.last, s.first, s.apart⟩

end Spaced

theorem attempt_error {e : Error} (h : exec op w = .error e) : attempt w op = w := by
  rw [attempt, h, reached]

theorem attempt_ok (h : exec op w = .ok w') : attempt w op = w' := by
  rw [attempt, h, reached]

theorem Spaced.attempt (s : Spaced w) (op : Op) : Spaced (attempt w op) := by
  cases done : BuybackBurn.exec op w with
  | ok w' =>
    rw [attempt_ok done]
    exact s.exec done
  | error e =>
    rw [attempt_error done]
    exact s

theorem Spaced.run (s : Spaced w) (ops : List Op) : Spaced (run w ops) := by
  induction ops generalizing w with
  | nil => exact s
  | cons op ops ih => exact ih (s.attempt op)

/-! ### What is left of the treasury -/

/-- The treasury's USDG above the floor. -/
def excess (w : World) : ℕ := treasuryBalance w - reserveFloor

def isPurchase (w : World) (op : Op) : Bool :=
  match op with
  | .execute .. => (exec op w).isOk
  | _ => false

/-- The purchases of a run. -/
def executed : World → List Op → ℕ
  | _, [] => 0
  | w, op :: ops => (if isPurchase w op then 1 else 0) + executed (attempt w op) ops

/-- What others take out of the treasury between the calls. -/
def taken (w : World) (op : Op) : ℕ :=
  match op with
  | .outside .. => treasuryBalance w - treasuryBalance (attempt w op)
  | _ => 0

def outflow : World → List Op → ℕ
  | _, [] => 0
  | w, op :: ops => taken w op + outflow (attempt w op) ops

theorem Bought.excess_le {amount : ℕ} {effects : Effects} (h : Bought w amount effects w') :
    933 * excess w ≤ 1000 * excess w' := by
  have spent_le := h.spent_le
  have spent := h.spent
  have above := h.above
  unfold excess
  unfold RATE_SCALE HOURLY_RATE at spent_le
  omega

theorem isPurchase_excess (h : isPurchase w op = true) :
    933 * excess w ≤ 1000 * excess (attempt w op) := by
  cases op with
  | call | outside => cases h
  | execute sender execution deadline effects =>
    have done := eq_ok_reached w h
    rw [attempt_ok done]
    exact (execute_ok done).1.excess_le

theorem excess_le_attempt (h : isPurchase w op = false) :
    excess w ≤ excess (attempt w op) + taken w op := by
  cases done : exec op w with
  | error e =>
    rw [attempt_error done]
    exact Nat.le_add_right ..
  | ok w' =>
    cases op with
    | call call =>
      have switched := call_switched done
      have same : treasuryBalance w' = treasuryBalance w := by
        rw [treasuryBalance, switched.usdg, switched.cfg]
        rfl
      rw [attempt_ok done, excess, excess, same]
      exact Nat.le_add_right ..
    | execute sender execution deadline effects => simp [isPurchase, done, Except.isOk, Except.toBool] at h
    | outside =>
      simp only [taken, excess]
      omega

/-- After any number of purchases the excess is at least what the compounded rate leaves of it, but
for what others have taken out. -/
theorem excess_compounded (w : World) (ops : List Op) :
    933 ^ executed w ops * excess w ≤
      1000 ^ executed w ops * (excess (run w ops) + outflow w ops) := by
  induction ops generalizing w with
  | nil => simp [executed, outflow, run]
  | cons op ops ih =>
    have rest := ih (attempt w op)
    have final : run w (op :: ops) = run (attempt w op) ops := rfl
    rw [final, executed, outflow]
    cases purchase : isPurchase w op with
    | true =>
      have step := isPurchase_excess purchase
      have none : taken w op = 0 := by
        cases op with
        | call | outside => cases purchase
        | execute => rfl
      rw [if_pos rfl, none, Nat.zero_add, Nat.add_comm 1, pow_succ, pow_succ]
      calc 933 ^ executed (attempt w op) ops * 933 * excess w
          = 933 ^ executed (attempt w op) ops * (933 * excess w) := by ring
        _ ≤ 933 ^ executed (attempt w op) ops * (1000 * excess (attempt w op)) :=
          Nat.mul_le_mul_left _ step
        _ = 1000 * (933 ^ executed (attempt w op) ops * excess (attempt w op)) := by ring
        _ ≤ 1000 * (1000 ^ executed (attempt w op) ops *
            (excess (run (attempt w op) ops) + outflow (attempt w op) ops)) :=
          Nat.mul_le_mul_left _ rest
        _ = _ := by ring
    | false =>
      have step := excess_le_attempt purchase
      have powers : 933 ^ executed (attempt w op) ops ≤ 1000 ^ executed (attempt w op) ops :=
        Nat.pow_le_pow_left (by omega) _
      rw [if_neg (by simp), Nat.zero_add]
      calc 933 ^ executed (attempt w op) ops * excess w
          ≤ 933 ^ executed (attempt w op) ops * (excess (attempt w op) + taken w op) :=
            Nat.mul_le_mul_left _ step
        _ = 933 ^ executed (attempt w op) ops * excess (attempt w op) +
            933 ^ executed (attempt w op) ops * taken w op := Nat.mul_add ..
        _ ≤ 1000 ^ executed (attempt w op) ops *
              (excess (run (attempt w op) ops) + outflow (attempt w op) ops) +
            1000 ^ executed (attempt w op) ops * taken w op :=
          Nat.add_le_add rest (Nat.mul_le_mul_right _ powers)
        _ = _ := by ring

/-! ### The limits -/

/-- The log has every purchase of the run. -/
theorem purchases_attempt (w : World) (op : Op) :
    (purchases (attempt w op).buyback.log).length =
      (if isPurchase w op then 1 else 0) + (purchases w.buyback.log).length := by
  cases done : exec op w with
  | error e =>
    rw [attempt_error done]
    cases op <;> simp [isPurchase, done, Except.isOk, Except.toBool]
  | ok w' =>
    rw [attempt_ok done]
    cases op with
    | call call =>
      rw [(call_switched done).bought]
      simp [isPurchase]
    | execute sender execution deadline effects =>
      rw [(execute_ok done).2.bought, List.length_cons]
      simp [isPurchase, done, Except.isOk, Except.toBool, Nat.add_comm]
    | outside =>
      simp only [exec, pure_eq_ok] at done
      subst done
      simp [isPurchase]

theorem purchases_run (w : World) (ops : List Op) :
    (purchases (run w ops).buyback.log).length =
      executed w ops + (purchases w.buyback.log).length := by
  induction ops generalizing w with
  | nil => simp [run, executed]
  | cons op ops ih =>
    have final : run w (op :: ops) = run (attempt w op) ops := rfl
    rw [final, ih, executed, purchases_attempt]
    omega

/-- In every run of the module the purchases keep their distance from one another and from the
first resumption, each spends within its share and burns what it buys, any number of them leaves
the compounded rest of the excess, and a call that fails changes nothing. -/
theorem buyback_limits {start : World} (deployed : Deployed start) (ops : List Op) :
    (purchases (run start ops).buyback.log).length = executed start ops ∧
    ((purchases (run start ops).buyback.log).Pairwise fun later earlier =>
      earlier + cooldown ≤ later) ∧
    (∀ t ∈ purchases (run start ops).buyback.log, ∃ opening,
      firstUnpause (run start ops).buyback.log = some opening ∧ opening + cooldown ≤ t) ∧
    (∀ sender execution deadline effects w',
      execute sender execution deadline effects (run start ops) = .ok w' →
      Bought (run start ops) execution.desc.amount effects w' ∧ Recorded (run start ops) w') ∧
    (∀ more, 933 ^ executed (run start ops) more * excess (run start ops) ≤
      1000 ^ executed (run start ops) more *
        (excess (run start (ops ++ more)) + outflow (run start ops) more)) ∧
    ∀ op e, exec op (run start ops) = .error e → attempt (run start ops) op = run start ops := by
  have spaced := (Spaced.deployed deployed).run ops
  refine ⟨?_, spaced.apart, spaced.first, fun _ _ _ _ _ done => execute_ok done, fun more => ?_,
    fun op e failed => attempt_error failed⟩
  · rw [purchases_run, show start.buyback.log = [] from congrArg Buyback.log deployed]
    rfl
  · have compounded := excess_compounded (run start ops) more
    rwa [show run start (ops ++ more) = run (run start ops) more from List.foldl_append ..]

/-! The treasury has 1100 USDG. An hour after the module is resumed its keeper spends 67 of them. -/

def sampleUSDG (own treasury : ℕ) : Token where
  balanceOf a := if a = 100 then own else if a = 3 then treasury else 0
  allowance owner _ := if owner = 3 then 10 ^ 12 else 0
  totalSupply := 10 ^ 12

def sampleTurret (own supply : ℕ) : Token where
  balanceOf a := if a = 100 then own else 0
  allowance _ _ := 0
  totalSupply := supply

def sampleStart : World where
  cfg :=
    { self := 100, usdg := 1, turret := 2, treasury := 3, swapRouter := 4, swapTarget := 5
      usdgHash := 7, turretHash := 7, routerHash := 7, targetHash := 7
      treasury_ne_zero := by decide, tokens_ne := by decide }
  now := 1000
  chainId := CHAIN_ID
  codehash _ := 7
  usdg := sampleUSDG 0 1100000000
  turret := sampleTurret 0 1000000
  buyback := ⟨0, true, 0, 0, 0, 0, []⟩

def sampleExecution : SwapExecution where
  callTarget := 5
  approveTarget := 0
  targetData := [0, 0, 0, 0]
  desc :=
    { srcToken := 1, dstToken := 2, srcReceivers := [5], srcAmounts := [67000000]
      feeReceivers := [], feeAmounts := [], dstReceiver := 100, amount := 67000000
      minReturnAmount := 67, flags := 512, permit := [] }
  clientData := []

def sampleEffects : Effects where
  transferred := some (sampleUSDG 67000000 1033000000)
  approved := some (sampleUSDG 67000000 1033000000)
  swapped := some (sampleUSDG 0 1033000000, sampleTurret 500 1000000)
  calls := []
  cleared := some (sampleUSDG 0 1033000000)
  burned := some (sampleTurret 0 999500)

def sampleOps : List Op :=
  [ .call (.configure 3 9 1), .call (.setPaused 3 false),
    .execute 9 sampleExecution 1060 sampleEffects,
    .outside (sampleUSDG 0 1100000000) (sampleTurret 0 1000000) CHAIN_ID (fun _ => 7) 3600,
    .execute 9 sampleExecution 4660 sampleEffects ]

/-- The first of the two attempts comes too early and changes nothing. -/
theorem sample_limits : executed sampleStart sampleOps = 1 ∧
    (purchases (run sampleStart sampleOps).buyback.log).length = executed sampleStart sampleOps ∧
    933 ^ 1 * excess sampleStart ≤
      1000 ^ 1 * (excess (run sampleStart sampleOps) + outflow sampleStart sampleOps) := by
  have one : executed sampleStart sampleOps = 1 := by decide +kernel
  have deployed : Deployed sampleStart := rfl
  have compounded := (buyback_limits deployed []).2.2.2.2.1 sampleOps
  refine ⟨one, (buyback_limits deployed sampleOps).1, ?_⟩
  have start : run sampleStart [] = sampleStart := rfl
  rwa [start, one] at compounded

end Turret.BuybackBurn
