import Turret.Oracles.HeartbeatGuard

/-! Every run of a guard and of a gate: what trips, messages and rounds in any
order leave in force. -/

namespace Turret.Circuit

open Execution

variable {H Signature : Type}

inductive Op (H Signature : Type)
  | tripGuard (sender : Address) (unsafePrice : Bool)
  | submitHealth (h : Health H) (signature : Signature) (reading : Reading)
  | tripGate (sender : Address)
  | submitLiveness (p : Liveness) (signature : Signature)

/-- A transaction that succeeds, at the time of its block. -/
structure Tx (H Signature : Type) where
  now : ℕ
  op : Op H Signature

structure Pair (H : Type) where
  guard : Guard H
  gate : Gate

section Calls

variable [DecidableEq H] (cfg : Config) (signing : Signing H Signature Liveness)

def exec (x : Tx H Signature) (s : Pair H) : Except Error (Pair H) :=
  match x.op with
  | .tripGuard sender unsafePrice => do
    let guard ← tripGuard cfg sender unsafePrice x.now s.guard
    pure { s with guard }
  | .submitHealth h signature reading => do
    let guard ← submitHealth cfg signing h signature x.now reading s.guard
    pure { s with guard }
  | .tripGate sender => do
    let gate ← tripGate cfg sender x.now s.gate
    pure { s with gate }
  | .submitLiveness p signature => do
    let gate ← submitLiveness cfg signing p signature x.now s.gate
    pure { s with gate }

/-- The transactions, one after the other. -/
def execAll (txs : List (Tx H Signature)) (s : Pair H) : Except Error (Pair H) :=
  txs.foldlM (fun s x => exec cfg signing x s) s

end Calls

def Op.isTripGuard : Op H Signature → Bool
  | .tripGuard _ _ => true
  | _ => false

def Op.isTripGate : Op H Signature → Bool
  | .tripGate _ => true
  | _ => false

/-- When the last of these transactions was made, or else the contract was deployed. -/
def since (deployed : ℕ) (trips : Op H Signature → Bool) (txs : List (Tx H Signature)) : ℕ :=
  ((txs.filter fun x => trips x.op).getLast?.map Tx.now).getD deployed

def trips (kind : Op H Signature → Bool) (txs : List (Tx H Signature)) : ℕ :=
  (txs.filter fun x => kind x.op).length

variable {cfg : Config} {signing : Signing H Signature Liveness}

/-! ### Messages -/

/-- The message is of this epoch and of this round, and in force at this time. -/
structure Approves (signing : Signing H Signature Liveness) (epoch recoveryAt : ℕ) (h : Health H)
    (data : Data) (now : ℕ) : Prop where
  epoch : h.epoch = epoch
  round : h.roundId = data.roundId ∧
    h.roundHash = signing.roundHash data.roundId data.value data.updatedAt
  recovered : recoveryAt ≤ h.observedAt
  observed : h.observedAt ≤ now
  unexpired : now < h.validUntil
  age : h.validUntil ≤ h.observedAt + MAX_HEALTH_AGE
  session : h.sessionOpen ≤ h.observedAt ∧ h.sessionOpen ≤ now ∧ now < h.sessionClose ∧
    h.validUntil ≤ h.sessionClose

variable [DecidableEq H] in
theorem approves_of_checkHealth {h : Health H} {data : Data} {now : ℕ} {g : Guard H} {u : Unit}
    (checked : checkHealth signing h data now g = .ok u) :
    Approves signing g.epoch g.recoveryAt h data now := by
  simp only [checkHealth, bind_eq_ok, revertIf_eq_ok, not_or, not_not, not_lt, not_le] at checked
  obtain ⟨-, ⟨epoch, id, hash, -, observed, -, age⟩, -, unexpired, -, recovered, -, -, opened,
    opened', closes, within⟩ := checked
  exact ⟨epoch, ⟨id, hash⟩, recovered, observed, unexpired, by omega, opened, opened', closes, within⟩

variable [DecidableEq H] in
theorem submitHealth_eq_ok {h : Health H} {signature : Signature} {now : ℕ} {x : Reading}
    {g g' : Guard H} (done : submitHealth cfg signing h signature now x g = .ok g') :
    signing.recoverHealth h signature = some cfg.guardian ∧
      g' = { g with health := some h, liquidationQuarantined := false } ∧
      ∃ data, currentData cfg now x = .ok data ∧
        Approves signing g.epoch g.recoveryAt h data now := by
  simp only [submitHealth, bind_eq_ok, orRevert_eq_ok, revertIf_eq_ok, pure_eq_ok, not_not] at done
  obtain ⟨signer, recovered, -, rfl, data, read, u, checked, -, -, rfl⟩ := done
  exact ⟨recovered, rfl, data, read, approves_of_checkHealth checked⟩

/-- The chain has been live since the last trip, for the whole of the delay. -/
structure Attests (epoch recoveryAt : ℕ) (p : Liveness) : Prop where
  epoch : p.epoch = epoch
  recovered : recoveryAt ≤ p.healthySince
  healthy : p.healthySince + RECOVERY_DELAY ≤ p.observedAt
  lifetime : p.validUntil ≤ p.observedAt + MAX_LIFETIME

theorem submitLiveness_eq_ok {p : Liveness} {signature : Signature} {now : ℕ} {g g' : Gate}
    (done : submitLiveness cfg signing p signature now g = .ok g') :
    signing.recoverLiveness p signature = some cfg.guardian ∧ g' = { g with liveness := some p } ∧
      p.observedAt ≤ now ∧ Attests g.epoch g.recoveryAt p := by
  simp only [submitLiveness, bind_eq_ok, orRevert_eq_ok, revertIf_eq_ok, pure_eq_ok, not_or,
    not_not, not_lt, not_le] at done
  obtain ⟨signer, recovered, -, rfl, -, ⟨epoch, -, observed, since, expires, lifetime, -⟩, -, -, -,
    ⟨live, delay⟩, rfl⟩ := done
  exact ⟨recovered, rfl, observed, epoch, live, by omega, by omega⟩

/-! ### Every run -/

/-- The guard's record was accepted after the last trip. -/
structure GuardHistory (cfg : Config) (signing : Signing H Signature Liveness) (deployed : ℕ)
    (txs : List (Tx H Signature)) (g : Guard H) : Prop where
  epoch : g.epoch = trips Op.isTripGuard txs
  recoveryAt : g.recoveryAt = since deployed Op.isTripGuard txs + RECOVERY_DELAY
  accepted : ∀ h ∈ g.health, ∃ before x after signature reading, txs = before ++ x :: after ∧
    x.op = .submitHealth h signature reading ∧ (∀ y ∈ after, y.op.isTripGuard = false) ∧
    signing.recoverHealth h signature = some cfg.guardian

/-- The gate's record was accepted after the last trip, and attests that. -/
structure GateHistory (cfg : Config) (signing : Signing H Signature Liveness) (deployed : ℕ)
    (txs : List (Tx H Signature)) (g : Gate) : Prop where
  epoch : g.epoch = trips Op.isTripGate txs
  recoveryAt : g.recoveryAt = since deployed Op.isTripGate txs
  accepted : ∀ p ∈ g.liveness, Attests g.epoch g.recoveryAt p ∧
    ∃ before x after signature, txs = before ++ x :: after ∧
      x.op = .submitLiveness p signature ∧ p.observedAt ≤ x.now ∧
      (∀ y ∈ after, y.op.isTripGate = false) ∧
      signing.recoverLiveness p signature = some cfg.guardian

variable {deployed : ℕ} {kind : Op H Signature → Bool} {txs : List (Tx H Signature)}
  {x : Tx H Signature} {g : Guard H} {gate : Gate}

theorem trips_trip (h : kind x.op = true) : trips kind (txs ++ [x]) = trips kind txs + 1 := by
  simp [trips, h]

theorem trips_other (h : kind x.op = false) : trips kind (txs ++ [x]) = trips kind txs := by
  simp [trips, h]

theorem since_trip (h : kind x.op = true) : since deployed kind (txs ++ [x]) = x.now := by
  simp [since, h]

theorem since_other (h : kind x.op = false) :
    since deployed kind (txs ++ [x]) = since deployed kind txs := by
  simp [since, h]

theorem GuardHistory.other (h : GuardHistory cfg signing deployed txs g)
    (other : x.op.isTripGuard = false) : GuardHistory cfg signing deployed (txs ++ [x]) g where
  epoch := by rw [trips_other other, h.epoch]
  recoveryAt := by rw [since_other other, h.recoveryAt]
  accepted := by
    intro record stored
    obtain ⟨before, y, after, signature, reading, split, is, later, signed⟩ := h.accepted record stored
    refine ⟨before, y, after ++ [x], signature, reading, by simp [split], is, fun z mem => ?_, signed⟩
    rcases List.mem_append.mp mem with old | new
    · exact later z old
    · exact List.mem_singleton.mp new ▸ other

theorem GateHistory.other (h : GateHistory cfg signing deployed txs gate)
    (other : x.op.isTripGate = false) : GateHistory cfg signing deployed (txs ++ [x]) gate where
  epoch := by rw [trips_other other, h.epoch]
  recoveryAt := by rw [since_other other, h.recoveryAt]
  accepted := by
    intro record stored
    obtain ⟨attests, before, y, after, signature, split, is, observed, later, signed⟩ :=
      h.accepted record stored
    refine ⟨attests, before, y, after ++ [x], signature, by simp [split], is, observed,
      fun z mem => ?_, signed⟩
    rcases List.mem_append.mp mem with old | new
    · exact later z old
    · exact List.mem_singleton.mp new ▸ other

variable [DecidableEq H]

/-- What one transaction leaves of both histories. -/
theorem histories_exec {s s' : Pair H} {deployedGate : ℕ}
    (hg : GuardHistory cfg signing deployed txs s.guard)
    (hl : GateHistory cfg signing deployedGate txs s.gate) (done : exec cfg signing x s = .ok s') :
    GuardHistory cfg signing deployed (txs ++ [x]) s'.guard ∧
      GateHistory cfg signing deployedGate (txs ++ [x]) s'.gate := by
  unfold exec at done
  split at done
  all_goals rename_i is
  · simp only [bind_eq_ok, pure_eq_ok, tripGuard, revertIf_eq_ok] at done
    obtain ⟨g', ⟨-, -, -, -, rfl⟩, rfl⟩ := done
    have trip : x.op.isTripGuard = true := by rw [is]; rfl
    refine ⟨⟨?_, ?_, fun _ stored => absurd stored (Option.not_mem_none _)⟩,
      hl.other (by rw [is]; rfl)⟩
    · rw [trips_trip trip, hg.epoch]
    · rw [since_trip trip]
  · simp only [bind_eq_ok, pure_eq_ok] at done
    obtain ⟨g', accepted, rfl⟩ := done
    obtain ⟨signed, rfl, -⟩ := submitHealth_eq_ok accepted
    have other : x.op.isTripGuard = false := by rw [is]; rfl
    refine ⟨⟨(hg.other other).epoch, (hg.other other).recoveryAt, fun h stored => ?_⟩,
      hl.other (by rw [is]; rfl)⟩
    cases Option.mem_some_iff.mp stored
    exact ⟨txs, x, [], _, _, rfl, is, List.forall_mem_nil _, signed⟩
  · simp only [bind_eq_ok, pure_eq_ok, tripGate, revertIf_eq_ok] at done
    obtain ⟨g', ⟨-, -, -, -, rfl⟩, rfl⟩ := done
    have trip : x.op.isTripGate = true := by rw [is]; rfl
    refine ⟨hg.other (by rw [is]; rfl),
      ⟨?_, ?_, fun _ stored => absurd stored (Option.not_mem_none _)⟩⟩
    · rw [trips_trip trip, hl.epoch]
    · rw [since_trip trip]
  · simp only [bind_eq_ok, pure_eq_ok] at done
    obtain ⟨g', accepted, rfl⟩ := done
    obtain ⟨signed, rfl, observed, attests⟩ := submitLiveness_eq_ok accepted
    have other : x.op.isTripGate = false := by rw [is]; rfl
    refine ⟨hg.other (by rw [is]; rfl),
      ⟨(hl.other other).epoch, (hl.other other).recoveryAt, fun p stored => ?_⟩⟩
    cases Option.mem_some_iff.mp stored
    exact ⟨attests, txs, x, [], _, rfl, is, observed, List.forall_mem_nil _, signed⟩

theorem histories_execAll {s : Pair H} {deployedGate : ℕ}
    (run : execAll cfg signing txs ⟨deployGuard deployed, deployGate deployedGate⟩ = .ok s) :
    GuardHistory cfg signing deployed txs s.guard ∧
      GateHistory cfg signing deployedGate txs s.gate := by
  induction txs using List.reverseRecOn generalizing s with
  | nil =>
    cases run
    exact ⟨⟨rfl, rfl, nofun⟩, ⟨rfl, rfl, nofun⟩⟩
  | append_singleton txs x ih =>
    rw [execAll, List.foldlM_append, bind_eq_ok] at run
    obtain ⟨mid, before, last⟩ := run
    rw [List.foldlM_cons, bind_eq_ok] at last
    obtain ⟨after, done, same⟩ := last
    cases same
    obtain ⟨hg, hl⟩ := ih before
    exact histories_exec hg hl done

/-- What is in force after a trip has been accepted after it. -/
theorem circuit_safe (cfg : Config) (signing : Signing H Signature Liveness)
    (deployedGuard deployedGate : ℕ) (txs : List (Tx H Signature)) (s : Pair H)
    (run : execAll cfg signing txs ⟨deployGuard deployedGuard, deployGate deployedGate⟩ = .ok s) :
    (∀ now reading value updatedAt,
      validatedPrice cfg signing true now reading s.guard = .ok (value, updatedAt) →
      ∃ h data, s.guard.health = some h ∧ currentData cfg now reading = .ok data ∧
        (value, updatedAt) = (data.value, data.updatedAt) ∧
        Approves signing (trips Op.isTripGuard txs)
          (since deployedGuard Op.isTripGuard txs + RECOVERY_DELAY) h data now ∧
        ∃ before x after signature reading', txs = before ++ x :: after ∧
          x.op = .submitHealth h signature reading' ∧ (∀ y ∈ after, y.op.isTripGuard = false) ∧
          signing.recoverHealth h signature = some cfg.guardian) ∧
    (∀ x s', exec cfg signing x s = .ok s' → s.guard.liquidationQuarantined = true →
      s'.guard.liquidationQuarantined = false →
      ∃ h signature reading data, x.op = .submitHealth h signature reading ∧
        currentData cfg x.now reading = .ok data ∧
        signing.recoverHealth h signature = some cfg.guardian ∧
        Approves signing (trips Op.isTripGuard txs)
          (since deployedGuard Op.isTripGuard txs + RECOVERY_DELAY) h data x.now) ∧
    (∀ now, requireLive now s.gate = .ok () →
      ∃ p, s.gate.liveness = some p ∧ now < p.validUntil ∧
        Attests (trips Op.isTripGate txs) (since deployedGate Op.isTripGate txs) p ∧
        ∃ before x after signature, txs = before ++ x :: after ∧
          x.op = .submitLiveness p signature ∧ p.observedAt ≤ x.now ∧
          (∀ y ∈ after, y.op.isTripGate = false) ∧
          signing.recoverLiveness p signature = some cfg.guardian) := by
  obtain ⟨hg, hl⟩ := histories_execAll run
  refine ⟨fun now reading value updatedAt served => ?_, fun x s' done quarantined cleared => ?_,
    fun now live => ?_⟩
  · simp only [validatedPrice, bind_eq_ok, if_true, pure_eq_ok] at served
    obtain ⟨data, read, -, -, u, checked, same⟩ := served
    unfold checkStored at checked
    cases stored : s.guard.health with
    | none => simp [stored] at checked
    | some h =>
      rw [stored] at checked
      have approves := approves_of_checkHealth checked
      rw [hg.epoch, hg.recoveryAt] at approves
      exact ⟨h, data, rfl, read, same.symm, approves, hg.accepted h stored⟩
  · unfold exec at done
    split at done
    all_goals rename_i is
    · simp only [bind_eq_ok, pure_eq_ok, tripGuard, revertIf_eq_ok] at done
      obtain ⟨g', ⟨-, -, -, -, rfl⟩, rfl⟩ := done
      simp [quarantined] at cleared
    · simp only [bind_eq_ok, pure_eq_ok] at done
      obtain ⟨g', accepted, rfl⟩ := done
      obtain ⟨signed, -, data, read, approves⟩ := submitHealth_eq_ok accepted
      rw [hg.epoch, hg.recoveryAt] at approves
      exact ⟨_, _, _, data, is, read, signed, approves⟩
    · simp only [bind_eq_ok, pure_eq_ok] at done
      obtain ⟨g', -, rfl⟩ := done
      exact absurd (quarantined.symm.trans cleared) (by decide)
    · simp only [bind_eq_ok, pure_eq_ok] at done
      obtain ⟨g', -, rfl⟩ := done
      exact absurd (quarantined.symm.trans cleared) (by decide)
  · cases stored : s.gate.liveness with
    | none => simp [requireLive, stored] at live
    | some p =>
      simp only [requireLive, stored, revertIf_eq_ok, not_or, not_le] at live
      obtain ⟨attests, accepted⟩ := hl.accepted p stored
      rw [hl.epoch, hl.recoveryAt] at attests
      exact ⟨p, rfl, live.2, attests, accepted⟩

/-! ### A trip of both, and the messages that end it -/

def sampleConfig : Config where
  maxPriceAge := 3600
  guardian := 9
  primaryDecimals := 8
  maxPriceAge_ge := by decide
  maxPriceAge_le := by decide
  guardian_ne_zero := by decide
  primaryDecimals_le := Nat.le_add_right 8 10

/-- A round is its own hash, and a signature is the account that signs. -/
def sampleSigning : Signing (ℕ × ℕ × ℕ) Address Liveness where
  roundHash := fun round value updated => (round, value, updated)
  recoverHealth := fun _ signer => some signer
  recoverLiveness := fun _ signer => some signer

/-- The token at 200 USD, at the time 1000. -/
def sampleReading : Reading :=
  ⟨some 8, some false, some ⟨7, 20000000000, 1000, 7⟩, some 0⟩

def sampleTxs : List (Tx (ℕ × ℕ × ℕ) Address) :=
  [⟨1000, .submitHealth ⟨7, 1000, 1060, 900, 9000, (7, 200 * 10 ^ 18, 1000), 0⟩ 9 sampleReading⟩,
    ⟨1010, .tripGuard 9 true⟩, ⟨1010, .tripGate 9⟩,
    ⟨1140, .submitHealth ⟨7, 1135, 1190, 900, 9000, (7, 200 * 10 ^ 18, 1000), 1⟩ 9 sampleReading⟩,
    ⟨1140, .submitLiveness ⟨1135, 1011, 1180, 1⟩ 9⟩]

/-- What the five transactions leave. -/
def sampleOracles : Pair (ℕ × ℕ × ℕ) :=
  ⟨⟨1, 1130, false, some ⟨7, 1135, 1190, 900, 9000, (7, 200 * 10 ^ 18, 1000), 1⟩⟩,
    ⟨1, 1010, some ⟨1135, 1011, 1180, 1⟩⟩⟩

theorem sample_circuit_safe :
    execAll sampleConfig sampleSigning sampleTxs ⟨deployGuard 0, deployGate 0⟩ = .ok sampleOracles ∧
    validatedPrice sampleConfig sampleSigning true 1150 sampleReading sampleOracles.guard =
      .ok (200 * 10 ^ 18, 1000) ∧
    requireLive 1150 sampleOracles.gate = .ok () ∧
    ∃ p, sampleOracles.gate.liveness = some p ∧ 1150 < p.validUntil ∧ Attests 1 1010 p := by
  have run : execAll sampleConfig sampleSigning sampleTxs ⟨deployGuard 0, deployGate 0⟩ =
      .ok sampleOracles := by rfl
  have live : requireLive 1150 sampleOracles.gate = .ok () := by rfl
  obtain ⟨p, stored, unexpired, attests, -⟩ :=
    (circuit_safe sampleConfig sampleSigning 0 0 sampleTxs _ run).2.2 1150 live
  exact ⟨run, by rfl, live, p, stored, unexpired, attests⟩

end Turret.Circuit
