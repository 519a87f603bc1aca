import Turret.RiskMonitor.Policy

/-! What the monitor signs the guard accepts: in every session, at every time
before it expires, as long as the guard has not been tripped and its feed has
not moved on. -/

namespace Turret.RiskMonitor

open Execution Calendar

variable {H Signature : Type} {cfg : Circuit.Config}
  {signing : Circuit.Signing H Signature Circuit.Liveness} {roundHash : ℕ → ℕ → ℕ → H}
  {m : Market} {raw : Circuit.Round} {evaluated wallSeconds now : ℤ} {result : Healthy H}
  {fields : Circuit.Health H} {epoch recoveryAt : ℕ}

/-! ### What is evaluated and what is signed -/

theorem evaluateMarket_ok (h : evaluateMarket roundHash m evaluated wallSeconds = .ok result) :
    sessionAt evaluated m.sessionPolicy = .ok result.session ∧ result.roundId = m.primary.round ∧
      result.roundHash =
        roundHash m.primary.round m.primary.answer.toNat m.primary.timestamp := by
  simp only [evaluateMarket, bind_eq_ok, revertIf_eq_ok, exists_const, mapError_eq_ok, pure_eq_ok]
    at h
  obtain ⟨-, session, opened, -, -, -, -, quote, -, -, -, -, -, -, -, -, -, -, rfl⟩ := h
  exact ⟨opened, rfl, rfl⟩

theorem unsigned_eq_ok {bits n : ℕ} {k : ℤ} (h : unsigned bits k = .ok n) : (n : ℤ) = k := by
  rw [unsigned] at h
  split_ifs at h with range
  obtain rfl := Except.ok.inj h
  exact Int.toNat_of_nonneg range.1

theorem capped_le (n : ℤ) (cap : Option ℤ) : capped n cap ≤ n ∧ ∀ c, cap = some c → capped n cap ≤ c := by
  cases cap with
  | none => exact ⟨le_rfl, fun c none => (by cases none)⟩
  | some c =>
    refine ⟨min_le_left .., fun c' same => ?_⟩
    obtain rfl := Option.some.inj same
    exact min_le_right ..

/-- The message, and the limits of its expiry. -/
structure Signed (result : Healthy H) (epoch recoveryAt : ℕ) (now : ℤ) (fields : Circuit.Health H) :
    Prop where
  round : fields.roundId = result.roundId ∧ fields.roundHash = result.roundHash
  epoch : fields.epoch = epoch
  observed : (fields.observedAt : ℤ) = now
  recovered : recoveryAt ≤ fields.observedAt
  sessionOpen : (fields.sessionOpen : ℤ) = windowOpen result.session now
  sessionClose : (fields.sessionClose : ℤ) =
    min result.session.sessionClose (windowOpen result.session now + 23400)
  lasts : now + 15 ≤ fields.validUntil
  short : (fields.validUntil : ℤ) ≤ now + 45
  quote_age : (fields.validUntil : ℤ) ≤ result.sourceTime + result.quoteMaxAgeSeconds.getD 60
  close : (fields.validUntil : ℤ) ≤ result.session.sessionClose
  quote : ∀ t, result.quoteValidUntil = some t → (fields.validUntil : ℤ) ≤ t
  admission : ∀ t, result.admissionValidUntil = some t → (fields.validUntil : ℤ) ≤ t

theorem makeProof_ok (h : makeProof (.ok result) epoch recoveryAt now = .ok fields) :
    Signed result epoch recoveryAt now fields := by
  simp only [makeProof, bind_eq_ok, mapError_eq_ok, revertIf_eq_ok, exists_const, not_lt,
    pure_eq_ok, Except.ok.injEq, exists_eq_left'] at h
  obtain ⟨recovered, lasts, roundId, round, observedAt, observed, validUntil, expires, sessionOpen,
    opens, sessionClose, closes, epoch', same, rfl⟩ := h
  have until_ := unsigned_eq_ok expires
  have observed := unsigned_eq_ok observed
  obtain ⟨le_admission, quote⟩ := capped_le (capped (min (min (now + 45)
    (result.sourceTime + result.quoteMaxAgeSeconds.getD 60)) result.session.sessionClose)
    result.admissionValidUntil) result.quoteValidUntil
  obtain ⟨le_close, admission⟩ := capped_le (min (min (now + 45)
    (result.sourceTime + result.quoteMaxAgeSeconds.getD 60)) result.session.sessionClose)
    result.admissionValidUntil
  have bound : (validUntil : ℤ) ≤ min (min (now + 45)
      (result.sourceTime + result.quoteMaxAgeSeconds.getD 60)) result.session.sessionClose := by
    rw [until_]
    exact le_admission.trans le_close
  obtain ⟨bound, close⟩ := le_min_iff.mp bound
  obtain ⟨short, age⟩ := le_min_iff.mp bound
  exact
    { round := ⟨Int.natCast_inj.mp (unsigned_eq_ok round), rfl⟩
      epoch := Int.natCast_inj.mp (unsigned_eq_ok same)
      observed := observed
      recovered := by
        change recoveryAt ≤ observedAt
        omega
      sessionOpen := unsigned_eq_ok opens
      sessionClose := unsigned_eq_ok closes
      lasts := by
        change now + 15 ≤ (validUntil : ℤ)
        omega
      short := short
      quote_age := age
      close := close
      quote := fun t known => by
        change (validUntil : ℤ) ≤ t
        rw [until_]
        exact quote t known
      admission := fun t known => by
        change (validUntil : ℤ) ≤ t
        rw [until_]
        exact le_admission.trans (admission t known) }

/-! ### The guard -/

variable [DecidableEq H]

/-- A step of the guard leaves its epoch and its recovery time, or begins a later epoch. -/
theorem guard_step {x : Circuit.Tx H Signature} {s s' : Circuit.Pair H}
    (done : Circuit.exec cfg signing x s = .ok s') :
    s'.guard.epoch = s.guard.epoch ∧ s'.guard.recoveryAt = s.guard.recoveryAt ∨
      s.guard.epoch < s'.guard.epoch := by
  obtain ⟨time, op⟩ := x
  cases op with
  | tripGuard sender unsafePrice =>
    simp only [Circuit.exec, Circuit.tripGuard, bind_eq_ok, revertIf_eq_ok, exists_const,
      pure_eq_ok] at done
    obtain ⟨g, ⟨-, -, rfl⟩, rfl⟩ := done
    exact .inr (Nat.lt_succ_self _)
  | submitHealth h signature reading =>
    simp only [Circuit.exec, bind_eq_ok, pure_eq_ok] at done
    obtain ⟨g, submitted, rfl⟩ := done
    obtain ⟨-, rfl, -⟩ := Circuit.submitHealth_eq_ok submitted
    exact .inl ⟨rfl, rfl⟩
  | tripGate sender =>
    simp only [Circuit.exec, bind_eq_ok, pure_eq_ok] at done
    obtain ⟨g, -, rfl⟩ := done
    exact .inl ⟨rfl, rfl⟩
  | submitLiveness p signature =>
    simp only [Circuit.exec, bind_eq_ok, pure_eq_ok] at done
    obtain ⟨g, -, rfl⟩ := done
    exact .inl ⟨rfl, rfl⟩

/-- The recovery time is that of the epoch. -/
theorem recoveryAt_of_epoch {txs : List (Circuit.Tx H Signature)} {s s' : Circuit.Pair H}
    (run : Circuit.execAll cfg signing txs s = .ok s') :
    s'.guard.epoch = s.guard.epoch ∧ s'.guard.recoveryAt = s.guard.recoveryAt ∨
      s.guard.epoch < s'.guard.epoch := by
  induction txs generalizing s with
  | nil =>
    cases run
    exact .inl ⟨rfl, rfl⟩
  | cons x txs ih =>
    rw [Circuit.execAll, List.foldlM_cons, bind_eq_ok] at run
    obtain ⟨mid, first, rest⟩ := run
    rcases guard_step first with ⟨epoch, recovery⟩ | more <;>
      rcases ih rest with ⟨epoch', recovery'⟩ | more'
    · exact .inl ⟨epoch'.trans epoch, recovery'.trans recovery⟩
    · exact .inr (epoch ▸ more')
    · exact .inr (epoch'.symm ▸ more)
    · exact .inr (more.trans more')

/-- What the guard asks of a message. -/
theorem checkHealth_ok {h : Circuit.Health H} {data : Circuit.Data} {t : ℕ} {g : Circuit.Guard H}
    (bound : h.epoch = g.epoch ∧ h.roundId = data.roundId ∧
      h.roundHash = signing.roundHash data.roundId data.value data.updatedAt)
    (observed : 0 < h.observedAt ∧ h.observedAt ≤ t)
    (lifetime : h.observedAt < h.validUntil ∧ h.validUntil ≤ h.observedAt + 60)
    (unexpired : t < h.validUntil) (recovered : g.recoveryAt ≤ h.observedAt)
    (window : h.sessionClose ≤ h.sessionOpen + 23400 ∧ h.sessionOpen ≤ h.observedAt)
    (within : h.validUntil ≤ h.sessionClose) :
    Circuit.checkHealth signing h data t g = .ok () := by
  obtain ⟨epoch, id, hash⟩ := bound
  have message : ¬(h.epoch ≠ g.epoch ∨ h.roundId ≠ data.roundId ∨
      h.roundHash ≠ signing.roundHash data.roundId data.value data.updatedAt ∨ h.observedAt = 0 ∨
      t < h.observedAt ∨ h.validUntil ≤ h.observedAt ∨
      Circuit.MAX_HEALTH_AGE < h.validUntil - h.observedAt) := by
    simp only [epoch, id, hash, Circuit.MAX_HEALTH_AGE, ne_eq, not_true, false_or]
    omega
  have session : ¬(h.sessionClose ≤ h.sessionOpen ∨ 23400 < h.sessionClose - h.sessionOpen ∨
      h.observedAt < h.sessionOpen ∨ t < h.sessionOpen ∨ h.sessionClose ≤ t ∨
      h.sessionClose < h.validUntil) := by
    omega
  rw [Circuit.checkHealth, revertIf, if_neg message, ok_bind, revertIf,
    if_neg (Nat.not_le.mpr unexpired), ok_bind, revertIf, if_neg (Nat.not_lt.mpr recovered), ok_bind,
    revertIf, if_neg session]

/-! ### Approvals -/

omit [DecidableEq H] in
/-- The window of a message made while its session is open. -/
theorem Signed.window (h : Signed result epoch recoveryAt now fields)
    (opened : result.session.sessionOpen ≤ now) :
    (fields.sessionClose ≤ fields.sessionOpen + 23400 ∧ fields.sessionOpen ≤ fields.observedAt) ∧
      fields.validUntil ≤ fields.sessionClose := by
  have opens := h.sessionOpen
  have closes := h.sessionClose
  have observed := h.observed
  have short := h.short
  have close := h.close
  rw [windowOpen] at opens closes
  split_ifs at opens closes with long <;> omega

theorem positive_of_session {policy : SessionPolicy} {t : ℤ} {s : Session}
    (h : sessionAt t policy = .ok s) : 0 < t := by
  have opens := opens_of_sessionAt h
  obtain ⟨low, -⟩ := hours_bounds opens.hours
  have reviewed := opens.trading.reviewed.1
  have first : date 2026 1 1 = 20454 := by decide
  have opened := opens.open_le
  rcases offset_cases t with ⟨same, -⟩ | ⟨same, -⟩ <;> omega

/-- The value that the guard reads of a round is the answer that the monitor was given. -/
theorem currentData_normalized {reading : Circuit.Reading} {t : ℕ} {data : Circuit.Data}
    (unchanged : reading.latestRoundData = some raw)
    (read : Circuit.currentData cfg t reading = .ok data) :
    data.roundId = (normalized cfg.primaryDecimals raw).round ∧
      data.value = (normalized cfg.primaryDecimals raw).answer.toNat ∧
      data.updatedAt = (normalized cfg.primaryDecimals raw).timestamp := by
  simp only [Circuit.currentData, bind_eq_ok, orRevert_eq_ok, revertIf_eq_ok, exists_const,
    pure_eq_ok, unchanged, Option.some.injEq, exists_eq_left', not_or, not_le] at read
  obtain ⟨decimals, -, -, paused, -, -, ⟨-, positive, -⟩, -, effective, -, -, rfl⟩ := read
  refine ⟨rfl, ?_, rfl⟩
  have scale : (10 : ℤ) ^ (18 - cfg.primaryDecimals) = ((10 ^ (18 - cfg.primaryDecimals) : ℕ) : ℤ) := by
    rw [Nat.cast_pow]
    rfl
  change raw.answer.toNat * 10 ^ (18 - cfg.primaryDecimals) =
    (raw.answer * 10 ^ (18 - cfg.primaryDecimals)).toNat
  rw [scale, Int.toNat_mul positive.le (Int.natCast_nonneg _), Int.toNat_natCast]

/-- Of a healthy market in any session: what is signed at a time not before the evaluation passes
the guard's check in every block until it expires, if the guard has not been tripped since and the
round of its feed is unchanged; and it expires with the session, the quote and the 45 seconds. -/
theorem approvals_accepted {s : Circuit.Pair H} {admissionValidUntil : Option ℤ}
    (primary : m.primary = normalized cfg.primaryDecimals raw)
    (healthy : evaluateMarket signing.roundHash m evaluated wallSeconds = .ok result)
    (later : evaluated ≤ now)
    (made : makeProof (.ok { result with admissionValidUntil }) s.guard.epoch s.guard.recoveryAt now =
      .ok fields) :
    (∀ txs s' t reading data, Circuit.execAll cfg signing txs s = .ok s' →
      s'.guard.epoch = s.guard.epoch → reading.latestRoundData = some raw →
      Circuit.currentData cfg t reading = .ok data → now ≤ t → t < fields.validUntil →
      Circuit.checkHealth signing fields data t s'.guard = .ok () ∧
        fields.sessionOpen ≤ t ∧ t < fields.sessionClose) ∧
    Signed { result with admissionValidUntil } s.guard.epoch s.guard.recoveryAt now fields ∧
    (fields.sessionClose ≤ fields.sessionOpen + 23400 ∧ fields.sessionOpen ≤ fields.observedAt) ∧
    fields.validUntil ≤ fields.sessionClose ∧
    (∀ u, result.session.sessionOpen ≤ u → u < result.session.sessionClose →
      sessionAt u m.sessionPolicy = .ok result.session) ∧
    sessionAt result.session.sessionClose m.sessionPolicy ≠ .ok result.session := by
  obtain ⟨session, id, hash⟩ := evaluateMarket_ok healthy
  have signed := makeProof_ok made
  obtain ⟨during, ends⟩ := session_until_close session
  have opened := (opens_of_sessionAt session).open_le
  have positive := positive_of_session session
  obtain ⟨window, within⟩ := signed.window (opened.trans later)
  refine ⟨fun txs s' t reading data run epoch unchanged read after before => ?_, signed, window,
    within, during, ends⟩
  have recovery : s'.guard.recoveryAt = s.guard.recoveryAt := by
    rcases recoveryAt_of_epoch run with ⟨-, same⟩ | more
    · exact same
    · omega
  obtain ⟨round, value, time⟩ := currentData_normalized unchanged read
  have observed := signed.observed
  have lasts := signed.lasts
  have short := signed.short
  have recovered := signed.recovered
  have bound : fields.epoch = s'.guard.epoch ∧ fields.roundId = data.roundId ∧
      fields.roundHash = signing.roundHash data.roundId data.value data.updatedAt := by
    refine ⟨signed.epoch.trans epoch.symm, ?_, ?_⟩
    · rw [round, ← primary]
      exact signed.round.1.trans id
    · rw [round, value, time, ← primary]
      exact signed.round.2.trans hash
  refine ⟨checkHealth_ok bound ?_ ?_ before ?_ window within, ?_, ?_⟩
  · omega
  · omega
  · rw [recovery]
    exact recovered
  · omega
  · omega

/-! ### An overnight session -/

/-- 2026-09-03, 02:10 universal time. -/
def sampleTime : ℕ := 1788401400

def sampleRound : Circuit.Round := ⟨2, 100 * 10 ^ 8, sampleTime - 1, 2⟩

def sampleReading : Circuit.Reading := ⟨some 8, some false, some sampleRound, some 0⟩

def sampleMarket : Market where
  snapshot := some
    ⟨some ⟨['1', '0', '0'], some (sampleTime * 1000)⟩,
      some ⟨['9', '9', '.', '9', '9'], ['1', '0', '0', '.', '0', '1'], some (sampleTime * 1000)⟩⟩
  primary := normalized 8 sampleRound
  multiplier := 10 ^ 18
  effectiveAt := 0
  tokenPaused := false
  maxPriceAgeSeconds := 300
  sessionPolicy := .equities24x5
  sourceFeed := .boats
  admissionLimits := none

def sampleState : Circuit.Pair (ℕ × ℕ × ℕ) :=
  ⟨Circuit.deployGuard (sampleTime - 200), Circuit.deployGate (sampleTime - 200)⟩

def sampleHealthy : Healthy (ℕ × ℕ × ℕ) :=
  reached ⟨0, (0, 0, 0), ⟨.regular, 0, 0, 0⟩, 0, none, none, (0, .regular, .iex), none⟩
    (evaluateMarket Circuit.sampleSigning.roundHash sampleMarket sampleTime sampleTime)

def sampleFields : Circuit.Health (ℕ × ℕ × ℕ) :=
  reached ⟨0, 0, 0, 0, 0, (0, 0, 0), 0⟩ (makeProof (.ok sampleHealthy) 0 (sampleTime - 80) sampleTime)

theorem sample_approval : Circuit.checkHealth Circuit.sampleSigning sampleFields
    ⟨100 * 10 ^ 18, sampleTime - 1, 2⟩ (sampleTime + 30) sampleState.guard = .ok () := by
  have healthy : evaluateMarket Circuit.sampleSigning.roundHash sampleMarket sampleTime sampleTime =
      .ok sampleHealthy := eq_ok_reached _ (by decide +kernel)
  have made : makeProof (.ok { sampleHealthy with admissionValidUntil := none }) 0
      (sampleTime - 80) sampleTime = .ok sampleFields := eq_ok_reached _ (by decide +kernel)
  have primary : sampleMarket.primary =
      normalized Circuit.sampleConfig.primaryDecimals sampleRound := rfl
  have accepted := approvals_accepted (s := sampleState) primary healthy le_rfl made
  exact (accepted.1 [] sampleState (sampleTime + 30) sampleReading _ rfl rfl rfl rfl
    (by decide) (by decide +kernel)).1

end Turret.RiskMonitor
