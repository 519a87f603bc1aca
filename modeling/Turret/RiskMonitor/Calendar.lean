import Turret.Library.Execution

/-! The trading calendar of the risk monitor. A date is the number of its day
since 1970-01-01, as in `Date.parse`, and New York time is told for the years
that the calendar knows: summer time begins and ends there on a Sunday, when
no session is open. -/

namespace Turret.RiskMonitor.Calendar

open Execution

/-- The day of a civil date. -/
def date (year month day : ℤ) : ℤ :=
  let year := if month ≤ 2 then year - 1 else year
  let yearDay := (153 * (if 2 < month then month - 3 else month + 9) + 2) / 5 + day - 1
  365 * year + year / 4 - year / 100 + year / 400 + yearDay - 719468

/-- `reviewedYears`. -/
def Reviewed (d : ℤ) : Prop := date 2026 1 1 ≤ d ∧ d < date 2029 1 1

instance (d : ℤ) : Decidable (Reviewed d) := inferInstanceAs (Decidable (_ ∧ _))

def holidays : List ℤ :=
  [date 2026 1 1, date 2026 1 19, date 2026 2 16, date 2026 4 3, date 2026 5 25, date 2026 6 19,
    date 2026 7 3, date 2026 9 7, date 2026 11 26, date 2026 12 25,
    date 2027 1 1, date 2027 1 18, date 2027 2 15, date 2027 3 26, date 2027 5 31, date 2027 6 18,
    date 2027 7 5, date 2027 9 6, date 2027 11 25, date 2027 12 24,
    date 2028 1 17, date 2028 2 21, date 2028 4 14, date 2028 5 29, date 2028 6 19, date 2028 7 4,
    date 2028 9 4, date 2028 11 23, date 2028 12 25]

def earlyCloses : List ℤ :=
  [date 2026 11 27, date 2026 12 24, date 2027 11 26, date 2028 7 3, date 2028 11 24]

/-- `getUTCDay`: 0 is a Sunday. -/
def weekday (d : ℤ) : ℤ := (d + 4) % 7

/-- When summer time begins, at 02:00 of winter time, and ends, at 02:00 of its own. -/
def summers : List (ℤ × ℤ) :=
  [(date 2026 3 8 * 86400 + 25200, date 2026 11 1 * 86400 + 21600),
    (date 2027 3 14 * 86400 + 25200, date 2027 11 7 * 86400 + 21600),
    (date 2028 3 12 * 86400 + 25200, date 2028 11 5 * 86400 + 21600)]

/-- New York time less universal time. -/
def offset (now : ℤ) : ℤ :=
  if ∃ summer ∈ summers, summer.1 ≤ now ∧ now < summer.2 then -14400 else -18000

/-- The local day, as `formatter` tells it. -/
def localDate (now : ℤ) : ℤ := (now + offset now) / 86400

/-- The seconds of the local day. -/
def localSeconds (now : ℤ) : ℤ := (now + offset now) % 86400

inductive SessionPolicy
  | regular
  | equities24x5
  deriving DecidableEq

inductive SessionKind
  | overnight
  | premarket
  | regular
  | postmarket
  deriving DecidableEq

structure Session where
  kind : SessionKind
  tradeDate : ℤ
  sessionOpen : ℤ
  sessionClose : ℤ
  deriving DecidableEq

/-- Why no session is open. -/
inductive Closed
  | calendarExpired
  | marketClosed
  deriving DecidableEq

/-- The session of the policy `equities-24x5`. -/
def extendedSession (day seconds midnight : ℤ) : Except Closed Session := do
  -- the session from 20:00 on belongs to the following trading date
  let nextDay : Bool := decide (20 * 3600 ≤ seconds)
  let tradeDate := if nextDay then day + 1 else day
  revertIf (¬Reviewed tradeDate) .calendarExpired
  revertIf (weekday tradeDate = 0 ∨ weekday tradeDate = 6 ∨ tradeDate ∈ holidays) .marketClosed
  if nextDay ∨ seconds < 4 * 3600 then
    let sessionOpen := midnight + (if nextDay then 20 else -4) * 3600
    pure ⟨.overnight, tradeDate, sessionOpen, sessionOpen + 8 * 3600⟩
  else if seconds < 9 * 3600 + 30 * 60 then
    pure ⟨.premarket, tradeDate, midnight + 4 * 3600, midnight + (9 * 3600 + 30 * 60)⟩
  else if seconds < (if tradeDate ∈ earlyCloses then 13 else 16) * 3600 then
    pure ⟨.regular, tradeDate, midnight + (9 * 3600 + 30 * 60),
      midnight + (if tradeDate ∈ earlyCloses then 13 else 16) * 3600⟩
  else do
    revertIf (tradeDate ∈ earlyCloses) .marketClosed
    pure ⟨.postmarket, tradeDate, midnight + 16 * 3600, midnight + 20 * 3600⟩

/-- The session of the policy `regular`: 09:35 to 15:50, or to 12:50 on half days. -/
def regularSession (now day midnight : ℤ) : Except Closed Session := do
  revertIf (weekday day = 6 ∨ weekday day = 0 ∨ day ∈ holidays) .marketClosed
  let sessionOpen := midnight + (9 * 3600 + 35 * 60)
  let sessionClose := midnight + ((if day ∈ earlyCloses then 12 else 15) * 3600 + 50 * 60)
  revertIf (¬(sessionOpen ≤ now ∧ now < sessionClose)) .marketClosed
  pure ⟨.regular, day, sessionOpen, sessionClose⟩

/-- The session that is open at a time. -/
def sessionAt (now : ℤ) (policy : SessionPolicy) : Except Closed Session := do
  let day := localDate now
  let seconds := localSeconds now
  let midnight := now - seconds
  revertIf (¬Reviewed day) .calendarExpired
  match policy with
  | .equities24x5 => extendedSession day seconds midnight
  | .regular => regularSession now day midnight

/-- Overnight into 2026-09-03, and closed on the evening before Labor Day. -/
example : sessionAt 1788400800 .equities24x5 = .ok ⟨.overnight, date 2026 9 3, 1788393600, 1788422400⟩ ∧
    sessionAt 1788739200 .equities24x5 = .error .marketClosed := by decide +kernel

/-! ### When a session is open -/

/-- A trading date. -/
structure Trading (d : ℤ) : Prop where
  reviewed : Reviewed d
  weekend : weekday d ≠ 0 ∧ weekday d ≠ 6
  holiday : d ∉ holidays

/-- The hours of a session in seconds of its trading date; a half day has no postmarket. -/
def hours (policy : SessionPolicy) (kind : SessionKind) (tradeDate : ℤ) : Option (ℤ × ℤ) :=
  let early : Bool := decide (tradeDate ∈ earlyCloses)
  match policy, kind with
  | .regular, .regular => some (34500, if early then 46200 else 57000)
  | .regular, _ => none
  | .equities24x5, .overnight => some (-14400, 14400)
  | .equities24x5, .premarket => some (14400, 34200)
  | .equities24x5, .regular => some (34200, if early then 46800 else 57600)
  | .equities24x5, .postmarket => if early then none else some (57600, 72000)

/-- The session is of its hours, and the time is within them. -/
structure Opens (policy : SessionPolicy) (now : ℤ) (s : Session) : Prop where
  trading : Trading s.tradeDate
  hours : hours policy s.kind s.tradeDate =
    some (s.sessionOpen + offset now - 86400 * s.tradeDate,
      s.sessionClose + offset now - 86400 * s.tradeDate)
  open_le : s.sessionOpen ≤ now
  lt_close : now < s.sessionClose

variable {policy : SessionPolicy} {now : ℤ} {s : Session}

theorem local_split (now : ℤ) :
    86400 * localDate now + localSeconds now = now + offset now ∧ 0 ≤ localSeconds now ∧
      localSeconds now < 86400 := by
  rw [localDate, localSeconds]
  omega

/-- No session is longer than eight hours, and only the overnight one begins before its date. -/
theorem hours_bounds {kind : SessionKind} {d first last : ℤ}
    (known : hours policy kind d = some (first, last)) :
    -14400 ≤ first ∧ last ≤ 72000 ∧ last ≤ first + 28800 ∧ (kind = .overnight ∨ 14400 ≤ first) := by
  simp only [hours] at known
  split at known
  · obtain ⟨rfl, rfl⟩ := Prod.mk.inj (Option.some.inj known)
    split_ifs <;> norm_num
  · cases known
  · obtain ⟨rfl, rfl⟩ := Prod.mk.inj (Option.some.inj known)
    norm_num
  · obtain ⟨rfl, rfl⟩ := Prod.mk.inj (Option.some.inj known)
    norm_num
  · obtain ⟨rfl, rfl⟩ := Prod.mk.inj (Option.some.inj known)
    split_ifs <;> norm_num
  · split_ifs at known
    obtain ⟨rfl, rfl⟩ := Prod.mk.inj (Option.some.inj known)
    norm_num

theorem opens_mk {kind : SessionKind} {d first last sessionOpen sessionClose : ℤ}
    (trading : Trading d) (known : hours policy kind d = some (first, last))
    (opens : 86400 * d + first = sessionOpen + offset now)
    (closes : 86400 * d + last = sessionClose + offset now)
    (within : first ≤ now + offset now - 86400 * d ∧ now + offset now - 86400 * d < last) :
    Opens policy now ⟨kind, d, sessionOpen, sessionClose⟩ := by
  refine ⟨trading, known.trans (congrArg some (Prod.ext ?_ ?_)), ?_, ?_⟩
  · change first = sessionOpen + offset now - 86400 * d
    omega
  · change last = sessionClose + offset now - 86400 * d
    omega
  · change sessionOpen ≤ now
    omega
  · change now < sessionClose
    omega

theorem extendedSession_late {d seconds midnight : ℤ} (trading : Trading (d + 1))
    (late : 72000 ≤ seconds) : extendedSession d seconds midnight =
      .ok ⟨.overnight, d + 1, midnight + 72000, midnight + 100800⟩ := by
  obtain ⟨reviewed, ⟨sunday, saturday⟩, holiday⟩ := trading
  have nextDay : 20 * 3600 ≤ seconds := late
  have open_ : ¬(weekday (d + 1) = 0 ∨ weekday (d + 1) = 6 ∨ d + 1 ∈ holidays) := by tauto
  simp only [extendedSession, nextDay, decide_true, if_true, true_or, revertIf, not_true, reviewed,
    open_, if_false, ok_bind, pure_eq_ok]
  exact congrArg _ (by omega)

theorem extendedSession_at {d seconds midnight : ℤ} (trading : Trading d) (early : seconds < 72000) :
    extendedSession d seconds midnight =
      if seconds < 14400 then .ok ⟨.overnight, d, midnight - 14400, midnight + 14400⟩
      else if seconds < 34200 then .ok ⟨.premarket, d, midnight + 14400, midnight + 34200⟩
      else if d ∈ earlyCloses then
        if seconds < 46800 then .ok ⟨.regular, d, midnight + 34200, midnight + 46800⟩
        else .error .marketClosed
      else if seconds < 57600 then .ok ⟨.regular, d, midnight + 34200, midnight + 57600⟩
      else .ok ⟨.postmarket, d, midnight + 57600, midnight + 72000⟩ := by
  obtain ⟨reviewed, ⟨sunday, saturday⟩, holiday⟩ := trading
  have today : ¬20 * 3600 ≤ seconds := by omega
  have open_ : ¬(weekday d = 0 ∨ weekday d = 6 ∨ d ∈ holidays) := by tauto
  have night : midnight + -4 * 3600 = midnight - 14400 := by omega
  have dawn : midnight - 14400 + 8 * 3600 = midnight + 14400 := by omega
  simp only [extendedSession, today, decide_false, Bool.false_eq_true, if_false, false_or, revertIf,
    not_true, reviewed, open_, ok_bind, night, dawn]
  by_cases half : d ∈ earlyCloses
  · simp only [half, if_true]
    rfl
  · simp only [half, if_false]
    rfl

theorem trading_of_extendedSession {day seconds midnight : ℤ}
    (h : extendedSession day seconds midnight = .ok s) :
    Trading (if 72000 ≤ seconds then day + 1 else day) := by
  simp only [extendedSession, bind_eq_ok, revertIf_eq_ok, exists_const, not_or, not_not,
    decide_eq_true_iff] at h
  obtain ⟨reviewed, ⟨sunday, saturday, holiday⟩, -⟩ := h
  exact ⟨reviewed, ⟨sunday, saturday⟩, holiday⟩

theorem opens_of_sessionAt (h : sessionAt now policy = .ok s) : Opens policy now s := by
  obtain ⟨split, low, high⟩ := local_split now
  simp only [sessionAt, bind_eq_ok, revertIf_eq_ok, exists_const, not_not] at h
  obtain ⟨reviewed, h⟩ := h
  cases policy with
  | regular =>
    simp only [regularSession, bind_eq_ok, revertIf_eq_ok, exists_const, pure_eq_ok, not_or,
      not_not] at h
    obtain ⟨⟨saturday, sunday, holiday⟩, ⟨opened, closes⟩, rfl⟩ := h
    refine opens_mk ⟨reviewed, ⟨sunday, saturday⟩, holiday⟩ rfl (by omega) ?_ ⟨by omega, ?_⟩
    · simp only [decide_eq_true_iff]
      split_ifs <;> omega
    · simp only [decide_eq_true_iff]
      split_ifs at closes ⊢ <;> omega
  | equities24x5 =>
    have trading := trading_of_extendedSession h
    by_cases late : 72000 ≤ localSeconds now
    · rw [if_pos late] at trading
      obtain rfl := Except.ok.inj ((extendedSession_late trading late).symm.trans h)
      exact opens_mk trading rfl (by omega) (by omega) ⟨by omega, by omega⟩
    rw [if_neg late] at trading
    have result := (extendedSession_at trading (Int.not_le.mp late)).symm.trans h
    by_cases half : localDate now ∈ earlyCloses
    · have regular : hours .equities24x5 .regular (localDate now) = some (34200, 46800) := by
        simp only [hours, half, decide_true, if_true]
      rw [if_pos half] at result
      split_ifs at result with night morning day
      · obtain rfl := Except.ok.inj result
        exact opens_mk trading rfl (by omega) (by omega) ⟨by omega, by omega⟩
      · obtain rfl := Except.ok.inj result
        exact opens_mk trading rfl (by omega) (by omega) ⟨by omega, by omega⟩
      · obtain rfl := Except.ok.inj result
        exact opens_mk trading regular (by omega) (by omega) ⟨by omega, by omega⟩
    · have regular : hours .equities24x5 .regular (localDate now) = some (34200, 57600) := by
        simp only [hours, half, decide_false, Bool.false_eq_true, if_false]
      have evening : hours .equities24x5 .postmarket (localDate now) = some (57600, 72000) := by
        simp only [hours, half, decide_false, Bool.false_eq_true, if_false]
      rw [if_neg half] at result
      split_ifs at result with night morning day
      · obtain rfl := Except.ok.inj result
        exact opens_mk trading rfl (by omega) (by omega) ⟨by omega, by omega⟩
      · obtain rfl := Except.ok.inj result
        exact opens_mk trading rfl (by omega) (by omega) ⟨by omega, by omega⟩
      · obtain rfl := Except.ok.inj result
        exact opens_mk trading regular (by omega) (by omega) ⟨by omega, by omega⟩
      · obtain rfl := Except.ok.inj result
        exact opens_mk trading evening (by omega) (by omega) ⟨by omega, by omega⟩

theorem reviewed_before {d : ℤ} (h : Trading d) : Reviewed (d - 1) := by
  have first : d ≠ date 2026 1 1 := fun same => h.holiday (same ▸ by decide)
  obtain ⟨low, high⟩ := h.reviewed
  exact ⟨by omega, by omega⟩

theorem sessionAt_reviewed (reviewed : Reviewed (localDate now)) :
    sessionAt now policy =
      match policy with
      | .equities24x5 => extendedSession (localDate now) (localSeconds now) (now - localSeconds now)
      | .regular => regularSession now (localDate now) (now - localSeconds now) := by
  rw [sessionAt.eq_def]
  simp only [revertIf, if_neg (not_not.mpr reviewed), ok_bind]

/-- A session is open for as long as its hours say. -/
theorem sessionAt_of_opens (h : Opens policy now s) : sessionAt now policy = .ok s := by
  obtain ⟨split, low, high⟩ := local_split now
  obtain ⟨kind, d, sessionOpen, sessionClose⟩ := s
  obtain ⟨trading, known, opened, closes⟩ := h
  change hours policy kind d = some (sessionOpen + offset now - 86400 * d,
    sessionClose + offset now - 86400 * d) at known
  change sessionOpen ≤ now at opened
  change now < sessionClose at closes
  have reviewed := trading.reviewed
  have bounds := hours_bounds known
  have session (first last : ℤ) (hours : some (first, last) = some
      (sessionOpen + offset now - 86400 * d, sessionClose + offset now - 86400 * d)) :
      first = sessionOpen + offset now - 86400 * d ∧ last = sessionClose + offset now - 86400 * d :=
    Prod.mk.inj (Option.some.inj hours)
  cases policy with
  | regular =>
    cases kind with
    | regular =>
      obtain ⟨first, last⟩ := session _ _ known
      have close_le : sessionClose + offset now - 86400 * d ≤ 57000 := by
        rw [← last]
        split_ifs <;> omega
      have day : localDate now = d := by omega
      rw [sessionAt_reviewed (day ▸ reviewed)]
      simp only [regularSession, bind_eq_ok, revertIf_eq_ok, exists_const, pure_eq_ok, not_or,
        not_not, day]
      simp only [decide_eq_true_iff] at last
      refine ⟨⟨trading.weekend.2, trading.weekend.1, trading.holiday⟩, ⟨by omega, ?_⟩, ?_⟩
      · split_ifs at last ⊢ <;> omega
      · refine congrArg₂ (Session.mk .regular d) (by omega) ?_
        split_ifs at last ⊢ <;> omega
    | overnight => cases known
    | premarket => cases known
    | postmarket => cases known
  | equities24x5 =>
    by_cases late : 72000 ≤ localSeconds now
    · have evening : kind = .overnight ∧ d = localDate now + 1 := by
        obtain ⟨low, high, -, overnight | morning⟩ := bounds
        · exact ⟨overnight, by omega⟩
        · omega
      obtain ⟨rfl, day⟩ := evening
      obtain ⟨first, last⟩ := session _ _ known
      have before : Reviewed (localDate now) := by
        have before := reviewed_before trading
        rwa [day, Int.add_sub_cancel] at before
      rw [sessionAt_reviewed before]
      refine (extendedSession_late (day ▸ trading) late).trans (congrArg Except.ok ?_)
      rw [← day]
      exact congrArg₂ (Session.mk .overnight d) (by omega) (by omega)
    · have early : localSeconds now < 72000 := Int.not_le.mp late
      have day : localDate now = d := by omega
      rw [sessionAt_reviewed (day ▸ reviewed)]
      refine (extendedSession_at (day ▸ trading) early).trans ?_
      rw [day]
      cases kind with
      | overnight =>
        obtain ⟨first, last⟩ := session _ _ known
        rw [if_pos (by omega)]
        exact congrArg Except.ok (congrArg₂ (Session.mk .overnight d) (by omega) (by omega))
      | premarket =>
        obtain ⟨first, last⟩ := session _ _ known
        rw [if_neg (by omega), if_pos (by omega)]
        exact congrArg Except.ok (congrArg₂ (Session.mk .premarket d) (by omega) (by omega))
      | regular =>
        obtain ⟨first, last⟩ := session _ _ known
        simp only [decide_eq_true_iff] at last
        rw [if_neg (by split_ifs at last <;> omega), if_neg (by split_ifs at last <;> omega)]
        by_cases half : d ∈ earlyCloses
        · rw [if_pos half] at last ⊢
          rw [if_pos (by omega)]
          exact congrArg Except.ok (congrArg₂ (Session.mk .regular d) (by omega) (by omega))
        · rw [if_neg half] at last ⊢
          rw [if_pos (by omega)]
          exact congrArg Except.ok (congrArg₂ (Session.mk .regular d) (by omega) (by omega))
      | postmarket =>
        simp only [hours] at known
        split_ifs at known with half
        rw [decide_eq_true_iff] at half
        obtain ⟨first, last⟩ := session _ _ known
        rw [if_neg (by omega), if_neg (by omega), if_neg half, if_neg (by omega)]
        exact congrArg Except.ok (congrArg₂ (Session.mk .postmarket d) (by omega) (by omega))

/-! ### When it closes -/

theorem offset_cases (now : ℤ) :
    offset now = -14400 ∧ (1772953200 ≤ now ∧ now < 1793512800 ∨
        1805007600 ≤ now ∧ now < 1825567200 ∨ 1836457200 ≤ now ∧ now < 1857016800) ∨
      offset now = -18000 ∧ (now < 1772953200 ∨ 1793512800 ≤ now ∧ now < 1805007600 ∨
        1825567200 ≤ now ∧ now < 1836457200 ∨ 1857016800 ≤ now) := by
  have years : summers = [(1772953200, 1793512800), (1805007600, 1825567200),
    (1836457200, 1857016800)] := by decide
  rw [offset, years]
  simp only [List.mem_cons, List.not_mem_nil, or_false, exists_eq_or_imp, exists_eq_left]
  split_ifs with summer
  · exact .inl ⟨rfl, summer⟩
  · exact .inr ⟨rfl, by omega⟩

/-- The clock is not changed while a session is open. -/
theorem Opens.offset_eq (h : Opens policy now s) {u : ℤ} (from_open : s.sessionOpen ≤ u)
    (to_close : u ≤ s.sessionClose) : offset u = offset now := by
  obtain ⟨low, high, -⟩ := hours_bounds h.hours
  have sunday := h.trading.weekend.1
  have opened := h.open_le
  have closes := h.lt_close
  rw [weekday] at sunday
  rcases offset_cases now with ⟨same, years⟩ | ⟨same, years⟩ <;>
    rcases offset_cases u with ⟨same', years'⟩ | ⟨same', years'⟩ <;> rw [same, same'] <;>
    rw [same] at low high <;> omega

/-- The session at a time is that at every other time until it closes, and not longer. -/
theorem session_until_close (h : sessionAt now policy = .ok s) :
    (∀ u, s.sessionOpen ≤ u → u < s.sessionClose → sessionAt u policy = .ok s) ∧
      sessionAt s.sessionClose policy ≠ .ok s := by
  have opens := opens_of_sessionAt h
  refine ⟨fun u from_open to_close => sessionAt_of_opens ⟨opens.trading, ?_, from_open, to_close⟩,
    fun still => ?_⟩
  · rw [opens.offset_eq from_open to_close.le]
    exact opens.hours
  · exact lt_irrefl _ (opens_of_sessionAt still).lt_close

end Turret.RiskMonitor.Calendar
