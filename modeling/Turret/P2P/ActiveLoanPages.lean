import Turret.P2P.ActiveSets

/-! Reading the active loans of an account page by page. Between two reads
anything may happen to the market; a page is only accepted with the revision
that the first one returned. -/

namespace Turret.LendingV3

open Execution

/-- The loop of a page reads a stretch of the array. -/
theorem range_map_getD {l : List ℕ} {c n : ℕ} (h : c + n ≤ l.length) :
    ((List.range n).map fun i => l.getD (c + i) 0) = (l.drop c).take n := by
  have short : n = min n (l.length - c) := by omega
  apply List.ext_getElem
  · simpa using short
  · intro i hi _
    have inside : c + i < l.length := by
      simp only [List.length_map, List.length_range] at hi
      omega
    simp [List.getElem?_eq_getElem inside]

variable {w w' : World} {account : Address} {cursor limit expected next revision : ℕ}
  {ids : List ℕ}

/-- The ids of the account, in the order the set holds them. -/
def activeIds (account : Address) (w : World) : List ℕ := (w.market.activeLoanIds account).members

/-- A page is a stretch of the set from `cursor` on, and `next` is where it ends, or zero at the
end of the set. -/
structure Page (account : Address) (cursor expected : ℕ) (w : World) (ids : List ℕ)
    (next revision : ℕ) : Prop where
  revision_eq : revision = w.market.activeLoanRevision account
  fresh : expected = 0 → cursor = 0
  matched : expected ≠ 0 → expected = revision
  last : next = 0 → ids = (activeIds account w).drop cursor
  more : next ≠ 0 → ids ++ (activeIds account w).drop next = (activeIds account w).drop cursor

theorem getActiveLoanIds_page
    (h : getActiveLoanIds account cursor limit expected w = .ok (ids, next, revision)) :
    Page account cursor expected w ids next revision := by
  simp only [getActiveLoanIds, bind_eq_ok, revertIf_eq_ok, exists_const, pure_eq_ok,
    Prod.mk.injEq, not_or, not_and, not_not, not_lt] at h
  obtain ⟨⟨fresh, matched⟩, ⟨positive, -, within⟩, ids_eq, next_eq, rfl⟩ := h
  change cursor ≤ (activeIds account w).length at within
  change (List.range _).map (fun i => (activeIds account w).getD (cursor + i) 0) = ids at ids_eq
  change (if cursor + _ = (activeIds account w).length then 0 else cursor + _) = next at next_eq
  set rest := (activeIds account w).length - cursor
  set count := if limit < (w.market.activeLoanIds account).members.length - cursor then limit
    else (w.market.activeLoanIds account).members.length - cursor with count_eq
  have short : count ≤ rest := by
    rw [count_eq]
    split_ifs with more
    · exact more.le
    · exact le_rfl
  have inside : cursor + count ≤ (activeIds account w).length := by omega
  rw [range_map_getD inside] at ids_eq
  refine ⟨rfl, fun none => ?_, matched, fun done => ?_, fun unfinished => ?_⟩
  · exact fresh none
  · split_ifs at next_eq with full
    · rw [← ids_eq, List.take_of_length_le]
      rw [List.length_drop]
      omega
    · have empty : cursor = 0 ∧ count = 0 := by omega
      have : rest ≠ 0 := by omega
      rw [count_eq] at empty
      split_ifs at empty with more
      · exact absurd empty.2 positive
      · exact absurd empty.2 this
  · split_ifs at next_eq with full
    · exact absurd next_eq.symm unfinished
    · rw [← ids_eq, ← next_eq, ← List.drop_drop, List.take_append_drop]

/-- The pages after the first, each read with `expected`, other calls in between. -/
inductive Pages (account : Address) (expected : ℕ) : ℕ → World → List ℕ → World → Prop
  | last {cursor limit revision : ℕ} {w : World} {ids : List ℕ}
      (page : getActiveLoanIds account cursor limit expected w = .ok (ids, 0, revision)) :
      Pages account expected cursor w ids w
  | more {cursor limit next revision : ℕ} {w mid w' : World} {ids rest : List ℕ} {ops : List Op}
      (page : getActiveLoanIds account cursor limit expected w = .ok (ids, next, revision))
      (unfinished : next ≠ 0) (between : Run (accepts exec) w ops mid)
      (pages : Pages account expected next mid rest w') :
      Pages account expected cursor w (ids ++ rest) w'

/-- A whole reading: the first page at `w`, from cursor zero, and the others with the revision it
returned, the last of them at `w'`. -/
inductive Reading (account : Address) (w : World) : List ℕ → World → Prop
  | last {limit expected revision : ℕ} {ids : List ℕ}
      (page : getActiveLoanIds account 0 limit expected w = .ok (ids, 0, revision)) :
      Reading account w ids w
  | more {limit expected next revision : ℕ} {mid w' : World} {ids rest : List ℕ} {ops : List Op}
      (page : getActiveLoanIds account 0 limit expected w = .ok (ids, next, revision))
      (unfinished : next ≠ 0) (between : Run (accepts exec) w ops mid)
      (pages : Pages account revision next mid rest w') :
      Reading account w (ids ++ rest) w'

/-- While the revision stays, so does the set. -/
theorem activeIds_eq {ops : List Op} (run : Run (accepts exec) w ops w')
    (same : w'.market.activeLoanRevision account = w.market.activeLoanRevision account) :
    activeIds account w' = activeIds account w :=
  congrArg SwapPop.members ((run_later run).active_eq account same)

/-- From a nonzero cursor on, the pages are the rest of the set, which never changed. -/
theorem Pages.rest {cursor : ℕ} {rest : List ℕ} (h : Pages account expected cursor w rest w')
    (started : cursor ≠ 0) :
    expected = w.market.activeLoanRevision account ∧ rest = (activeIds account w).drop cursor ∧
      activeIds account w' = activeIds account w := by
  induction h with
  | last page =>
    have spec := getActiveLoanIds_page page
    have nonzero : expected ≠ 0 := fun none => started (spec.fresh none)
    exact ⟨(spec.matched nonzero).trans spec.revision_eq, spec.last rfl, rfl⟩
  | @more cursor limit next revision w mid w' ids rest ops page unfinished between pages ih =>
    have spec := getActiveLoanIds_page page
    have nonzero : expected ≠ 0 := fun none => started (spec.fresh none)
    have here := (spec.matched nonzero).trans spec.revision_eq
    obtain ⟨there, rest_eq, ended⟩ := ih unfinished
    have kept := activeIds_eq between (there.symm.trans here)
    refine ⟨here, ?_, ended.trans kept⟩
    rw [rest_eq, kept]
    exact spec.more unfinished

theorem Reading.whole (h : Reading account w ids w') :
    ids = activeIds account w ∧ activeIds account w' = activeIds account w := by
  cases h with
  | last page =>
    have spec := getActiveLoanIds_page page
    exact ⟨by simpa using spec.last rfl, rfl⟩
  | more page unfinished between pages =>
    have spec := getActiveLoanIds_page page
    obtain ⟨there, rest_eq, ended⟩ := pages.rest unfinished
    have kept := activeIds_eq between (there.symm.trans spec.revision_eq)
    refine ⟨?_, ended.trans kept⟩
    rw [rest_eq, kept]
    simpa using spec.more unfinished

/-- The account is lender or borrower of the active offer `id`. -/
def ActiveParty (account : Address) (id : ℕ) (w : World) : Prop :=
  (w.market.offers id).status = .active ∧
    ((w.market.offers id).lender = account ∨ (w.market.offers id).borrower = account)

theorem Reachable.mem_activeIds (h : Reachable w) (account : Address) (id : ℕ) :
    id ∈ activeIds account w ↔ ActiveParty account id w :=
  ((h.sound.wellFormed account).mem_iff).trans (h.sound.index_iff account id)

theorem Pages.run {rest : List ℕ} (h : Pages account expected cursor w rest w') :
    ∃ ops, Run (accepts exec) w ops w' := by
  induction h with
  | last => exact ⟨[], .nil _⟩
  | more page unfinished between pages ih =>
    obtain ⟨ops, run⟩ := ih
    exact ⟨_, between.append run⟩

theorem Reading.run (h : Reading account w ids w') : ∃ ops, Run (accepts exec) w ops w' := by
  cases h with
  | last => exact ⟨[], .nil _⟩
  | more page unfinished between pages =>
    obtain ⟨ops, run⟩ := pages.run
    exact ⟨_, between.append run⟩

/-- In every reachable state the stored set of each account is the set of its active loans, with
its index map; and every reading that no revision change stopped returned it once, from the first
page to the last. -/
theorem active_loans_paged (h : Reachable w) :
    (∀ account, (w.market.activeLoanIds account).WellFormed ∧
      ∀ id, id ∈ activeIds account w ↔ ActiveParty account id w) ∧
    ∀ account ids w', Reading account w ids w' →
      ids.Nodup ∧ ∀ id, (id ∈ ids ↔ ActiveParty account id w) ∧
        (id ∈ ids ↔ ActiveParty account id w') := by
  refine ⟨fun account => ⟨h.sound.wellFormed account, h.mem_activeIds account⟩,
    fun account ids w' reading => ?_⟩
  obtain ⟨whole, kept⟩ := reading.whole
  obtain ⟨ops, run⟩ := reading.run
  obtain ⟨start, before, deployed, reached⟩ := h
  have first : Reachable w := ⟨start, before, deployed, reached⟩
  have last : Reachable w' := ⟨start, before ++ ops, deployed, reached.append run⟩
  refine ⟨whole ▸ (first.sound.wellFormed account).nodup, fun id => ⟨?_, ?_⟩⟩
  · rw [whole]
    exact first.mem_activeIds account id
  · rw [whole, ← kept]
    exact last.mem_activeIds account id

/-! Two loans of account 3, read on two pages of one, while a third offer is cancelled. -/

/-- `holder` has `amount` and lets `spender` take it. -/
def funded (holder spender : Address) (amount : ℕ) : TokenLedger Address :=
  (TokenLedger.empty.mint holder amount).approve holder spender amount

def sampleStart : World where
  self := 100
  now := 1000
  token
    | .loanToken => funded 2 100 (3 * 10 ^ 9)
    | .collateralToken => funded 3 100 (10 ^ 20)
    | .other => .empty
  market := deployed 1

def sampleOps : List Op :=
  [ .createOffer 2 11 0 (10 ^ 9) (10 ^ 18) (10 ^ 7) 86400 5000,
    .createOffer 2 12 3 (10 ^ 9) (10 ^ 18) (10 ^ 7) 86400 5000,
    .createOffer 2 13 0 (10 ^ 9) (10 ^ 18) (10 ^ 7) 86400 5000,
    .acceptOffer 3 1, .acceptOffer 3 2 ]

def sample : World := reached sampleStart (execAll exec sampleOps sampleStart)

def sampleCancelled : World := reached sampleStart (exec (.cancelOffer 2 3) sample)

theorem sample_reachable : Reachable sample :=
  ⟨sampleStart, sampleOps, ⟨1, by decide, by decide, rfl⟩,
    run_of_execAll (eq_ok_reached _ (by decide +kernel))⟩

theorem sample_reading : Reading 3 sample [1, 2] sampleCancelled := by
  have first : getActiveLoanIds 3 0 1 0 sample = .ok ([1], 1, 2) := by decide +kernel
  have second : getActiveLoanIds 3 1 1 2 sampleCancelled = .ok ([2], 0, 2) := by decide +kernel
  have between : Run (accepts exec) sample [.cancelOffer 2 3] sampleCancelled :=
    .single (eq_ok_reached _ (by decide +kernel))
  exact .more first (by decide) between (.last second)

theorem sample_active_loans : ActiveParty 3 1 sampleCancelled ∧ ActiveParty 3 2 sampleCancelled ∧
    ¬ActiveParty 3 3 sampleCancelled := by
  have read := ((active_loans_paged sample_reachable).2 3 [1, 2] _ sample_reading).2
  exact ⟨(read 1).2.mp (by decide), (read 2).2.mp (by decide),
    fun active => absurd ((read 3).2.mpr active) (by decide)⟩

end Turret.LendingV3
