import Turret.P2P.LendingV3

/-! The histories of offers that the second and third versions of the market keep
as growing arrays, read newest first. Cursor zero is where a reading starts and
what its last page returns. -/

namespace Turret

open Execution

namespace HistoryPages

variable {ε : Type}

/-- `_page`, the same in both versions. -/
def page (maxPageSize : ℕ) (invalidPagination : ε) (source : List ℕ) (cursor limit : ℕ) :
    Except ε (List ℕ × ℕ) := do
  revertIf (limit = 0 ∨ maxPageSize < limit ∨ source.length < cursor) invalidPagination
  let last := if cursor = 0 then source.length else cursor
  let count := if last < limit then last else limit
  -- `for (i < count) ids[i] = source[last - 1 - i]`
  let ids := (List.range count).map fun i => source.getD (last - 1 - i) 0
  pure (ids, last - count)

/-- Following `nextCursor` from `cursor` until it is zero. Page `k` is read with `limit k`, and
after it others append `appended k`; `none` when `fuel` pages are not enough. -/
def follow (page : List ℕ → ℕ → ℕ → Except ε (List ℕ × ℕ)) (limit : ℕ → ℕ)
    (appended : ℕ → List ℕ) : ℕ → ℕ → List ℕ → ℕ → Except ε (Option (List ℕ))
  | 0, _, _, _ => pure none
  | fuel + 1, k, source, cursor => do
    let (ids, nextCursor) ← page source cursor (limit k)
    if nextCursor = 0 then pure (some ids)
    else
      let rest ← follow page limit appended fuel (k + 1) (source ++ appended k) nextCursor
      pure (rest.map (ids ++ ·))

end HistoryPages

namespace LendingV2

inductive Error
  | invalidPagination
  deriving DecidableEq

def MAX_PAGE_SIZE : ℕ := 50

/-- `_page`. -/
def page : List ℕ → ℕ → ℕ → Except Error (List ℕ × ℕ) :=
  HistoryPages.page MAX_PAGE_SIZE .invalidPagination

end LendingV2

namespace LendingV3

/-- `_page`. -/
def page : List ℕ → ℕ → ℕ → Except Error (List ℕ × ℕ) :=
  HistoryPages.page MAX_PAGE_SIZE .invalidPagination

def getAccountOfferIds (account : Address) (cursor limit : ℕ) (w : World) :
    Except Error (List ℕ × ℕ) :=
  page (w.market.accountOfferIds account) cursor limit

def getIncomingOfferIds (account : Address) (cursor limit : ℕ) (w : World) :
    Except Error (List ℕ × ℕ) :=
  page (w.market.incomingOfferIds account) cursor limit

def getPublicOfferIds (cursor limit : ℕ) (w : World) : Except Error (List ℕ × ℕ) :=
  page w.market.publicOfferIds cursor limit

end LendingV3

namespace HistoryPages

variable {ε : Type} {maxPageSize : ℕ} {invalidPagination : ε} {source : List ℕ}

/-- The loop of a page reads a stretch of the array backwards. -/
theorem range_map_getD_reverse {l : List ℕ} {last n : ℕ} (short : n ≤ last)
    (within : last ≤ l.length) :
    ((List.range n).map fun i => l.getD (last - 1 - i) 0) =
      ((l.take last).drop (last - n)).reverse := by
  have size : n = min last l.length - (last - n) := by omega
  apply List.ext_getElem
  · simpa using size
  · intro i hi _
    have below : i < n := by simpa using hi
    have inside : last - 1 - i < l.length := by omega
    have place : last - n + (min last l.length - (last - n) - 1 - i) = last - 1 - i := by omega
    simp [List.getElem?_eq_getElem inside, place]

/-- Where a page starting at `cursor` starts reading. -/
def start (source : List ℕ) (cursor : ℕ) : ℕ := if cursor = 0 then source.length else cursor

theorem page_ok {cursor limit : ℕ} (positive : 0 < limit) (bounded : limit ≤ maxPageSize)
    (within : cursor ≤ source.length) :
    page maxPageSize invalidPagination source cursor limit = .ok
      (((source.take (start source cursor)).drop (start source cursor - limit)).reverse,
        start source cursor - limit) := by
  have inside : start source cursor ≤ source.length := by
    unfold start
    split_ifs
    · exact le_rfl
    · exact within
  have accepted : revertIf (limit = 0 ∨ maxPageSize < limit ∨ source.length < cursor)
      invalidPagination = .ok () := by
    rw [revertIf_eq_ok]
    omega
  unfold page
  rw [accepted, ok_bind]
  change pure (_, _) = _
  set last := start source cursor
  set count := if last < limit then last else limit with count_eq
  have short : count ≤ last ∧ last - count = last - limit := by
    rw [count_eq]
    split_ifs <;> omega
  have ids := range_map_getD_reverse short.1 inside
  rw [short.2] at ids
  exact congrArg Except.ok (Prod.ext ids short.2)

/-- A page and the pages after it are everything below where it starts, by induction on the number
of pages: a cursor points into the part of the array that appending leaves alone. -/
theorem follow_page {limit : ℕ → ℕ} {appended : ℕ → List ℕ}
    (valid : ∀ k, 0 < limit k ∧ limit k ≤ maxPageSize) (fuel : ℕ) :
    ∀ (k cursor : ℕ) (source : List ℕ), cursor ≤ source.length → start source cursor < fuel →
      follow (page maxPageSize invalidPagination) limit appended fuel k source cursor =
        .ok (some (source.take (start source cursor)).reverse) := by
  induction fuel with
  | zero =>
    intro k cursor source _ none
    omega
  | succ fuel ih =>
    intro k cursor source within enough
    have inside : start source cursor ≤ source.length := by
      unfold start
      split_ifs <;> omega
    rw [follow, page_ok (valid k).1 (valid k).2 within, ok_bind]
    dsimp only
    set last := start source cursor
    by_cases done : last - limit k = 0
    · rw [if_pos done, done, List.drop_zero]
      rfl
    · have next : start (source ++ appended k) (last - limit k) = last - limit k := if_neg done
      have positive := (valid k).1
      have following := ih (k + 1) (last - limit k) (source ++ appended k)
        (by rw [List.length_append]; omega) (by omega)
      rw [if_neg done, following, next, List.take_append_of_le_length (by omega), ok_bind]
      have split := List.take_append_drop (last - limit k) (source.take last)
      rw [List.take_take, Nat.min_eq_left (Nat.sub_le ..)] at split
      have whole := congrArg List.reverse split
      rw [List.reverse_append] at whole
      exact congrArg (fun ids => Except.ok (some ids)) whole

/-- Whatever the limits and whatever is appended meanwhile, following the cursor of either version
ends, and has read what was there at the first page, newest first. -/
theorem history_paged (source : List ℕ) (limit : ℕ → ℕ) (appended : ℕ → List ℕ)
    (valid : ∀ k, 0 < limit k ∧ limit k ≤ 50) (fuel : ℕ) (enough : source.length < fuel) :
    follow LendingV2.page limit appended fuel 0 source 0 = .ok (some source.reverse) ∧
      follow LendingV3.page limit appended fuel 0 source 0 = .ok (some source.reverse) := by
  have whole : source.take (start source 0) = source := List.take_length
  constructor
  · exact (follow_page valid fuel 0 0 source (Nat.zero_le _) enough).trans (by rw [whole])
  · exact (follow_page valid fuel 0 0 source (Nat.zero_le _) enough).trans (by rw [whole])

/-- Four entries on two full pages, while one more is appended after each. -/
theorem four_entries_paged :
    follow LendingV2.page (fun _ => 2) (fun k => [k + 5]) 5 0 [1, 2, 3, 4] 0 =
        .ok (some [4, 3, 2, 1]) ∧
      follow LendingV3.page (fun _ => 2) (fun k => [k + 5]) 5 0 [1, 2, 3, 4] 0 =
        .ok (some [4, 3, 2, 1]) :=
  history_paged [1, 2, 3, 4] (fun _ => 2) (fun k => [k + 5]) (fun _ => by decide) 5 (by decide)

end HistoryPages

end Turret
