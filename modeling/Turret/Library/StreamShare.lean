import Mathlib.Tactic
import Turret.Library.Ledger
import Turret.Library.Rounding

/-! A stream of rewards shared by an index, as it is at each time. The reserve
decays with the active seconds since an anchor, and the index carries the part
that does not divide. Over the integers time acts on it: to advance in two
steps is to advance in one, so whoever looks at the stream, or brings a holder
up to date, leaves no trace. -/

namespace Turret

open Function

@[ext] structure StreamShare (ι : Type) where
  time : ℤ
  active : ℤ
  total : ℤ
  weight : ι → ℤ
  index : ℤ
  remainder : ℤ
  reserve : ℤ
  anchor : ℤ
  /-- Of the reserve, since the anchor. -/
  released : ℤ
  /-- What each holder has received and is owed. -/
  worth : ι → ℤ

/-- What is left of a reserve after some active seconds, and the parts of a unit of it. -/
structure Decay where
  left : ℤ → ℤ → ℤ
  parts : ℤ

namespace StreamShare

variable {ι : Type} (d : Decay) (t u : ℤ) (s : StreamShare ι)

def activeAt : ℤ := if s.total = 0 then s.active else s.active + (t - s.time)

def remainingAt : ℤ := d.left s.reserve (s.activeAt t - s.anchor)

def emission : ℤ := s.reserve - s.remainingAt d t - s.released

def numerator : ℤ := d.parts * s.emission d t + s.remainder

def advance : StreamShare ι :=
  { s with
    time := t
    active := s.activeAt t
    index := s.index + s.numerator d t / s.total
    remainder := s.numerator d t % s.total
    released := s.released + s.emission d t
    worth := fun i => s.worth i + s.weight i * (s.numerator d t / s.total) }

theorem activeAt_advance : (s.advance d t).activeAt u = s.activeAt u := by
  rw [activeAt, activeAt, advance, activeAt]
  by_cases none : s.total = 0
  · simp only [none, if_true]
  · simp only [none, if_false]
    ring

theorem remainingAt_advance : (s.advance d t).remainingAt d u = s.remainingAt d u := by
  rw [remainingAt, remainingAt, activeAt_advance]
  rfl

theorem emission_advance :
    s.emission d t + (s.advance d t).emission d u = s.emission d u := by
  have left := remainingAt_advance d t u s
  rw [emission, emission, emission, left]
  simp only [advance, emission]
  ring

theorem numerator_advance :
    (s.advance d t).numerator d u = s.numerator d u - s.total * (s.numerator d t / s.total) := by
  have parts := Int.mul_ediv_add_emod (s.numerator d t) s.total
  have both : d.parts * (s.advance d t).emission d u + d.parts * s.emission d t =
      d.parts * s.emission d u := by
    rw [← emission_advance d t u s]
    ring
  have first : s.numerator d t = d.parts * s.emission d t + s.remainder := rfl
  have second : s.numerator d u = d.parts * s.emission d u + s.remainder := rfl
  change d.parts * (s.advance d t).emission d u + s.numerator d t % s.total = _
  linarith

/-- The carried remainder makes two shares those of their sum. -/
theorem shared_advance :
    s.numerator d t / s.total + (s.advance d t).numerator d u / s.total =
        s.numerator d u / s.total ∧
      (s.advance d t).numerator d u % s.total = s.numerator d u % s.total := by
  rw [numerator_advance]
  by_cases none : s.total = 0
  · simp [none]
  · rw [Int.sub_mul_ediv_left _ _ none, Int.sub_mul_emod_self_left]
    exact ⟨by ring, rfl⟩

theorem advance_advance : (s.advance d t).advance d u = s.advance d u := by
  obtain ⟨whole, rest⟩ := shared_advance d t u s
  have active := activeAt_advance d t u s
  have emitted := emission_advance d t u s
  refine StreamShare.ext rfl active rfl rfl ?_ rest rfl rfl ?_ (funext fun i => ?_)
  · change s.index + s.numerator d t / s.total + (s.advance d t).numerator d u / s.total =
      s.index + s.numerator d u / s.total
    rw [← whole, add_assoc]
  · change s.released + s.emission d t + (s.advance d t).emission d u = s.released + s.emission d u
    rw [← emitted, add_assoc]
  · change s.worth i + s.weight i * (s.numerator d t / s.total) +
        s.weight i * ((s.advance d t).numerator d u / s.total) =
      s.worth i + s.weight i * (s.numerator d u / s.total)
    rw [← whole, mul_add, add_assoc]

end StreamShare

/-! ### Changes -/

/-- What moves more than time does: a change of weight, and one of the reserve. -/
inductive StreamChange (ι : Type)
  | weigh (i : ι) (amount : ℤ)
  | fund (amount : ℤ)

namespace StreamShare

variable {ι : Type} [DecidableEq ι] (d : Decay)

/-- A change at the time of the share: what could not be shared is dropped at a change of weight,
and the decay starts anew at one of the reserve. -/
def apply (s : StreamShare ι) : StreamChange ι → StreamShare ι
  | .weigh i amount =>
    { s with
      total := s.total + amount
      weight := update s.weight i (s.weight i + amount)
      remainder := 0 }
  | .fund amount =>
    { s with
      reserve := s.reserve - s.released + amount
      anchor := s.active
      released := 0 }

/-- A change of weight is worth nothing to anyone at its time. -/
theorem worth_weigh (s : StreamShare ι) (t : ℤ) (i : ι) (amount : ℤ) :
    (((s.advance d t).apply (.weigh i amount)).advance d t).worth = (s.advance d t).worth := by
  let weighed := (s.advance d t).apply (.weigh i amount)
  have active : weighed.activeAt t = s.activeAt t := by
    change (if _ then s.activeAt t else s.activeAt t + (t - t)) = s.activeAt t
    rw [sub_self, add_zero, ite_self]
  have still : weighed.emission d t = 0 := by
    change s.reserve - d.left s.reserve (weighed.activeAt t - s.anchor) -
      (s.released + (s.reserve - d.left s.reserve (s.activeAt t - s.anchor) - s.released)) = 0
    rw [active]
    ring
  have nothing : weighed.numerator d t = 0 := by
    change d.parts * weighed.emission d t + 0 = 0
    rw [still, mul_zero, add_zero]
  funext j
  change (s.advance d t).worth j + weighed.weight j * (weighed.numerator d t / weighed.total) = _
  rw [nothing, Int.zero_ediv, mul_zero, add_zero]

/-- The changes of a history, each at its time. -/
def replay (s : StreamShare ι) (changes : List (ℤ × StreamChange ι)) : StreamShare ι :=
  changes.foldl (fun s c => (s.advance d c.1).apply c.2) s

theorem replay_snoc (s : StreamShare ι) (changes : List (ℤ × StreamChange ι))
    (c : ℤ × StreamChange ι) :
    s.replay d (changes ++ [c]) = ((s.replay d changes).advance d c.1).apply c.2 := by
  rw [replay, List.foldl_concat, replay]

end StreamShare

end Turret

/-! Rewards shared by weight through an index that only grows. A holder's
claim is what has been settled for it and its weight times the growth of the
index since then, both in parts of one reward unit; no holder is touched when
the index moves. -/

namespace Turret

open Finset Function Rounding

structure IndexClaim where
  settled : ℕ
  weight : ℕ
  paid : ℕ

namespace IndexClaim

variable {ι : Type} [Fintype ι] {c : IndexClaim} {index d : ℕ}

def worth (index : ℕ) (c : IndexClaim) : ℕ := c.settled + c.weight * (index - c.paid)

/-- The claim brought up to an index. -/
def settle (index : ℕ) (c : IndexClaim) : IndexClaim := ⟨c.worth index, c.weight, index⟩

theorem worth_add (h : c.paid ≤ index) : c.worth (index + d) = c.worth index + c.weight * d := by
  have gap : index + d - c.paid = (index - c.paid) + d := by omega
  rw [worth, worth, gap, Nat.mul_add, Nat.add_assoc]

theorem worth_settle : (c.settle index).worth index = c.worth index := by
  simp [worth, settle]

theorem worth_of_paid {s n : ℕ} : (IndexClaim.mk s n index).worth index = s := by
  simp [worth]

/-- Moving the index by `d` adds `d` for each unit of weight. -/
theorem sum_worth_add (claims : ι → IndexClaim) (h : ∀ i, (claims i).paid ≤ index) (d : ℕ) :
    ∑ i, (claims i).worth (index + d) =
      (∑ i, (claims i).worth index) + (∑ i, (claims i).weight) * d := by
  rw [sum_mul, ← sum_add_distrib]
  exact sum_congr rfl fun i _ => worth_add (h i)

/-- A reward shared by flooring the growth of the index is never exceeded. -/
theorem sum_worth_share_le (claims : ι → IndexClaim) (h : ∀ i, (claims i).paid ≤ index)
    (reward scale : ℕ) :
    ∑ i, (claims i).worth (index + mulDiv reward scale (∑ i, (claims i).weight)) ≤
      (∑ i, (claims i).worth index) + reward * scale := by
  rw [sum_worth_add claims h, Nat.mul_comm (∑ i, (claims i).weight)]
  exact Nat.add_le_add_left (mulDiv_mul_le ..) _

variable [DecidableEq ι]

/-- Replacing one claim moves the total by the difference. -/
theorem sum_worth_update (index : ℕ) (claims : ι → IndexClaim) (i : ι) (new : IndexClaim) :
    (∑ j, (update claims i new j).worth index) + (claims i).worth index =
      (∑ j, (claims j).worth index) + new.worth index :=
  sum_map_update_add (worth index) claims i new

/-- Settling a claim moves nothing. -/
theorem sum_worth_settle (index : ℕ) (claims : ι → IndexClaim) (i : ι) :
    ∑ j, (update claims i ((claims i).settle index) j).worth index =
      ∑ j, (claims j).worth index := by
  have moved := sum_worth_update index claims i ((claims i).settle index)
  rw [worth_settle] at moved
  exact Nat.add_right_cancel moved

/-- A claim that is up to date may be settled anew and change its weight. -/
theorem sum_worth_replace (claims : ι → IndexClaim) {i : ι} (current : (claims i).paid = index)
    (settled weight : ℕ) :
    (∑ j, (update claims i ⟨settled, weight, index⟩ j).worth index) + (claims i).settled =
      (∑ j, (claims j).worth index) + settled := by
  have moved := sum_worth_update index claims i ⟨settled, weight, index⟩
  have before : (claims i).worth index = (claims i).settled := by simp [worth, current]
  rwa [before, worth_of_paid] at moved

end IndexClaim

end Turret
