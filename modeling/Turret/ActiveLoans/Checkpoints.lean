import Turret.ActiveLoans.Index

/-! What a checkpoint stands for, and what one page makes of it. -/

namespace Turret.ActiveLoans

open Execution Branches

variable {H : Type} {x : Index H} {c : List Block} {k : ℕ} {active : List ℕ}

/-- These are the loans outstanding in the first `k` blocks of the chain. -/
structure Indexed (c : List Block) (k : ℕ) (active : List ℕ) : Prop where
  nodup : active.Nodup
  mem : ∀ id, id ∈ active ↔ Outstanding (eventsOf (c.take k)) id

/-! ### Replaying calls -/

theorem nodup_record {e : Event} (h : active.Nodup) : (record active e).Nodup := by
  unfold record
  split
  · split
    · exact h
    · exact h.append (List.nodup_singleton _) (by simpa using ‹_›)
  · exact h.filter _
  · exact h.filter _

theorem mem_record {e : Event} {id : ℕ} :
    id ∈ record active e ↔
      if id = e.id then e.eventName = .OfferAccepted else id ∈ active := by
  unfold record
  split
  · split <;> split <;> simp_all
  · split <;> simp_all
  · split <;> simp_all

/-- The set follows the statuses. -/
def Tracks (active : List ℕ) (m : Market) : Prop :=
  active.Nodup ∧ ∀ id, id ∈ active ↔ isActive m id

theorem Tracks.exec {events : List Event} {m n : Market} {op : Op} (h : Tracks active m)
    (recorded : Recorded events m) (done : exec m op = some n) :
    Tracks (op.event.toList.foldl record active) n := by
  have silent : ∀ id offer, (m.offers id).status ≠ .active → offer.status ≠ .active →
      ∀ other, other ∈ active ↔ (Function.update m.offers id offer other).status = .active := by
    intro id offer before after other
    by_cases same : other = id
    · rw [same, Function.update_self, h.2, isActive]
      exact iff_of_false before after
    · rw [Function.update_of_ne same]
      exact h.2 other
  have loud : ∀ id (name : EventName) offer,
      (name = .OfferAccepted ↔ offer.status = .active) →
      Tracks (record active ⟨name, id⟩) { m with offers := Function.update m.offers id offer } := by
    intro id name offer tells
    refine ⟨nodup_record h.1, fun other => ?_⟩
    rw [mem_record, isActive]
    dsimp only
    by_cases same : other = id
    · rw [if_pos same, same, Function.update_self]
      exact tells
    · rw [if_neg same, Function.update_of_ne same]
      exact h.2 other
  cases op with
  | createOffer lender borrower =>
    simp only [ActiveLoans.exec, Option.ite_none_right_eq_some, Option.some.injEq] at done
    obtain ⟨-, rfl⟩ := done
    exact ⟨h.1, silent m.nextOfferId _ (by simp [recorded.fresh]) (by simp)⟩
  | acceptOffer id account =>
    simp only [ActiveLoans.exec, Option.ite_none_right_eq_some, Option.some.injEq] at done
    obtain ⟨-, rfl⟩ := done
    exact loud id .OfferAccepted _ (by simp)
  | repay id =>
    simp only [ActiveLoans.exec, settle, Option.ite_none_right_eq_some, Option.some.injEq] at done
    obtain ⟨-, rfl⟩ := done
    exact loud id .LoanRepaid _ (by simp)
  | claimDefault id =>
    simp only [ActiveLoans.exec, settle, Option.ite_none_right_eq_some, Option.some.injEq] at done
    obtain ⟨-, rfl⟩ := done
    exact loud id .LoanDefaulted _ (by simp)
  | cancelOffer id =>
    simp only [ActiveLoans.exec, settle, Option.ite_none_right_eq_some, Option.some.injEq] at done
    obtain ⟨state, rfl⟩ := done
    exact ⟨h.1, silent id _ (by simp [state]) (by simp)⟩
  | expireOffer id =>
    simp only [ActiveLoans.exec, settle, Option.ite_none_right_eq_some, Option.some.injEq] at done
    obtain ⟨state, rfl⟩ := done
    exact ⟨h.1, silent id _ (by simp [state]) (by simp)⟩

theorem Tracks.foldlM {ops : List Op} {events : List Event} {m n : Market} (h : Tracks active m)
    (recorded : Recorded events m) (done : ops.foldlM ActiveLoans.exec m = some n) :
    Tracks ((ops.flatMap fun op => op.event.toList).foldl record active) n := by
  induction ops generalizing active events m with
  | nil =>
    cases done
    exact h
  | cons op ops ih =>
    rw [List.foldlM_cons, Option.bind_eq_bind, Option.bind_eq_some_iff] at done
    obtain ⟨mid, first, rest⟩ := done
    rw [List.flatMap_cons, List.foldl_append]
    exact ih (h.exec recorded first) (recorded.exec first) rest

theorem Indexed.tracks {m : Market} (h : Indexed c k active) (at_k : marketAt (c.take k) = some m) :
    Tracks active m :=
  ⟨h.nodup, fun id => (h.mem id).trans ((recorded_marketAt at_k).outstanding id)⟩

theorem Indexed.start (lawful : Lawful x.market.startBlock c) :
    Indexed c x.market.startBlock [] := by
  refine ⟨.nil, fun id => ?_⟩
  simp [lawful.eventsOf_take le_rfl, Outstanding]

/-- A page takes the set from its first block to its last. -/
theorem Indexed.page (h : Indexed c k active) (lawful : Lawful x.market.startBlock c) (count : ℕ) :
    Indexed c (k + count) ((logsFrom x.hash Block.events k count c).foldl
      (fun active log => record active log.event) active) := by
  obtain ⟨m, at_k⟩ := lawful.marketAt_take k
  obtain ⟨n, at_last⟩ := lawful.marketAt_take (k + count)
  have split : c.take (k + count) = c.take k ++ (c.drop k).take count := List.take_add
  have ran := at_last
  rw [split, marketAt_append, at_k, Option.bind_some] at ran
  have tracks := (h.tracks at_k).foldlM (recorded_marketAt at_k) ran
  have events : (logsFrom x.hash Block.events k count c).map Log.event =
      (((c.drop k).take count).flatMap Block.calls).flatMap fun op => op.event.toList := by
    rw [map_event_logsFrom, ← eventsOf_eq, eventsOf]
  rw [← events, List.foldl_map] at tracks
  exact ⟨tracks.1, fun id => (tracks.2 id).trans ((recorded_marketAt at_last).outstanding id).symm⟩

theorem Indexed.sorted (h : Indexed c k active) : Indexed c k (idsSorted active) := by
  have perm := List.perm_insertionSort (· ≤ ·) active
  exact ⟨perm.nodup_iff.mpr h.nodup, fun id => perm.mem_iff.trans (h.mem id)⟩

theorem Indexed.bounds (h : Indexed c k active) (lawful : Lawful x.market.startBlock c) {id : ℕ}
    (mem : id ∈ active) : 1 ≤ id ∧ id < 2 ^ 256 := by
  obtain ⟨m, at_k⟩ := lawful.marketAt_take k
  have recorded := recorded_marketAt at_k
  have status : (m.offers id).status = .active := ((h.tracks at_k).2 id).mp mem
  obtain ⟨low, high⟩ := recorded.counted id (by simp [status])
  exact ⟨low, high.trans recorded.counter.2⟩

theorem Indexed.of_shares {d : List Block} {n : ℕ} (h : Indexed c (n + 1) active)
    (same : Shares n c d) : Indexed d (n + 1) active :=
  ⟨h.nodup, same.2.2 ▸ h.mem⟩

theorem positioned_events : Positioned Block.events := by
  intro b
  rw [Block.events, List.pairwise_filterMap]
  refine b.positioned.imp fun {p q} less y at_y z at_z => ?_
  obtain ⟨e, -, rfl⟩ := Option.map_eq_some_iff.mp at_y
  obtain ⟨e', -, rfl⟩ := Option.map_eq_some_iff.mp at_z
  exact less

/-! ### Saved checkpoints -/

/-- The active loans of a checkpoint are those of the branch that its hash names. -/
def Right (x : Index H) (point : Checkpoint H) : Prop :=
  ∃ c, Lawful x.market.startBlock c ∧ Names x.hash ⟨point.blockNumber, point.blockHash⟩ c ∧
    Indexed c (point.blockNumber + 1) point.activeIds

/-- The points ascend, and each is one that `validateSaved` lets pass. -/
structure WellFormed (x : Index H) (points : List (Checkpoint H)) : Prop where
  ascending : points.Pairwise fun a b => a.blockNumber < b.blockNumber
  started : ∀ point ∈ points, x.market.startBlock ≤ point.blockNumber
  small : ∀ point ∈ points, point.blockNumber < 2 ^ 256
  fits : ∀ point ∈ points, point.activeIds.length ≤ x.maxActiveCandidates
  right : ∀ point ∈ points, Right x point

/-- What `validateSaved` accepts, with checkpoints that are right. -/
structure Valid (x : Index H) (saved : Saved H) : Prop where
  points : WellFormed x saved.checkpoints
  retained : saved.checkpoints.length ≤ x.retainedCheckpoints
  identity : saved = { initial x with checkpoints := saved.checkpoints }

theorem Right.bounds {point : Checkpoint H} (h : Right x point) :
    point.activeIds.Nodup ∧ ∀ id ∈ point.activeIds, 1 ≤ id ∧ id < 2 ^ 256 := by
  obtain ⟨c, lawful, -, indexed⟩ := h
  exact ⟨indexed.nodup, fun id mem => indexed.bounds lawful mem⟩

theorem WellFormed.checkPoints {points : List (Checkpoint H)} (h : WellFormed x points)
    {least : ℕ} (above : ∀ point ∈ points, least ≤ point.blockNumber) :
    checkPoints x least points = .ok () := by
  induction points generalizing least with
  | nil => rfl
  | cons point rest ih =>
    obtain ⟨ascends, ascending⟩ := List.pairwise_cons.mp h.ascending
    obtain ⟨nodup, bounds⟩ := (h.right point List.mem_cons_self).bounds
    have tail : WellFormed x rest :=
      ⟨ascending, fun p mem => h.started p (List.mem_cons_of_mem _ mem),
        fun p mem => h.small p (List.mem_cons_of_mem _ mem),
        fun p mem => h.fits p (List.mem_cons_of_mem _ mem),
        fun p mem => h.right p (List.mem_cons_of_mem _ mem)⟩
    simp only [ActiveLoans.checkPoints, bind_eq_ok, revertIf_eq_ok, not_or, not_exists, not_and,
      not_le, not_lt, not_not]
    exact ⟨(), ⟨h.small point List.mem_cons_self, fun id mem => (bounds id mem).2⟩, (),
      ⟨above point List.mem_cons_self, h.fits point List.mem_cons_self, nodup,
        fun zero => absurd (bounds 0 zero).1 (by omega)⟩, ih tail ascends⟩

/-- What was stored is accepted again. -/
theorem Valid.accepted {saved : Saved H} (h : Valid x saved) :
    validateSaved x (some saved) = .ok saved := by
  have identity := h.identity
  have checked := h.points.checkPoints h.points.started
  rw [validateSaved, revertIf, if_neg, ok_bind, revertIf, if_neg, ok_bind, checked]
  · rfl
  · exact not_lt.mpr h.retained
  · rw [identity]
    simp

theorem WellFormed.nil : WellFormed x [] := by
  constructor <;> simp

theorem Valid.initial : Valid x (initial x) where
  points := .nil
  retained := Nat.zero_le _
  identity := rfl

/-- Other points under the same identity. -/
theorem Valid.replace {saved : Saved H} (h : Valid x saved) {points : List (Checkpoint H)}
    (formed : WellFormed x points) (retained : points.length ≤ x.retainedCheckpoints) :
    Valid x { saved with checkpoints := points } where
  points := formed
  retained := retained
  identity := by
    have same := congrArg (fun v : Saved H => ({ v with checkpoints := points } : Saved H)) h.identity
    exact same

/-- Some of the points, in their order. -/
theorem WellFormed.sublist {points some : List (Checkpoint H)} (h : WellFormed x points)
    (sub : some.Sublist points) : WellFormed x some where
  ascending := h.ascending.sublist sub
  started := fun p mem => h.started p (sub.subset mem)
  small := fun p mem => h.small p (sub.subset mem)
  fits := fun p mem => h.fits p (sub.subset mem)
  right := fun p mem => h.right p (sub.subset mem)

/-- One more checkpoint, above the others. -/
theorem WellFormed.snoc {points : List (Checkpoint H)} {point : Checkpoint H}
    (h : WellFormed x points) (above : ∀ p ∈ points, p.blockNumber < point.blockNumber)
    (started : x.market.startBlock ≤ point.blockNumber) (small : point.blockNumber < 2 ^ 256)
    (fits : point.activeIds.length ≤ x.maxActiveCandidates) (right : Right x point) :
    WellFormed x (points ++ [point]) := by
  have either : ∀ p ∈ points ++ [point], p ∈ points ∨ p = point := fun p mem => by simpa using mem
  refine ⟨?_, ?_, ?_, ?_, ?_⟩
  · rw [List.pairwise_append]
    exact ⟨h.ascending, List.pairwise_singleton _ _, fun p mem q last => by
      rw [List.mem_singleton.mp last]
      exact above p mem⟩
  · exact fun p mem => (either p mem).elim (h.started p) fun is => is ▸ started
  · exact fun p mem => (either p mem).elim (h.small p) fun is => is ▸ small
  · exact fun p mem => (either p mem).elim (h.fits p) fun is => is ▸ fits
  · exact fun p mem => (either p mem).elim (h.right p) fun is => is ▸ right

theorem lastOf_sublist {α : Type} (count : ℕ) (values : List α) :
    (lastOf count values).Sublist values :=
  List.drop_sublist _ _

theorem length_lastOf_le {α : Type} (count : ℕ) (values : List α) :
    (lastOf count values).length ≤ count := by
  rw [lastOf, List.length_drop]
  omega

end Turret.ActiveLoans
