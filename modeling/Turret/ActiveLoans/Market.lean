import Turret.Library.Branches
import Turret.Library.Ledger

/-! The offers of a P2P market, as far as the index of its active loans reads
them: the counter, the parties and the status, in the three versions of the
contract. What a successful call checks of the sender, of times and of amounts
does not matter here, so that a call is its effect under its status check. -/

namespace Turret.ActiveLoans

open Branches Function

inductive Status
  | none
  | open_
  | active
  | repaid
  | defaulted
  | cancelled
  | expired
  deriving DecidableEq

def Status.code : Status → ℕ
  | none => 0
  | open_ => 1
  | active => 2
  | repaid => 3
  | defaulted => 4
  | cancelled => 5
  | expired => 6

structure Offer where
  lender : Address
  borrower : Address
  status : Status
  deriving DecidableEq

structure Market where
  nextOfferId : ℕ
  offers : ℕ → Offer

def zero : Address := Fin.ofNat (2 ^ 160) 0

def deployed : Market := ⟨1, fun _ => ⟨zero, zero, .none⟩⟩

inductive Op
  | createOffer (lender borrower : Address)
  | acceptOffer (id : ℕ) (account : Address)
  | repay (id : ℕ)
  | claimDefault (id : ℕ)
  | cancelOffer (id : ℕ)
  | expireOffer (id : ℕ)
  deriving DecidableEq

/-- `if (offer.status != before) revert; offer.status = after`. -/
def settle (id : ℕ) (before after : Status) (m : Market) : Option Market :=
  if (m.offers id).status = before then
    some { m with offers := update m.offers id { m.offers id with status := after } }
  else Option.none

def exec (m : Market) : Op → Option Market
  | .createOffer lender borrower =>
    if m.nextOfferId + 1 < 2 ^ 256 then
      some ⟨m.nextOfferId + 1, update m.offers m.nextOfferId ⟨lender, borrower, .open_⟩⟩
    else Option.none
  | .acceptOffer id account =>
    if (m.offers id).status = .open_ then
      some { m with
        offers := update m.offers id { m.offers id with borrower := account, status := .active } }
    else Option.none
  | .repay id => settle id .active .repaid m
  | .claimDefault id => settle id .active .defaulted m
  | .cancelOffer id => settle id .open_ .cancelled m
  | .expireOffer id => settle id .open_ .expired m

inductive EventName
  | OfferAccepted
  | LoanRepaid
  | LoanDefaulted
  deriving DecidableEq

structure Event where
  eventName : EventName
  id : ℕ
  deriving DecidableEq

/-- The event of a call, if it is one of the three that the index asks for. -/
def Op.event : Op → Option Event
  | .acceptOffer id _ => some ⟨.OfferAccepted, id⟩
  | .repay id => some ⟨.LoanRepaid, id⟩
  | .claimDefault id => some ⟨.LoanDefaulted, id⟩
  | _ => Option.none

/-- The calls of the market in a block, by the positions of their logs; `rest` stands for all else
that the hash commits to. -/
structure Block where
  ops : List (ℕ × Op)
  positioned : ops.Pairwise fun x y => x.1 < y.1
  rest : ℕ
  deriving DecidableEq

def Block.calls (b : Block) : List Op := b.ops.map Prod.snd

def Block.events (b : Block) : List (ℕ × Event) :=
  b.ops.filterMap fun x => x.2.event.map fun e => (x.1, e)

/-- The market at the end of a branch. -/
def marketAt (branch : List Block) : Option Market :=
  (branch.flatMap Block.calls).foldlM exec deployed

/-- A chain that the market was deployed on at `startBlock`; block numbers are 256-bit. -/
structure Lawful (startBlock : ℕ) (c : List Block) : Prop where
  nonempty : c ≠ []
  short : c.length < 2 ^ 256
  runs : (marketAt c).isSome
  undeployed : ∀ b ∈ c.take startBlock, b.ops = []

theorem lawful_iff (startBlock : ℕ) (c : List Block) :
    (c ≠ [] ∧ c.length < 2 ^ 256 ∧ (marketAt c).isSome ∧ ∀ b ∈ c.take startBlock, b.ops = []) ↔
      Lawful startBlock c :=
  ⟨fun ⟨a, b, d, e⟩ => ⟨a, b, d, e⟩, fun h => ⟨h.nonempty, h.short, h.runs, h.undeployed⟩⟩

instance (startBlock : ℕ) (c : List Block) : Decidable (Lawful startBlock c) :=
  decidable_of_iff _ (lawful_iff startBlock c)

def isActive (m : Market) (id : ℕ) : Prop := (m.offers id).status = .active

/-- Accepted, and not repaid or defaulted, in these events. -/
def Outstanding (events : List Event) (id : ℕ) : Prop :=
  ⟨.OfferAccepted, id⟩ ∈ events ∧ ⟨.LoanRepaid, id⟩ ∉ events ∧ ⟨.LoanDefaulted, id⟩ ∉ events

/-! ### The events tell the status -/

/-- The events are those of the statuses, and the counter is above every offer. -/
structure Recorded (events : List Event) (m : Market) : Prop where
  accepted : ∀ id, ⟨.OfferAccepted, id⟩ ∈ events ↔
    (m.offers id).status = .active ∨ (m.offers id).status = .repaid ∨
      (m.offers id).status = .defaulted
  repaid : ∀ id, ⟨.LoanRepaid, id⟩ ∈ events ↔ (m.offers id).status = .repaid
  defaulted : ∀ id, ⟨.LoanDefaulted, id⟩ ∈ events ↔ (m.offers id).status = .defaulted
  counted : ∀ id, (m.offers id).status ≠ .none → 1 ≤ id ∧ id < m.nextOfferId
  counter : 1 ≤ m.nextOfferId ∧ m.nextOfferId < 2 ^ 256

theorem Recorded.deployed : Recorded [] deployed := by
  constructor <;> simp [ActiveLoans.deployed]

theorem Recorded.outstanding {events : List Event} {m : Market} (h : Recorded events m) (id : ℕ) :
    Outstanding events id ↔ isActive m id := by
  rw [Outstanding, h.accepted, h.repaid, h.defaulted, isActive]
  cases (m.offers id).status <;> simp

theorem Recorded.fresh {events : List Event} {m : Market} (h : Recorded events m) :
    (m.offers m.nextOfferId).status = .none := by
  by_contra some
  exact absurd (h.counted _ some).2 (lt_irrefl _)

/-- The events of a call say what it did to the offer that it names. -/
theorem Recorded.update {events more : List Event} {m : Market} {id next : ℕ} {offer : Offer}
    (h : Recorded events m)
    (others : ∀ e ∈ more, e.id = id)
    (accepted : ⟨.OfferAccepted, id⟩ ∈ events ++ more ↔
      offer.status = .active ∨ offer.status = .repaid ∨ offer.status = .defaulted)
    (repaid : ⟨.LoanRepaid, id⟩ ∈ events ++ more ↔ offer.status = .repaid)
    (defaulted : ⟨.LoanDefaulted, id⟩ ∈ events ++ more ↔ offer.status = .defaulted)
    (numbered : 1 ≤ id ∧ id < next) (onward : m.nextOfferId ≤ next) (bound : next < 2 ^ 256) :
    Recorded (events ++ more) ⟨next, Function.update m.offers id offer⟩ := by
  have kept : ∀ name other, other ≠ id →
      ((⟨name, other⟩ : Event) ∈ events ++ more ↔ (⟨name, other⟩ : Event) ∈ events) := by
    intro name other ne
    rw [List.mem_append, or_iff_left]
    exact fun mem => ne (others _ mem)
  refine ⟨fun other => ?_, fun other => ?_, fun other => ?_, fun other => ?_, ?_⟩
  · by_cases same : other = id
    · simpa only [same, update_self] using accepted
    · simpa only [kept _ _ same, update_of_ne same] using h.accepted other
  · by_cases same : other = id
    · simpa only [same, update_self] using repaid
    · simpa only [kept _ _ same, update_of_ne same] using h.repaid other
  · by_cases same : other = id
    · simpa only [same, update_self] using defaulted
    · simpa only [kept _ _ same, update_of_ne same] using h.defaulted other
  · by_cases same : other = id
    · exact fun _ => same ▸ numbered
    · simp only [update_of_ne same]
      exact fun some => ⟨(h.counted other some).1, (h.counted other some).2.trans_le onward⟩
  · exact ⟨h.counter.1.trans onward, bound⟩

theorem Recorded.exec {events : List Event} {m n : Market} {op : Op} (h : Recorded events m)
    (done : exec m op = some n) : Recorded (events ++ op.event.toList) n := by
  have known : ∀ id status, (m.offers id).status = status → status ≠ .none →
      1 ≤ id ∧ id < m.nextOfferId := fun id status is some => h.counted id (is ▸ some)
  cases op with
  | createOffer lender borrower =>
    simp only [ActiveLoans.exec, Option.ite_none_right_eq_some, Option.some.injEq] at done
    obtain ⟨room, rfl⟩ := done
    have fresh := h.fresh
    refine h.update nofun ?_ ?_ ?_ ⟨h.counter.1, Nat.lt_succ_self _⟩ (Nat.le_succ _) room
    · simp [Op.event, h.accepted, fresh]
    · simp [Op.event, h.repaid, fresh]
    · simp [Op.event, h.defaulted, fresh]
  | acceptOffer id account =>
    simp only [ActiveLoans.exec, Option.ite_none_right_eq_some, Option.some.injEq] at done
    obtain ⟨state, rfl⟩ := done
    refine h.update (by simp [Op.event]) ?_ ?_ ?_ (known id _ state (by simp)) le_rfl h.counter.2
    · simp [Op.event]
    · simp [Op.event, h.repaid, state]
    · simp [Op.event, h.defaulted, state]
  | repay id =>
    simp only [ActiveLoans.exec, settle, Option.ite_none_right_eq_some, Option.some.injEq] at done
    obtain ⟨state, rfl⟩ := done
    refine h.update (by simp [Op.event]) ?_ ?_ ?_ (known id _ state (by simp)) le_rfl h.counter.2
    · simp [Op.event, h.accepted, state]
    · simp [Op.event]
    · simp [Op.event, h.defaulted, state]
  | claimDefault id =>
    simp only [ActiveLoans.exec, settle, Option.ite_none_right_eq_some, Option.some.injEq] at done
    obtain ⟨state, rfl⟩ := done
    refine h.update (by simp [Op.event]) ?_ ?_ ?_ (known id _ state (by simp)) le_rfl h.counter.2
    · simp [Op.event, h.accepted, state]
    · simp [Op.event, h.repaid, state]
    · simp [Op.event]
  | cancelOffer id =>
    simp only [ActiveLoans.exec, settle, Option.ite_none_right_eq_some, Option.some.injEq] at done
    obtain ⟨state, rfl⟩ := done
    refine h.update nofun ?_ ?_ ?_ (known id _ state (by simp)) le_rfl h.counter.2
    · simp [Op.event, h.accepted, state]
    · simp [Op.event, h.repaid, state]
    · simp [Op.event, h.defaulted, state]
  | expireOffer id =>
    simp only [ActiveLoans.exec, settle, Option.ite_none_right_eq_some, Option.some.injEq] at done
    obtain ⟨state, rfl⟩ := done
    refine h.update nofun ?_ ?_ ?_ (known id _ state (by simp)) le_rfl h.counter.2
    · simp [Op.event, h.accepted, state]
    · simp [Op.event, h.repaid, state]
    · simp [Op.event, h.defaulted, state]

/-! ### Branches -/

/-- The three events, in their order on the branch. -/
def eventsOf (branch : List Block) : List Event :=
  branch.flatMap fun b => b.events.map Prod.snd

theorem eventsOf_eq (branch : List Block) :
    eventsOf branch = (branch.flatMap Block.calls).flatMap fun op => op.event.toList := by
  have one : ∀ b : Block, b.events.map Prod.snd = b.calls.flatMap fun op => op.event.toList := by
    intro b
    rw [Block.events, Block.calls]
    induction b.ops with
    | nil => rfl
    | cons x ops ih => cases at_x : x.2.event <;> simp [at_x, ih]
  simp only [eventsOf, one, List.flatMap_assoc]

theorem recorded_foldlM {ops : List Op} {events : List Event} {m n : Market}
    (h : Recorded events m) (done : ops.foldlM exec m = some n) :
    Recorded (events ++ ops.flatMap fun op => op.event.toList) n := by
  induction ops generalizing events m with
  | nil =>
    cases done
    simpa using h
  | cons op ops ih =>
    rw [List.foldlM_cons, Option.bind_eq_bind, Option.bind_eq_some_iff] at done
    obtain ⟨mid, first, rest⟩ := done
    simpa only [List.append_assoc, List.flatMap_cons] using ih (h.exec first) rest

theorem recorded_marketAt {branch : List Block} {m : Market} (h : marketAt branch = some m) :
    Recorded (eventsOf branch) m := by
  rw [eventsOf_eq]
  exact recorded_foldlM .deployed h

theorem marketAt_append (before after : List Block) :
    marketAt (before ++ after) =
      (marketAt before).bind fun m => (after.flatMap Block.calls).foldlM exec m := by
  rw [marketAt, List.flatMap_append, List.foldlM_append]
  rfl

variable {startBlock : ℕ} {c : List Block}

theorem Lawful.marketAt_take (h : Lawful startBlock c) (k : ℕ) :
    ∃ m, marketAt (c.take k) = some m := by
  have whole := h.runs
  rw [← List.take_append_drop k c, marketAt_append] at whole
  cases at_k : marketAt (c.take k) with
  | none => simp [at_k] at whole
  | some m => exact ⟨m, rfl⟩

theorem Lawful.eventsOf_take (h : Lawful startBlock c) {k : ℕ} (le : k ≤ startBlock) :
    eventsOf (c.take k) = [] := by
  refine List.flatMap_eq_nil_iff.mpr fun b mem => ?_
  have before : b ∈ c.take startBlock := (List.take_prefix_take_left le).subset mem
  simp [Block.events, h.undeployed b before]

end Turret.ActiveLoans
