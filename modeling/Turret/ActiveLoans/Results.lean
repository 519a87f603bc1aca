import Turret.ActiveLoans.Syncs

/-! What a call returns: the loans of the branch of its target, and what it
leaves in the cache and in the file. -/

namespace Turret.ActiveLoans

open Execution Branches Tasks Tasks.Program

variable {H : Type} {x : Index H} {i : ℕ} {s t u : World H} {requested : Option ℕ}
  {target : Header H}

/-- The candidates that are active, with their parties. -/
def loansOf (m : Market) (ids : List ℕ) : List Loan :=
  ids.filterMap fun id =>
    if (m.offers id).status = .active then
      some ⟨id, (m.offers id).lender, (m.offers id).borrower⟩
    else none

/-- The result lists the loans of the chain `c`, on which its target is: those outstanding in the
blocks that were indexed and still active at the target. -/
structure Reports (x : Index H) (r : Snapshot H) (c : List Block) : Prop where
  lawful : Lawful x.market.startBlock c
  target : Names x.hash ⟨r.blockNumber, r.blockHash⟩ c
  listed : ∃ (m : Market) (next : ℕ), marketAt (c.take (r.blockNumber + 1)) = some m ∧
    r.indexedThrough = next - 1 ∧ next ≤ r.blockNumber + 1 ∧
    (r.complete = true ↔ next = r.blockNumber + 1) ∧ (r.loans.map Loan.id).Nodup ∧
    (∀ id, id ∈ r.loans.map Loan.id ↔ Outstanding (eventsOf (c.take next)) id ∧ isActive m id) ∧
    ∀ loan ∈ r.loans, m.offers loan.id = ⟨loan.lender, loan.borrower, .active⟩

/-- A complete result has exactly the loans that are active at its target. -/
theorem Reports.complete {r : Snapshot H} {c : List Block} (h : Reports x r c)
    (complete : r.complete = true) :
    ∃ m, marketAt (c.take (r.blockNumber + 1)) = some m ∧
      ∀ id, id ∈ r.loans.map Loan.id ↔ isActive m id := by
  obtain ⟨m, next, at_target, -, -, whole, -, listed, -⟩ := h.listed
  refine ⟨m, at_target, fun id => ?_⟩
  rw [listed, whole.mp complete, (recorded_marketAt at_target).outstanding]
  exact and_self_iff

theorem map_id_loansOf (m : Market) (ids : List ℕ) [DecidablePred (isActive m)] :
    (loansOf m ids).map Loan.id = ids.filter (isActive m ·) := by
  induction ids with
  | nil => rfl
  | cons id rest ih =>
    by_cases active : (m.offers id).status = .active
    · simpa [loansOf, isActive, active] using ih
    · simpa [loansOf, isActive, active] using ih

instance (m : Market) : DecidablePred (isActive m) := fun id =>
  inferInstanceAs (Decidable ((m.offers id).status = .active))

theorem offers_of_mem_loansOf {m : Market} {ids : List ℕ} {loan : Loan}
    (mem : loan ∈ loansOf m ids) : m.offers loan.id = ⟨loan.lender, loan.borrower, .active⟩ := by
  obtain ⟨id, -, is⟩ := List.mem_filterMap.mp mem
  simp only [Option.ite_none_right_eq_some, Option.some.injEq] at is
  obtain ⟨active, rfl⟩ := is
  rw [← active]

/-- The result of a call whose progress is right on the chain of its last check. -/
theorem reports_of_indexed {c : List Block} {next : ℕ} {active : List ℕ} {m : Market}
    {status : SyncStatus} (lawful : Lawful x.market.startBlock c) (named : Names x.hash target c)
    (indexed : Indexed c next active) (within : next ≤ target.number + 1)
    (at_target : marketAt (c.take (target.number + 1)) = some m) :
    Reports x ⟨target.number, target.hash, next - 1, decide (next = target.number + 1), status,
      loansOf m (idsSorted active)⟩ c := by
  have sorted := indexed.sorted
  refine ⟨lawful, named, m, next, at_target, rfl, within, decide_eq_true_iff, ?_, fun id => ?_,
    fun loan mem => offers_of_mem_loansOf mem⟩
  · rw [map_id_loansOf]
    exact sorted.nodup.filter _
  · rw [map_id_loansOf, List.mem_filter, sorted.mem id, decide_eq_true_iff]

theorem safe_readLoans {β : Type} {post : β → World H → Prop} {ids : List ℕ} {next : List Loan → Prog H β}
    (injective : Function.Injective x.hash) (here : Here x i requested s)
    (met : Met x.hash target s.trace)
    (h : ∀ t loans, Here x i requested t → Onto s t →
      (∀ u m, Later t.trace u → Names x.hash target u.chain →
        marketAt (u.chain.take (target.number + 1)) = some m → loans = loansOf m ids) →
      SafeTo x i post (next loans) t) :
    SafeTo x i post (readLoans target ids >>= next) s := by
  refine Safe.bind ?_
  induction ids generalizing s next with
  | nil =>
    exact safe_pure fun t since =>
      (h s [] here ⟨rfl, rfl, .refl _⟩ fun _ _ _ _ _ => rfl).stable since
  | cons id rest ih =>
    refine safe_call here fun t (offer : Offer) at_t onto row => safe_throwIf fun _ => ?_
    have step : ∀ (u : World H) (loans : List Loan), Onto t u →
        (∀ w m, Later u.trace w → Names x.hash target w.chain →
          marketAt (w.chain.take (target.number + 1)) = some m → loans = loansOf m rest) →
        ∀ w m, Later u.trace w → Names x.hash target w.chain →
          marketAt (w.chain.take (target.number + 1)) = some m →
          (if offer.status = .active then ⟨id, offer.lender, offer.borrower⟩ :: loans
            else loans) = loansOf m (id :: rest) := by
      intro u loans onto' listed w m later named at_target
      have at_t := (met.later onto.later).names injective (onto'.later.trans later) named
      have same : Shares target.number t.trace.chain w.chain := at_t.shares injective named
      have is : offer = m.offers id := row at_t.1 m (same.2.2 ▸ at_target)
      rw [is, listed w m later named at_target]
      by_cases active : (m.offers id).status = .active
      · simp [loansOf, active]
      · simp [loansOf, active]
    have rest_safe : SafeTo x i (fun loans u => SafeTo x i post
        (next (if offer.status = .active then ⟨id, offer.lender, offer.borrower⟩ :: loans
          else loans)) u) (readLoans target rest) t := by
      refine ih at_t (met.later onto.later) fun u loans at_u onto' listed => ?_
      refine h u _ at_u (onto.trans onto') fun w m later named at_target => ?_
      exact step u loans onto' listed w m later named at_target
    exact Safe.bind (rest_safe.mono (fun loans u safe => safe_pure fun v since => safe.stable since)
      fun _ _ given => given)

/-- What a call returns is told by the process that it ran in. -/
def Told (x : Index H) (i : ℕ) (r : Snapshot H) (t : World H) : Prop :=
  i ≤ t.process ∧ (t.process = i → ∃ c ∈ t.trace.seen, Reports x r c)

theorem Told.stable {r : Snapshot H} (h : Told x i r s) (since : Since x i s t) : Told x i r t := by
  refine ⟨h.1.trans since.process, fun at_t => ?_⟩
  have at_s : s.process = i := le_antisymm (at_t ▸ since.process) h.1
  obtain ⟨c, mem, reports⟩ := h.2 at_s
  exact ⟨c, (since.own at_s at_t).2.2.2.1 c mem, reports⟩

theorem Here.told {r : Snapshot H} (here : Here x i requested s) (h : Reports x r s.trace.chain) :
    Told x i r s :=
  ⟨here.process.ge, fun _ => ⟨_, here.inv.current, h⟩⟩

/-- A market without offers has no active loans. -/
theorem indexed_of_empty {c : List Block} {k : ℕ} {m : Market}
    (at_k : marketAt (c.take k) = some m) (empty : m.nextOfferId = 1) : Indexed c k [] := by
  have recorded := recorded_marketAt at_k
  refine ⟨.nil, fun id => ?_⟩
  rw [recorded.outstanding, isActive]
  refine iff_of_false List.not_mem_nil fun active => ?_
  have counted := recorded.counted id (by simp [active])
  omega

/-- The block that the call is about. -/
theorem safe_target {number : ℕ} {latest : Header H} {β : Type} {post : β → World H → Prop}
    {next : Header H → Prog H β} (here : Here x i requested s)
    (named : Names x.hash latest s.trace.chain)
    (h : ∀ t hd, Here x i requested t → hd.number = number → Met x.hash hd t.trace →
      SafeTo x i post (next hd) t) :
    SafeTo x i post (targetBlock number latest >>= next) s := by
  by_cases same : number = latest.number
  · rw [targetBlock, if_pos same]
    exact h s latest here same.symm ⟨_, here.inv.current, named⟩
  · rw [targetBlock, if_neg same]
    exact safe_canonical here fun t hd at_t _ is named' =>
      h t hd at_t is ⟨_, at_t.inv.current, named'⟩

section Safe

variable [DecidableEq H]

theorem safe_emptyMarket {saved : Saved H} (here : Here x i requested s)
    (above : x.market.startBlock ≤ target.number)
    (counted : ∀ u m, Later s.trace u → Names x.hash target u.chain →
      marketAt (u.chain.take (target.number + 1)) = some m → m.nextOfferId = 1)
    (requests : ∀ n, requested = some n → target.number = n)
    (known : ∀ old, s.stored x = some old → old = saved) :
    SafeTo x i (Told x i) (emptyMarket x saved target) s := by
  have last : ∀ v, Here x i requested v → Later s.trace v.trace →
      SafeTo x i (Told x i) (do
        unchanged target
        pure ⟨target.number, target.hash, target.number, true, .ready, []⟩) v := by
    intro v at_v later
    refine safe_unchanged at_v fun w at_w onto named => safe_pure fun y since => ?_
    have lawful := at_w.inv.lawful _ at_w.inv.current
    obtain ⟨m, at_target⟩ := lawful.marketAt_take (target.number + 1)
    have indexed := indexed_of_empty at_target (counted _ m (later.trans onto.later) named at_target)
    refine (at_w.told ?_).stable since
    refine ⟨lawful, named, m, target.number + 1, at_target, by simp, le_rfl, by simp, by simp,
      fun id => ?_, by simp⟩
    rw [← indexed.mem id]
    simp
  refine safe_unchanged here fun t at_t onto named => ?_
  have lawful := at_t.inv.lawful _ at_t.inv.current
  obtain ⟨m, at_target⟩ := lawful.marketAt_take (target.number + 1)
  have indexed := indexed_of_empty at_target (counted _ m onto.later named at_target)
  split
  · exact last t at_t onto.later
  · rename_i newest
    push Not at newest
    have formed : WellFormed x [(⟨target.number, target.hash, []⟩ : Checkpoint H)] :=
      WellFormed.nil.snoc (by simp) above (named.1.trans lawful.short) (Nat.zero_le _)
        ⟨t.trace.chain, lawful, named, indexed⟩
    have valid := Valid.initial.replace formed x.retained_pos
    refine safe_store at_t valid (fun n is old stored point mem => ?_) fun u at_u later _ =>
      last u at_u (onto.later.trans later)
    rw [known old (onto.stored ▸ stored)] at mem
    exact (newest point mem).trans (requests n is).le

theorem safe_discover {saved : Saved H} (injective : Function.Injective x.hash)
    (here : Here x i requested s) (met : Met x.hash target s.trace) (valid : Valid x saved)
    (above : x.market.startBlock ≤ target.number)
    (requests : ∀ n, requested = some n → target.number = n)
    (known : ∀ old, s.stored x = some old → old = saved) :
    SafeTo x i (Told x i) (discover x requested saved target) s := by
  have right : ∀ point ∈ saved.checkpoints.reverse, Right x point :=
    fun point mem => valid.points.right point (List.mem_reverse.mp mem)
  refine safe_rewind injective here met right fun t kept at_t onto suffix found => ?_
  have clear : decide (requested ≠ none ∧
      ∃ point ∈ saved.checkpoints, target.number < point.blockNumber) = false →
      Clear x requested t := by
    intro newest n is old stored point mem
    have none_above := of_decide_eq_false newest
    push Not at none_above
    rw [known old (onto.stored ▸ stored)] at mem
    exact (none_above (by simp [is]) point mem).trans (requests n is).le
  refine safe_pages injective at_t valid (met.later onto.later)
    (.start valid above suffix found) requests clear fun u p at_u later progress => ?_
  refine safe_readLoans injective at_u (met.later (onto.later.trans later))
    fun v loans at_v onto' listed => safe_unchanged at_v fun w at_w onto'' named =>
      safe_pure fun y since => ?_
  have lawful := at_w.inv.lawful _ at_w.inv.current
  obtain ⟨m, at_target⟩ := lawful.marketAt_take (target.number + 1)
  have indexed := progress.tracked _ (onto'.later.trans onto''.later) lawful named
  rw [listed _ m onto''.later named at_target]
  exact (at_w.told (reports_of_indexed lawful named indexed progress.within at_target)).stable since

theorem safe_perform (injective : Function.Injective x.hash) (here : Here x i requested s) :
    SafeTo x i (Told x i) (perform x requested) s := by
  refine safe_call here fun t₁ (chainId : ℕ) at₁ _ _ => safe_throwIf fun _ => ?_
  refine safe_call at₁ fun t₂ (latest : Header H) at₂ _ given => ?_
  have newest : latest.number + 1 = t₂.trace.chain.length ∧
      Names x.hash latest t₂.trace.chain := given
  refine safe_throwIf fun bounds => safe_target at₂ newest.2 fun t₃ target at₃ number met => ?_
  refine safe_call at₃ fun t₄ (code : Option String) at₄ on₄ _ => safe_throwIf fun _ => ?_
  refine safe_load at₄ fun t₅ saved at₅ on₅ valid known => ?_
  refine safe_call at₅ fun t₆ (counter : ℕ) at₆ on₆ counted => safe_throwIf fun _ => ?_
  have met₆ := met.later ((on₄.later.trans on₅.later).trans on₆.later)
  have above : x.market.startBlock ≤ target.number := by omega
  have requests : ∀ n, requested = some n → target.number = n := by
    intro n is
    rw [number, is]
    rfl
  have known₆ : ∀ old, t₆.stored x = some old → old = saved :=
    fun old stored => known old (on₆.stored ▸ stored)
  split
  · rename_i empty
    refine safe_emptyMarket at₆ above (fun u m later named at_target => ?_) requests known₆
    have at_t₆ := met₆.names injective later named
    have same : Shares target.number t₆.trace.chain u.chain := at_t₆.shares injective named
    exact (counted at_t₆.1 m (same.2.2 ▸ at_target)).symm.trans empty
  · exact safe_discover injective at₆ met₆ valid above requests known₆

theorem safe_syncMarket (injective : Function.Injective x.hash) (inv : Inv x s) :
    SafeTo x i (Told x i) (syncMarket x requested) s := by
  refine safe_throwIf fun _ => ?_
  refine Tasks.safe_call (fun _ _ _ _ _ _ => trivial) fun t (running : ℕ) since _ _ => ?_
  refine safe_throwIf fun _ => safe_modify fun u since' admitted => ⟨.begin requested, ?_⟩
  have act : Act x u (u.begin requested) := .begin requested
  have here : Here x i requested (u.begin requested) :=
    ⟨admitted, rfl, act.inv (since'.inv (since.inv inv))⟩
  refine Safe.orElse (Safe.mono (Safe.bind ((safe_perform injective here).mono
    (fun r v told => ?_) fun _ _ given => given)) (fun _ _ told => told) fun e v _ => ?_)
  · refine safe_modify fun w later admitted => ⟨.finish, safe_pure fun y after => ?_⟩
    have now : Told x i r w := told.stable later
    have finished : Told x i r w.finish := now
    exact finished.stable after
  · exact safe_modify fun w _ _ => ⟨.finish, fun _ _ => trivial⟩

end Safe

end Turret.ActiveLoans
