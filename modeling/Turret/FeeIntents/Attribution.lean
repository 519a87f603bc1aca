import Turret.FeeIntents.Reconciliation

/-! What an audit that succeeds has established: each receipt is assigned once,
and the router's counter has grown by the remittances of the journal alone. -/

namespace Turret.FeeIntents

open Client

variable {viem : Viem} {answers : ChainClient} {config : Config} {journal : Journal}
  {x : Context} {collections : List Collected}

/-- The chain answered with a confirmed receipt of the transaction. -/
structure Mined (answers : ChainClient) (x : Context) (hash : Hash) (value : Receipt) : Prop where
  answered : Answered answers (.transactionReceipt hash) value
  success : value.status = .success
  hash : value.transactionHash = hash
  after : x.start < value.blockNumber
  confirmed : value.blockNumber + confirmations ≤ x.head

theorem receipt_spec {hash : Hash} {value : Receipt}
    (h : Gives answers (receipt x hash) value) : Mined answers x hash value := by
  obtain ⟨found, first, h⟩ := gives_bind h
  have answered := gives_request first
  obtain ⟨_, checked, h⟩ := gives_bind h
  have passed := gives_throwIf checked
  obtain ⟨_, -, h⟩ := gives_bind h
  obtain ⟨_, -, h⟩ := gives_bind h
  obtain ⟨_, -, h⟩ := gives_bind h
  obtain ⟨_, -, h⟩ := gives_bind h
  cases gives_pure h
  simp only [not_or, not_not, not_le, not_lt] at passed
  obtain ⟨success, hash, -, -, after, confirmed⟩ := passed
  exact ⟨answered, success, hash, after, confirmed⟩

/-! ### The collected fees -/

/-- The fee is an event of a confirmed receipt, of a registered facility. -/
structure Witnessed (viem : Viem) (answers : ChainClient) (x : Context) (hashes : List Hash)
    (c : Collected) : Prop where
  listed : c.transactionHash ∈ hashes
  positive : 0 < c.amount
  id : c.id = collectionId x.config.chainId c.facility c.transactionHash c.logIndex
  event : ∃ value, Mined answers x c.transactionHash value ∧
    ∃ entry ∈ x.config.facilities, c.facility = entry.address ∧
      ⟨c.loanId, x.config.treasury, c.amount, c.logIndex⟩ ∈ feesCollected viem value entry.address

/-- The fees read so far have different ids, and each is one of the chain. -/
structure Gathered (viem : Viem) (answers : ChainClient) (x : Context) (hashes : List Hash)
    (collections : List Collected) : Prop where
  distinct : (collections.map Collected.id).Nodup
  witnessed : ∀ c ∈ collections, Witnessed viem answers x hashes c

theorem Gathered.snoc {hashes : List Hash} {c : Collected}
    (h : Gathered viem answers x hashes collections) (fresh : c.id ∉ collections.map Collected.id)
    (one : Witnessed viem answers x hashes c) :
    Gathered viem answers x hashes (collections ++ [c]) where
  distinct := by
    rw [List.map_append, List.map_singleton]
    exact List.nodup_append.mpr ⟨h.distinct, List.nodup_singleton _, fun id mem other at_c => by
      rw [List.mem_singleton.mp at_c]
      exact fun same => fresh (same ▸ mem)⟩
  witnessed := by
    intro d mem
    rcases List.mem_append.mp mem with before | last
    · exact h.witnessed d before
    · rw [List.mem_singleton.mp last]
      exact one

theorem collectLogs_spec {hashes : List Hash} {entry : Facility} {value : Receipt}
    (registered : entry ∈ x.config.facilities) (mined : Mined answers x value.transactionHash value)
    (listed : value.transactionHash ∈ hashes) {logs : List FeeLog}
    (events : ∀ log ∈ logs, log ∈ feesCollected viem value entry.address)
    {vaults : List (Address × ℕ)} {after : List Collected × List (Address × ℕ)}
    (h : Gives answers (collectLogs x entry value logs collections vaults) after)
    (before : Gathered viem answers x hashes collections) :
    Gathered viem answers x hashes after.1 := by
  induction logs generalizing collections vaults with
  | nil =>
    cases gives_pure h
    exact before
  | cons log logs ih =>
    obtain ⟨head, tail⟩ := List.forall_mem_cons.mp events
    obtain ⟨_, checked, h⟩ := gives_bind h
    have passed := gives_throwIf checked
    obtain ⟨loan, -, h⟩ := gives_bind h
    obtain ⟨_, -, h⟩ := gives_bind h
    obtain ⟨_, new, h⟩ := gives_bind h
    have fresh := gives_throwIf new
    simp only [not_or, not_not, not_lt] at passed
    obtain ⟨recipient, positive, -⟩ := passed
    refine ih tail h (before.snoc fresh ⟨listed, Nat.pos_of_ne_zero positive, rfl, value, mined,
      entry, registered, rfl, ?_⟩)
    rw [← recipient]
    exact head

theorem collectFacilities_spec {hashes : List Hash} {value : Receipt}
    (mined : Mined answers x value.transactionHash value)
    (listed : value.transactionHash ∈ hashes) {entries : List Facility}
    (registered : ∀ entry ∈ entries, entry ∈ x.config.facilities) {after : List Collected}
    (h : Gives answers (collectFacilities viem x value entries collections) after)
    (before : Gathered viem answers x hashes collections) :
    Gathered viem answers x hashes after := by
  induction entries generalizing collections with
  | nil =>
    cases gives_pure h
    exact before
  | cons entry entries ih =>
    obtain ⟨head, tail⟩ := List.forall_mem_cons.mp registered
    unfold collectFacilities at h
    dsimp only at h
    split at h
    · exact ih tail h before
    · obtain ⟨_, -, h⟩ := gives_bind h
      obtain ⟨found, logs, h⟩ := gives_bind h
      obtain ⟨_, -, h⟩ := gives_bind h
      exact ih tail h
        (collectLogs_spec head mined listed (fun log mem => mem) logs before)

theorem collect_spec {hashes rest : List Hash} (listed : ∀ hash ∈ rest, hash ∈ hashes)
    {receipts : List (Hash × Receipt)} {after : List Collected × List (Hash × Receipt)}
    (h : Gives answers (collect viem x rest collections receipts) after)
    (before : Gathered viem answers x hashes collections) :
    Gathered viem answers x hashes after.1 := by
  induction rest generalizing collections receipts with
  | nil =>
    cases gives_pure h
    exact before
  | cons hash rest ih =>
    obtain ⟨head, tail⟩ := List.forall_mem_cons.mp listed
    obtain ⟨value, found, h⟩ := gives_bind h
    have mined := receipt_spec found
    have same := mined.hash
    obtain ⟨mid, fees, h⟩ := gives_bind h
    obtain ⟨_, -, h⟩ := gives_bind h
    refine ih tail h (collectFacilities_spec ?_ ?_ (fun entry mem => mem) fees before)
    · rw [same]
      exact mined
    · rw [same]
      exact head

/-! ### The remittances -/

/-- What the audit found collected under an id. -/
def amountOf (collections : List Collected) (id : String) : ℕ :=
  (collections.find? (·.id = id)).elim 0 Collected.amount

/-- The fees that a remittance claims to have forwarded. -/
def grossOf (collections : List Collected) (record : Remittance) : ℕ :=
  (record.collectionIds.map (amountOf collections)).sum

theorem assign_spec {receipts : List (Hash × Receipt)} {value : Receipt} {ids assigned : List String}
    {gross : ℕ} {after : List String × ℕ}
    (h : Gives answers (assign collections receipts value ids assigned gross) after) :
    after.1 = assigned ++ ids ∧ (assigned.Nodup → after.1.Nodup) ∧
      after.2 = gross + (ids.map (amountOf collections)).sum ∧
      ∀ id ∈ ids, id ∈ collections.map Collected.id := by
  induction ids generalizing assigned gross with
  | nil =>
    cases gives_pure h
    simp
  | cons id ids ih =>
    obtain ⟨collected, found, h⟩ := gives_bind h
    have at_id := gives_orThrow found
    obtain ⟨_, checked, h⟩ := gives_bind h
    have fresh := (not_or.mp (gives_throwIf checked)).1
    obtain ⟨all, distinct, sum, known⟩ := ih h
    refine ⟨?_, fun before => distinct ?_, ?_, List.forall_mem_cons.mpr ⟨?_, known⟩⟩
    · rw [all, List.append_assoc, List.singleton_append]
    · exact List.nodup_append.mpr ⟨before, List.nodup_singleton _, fun other mem same at_id => by
        rw [List.mem_singleton.mp at_id]
        exact fun eq => fresh (eq ▸ mem)⟩
    · rw [sum, List.map_cons, List.sum_cons, amountOf, at_id, Option.elim_some, Nat.add_assoc]
    · have key := List.find?_some at_id
      exact List.mem_map.mpr ⟨collected, List.mem_of_find?_eq_some at_id, of_decide_eq_true key⟩

/-- A confirmed call of the router forwarded exactly this. -/
def Routes (viem : Viem) (answers : ChainClient) (x : Context) (hash : Hash) (gross : ℕ) : Prop :=
  ∃ value share, Mined answers x hash value ∧
    claimedFeesForwarded viem value x.config.router = [⟨gross, share⟩]

theorem checkRemittance_spec {record : Remittance} {value : Receipt} {gross : ℕ} {u : Unit}
    (h : Gives answers (checkRemittance viem x record value gross) u) :
    ∃ share, claimedFeesForwarded viem value x.config.router = [⟨gross, share⟩] := by
  obtain ⟨tx, -, h⟩ := gives_bind h
  obtain ⟨call, -, h⟩ := gives_bind h
  obtain ⟨_, -, h⟩ := gives_bind h
  split at h
  · rename_i routed event
    obtain ⟨_, checked, h⟩ := gives_bind h
    have fees := (not_or.mp (gives_throwIf checked)).1
    rw [not_not] at fees
    exact ⟨routed.stakerShare, by rw [event, ← fees]⟩
  · cases gives_orThrow h

/-- What the remittances that were read so far come to. -/
structure Remitted (viem : Viem) (answers : ChainClient) (x : Context)
    (collections : List Collected) (records : List Remittance) (kept : Assigned) : Prop where
  ids : kept.ids = records.flatMap Remittance.collectionIds
  assigned : kept.ids.Nodup
  hashes : kept.hashes = records.map Remittance.hash
  distinct : kept.hashes.Nodup
  forwarded : kept.forwarded = (records.map (grossOf collections)).sum
  known : ∀ id ∈ kept.ids, id ∈ collections.map Collected.id
  routes : ∀ record ∈ records, Routes viem answers x record.hash (grossOf collections record)

theorem Remitted.nil : Remitted viem answers x collections [] ⟨[], [], 0⟩ :=
  ⟨rfl, List.nodup_nil, rfl, List.nodup_nil, rfl, nofun, nofun⟩

theorem remit_spec {receipts : List (Hash × Receipt)} {done records : List Remittance}
    {kept after : Assigned}
    (h : Gives answers (remit viem x collections receipts records kept) after)
    (before : Remitted viem answers x collections done kept) :
    Remitted viem answers x collections (done ++ records) after := by
  induction records generalizing done kept with
  | nil =>
    cases gives_pure h
    rwa [List.append_nil]
  | cons record records ih =>
    obtain ⟨_, checked, h⟩ := gives_bind h
    have fresh := (not_or.mp (not_or.mp (gives_throwIf checked)).2).1
    obtain ⟨value, found, h⟩ := gives_bind h
    obtain ⟨_, -, h⟩ := gives_bind h
    obtain ⟨_, -, h⟩ := gives_bind h
    obtain ⟨⟨ids, gross⟩, assigned, h⟩ := gives_bind h
    obtain ⟨all, distinct, sum, known⟩ := assign_spec assigned
    obtain ⟨_, remitted, h⟩ := gives_bind h
    obtain ⟨share, event⟩ := checkRemittance_spec remitted
    rw [Nat.zero_add] at sum
    dsimp only at all distinct sum
    rw [List.append_cons]
    refine ih h {
      ids := ?_
      assigned := distinct before.assigned
      hashes := ?_
      distinct := ?_
      forwarded := ?_
      known := fun id mem => ?_
      routes := fun other mem => ?_ }
    · rw [all, before.ids, List.flatMap_append, List.flatMap_singleton]
    · rw [before.hashes, List.map_append, List.map_singleton]
    · exact List.nodup_append.mpr ⟨before.distinct, List.nodup_singleton _,
        fun hash mem same at_hash => by
          rw [List.mem_singleton.mp at_hash]
          exact fun eq => fresh (eq ▸ mem)⟩
    · simp only [before.forwarded, sum, List.map_append, List.map_singleton, List.sum_append,
        List.sum_singleton, grossOf]
    · rw [all] at mem
      rcases List.mem_append.mp mem with earlier | new
      · exact before.known id earlier
      · exact known id new
    · rcases List.mem_append.mp mem with earlier | last
      · exact before.routes other earlier
      · rw [List.mem_singleton.mp last]
        exact ⟨value, share, receipt_spec found, by rw [event, sum, grossOf]⟩

/-! ### The audit -/

/-- The audit's report, and what the chain answered to it: every fee of the journal is one that was
collected, is assigned once, and the remittances are all that the router has counted since the
checkpoint. -/
structure Attributed (viem : Viem) (answers : ChainClient) (config : Config) (journal : Journal)
    (report : Report) (collections : List Collected) : Prop where
  context : ∃ x : Context, x.config = config ∧ x.start = journal.baseline.blockNumber ∧
    x.head = report.blockNumber ∧
    Gathered viem answers x journal.collectionHashes collections ∧
    ∀ record ∈ journal.remittances,
      Routes viem answers x record.hash (grossOf collections record)
  assigned : (journal.remittances.flatMap Remittance.collectionIds).Nodup
  known : ∀ id ∈ journal.remittances.flatMap Remittance.collectionIds,
    id ∈ collections.map Collected.id
  hashes : (journal.remittances.map Remittance.hash).Nodup
  forwarded : report.forwarded = (journal.remittances.map (grossOf collections)).sum
  unassigned : report.unassigned = collections.filter fun c =>
    c.id ∉ journal.remittances.flatMap Remittance.collectionIds
  checkpoint : Answered answers (.readUint config.router .totalTreasuryReported
    journal.baseline.blockNumber) journal.baseline.totalTreasuryReported
  reported : Answered answers (.readUint config.router .totalTreasuryReported report.blockNumber)
    report.routerTotalTreasuryReported
  balanced : report.routerTotalTreasuryReported =
    journal.baseline.totalTreasuryReported + report.forwarded

theorem readRouter_spec {head : ℕ} {counters : Counters}
    (h : Gives answers (readRouter config head) counters) :
    Answered answers (.readUint config.router .totalTreasuryReported head) counters.reported := by
  obtain ⟨_, -, h⟩ := gives_bind h
  obtain ⟨_, -, h⟩ := gives_bind h
  obtain ⟨_, -, h⟩ := gives_bind h
  obtain ⟨_, -, h⟩ := gives_bind h
  obtain ⟨_, -, h⟩ := gives_bind h
  obtain ⟨_, -, h⟩ := gives_bind h
  obtain ⟨reported, found, h⟩ := gives_bind h
  obtain ⟨_, -, h⟩ := gives_bind h
  obtain ⟨_, -, h⟩ := gives_bind h
  obtain ⟨_, -, h⟩ := gives_bind h
  obtain ⟨_, -, h⟩ := gives_bind h
  cases gives_pure h
  exact gives_request found

theorem checkBaseline_spec {baseline : Baseline} {u : Unit}
    (h : Gives answers (checkBaseline config baseline) u) :
    Answered answers (.readUint config.router .totalTreasuryReported baseline.blockNumber)
      baseline.totalTreasuryReported := by
  obtain ⟨_, -, h⟩ := gives_bind h
  obtain ⟨_, -, h⟩ := gives_bind h
  obtain ⟨reported, found, h⟩ := gives_bind h
  have same := not_not.mp (gives_throwIf h)
  exact same ▸ gives_request found

theorem reconcileFacilityFees_spec {report : Report}
    (h : Gives answers (reconcileFacilityFees viem config journal) report) :
    ∃ collections, Attributed viem answers config journal report collections := by
  obtain ⟨token, -, h⟩ := gives_bind h
  obtain ⟨⟨latest, head, headHash⟩, -, h⟩ := gives_bind h
  obtain ⟨_, -, h⟩ := gives_bind h
  obtain ⟨counters, router, h⟩ := gives_bind h
  obtain ⟨_, baseline, h⟩ := gives_bind h
  obtain ⟨_, -, h⟩ := gives_bind h
  obtain ⟨⟨collections, receipts⟩, fees, h⟩ := gives_bind h
  obtain ⟨kept, remittances, h⟩ := gives_bind h
  obtain ⟨_, checked, h⟩ := gives_bind h
  have balanced := not_not.mp (gives_throwIf checked)
  obtain ⟨checkedAt, -, h⟩ := gives_bind h
  cases gives_pure h
  have gathered := collect_spec (fun hash mem => mem) fees ⟨List.nodup_nil, nofun⟩
  have remitted := remit_spec remittances .nil
  rw [List.nil_append] at remitted
  refine ⟨collections, {
    context := ⟨_, rfl, rfl, rfl, gathered, remitted.routes⟩
    assigned := remitted.ids ▸ remitted.assigned
    known := remitted.ids ▸ remitted.known
    hashes := remitted.hashes ▸ remitted.distinct
    forwarded := remitted.forwarded
    unassigned := by rw [← remitted.ids]
    checkpoint := checkBaseline_spec baseline
    reported := readRouter_spec router
    balanced := balanced }⟩

theorem auditFeeJournal_spec {report : Report}
    (h : read (auditFeeJournal viem config journal) answers = .ok report) :
    ∃ collections, Attributed viem answers config journal report collections := by
  obtain ⟨_, -, h⟩ := gives_bind (gives_of_read h)
  exact reconcileFacilityFees_spec h

/-! ### Forwarding outside the journal -/

/-- What a transaction has the router count. -/
def routed (viem : Viem) (router : Address) (value : Receipt) : ℕ :=
  ((claimedFeesForwarded viem value router).map Routed.treasuryReportedFees).sum

/-- The router's counter after a block of a chain with these receipts. -/
def reportedAt (viem : Viem) (router : Address) (chain : List Receipt) (block : ℕ) : ℕ :=
  ((chain.filter (·.blockNumber ≤ block)).map (routed viem router)).sum

/-- The answers about receipts and about the counter are those of one chain. -/
structure Truthful (viem : Viem) (answers : ChainClient) (router : Address)
    (chain : List Receipt) : Prop where
  receipt : ∀ hash value, Answered answers (.transactionReceipt hash) value → value ∈ chain
  counter : ∀ block count, Answered answers (.readUint router .totalTreasuryReported block) count →
    count = reportedAt viem router chain block

/-- The receipts after the checkpoint, up to the head. -/
def between (start head : ℕ) (chain : List Receipt) : List Receipt :=
  chain.filter fun value => start < value.blockNumber ∧ value.blockNumber ≤ head

theorem reportedAt_between {router : Address} (chain : List Receipt) {start head : ℕ}
    (ordered : start ≤ head) :
    reportedAt viem router chain head = reportedAt viem router chain start +
      ((between start head chain).map (routed viem router)).sum := by
  induction chain with
  | nil => rfl
  | cons value chain ih =>
    simp only [reportedAt, between, List.filter_cons] at ih ⊢
    by_cases early : value.blockNumber ≤ start
    · simp only [early, early.trans ordered, not_lt.mpr early, decide_true, if_true, false_and,
        decide_false, Bool.false_eq_true, if_false, List.map_cons, List.sum_cons]
      omega
    · by_cases late : value.blockNumber ≤ head
      · simp only [early, late, not_le.mp early, decide_true, if_true, true_and, decide_false,
          Bool.false_eq_true, if_false, List.map_cons, List.sum_cons]
        omega
      · simp only [early, late, and_false, decide_false, Bool.false_eq_true, if_false]
        exact ih

theorem sum_le_of_subset {values chain : List Receipt} (distinct : values.Nodup)
    (sub : ∀ value ∈ values, value ∈ chain) (f : Receipt → ℕ) :
    (values.map f).sum ≤ (chain.map f).sum := by
  obtain ⟨rest, same, part⟩ := List.subperm_of_subset distinct sub
  rw [← (same.map f).sum_eq]
  exact (part.map f).sum_le_sum fun _ _ => Nat.zero_le _

/-- The receipts of the remittances, in their order. -/
theorem receipts_of_routes {records : List Remittance} {gross : Remittance → ℕ}
    (routes : ∀ record ∈ records, Routes viem answers x record.hash (gross record))
    {chain : List Receipt} (truthful : Truthful viem answers x.config.router chain) :
    ∃ values : List Receipt, values.map Receipt.transactionHash = records.map Remittance.hash ∧
      values.map (routed viem x.config.router) = records.map gross ∧
      ∀ value ∈ values, value ∈ between x.start x.head chain := by
  induction records with
  | nil => exact ⟨[], rfl, rfl, nofun⟩
  | cons record records ih =>
    obtain ⟨head, tail⟩ := List.forall_mem_cons.mp routes
    obtain ⟨values, hashes, sums, within⟩ := ih tail
    obtain ⟨value, share, mined, event⟩ := head
    refine ⟨value :: values, by rw [List.map_cons, List.map_cons, hashes, mined.hash], ?_,
      List.forall_mem_cons.mpr ⟨?_, within⟩⟩
    · rw [List.map_cons, List.map_cons, sums, routed, event]
      simp
    · have confirmed := mined.confirmed
      simp only [between, List.mem_filter, decide_eq_true_eq]
      exact ⟨truthful.receipt _ _ mined.answered, mined.after, by omega⟩

/-- When an audit of one chain succeeds, nothing was forwarded outside the journal. -/
theorem Attributed.journaled {report : Report}
    (h : Attributed viem answers config journal report collections) {chain : List Receipt}
    (truthful : Truthful viem answers config.router chain) (value : Receipt) (mem : value ∈ chain)
    (after : journal.baseline.blockNumber < value.blockNumber)
    (upto : value.blockNumber ≤ report.blockNumber)
    (forwards : 0 < routed viem config.router value) :
    value.transactionHash ∈ journal.remittances.map Remittance.hash := by
  obtain ⟨x, rfl, start, head, -, routes⟩ := h.context
  obtain ⟨values, hashes, sums, within⟩ := receipts_of_routes routes truthful
  by_contra outside
  have counted : ((between x.start x.head chain).map (routed viem x.config.router)).sum =
      (values.map (routed viem x.config.router)).sum := by
    have at_head : report.routerTotalTreasuryReported = _ := truthful.counter _ _ h.reported
    have at_start : journal.baseline.totalTreasuryReported = _ :=
      truthful.counter _ _ h.checkpoint
    have balanced := h.balanced
    have grown : reportedAt viem x.config.router chain report.blockNumber = _ :=
      reportedAt_between chain (after.le.trans upto)
    rw [h.forwarded, ← sums] at balanced
    rw [start, head]
    omega
  have distinct : (value :: values).Nodup := by
    have inner : values.Nodup := .of_map _ (hashes ▸ h.hashes)
    refine List.nodup_cons.mpr ⟨fun among => outside ?_, inner⟩
    rw [← hashes]
    exact List.mem_map_of_mem among
  have here : value ∈ between x.start x.head chain := by
    simp only [between, List.mem_filter, decide_eq_true_eq, start, head]
    exact ⟨mem, after, upto⟩
  have least := sum_le_of_subset distinct (List.forall_mem_cons.mpr ⟨here, within⟩)
    (routed viem x.config.router)
  rw [List.map_cons, List.sum_cons, counted] at least
  omega

end Turret.FeeIntents
