import Turret.P2P.PendingRecovery

/-! What the search for a consumed nonce relies on, and what its parts do. The
node tells no untruth about the chain as it is when it answers, and a block that
was displaced does not come back while the search runs. -/

namespace Turret.P2P.PendingRecovery

open Tasks Branches

/-! ### What is true of a chain -/

section Chain

variable (digest : List ChainBlock → String) (body : String → Body)

/-- The block of the number is on the chain, with this hash. -/
def Stands (c : List ChainBlock) (number : ℕ) (hash : String) : Prop :=
  number < c.length ∧ lower hash = lower (digest (c.take (number + 1)))

/-- The transaction is what its hash commits to. -/
def Genuine (transaction : Transaction) : Prop :=
  transaction.toBody = body (lower transaction.hash)

/-- The transaction of the hash is of the account, and of the saved nonce. -/
def Consumes (account : String) (intent : PendingIntent) (hash : String) : Prop :=
  same (body (lower hash)).sender account = true ∧ (body (lower hash)).nonce = intent.nonce

/-- What the node may tell of the latest block. -/
def TellsLatest (c : List ChainBlock) (latest : Latest) : Prop :=
  ∀ number hash, latest.number = some number → latest.hash = some hash →
    Stands digest c number hash

def TellsBlock (c : List ChainBlock) (number : ℕ) (block : Block) : Prop :=
  ∃ b, (c)[number]? = some b ∧ block.transactions = b.transactions ∧
    ∀ hash, block.hash = some hash → Stands digest c number hash

def TellsFullBlock (c : List ChainBlock) (number : ℕ) (transactions : List Transaction) : Prop :=
  ∃ b, (c)[number]? = some b ∧ transactions.map Transaction.hash = b.transactions ∧
    ∀ transaction ∈ transactions, Genuine body transaction

def TellsCount (c : List ChainBlock) (address : String) (number : ℕ) (count : ℤ) : Prop :=
  ∃ b, (c)[number]? = some b ∧ count = b.nonces (lower address)

/-- What the node may answer. Receipts may be anything. -/
def Truthful (s : Network) : (q : Query) → Answer q → Prop
  | .latest, .ok latest => TellsLatest digest s.chain latest
  | .block number, .ok block => TellsBlock digest s.chain number block
  | .fullBlock number, .ok transactions => TellsFullBlock body s.chain number transactions
  | .transaction _, .ok transaction => Genuine body transaction
  | .count address number, .ok count => TellsCount s.chain address number count
  | _, _ => True

/-- The chain moves on without coming back to what it has left. -/
def contract : Contract Network Query Answer where
  rely := fun s t => Later s.trace t.trace
  admits := fun _ _ => True
  guarantee := fun _ _ => True
  answers := Truthful digest body
  refl := fun s => .refl s.trace
  trans := fun h h' => h.trans h'

/-- Of the branches that the chain has had no two have one hash. -/
def Collisionless (t : Network) : Prop :=
  ∀ c ∈ t.trace.seen, ∀ d ∈ t.trace.seen, ∀ n < c.length, ∀ m < d.length,
    lower (digest (c.take (n + 1))) = lower (digest (d.take (m + 1))) → c.take (n + 1) = d.take (m + 1)

/-- The nonce of an account before the block of the number. -/
def nonceBefore (c : List ChainBlock) (account : String) : ℕ → ℕ
  | 0 => 0
  | n + 1 => ((c)[n]?.map fun b => b.nonces account).getD 0

/-- The account of a transaction, as the blocks name it. -/
def senderOf (hash : String) : String := lower (body (lower hash)).sender

/-- Nonces do not fall, and each transaction consumes one of its account. -/
structure Lawful (c : List ChainBlock) : Prop where
  monotone : ∀ account (n : ℕ) (b b' : ChainBlock), (c)[n]? = some b → (c)[n + 1]? = some b' →
    b.nonces account ≤ b'.nonces account
  consumed : ∀ (n : ℕ) (b : ChainBlock), (c)[n]? = some b → ∀ row ∈ b.transactions,
    (nonceBefore c (senderOf body row) n : ℤ) ≤ (body (lower row)).nonce ∧
      (body (lower row)).nonce < b.nonces (senderOf body row)
  once : ∀ (n : ℕ) (b : ChainBlock), (c)[n]? = some b → ∀ row ∈ b.transactions, ∀ other ∈ b.transactions,
    senderOf body row = senderOf body other → (body (lower row)).nonce = (body (lower other)).nonce →
      lower row = lower other

end Chain

variable {digest : List ChainBlock → String} {body : String → Body} {c : List ChainBlock}
  {account : String} {options : Options} {intent : PendingIntent} {head : Head}

theorem same_iff {a b : String} : same (some a) b = true ↔ lower a = lower b := by
  simp [same]

theorem Consumes.sender {hash : String} (h : Consumes body account intent hash) :
    senderOf body hash = lower account := same_iff.mp h.1

section Lawful

variable {n m : ℕ} {b b' : ChainBlock} {row other : String}

theorem Lawful.mono (h : Lawful body c) (at_n : (c)[n]? = some b) (at_m : (c)[m]? = some b')
    (le : n ≤ m) (a : String) : b.nonces a ≤ b'.nonces a := by
  obtain ⟨k, rfl⟩ := Nat.exists_eq_add_of_le le
  induction k generalizing b' with
  | zero =>
    rw [Nat.add_zero, at_n] at at_m
    cases at_m
    exact le_rfl
  | succ k ih =>
    have inside : n + k < c.length := by
      have last := (List.getElem?_eq_some_iff.mp at_m).1
      omega
    obtain ⟨mid, at_mid⟩ : ∃ mid, (c)[n + k]? = some mid := ⟨_, List.getElem?_eq_getElem inside⟩
    exact (ih at_mid (by omega)).trans (h.monotone a (n + k) mid b' at_mid at_m)

/-- Before the block of a consumed nonce it is not yet consumed. -/
theorem Lawful.before (h : Lawful body c) (at_n : (c)[n]? = some b) (row_mem : row ∈ b.transactions)
    (consumes : Consumes body account intent row) (at_m : (c)[m]? = some b') (less : m < n) :
    (b'.nonces (lower account) : ℤ) ≤ intent.nonce := by
  obtain ⟨k, rfl⟩ : ∃ k, n = k + 1 := ⟨n - 1, by omega⟩
  have inside : k < c.length := by
    have last := (List.getElem?_eq_some_iff.mp at_n).1
    omega
  obtain ⟨mid, at_mid⟩ : ∃ mid, (c)[k]? = some mid := ⟨_, List.getElem?_eq_getElem inside⟩
  have low := (h.consumed _ b at_n row row_mem).1
  rw [consumes.sender, consumes.2, nonceBefore, at_mid] at low
  have mono := h.mono at_m at_mid (by omega) (lower account)
  exact le_trans (Int.ofNat_le.mpr mono) low

/-- From the block of a consumed nonce on it is consumed. -/
theorem Lawful.after (h : Lawful body c) (at_n : (c)[n]? = some b) (row_mem : row ∈ b.transactions)
    (consumes : Consumes body account intent row) (at_m : (c)[m]? = some b') (le : n ≤ m) :
    intent.nonce < b'.nonces (lower account) := by
  have high := (h.consumed _ b at_n row row_mem).2
  rw [consumes.sender, consumes.2] at high
  exact high.trans_le (Int.ofNat_le.mpr (h.mono at_n at_m le _))

/-- One transaction consumes the nonce. -/
theorem Lawful.unique (h : Lawful body c) (at_n : (c)[n]? = some b) (row_mem : row ∈ b.transactions)
    (consumes : Consumes body account intent row) (at_m : (c)[m]? = some b')
    (other_mem : other ∈ b'.transactions) (also : Consumes body account intent other) :
    lower row = lower other := by
  rcases lt_trichotomy n m with less | rfl | more
  · have used := h.after at_n row_mem consumes at_n le_rfl
    have unused := h.before at_m other_mem also at_n less
    omega
  · rw [at_n] at at_m
    cases at_m
    exact h.once n b at_n row row_mem other other_mem (consumes.sender.trans also.sender.symm)
      (consumes.2.trans also.2.symm)
  · have used := h.after at_m other_mem also at_m le_rfl
    have unused := h.before at_n row_mem consumes at_m more
    omega

end Lawful

/-! ### No part changes anything -/

section ReadOnly

open Program

theorem readOnly_check : (check account options).ReadOnly := by
  unfold check
  split
  · exact (readOnly_call _).bind fun _ => readOnly_throwIf
  · exact readOnly_pure _

theorem readOnly_canonical : (canonical account options head).ReadOnly :=
  readOnly_check.bind fun _ => (readOnly_call _).bind fun _ => readOnly_throwIf.bind fun _ =>
    readOnly_check

theorem readOnly_verify (transaction : Transaction) :
    (verify account options intent head transaction).ReadOnly :=
  readOnly_check.bind fun _ => readOnly_throwIf.bind fun _ => (readOnly_call _).bind fun _ =>
    (readOnly_lift _).bind fun _ => readOnly_throwIf.bind fun _ => (readOnly_call _).bind fun _ =>
      readOnly_throwIf.bind fun _ => readOnly_canonical.bind fun _ => readOnly_pure _

theorem readOnly_checked {α : Type} (a : α) :
    (do check account options; pure a : Recovery α).ReadOnly :=
  readOnly_check.bind fun _ => readOnly_pure a

theorem readOnly_direct (hash : String) :
    (direct account options intent head hash).ReadOnly := by
  refine ReadOnly.orElse ((readOnly_call _).bind fun receipt => ?_) fun _ => readOnly_checked none
  cases receipt with
  | none => exact readOnly_pure _
  | some receipt =>
    exact (readOnly_call _).bind fun _ => (readOnly_verify _).bind fun _ => readOnly_pure _

theorem readOnly_bisect (probes lower upper : ℕ) :
    (bisect account options intent probes lower upper).ReadOnly := by
  induction probes generalizing lower upper with
  | zero => exact readOnly_pure _
  | succ probes ih =>
    rw [bisect]
    split
    · refine readOnly_check.bind fun _ => (readOnly_call _).bind fun count =>
        readOnly_throwIf.bind fun _ => ?_
      split
      · exact ih _ _
      · exact ih _ _
    · exact readOnly_pure _

theorem readOnly_search : (search account options intent head).ReadOnly :=
  (readOnly_bisect _ _ _).bind fun _ => readOnly_throwIf.bind fun _ => readOnly_pure _

theorem readOnly_candidateAt (number : ℕ) : (candidateAt account intent number).ReadOnly :=
  (readOnly_call _).bind fun _ => readOnly_pure _

theorem readOnly_located : (located account options intent head).ReadOnly :=
  ReadOnly.orElse (readOnly_search.bind fun _ => readOnly_candidateAt _) fun _ =>
    readOnly_checked none

theorem readOnly_scan (blocks height : ℕ) :
    (scan account options intent blocks height).ReadOnly := by
  induction blocks generalizing height with
  | zero => exact readOnly_pure _
  | succ blocks ih =>
    refine readOnly_check.bind fun _ =>
      (ReadOnly.orElse (readOnly_candidateAt _) fun _ => readOnly_fail _).bind fun candidate => ?_
    cases candidate with
    | none => exact ih _
    | some transaction => exact readOnly_pure _

theorem readOnly_orScan (candidate : Option Transaction) :
    (orScan account options intent head candidate).ReadOnly := by
  cases candidate with
  | none => exact readOnly_scan _ _
  | some transaction => exact readOnly_pure _

theorem readOnly_conclude (candidate : Option Transaction) :
    (conclude account options intent head candidate).ReadOnly := by
  cases candidate with
  | none => exact readOnly_canonical.bind fun _ => readOnly_fail _
  | some transaction => exact (readOnly_verify _).bind fun _ => readOnly_pure _

theorem readOnly_recoverByNonce : (recoverByNonce account options intent head).ReadOnly := by
  refine (readOnly_call _).bind fun nonce => readOnly_throwIf.bind fun _ => ?_
  split
  · exact readOnly_canonical.bind fun _ => readOnly_pure _
  · exact readOnly_located.bind fun _ => (readOnly_orScan _).bind fun _ => readOnly_conclude _

theorem readOnly_byReplacement (hash : String) :
    (byReplacement account options intent head hash).ReadOnly :=
  readOnly_throwIf.bind fun _ => (readOnly_call _).bind fun _ => (readOnly_verify _).bind fun _ =>
    readOnly_pure _

theorem readOnly_recoverPendingTransaction (record : PendingRecord) :
    (recoverPendingTransaction record account options).ReadOnly := by
  refine (readOnly_lift _).bind fun intent => readOnly_check.bind fun _ =>
    (readOnly_call _).bind fun latest => (readOnly_lift _).bind fun head => ?_
  split
  · exact readOnly_byReplacement _
  · refine (readOnly_direct _).bind fun known => ?_
    cases known with
    | none => exact readOnly_recoverByNonce
    | some recovered => exact readOnly_pure _

end ReadOnly

/-! ### Every part ends -/

section Ends

open Program

theorem check_ends : (check account options).EndsWithin 1 := by
  unfold check
  split
  · exact (endsWithin_call _).bind fun _ => endsWithin_throwIf
  · exact endsWithin_pure _

theorem canonical_ends : (canonical account options head).EndsWithin 3 :=
  check_ends.bind fun _ => (endsWithin_call (Query.block head.number)).bind fun _ =>
    endsWithin_throwIf.bind fun _ => check_ends

theorem verify_ends (transaction : Transaction) :
    (verify account options intent head transaction).EndsWithin 6 :=
  check_ends.bind fun _ => endsWithin_throwIf.bind fun _ =>
    (endsWithin_call (Query.receipt transaction.hash)).bind fun _ => (endsWithin_lift _).bind fun _ =>
      endsWithin_throwIf.bind fun _ => (endsWithin_call _).bind fun _ =>
        endsWithin_throwIf.bind fun _ => canonical_ends.bind fun _ => endsWithin_pure (n := 0) _

theorem checked_ends {α : Type} (a : α) :
    (do check account options; pure a : Recovery α).EndsWithin 1 :=
  check_ends.bind fun _ => endsWithin_pure (n := 0) a

theorem direct_ends (hash : String) :
    (direct account options intent head hash).EndsWithin 9 := by
  refine EndsWithin.orElse (n := 8) ((endsWithin_call (Query.receipt hash)).bind (m := 7)
    fun receipt => ?_) fun _ => checked_ends none
  cases receipt with
  | none => exact endsWithin_pure _
  | some receipt =>
    exact (endsWithin_call (Query.transaction hash)).bind fun _ => (verify_ends _).bind fun _ =>
      endsWithin_pure (n := 0) _

theorem bisect_ends (probes lower upper : ℕ) :
    (bisect account options intent probes lower upper).EndsWithin (2 * probes) := by
  induction probes generalizing lower upper with
  | zero => exact endsWithin_pure _
  | succ probes ih =>
    rw [bisect]
    split
    · have step : (1 + (1 + (0 + 2 * probes))) = 2 * (probes + 1) := by omega
      rw [← step]
      refine check_ends.bind fun _ => (endsWithin_call (Query.count account _)).bind fun count =>
        endsWithin_throwIf.bind fun _ => ?_
      split
      · exact ih _ _
      · exact ih _ _
    · exact endsWithin_pure _

theorem search_ends : (search account options intent head).EndsWithin 128 :=
  (bisect_ends 64 0 head.number).bind fun _ => endsWithin_throwIf.bind fun _ =>
    endsWithin_pure (n := 0) _

theorem candidateAt_ends (number : ℕ) : (candidateAt account intent number).EndsWithin 1 :=
  (endsWithin_call (Query.fullBlock number)).bind fun _ => endsWithin_pure (n := 0) _

theorem located_ends : (located account options intent head).EndsWithin 130 :=
  EndsWithin.orElse (n := 129) (search_ends.bind fun _ => candidateAt_ends _) fun _ =>
    checked_ends none

theorem scan_ends (blocks height : ℕ) :
    (scan account options intent blocks height).EndsWithin (2 * blocks) := by
  induction blocks generalizing height with
  | zero => exact endsWithin_pure _
  | succ blocks ih =>
    have step : (1 + (1 + 0 + 2 * blocks)) = 2 * (blocks + 1) := by omega
    rw [← step]
    refine check_ends.bind fun _ => (EndsWithin.orElse (candidateAt_ends _) fun e =>
      endsWithin_fail (n := 0) notFound).bind fun candidate => ?_
    cases candidate with
    | none => exact ih _
    | some transaction => exact endsWithin_pure _

theorem orScan_ends (candidate : Option Transaction) :
    (orScan account options intent head candidate).EndsWithin 128 := by
  cases candidate with
  | none =>
    refine (scan_ends _ _).mono ?_
    unfold floor
    split <;> omega
  | some transaction => exact endsWithin_pure _

theorem conclude_ends (candidate : Option Transaction) :
    (conclude account options intent head candidate).EndsWithin 6 := by
  cases candidate with
  | none => exact canonical_ends.bind (m := 3) fun _ => endsWithin_fail _
  | some transaction => exact (verify_ends _).bind fun _ => endsWithin_pure (n := 0) _

theorem recoverByNonce_ends : (recoverByNonce account options intent head).EndsWithin 265 := by
  refine (endsWithin_call (Query.count account head.number)).bind (m := 264) fun nonce =>
    endsWithin_throwIf.bind (m := 264) fun _ => ?_
  split
  · exact (canonical_ends.bind fun _ => endsWithin_pure (n := 0) _).mono (by decide)
  · exact located_ends.bind fun _ => (orScan_ends _).bind fun _ => conclude_ends _

theorem byReplacement_ends (hash : String) :
    (byReplacement account options intent head hash).EndsWithin 7 :=
  endsWithin_throwIf.bind fun _ => (endsWithin_call (Query.transaction hash)).bind fun _ =>
    (verify_ends _).bind fun _ => endsWithin_pure (n := 0) _

/-- Whatever it is answered, the recovery ends. -/
theorem recoverPendingTransaction_ends (record : PendingRecord) :
    (recoverPendingTransaction record account options).EndsWithin 276 := by
  refine (endsWithin_lift _).bind (m := 276) fun intent => check_ends.bind (m := 275) fun _ =>
    (endsWithin_call Query.latest).bind (m := 274) fun latest =>
      (endsWithin_lift _).bind (m := 274) fun head => ?_
  split
  · exact (byReplacement_ends _).mono (by decide)
  · refine (direct_ends _).bind (m := 265) fun known => ?_
    cases known with
    | none => exact recoverByNonce_ends
    | some recovered => exact endsWithin_pure _

end Ends

end Turret.P2P.PendingRecovery
