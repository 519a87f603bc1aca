import Turret.Liquidator.Transactions

/-! What the calls of one process do to the journal, whatever happens between
their actions. Between two actions the others may do anything but write the
journal while this process holds the lease: they lose their own with it. -/

namespace Turret.Liquidator

open Tasks Tasks.Program

variable (k : Keeper) (owner : ℕ)

/-- The attempt is the request, signed. -/
def Attempt.signs (attempt : Attempt) (request : Request) : Prop :=
  attempt.raw = k.signTransaction request ∧ attempt.hash = k.keccak256 attempt.raw

/-- How the record of a pending intent may be replaced. -/
inductive Update (s : World) (old : Tx) : Tx → Prop
  | replace (request : Request) (reserve : ℕ) (attempt : Attempt) (read : ℕ) :
      request = replacementOf old.request → feeReserve request = some reserve →
      reserve ≤ k.config.maxTxFee → attempt.signs k request → read ≤ s.now →
      (s.budgets read).gas - old.feeReserve + reserve ≤ k.config.maxDailyGas →
      Update s old { old with request, feeReserve := reserve, attempts := old.attempts ++ [attempt] }
  | block (receipt : Option TxReceipt) (actualGas : Option ℕ) :
      Update s old { old with status := .blocked, receipt, actualGas }
  | settle (attempt : Attempt) (gas : ℕ) (new : Tx) :
      attempt ∈ old.attempts →
      (∀ request, ∀ reserve ∈ feeReserve request,
        attempt.hash = k.keccak256 (k.signTransaction request) → gas ≤ reserve) →
      (new.status = .confirmed ∧ (old.kind = .liquidation →
          ∃ repaid : ℕ, new.actualRepay = some repaid ∧ (repaid : ℤ) ≤ old.maxRepay) ∨
        new.status = .reverted) →
      new.actualGas = some gas → (∃ time ≤ s.now, new.settledAt = some time) →
      new.id = old.id → new.kind = old.kind →
      new.createdAt = old.createdAt → new.request = old.request →
      new.feeReserve = old.feeReserve → new.maxRepay = old.maxRepay →
      new.attempts = old.attempts →
      Update s old new

/-- A new intent. -/
structure Intent (s : World) (tx : Tx) : Prop where
  resolved : s.pendingTx = none
  fresh : ∀ row ∈ s.txs, row.id ≠ tx.id
  pending : tx.status = .pending
  signed : ∃ attempt, tx.attempts = [attempt] ∧ attempt.signs k tx.request
  reserve : feeReserve tx.request = some tx.feeReserve
  gas : ∃ read ≤ s.now, (s.budgets read).gas + tx.feeReserve ≤ k.config.maxDailyGas
  capital : tx.kind = .liquidation → 0 < tx.maxRepay ∧
    ∃ read ≤ s.now, (s.budgets read).daily + tx.maxRepay ≤ k.config.dailyBudget ∧
      (s.budgets read).inventory + tx.maxRepay ≤ k.config.inventoryBudget

/-- Everything that one action of a process does. -/
inductive Act (s : World) : World → Prop
  | idle : Act s s
  | retry (r : Address → Address → ℕ) : Act s { s with retry := r }
  | acquire (expires : ℕ) : Act s { s with lease := some ⟨owner, expires⟩ }
  | sign (request : Request) (reserve : ℕ) :
      feeReserve request = some reserve → reserve ≤ k.config.maxTxFee →
      Act s { s with signed := s.signed ++ [request] }
  | send (tx : Tx) (attempt : Attempt) :
      s.leaseOwner = some owner → tx ∈ s.txs → tx.status = .pending → attempt ∈ tx.attempts →
      Act s { s with sent := s.sent ++ [attempt.raw] }
  | create (tx : Tx) : s.leaseOwner = some owner → Intent k s tx → Act s (s.upsert tx)
  | update (old new : Tx) :
      s.leaseOwner = some owner → s.pendingTx = some old → old.status = .pending →
      Update k s old new → Act s (s.upsert new)

/-- What a process may rely on: time does not go back, and the journal it sees while it holds the
lease is the one it saw. -/
structure Since (s t : World) : Prop where
  now : s.now ≤ t.now
  epoch : t.budgetAccountingEpoch = s.budgetAccountingEpoch
  held : t.leaseOwner = some owner → s.leaseOwner = some owner ∧ t.txs = s.txs

/-- The lease names the process when it writes the journal or sends bytes. -/
def WritesHeld (s t : World) : Prop :=
  t.txs ≠ s.txs ∨ t.sent ≠ s.sent → s.leaseOwner = some owner

theorem Since.refl (s : World) : Since owner s s := ⟨le_rfl, rfl, fun h => ⟨h, rfl⟩⟩

theorem Since.trans {owner : ℕ} {s t u : World} (h : Since owner s t) (h' : Since owner t u) :
    Since owner s u where
  now := h.now.trans h'.now
  epoch := h'.epoch.trans h.epoch
  held := fun held =>
    ⟨(h.held (h'.held held).1).1, (h'.held held).2.trans (h.held (h'.held held).1).2⟩

def contract : Contract World Query Answer where
  rely := Since owner
  admits := WritesHeld owner
  guarantee := Act k owner
  answers := answers k
  refl := Since.refl owner
  trans := Since.trans

/-- A process that throws has nothing to promise. -/
abbrev SafeTo {α : Type} (post : α → World → Prop) (p : Prog α) (s : World) : Prop :=
  Safe (contract k owner) post (fun _ _ => True) p s

variable {k owner} {s t : World}

theorem Since.budgets (h : Since owner s t) (held : t.leaseOwner = some owner) (now : ℕ) :
    t.budgets now = s.budgets now := by
  simp only [World.budgets, World.transactions, (h.held held).2, h.epoch]

theorem Since.pendingTx (h : Since owner s t) (held : t.leaseOwner = some owner) :
    t.pendingTx = s.pendingTx := by
  simp only [World.pendingTx, World.transactions, (h.held held).2]

theorem mem_of_pendingTx {tx : Tx} (h : s.pendingTx = some tx) : tx ∈ s.txs :=
  (List.perm_insertionSort _ s.txs).mem_iff.mp (List.mem_of_find?_eq_some h)

theorem status_of_pendingTx {tx : Tx} (h : s.pendingTx = some tx) :
    tx.status = .pending ∨ tx.status = .blocked := by
  simpa using List.find?_some h

/-! ### Rules for the store and the chain -/

section Rules

variable {α β : Type} {post : β → World → Prop}

theorem safe_dateNow {next : ℕ → Prog β}
    (h : ∀ t, Since owner s t → SafeTo k owner post (next t.now) t) :
    SafeTo k owner post (dateNow >>= next) s :=
  Safe.bind (safe_look (fun _ => .idle) fun t since _ later => (h t since).stable later)

theorem safe_budgets {next : Budgets → Prog β}
    (h : ∀ t u, Since owner s t → Since owner t u →
      SafeTo k owner post (next (u.budgets t.now)) u) :
    SafeTo k owner post (budgets >>= next) s :=
  Safe.bind (safe_dateNow fun t since =>
    safe_look (fun _ => .idle) fun u later _ after => (h t u since later).stable after)

theorem safe_pendingTx {next : Option Tx → Prog β}
    (h : ∀ t, Since owner s t → SafeTo k owner post (next t.pendingTx) t) :
    SafeTo k owner post (pendingTx >>= next) s :=
  Safe.bind (safe_look (fun _ => .idle) fun t since _ later => (h t since).stable later)

theorem safe_throwIf {c : Prop} [Decidable c] {e : Err} {next : Unit → Prog β}
    (h : ¬c → SafeTo k owner post (next ()) s) :
    SafeTo k owner post (throwIf c e >>= next) s :=
  Tasks.safe_throwIf (fun _ _ _ => trivial) h

theorem safe_lift {x : Except Err α} {next : α → Prog β}
    (h : ∀ a, x = .ok a → SafeTo k owner post (next a) s) :
    SafeTo k owner post (lift x >>= next) s :=
  Tasks.safe_lift (fun _ _ _ _ => trivial) h

theorem safe_call {q : Query} {next : q.Result → Prog β}
    (h : ∀ t a, Since owner s t → answers k t q (.ok a) → SafeTo k owner post (next a) t) :
    SafeTo k owner post (call q >>= next) s :=
  Tasks.safe_call (fun _ _ _ _ _ _ => trivial) fun t a since _ given => h t a since given

theorem safe_assertLease {next : Unit → Prog β}
    (h : ∀ t, Since owner s t → SafeTo k owner post (next ()) t) :
    SafeTo k owner post (assertLease owner >>= next) s := by
  refine Safe.bind (safe_dateNow fun t since => ?_)
  refine safe_look (fun _ => .idle) fun u later => ?_
  unfold throwIf
  split
  · exact fun _ _ => trivial
  · exact fun _ after => (h u (since.trans later)).stable after

theorem mem_upsert (tx : Tx) (s : World) : tx ∈ (s.upsert tx).txs :=
  Table.mem_upsert_self tx s.txs

theorem upsert_eq {tx : Tx} (h : (t.upsert tx).txs = t.txs) : t.upsert tx = t := by
  have same : Table.upsert Tx.id tx t.txs = t.txs := h
  unfold World.upsert
  rw [same]

/-- The lease names the process when the record is written, or nothing is. -/
theorem safe_saveTx {tx : Tx} {next : Unit → Prog β}
    (write : ∀ t, Since owner s t → t.leaseOwner = some owner → Act k owner t (t.upsert tx))
    (h : ∀ t, tx ∈ t.txs → SafeTo k owner post (next ()) t) :
    SafeTo k owner post (saveTx owner tx >>= next) s := by
  refine Safe.bind (safe_assertLease fun t since => ?_)
  intro u later admitted
  refine ⟨?_, fun v after => (h _ (mem_upsert tx u)).stable after⟩
  by_cases changed : (u.upsert tx).txs = u.txs
  · rw [upsert_eq changed]
    exact .idle
  · exact write u (since.trans later) (admitted (.inl changed))

theorem safe_setRetry {collateral borrower : Address} {time : ℕ} {next : Unit → Prog β}
    (h : ∀ t, SafeTo k owner post (next ()) t) :
    SafeTo k owner post (setRetry collateral borrower time >>= next) s :=
  safe_modify fun _ _ _ => ⟨.retry _, h _⟩

end Rules

/-! ### The calls -/

theorem safe_broadcast {tx : Tx} (stored : ∃ r, Since owner r s ∧ tx ∈ r.txs)
    (pending : tx.status = .pending) :
    SafeTo k owner (fun _ _ => True) (broadcast owner tx) s := by
  obtain ⟨r, since, mem⟩ := stored
  refine safe_assertLease fun t later => safe_lift fun last at_last => ?_
  refine safe_modify fun u after admitted => ?_
  have attempt_mem : last ∈ tx.attempts := by
    simp only [Execution.orRevert_eq_ok] at at_last
    exact List.mem_of_getLast? at_last
  refine ⟨?_, safe_question fun v _ _ a _ => ?_⟩
  · by_cases held : u.leaseOwner = some owner
    · have same := (((since.trans later).trans after).held held).2
      exact .send tx last held (same ▸ mem) pending attempt_mem
    · refine absurd (admitted (.inr ?_)) held
      simp
  · cases a with
    | ok _ => exact safe_pure fun _ _ => trivial
    | error _ => exact safe_pure fun _ _ => trivial

/-- The signed attempt, at a time when what was so before is still known. -/
theorem safe_makeAttempt {request : Request} {reserve : ℕ} {β : Type} {post : β → World → Prop}
    {next : Attempt → Prog β} (reserves : feeReserve request = some reserve)
    (small : reserve ≤ k.config.maxTxFee)
    (h : ∀ t attempt, Since owner s t → attempt.signs k request →
      SafeTo k owner post (next attempt) t) :
    SafeTo k owner post (makeAttempt k owner request >>= next) s := by
  refine Safe.bind (safe_assertLease fun t since => ?_)
  refine safe_modify fun u later _ => ⟨.sign request reserve reserves small, ?_⟩
  refine safe_call fun v raw after signed => safe_dateNow fun w last => ?_
  have since' : Since owner s w := by
    have quiet : Since owner u { u with signed := u.signed ++ [request] } :=
      ⟨le_rfl, rfl, fun held => ⟨held, rfl⟩⟩
    exact (((since.trans later).trans quiet).trans after).trans last
  exact fun x final => h x _ (since'.trans final) ⟨signed, rfl⟩

/-- The repayment fits the budgets as they were read. -/
def Affords (k : Keeper) (owner : ℕ) (s : World) (maxRepay : ℤ) : Prop :=
  0 < maxRepay ∧ ∃ r read, Since owner r s ∧ read ≤ s.now ∧
    (r.budgets read).daily + maxRepay ≤ k.config.dailyBudget ∧
    (r.budgets read).inventory + maxRepay ≤ k.config.inventoryBudget

theorem Affords.since {maxRepay : ℤ} (h : Affords k owner s maxRepay) (since : Since owner s t) :
    Affords k owner t maxRepay := by
  obtain ⟨positive, r, read, before, le, bounds⟩ := h
  exact ⟨positive, r, read, before.trans since, le.trans since.now, bounds⟩

/-- What is known when the intent has been checked against the budgets. -/
structure Checked (k : Keeper) (owner : ℕ) (s : World) (kind : Kind) (details : Details)
    (reserve : ℕ) : Prop where
  resolved : ∃ r, Since owner r s ∧ r.pendingTx = none
  gas : ∃ r read, Since owner r s ∧ read ≤ s.now ∧
    (r.budgets read).gas + reserve ≤ k.config.maxDailyGas
  capital : kind = .liquidation → Affords k owner s details.maxRepay

theorem Checked.since {kind : Kind} {details : Details} {reserve : ℕ}
    (h : Checked k owner s kind details reserve) (since : Since owner s t) :
    Checked k owner t kind details reserve where
  resolved := by
    obtain ⟨r, before, resolved⟩ := h.resolved
    exact ⟨r, before.trans since, resolved⟩
  gas := by
    obtain ⟨r, read, before, le, bound⟩ := h.gas
    exact ⟨r, read, before.trans since, le.trans since.now, bound⟩
  capital := fun liquidation => (h.capital liquidation).since since

/-- Under the lease the checks hold of the journal as it is. -/
theorem Checked.intent {kind : Kind} {details : Details} {reserve id createdAt : ℕ}
    {request : Request} {attempt : Attempt} (h : Checked k owner s kind details reserve)
    (held : s.leaseOwner = some owner) (fresh : ∃ r, Since owner r s ∧ ∀ row ∈ r.txs, row.id ≠ id)
    (signed : attempt.signs k request) (reserves : feeReserve request = some reserve) :
    Intent k s (newTx id kind createdAt request reserve details attempt) where
  resolved := by
    obtain ⟨r, since, resolved⟩ := h.resolved
    rw [since.pendingTx held, resolved]
  fresh := by
    obtain ⟨r, since, fresh⟩ := fresh
    rw [(since.held held).2]
    exact fresh
  pending := rfl
  signed := ⟨attempt, rfl, signed⟩
  reserve := reserves
  gas := by
    obtain ⟨r, read, since, le, bound⟩ := h.gas
    exact ⟨read, le, by rw [since.budgets held]; exact bound⟩
  capital := fun liquidation => by
    obtain ⟨positive, r, read, since, le, bounds⟩ := h.capital liquidation
    exact ⟨positive, read, le, by rw [since.budgets held]; exact bounds⟩

theorem safe_createIntent {kind : Kind} {details : Details} {request : Request} {reserve : ℕ}
    (checked : Checked k owner s kind details reserve)
    (reserves : feeReserve request = some reserve) (small : reserve ≤ k.config.maxTxFee) :
    SafeTo k owner (fun _ _ => True) (createIntent k owner kind details request reserve) s := by
  refine safe_call fun t id since fresh => safe_dateNow fun u later => ?_
  refine safe_makeAttempt reserves small fun v attempt after signed => ?_
  refine safe_saveTx (fun w last held => ?_) fun w stored => ?_
  · have whole := (since.trans later).trans (after.trans last)
    exact .create _ held ((checked.since whole).intent held
      ⟨t, later.trans (after.trans last), fresh⟩ signed reserves)
  · exact safe_broadcast ⟨w, Since.refl owner w, stored⟩ rfl

theorem safe_submit {kind : Kind} {target : Address} {data : Calldata} {details : Details}
    {value : ℕ} (capital : kind = .liquidation → Affords k owner s details.maxRepay) :
    SafeTo k owner (fun _ _ => True) (submit k owner kind target data details value) s := by
  unfold submit
  split
  · exact safe_pure fun _ _ => trivial
  refine safe_pendingTx fun t₁ s₁ => safe_throwIf fun resolved => ?_
  refine safe_call fun t₂ (consistent : Bool) s₂ _ => safe_throwIf fun _ => ?_
  refine safe_call fun t₃ latest s₃ _ => safe_call fun t₄ pending s₄ _ => ?_
  refine safe_call fun t₅ balance s₅ _ => ?_
  dsimp only
  split
  · exact safe_pure fun _ _ => trivial
  refine safe_call fun t₆ prepared s₆ _ => safe_lift fun gas _ => safe_lift fun reserve at_reserve => ?_
  refine safe_budgets fun t₇ t₈ s₇ s₈ => ?_
  split
  · exact safe_pure fun _ _ => trivial
  split
  · exact safe_pure fun _ _ => trivial
  rename_i small _
  push Not at small
  have from₁ : Since owner t₁ t₈ :=
    s₂.trans (s₃.trans (s₄.trans (s₅.trans (s₆.trans (s₇.trans s₈)))))
  have whole : Since owner s t₈ := s₁.trans from₁
  have none_pending : t₁.pendingTx = none := by
    simpa [Option.isSome_iff_ne_none] using resolved
  exact safe_createIntent
    { resolved := ⟨t₁, from₁, none_pending⟩
      gas := ⟨t₈, t₇.now, Since.refl owner t₈, s₈.now, small.2⟩
      capital := fun liquidation => (capital liquidation).since whole }
    (by simpa using at_reserve) small.1

/-! ### Recovery -/

/-- The receipt is that of an attempt, at no more than the attempt reserves. -/
def Charged (k : Keeper) (attempts : List Attempt) (receipt : Receipt) : Prop :=
  ∃ attempt ∈ attempts, ∀ request, ∀ reserve ∈ feeReserve request,
    attempt.hash = k.keccak256 (k.signTransaction request) →
      receipt.gasUsed * receipt.effectiveGasPrice ≤ reserve

theorem Charged.mono {xs ys : List Attempt} {receipt : Receipt} (h : Charged k xs receipt)
    (sub : ∀ a ∈ xs, a ∈ ys) : Charged k ys receipt := by
  obtain ⟨attempt, mem, cost⟩ := h
  exact ⟨attempt, sub _ mem, cost⟩

theorem safe_findReceipt {head : Head} {attempts : List Attempt} {seen : Sightings} :
    SafeTo k owner (fun found t => Since owner s t ∧ ∀ r ∈ found.1, Charged k attempts r)
      (findReceipt k head attempts seen) s := by
  induction attempts generalizing s seen with
  | nil => exact safe_pure fun t since => ⟨since, fun r hr => by cases hr⟩
  | cons attempt rest ih =>
    have later : ∀ t seen, Since owner s t →
        SafeTo k owner (fun found t => Since owner s t ∧
          ∀ r ∈ found.1, Charged k (attempt :: rest) r) (findReceipt k head rest seen) t :=
      fun t seen since => ih.mono
        (fun _ _ h => ⟨since.trans h.1, fun r hr =>
          (h.2 r hr).mono fun _ mem => List.mem_cons_of_mem _ mem⟩)
        fun _ _ h => h
    unfold findReceipt
    refine safe_question fun t since _ candidate given => ?_
    rcases candidate with e | (candidate : Receipt)
    · dsimp only
      split
      · exact later t seen since
      · exact safe_fail fun _ _ => trivial
    · dsimp only
      split
      · exact later t _ since
      rename_i same
      refine safe_call fun u canonical after _ => ?_
      split
      · exact later u _ (since.trans after)
      split
      · exact later u _ (since.trans after)
      refine safe_pure fun v last => ⟨since.trans (after.trans last), fun r hr => ?_⟩
      cases hr
      refine ⟨attempt, List.mem_cons_self, fun request reserve reserves hash => ?_⟩
      refine given request reserve reserves ?_
      rw [← hash]
      exact not_not.mp same

/-- What is known of the intent that is being settled. -/
structure Tracked (owner : ℕ) (s : World) (tx : Tx) : Prop where
  seen : ∃ r, Since owner r s ∧ r.pendingTx = some tx
  pending : tx.status = .pending

theorem Tracked.since {tx : Tx} (h : Tracked owner s tx) (since : Since owner s t) :
    Tracked owner t tx where
  seen := by
    obtain ⟨r, before, seen⟩ := h.seen
    exact ⟨r, before.trans since, seen⟩
  pending := h.pending

theorem Tracked.update {old new : Tx} (h : Tracked owner s old) (held : s.leaseOwner = some owner)
    (update : Update k s old new) : Act k owner s (s.upsert new) := by
  obtain ⟨r, since, seen⟩ := h.seen
  exact .update old new held (by rw [since.pendingTx held, seen]) h.pending update

theorem safe_block {old tx : Tx} {incident : Incident} (tracked : Tracked owner s old)
    (blocked : ∃ receipt gas, { tx with status := .blocked } =
      { old with status := .blocked, receipt := receipt, actualGas := gas }) :
    SafeTo k owner (fun _ _ => True) (block owner tx incident) s := by
  obtain ⟨receipt, gas, same⟩ := blocked
  refine safe_saveTx (fun t since held => ?_) fun t _ => safe_pure fun _ _ => trivial
  rw [same]
  exact (tracked.since since).update held (.block receipt gas)

theorem safe_finalize {old tx : Tx} (tracked : Tracked owner s old)
    (settles : ∀ t time, time ≤ t.now → Update k t old { tx with settledAt := some time }) :
    SafeTo k owner (fun _ _ => True) (finalize owner tx) s := by
  refine safe_dateNow fun t since => ?_
  refine safe_saveTx (fun u later held => ?_) fun u _ => ?_
  · exact (tracked.since (since.trans later)).update held (settles u t.now later.now)
  · dsimp only
    split
    · exact safe_dateNow fun v _ => safe_setRetry fun w => safe_pure fun _ _ => trivial
    · exact safe_pure fun _ _ => trivial

theorem safe_settle {tx : Tx} {receipt : Receipt} {hash : String} (tracked : Tracked owner s tx)
    (charged : Charged k tx.attempts receipt) :
    SafeTo k owner (fun _ _ => True) (settle k owner tx receipt hash) s := by
  obtain ⟨attempt, mem, cost⟩ := charged
  unfold settle
  dsimp only
  split
  · rename_i confirmed
    refine safe_question fun t since _ details _ => ?_
    rcases details with e | _
    · dsimp only
      split
      · exact safe_block (tracked.since since) ⟨_, _, rfl⟩
      · exact safe_fail fun _ _ => trivial
    · dsimp only
      split
      · split
        · exact safe_block (tracked.since since) ⟨_, _, rfl⟩
        · rename_i event expected
          obtain ⟨-, shown⟩ := Option.filter_eq_some_iff.mp expected
          refine safe_finalize (tracked.since since) fun u time le => ?_
          refine .settle attempt _ _ mem cost (.inl ⟨confirmed, fun _ => ⟨event.repaid, rfl, ?_⟩⟩)
            rfl ⟨time, le, rfl⟩ rfl rfl rfl rfl rfl rfl rfl
          have := (of_decide_eq_true shown).2.1
          exact this
      · rename_i other
        exact safe_finalize (tracked.since since) fun u time le =>
          .settle attempt _ _ mem cost (.inl ⟨confirmed, fun liquidation => absurd liquidation other⟩)
            rfl ⟨time, le, rfl⟩ rfl rfl rfl rfl rfl rfl rfl
  · rename_i failed
    have reverted : (withReceipt tx receipt hash).status = .reverted := by
      unfold withReceipt at failed ⊢
      dsimp only at failed ⊢
      split <;> simp_all
    exact safe_finalize tracked fun u time le =>
      .settle attempt _ _ mem cost (.inr reverted) rfl ⟨time, le, rfl⟩ rfl rfl rfl rfl rfl rfl rfl

theorem safe_replace {tx : Tx} (tracked : Tracked owner s tx) :
    SafeTo k owner (fun _ _ => True) (replace k owner tx) s := by
  refine safe_lift fun reserve at_reserve => safe_budgets fun t u since later => ?_
  refine safe_call fun v (balance : ℕ) after _ => ?_
  split
  · exact safe_pure fun _ _ => trivial
  rename_i small
  push Not at small
  obtain ⟨small, within, -⟩ := small
  have reserves : feeReserve (replacementOf tx.request) = some reserve := by
    simpa using at_reserve
  refine safe_makeAttempt reserves small fun w attempt last signed => ?_
  have recent : Since owner u w := after.trans last
  refine safe_saveTx (fun x final held => ?_) fun x stored => ?_
  · refine (tracked.since ((since.trans later).trans (recent.trans final))).update held ?_
    refine .replace _ reserve attempt t.now rfl reserves small signed
      (later.now.trans (recent.trans final).now) ?_
    rw [(recent.trans final).budgets held]
    exact within
  · exact safe_broadcast ⟨x, Since.refl owner x, stored⟩ tracked.pending

theorem safe_rebroadcast {tx : Tx} {canBroadcast : Bool} (tracked : Tracked owner s tx) :
    SafeTo k owner (fun _ _ => True) (rebroadcast k owner canBroadcast tx) s := by
  refine safe_call fun t (nonce : ℕ) since _ => ?_
  have tracked := tracked.since since
  split
  · exact safe_block tracked ⟨tx.receipt, tx.actualGas, rfl⟩
  refine safe_dateNow fun u later => safe_lift fun last _ => ?_
  have tracked := tracked.since later
  split
  · exact safe_pure fun _ _ => trivial
  split
  · obtain ⟨r, before, seen⟩ := tracked.seen
    exact safe_broadcast ⟨r, before, mem_of_pendingTx seen⟩ tracked.pending
  split
  · exact safe_pure fun _ _ => trivial
  exact safe_replace tracked

theorem safe_recover (head : Head) (canBroadcast : Bool) (s : World) :
    SafeTo k owner (fun _ _ => True) (recover k owner head canBroadcast) s := by
  refine safe_pendingTx fun t since => ?_
  split
  · exact safe_pure fun _ _ => trivial
  rename_i tx seen
  split
  · exact safe_pure fun _ _ => trivial
  rename_i unblocked
  have pending : tx.status = .pending := (status_of_pendingTx seen).resolve_right unblocked
  refine Safe.bind (safe_findReceipt.mono (fun found u h => ?_) fun _ _ h => h)
  obtain ⟨later, charged⟩ := h
  have tracked : Tracked owner u tx := ⟨⟨t, later, seen⟩, pending⟩
  split
  · rename_i receipt _
    exact safe_lift fun hash _ => safe_settle tracked (charged receipt rfl)
  · split
    · exact safe_pure fun _ _ => trivial
    split
    · exact safe_pure fun _ _ => trivial
    split
    · exact safe_pure fun _ _ => trivial
    exact safe_rebroadcast tracked

/-! ### Liquidation -/

theorem safe_livenessProof :
    SafeTo k owner (fun _ t => Since owner s t) (livenessProof k) s := by
  unfold livenessProof
  split
  · exact safe_call fun t _ since _ => safe_pure fun u later => since.trans later
  · exact safe_pure fun t since => since

theorem safe_simulateAndSubmit {c : Candidate} {maxRepay : ℤ} (h : Affords k owner s maxRepay) :
    SafeTo k owner (fun _ _ => True) (simulateAndSubmit k owner c maxRepay) s := by
  refine Safe.bind (safe_livenessProof.mono (fun proof t since => ?_) fun _ _ h => h)
  refine safe_call fun u (result : ℕ × ℕ) later _ => safe_throwIf fun _ => ?_
  exact safe_submit fun _ => h.since (since.trans later)

theorem safe_liquidate (c : Candidate) (s : World) :
    SafeTo k owner (fun _ _ => True) (liquidate k owner c) s := by
  unfold liquidate
  split
  · exact safe_pure fun _ _ => trivial
  refine safe_pendingTx fun t₁ _ => ?_
  split
  · exact safe_pure fun _ _ => trivial
  refine Tasks.safe_look (fun _ => .idle) fun t₂ _ => safe_dateNow fun t₃ _ => ?_
  split
  · exact safe_pure fun _ _ => trivial
  refine safe_budgets fun t₄ t₅ _ s₅ => safe_call fun t₆ (balance : ℕ) s₆ _ => ?_
  dsimp only
  split
  · exact safe_pure fun _ _ => trivial
  split
  · exact safe_pure fun _ _ => trivial
  rename_i positive
  set maxRepay := min (min (min (min c.repaid k.config.maxRepay)
    (k.config.dailyBudget - (t₅.budgets t₄.now).daily))
    (k.config.inventoryBudget - (t₅.budgets t₄.now).inventory)) (balance : ℤ)
  refine safe_call fun t₇ (allowance : ℕ) s₇ _ => ?_
  have affords : Affords k owner t₇ maxRepay := by
    refine ⟨by omega, t₅, t₄.now, s₆.trans s₇, s₅.now.trans (s₆.trans s₇).now, ?_, ?_⟩
    · omega
    · omega
  split
  · refine safe_call fun t₈ _ _ _ => safe_submit fun liquidation => ?_
    cases liquidation
  · refine Safe.orElse ((safe_simulateAndSubmit affords).mono (fun _ _ h => h) fun e u _ => ?_)
    refine safe_dateNow fun v _ => safe_setRetry fun w => ?_
    split
    · exact safe_pure fun _ _ => trivial
    · exact safe_pure fun _ _ => trivial

/-! ### The system -/

theorem safe_acquireLease (s : World) :
    SafeTo k owner (fun _ _ => True) (do acquireLease owner; pure ([] : List Incident)) s := by
  refine Safe.bind (safe_dateNow fun t _ => safe_attempt (fun _ => .idle) (fun u b v _ ran _ => ?_)
    fun _ _ _ _ _ _ => trivial)
  split at ran
  · cases ran
  · cases ran
    exact ⟨.acquire _, fun _ _ => safe_pure fun _ _ => trivial⟩

def machine (k : Keeper) : Machine World Query Answer Err (List Incident) ℕ Call Event where
  call := fun owner call => match call with
    | .acquireLease => do
      acquireLease owner
      pure []
    | .recover head canBroadcast => recover k owner head canBroadcast
    | .liquidate candidate => liquidate k owner candidate
  answers := answers k
  env := environment

theorem safe_machine (c : Call) (s : World) :
    SafeTo k owner (fun _ _ => True) ((machine k).call owner c) s := by
  cases c with
  | acquireLease => exact safe_acquireLease s
  | recover head canBroadcast => exact safe_recover head canBroadcast s
  | liquidate candidate => exact safe_liquidate candidate s

theorem Act.leaves {i j : ℕ} (ne : i ≠ j) (h : Act k i s t) : Since j s t := by
  have not_mine : ∀ u : World, u.leaseOwner = some i → u.leaseOwner = some j → False :=
    fun u mine theirs => ne (Option.some.inj (mine.symm.trans theirs))
  cases h with
  | idle => exact Since.refl j s
  | retry => exact ⟨le_rfl, rfl, fun held => ⟨held, rfl⟩⟩
  | acquire => exact ⟨le_rfl, rfl, fun held => absurd (Option.some.inj held) ne⟩
  | sign => exact ⟨le_rfl, rfl, fun held => ⟨held, rfl⟩⟩
  | send => exact ⟨le_rfl, rfl, fun held => ⟨held, rfl⟩⟩
  | create tx mine => exact ⟨le_rfl, rfl, fun held => (not_mine s mine held).elim⟩
  | update old new mine => exact ⟨le_rfl, rfl, fun held => (not_mine s mine held).elim⟩

theorem leaseOwner_of_holds {now : ℕ} (h : s.holdsLease owner now = true) :
    s.leaseOwner = some owner := by
  unfold World.holdsLease at h
  split at h
  · rename_i row at_row
    simp only [Bool.and_eq_true, beq_iff_eq] at h
    simp only [World.leaseOwner, at_row, Option.map_some, h.1]
  · cases h

theorem environment_leaves {e : Event} {j : ℕ} (h : environment e s = some t) : Since j s t := by
  cases e with
  | time ms =>
    simp only [environment] at h
    split at h
    · cases h
      exact ⟨Nat.le_add_right _ _, rfl, fun held => ⟨held, rfl⟩⟩
    · cases h
  | renewLease owner =>
    simp only [environment] at h
    split at h
    · rename_i holds
      cases h
      refine ⟨le_rfl, rfl, fun held => ⟨?_, rfl⟩⟩
      rw [← Option.some.inj held]
      exact leaseOwner_of_holds holds
    · cases h
  | close owner =>
    cases h
    refine ⟨le_rfl, rfl, fun held => ⟨?_, rfl⟩⟩
    obtain ⟨row, kept, same⟩ := Option.map_eq_some_iff.mp held
    exact Option.map_eq_some_iff.mpr ⟨row, (Option.filter_eq_some_iff.mp kept).1, same⟩

theorem compatible (k : Keeper) : Compatible (machine k) (contract k) where
  others := fun ne _ act => act.leaves ne
  env := environment_leaves
  answers := fun h => h

/-- A fresh database, and processes that have not done anything yet. -/
structure Started (k : Keeper) (s : System World Query Answer Err (List Incident) ℕ) : Prop where
  txs : s.shared.txs = []
  lease : s.shared.lease = none
  now : s.shared.now ≤ MAX_DATE
  signed : s.shared.signed = []
  sent : s.shared.sent = []
  tasks : ∀ i, s.task i = .done []

/-- A step of a run in which the lease names a process whenever it writes the journal or sends
bytes. -/
abbrev heldStep (k : Keeper) := admittedStep (machine k) (contract k)

theorem started_sound {s : System World Query Answer Err (List Incident) ℕ} (h : Started k s) :
    Sound (contract k) (fun _ _ _ => True) (fun _ _ _ => True) s := by
  intro i
  rw [h.tasks i]
  exact fun _ _ => trivial

end Turret.Liquidator
