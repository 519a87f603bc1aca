import Turret.Liquidator.Journal

/-! The journal along runs: one unresolved intent at most, and bytes that are
stored before they leave. One process may check its lease and write after
another has taken it; the results are about the runs where that does not
happen, and the run that shows why stands at the end. -/

namespace Turret.Liquidator

open Tasks Execution

variable {k : Keeper} {s t : World} {tx old new : Tx} {txs : List Tx}

/-! ### What a record keeps -/

/-- The nonce, the target and the calldata. -/
def Request.SameCall (a b : Request) : Prop :=
  a.nonce = b.nonce ∧ a.target = b.target ∧ a.data = b.data

/-- What holds of every stored intent. -/
structure Recorded (k : Keeper) (now : ℕ) (tx : Tx) : Prop where
  attempts : ∀ attempt ∈ tx.attempts, ∃ request, attempt.signs k request ∧
    request.SameCall tx.request ∧ ∃ reserve ∈ feeReserve request, reserve ≤ tx.feeReserve
  reserve : feeReserve tx.request = some tx.feeReserve
  settled : tx.unresolved = false → ∃ time ≤ now, tx.settledAt = some time
  gas : tx.unresolved = false → ∃ gas ≤ tx.feeReserve, tx.actualGas = some gas
  positive : tx.kind = .liquidation → 0 < tx.maxRepay
  repaid : tx.status = .confirmed → tx.kind = .liquidation →
    ∃ repaid : ℕ, tx.actualRepay = some repaid ∧ (repaid : ℤ) ≤ tx.maxRepay

theorem Recorded.later {now later : ℕ} (h : Recorded k now tx) (le : now ≤ later) :
    Recorded k later tx :=
  { h with
    settled := fun final => by
      obtain ⟨time, before, at_time⟩ := h.settled final
      exact ⟨time, before.trans le, at_time⟩ }

theorem le_bumped {p q : ℕ} {price : Option ℕ} (h : price = some p) (h' : bumped price = some q) :
    p ≤ q := by
  subst h
  simp only [bumped, Option.map_some, Option.some.injEq] at h'
  omega

/-- A replacement reserves no less. -/
theorem feeReserve_replacementOf {request : Request} {reserve reserve' : ℕ}
    (h : feeReserve request = some reserve)
    (h' : feeReserve (replacementOf request) = some reserve') : reserve ≤ reserve' := by
  obtain ⟨p, at_p, rfl⟩ := Option.map_eq_some_iff.mp h
  obtain ⟨q, at_q, rfl⟩ := Option.map_eq_some_iff.mp h'
  refine Nat.mul_le_mul_left _ ?_
  simp only [Request.price, replacementOf] at at_p at_q
  rcases gas : request.gasPrice with _ | g
  · simp only [gas, bumped, Option.map_none] at at_p at_q
    exact le_bumped (by simpa using at_p) (by simpa [bumped] using at_q)
  · simp only [gas, bumped, Option.map_some] at at_p at_q
    exact le_bumped (show some g = some p by simpa using at_p) (by simpa [bumped] using at_q)

theorem Update.id_eq (h : Update k s old new) : new.id = old.id := by
  cases h with
  | replace => rfl
  | block => rfl
  | settle _ _ _ _ _ _ _ _ same => exact same

/-- The request of a replacement is the same call at a higher fee. -/
theorem Update.sameCall (h : Update k s old new) : new.request.SameCall old.request := by
  cases h with
  | replace request reserve attempt read same => exact same ▸ ⟨rfl, rfl, rfl⟩
  | block => exact ⟨rfl, rfl, rfl⟩
  | settle _ _ _ _ _ _ _ _ _ _ _ same => exact same ▸ ⟨rfl, rfl, rfl⟩

theorem Update.attempts (h : Update k s old new) : old.attempts <+: new.attempts := by
  cases h with
  | replace request reserve attempt => exact ⟨[attempt], rfl⟩
  | block => exact List.prefix_rfl
  | settle _ _ _ _ _ _ _ _ _ _ _ _ _ _ same => exact same ▸ List.prefix_rfl

theorem Update.recorded (h : Update k s old new) (pending : old.status = .pending)
    (row : Recorded k s.now old) : Recorded k s.now new := by
  cases h with
  | replace request reserve attempt read same reserves small signed =>
    subst same
    have grows := feeReserve_replacementOf row.reserve reserves
    exact
      { attempts := fun a mem => by
          rcases List.mem_append.mp mem with before | added
          · obtain ⟨request, signs, call, reserved, at_reserved, le⟩ := row.attempts a before
            exact ⟨request, signs, call, reserved, at_reserved, le.trans grows⟩
          · rw [List.mem_singleton.mp added]
            exact ⟨_, signed, ⟨rfl, rfl, rfl⟩, reserve, reserves, le_rfl⟩
        reserve := reserves
        settled := row.settled
        gas := fun final => absurd final (by simp [Tx.unresolved, pending])
        positive := row.positive
        repaid := fun confirmed => by
          change old.status = .confirmed at confirmed
          rw [pending] at confirmed
          cases confirmed }
  | block receipt gas =>
    exact
      { attempts := row.attempts
        reserve := row.reserve
        settled := fun final => absurd final (by simp [Tx.unresolved])
        gas := fun final => absurd final (by simp [Tx.unresolved])
        positive := row.positive
        repaid := fun confirmed => by cases confirmed }
  | settle attempt gas _ mem cost status at_gas time id_eq kind created request fee maxRepay attempts =>
    exact
      { attempts := by rw [attempts, request, fee]; exact row.attempts
        reserve := by rw [request, fee]; exact row.reserve
        settled := fun _ => time
        gas := fun _ => by
          obtain ⟨signed, signs, -, reserve, at_reserve, le⟩ := row.attempts attempt mem
          refine ⟨gas, ?_, at_gas⟩
          rw [fee]
          exact (cost signed reserve at_reserve (signs.2.trans (by rw [signs.1]))).trans le
        positive := fun liquidation => maxRepay ▸ row.positive (kind ▸ liquidation)
        repaid := fun confirmed liquidation => by
          rcases status with ⟨-, shown⟩ | reverted
          · rw [maxRepay]
            exact shown (kind ▸ liquidation)
          · rw [reverted] at confirmed
            cases confirmed }

/-! ### The journal -/

structure Journal (k : Keeper) (s : World) : Prop where
  now : s.now ≤ MAX_DATE
  ids : (s.txs.map Tx.id).Nodup
  recorded : ∀ tx ∈ s.txs, Recorded k s.now tx
  single : ∀ x ∈ s.txs, ∀ y ∈ s.txs, x.unresolved → y.unresolved → x.id = y.id
  sent : ∀ raw ∈ s.sent, ∃ tx ∈ s.txs, ∃ attempt ∈ tx.attempts, attempt.raw = raw
  signed : ∀ request ∈ s.signed, ∃ reserve ∈ feeReserve request, reserve ≤ k.config.maxTxFee

theorem pendingTx_eq_none (h : s.pendingTx = none) (mem : tx ∈ s.txs) : tx.unresolved = false := by
  have none_of := List.find?_eq_none.mp h tx ((List.perm_insertionSort _ s.txs).mem_iff.mpr mem)
  unfold Tx.unresolved
  cases status : tx.status <;> simp_all

theorem unresolved_of_pending (h : tx.status = .pending) : tx.unresolved = true := by
  simp [Tx.unresolved, h]

theorem Journal.unique (h : Journal k s) {x y : Tx} (hx : x ∈ s.txs) (hy : y ∈ s.txs)
    (same : x.id = y.id) : x = y :=
  Table.eq_of_key h.ids hx hy same

/-- Every attempt that was stored is stored. -/
theorem Journal.attempts_kept (h : Journal k s) (mem : old ∈ s.txs) (update : Update k s old new)
    {row : Tx} (hrow : row ∈ s.txs) :
    ∃ row' ∈ Table.upsert Tx.id new s.txs, row'.id = row.id ∧
      row'.request.SameCall row.request ∧ row.attempts <+: row'.attempts := by
  by_cases same : row.id = new.id
  · have : row = old := h.unique hrow mem (same.trans update.id_eq)
    subst this
    exact ⟨new, mem_upsert new s, same.symm, update.sameCall, update.attempts⟩
  · exact ⟨row, Table.mem_upsert_of_ne hrow same, rfl, ⟨rfl, rfl, rfl⟩, List.prefix_rfl⟩

theorem Journal.create (h : Journal k s) (intent : Intent k s tx) : Journal k (s.upsert tx) := by
  have rows : (s.upsert tx).txs = s.txs ++ [tx] := Table.upsert_new intent.fresh
  have resolved : ∀ x ∈ s.txs, x.unresolved = false := fun x => pendingTx_eq_none intent.resolved
  obtain ⟨attempt, only, signs⟩ := intent.signed
  refine
    { now := h.now
      ids := Table.keys_upsert h.ids
      recorded := fun x hx => ?_
      single := fun x hx y hy x_open y_open => ?_
      sent := fun raw hraw => ?_
      signed := h.signed }
  · rw [rows, List.mem_append, List.mem_singleton] at hx
    rcases hx with before | rfl
    · exact h.recorded x before
    · exact
        { attempts := fun a ha => by
            rw [only, List.mem_singleton] at ha
            exact ha ▸ ⟨_, signs, ⟨rfl, rfl, rfl⟩, _, intent.reserve, le_rfl⟩
          reserve := intent.reserve
          settled := fun final => by simp [Tx.unresolved, intent.pending] at final
          gas := fun final => by simp [Tx.unresolved, intent.pending] at final
          positive := fun liquidation => (intent.capital liquidation).1
          repaid := fun confirmed => by rw [intent.pending] at confirmed; cases confirmed }
  · rw [rows, List.mem_append, List.mem_singleton] at hx hy
    rcases hx with hx | rfl
    · rw [resolved x hx] at x_open
      cases x_open
    · rcases hy with hy | rfl
      · rw [resolved y hy] at y_open
        cases y_open
      · rfl
  · obtain ⟨row, mem, sent⟩ := h.sent raw hraw
    exact ⟨row, by rw [rows]; exact List.mem_append_left _ mem, sent⟩

theorem Journal.update (h : Journal k s) (mem : old ∈ s.txs) (pending : old.status = .pending)
    (update : Update k s old new) : Journal k (s.upsert new) := by
  have only : ∀ x ∈ (s.upsert new).txs, x = new ∨ x ∈ s.txs ∧ x.unresolved = false := by
    intro x hx
    refine (Table.mem_of_mem_upsert hx).imp_right fun ⟨before, ne⟩ => ⟨before, ?_⟩
    by_contra unresolved
    exact ne ((h.single x before old mem (by simpa using unresolved)
      (unresolved_of_pending pending)).trans update.id_eq.symm)
  refine
    { now := h.now
      ids := Table.keys_upsert h.ids
      recorded := fun x hx => ?_
      single := fun x hx y hy x_open y_open => ?_
      sent := fun raw hraw => ?_
      signed := h.signed }
  · rcases only x hx with rfl | ⟨before, -⟩
    · exact update.recorded pending (h.recorded old mem)
    · exact h.recorded x before
  · rcases only x hx with rfl | ⟨-, resolved⟩
    · rcases only y hy with rfl | ⟨-, resolved⟩
      · rfl
      · rw [resolved] at y_open
        cases y_open
    · rw [resolved] at x_open
      cases x_open
  · obtain ⟨row, hrow, attempt, ha, same⟩ := h.sent raw hraw
    obtain ⟨row', hrow', -, -, kept⟩ := h.attempts_kept mem update hrow
    exact ⟨row', hrow', attempt, kept.subset ha, same⟩

theorem Journal.act {owner : ℕ} (h : Journal k s) (act : Act k owner s t) : Journal k t := by
  cases act with
  | idle => exact h
  | retry => exact ⟨h.now, h.ids, h.recorded, h.single, h.sent, h.signed⟩
  | acquire => exact ⟨h.now, h.ids, h.recorded, h.single, h.sent, h.signed⟩
  | sign request reserve reserves small =>
    refine ⟨h.now, h.ids, h.recorded, h.single, h.sent, fun r hr => ?_⟩
    rcases List.mem_append.mp hr with before | added
    · exact h.signed r before
    · rw [List.mem_singleton.mp added]
      exact ⟨reserve, reserves, small⟩
  | send tx attempt _ mem _ ha =>
    refine ⟨h.now, h.ids, h.recorded, h.single, fun raw hraw => ?_, h.signed⟩
    rcases List.mem_append.mp hraw with before | added
    · exact h.sent raw before
    · rw [List.mem_singleton.mp added]
      exact ⟨tx, mem, attempt, ha, rfl⟩
  | create tx _ intent => exact h.create intent
  | update old new _ seen pending update => exact h.update (mem_of_pendingTx seen) pending update

theorem Journal.environment {e : Event} (h : Journal k s)
    (moved : Liquidator.environment e s = some t) : Journal k t := by
  cases e with
  | time ms =>
    simp only [Liquidator.environment] at moved
    split at moved
    · cases moved
      exact ⟨‹_›, h.ids, fun tx mem => (h.recorded tx mem).later (Nat.le_add_right _ _), h.single,
        h.sent, h.signed⟩
    · cases moved
  | renewLease owner =>
    simp only [Liquidator.environment] at moved
    split at moved
    · cases moved
      exact ⟨h.now, h.ids, h.recorded, h.single, h.sent, h.signed⟩
    · cases moved
  | close owner =>
    cases moved
    exact ⟨h.now, h.ids, h.recorded, h.single, h.sent, h.signed⟩

theorem Journal.effect (h : Journal k s) (effect : Effect (machine k) (contract k) s t) :
    Journal k t := by
  rcases effect with rfl | ⟨owner, -, act⟩ | ⟨e, moved⟩
  · exact h
  · exact h.act act
  · exact h.environment moved

theorem Journal.started {s : System World Query Answer Err (List Incident) ℕ}
    (h : Started k s) : Journal k s.shared where
  now := h.now
  ids := by simp [h.txs]
  recorded := by simp [h.txs]
  single := by simp [h.txs]
  sent := by simp [h.sent]
  signed := by simp [h.signed]

/-! ### Steps and runs -/

/-- What one step does to the journal and to the bytes that have left. -/
structure Careful (s t : World) : Prop where
  kept : ∀ row ∈ s.txs, ∃ row' ∈ t.txs, row'.id = row.id ∧
    row'.request.SameCall row.request ∧ row.attempts <+: row'.attempts
  created : ∀ tx ∈ t.txs, (∀ row ∈ s.txs, row.id ≠ tx.id) →
    ∀ row ∈ s.txs, row.status = .confirmed ∨ row.status = .reverted
  stored : t.sent = s.sent ∨
    ∃ tx ∈ s.txs, ∃ attempt ∈ tx.attempts, t.sent = s.sent ++ [attempt.raw]
  blocked : (∃ tx ∈ s.txs, tx.status = .blocked) → t.txs = s.txs ∧ t.sent = s.sent

theorem Careful.of_same (txs : t.txs = s.txs) (sent : t.sent = s.sent) : Careful s t where
  kept := fun row mem => ⟨row, txs ▸ mem, rfl, ⟨rfl, rfl, rfl⟩, List.prefix_rfl⟩
  created := fun tx mem fresh => absurd rfl (fresh tx (txs ▸ mem))
  stored := .inl sent
  blocked := fun _ => ⟨txs, sent⟩

theorem resolved_iff : tx.unresolved = false ↔ tx.status = .confirmed ∨ tx.status = .reverted := by
  unfold Tx.unresolved
  cases tx.status <;> simp

/-- A blocked intent is unresolved, so no other one is pending. -/
theorem Journal.no_pending (h : Journal k s) (blocked : ∃ tx ∈ s.txs, tx.status = .blocked)
    (mem : tx ∈ s.txs) : tx.status ≠ .pending := by
  obtain ⟨row, hrow, status⟩ := blocked
  intro pending
  have same := h.single row hrow tx mem (by simp [Tx.unresolved, status])
    (unresolved_of_pending pending)
  rw [h.unique hrow mem same, pending] at status
  cases status

theorem Journal.careful {owner : ℕ} (h : Journal k s) (act : Act k owner s t) : Careful s t := by
  cases act with
  | idle => exact .of_same rfl rfl
  | retry => exact .of_same rfl rfl
  | acquire => exact .of_same rfl rfl
  | sign => exact .of_same rfl rfl
  | send tx attempt _ mem pending ha =>
    exact
      { kept := fun row hrow => ⟨row, hrow, rfl, ⟨rfl, rfl, rfl⟩, List.prefix_rfl⟩
        created := fun x hx fresh => absurd rfl (fresh x hx)
        stored := .inr ⟨tx, mem, attempt, ha, rfl⟩
        blocked := fun blocked => absurd pending (h.no_pending blocked mem) }
  | create tx _ intent =>
    have resolved : ∀ row ∈ s.txs, row.status = .confirmed ∨ row.status = .reverted :=
      fun row mem => resolved_iff.mp (pendingTx_eq_none intent.resolved mem)
    exact
      { kept := fun row hrow =>
          ⟨row, Table.mem_upsert_of_ne hrow (intent.fresh row hrow), rfl, ⟨rfl, rfl, rfl⟩, List.prefix_rfl⟩
        created := fun _ _ _ => resolved
        stored := .inl rfl
        blocked := fun ⟨row, mem, blocked⟩ => by
          rcases resolved row mem with final | final
          · rw [blocked] at final
            cases final
          · rw [blocked] at final
            cases final }
  | update old new _ seen pending update =>
    have mem := mem_of_pendingTx seen
    exact
      { kept := fun row hrow => h.attempts_kept mem update hrow
        created := fun x hx fresh => by
          rcases Table.mem_of_mem_upsert hx with rfl | ⟨before, -⟩
          · exact absurd update.id_eq.symm (fresh old mem)
          · exact absurd rfl (fresh x before)
        stored := .inl rfl
        blocked := fun blocked => absurd pending (h.no_pending blocked mem) }

theorem environment_careful {e : Event} (moved : environment e s = some t) : Careful s t := by
  cases e with
  | time ms =>
    simp only [environment] at moved
    split at moved
    · cases moved
      exact .of_same rfl rfl
    · cases moved
  | renewLease owner =>
    simp only [environment] at moved
    split at moved
    · cases moved
      exact .of_same rfl rfl
    · cases moved
  | close owner =>
    cases moved
    exact .of_same rfl rfl

theorem Journal.effect_careful (h : Journal k s)
    (effect : Effect (machine k) (contract k) s t) : Careful s t := by
  rcases effect with rfl | ⟨owner, -, act⟩ | ⟨e, moved⟩
  · exact .of_same rfl rfl
  · exact h.careful act
  · exact environment_careful moved

theorem Journal.unresolved_le_one (h : Journal k s) :
    (s.txs.filter Tx.unresolved).length ≤ 1 := by
  by_contra two
  push Not at two
  have nodup : (s.txs.filter Tx.unresolved).Nodup := (List.Nodup.of_map _ h.ids).filter _
  obtain ⟨x, hx, y, hy, ne⟩ : ∃ x ∈ s.txs.filter Tx.unresolved,
      ∃ y ∈ s.txs.filter Tx.unresolved, x ≠ y := by
    match rows : s.txs.filter Tx.unresolved, two, nodup with
    | x :: y :: rest, _, nodup =>
      exact ⟨x, by simp, y, by simp, fun same => by simp [same] at nodup⟩
  obtain ⟨x_mem, x_open⟩ := List.mem_filter.mp hx
  obtain ⟨y_mem, y_open⟩ := List.mem_filter.mp hy
  exact ne (h.unique x_mem y_mem (h.single x x_mem y y_mem x_open y_open))

abbrev Keepers := System World Query Answer Err (List Incident) ℕ

theorem heldRun_journal {s t : Keepers} (fresh : Started k s) {moves : List (Move ℕ Call Event)}
    (run : Run (heldStep k) s moves t) :
    Sound (contract k) (fun _ _ _ => True) (fun _ _ _ => True) t ∧ Journal k t.shared :=
  (started_sound fresh).run (compatible k) (Journal k) (fun _ c u _ => safe_machine c u)
    (fun _ _ journal effect => journal.effect effect) (.started fresh) run

/-- The intent journal in every run in which the lease names a process whenever it writes the
journal or sends bytes. -/
theorem intent_journal (k : Keeper) (s t : Keepers) (fresh : Started k s)
    (moves : List (Move ℕ Call Event)) (run : Run (heldStep k) s moves t) :
    (t.shared.txs.filter Tx.unresolved).length ≤ 1 ∧
    (∀ raw ∈ t.shared.sent, ∃ tx ∈ t.shared.txs, ∃ attempt ∈ tx.attempts, attempt.raw = raw) ∧
    (∀ tx ∈ t.shared.txs, ∀ attempt ∈ tx.attempts, ∃ request,
      attempt.raw = k.signTransaction request ∧ request.SameCall tx.request) ∧
    ∀ move u, heldStep k t move u → Careful t.shared u.shared := by
  obtain ⟨sound, journal⟩ := heldRun_journal fresh run
  refine ⟨journal.unresolved_le_one, journal.sent, fun tx mem attempt ha => ?_, fun move u moved => ?_⟩
  · obtain ⟨request, signs, call, -⟩ := (journal.recorded tx mem).attempts attempt ha
    exact ⟨request, signs.1, call⟩
  · obtain ⟨-, effect⟩ := sound.step (compatible k) (fun _ c _ => safe_machine c _) moved.1 moved.2
    exact journal.effect_careful effect

/-! ### A lease that is taken between its check and the write -/

def address (n : ℕ) : Address := Fin.ofNat (2 ^ 160) n

def sampleConfig : Config where
  execute := true
  chainId := 4663
  vault := address 1
  usdg := address 2
  confirmations := 12
  replaceAfterMs := 60000
  maxReplacements := 3
  maxRepay := 100
  dailyBudget := 100
  inventoryBudget := 100
  minEth := 1
  maxTxFee := 1000
  maxDailyGas := 1000
  collateralRecipient := none
  executionGate := none

def sampleKeeper : Keeper where
  config := sampleConfig
  account := address 3
  signTransaction := fun request => if request.nonce = 7 then "0x02f8b1" else "0x02f8b2"
  keccak256 := fun raw => if raw = "0x02f8b1" then "0xa1" else "0xa2"
  liquidationResult := liquidationResult sampleConfig (address 3)

def sampleWorld : World := ⟨[], none, fun _ _ => 0, 1000, 1000, [], []⟩

def sampleStart : Keepers := ⟨sampleWorld, fun _ => .done []⟩

/-- Answers that let a liquidation through; `id` is the identifier drawn. -/
def sampleAnswers (id : ℕ) : (q : Query) → Option (Answer q)
  | .consistent => some (.ok true)
  | .transactionCount _ => some (.ok (7 : ℕ))
  | .balance => some (.ok (100000 : ℕ))
  | .prepareTransactionRequest target data value nonce =>
    some (.ok (⟨target, data, value, some 10, some 20, none, none, nonce⟩ : Prepared))
  | .signTransaction request => some (.ok (sampleKeeper.signTransaction request))
  | .randomUUID => some (.ok id)
  | .sendRawTransaction _ => some (.ok ())
  | .usdgBalance => some (.ok (1000 : ℕ))
  | .allowance => some (.ok (1000 : ℕ))
  | .simulate _ => some (.ok ((90, 50) : ℕ × ℕ))
  | _ => none

def sameText (a b : String) : Bool := decide (a = b)

theorem eq_of_sameText {a b : String} (h : sameText a b = true) : a = b := of_decide_eq_true h

/-- A test of the answers above. -/
def sampleCheck (s : World) : (q : Query) → Answer q → Bool
  | .transactionReceipt _, _ => false
  | .signTransaction request, .ok raw => sameText raw (sampleKeeper.signTransaction request)
  | .randomUUID, .ok id => s.txs.all fun tx => tx.id != (show ℕ from id)
  | _, _ => true

theorem sampleCheck_sound (s : World) (q : Query) (a : Answer q) (h : sampleCheck s q a = true) :
    answers sampleKeeper s q a := by
  cases q with
  | transactionReceipt => cases h
  | signTransaction request =>
    cases a with
    | error => trivial
    | ok raw => exact eq_of_sameText h
  | randomUUID =>
    cases a with
    | error => trivial
    | ok id => exact fun tx mem => bne_iff_ne.mp (List.all_eq_true.mp h tx mem)
  | _ => cases a <;> trivial

abbrev Schedule := List (Choice Answer ℕ Call Event)

def goes (owner n : ℕ) : Schedule := List.replicate n (.go owner (sampleAnswers owner))

def sampleCandidate : Candidate := ⟨address 4, address 5, 90⟩

/-- The process takes the lease and starts to liquidate; it is stopped after `n` actions. -/
def liquidatesFor (owner n : ℕ) : Schedule :=
  .begin owner .acquireLease :: goes owner 2 ++
    .begin owner (.liquidate sampleCandidate) :: goes owner n

/-- The first process stops between the check of its lease and the `INSERT` until the lease is
over; the second stores and sends its intent; the first one goes on. -/
def overtaken : Schedule :=
  liquidatesFor 0 25 ++ .env (.time 120000) :: liquidatesFor 1 30 ++ goes 0 1

theorem started_sample : Started sampleKeeper sampleStart where
  txs := rfl
  lease := rfl
  now := by decide
  signed := rfl
  sent := rfl
  tasks := fun _ => rfl

/-- What a schedule reaches. -/
theorem reached_of_exec {β : Type} {test : World → Move ℕ Call Event → World → Bool}
    {step : Keepers → Move ℕ Call Event → Keepers → Prop} {choices : Schedule} {f : Keepers → β}
    {b : β}
    (tested : ∀ s move t, Step (machine sampleKeeper) s move t →
      test s.shared move t.shared = true → step s move t)
    (h : (System.exec (machine sampleKeeper) sampleCheck test choices sampleStart).map f = some b) :
    ∃ t moves, Run step sampleStart moves t ∧ f t = b :=
  run_of_exec_map sampleCheck_sound tested h

/-- Two unresolved intents are in the journal. -/
theorem overtaken_two_intents : ∃ t moves, Started sampleKeeper sampleStart ∧
    Run (Step (machine sampleKeeper)) sampleStart moves t ∧
    (t.shared.txs.filter Tx.unresolved).length = 2 := by
  have computed : (System.exec (machine sampleKeeper) sampleCheck (fun _ _ _ => true) overtaken
      sampleStart).map (fun t => (t.shared.txs.filter Tx.unresolved).length) = some 2 := by
    decide +kernel
  obtain ⟨t, moves, run, two⟩ := reached_of_exec (fun _ _ _ moved _ => moved) computed
  exact ⟨t, moves, started_sample, run, two⟩

/-- The test that the lease names the process. -/
def heldTest (s : World) (move : Move ℕ Call Event) (t : World) : Bool :=
  match move.runs with
  | some owner => decide ((t.txs ≠ s.txs ∨ t.sent ≠ s.sent) → s.leaseOwner = some owner)
  | none => true

theorem heldStep_of_test (s : Keepers) (move : Move ℕ Call Event) (t : Keepers)
    (moved : Step (machine sampleKeeper) s move t) (h : heldTest s.shared move t.shared = true) :
    heldStep sampleKeeper s move t := by
  refine ⟨moved, fun owner runs => ?_⟩
  unfold heldTest at h
  rw [Option.mem_def.mp runs] at h
  have held := of_decide_eq_true h
  exact held

theorem sample_intent_journal : ∃ t moves, Run (heldStep sampleKeeper) sampleStart moves t ∧
    t.shared.sent = ["0x02f8b1"] ∧ (t.shared.txs.filter Tx.unresolved).length ≤ 1 := by
  have computed : (System.exec (machine sampleKeeper) sampleCheck heldTest (liquidatesFor 0 30)
      sampleStart).map (fun t => t.shared.sent) = some ["0x02f8b1"] := by
    decide +kernel
  obtain ⟨t, moves, run, sent⟩ := reached_of_exec heldStep_of_test computed
  exact ⟨t, moves, run, sent,
    (intent_journal sampleKeeper sampleStart t started_sample moves run).1⟩

end Turret.Liquidator
