import Turret.P2P.RecoveryRuns

/-! Every recovery: from the answers on a chain that moves on to what is true of
the branch of the head that was observed. -/

namespace Turret.P2P.PendingRecovery

open Tasks Branches

variable {digest : List ChainBlock → String} {body : String → Body} {account : String}
  {options : Options} {intent : PendingIntent} {head : Head} {s t : Network}
  {log : List (Exchange Network Query Answer)}

/-! ### The recovery -/

/-- The call returns what its search found, from the head that it observed. -/
theorem recoverPendingTransaction_ok {record : PendingRecord} {result : Option RecoveredPending}
    (ran : Ran (contract digest body) (recoverPendingTransaction record account options) s log
      (.ok result) t) :
    ∃ (u : Network) (latest : Latest) (head : Head) (intent : PendingIntent),
      ⟨u, .latest, .ok latest⟩ ∈ log ∧ latest.head = some head ∧
        record.verified account = some intent ∧ Stands digest u.chain head.number head.hash ∧
          Outcome digest body account intent head u t result := by
  obtain ⟨intent, l₁, l₂, u₁, rfl, lifted, ran₁⟩ := ran_bind_ok ran
  obtain ⟨_, l₃, l₄, u₂, rfl, checked, ran₂⟩ := ran_bind_ok ran₁
  obtain ⟨latest, l₅, l₆, u₃, rfl, asked, ran₃⟩ := ran_bind_ok ran₂
  obtain ⟨head, l₇, l₈, u₄, rfl, observed, ran₄⟩ := ran_bind_ok ran₃
  obtain ⟨known, -, -⟩ := ran_lift lifted
  obtain ⟨at_head, -, step₁⟩ := ran_lift observed
  obtain ⟨u, -, told, step₂, rfl⟩ := ran_call asked
  have verified_intent : record.verified account = some intent := by
    cases at_intent : record.verified account with
    | none =>
      rw [at_intent] at known
      cases known
    | some found =>
      rw [at_intent] at known
      cases known
      rfl
  have latest_head : latest.head = some head := by
    cases found : latest.head with
    | none =>
      rw [found] at at_head
      cases at_head
    | some other =>
      rw [found] at at_head
      cases at_head
      rfl
  have stands : Stands digest u.chain head.number head.hash := by
    have names := latest_head
    unfold Latest.head at names
    split at names
    · rename_i number hash at_number at_hash
      split at names
      · cases names
        exact told number hash at_number at_hash
      · cases names
    · cases names
  refine ⟨u, latest, head, intent,
    List.mem_append_right _ (List.mem_append_right _ List.mem_cons_self), latest_head, verified_intent, stands, ?_⟩
  have upto := step₂.trans step₁
  split at ran₄
  · exact (byReplacement_ok ran₄).weaken upto (.refl _)
  · obtain ⟨found, l₉, l₁₀, u₅, rfl, looked, ended⟩ := ran_bind_ok ran₄
    cases found with
    | none =>
      exact (recoverByNonce_ok ended).weaken
        (upto.trans (looked.between (readOnly_direct _)).1) (.refl _)
    | some recovered =>
      obtain ⟨same, -, last⟩ := ran_pure ended
      cases same
      exact (direct_ok looked).weaken upto last

/-- The report is of the transaction of the branch that consumed the nonce. -/
structure Recovered (body : String → Body) (account : String) (intent : PendingIntent)
    (branch : List ChainBlock) (recovered : RecoveredPending) : Prop where
  mined : ∃ (n : ℕ) (b : ChainBlock), (branch)[n]? = some b ∧
    ∃ row ∈ b.transactions, lower row = lower recovered.hash
  consumes : Consumes body account intent recovered.hash
  unique : ∀ (n : ℕ) (b : ChainBlock), (branch)[n]? = some b → ∀ row ∈ b.transactions,
    Consumes body account intent row → lower row = lower recovered.hash
  equivalent : recovered.equivalent = true ↔
    same (body (lower recovered.hash)).target intent.target = true ∧
      same (body (lower recovered.hash)).input intent.input = true ∧
        (body (lower recovered.hash)).value = (bigInt intent.value : ℤ)
  cancelled : recovered.cancelled = true ↔
    same (body (lower recovered.hash)).target account = true ∧
      (body (lower recovered.hash)).input = "0x" ∧ (body (lower recovered.hash)).value = 0

/-- No transaction of the branch has consumed the nonce. -/
structure Unconsumed (body : String → Body) (account : String) (intent : PendingIntent)
    (branch : List ChainBlock) : Prop where
  nonce : ∃ b : ChainBlock, branch.getLast? = some b ∧ (b.nonces (lower account) : ℤ) ≤ intent.nonce
  unused : ∀ (n : ℕ) (b : ChainBlock), (branch)[n]? = some b → ∀ row ∈ b.transactions,
    ¬Consumes body account intent row

/-- What was told between two looks at the head was told of its branch. -/
theorem Checked.shares {tells : List ChainBlock → Prop} {u : Network}
    (ideal : Collisionless digest t) (stands : Stands digest u.chain head.number head.hash)
    (h : Checked digest head tells u t) :
    ∃ v w : Network, tells v.chain ∧ Later u.trace w.trace ∧ Later w.trace t.trace ∧
      Shares head.number v.chain u.chain ∧ Shares head.number w.chain u.chain := by
  obtain ⟨v, w, before, between, after, told, still⟩ := h
  have u_seen := after.seen _ (between.seen _ (before.seen _ u.current))
  have w_seen := after.seen _ w.current
  have kept : Shares head.number w.chain u.chain :=
    ⟨still.1, stands.1, ideal _ w_seen _ u_seen _ still.1 _ stands.1 (still.2.symm.trans stands.2)⟩
  have at_v := between.stayed head.number u.chain (before.seen _ u.current) kept
  exact ⟨v, w, told, before.trans between, after, at_v.symm.trans kept, kept⟩

section Branch

variable {u : Network}

theorem Stands.getLast? (stands : Stands digest u.chain head.number head.hash) :
    (u.chain.take (head.number + 1)).getLast? = (u.chain)[head.number]? := by
  have inside := stands.1
  rw [List.getLast?_eq_getElem?, List.length_take, min_eq_left (by omega), Nat.add_sub_cancel,
    List.getElem?_take_of_lt (Nat.lt_succ_self _)]

/-- A block of the branch is one of the chain. -/
theorem block_of_branch {c : List ChainBlock} {last n : ℕ} {b : ChainBlock}
    (h : (c.take (last + 1))[n]? = some b) : (c)[n]? = some b ∧ n ≤ last := by
  have inside := (List.getElem?_eq_some_iff.mp h).1
  rw [List.length_take] at inside
  rw [List.getElem?_take_of_lt (by omega)] at h
  exact ⟨h, by omega⟩

theorem recovered_of_reported {recovered : RecoveredPending} (ideal : Collisionless digest t)
    (lawful : Lawful body u.chain) (stands : Stands digest u.chain head.number head.hash)
    (h : Reported digest body account intent head u t recovered) :
    Recovered body account intent (u.chain.take (head.number + 1)) recovered ∧
      ∃ w : Network, Later u.trace w.trace ∧ Later w.trace t.trace ∧
        Shares head.number w.chain u.chain := by
  obtain ⟨transaction, genuine, reports, checked⟩ := h
  obtain ⟨v, w, ⟨n, upto, b, at_n, row, row_mem, row_same⟩, after, before, at_v, kept⟩ :=
    checked.shares ideal stands
  have at_u : (u.chain)[n]? = some b := by
    rw [← (at_v.of_le upto).getElem?]
    exact at_n
  have contents : body (lower recovered.hash) = transaction.toBody := by
    rw [reports.hash]
    exact genuine.symm
  have consumed : Consumes body account intent recovered.hash := by
    have found := reports.consumes
    simp only [PendingRecovery.consumes, Bool.and_eq_true, beq_iff_eq] at found
    rw [Consumes, contents]
    exact found
  have row_consumes : Consumes body account intent row := by
    rw [Consumes, row_same, ← reports.hash]
    exact consumed
  refine ⟨⟨⟨n, b, ?_, row, row_mem, ?_⟩, consumed, ?_, ?_, ?_⟩, w, after, before, kept⟩
  · rw [List.getElem?_take_of_lt (by omega), at_u]
  · rw [row_same, reports.hash]
  · intro m b' at_m other other_mem also
    rw [reports.hash, ← row_same]
    exact lawful.unique (block_of_branch at_m).1 other_mem also at_u row_mem row_consumes
  · rw [contents]
    exact reports.equivalent
  · rw [contents]
    exact reports.cancelled

theorem unconsumed_of_unspent (ideal : Collisionless digest t) (lawful : Lawful body u.chain)
    (stands : Stands digest u.chain head.number head.hash)
    (h : Checked digest head (Unspent account intent head.number) u t) :
    Unconsumed body account intent (u.chain.take (head.number + 1)) ∧
      ∃ w : Network, Later u.trace w.trace ∧ Later w.trace t.trace ∧
        Shares head.number w.chain u.chain := by
  obtain ⟨v, w, ⟨b, at_head, unused⟩, after, before, at_v, kept⟩ := h.shares ideal stands
  rw [at_v.getElem?] at at_head
  refine ⟨⟨⟨b, stands.getLast?.trans at_head, unused⟩, ?_⟩, w, after, before, kept⟩
  intro n b' at_n row row_mem consumes
  obtain ⟨at_u, upto⟩ := block_of_branch at_n
  have used := lawful.after at_u row_mem consumes at_head upto
  omega

end Branch

/-- The search for a saved nonce, whatever the record and whatever the node cannot tell, on a chain
that moves on meanwhile: it ends; what it returns is the transaction of the account that consumed
the nonce on the branch of the head it observed, or `null` where none has; the head was still there
when that was checked; and where the nonces are told the bisection ends at the very block. -/
theorem pending_nonce_recovery (digest : List ChainBlock → String) (body : String → Body)
    (record : PendingRecord) (account : String) (options : Options) :
    (recoverPendingTransaction record account options).EndsWithin 276 ∧
    (∀ {s t : Network} {log : List (Exchange Network Query Answer)}
        {result : Option RecoveredPending},
      Ran (contract digest body) (recoverPendingTransaction record account options) s log
        (.ok result) t →
      Collisionless digest t → (∀ c ∈ t.trace.seen, Lawful body c) →
      ∃ (u : Network) (latest : Latest) (head : Head) (intent : PendingIntent),
        ⟨u, .latest, .ok latest⟩ ∈ log ∧ latest.head = some head ∧
        record.verified account = some intent ∧ Stands digest u.chain head.number head.hash ∧
        (∃ w : Network, Later u.trace w.trace ∧ Later w.trace t.trace ∧
          Shares head.number w.chain u.chain) ∧
        match result with
        | some recovered =>
          Recovered body account intent (u.chain.take (head.number + 1)) recovered
        | none => Unconsumed body account intent (u.chain.take (head.number + 1))) ∧
    ∀ {intent : PendingIntent} {head : Head} {s t : Network}
        {log : List (Exchange Network Query Answer)} {out : Except String ℕ},
      Ran (contract digest body) (search account options intent head) s log out t →
      (∀ x ∈ log, Available account x) → Shares head.number t.chain s.chain →
      Lawful body s.chain → head.number < 2 ^ 64 →
      ∀ (n : ℕ) (b : ChainBlock) (row : String), n ≤ head.number → (s.chain)[n]? = some b →
        row ∈ b.transactions → Consumes body account intent row →
        out = .ok n ∧ (log.filter isProbe).length ≤ 64 := by
  refine ⟨recoverPendingTransaction_ends record, ?_, ?_⟩
  · intro s t log result ran ideal lawful
    obtain ⟨u, latest, head, intent, asked, at_head, verified, stands, outcome⟩ :=
      recoverPendingTransaction_ok ran
    have lawful_u : Lawful body u.chain := by
      have later := ((ran.between (readOnly_recoverPendingTransaction record)).2 _ asked).2.1
      exact lawful _ (later.seen _ u.current)
    refine ⟨u, latest, head, intent, asked, at_head, verified, stands, ?_⟩
    cases result with
    | none =>
      obtain ⟨free, kept⟩ := unconsumed_of_unspent ideal lawful_u stands outcome
      exact ⟨kept, free⟩
    | some recovered =>
      obtain ⟨found, kept⟩ := recovered_of_reported ideal lawful_u stands outcome
      exact ⟨kept, found⟩
  · intro intent head s t log out ran available kept lawful small n b row le at_n row_mem consumes
    exact search_exact ran available kept lawful small le at_n row_mem consumes

/-! ### A transaction that was repriced -/

def sampleAccount : String := "0x1111111111111111111111111111111111111111"

def sampleTarget : String := "0x2222222222222222222222222222222222222222"

def sampleHash : String := "0x" ++ String.ofList (List.replicate 64 'b')

def sampleBody (hash : String) : Body :=
  if hash = sampleHash then ⟨sampleAccount, some sampleTarget, 7, 0, "0x1234"⟩
  else ⟨"", none, 0, 0, ""⟩

def sampleNonces (count : ℕ) (account : String) : ℕ := if account = sampleAccount then count else 0

/-- The second block has the transaction. -/
def sampleChain : List ChainBlock :=
  [⟨[], sampleNonces 7⟩, ⟨[sampleHash], sampleNonces 8⟩, ⟨[], sampleNonces 8⟩]

def sampleNetwork : Network := ⟨⟨sampleChain, [sampleChain]⟩, List.mem_singleton_self _⟩

def sampleDigest (branch : List ChainBlock) : String :=
  "0x" ++ String.ofList (List.replicate 63 '0') ++ toString branch.length

def sampleReceipt : Receipt :=
  ⟨sampleHash, sampleAccount, some sampleTarget, sampleDigest (sampleChain.take 2), 1, "success"⟩

/-- What is told of a block. -/
def sampleAt {α : Type} (number : ℕ) (tell : ChainBlock → α) : Except String α :=
  match (sampleChain)[number]? with
  | some b => .ok (tell b)
  | none => .error "unknown block"

def sampleOf {α : Type} (hash : String) (told : α) : Except String α :=
  if hash = sampleHash then .ok told else .error "unknown transaction"

/-- The saved hash is unknown, and all else is told. -/
def sampleGiven : (q : Query) → Answer q
  | .getAccount => .ok (some sampleAccount)
  | .latest => .ok ⟨some 2, some (sampleDigest (sampleChain.take 3))⟩
  | .block number => sampleAt number fun b =>
    ⟨some (sampleDigest (sampleChain.take (number + 1))), b.transactions⟩
  | .fullBlock number => sampleAt number fun b =>
    b.transactions.map fun hash => ⟨sampleBody (lower hash), hash⟩
  | .receipt hash => sampleOf hash (some sampleReceipt)
  | .transaction hash => sampleOf hash ⟨sampleBody (lower sampleHash), sampleHash⟩
  | .count address number => sampleAt number fun b => (b.nonces (lower address) : ℤ)

def sampleIntent : PendingIntent := ⟨sampleAccount, 7, sampleTarget, "0x1234", "0", "0"⟩

def sampleRecord : PendingRecord where
  hash := "0x" ++ String.ofList (List.replicate 64 'a')
  intent := some sampleIntent

theorem sampleAt_told {q : Query} {number : ℕ} {tell : ChainBlock → Reply q}
    (h : ∀ b, (sampleChain)[number]? = some b →
      Truthful sampleDigest sampleBody sampleNetwork q (.ok (tell b))) :
    Truthful sampleDigest sampleBody sampleNetwork q (sampleAt number tell) := by
  unfold sampleAt
  cases at_number : (sampleChain)[number]? with
  | none => cases q <;> exact trivial
  | some b => exact h b at_number

theorem sampleOf_told {q : Query} {hash : String} {told : Reply q}
    (h : Truthful sampleDigest sampleBody sampleNetwork q (.ok told)) :
    Truthful sampleDigest sampleBody sampleNetwork q (sampleOf hash told) := by
  unfold sampleOf
  split
  · exact h
  · cases q <;> exact trivial

theorem sampleGiven_truthful (q : Query) :
    Truthful sampleDigest sampleBody sampleNetwork q (sampleGiven q) := by
  have inside : ∀ {number : ℕ} {b : ChainBlock}, (sampleChain)[number]? = some b →
      number < sampleChain.length := fun at_number => (List.getElem?_eq_some_iff.mp at_number).1
  cases q with
  | getAccount => exact trivial
  | latest =>
    intro number hash at_number at_hash
    cases at_number
    cases at_hash
    exact ⟨by decide, rfl⟩
  | block number =>
    refine sampleAt_told (q := .block number) fun b at_number => ⟨b, at_number, rfl, ?_⟩
    intro hash same
    cases same
    exact ⟨inside at_number, rfl⟩
  | fullBlock number =>
    refine sampleAt_told (q := .fullBlock number) fun b at_number =>
      ⟨b, at_number, (List.map_map ..).trans (List.map_id _), ?_⟩
    intro transaction mem
    obtain ⟨hash, -, rfl⟩ := List.mem_map.mp mem
    rfl
  | receipt hash => exact sampleOf_told (q := .receipt hash) trivial
  | transaction hash => exact sampleOf_told (q := .transaction hash) rfl
  | count address number =>
    exact sampleAt_told (q := .count address number) fun b at_number => ⟨b, at_number, rfl⟩

theorem sample_ideal : Collisionless sampleDigest sampleNetwork := by
  have apart : ∀ n < 3, ∀ m < 3, lower (sampleDigest (sampleChain.take (n + 1))) =
      lower (sampleDigest (sampleChain.take (m + 1))) → n = m := by decide +kernel
  intro c mem d mem' n inside m inside' same
  obtain rfl := List.mem_singleton.mp mem
  obtain rfl := List.mem_singleton.mp mem'
  rw [apart n inside m inside' same]

theorem sample_block {n : ℕ} {b : ChainBlock} (h : (sampleChain)[n]? = some b) :
    n = 0 ∧ b = ⟨[], sampleNonces 7⟩ ∨ n = 1 ∧ b = ⟨[sampleHash], sampleNonces 8⟩ ∨
      n = 2 ∧ b = ⟨[], sampleNonces 8⟩ := by
  match n, h with
  | 0, h => exact .inl ⟨rfl, (Option.some.inj h).symm⟩
  | 1, h => exact .inr (.inl ⟨rfl, (Option.some.inj h).symm⟩)
  | 2, h => exact .inr (.inr ⟨rfl, (Option.some.inj h).symm⟩)

theorem sampleNonces_mono {n m : ℕ} (le : n ≤ m) (account : String) :
    sampleNonces n account ≤ sampleNonces m account := by
  unfold sampleNonces
  split
  · exact le
  · exact le_rfl

theorem sample_row {n : ℕ} {b : ChainBlock} {row : String} (h : (sampleChain)[n]? = some b)
    (mem : row ∈ b.transactions) : n = 1 ∧ b = ⟨[sampleHash], sampleNonces 8⟩ ∧ row = sampleHash := by
  rcases sample_block h with ⟨-, rfl⟩ | ⟨rfl, rfl⟩ | ⟨-, rfl⟩
  · cases mem
  · exact ⟨rfl, rfl, List.mem_singleton.mp mem⟩
  · cases mem

theorem sample_lawful : Lawful sampleBody sampleChain where
  monotone := by
    intro account n b b' at_n at_next
    rcases sample_block at_n with ⟨rfl, rfl⟩ | ⟨rfl, rfl⟩ | ⟨rfl, rfl⟩
    · rcases sample_block at_next with ⟨next, -⟩ | ⟨-, rfl⟩ | ⟨-, rfl⟩
      · cases next
      · exact sampleNonces_mono (by decide) account
      · exact sampleNonces_mono (by decide) account
    · rcases sample_block at_next with ⟨next, -⟩ | ⟨next, -⟩ | ⟨-, rfl⟩
      · cases next
      · cases next
      · exact le_rfl
    · cases at_next
  consumed := by
    intro n b at_n row mem
    obtain ⟨rfl, rfl, rfl⟩ := sample_row at_n mem
    decide +kernel
  once := by
    intro n b at_n row mem other mem' _ _
    rw [(sample_row at_n mem).2.2, (sample_row at_n mem').2.2]

def sampleHead : Head := ⟨2, sampleDigest sampleChain⟩

theorem found_of_toOption {x : Except String (Option RecoveredPending)}
    (h : x.toOption.join.isSome = true) : ∃ recovered, x = .ok (some recovered) := by
  match x, h with
  | .ok (some recovered), _ => exact ⟨recovered, rfl⟩

/-- The call finds the transaction, and the bisection its block. -/
theorem sample_recovery :
    (∃ log recovered, Ran (contract sampleDigest sampleBody)
        (recoverPendingTransaction sampleRecord sampleAccount ⟨none, true⟩) sampleNetwork log
        (.ok (some recovered)) sampleNetwork ∧
      ∃ (u : Network) (head : Head) (intent : PendingIntent),
        Recovered sampleBody sampleAccount intent (u.chain.take (head.number + 1)) recovered) ∧
    ∃ log, Ran (contract sampleDigest sampleBody)
      (search sampleAccount ⟨none, true⟩ sampleIntent sampleHead) sampleNetwork log (.ok 1)
      sampleNetwork := by
  obtain ⟨-, recovers, searches⟩ := pending_nonce_recovery sampleDigest sampleBody sampleRecord
    sampleAccount ⟨none, true⟩
  constructor
  · have ran := ran_replay (c := contract sampleDigest sampleBody) sampleGiven_truthful
      (recoverPendingTransaction sampleRecord sampleAccount ⟨none, true⟩)
      (readOnly_recoverPendingTransaction sampleRecord)
    have returns : (Program.replay sampleGiven sampleNetwork
        (recoverPendingTransaction sampleRecord sampleAccount ⟨none, true⟩)).2.toOption.join.isSome =
        true := by decide +kernel
    obtain ⟨recovered, ends⟩ := found_of_toOption returns
    have lawful : ∀ c ∈ sampleNetwork.trace.seen, Lawful sampleBody c := by
      intro c mem
      obtain rfl := List.mem_singleton.mp mem
      exact sample_lawful
    rw [ends] at ran
    obtain ⟨u, latest, head, intent, -, -, -, -, -, found⟩ := recovers ran sample_ideal lawful
    exact ⟨_, _, ran, u, head, intent, found⟩
  · have ran := ran_replay (c := contract sampleDigest sampleBody) sampleGiven_truthful
      (search sampleAccount ⟨none, true⟩ sampleIntent sampleHead) readOnly_search
    have asks : (Program.replay sampleGiven sampleNetwork
        (search sampleAccount ⟨none, true⟩ sampleIntent sampleHead)).1 =
        [⟨sampleNetwork, .getAccount, .ok (some sampleAccount)⟩,
          ⟨sampleNetwork, .count sampleAccount 1, .ok (8 : ℤ)⟩,
          ⟨sampleNetwork, .getAccount, .ok (some sampleAccount)⟩,
          ⟨sampleNetwork, .count sampleAccount 0, .ok (7 : ℤ)⟩] := by rfl
    have kept : same (some sampleAccount) sampleAccount = true := by decide +kernel
    have available : ∀ x ∈ (Program.replay sampleGiven sampleNetwork
        (search sampleAccount ⟨none, true⟩ sampleIntent sampleHead)).1,
        Available sampleAccount x := by
      rw [asks]
      simp only [List.forall_mem_cons]
      have eight : validCount 8 = true := by decide
      have seven : validCount 7 = true := by decide
      exact ⟨kept, eight, kept, seven, nofun⟩
    have consumes : Consumes sampleBody sampleAccount sampleIntent sampleHash :=
      ⟨by decide +kernel, by decide +kernel⟩
    have found := (searches ran available (.refl (by decide)) sample_lawful (by decide) 1 _
      sampleHash (by decide) rfl (List.mem_singleton_self _) consumes).1
    rw [found] at ran
    exact ⟨_, ran⟩

end Turret.P2P.PendingRecovery
