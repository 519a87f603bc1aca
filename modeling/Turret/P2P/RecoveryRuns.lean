import Turret.P2P.NonceSearch

/-! What a recovery reports: the transaction that consumed the nonce on the
branch of the observed head, or that the nonce is unused there. -/

namespace Turret.P2P.PendingRecovery

open Tasks Branches

variable {digest : List ChainBlock → String} {body : String → Body} {account : String}
  {options : Options} {intent : PendingIntent} {head : Head} {s t : Network}
  {log : List (Exchange Network Query Answer)}

/-! ### The bisection -/

def isProbe (x : Exchange Network Query Answer) : Bool :=
  match x.question with
  | .count _ _ => true
  | _ => false

/-- The wallet is still the account, and what the node was asked it told. -/
def Available (account : String) (x : Exchange Network Query Answer) : Prop :=
  match x.question, x.answer with
  | .getAccount, .ok current => same current account = true
  | .count _ _, .ok count => validCount count = true
  | _, .ok _ => True
  | _, .error _ => False

theorem check_asks {out : Except String Unit}
    (ran : Ran (contract digest body) (check account options) s log out t) :
    log.filter isProbe = [] ∧ ((∀ x ∈ log, Available account x) → out = .ok ()) := by
  unfold check at ran
  split at ran
  · rcases ran_bind ran with ⟨e, rfl, asked⟩ | ⟨current, first, rest, u, rfl, asked, passed⟩
    · obtain ⟨v, -, -, -, rfl⟩ := ran_call asked
      exact ⟨rfl, fun available => (available _ (List.mem_singleton_self _)).elim⟩
    · obtain ⟨v, -, -, -, rfl⟩ := ran_call asked
      obtain ⟨rfl, -, ⟨changed, rfl⟩ | ⟨-, rfl⟩⟩ := ran_throwIf passed
      · refine ⟨rfl, fun available => ?_⟩
        have kept : same current account = true := available _ List.mem_cons_self
        rw [kept] at changed
        cases changed
      · exact ⟨rfl, fun _ => rfl⟩
  · obtain ⟨rfl, rfl, -⟩ := ran_pure ran
    exact ⟨rfl, fun _ => rfl⟩

/-- The next bounds. -/
def nextBounds (intent : PendingIntent) (lower upper : ℕ) (count : ℤ) : ℕ × ℕ :=
  let middle := lower + (upper - lower) / 2
  if intent.nonce < count then (lower, middle) else (middle + 1, upper)

/-- What one round of the bisection does: it stops, or it checks the wallet and probes the middle. -/
inductive Round (digest : List ChainBlock → String) (body : String → Body) (account : String)
    (options : Options) (intent : PendingIntent) (probes lower upper : ℕ) (s : Network) :
    List (Exchange Network Query Answer) → Except String (ℕ × ℕ) → Network → Prop
  | stop {t : Network} : ¬lower < upper →
      Round digest body account options intent probes lower upper s [] (.ok (lower, upper)) t
  | changed {log : List (Exchange Network Query Answer)} {e : String} {t : Network} :
      lower < upper → Ran (contract digest body) (check account options) s log (.error e) t →
      Round digest body account options intent probes lower upper s log (.error e) t
  | untold {first : List (Exchange Network Query Answer)} {u v t : Network} {e : String}
      {answer : Answer (.count account (lower + (upper - lower) / 2))} :
      lower < upper → Ran (contract digest body) (check account options) s first (.ok ()) u →
      (∀ count, answer = .ok count → validCount count = false) →
      Round digest body account options intent probes lower upper s
        (first ++ [⟨v, .count account (lower + (upper - lower) / 2), answer⟩]) (.error e) t
  | probe {first rest : List (Exchange Network Query Answer)} {u v w t : Network} {count : ℤ}
      {out : Except String (ℕ × ℕ)} :
      lower < upper → Ran (contract digest body) (check account options) s first (.ok ()) u →
      TellsCount v.chain account (lower + (upper - lower) / 2) count → validCount count = true →
      Ran (contract digest body)
        (bisect account options intent probes (nextBounds intent lower upper count).1
          (nextBounds intent lower upper count).2) w rest out t →
      Round digest body account options intent probes lower upper s
        (first ++ ⟨v, .count account (lower + (upper - lower) / 2), .ok count⟩ :: rest) out t

theorem bisect_round {probes lower upper : ℕ} {out : Except String (ℕ × ℕ)}
    (ran : Ran (contract digest body) (bisect account options intent (probes + 1) lower upper)
      s log out t) :
    Round digest body account options intent probes lower upper s log out t := by
  rw [bisect] at ran
  split at ran
  · rename_i less
    rcases ran_bind ran with ⟨e, rfl, checked⟩ | ⟨_, first, rest, u, rfl, checked, counting⟩
    · exact .changed less checked
    · rcases ran_bind counting with ⟨e, rfl, asked⟩ | ⟨count, ask, more, x, rfl, asked, deciding⟩
      · obtain ⟨v, -, -, -, rfl⟩ := ran_call asked
        exact .untold less checked fun other same => by cases same
      · obtain ⟨v, -, told, -, rfl⟩ := ran_call asked
        rcases ran_bind deciding with ⟨e, rfl, thrown⟩ | ⟨_, passing, later, y, rfl, passed, going⟩
        · obtain ⟨rfl, -, ⟨invalid, -⟩ | ⟨-, failed⟩⟩ := ran_throwIf thrown
          · exact .untold less checked fun other same => by
              cases same
              exact invalid
          · cases failed
        · obtain ⟨rfl, -, ⟨-, failed⟩ | ⟨valid, -⟩⟩ := ran_throwIf passed
          · cases failed
          · rw [List.nil_append, List.singleton_append]
            refine .probe less checked told ((Bool.not_eq_false _).mp valid) (w := y) ?_
            unfold nextBounds
            split at going
            · rename_i used
              simpa only [if_pos used] using going
            · rename_i unused
              simpa only [if_neg unused] using going
  · rename_i done
    obtain ⟨rfl, rfl, -⟩ := ran_pure ran
    exact .stop done

theorem bisect_probes {probes lower upper : ℕ} {out : Except String (ℕ × ℕ)}
    (ran : Ran (contract digest body) (bisect account options intent probes lower upper) s log out t) :
    (log.filter isProbe).length ≤ probes := by
  induction probes generalizing lower upper s log with
  | zero =>
    obtain ⟨-, rfl, -⟩ := ran_pure ran
    exact le_rfl
  | succ probes ih =>
    cases bisect_round ran with
    | stop done => exact Nat.zero_le _
    | changed less checked =>
      rw [(check_asks checked).1]
      exact Nat.zero_le _
    | untold less checked untold =>
      rw [List.filter_append, (check_asks checked).1]
      exact Nat.le_add_left 1 probes
    | probe less checked told valid more =>
      rw [List.filter_append, (check_asks checked).1, List.nil_append]
      exact Nat.succ_le_succ (ih more)

/-- Where the nonces are told, the bisection ends at the block in which the nonce was consumed. -/
theorem bisect_exact {probes lower upper : ℕ} {out : Except String (ℕ × ℕ)}
    (ran : Ran (contract digest body) (bisect account options intent probes lower upper) s log out t)
    (available : ∀ x ∈ log, Available account x) {anchor : List ChainBlock} {limit : ℕ}
    (along : ∀ x ∈ log, Shares limit x.state.chain anchor) (lawful : Lawful body anchor)
    {n : ℕ} {b : ChainBlock} {row : String} (at_n : (anchor)[n]? = some b)
    (row_mem : row ∈ b.transactions) (consumes : Consumes body account intent row)
    (below : lower ≤ n) (above : n ≤ upper) (within : upper ≤ limit)
    (small : upper - lower < 2 ^ probes) : out = .ok (n, n) := by
  induction probes generalizing lower upper s log with
  | zero =>
    obtain ⟨rfl, -, -⟩ := ran_pure ran
    have lower_eq : lower = n := by omega
    have upper_eq : upper = n := by omega
    rw [lower_eq, upper_eq]
  | succ probes ih =>
    cases bisect_round ran with
    | stop done =>
      have lower_eq : lower = n := by omega
      have upper_eq : upper = n := by omega
      rw [lower_eq, upper_eq]
    | changed less checked => cases (check_asks checked).2 available
    | @untold first _ v _ _ answer less checked untold =>
      have told := available _ (List.mem_append_right first (List.mem_singleton_self _))
      cases answer with
      | error e => exact told.elim
      | ok count =>
        have valid : validCount count = true := told
        rw [untold count rfl] at valid
        cases valid
    | @probe first rest _ v w _ count _ less checked told valid more =>
      have shares : Shares limit v.chain anchor := 
        along _ (List.mem_append_right first List.mem_cons_self)
      -- the count is that of the middle on the anchored branch
      obtain ⟨b', at_middle, rfl⟩ := told
      rw [(shares.of_le (by omega)).getElem?] at at_middle
      have power : 2 ^ (probes + 1) = 2 * 2 ^ probes := by ring
      have later := fun x mem => available x (List.mem_append_right first (List.mem_cons_of_mem _ mem))
      have alongside := fun x mem => along x (List.mem_append_right first (List.mem_cons_of_mem _ mem))
      unfold nextBounds at more
      split at more
      · have reached : n ≤ lower + (upper - lower) / 2 := by
          by_contra before
          have unused := lawful.before at_n row_mem consumes at_middle (by omega)
          omega
        exact ih more later alongside below reached (by dsimp only; omega) (by dsimp only; omega)
      · have passed : lower + (upper - lower) / 2 < n := by
          by_contra after
          have used := lawful.after at_n row_mem consumes at_middle (by omega)
          omega
        exact ih more later alongside passed above within (by dsimp only; omega)

/-- The search of the node's history, where it is told. -/
theorem search_exact {out : Except String ℕ}
    (ran : Ran (contract digest body) (search account options intent head) s log out t)
    (available : ∀ x ∈ log, Available account x)
    (kept : Shares head.number t.chain s.chain) (lawful : Lawful body s.chain)
    (small : head.number < 2 ^ 64) {n : ℕ} {b : ChainBlock} {row : String} (le : n ≤ head.number)
    (at_n : (s.chain)[n]? = some b) (row_mem : row ∈ b.transactions)
    (consumes : Consumes body account intent row) :
    out = .ok n ∧ (log.filter isProbe).length ≤ 64 := by
  have along : ∀ x ∈ log, Shares head.number x.state.chain s.chain := by
    intro x mem
    obtain ⟨before, after, -⟩ := (ran.between readOnly_search).2 x mem
    have at_x := after.stayed head.number s.chain (before.seen _ s.current) kept
    exact at_x.symm.trans kept
  have exact : ∀ {first : List (Exchange Network Query Answer)} {u : Network}
      {bounds : Except String (ℕ × ℕ)},
      Ran (contract digest body) (bisect account options intent 64 0 head.number) s first bounds u →
      (∀ x ∈ first, x ∈ log) → bounds = .ok (n, n) := fun bisected part =>
    bisect_exact bisected (fun x mem => available x (part x mem))
      (fun x mem => along x (part x mem)) lawful at_n row_mem consumes (Nat.zero_le n) le le_rfl
      (by omega)
  rcases ran_bind ran with ⟨e, rfl, bisected⟩ | ⟨bounds, first, rest, u, rfl, bisected, ended⟩
  · cases exact bisected fun _ mem => mem
  · cases exact bisected fun _ mem => List.mem_append_left _ mem
    rcases ran_bind ended with ⟨e, rfl, thrown⟩ | ⟨_, none, last, v, rfl, passed, returned⟩
    · obtain ⟨-, -, ⟨apart, -⟩ | ⟨-, failed⟩⟩ := ran_throwIf thrown
      · exact absurd rfl apart
      · cases failed
    · obtain ⟨rfl, -⟩ := ran_throwIf passed
      obtain ⟨rfl, rfl, -⟩ := ran_pure returned
      rw [List.append_nil, List.append_nil]
      exact ⟨rfl, bisect_probes bisected⟩

/-! ### What is reported -/

/-- A transaction in the block, up to the head, of the chain as it was. -/
def Mined (c : List ChainBlock) (last : ℕ) (hash : String) : Prop :=
  ∃ n ≤ last, ∃ b, (c)[n]? = some b ∧ ∃ row ∈ b.transactions, lower row = lower hash

/-- At one moment the chain told so, and at a later one it still had the head. -/
def Checked (digest : List ChainBlock → String) (head : Head) (tells : List ChainBlock → Prop)
    (s t : Network) : Prop :=
  ∃ v w : Network, Later s.trace v.trace ∧ Later v.trace w.trace ∧ Later w.trace t.trace ∧
    tells v.chain ∧ Stands digest w.chain head.number head.hash

theorem Checked.weaken {tells : List ChainBlock → Prop} {r u : Network}
    (h : Checked digest head tells s t) (before : Later r.trace s.trace)
    (after : Later t.trace u.trace) : Checked digest head tells r u := by
  obtain ⟨v, w, first, second, third, told, stands⟩ := h
  exact ⟨v, w, before.trans first, second, third.trans after, told, stands⟩

/-- What the report of a transaction says of it. -/
structure Reports (account : String) (intent : PendingIntent) (transaction : Transaction)
    (recovered : RecoveredPending) : Prop where
  hash : recovered.hash = transaction.hash
  consumes : consumes account intent transaction = true
  equivalent : recovered.equivalent = true ↔ same transaction.target intent.target = true ∧
    same transaction.input intent.input = true ∧ transaction.value = (bigInt intent.value : ℤ)
  cancelled : recovered.cancelled = true ↔ same transaction.target account = true ∧
    transaction.input = "0x" ∧ transaction.value = 0

theorem canonical_ok {a : Unit}
    (ran : Ran (contract digest body) (canonical account options head) s log (.ok a) t) :
    ∃ w : Network, Later s.trace w.trace ∧ Later w.trace t.trace ∧
      Stands digest w.chain head.number head.hash := by
  obtain ⟨_, first, rest, u, rfl, checked, asking⟩ := ran_bind_ok ran
  obtain ⟨block, ask, more, v, rfl, asked, passing⟩ := ran_bind_ok asking
  obtain ⟨_, none, last, x, rfl, passed, ended⟩ := ran_bind_ok passing
  obtain ⟨w, before, told, after, -⟩ := ran_call asked
  obtain ⟨unchanged, later⟩ := ran_throwIf_ok passed
  obtain ⟨b, -, -, hashes⟩ : TellsBlock digest w.chain head.number block := told
  have upto := (checked.between readOnly_check).1
  have onward := (ended.between readOnly_check).1
  refine ⟨w, upto.trans before, (after.trans later).trans onward, ?_⟩
  rw [Bool.not_eq_false] at unchanged
  cases at_hash : block.hash with
  | none =>
    rw [at_hash] at unchanged
    cases unchanged
  | some hash =>
    rw [at_hash, same_iff] at unchanged
    obtain ⟨inside, digests⟩ := hashes hash at_hash
    exact ⟨inside, unchanged.symm.trans digests⟩

theorem verify_ok {transaction : Transaction} {recovered : RecoveredPending}
    (ran : Ran (contract digest body) (verify account options intent head transaction) s log
      (.ok recovered) t) :
    Reports account intent transaction recovered ∧
      Checked digest head (fun c => Mined c head.number transaction.hash) s t := by
  obtain ⟨_, l₁, l₂, u₁, rfl, checked, ran₁⟩ := ran_bind_ok ran
  obtain ⟨_, l₃, l₄, u₂, rfl, admitting, ran₂⟩ := ran_bind_ok ran₁
  obtain ⟨found, l₅, l₆, u₃, rfl, asked, ran₃⟩ := ran_bind_ok ran₂
  obtain ⟨receipt, l₇, l₈, u₄, rfl, lifted, ran₄⟩ := ran_bind_ok ran₃
  obtain ⟨_, l₉, l₁₀, u₅, rfl, confirming, ran₅⟩ := ran_bind_ok ran₄
  obtain ⟨block, l₁₁, l₁₂, u₆, rfl, reading, ran₆⟩ := ran_bind_ok ran₅
  obtain ⟨_, l₁₃, l₁₄, u₇, rfl, matching, ran₇⟩ := ran_bind_ok ran₆
  obtain ⟨_, l₁₅, l₁₆, u₈, rfl, standing, ended⟩ := ran_bind_ok ran₇
  have before := (checked.between readOnly_check).1
  obtain ⟨admitted, step₁⟩ := ran_throwIf_ok admitting
  obtain ⟨v₁, step₂, -, step₃, -⟩ := ran_call asked
  obtain ⟨-, -, step₄⟩ := ran_lift lifted
  obtain ⟨confirmed, step₅⟩ := ran_throwIf_ok confirming
  obtain ⟨v, step₆, told, step₇, -⟩ := ran_call reading
  obtain ⟨matched, step₈⟩ := ran_throwIf_ok matching
  obtain ⟨w, step₉, step₁₀, stands⟩ := canonical_ok standing
  obtain ⟨same, -, last⟩ := ran_pure ended
  cases same
  obtain ⟨b, at_number, rows, -⟩ : TellsBlock digest v.chain receipt.blockNumber block := told
  rw [Bool.not_eq_false, admits] at admitted
  simp only [Bool.and_eq_true] at admitted
  obtain ⟨⟨⟨-, consumes⟩, -⟩, -⟩ := admitted
  rw [Bool.not_eq_false, confirms] at confirmed
  simp only [Bool.and_eq_true, decide_eq_true_eq] at confirmed
  obtain ⟨⟨-, upto⟩, -⟩ := confirmed
  rw [not_or, Bool.not_eq_false, Bool.not_eq_false, List.any_eq_true] at matched
  obtain ⟨-, row, row_mem, row_same⟩ := matched
  refine ⟨⟨rfl, consumes, ?_, ?_⟩, v, w, ?_, step₇.trans (step₈.trans step₉), step₁₀.trans last,
    ⟨receipt.blockNumber, upto, b, at_number, row, rows ▸ row_mem, same_iff.mp row_same⟩, stands⟩
  · simp only [Bool.and_eq_true, beq_iff_eq, and_assoc]
  · simp only [Bool.and_eq_true, beq_iff_eq, and_assoc]
  · exact before.trans (step₁.trans (step₂.trans (step₃.trans (step₄.trans (step₅.trans step₆)))))

theorem candidateAt_ok {number : ℕ} {candidate : Option Transaction}
    (ran : Ran (contract digest body) (candidateAt account intent number) s log (.ok candidate) t) :
    ∀ transaction ∈ candidate, Genuine body transaction := by
  obtain ⟨transactions, first, rest, u, rfl, asked, ended⟩ := ran_bind_ok ran
  obtain ⟨v, -, told, -, -⟩ := ran_call asked
  obtain ⟨same, -, -⟩ := ran_pure ended
  cases same
  obtain ⟨b, -, -, genuine⟩ : TellsFullBlock body v.chain number transactions := told
  exact fun transaction found => genuine transaction (List.mem_of_find?_eq_some found)

theorem located_ok {candidate : Option Transaction}
    (ran : Ran (contract digest body) (located account options intent head) s log (.ok candidate) t) :
    ∀ transaction ∈ candidate, Genuine body transaction := by
  rcases ran_orElse ran with ⟨found, same, ran⟩ | ⟨e, first, rest, u, rfl, -, handled⟩
  · cases same
    obtain ⟨number, first, rest, u, rfl, -, ended⟩ := ran_bind_ok ran
    exact candidateAt_ok ended
  · obtain ⟨_, first, rest, v, rfl, -, ended⟩ := ran_bind_ok handled
    obtain ⟨same, -, -⟩ := ran_pure ended
    cases same
    exact nofun

theorem scan_ok {blocks height : ℕ} {candidate : Option Transaction}
    (ran : Ran (contract digest body) (scan account options intent blocks height) s log
      (.ok candidate) t) :
    ∀ transaction ∈ candidate, Genuine body transaction := by
  induction blocks generalizing height s log with
  | zero =>
    obtain ⟨same, -, -⟩ := ran_pure ran
    cases same
    exact nofun
  | succ blocks ih =>
    obtain ⟨_, first, rest, u, rfl, -, reading⟩ := ran_bind_ok ran
    obtain ⟨found, read, more, v, rfl, read_ran, ended⟩ := ran_bind_ok reading
    cases found with
    | none => exact ih ended
    | some transaction =>
      obtain ⟨same, -, -⟩ := ran_pure ended
      cases same
      rcases ran_orElse read_ran with ⟨_, same, ran⟩ | ⟨e, _, _, w, rfl, -, failed⟩
      · cases same
        exact candidateAt_ok ran
      · cases (ran_fail failed).1

/-- What a report is: one of a genuine transaction in a block up to the head. -/
def Reported (digest : List ChainBlock → String) (body : String → Body) (account : String)
    (intent : PendingIntent) (head : Head) (s t : Network) (recovered : RecoveredPending) : Prop :=
  ∃ transaction, Genuine body transaction ∧ Reports account intent transaction recovered ∧
    Checked digest head (fun c => Mined c head.number transaction.hash) s t

/-- What `null` is: the nonce was unused after the block of the head. -/
def Unspent (account : String) (intent : PendingIntent) (last : ℕ) (c : List ChainBlock) : Prop :=
  ∃ b, (c)[last]? = some b ∧ (b.nonces (lower account) : ℤ) ≤ intent.nonce

/-- The outcome that a search may have. -/
def Outcome (digest : List ChainBlock → String) (body : String → Body) (account : String)
    (intent : PendingIntent) (head : Head) (s t : Network) : Option RecoveredPending → Prop
  | some recovered => Reported digest body account intent head s t recovered
  | none => Checked digest head (Unspent account intent head.number) s t

theorem Outcome.weaken {result : Option RecoveredPending} {r u : Network}
    (h : Outcome digest body account intent head s t result) (before : Later r.trace s.trace)
    (after : Later t.trace u.trace) : Outcome digest body account intent head r u result := by
  cases result with
  | none => exact Checked.weaken h before after
  | some recovered =>
    obtain ⟨transaction, genuine, reports, mined⟩ := h
    exact ⟨transaction, genuine, reports, mined.weaken before after⟩

/-- A verified transaction is the outcome. -/
theorem verified {transaction : Transaction} (genuine : Genuine body transaction)
    {result : Option RecoveredPending}
    (ran : Ran (contract digest body)
      (do
        let recovered ← verify account options intent head transaction
        pure (some recovered)) s log (.ok result) t) :
    (∃ recovered, result = some recovered) ∧
      Outcome digest body account intent head s t result := by
  obtain ⟨recovered, first, rest, u, rfl, verifying, ended⟩ := ran_bind_ok ran
  obtain ⟨same, -, last⟩ := ran_pure ended
  cases same
  obtain ⟨reports, mined⟩ := verify_ok verifying
  exact ⟨⟨recovered, rfl⟩, transaction, genuine, reports, mined.weaken (.refl _) last⟩

theorem byReplacement_ok {hash : String} {result : Option RecoveredPending}
    (ran : Ran (contract digest body) (byReplacement account options intent head hash) s log
      (.ok result) t) :
    Outcome digest body account intent head s t result := by
  obtain ⟨_, first, rest, u, rfl, passed, asking⟩ := ran_bind_ok ran
  obtain ⟨transaction, ask, more, v, rfl, asked, verifying⟩ := ran_bind_ok asking
  obtain ⟨-, step₁⟩ := ran_throwIf_ok passed
  obtain ⟨w, step₂, genuine, step₃, -⟩ := ran_call asked
  exact (verified genuine verifying).2.weaken (step₁.trans (step₂.trans step₃)) (.refl _)

theorem direct_ok {hash : String} {recovered : RecoveredPending}
    (ran : Ran (contract digest body) (direct account options intent head hash) s log
      (.ok (some recovered)) t) :
    Outcome digest body account intent head s t (some recovered) := by
  rcases ran_orElse ran with ⟨result, same, ran⟩ | ⟨e, first, rest, u, rfl, -, handled⟩
  · cases same
    obtain ⟨receipt, first, rest, u, rfl, asked, going⟩ := ran_bind_ok ran
    obtain ⟨v, step₁, -, step₂, -⟩ := ran_call asked
    cases receipt with
    | none => cases (ran_pure going).1
    | some receipt =>
      obtain ⟨transaction, ask, more, w, rfl, asked', verifying⟩ := ran_bind_ok going
      obtain ⟨x, step₃, genuine, step₄, -⟩ := ran_call asked'
      exact (verified genuine verifying).2.weaken
        (step₁.trans (step₂.trans (step₃.trans step₄))) (.refl _)
  · obtain ⟨_, first, rest, v, rfl, -, ended⟩ := ran_bind_ok handled
    cases (ran_pure ended).1

theorem recoverByNonce_ok {result : Option RecoveredPending}
    (ran : Ran (contract digest body) (recoverByNonce account options intent head) s log
      (.ok result) t) :
    Outcome digest body account intent head s t result := by
  obtain ⟨nonce, first, rest, u, rfl, asked, passing⟩ := ran_bind_ok ran
  obtain ⟨_, pass, more, v, rfl, passed, deciding⟩ := ran_bind_ok passing
  obtain ⟨x, step₁, told, step₂, -⟩ := ran_call asked
  obtain ⟨-, step₃⟩ := ran_throwIf_ok passed
  obtain ⟨b, at_head, rfl⟩ : TellsCount x.chain account head.number nonce := told
  split at deciding
  · rename_i unused
    obtain ⟨_, check, last, w, rfl, standing, ended⟩ := ran_bind_ok deciding
    obtain ⟨same, -, ends⟩ := ran_pure ended
    cases same
    obtain ⟨y, before, after, stands⟩ := canonical_ok standing
    exact ⟨x, y, step₁, step₂.trans (step₃.trans before), after.trans ends, ⟨b, at_head, unused⟩,
      stands⟩
  · obtain ⟨atNonce, locate, later, w, rfl, locating, scanning⟩ := ran_bind_ok deciding
    obtain ⟨candidate, scanned, last, y, rfl, scan_ran, concluding⟩ := ran_bind_ok scanning
    have upto : Later s.trace y.trace := step₁.trans (step₂.trans (step₃.trans
      ((locating.between readOnly_located).1.trans (scan_ran.between (readOnly_orScan _)).1)))
    have genuine : ∀ transaction ∈ candidate, Genuine body transaction := by
      cases atNonce with
      | none => exact scan_ok scan_ran
      | some transaction =>
        obtain ⟨same, -, -⟩ := ran_pure scan_ran
        cases same
        exact located_ok locating
    cases candidate with
    | none =>
      obtain ⟨_, check, ending, z, rfl, -, failed⟩ := ran_bind_ok concluding
      cases (ran_fail failed).1
    | some transaction =>
      exact (verified (genuine transaction rfl) concluding).2.weaken upto (.refl _)

end Turret.P2P.PendingRecovery
