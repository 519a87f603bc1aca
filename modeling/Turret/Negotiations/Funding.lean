import Turret.Negotiations.Resubmission

/-! The evidence of funding. The transaction that a conversation is bound to
names the parties and the terms of the conversation, so that two conversations
share one only where these are the same. -/

namespace Turret.Negotiations

open Execution Tasks Function

variable {Digest : Type} {s t : World Digest} {chain : Chain} {row new : Thread}

/-- No two conversations are bound to one transaction, nor to one offer that it created. -/
def BoundOnce (chain : Chain) (w : World Digest) : Prop :=
  w.threads.Pairwise fun a b => ∀ x ∈ a.replacement, ∀ y ∈ b.replacement,
    x.hash ≠ y.hash ∧
    (a.market = b.market → (∀ hash hash', chain.created hash a.market x.id →
      chain.created hash' a.market x.id → hash = hash') → x.id ≠ y.id)

/-- Another conversation of the market, between the same two and on the same terms. -/
def Thread.Like (other row : Thread) : Prop :=
  other.id ≠ row.id ∧ other.market = row.market ∧ other.lender = row.lender ∧
    other.borrower = row.borrower ∧ other.latest.terms = row.latest.terms

instance (other row : Thread) : Decidable (other.Like row) :=
  inferInstanceAs (Decidable (_ ∧ _))

/-- A conversation that this step binds takes no transaction that one like it is bound to. -/
def BindsUnused (s t : World Digest) : Prop :=
  ∀ new ∈ t.threads, ∀ row ∈ s.threads, row.id = new.id ∧ row.replacement = none →
    ∀ other ∈ s.threads, other.Like row →
      ∀ x ∈ new.replacement, ∀ y ∈ other.replacement, y.hash ≠ x.hash

instance (s t : World Digest) : Decidable (BindsUnused s t) :=
  inferInstanceAs (Decidable (∀ new ∈ t.threads, ∀ row ∈ s.threads, _))

/-- A bound conversation is funded, by its own transaction. -/
structure Bound (chain : Chain) (w : World Digest) : Prop where
  numbered : Numbered w
  funded : ∀ row ∈ w.threads, ∀ x ∈ row.replacement,
    row.state = .funded ∧ Funds chain row x.hash x.id
  unused : ∀ a ∈ w.threads, ∀ b ∈ w.threads, a.id ≠ b.id →
    ∀ x ∈ a.replacement, ∀ y ∈ b.replacement, x.hash ≠ y.hash

theorem Bound.once (h : Bound chain s) : BoundOnce chain s := by
  refine (List.pairwise_map.mp h.numbered.nodup).imp_of_mem fun {a b} at_a at_b other x at_x y at_y => ?_
  have apart := h.unused a at_a b at_b other x at_x y at_y
  refine ⟨apart, fun market one same => apart (one _ _ (h.funded a at_a x at_x).2.2 ?_)⟩
  rw [market, same]
  exact (h.funded b at_b y at_y).2.2

/-- One transaction funds conversations of one market, between the same two and on the same
terms. -/
theorem Funds.same {a b : Thread} {hash : String} {id id' : ℕ} (h : Funds chain a hash id)
    (h' : Funds chain b hash id') :
    b.market = a.market ∧ b.lender = a.lender ∧ b.borrower = a.borrower ∧
      b.latest.terms = a.latest.terms := by
  have one := h'.1.symm.trans h.1
  simp only [createOffer, Transaction.mk.injEq, Calldata.createOffer.injEq] at one
  obtain ⟨lender, market, -, borrower, principal, collateral, interest, duration, expiresAt⟩ := one
  have days : b.latest.terms.durationDays = a.latest.terms.durationDays := by omega
  refine ⟨market, lender, borrower, ?_⟩
  rcases at_b : b.latest.terms with ⟨⟩
  rcases at_a : a.latest.terms with ⟨⟩
  simp_all

variable {svc : Service Digest} {signed : Signed} {src linked : Option Source} {result : Result}
  {action : Action} {selections : SourceKey → Option ℕ}

/-- A conversation that is bound moves no more, and `bind` alone binds one. -/
theorem Transition.replacement (h : Transition s src linked row action new selections)
    (funded : ∀ x ∈ row.replacement, row.state = .funded) :
    row.replacement = none ∧ (new.replacement = none ∨ ∃ ref hash l, action = .bind ref hash ∧
      l ∈ linked ∧ new = { row with
        state := .funded
        replacement := some ⟨l.id, hash, l.status, l.blockNumber, l.blockHash⟩ }) := by
  have unbound : row.state ≠ .funded → row.replacement = none := by
    intro other
    rcases bound : row.replacement with - | x
    · rfl
    · exact absurd (funded x bound) other
  cases h with
  | close ref ongoing =>
    have free := unbound fun state => by simp [state, State.started] at ongoing
    exact ⟨free, .inl free⟩
  | counter ref terms responseBy latest state =>
    have free := unbound (by simp [state])
    exact ⟨free, .inl free⟩
  | agree ref x account at_src state =>
    have free := unbound (by simp [state])
    exact ⟨free, .inl free⟩
  | start ref x at_src state =>
    have free := unbound (by simp [state])
    exact ⟨free, .inl free⟩
  | cancelled ref hash state =>
    have free := unbound (by simp [state])
    exact ⟨free, .inl free⟩
  | prepare ref x attempt at_src state =>
    have free := unbound (by simp [state])
    exact ⟨free, .inl free⟩
  | bind ref hash l at_linked state =>
    exact ⟨unbound (by simp [state]), .inr ⟨ref, hash, l, rfl, at_linked, rfl⟩⟩

/-- What is written over a row that is not bound: a row that is not bound, or one that is funded by
an unused transaction. -/
theorem Bound.upsert (h : Bound chain s) (numbered : Numbered t)
    (rows : t.threads = Table.upsert Thread.id new s.threads)
    (binds : ∀ x ∈ new.replacement, new.state = .funded ∧ Funds chain new x.hash x.id ∧
      ∀ other ∈ s.threads, other.id ≠ new.id → ∀ y ∈ other.replacement, y.hash ≠ x.hash) :
    Bound chain t where
  numbered := numbered
  funded := by
    intro row mem x at_x
    rcases Table.mem_of_mem_upsert (rows ▸ mem) with rfl | ⟨old, -⟩
    · exact ⟨(binds x at_x).1, (binds x at_x).2.1⟩
    · exact h.funded row old x at_x
  unused := by
    intro a at_a b at_b other x at_x y at_y
    rcases Table.mem_of_mem_upsert (rows ▸ at_a) with rfl | ⟨old_a, ne_a⟩
    · rcases Table.mem_of_mem_upsert (rows ▸ at_b) with rfl | ⟨old_b, ne_b⟩
      · exact absurd rfl other
      · exact ((binds x at_x).2.2 b old_b ne_b y at_y).symm
    · rcases Table.mem_of_mem_upsert (rows ▸ at_b) with rfl | ⟨old_b, -⟩
      · exact (binds y at_y).2.2 a old_a ne_a x at_x
      · exact h.unused a old_a b old_b other x at_x y at_y

/-- The evidence that was read is of the row as it stands. -/
theorem Gathered.funds_current {ref : Ref} {hash : String} {l : Source}
    (h : Gathered chain (.bind ref hash) src linked s) (at_linked : l ∈ linked)
    (found : s.get ref.threadId = some row) (revision : row.revision = ref.revision) :
    Funds chain row hash l.id := by
  obtain ⟨read, same, funds, -, later, found', order⟩ := h.funds ref hash rfl l at_linked
  cases Option.some.inj (found.symm.trans found')
  rcases order with rfl | after
  · exact funds
  · omega

theorem Committed.bound (h : Committed svc signed src linked s result t)
    (gathered : Gathered chain signed.envelope.action src linked s) (bound : Bound chain s)
    (unused : BindsUnused s t) : Bound chain t := by
  have numbered := h.since.numbered bound.numbered
  cases h with
  | replayed => exact bound
  | login => exact ⟨numbered, bound.funded, bound.unused⟩
  | opened row _ id revision state free =>
    refine bound.upsert numbered rfl fun x at_x => ?_
    rw [free] at at_x
    exact (Option.not_mem_none _ at_x).elim
  | moved ref row new selections _ at_ref found revision _ transition =>
    have mem := ((get_eq_some_iff bound.numbered).mp found).1
    have same := transition.kept_id.1
    obtain ⟨free, kept | ⟨ref', hash, l, is, at_linked, rfl⟩⟩ :=
      transition.replacement fun x at_x => (bound.funded row mem x at_x).1
    · refine bound.upsert numbered rfl fun x at_x => ?_
      change x ∈ new.replacement at at_x
      rw [kept] at at_x
      exact (Option.not_mem_none _ at_x).elim
    · rw [is] at at_ref gathered
      cases Option.some.inj at_ref
      have funds := gathered.funds_current at_linked found revision
      refine bound.upsert numbered rfl fun x at_x => ?_
      have fresh := unused _ (Table.mem_upsert_self _ _) row mem ⟨rfl, free⟩
      cases Option.mem_some_iff.mp at_x
      refine ⟨rfl, funds, fun other at_other ne y at_y one => ?_⟩
      obtain ⟨market, lender, borrower, terms⟩ :=
        funds.same (one ▸ (bound.funded other at_other y at_y).2)
      exact fresh other at_other ⟨ne, market, lender, borrower, terms⟩ _ at_x y at_y one

variable [DecidableEq Digest]

/-- Steps in which no conversation is bound to a transaction that its like is bound to. -/
def unusedStep (svc : Service Digest) (chain : Chain) :=
  admittedStep (machine svc chain) fun _ : ℕ => contract svc chain BindsUnused

theorem effect_bound
    (h : Effect (machine svc chain) (fun _ : ℕ => contract svc chain BindsUnused) s t)
    (bound : Bound chain s) : Bound chain t := by
  rcases h with rfl | ⟨_, unused, act⟩ | ⟨tick, ticked⟩
  · exact bound
  · cases act with
    | idle => exact bound
    | commit signed src linked result _ committed gathered =>
      exact committed.bound gathered bound unused
  · cases tick <;> cases ticked <;>
      exact ⟨⟨bound.numbered.nodup, bound.numbered.drawn⟩, bound.funded, bound.unused⟩

/-- In every run in which no conversation is bound to a transaction that its like is bound to. -/
theorem evidence_bound_once (svc : Service Digest) (chain : Chain) (s t : Submissions Digest)
    (fresh : Started s) (moves : List (Move ℕ Signed Tick))
    (run : Run (unusedStep svc chain) s moves t) : BoundOnce chain t.shared := by
  have init : Bound chain s.shared := by
    refine ⟨⟨?_, ?_⟩, ?_, ?_⟩ <;> simp [fresh.threads]
  have sound : Sound (fun _ => contract svc chain BindsUnused) (fun _ _ _ => True)
      (fun _ _ _ => True) s := started_sound fresh
  exact (sound.run compatible (Bound chain)
    (fun _ signed u bound => (safe_submit bound.numbered).mono (fun _ _ _ => trivial)
      fun _ _ given => given)
    (fun _ _ bound effect => effect_bound effect bound) init run).2.once

/-! ### One new offer for two old ones -/

/-- The two source offers are cancelled, and the new one is open. -/
def cancelledSources : ℕ → ℕ := fun id => if id = 9 then 1 else 5

/-- The borrower proposes the terms for both offers of the lender. -/
def twoConversations : Schedule :=
  submits 0 14 (atBlock 5 1000 allOpen)
      (sampleSigned borrower 1 (.open_ 1 "5e1f" sampleTerms 1100)) ++
    submits 0 14 (atBlock 5 1000 allOpen)
      (sampleSigned borrower 2 (.open_ 2 "5e1f" sampleTerms 1100))

/-- The lender agrees, starts, cancels and prepares, and binds the one new offer. -/
def replaces (thread nonce : ℕ) (cancel : String) : Schedule :=
  submits 0 15 (atBlock 5 1000 allOpen)
      (sampleSigned lender nonce (.agree (sampleRef thread 1 (thread + 1) borrower))) ++
    submits 0 15 (atBlock 5 1000 allOpen)
      (sampleSigned lender (nonce + 1) (.start (sampleRef thread 2 (thread + 1) borrower))) ++
    submits 0 17 (atBlock 6 1000 cancelledSources)
      (sampleSigned lender (nonce + 2) (.cancelled (sampleRef thread 3 (thread + 1) borrower) cancel)) ++
    submits 0 14 (atBlock 7 1000 cancelledSources)
      (sampleSigned lender (nonce + 3) (.prepare (sampleRef thread 4 (thread + 1) borrower))) ++
    submits 0 29 (atBlock 8 1000 cancelledSources)
      (sampleSigned lender (nonce + 4) (.bind (sampleRef thread 5 (thread + 1) borrower) "0xf1"))

/-- The transactions that conversations are bound to. -/
def evidenceOf (w : World Signed) : List (Option String) :=
  w.threads.map fun row => row.replacement.map Replacement.hash

theorem one_offer_bound_twice : ∃ t moves, Started sampleStart ∧
    Run (Step (machine sampleService sampleChain)) sampleStart moves t ∧
    evidenceOf t.shared = [some "0xf1", some "0xf1"] ∧ ¬BoundOnce sampleChain t.shared := by
  have computed : (System.exec (machine sampleService sampleChain) sampleCheck
      (fun _ _ _ => true) (twoConversations ++ replaces 0 1 "0xc1" ++ replaces 2 11 "0xc2")
      sampleStart).map (fun t => evidenceOf t.shared) = some [some "0xf1", some "0xf1"] := by
    decide +kernel
  obtain ⟨t, moves, run, evidence⟩ := reached_of_exec evidenceOf (fun _ _ _ moved _ => moved) computed
  refine ⟨t, moves, started_sample, run, evidence, fun once => ?_⟩
  have apart : (evidenceOf t.shared).Pairwise fun a b => ∀ h ∈ a, ∀ h' ∈ b, h ≠ h' := by
    refine List.pairwise_map.mpr (once.imp fun {a b} apart h at_h h' at_h' => ?_)
    obtain ⟨x, at_x, rfl⟩ := Option.map_eq_some_iff.mp at_h
    obtain ⟨y, at_y, rfl⟩ := Option.map_eq_some_iff.mp at_h'
    exact (apart x at_x y at_y).1
  rw [evidence] at apart
  exact (List.pairwise_cons.mp apart).1 _ (List.mem_singleton_self _) _ rfl _ rfl rfl

theorem unusedStep_of_test (s : Submissions Signed) (move : Move ℕ Signed Tick)
    (t : Submissions Signed) (moved : Step (machine sampleService sampleChain) s move t)
    (h : decide (BindsUnused s.shared t.shared) = true) :
    unusedStep sampleService sampleChain s move t := by
  have unused := of_decide_eq_true h
  exact ⟨moved, fun _ _ => unused⟩

theorem sample_evidence_bound_once : ∃ t moves,
    Run (unusedStep sampleService sampleChain) sampleStart moves t ∧
    evidenceOf t.shared = [some "0xf1", none] ∧ BoundOnce sampleChain t.shared := by
  have computed : (System.exec (machine sampleService sampleChain) sampleCheck
      (fun s _ t => decide (BindsUnused s t)) (twoConversations ++ replaces 0 1 "0xc1")
      sampleStart).map (fun t => evidenceOf t.shared) = some [some "0xf1", none] := by
    decide +kernel
  obtain ⟨t, moves, run, evidence⟩ := reached_of_exec evidenceOf unusedStep_of_test computed
  exact ⟨t, moves, run, evidence,
    evidence_bound_once sampleService sampleChain sampleStart t started_sample moves run⟩

end Turret.Negotiations
