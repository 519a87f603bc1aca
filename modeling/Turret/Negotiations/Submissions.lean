import Turret.Negotiations.Transitions

/-! What a submission may rely on between its reads, and what its transaction
does: the time it read has been reached, and the evidence it bound is of the
conversation as it stands. -/

namespace Turret.Negotiations

open Execution Tasks Tasks.Program Function

variable {Digest : Type}

/-- A conversation has an identifier of its own, and `randomUUID` draws new ones. -/
structure Numbered (w : World Digest) : Prop where
  nodup : (w.threads.map Thread.id).Nodup
  drawn : ∀ row ∈ w.threads, row.id < w.uuids

/-- The row of the identifier is this one, or one that came after it. -/
def Kept (w : World Digest) (id : ℕ) (row : Thread) : Prop :=
  ∃ later, w.get id = some later ∧ (later = row ∨ row.revision < later.revision)

/-- What a submission may rely on. -/
structure Since (s t : World Digest) : Prop where
  now : s.now ≤ t.now
  chainTime : s.chainTime ≤ t.chainTime
  numbered : Numbered s → Numbered t
  kept : Numbered s → ∀ id row, s.get id = some row → Kept t id row
  answered : ∀ account nonce row, s.nonceRow account nonce = some row →
    t.nonceRow account nonce = some row

theorem Since.refl (s : World Digest) : Since s s where
  now := le_rfl
  chainTime := le_rfl
  numbered := id
  kept := fun _ _ row found => ⟨row, found, .inl rfl⟩
  answered := fun _ _ _ found => found

variable {s t u : World Digest}

theorem Kept.trans {id : ℕ} {row : Thread} (h : Kept s id row) (numbered : Numbered s)
    (later : Since s t) : Kept t id row := by
  obtain ⟨mid, found, order⟩ := h
  obtain ⟨last, found', order'⟩ := later.kept numbered id mid found
  refine ⟨last, found', ?_⟩
  rcases order with rfl | before
  · exact order'
  · rcases order' with rfl | after
    · exact .inr before
    · exact .inr (before.trans after)

theorem Since.trans (h : Since s t) (h' : Since t u) : Since s u where
  now := h.now.trans h'.now
  chainTime := h.chainTime.trans h'.chainTime
  numbered := h'.numbered ∘ h.numbered
  kept := fun numbered id row found => (h.kept numbered id row found).trans (h.numbered numbered) h'
  answered := fun account nonce row found =>
    h'.answered account nonce row (h.answered account nonce row found)

/-- The transaction `hash` of the lender offered the agreed terms, and created the offer. -/
def Funds (chain : Chain) (row : Thread) (hash : String) (id : ℕ) : Prop :=
  chain.transaction hash = ⟨row.lender, row.market, 0, createOffer row⟩ ∧
    chain.created hash row.market id

/-- What a submission has read when its transaction begins. -/
structure Gathered (chain : Chain) (action : Action) (src linked : Option Source)
    (w : World Digest) : Prop where
  reached : ∀ x ∈ src, x.now ≤ w.chainTime
  funds : ∀ ref hash, action = .bind ref hash → ∀ l ∈ linked, ∃ row,
    row.revision = ref.revision ∧ Funds chain row hash l.id ∧ Numbered w ∧ Kept w ref.threadId row

theorem Gathered.stable {chain : Chain} {action : Action} {src linked : Option Source}
    (h : Gathered chain action src linked s) (later : Since s t) :
    Gathered chain action src linked t where
  reached := fun x at_src => (h.reached x at_src).trans later.chainTime
  funds := by
    intro ref hash is l at_linked
    obtain ⟨row, revision, funds, numbered, kept⟩ := h.funds ref hash is l at_linked
    exact ⟨row, revision, funds, later.numbered numbered, kept.trans numbered later⟩

/-- Everything that one action of a submission does. -/
inductive Act (svc : Service Digest) (chain : Chain) (s : World Digest) : World Digest → Prop
  | idle : Act svc chain s s
  | commit (signed : Signed) (src linked : Option Source) (result : Result) (t : World Digest) :
      Committed svc signed src linked s result t →
      Gathered chain signed.envelope.action src linked s → Act svc chain s t

/-! ### The rows of a transaction -/

theorem get_eq_some_iff (numbered : Numbered s) {id : ℕ} {row : Thread} :
    s.get id = some row ↔ row ∈ s.threads ∧ row.id = id :=
  Table.find?_eq_some_iff numbered.nodup id

theorem answered_accept {svc : Service Digest} {signed : Signed} {done : Result × World Digest}
    {now : ℕ} (same : done.2.nonces = s.nonces) (account : Address) (nonce : ℕ)
    (row : NonceRow Digest) (found : s.nonceRow account nonce = some row) :
    (accept svc signed done now).nonceRow account nonce = some row := by
  simp only [World.nonceRow, accept, same, List.find?_append] at found ⊢
  rw [found, Option.some_or]

/-- A transaction that keeps the rows, or writes one that is new or has moved on. -/
theorem Numbered.record {svc : Service Digest} {signed : Signed} {row : Thread}
    {selections : SourceKey → Option ℕ} (numbered : Numbered s) (bound : row.id ≤ s.uuids) :
    Numbered (accept svc signed (record signed row selections s) s.now) where
  nodup := Table.keys_upsert numbered.nodup
  drawn := by
    intro other mem
    rcases Table.mem_of_mem_upsert mem with rfl | ⟨old, -⟩
    · exact Nat.lt_of_le_of_lt bound (Nat.lt_add_of_pos_right Nat.two_pos)
    · exact (numbered.drawn other old).trans (Nat.lt_add_of_pos_right Nat.two_pos)

theorem Kept.record {svc : Service Digest} {signed : Signed} {row : Thread}
    {selections : SourceKey → Option ℕ} (numbered : Numbered s) (bound : row.id ≤ s.uuids)
    (onward : ∀ old, s.get row.id = some old → old.revision < row.revision) (id : ℕ) (old : Thread)
    (found : s.get id = some old) :
    Kept (accept svc signed (record signed row selections s) s.now) id old := by
  have after : Numbered (accept svc signed (Negotiations.record signed row selections s) s.now) :=
    numbered.record bound
  obtain ⟨mem, rfl⟩ := (get_eq_some_iff numbered).mp found
  by_cases same : old.id = row.id
  · refine ⟨row, (get_eq_some_iff after).mpr ⟨Table.mem_upsert_self row _, same.symm⟩, .inr ?_⟩
    exact onward old (same ▸ found)
  · exact ⟨old, (get_eq_some_iff after).mpr ⟨Table.mem_upsert_of_ne mem same, rfl⟩, .inl rfl⟩

theorem Transition.kept_id {src linked : Option Source} {row new : Thread} {action : Action}
    {selections : SourceKey → Option ℕ} (h : Transition s src linked row action new selections) :
    new.id = row.id ∧ new.sourceKey = row.sourceKey := by
  cases h <;> exact ⟨rfl, rfl⟩

theorem Committed.since {svc : Service Digest} {signed : Signed} {src linked : Option Source}
    {result : Result} (h : Committed svc signed src linked s result t) : Since s t := by
  cases h with
  | replayed => exact .refl s
  | login =>
    exact
      { now := le_rfl
        chainTime := le_rfl
        numbered := fun numbered =>
          ⟨numbered.nodup, fun row mem => (numbered.drawn row mem).trans (Nat.lt_succ_self _)⟩
        kept := fun _ _ row found => ⟨row, found, .inl rfl⟩
        answered := answered_accept rfl }
  | opened row _ id =>
    have onward : Numbered s → ∀ old, s.get row.id = some old → old.revision < row.revision := by
      intro numbered old found
      obtain ⟨mem, same⟩ := (get_eq_some_iff numbered).mp found
      exact absurd (numbered.drawn old mem) (by rw [same, id]; exact lt_irrefl _)
    exact
      { now := le_rfl
        chainTime := le_rfl
        numbered := fun numbered => numbered.record id.le
        kept := fun numbered => Kept.record numbered id.le (onward numbered)
        answered := answered_accept rfl }
  | moved ref row new selections _ _ found _ _ transition =>
    have same : (advanced row new s.now).id = row.id := transition.kept_id.1
    have bound : Numbered s → (advanced row new s.now).id ≤ s.uuids := fun numbered =>
      same ▸ (numbered.drawn row ((get_eq_some_iff numbered).mp found).1).le
    have onward : Numbered s → ∀ old, s.get (advanced row new s.now).id = some old →
        old.revision < (advanced row new s.now).revision := by
      intro numbered old at_row
      obtain ⟨mem, key⟩ := (get_eq_some_iff numbered).mp at_row
      have is : old = row := Table.eq_of_key numbered.nodup mem
        ((get_eq_some_iff numbered).mp found).1 (key.trans same)
      exact is ▸ Nat.lt_succ_self _
    exact
      { now := le_rfl
        chainTime := le_rfl
        numbered := fun numbered => numbered.record (bound numbered)
        kept := fun numbered => Kept.record numbered (bound numbered) (onward numbered)
        answered := answered_accept rfl }

/-- The answer is the one kept for these signed bytes. -/
def Answered (svc : Service Digest) (signed : Signed) (result : Result) (w : World Digest) : Prop :=
  ∃ row, w.nonceRow signed.envelope.account signed.envelope.nonce = some row ∧
    row.hash = svc.digest signed ∧ row.result = result

theorem Answered.stable {svc : Service Digest} {signed : Signed} {result : Result}
    (h : Answered svc signed result s) (later : Since s t) : Answered svc signed result t := by
  obtain ⟨row, found, same⟩ := h
  exact ⟨row, later.answered _ _ _ found, same⟩

theorem answered_of_accept {svc : Service Digest} {signed : Signed} {done : Result × World Digest}
    {now : ℕ} (same : done.2.nonces = s.nonces)
    (new_nonce : s.nonceRow signed.envelope.account signed.envelope.nonce = none) :
    Answered svc signed done.1 (accept svc signed done now) := by
  refine ⟨⟨signed.envelope.account, signed.envelope.nonce, svc.digest signed, done.1, now⟩, ?_, rfl, rfl⟩
  simp only [World.nonceRow, accept, same, List.find?_append] at new_nonce ⊢
  rw [new_nonce, Option.none_or]
  simp

theorem Committed.answered {svc : Service Digest} {signed : Signed} {src linked : Option Source}
    {result : Result} (h : Committed svc signed src linked s result t) :
    Answered svc signed result t := by
  cases h with
  | replayed prior found same => exact ⟨prior, found, same, rfl⟩
  | login new_nonce => exact answered_of_accept rfl new_nonce
  | opened row new_nonce => exact answered_of_accept rfl new_nonce
  | moved ref row new selections new_nonce => exact answered_of_accept rfl new_nonce

theorem Act.since {svc : Service Digest} {chain : Chain} (h : Act svc chain s t) : Since s t := by
  cases h with
  | idle => exact .refl s
  | commit signed src linked result _ committed => exact committed.since

theorem Since.tick {now chainTime : ℕ} (clock : s.now ≤ now) (chain : s.chainTime ≤ chainTime) :
    Since s { s with now, chainTime } where
  now := clock
  chainTime := chain
  numbered := fun numbered => ⟨numbered.nodup, numbered.drawn⟩
  kept := fun _ _ row found => ⟨row, found, .inl rfl⟩
  answered := fun _ _ _ found => found

theorem environment_since {tick : Tick} (h : environment tick s = some t) : Since s t := by
  cases tick with
  | clock seconds =>
    cases h
    exact .tick (Nat.le_add_right _ _) le_rfl
  | chain seconds =>
    cases h
    exact .tick le_rfl (Nat.le_add_right _ _)

/-! ### Submissions -/

theorem signedRow_ok {config : Market} {ref : Ref} {account : Address} {row : Thread}
    (h : signedRow config ref account s = .ok row) :
    s.get ref.threadId = some row ∧ row.market = config.address ∧ row.revision = ref.revision := by
  simp only [signedRow, World.visible, bind_eq_ok, revertIf_eq_ok, orRevert_eq_ok, pure_eq_ok,
    not_or, not_not] at h
  obtain ⟨_, ⟨_, found, -, -, rfl⟩, -, ⟨market, revision, -⟩, rfl⟩ := h
  exact ⟨found, market, revision⟩

/-- A step that is no `bind` has only to know when it read its source. -/
theorem Gathered.of_source {chain : Chain} {action : Action} {x : Source} (reached : x.now ≤ s.chainTime) :
    Gathered chain action (some x) none s where
  reached := fun _ is => Option.mem_some_iff.mp is ▸ reached
  funds := fun _ _ _ _ absent => (Option.not_mem_none _ absent).elim

theorem Gathered.of_nothing {chain : Chain} {action : Action} : Gathered chain action none none s where
  reached := fun _ absent => (Option.not_mem_none _ absent).elim
  funds := fun _ _ _ _ absent => (Option.not_mem_none _ absent).elim

/-- The contract of a submission whose actions meet `admits`. -/
def contract [DecidableEq Digest] (svc : Service Digest) (chain : Chain)
    (admits : World Digest → World Digest → Prop) : Contract (World Digest) Query Answer where
  rely := Since
  admits := admits
  guarantee := Act svc chain
  answers := answers chain
  refl := Since.refl
  trans := Since.trans

section Rules

variable [DecidableEq Digest] {svc : Service Digest} {chain : Chain}
  {admits : World Digest → World Digest → Prop} {α β : Type} {post : α → World Digest → Prop}

/-- A submission that is refused has nothing to promise. -/
abbrev SafeTo (svc : Service Digest) (chain : Chain)
    (admits : World Digest → World Digest → Prop) (post : α → World Digest → Prop)
    (p : Prog Digest α) (s : World Digest) : Prop :=
  Safe (contract svc chain admits) post (fun _ _ => True) p s

theorem safe_call {q : Query} {next : q.Value → Prog Digest α}
    (h : ∀ t a, Since s t → answers chain t q (.ok a) → SafeTo svc chain admits post (next a) t) :
    SafeTo svc chain admits post (call q >>= next) s :=
  Tasks.safe_call (fun _ _ _ _ _ _ => trivial) fun t a since _ given => h t a since given

theorem safe_throwIf {c : Prop} [Decidable c] {e : Err} {next : Unit → Prog Digest α}
    (h : ¬c → SafeTo svc chain admits post (next ()) s) :
    SafeTo svc chain admits post (throwIf c e >>= next) s :=
  Tasks.safe_throwIf (fun _ _ _ => trivial) h

theorem safe_lift {x : Except Err β} {next : β → Prog Digest α}
    (h : ∀ a, x = .ok a → SafeTo svc chain admits post (next a) s) :
    SafeTo svc chain admits post (lift x >>= next) s :=
  Tasks.safe_lift (fun _ _ _ _ => trivial) h

theorem safe_readBacked {config : Market} {id block : ℕ} {offer : OfferRow}
    {next : Bool → Prog Digest α}
    (h : ∀ t b, Since s t → SafeTo svc chain admits post (next b) t) :
    SafeTo svc chain admits post (readBacked config id offer block >>= next) s := by
  refine Safe.bind ?_
  unfold readBacked
  split
  · refine safe_call fun t (vault : Address) since _ => safe_throwIf fun _ => ?_
    refine safe_call fun u (balance : ℕ) later _ => safe_pure fun v last => ?_
    exact h v _ ((since.trans later).trans last)
  · exact safe_pure fun t since => h t _ since

theorem safe_readCredit {config : Market} {id block : ℕ} {offer : OfferRow}
    {next : Option ℕ → Prog Digest α}
    (h : ∀ t c, Since s t → SafeTo svc chain admits post (next c) t) :
    SafeTo svc chain admits post (readCredit config id offer block >>= next) s := by
  refine Safe.bind ?_
  unfold readCredit
  split
  · refine safe_call fun t (nominal : ℕ) since _ => safe_pure fun u later => ?_
    exact h u _ (since.trans later)
  · exact safe_pure fun t since => h t _ since

/-- The offer that `source` reads is the one asked for, at a time that the chain has reached. -/
theorem safe_source {config : Market} {id : ℕ} {next : Source → Prog Digest α}
    (h : ∀ t x, Since s t → x.id = id → x.now ≤ t.chainTime →
      SafeTo svc chain admits post (next x) t) :
    SafeTo svc chain admits post (source svc config id >>= next) s := by
  refine Safe.bind ?_
  refine safe_call fun t₁ (chainId : ℕ) s₁ _ => safe_throwIf fun _ => ?_
  refine safe_call fun t₂ (block : BlockHeader) s₂ reached => ?_
  refine safe_call fun t₃ (code : Option String) s₃ _ => ?_
  refine safe_call fun t₄ (loanToken : Address) s₄ _ => ?_
  refine safe_call fun t₅ (collateralToken : Address) s₅ _ => ?_
  refine safe_call fun t₆ (offer : OfferRow) s₆ _ => safe_throwIf fun _ => safe_throwIf fun _ => ?_
  refine safe_readBacked fun t₇ backed s₇ => safe_readCredit fun t₈ credit s₈ => ?_
  refine safe_call fun t₉ (canonical : String) s₉ _ => safe_throwIf fun _ => safe_pure fun u last => ?_
  have after : Since t₂ u :=
    (((((s₃.trans s₄).trans s₅).trans s₆).trans s₇).trans s₈).trans (s₉.trans last)
  exact h u _ ((s₁.trans s₂).trans after) rfl (le_trans reached after.chainTime)

/-- A receipt that passes is of the transaction with just this sender, target and input. -/
theorem safe_receipt {config : Market} {hash : String} {account : Address} {input : Calldata}
    {next : Receipt → Prog Digest α}
    (h : ∀ t r, Since s t → chain.transaction hash = ⟨account, config.address, 0, input⟩ →
      (∀ log ∈ r.logs, ∀ id ∈ log.created, chain.created hash log.address id) →
      SafeTo svc chain admits post (next r) t) :
    SafeTo svc chain admits post (receipt config hash account input >>= next) s := by
  refine Safe.bind ?_
  refine safe_call fun t₁ (tx : Transaction) s₁ is => safe_call fun t₂ (r : Receipt) s₂ logged => ?_
  refine safe_throwIf fun passed => ?_
  refine safe_call fun t₃ (canonical : String) s₃ _ => safe_throwIf fun _ => safe_pure fun u last => ?_
  push Not at passed
  obtain ⟨sender, target, value, matches_, -, same, -⟩ := passed
  refine h u r (((s₁.trans s₂).trans s₃).trans last) ?_ ?_
  · have at_hash : tx = chain.transaction hash := is
    rw [← at_hash, ← sender, ← target, ← value, ← matches_]
  · rw [← same]
    exact logged

/-- What `bind` read of the row: the transaction offered its terms, and created this offer. -/
theorem safe_checkFunding {config : Market} {hash : String} {row : Thread} {x : Source}
    {next : Source → Prog Digest α} (market : row.market = config.address)
    (h : ∀ t l, Since s t → Funds chain row hash l.id → SafeTo svc chain admits post (next l) t) :
    SafeTo svc chain admits post (checkFunding svc config hash row x >>= next) s := by
  refine Safe.bind (safe_lift fun cancelHash _ => safe_throwIf fun _ => ?_)
  refine safe_receipt fun t₁ _ s₁ _ _ => safe_receipt fun t₂ r s₂ transaction logged => ?_
  refine safe_throwIf fun _ => safe_throwIf fun _ => safe_lift fun id head => ?_
  refine safe_source fun t₃ l s₃ is _ => safe_throwIf fun _ => safe_pure fun u last => ?_
  refine h u l (((s₁.trans s₂).trans s₃).trans last) ⟨market ▸ transaction, ?_⟩
  have mem := List.mem_of_mem_head? ((orRevert_eq_ok _ _ _).mp head)
  obtain ⟨log, at_market, created⟩ := List.mem_filterMap.mp mem
  obtain ⟨logged_by, address⟩ := List.mem_filter.mp at_market
  have same : log.address = row.market := (of_decide_eq_true address).trans market.symm
  rw [is, ← same]
  exact logged log logged_by id created

/-- The source that a conversation's action reads first. -/
theorem safe_sourceOf {config : Market} {row : Thread} {next : Source → Prog Digest α}
    (h : ∀ t x, Since s t → x.now ≤ t.chainTime → SafeTo svc chain admits post (next x) t) :
    SafeTo svc chain admits post (do
      let x ← source svc config row.offerId
      throwIf (x.digest ≠ row.sourceDigest) .sourceTermsChanged
      next x) s :=
  safe_source fun t x since _ reached => safe_throwIf fun _ => h t x since reached

theorem safe_evidence {config : Market} {action : Action} {ref : Ref} {row : Thread}
    (at_ref : action.ref = some ref) (market : row.market = config.address)
    (revision : row.revision = ref.revision) (numbered : Numbered s)
    (found : s.get ref.threadId = some row) :
    SafeTo svc chain admits (fun x t => Gathered chain action x.1 x.2 t)
      (evidence svc config action row) s := by
  have only_source : ∀ t (x : Source), Since s t → x.now ≤ t.chainTime →
      SafeTo svc chain admits (fun x t => Gathered chain action x.1 x.2 t)
        (pure (some x, none)) t :=
    fun t x _ reached => safe_pure fun u later => .of_source (reached.trans later.chainTime)
  cases action with
  | login => cases at_ref
  | open_ => cases at_ref
  | close => exact safe_pure fun t _ => .of_nothing
  | counter => exact safe_sourceOf only_source
  | agree => exact safe_sourceOf only_source
  | start => exact safe_sourceOf only_source
  | prepare => exact safe_sourceOf only_source
  | cancelled _ hash =>
    refine safe_sourceOf fun t x since reached => Safe.bind (safe_throwIf fun _ => ?_)
    refine safe_receipt fun u r later _ _ => ?_
    refine safe_guard (fun _ _ _ => trivial) fun _ v last => safe_pure fun w after => ?_
    exact .of_source (reached.trans ((later.trans last).trans after).chainTime)
  | bind _ hash =>
    cases at_ref
    refine safe_sourceOf fun t x since reached => ?_
    refine safe_checkFunding market fun u l later funds => safe_pure fun v last => ?_
    have after : Since s v := (since.trans later).trans last
    refine ⟨fun y is => ?_, fun ref' hash' is l' at_l => ?_⟩
    · exact Option.mem_some_iff.mp is ▸ reached.trans (later.trans last).chainTime
    · cases is
      cases Option.mem_some_iff.mp at_l
      exact ⟨row, revision, funds, after.numbered numbered, after.kept numbered _ _ found⟩

theorem safe_gather {config : Market} {e : Envelope} (numbered : Numbered s) :
    SafeTo svc chain admits (fun x t => Gathered chain e.action x.1 x.2 t)
      (gather svc config e) s := by
  have of_ref : ∀ action : Action, e.action = action →
      SafeTo svc chain admits (fun x t => Gathered chain action x.1 x.2 t) (do
        let w ← look
        let ref ← lift (orRevert action.ref .conversationChanged)
        let row ← lift (signedRow config ref e.account w)
        evidence svc config action row) s := by
    intro action is
    refine safe_look (fun _ => .idle) fun t since => safe_lift fun ref at_ref => ?_
    refine safe_lift fun row passed => ?_
    obtain ⟨found, market, revision⟩ := signedRow_ok passed
    exact safe_evidence ((orRevert_eq_ok _ _ _).mp at_ref) market revision
      (since.numbered numbered) found
  unfold gather
  cases is : e.action with
  | login => exact safe_pure fun t _ => .of_nothing
  | open_ offerId sourceDigest =>
    refine safe_source fun t x since _ reached => safe_throwIf fun _ => ?_
    exact safe_pure fun u later => .of_source (reached.trans later.chainTime)
  | counter => exact of_ref _ is
  | agree => exact of_ref _ is
  | close => exact of_ref _ is
  | start => exact of_ref _ is
  | cancelled => exact of_ref _ is
  | prepare => exact of_ref _ is
  | bind => exact of_ref _ is

/-- Whatever happens between its reads, a submission does nothing but its transaction, and returns
the answer that is kept. -/
theorem safe_submit {signed : Signed} (numbered : Numbered s) :
    SafeTo svc chain admits (Answered svc signed) (submit svc signed) s := by
  refine safe_look (fun _ => .idle) fun t₁ s₁ => safe_lift fun config _ => ?_
  refine safe_call fun t₂ (chainId : ℕ) s₂ _ => safe_throwIf fun _ => ?_
  refine safe_call fun t₃ (genuine : Bool) s₃ _ => safe_throwIf fun _ => ?_
  refine safe_look (fun _ => .idle) fun t₄ s₄ => ?_
  split
  · rename_i prior found
    refine safe_throwIf fun same => safe_pure fun u later => ?_
    exact Answered.stable ⟨prior, found, not_not.mp same, rfl⟩ later
  · refine Safe.bind (Safe.mono (safe_gather (((s₁.trans s₂).trans (s₃.trans s₄)).numbered numbered))
      (fun x t gathered => ?_) fun _ _ _ => trivial)
    refine safe_attempt (fun _ => .idle) (fun u result v later done _ => ?_) fun _ _ _ _ _ _ => trivial
    have committed := commit_ok done
    exact ⟨.commit signed x.1 x.2 result v committed (gathered.stable later),
      fun w last => committed.answered.stable last⟩

theorem compatible :
    Compatible (machine svc chain) fun _ : ℕ => contract svc chain admits where
  others := fun _ _ act => act.since
  env := environment_since
  answers := id

end Rules

end Turret.Negotiations
