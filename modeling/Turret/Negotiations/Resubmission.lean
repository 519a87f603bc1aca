import Turret.Negotiations.Exclusivity

/-! A submission among others. What is refused has changed nothing, and what is
signed again is answered as it was, unless it is turned away by a check that
comes before the look at the answers kept. -/

namespace Turret.Negotiations

open Execution Tasks Tasks.Program Function

variable {Digest : Type}

/-! ### A refusal -/

theorem readOnly_call (q : Query) : (call q : Prog Digest q.Value).ReadOnly :=
  Program.readOnly_call q

theorem readOnly_readBacked (config : Market) (id : ℕ) (offer : OfferRow) (block : ℕ) :
    (readBacked config id offer block : Prog Digest Bool).ReadOnly := by
  unfold readBacked
  split
  · refine (readOnly_call _).bind fun vault => readOnly_throwIf.bind fun _ => ?_
    exact (readOnly_call _).bind fun balance => readOnly_pure _
  · exact readOnly_pure _

theorem readOnly_readCredit (config : Market) (id : ℕ) (offer : OfferRow) (block : ℕ) :
    (readCredit config id offer block : Prog Digest (Option ℕ)).ReadOnly := by
  unfold readCredit
  split
  · exact (readOnly_call _).bind fun nominal => readOnly_pure _
  · exact readOnly_pure _

theorem readOnly_receipt (config : Market) (hash : String) (account : Address) (input : Calldata) :
    (receipt config hash account input : Prog Digest Receipt).ReadOnly := by
  refine (readOnly_call _).bind fun tx => (readOnly_call _).bind fun r => ?_
  refine readOnly_throwIf.bind fun _ => (readOnly_call _).bind fun canonical => ?_
  exact readOnly_throwIf.bind fun _ => readOnly_pure _

theorem readOnly_source (svc : Service Digest) (config : Market) (id : ℕ) :
    (source svc config id).ReadOnly := by
  refine (readOnly_call _).bind fun chainId => readOnly_throwIf.bind fun _ => ?_
  refine (readOnly_call _).bind fun block => (readOnly_call _).bind fun code => ?_
  refine (readOnly_call _).bind fun loanToken => (readOnly_call _).bind fun collateralToken => ?_
  refine (readOnly_call _).bind fun offer => readOnly_throwIf.bind fun _ => ?_
  refine readOnly_throwIf.bind fun _ => (readOnly_readBacked _ _ _ _).bind fun backed => ?_
  refine (readOnly_readCredit _ _ _ _).bind fun credit => (readOnly_call _).bind fun canonical => ?_
  exact readOnly_throwIf.bind fun _ => readOnly_pure _

theorem readOnly_checkFunding (svc : Service Digest) (config : Market) (hash : String)
    (row : Thread) (x : Source) : (checkFunding svc config hash row x).ReadOnly := by
  refine (readOnly_lift _).bind fun cancelHash => readOnly_throwIf.bind fun _ => ?_
  refine (readOnly_receipt _ _ _ _).bind fun _ => (readOnly_receipt _ _ _ _).bind fun r => ?_
  refine readOnly_throwIf.bind fun _ => readOnly_throwIf.bind fun _ => ?_
  refine (readOnly_lift _).bind fun id => (readOnly_source _ _ _).bind fun linked => ?_
  exact readOnly_throwIf.bind fun _ => readOnly_pure _

theorem readOnly_evidence (svc : Service Digest) (config : Market) (action : Action)
    (row : Thread) : (evidence svc config action row).ReadOnly := by
  have of_source : ∀ k : Source → Prog Digest (Option Source × Option Source),
      (∀ x, (k x).ReadOnly) → (do
        let x ← source svc config row.offerId
        throwIf (x.digest ≠ row.sourceDigest) .sourceTermsChanged
        k x).ReadOnly :=
    fun k rest => (readOnly_source _ _ _).bind fun x => readOnly_throwIf.bind fun _ => rest x
  cases action with
  | close => exact readOnly_pure _
  | cancelled _ hash =>
    refine of_source _ fun x => ReadOnly.bind ?_ fun _ => readOnly_pure _
    refine readOnly_throwIf.bind fun _ => (readOnly_receipt _ _ _ _).bind fun r => ?_
    exact readOnly_throwIf
  | bind _ hash =>
    exact of_source _ fun x => (readOnly_checkFunding _ _ _ _ _).bind fun l => readOnly_pure _
  | _ => exact of_source _ fun x => readOnly_pure _

theorem readOnly_gather (svc : Service Digest) (config : Market) (e : Envelope) :
    (gather svc config e).ReadOnly := by
  have of_ref : ∀ action : Action, (do
      let w ← look
      let ref ← lift (orRevert action.ref Err.conversationChanged)
      let row ← lift (signedRow config ref e.account w)
      evidence svc config action row).ReadOnly := by
    intro action
    refine readOnly_look.bind fun w => (readOnly_lift _).bind fun ref => ?_
    exact (readOnly_lift _).bind fun row => readOnly_evidence _ _ _ _
  unfold gather
  cases e.action with
  | login => exact readOnly_pure _
  | open_ =>
    refine (readOnly_source _ _ _).bind fun x => readOnly_throwIf.bind fun _ => ?_
    exact readOnly_pure _
  | _ => exact of_ref _

variable [DecidableEq Digest]

/-- A submission changes something in its transaction only. -/
theorem changesLast_submit (svc : Service Digest) (signed : Signed) :
    (submit svc signed).ChangesLast := by
  refine readOnly_look.changesLast fun w => (readOnly_lift _).changesLast fun config => ?_
  refine (readOnly_call _).changesLast fun chainId => readOnly_throwIf.changesLast fun _ => ?_
  refine (readOnly_call _).changesLast fun genuine => readOnly_throwIf.changesLast fun _ => ?_
  refine readOnly_look.changesLast fun w => ?_
  split
  · exact readOnly_throwIf.changesLast fun _ => trivial
  · exact (readOnly_gather _ _ _).changesLast fun x => changesLast_attempt _

/-! ### The answers kept -/

variable {svc : Service Digest} {chain : Chain} {signed : Signed} {prior : NonceRow Digest}

/-- Why a signed action is turned away that has an answer. -/
inductive TurnedAway (svc : Service Digest) (signed : Signed) (prior : NonceRow Digest)
    (s t : World Digest) : Err → Prop
  | envelope (now : ℕ) (e : Err) : s.now ≤ now → now ≤ t.now →
      checkEnvelope svc signed.envelope now = .error e → TurnedAway svc signed prior s t e
  | rpc : TurnedAway svc signed prior s t .rpc
  | wrongChain : TurnedAway svc signed prior s t .wrongChain
  | signature : TurnedAway svc signed prior s t .signatureMismatch
  | conflict : prior.hash ≠ svc.digest signed → TurnedAway svc signed prior s t .nonceConflict

/-- The contract of a submission that does nothing. -/
def idleContract (svc : Service Digest) (chain : Chain) : Contract (World Digest) Query Answer :=
  { contract svc chain StartsSelected with guarantee := fun s t => t = s }

/-- A nonce that has an answer: it is given again, or the action is turned away. -/
theorem safe_again {s : World Digest}
    (found : s.nonceRow signed.envelope.account signed.envelope.nonce = some prior) :
    Safe (idleContract svc chain)
      (fun result _ => prior.hash = svc.digest signed ∧ result = prior.result)
      (fun e t => TurnedAway svc signed prior s t e) (submit svc signed) s := by
  have away : ∀ t e, Since s t → answers chain t .chainId (.error e) → ∀ u, Since t u →
      TurnedAway svc signed prior s u e := fun t e _ is u _ => by
    have is_rpc : e = .rpc := is
    exact is_rpc ▸ .rpc
  refine safe_look (fun _ => rfl) fun t₁ (s₁ : Since s t₁) => ?_
  refine Tasks.safe_lift (fun e failed u later => ?_) fun config _ => ?_
  · have later : Since t₁ u := later
    exact .envelope t₁.now e s₁.now later.now failed
  refine Tasks.safe_call (fun t e (since : Since t₁ t) is => away t e (s₁.trans since) is)
    fun t₂ (chainId : ℕ) (s₂ : Since t₁ t₂) _ _ => ?_
  refine Tasks.safe_throwIf (fun _ _ _ => .wrongChain) fun _ => ?_
  refine Tasks.safe_call
    (fun t e (since : Since t₂ t) is => away t e ((s₁.trans s₂).trans since) is)
    fun t₃ (genuine : Bool) (s₃ : Since t₂ t₃) _ _ => ?_
  refine Tasks.safe_throwIf (fun _ _ _ => .signature) fun _ => ?_
  refine safe_look (fun _ => rfl) fun t₄ (s₄ : Since t₃ t₄) => ?_
  have still := ((s₁.trans s₂).trans (s₃.trans s₄)).answered _ _ _ found
  split
  · rename_i row at_nonce
    cases Option.some.inj (still.symm.trans at_nonce)
    refine Tasks.safe_throwIf (fun conflict _ _ => .conflict conflict) fun same => ?_
    exact safe_pure fun _ _ => ⟨not_not.mp same, rfl⟩
  · rename_i absent
    rw [still] at absent
    cases absent

/-! ### A submission in a run -/

abbrev Submissions (Digest : Type) := System (World Digest) Query Answer Err Result ℕ

/-- All submissions are safe where they stand, and the conversations ordered. -/
def Settled (svc : Service Digest) (chain : Chain) (s : Submissions Digest) : Prop :=
  Sound (fun _ => contract svc chain StartsSelected) (fun _ _ _ => True) (fun _ _ _ => True) s ∧
    Ordered s.shared

theorem Settled.step {s t : Submissions Digest} {move : Move ℕ Signed Tick}
    (h : Settled svc chain s) (moved : selectedStep svc chain s move t) :
    Settled svc chain t ∧ Lawful s.shared t.shared ∧ Since s.shared t.shared := by
  obtain ⟨sound, effect⟩ := h.1.step compatible
    (fun _ signed _ => (safe_submit h.2.1).mono (fun _ _ _ => trivial) fun _ _ given => given)
    moved.1 moved.2
  obtain ⟨ordered, lawful, since⟩ := effect_ordered effect h.2
  exact ⟨⟨sound, ordered⟩, lawful, since⟩

section Segment

variable {s t : Submissions Digest} {moves : List (Move ℕ Signed Tick)} {i : ℕ}
  {post : Result → World Digest → Prop} {err : Err → World Digest → Prop}
  {guarantee : World Digest → World Digest → Prop}

/-- What a submission is safe to do beside all others, it does. -/
theorem Settled.segment
    (h : Settled svc chain s) (run : Run (selectedStep svc chain) s moves t)
    (alone : ∀ move ∈ moves, move.continues i)
    (safe : Safe { contract svc chain StartsSelected with guarantee } post err (s.task i) s.shared) :
    Run (fun u move v => selectedStep svc chain u move v ∧
      (move.runs = some i → v.shared = u.shared ∨ guarantee u.shared v.shared)) s moves t ∧
    Safe { contract svc chain StartsSelected with guarantee } post err (t.task i) t.shared := by
  induction run with
  | nil s => exact ⟨.nil s, safe⟩
  | @cons s u t move moves first rest ih =>
    obtain ⟨head, tail⟩ := List.forall_mem_cons.mp alone
    obtain ⟨settled, -, since⟩ := h.step first
    obtain ⟨safe, did⟩ := safe.step first.1 head (fun _ _ _ => id) (fun _ => since)
      fun runs => first.2 i runs
    obtain ⟨run, last⟩ := ih settled tail safe
    exact ⟨.cons ⟨first, did⟩ run, last⟩

end Segment

/-- A call of `submit` by the process `i` in `s`, and what follows to `t`. -/
structure Honoured (svc : Service Digest) (chain : Chain) (i : ℕ) (signed : Signed)
    (s : Submissions Digest) (moves : List (Move ℕ Signed Tick)) (t : Submissions Digest) : Prop where
  /-- What is accepted is kept. -/
  accepted : ∀ result, t.task i = .done result → Answered svc signed result t.shared
  /-- What is refused has changed nothing. -/
  refused : ∀ e, t.task i = .fail e →
    Run (fun u move v => selectedStep svc chain u move v ∧ Quiet i u move v) s moves t
  /-- What has an answer changes nothing. -/
  again : ∀ prior, s.shared.nonceRow signed.envelope.account signed.envelope.nonce = some prior →
    Run (fun u move v => selectedStep svc chain u move v ∧ Quiet i u move v) s moves t ∧
    (∀ result, t.task i = .done result → prior.hash = svc.digest signed ∧ result = prior.result) ∧
    ∀ e, t.task i = .fail e → TurnedAway svc signed prior s.shared t.shared e
  /-- Other bytes under a nonce that has an answer are refused. -/
  different : ∀ prior other,
    s.shared.nonceRow signed.envelope.account signed.envelope.nonce = some prior →
    prior.hash = svc.digest other → other ≠ signed → ∀ result, t.task i ≠ .done result

theorem Settled.again {s t : Submissions Digest} {moves : List (Move ℕ Signed Tick)} {i : ℕ}
    (h : Settled svc chain s) (begun : s.task i = submit svc signed)
    (run : Run (selectedStep svc chain) s moves t) (alone : ∀ move ∈ moves, move.continues i)
    (found : s.shared.nonceRow signed.envelope.account signed.envelope.nonce = some prior) :
    Run (fun u move v => selectedStep svc chain u move v ∧ Quiet i u move v) s moves t ∧
    (∀ result, t.task i = .done result → prior.hash = svc.digest signed ∧ result = prior.result) ∧
    ∀ e, t.task i = .fail e → TurnedAway svc signed prior s.shared t.shared e := by
  obtain ⟨quiet, safe⟩ := h.segment run alone (begun ▸ safe_again found)
  refine ⟨?_, fun result done => ?_, fun e failed => ?_⟩
  · exact quiet.mono fun _ _ _ moved => ⟨moved.1, fun runs => (moved.2 runs).elim id id⟩
  · rw [done] at safe
    exact safe t.shared (.refl _)
  · rw [failed] at safe
    exact safe t.shared (.refl _)

theorem Settled.honoured {s b t : Submissions Digest} {moves : List (Move ℕ Signed Tick)} {i : ℕ}
    (unique : Injective svc.digest) (h : Settled svc chain s)
    (called : selectedStep svc chain s (.begin i signed) b)
    (run : Run (selectedStep svc chain) b moves t) (alone : ∀ move ∈ moves, move.continues i) :
    Honoured svc chain i signed b moves t := by
  have settled := (h.step called).1
  have begun : b.task i = submit svc signed := by
    cases called.1
    exact update_self ..
  exact
    { accepted := fun result done => by
        obtain ⟨-, safe⟩ := settled.segment run alone (begun ▸ safe_submit settled.2.1)
        rw [done] at safe
        exact safe t.shared (.refl _)
      refused := fun e failed => quiet_of_fail (fun _ _ _ moved => moved.1) run alone
        (begun ▸ changesLast_submit svc signed) failed
      again := fun prior found => settled.again begun run alone found
      different := fun prior other found hash ne result done => by
        have same := ((settled.again begun run alone found).2.1 result done).1
        exact ne (unique (hash.symm.trans same)) }

/-- A service that has stored nothing, and of which no submission is under way. -/
structure Started (s : Submissions Digest) : Prop where
  threads : s.shared.threads = []
  selections : s.shared.selections = fun _ => none
  nonces : s.shared.nonces = []
  tasks : ∀ i, (s.task i).finished = true

theorem started_sound {admits : World Digest → World Digest → Prop} {s : Submissions Digest}
    (fresh : Started s) :
    Sound (fun _ => contract svc chain admits) (fun _ _ _ => True) (fun _ _ _ => True) s := by
  intro i
  have idle := fresh.tasks i
  cases task : s.task i with
  | done result => exact fun _ _ => trivial
  | fail e => exact fun _ _ => trivial
  | act f next => simp [task, finished] at idle
  | ask q next => simp [task, finished] at idle

theorem Settled.started {s : Submissions Digest} (fresh : Started s) : Settled svc chain s := by
  refine ⟨started_sound fresh, ⟨?_, ?_⟩, ?_⟩
  · simp [fresh.threads]
  · simp [fresh.threads]
  · intro row mem
    simp [fresh.threads] at mem

/-- In every run in which no agreement is started that is not the selection of its source. -/
theorem negotiations_exclusive (svc : Service Digest) (unique : Injective svc.digest)
    (chain : Chain) (s t : Submissions Digest) (fresh : Started s)
    (moves : List (Move ℕ Signed Tick)) (run : Run (selectedStep svc chain) s moves t) :
    Exclusive t.shared ∧
    (∀ move u, selectedStep svc chain t move u → Lawful t.shared u.shared) ∧
    ∀ i signed b moves u, selectedStep svc chain t (.begin i signed) b →
      Run (selectedStep svc chain) b moves u → (∀ move ∈ moves, move.continues i) →
      Honoured svc chain i signed b moves u := by
  have settled : Settled svc chain t := run.invariant (Settled svc chain)
    (fun _ _ _ now moved => (now.step moved).1) (.started fresh)
  exact ⟨settled.2.2.exclusive settled.2.1, fun move u moved => (settled.step moved).2.1,
    fun i signed b moves u called run alone => settled.honoured unique called run alone⟩

/-! ### An agreement that is started after it was displaced -/

def address (n : ℕ) : Address := Fin.ofNat (2 ^ 160) n

def lender : Address := address 11
def borrower : Address := address 21
def otherBorrower : Address := address 22

def sampleMarket : Market := ⟨address 1, 4663, address 2, address 3, "0xc0de"⟩

def sampleService : Service Signed where
  origin := "https://turret.example"
  registry := [sampleMarket]
  digest := id
  sourceDigest := fun _ _ _ _ _ _ => "5e1f"
  keccak256 := fun _ => "0xc0de"

def sampleTerms : Terms := ⟨100, 50, 10, 30, 5000⟩

/-- An offer of the lender to anyone. -/
def sampleOffer (status : ℕ) (to_ : Address) : OfferRow :=
  ⟨lender, to_, 100, 50, 10, 30 * 86400, 5000, status⟩

/-- The transactions of the lender: two cancellations and one new offer. -/
def sampleChain : Chain where
  transaction := fun hash =>
    if hash = "0xc1" then ⟨lender, address 1, 0, .cancelOffer 1⟩
    else if hash = "0xc2" then ⟨lender, address 1, 0, .cancelOffer 2⟩
    else ⟨lender, address 1, 0, .createOffer borrower 100 50 10 (30 * 86400) 5000⟩
  created := fun hash market id => hash = "0xf1" ∧ market = address 1 ∧ id = 9

instance (hash : String) (market : Address) (id : ℕ) :
    Decidable (sampleChain.created hash market id) :=
  inferInstanceAs (Decidable (_ ∧ _))

/-- What the chain answers at the block, where the offers have this status. -/
def sampleAnswers (block : BlockHeader) (status : ℕ → ℕ) : (q : Query) → Option (Answer q)
  | .chainId => some (.ok (4663 : ℕ))
  | .verify _ => some (.ok true)
  | .latestBlock => some (.ok block)
  | .blockHash _ => some (.ok block.hash)
  | .code _ _ => some (.ok (some "0x6080"))
  | .loanToken _ _ => some (.ok (address 2))
  | .collateralToken _ _ => some (.ok (address 3))
  | .offer _ id _ => some (.ok (sampleOffer (status id) (if id = 9 then borrower else zero)))
  | .vault _ _ _ => some (.ok (address 4))
  | .balanceOf _ _ _ => some (.ok (100 : ℕ))
  | .loanCredit _ _ _ => some (.ok (0 : ℕ))
  | .transaction hash => some (.ok (sampleChain.transaction hash))
  | .receipt hash => some (.ok (⟨true, hash, lender, block.number, block.hash,
      if hash = "0xf1" then [⟨address 1, some 9⟩] else []⟩ : Receipt))

def sameTransaction (a b : Transaction) : Bool := decide (a = b)

theorem eq_of_sameTransaction {a b : Transaction} (h : sameTransaction a b = true) : a = b :=
  of_decide_eq_true h

/-- A test of the answers above. -/
def sampleCheck (w : World Signed) : (q : Query) → Answer q → Bool
  | _, .error _ => false
  | .latestBlock, .ok block => decide (block.timestamp ≤ w.chainTime)
  | .transaction hash, .ok tx => sameTransaction tx (sampleChain.transaction hash)
  | .receipt _, .ok r => r.logs.all fun log =>
    log.created.all fun id => decide (sampleChain.created r.transactionHash log.address id)
  | _, .ok _ => true

theorem sampleCheck_sound (w : World Signed) (q : Query) (a : Answer q)
    (h : sampleCheck w q a = true) : answers sampleChain w q a := by
  cases a with
  | error => cases q <;> cases h
  | ok v =>
    cases q with
    | latestBlock =>
      have reached := of_decide_eq_true h
      exact reached
    | transaction hash => exact eq_of_sameTransaction h
    | receipt hash =>
      intro log mem id created
      have logged := List.all_eq_true.mp h log mem
      rw [Option.mem_def.mp created] at logged
      exact of_decide_eq_true logged
    | _ => trivial

abbrev Schedule := List (Choice Answer ℕ Signed Tick)

/-- An action of the account, signed at the time 1000. -/
def sampleSigned (account : Address) (nonce : ℕ) (action : Action) : Signed :=
  ⟨⟨1, "https://turret.example", account, address 1, 4663, nonce, 1000, 1300, action⟩, "0x5164"⟩

/-- The next `n` actions of the submission `i`. -/
def goes (i n : ℕ) (given : (q : Query) → Option (Answer q)) : Schedule :=
  List.replicate n (.go i given)

/-- A submission, for its first `n` actions. -/
def submits (i n : ℕ) (given : (q : Query) → Option (Answer q)) (signed : Signed) : Schedule :=
  .begin i signed :: goes i n given

def sampleRef (thread revision proposal : ℕ) (account : Address) : Ref :=
  ⟨thread, revision, proposal, "5e1f", lender, account, sampleTerms⟩

def atBlock (number time : ℕ) (status : ℕ → ℕ) : (q : Query) → Option (Answer q) :=
  sampleAnswers ⟨number, time, "0xb10c"⟩ status

def allOpen : ℕ → ℕ := fun _ => 1

def sampleStart : Submissions Signed :=
  ⟨⟨[], fun _ => none, [], [], [], 1000, 1000, 0⟩, fun _ => .fail .rpc⟩

/-- One conversation, agreed on and started. -/
def oneReplacement : Schedule :=
  submits 0 14 (atBlock 5 1000 allOpen)
      (sampleSigned borrower 1 (.open_ 1 "5e1f" sampleTerms 1100)) ++
    submits 0 15 (atBlock 5 1000 allOpen) (sampleSigned lender 1 (.agree (sampleRef 0 1 1 borrower))) ++
    submits 0 15 (atBlock 5 1000 allOpen) (sampleSigned lender 2 (.start (sampleRef 0 2 1 borrower)))

/-- The start has read its source when the agreement expires; the other conversation is agreed on;
then the start goes on. -/
def displacedStart : Schedule :=
  submits 0 14 (atBlock 5 1000 allOpen)
      (sampleSigned borrower 1 (.open_ 1 "5e1f" sampleTerms 1100)) ++
    submits 0 14 (atBlock 5 1000 allOpen)
      (sampleSigned otherBorrower 1 (.open_ 1 "5e1f" sampleTerms 1200)) ++
    submits 0 15 (atBlock 5 1000 allOpen) (sampleSigned lender 1 (.agree (sampleRef 0 1 1 borrower))) ++
    submits 1 14 (atBlock 5 1000 allOpen) (sampleSigned lender 2 (.start (sampleRef 0 2 1 borrower))) ++
    .env (.chain 150) ::
    submits 0 15 (atBlock 6 1150 allOpen)
      (sampleSigned lender 3 (.agree (sampleRef 2 1 3 otherBorrower))) ++
    goes 1 1 (atBlock 6 1150 allOpen)

theorem started_sample : Started sampleStart where
  threads := rfl
  selections := rfl
  nonces := rfl
  tasks := fun _ => rfl

/-- What a schedule reaches. -/
theorem reached_of_exec {β : Type} (f : World Signed → β) {test : World Signed → Move ℕ Signed Tick → World Signed → Bool}
    {step : Submissions Signed → Move ℕ Signed Tick → Submissions Signed → Prop}
    {choices : Schedule} {b : β}
    (tested : ∀ s move t, Step (machine sampleService sampleChain) s move t →
      test s.shared move t.shared = true → step s move t)
    (h : (System.exec (machine sampleService sampleChain) sampleCheck test choices
      sampleStart).map (fun t => f t.shared) = some b) :
    ∃ t moves, Run step sampleStart moves t ∧ f t.shared = b :=
  run_of_exec_map sampleCheck_sound tested h

/-- Two conversations about one offer are live, one replacing and one agreed. -/
theorem displaced_start : ∃ t moves, Started sampleStart ∧
    Run (Step (machine sampleService sampleChain)) sampleStart moves t ∧ ¬Exclusive t.shared := by
  have computed : (System.exec (machine sampleService sampleChain) sampleCheck
      (fun _ _ _ => true) displacedStart sampleStart).map
      (fun t => decide (Exclusive t.shared)) = some false := by
    decide +kernel
  obtain ⟨t, moves, run, live⟩ := reached_of_exec (fun w => decide (Exclusive w))
    (fun _ _ _ moved _ => moved) computed
  exact ⟨t, moves, started_sample, run, of_decide_eq_false live⟩

theorem selectedStep_of_test (s : Submissions Signed) (move : Move ℕ Signed Tick)
    (t : Submissions Signed) (moved : Step (machine sampleService sampleChain) s move t)
    (h : decide (StartsSelected s.shared t.shared) = true) :
    selectedStep sampleService sampleChain s move t := by
  have selected := of_decide_eq_true h
  exact ⟨moved, fun _ _ => selected⟩

theorem sample_negotiations_exclusive : ∃ t moves,
    Run (selectedStep sampleService sampleChain) sampleStart moves t ∧
    t.shared.threads.map Thread.state = [.replacing] ∧ Exclusive t.shared := by
  have computed : (System.exec (machine sampleService sampleChain) sampleCheck
      (fun s _ t => decide (StartsSelected s t)) oneReplacement sampleStart).map
      (fun t => t.shared.threads.map Thread.state) = some [.replacing] := by
    decide +kernel
  obtain ⟨t, moves, run, states⟩ := reached_of_exec (fun w => w.threads.map Thread.state)
    selectedStep_of_test computed
  exact ⟨t, moves, run, states, (negotiations_exclusive sampleService injective_id sampleChain
    sampleStart t started_sample moves run).1⟩

end Turret.Negotiations
