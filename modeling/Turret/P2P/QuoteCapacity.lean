import Mathlib.Logic.Encodable.Basic
import Mathlib.Logic.Equiv.List
import Turret.P2P.FacilityCalls

/-! What the draws on one nonce can take together. The storage of a nonce keeps
the digest of the quote it was first drawn with, so however draws, cancellations
and new policies are mixed, and whatever else is signed with the same nonce, one
quote alone is drawn, to its capacity at most. -/

namespace Turret.LenderFacility

open Execution Function

structure Take where
  sender : Address
  quote : Quote
  signature : Signature
  principal : ℕ

def Op.take : Op → Option Take
  | .draw sender _ quote signature principal _ _ _ => some ⟨sender, quote, signature, principal⟩
  | _ => none

/-- The draws among the calls that name the nonce in the epoch. -/
def takes (epoch nonce : ℕ) (ops : List Op) : List Take :=
  (ops.filterMap Op.take).filter fun t => t.quote.epoch = epoch ∧ t.quote.nonce = nonce

/-- What a quote grants its borrower, and that it was signed, when it is drawn. -/
structure Granted (t : Take) (w : World) : Prop where
  current : t.quote.epoch = w.facility.epoch
  kept : (w.facility.quoteUses t.quote.epoch t.quote.nonce).cancelled = false
  signed : isValidQuoteSignature t.quote t.signature w = true
  minDraw_le : t.quote.minDraw ≤ t.principal
  le_capacity : t.principal ≤ t.quote.capacity
  borrower : t.quote.borrower = 0 ∨ t.quote.borrower = t.sender
  validAfter_le : t.quote.validAfter ≤ w.now
  now_lt : w.now < t.quote.expiresAt

/-- The calls that end a nonce: its cancellation, and a new policy. -/
def Ends (epoch nonce : ℕ) (w : World) : Op → Prop
  | .cancelQuote _ cancelled => w.facility.epoch = epoch ∧ cancelled = nonce
  | .setPolicy .. => w.facility.epoch = epoch
  | _ => False

def Closed (epoch nonce : ℕ) (w : World) : Prop :=
  epoch < w.facility.epoch ∨ (w.facility.quoteUses epoch nonce).cancelled = true

variable {w w' : World} {op : Op} {epoch nonce : ℕ}

theorem takes_append (before after : List Op) :
    takes epoch nonce (before ++ after) = takes epoch nonce before ++ takes epoch nonce after := by
  rw [takes, List.filterMap_append, List.filter_append]
  rfl

theorem takes_other (h : ∀ t, op.take = some t → ¬(t.quote.epoch = epoch ∧ t.quote.nonce = nonce)) :
    takes epoch nonce [op] = [] := by
  rw [takes, List.filterMap_cons]
  cases same : op.take with
  | none => rfl
  | some t =>
    have other := h t same
    simp [other]

theorem takes_self {t : Take} (h : op.take = some t) (at_epoch : t.quote.epoch = epoch)
    (at_nonce : t.quote.nonce = nonce) : takes epoch nonce [op] = [t] := by
  rw [takes, List.filterMap_cons, h]
  simp [at_epoch, at_nonce]

/-! ### One call -/

theorem setUse_apply (use : QuoteUse) (f : Facility) (e n : ℕ) :
    (setUse nonce use f).quoteUses e n =
      if e = f.epoch ∧ n = nonce then use else f.quoteUses e n := by
  by_cases he : e = f.epoch
  · subst he
    by_cases hn : n = nonce
    · simp [setUse, hn]
    · simp [setUse, hn]
  · simp [setUse, he]

theorem Accepted.cfg_eq (h : Accepted w op w') : w'.cfg = w.cfg := by
  cases h <;> rfl

theorem run_cfg_eq {ops : List Op} (run : Run (accepts exec) w ops w') : w'.cfg = w.cfg :=
  run.invariant (fun v => v.cfg = w.cfg)
    (fun _ _ _ same done => (exec_accepted done).cfg_eq.trans same) rfl

/-- Only a draw changes what is filled of a quote and the digest kept with it. -/
theorem Accepted.unused (h : Accepted w op w') (other : op.take = none) (e n : ℕ) :
    (w'.facility.quoteUses e n).filled = (w.facility.quoteUses e n).filled ∧
      (w'.facility.quoteUses e n).digest = (w.facility.quoteUses e n).digest := by
  cases h with
  | draw => cases other
  | cancelQuote nonce =>
    change ((setUse nonce _ w.facility).quoteUses e n).filled = _ ∧ _
    rw [setUse_apply]
    split_ifs with here
    · rw [here.1, here.2]
      exact ⟨rfl, rfl⟩
    · exact ⟨rfl, rfl⟩
  | _ => exact ⟨rfl, rfl⟩

/-- A draw that goes through, of the quote it names. -/
structure Taken (t : Take) (w w' : World) : Prop where
  granted : Granted t w
  positive : 0 < t.principal
  digest : (w.facility.quoteUses t.quote.epoch t.quote.nonce).filled = 0 ∨
    (w.facility.quoteUses t.quote.epoch t.quote.nonce).digest = w.cfg.quoteHash t.quote
  room : (w.facility.quoteUses t.quote.epoch t.quote.nonce).filled + t.principal ≤ t.quote.capacity
  uses_eq : ∀ e n, w'.facility.quoteUses e n =
    if e = t.quote.epoch ∧ n = t.quote.nonce then
      { w.facility.quoteUses e n with
        digest := w.cfg.quoteHash t.quote
        filled := (w.facility.quoteUses e n).filled + t.principal }
    else w.facility.quoteUses e n

theorem Accepted.taken (h : Accepted w op w') {t : Take} (drawing : op.take = some t) :
    Taken t w w' := by
  cases h with
  | draw sender vault quote signature principal maxCollateral maxInterest minRemainingCapacity
      collateral interest c t' admitted =>
    obtain rfl := Option.some.inj drawing
    have quoted := admitted.quoted
    have current := quoted.epoch_eq
    refine ⟨⟨current, current ▸ admitted.kept, admitted.signed, quoted.minDraw_le,
      quoted.principal_le, quoted.borrower, quoted.validAfter_le, quoted.now_lt⟩,
      quoted.principal_pos, current ▸ admitted.digest, current ▸ admitted.room, fun e n => ?_⟩
    change (setUse quote.nonce _ w.facility).quoteUses e n = _
    rw [setUse_apply, ← current]
    split_ifs with here
    · rw [here.1, here.2]
    · rfl
  | _ => cases drawing

theorem Accepted.epoch_le (h : Accepted w op w') : w.facility.epoch ≤ w'.facility.epoch := by
  cases h with
  | setPolicy => exact Nat.le_succ _
  | _ => exact le_rfl

theorem Accepted.cancelled (h : Accepted w op w')
    (was : (w.facility.quoteUses epoch nonce).cancelled = true) :
    (w'.facility.quoteUses epoch nonce).cancelled = true := by
  cases drawing : op.take with
  | some t =>
    rw [(h.taken drawing).uses_eq]
    split_ifs
    · exact was
    · exact was
  | none =>
    cases h with
    | draw => cases drawing
    | cancelQuote n =>
      change ((setUse n _ w.facility).quoteUses epoch nonce).cancelled = true
      rw [setUse_apply]
      split_ifs
      · rfl
      · exact was
    | _ => exact was

/-- A nonce that is closed stays so, and no draw on it goes through. -/
theorem Accepted.closed (h : Accepted w op w') (closed : Closed epoch nonce w) :
    Closed epoch nonce w' ∧ takes epoch nonce [op] = [] := by
  refine ⟨closed.imp (fun past => past.trans_le h.epoch_le) h.cancelled,
    takes_other fun t drawing at_nonce => ?_⟩
  have granted := (h.taken drawing).granted
  rw [← at_nonce.1, ← at_nonce.2, Closed] at closed
  rcases closed with past | cancelled
  · exact absurd granted.current past.ne
  · exact Bool.false_ne_true (granted.kept.symm.trans cancelled)

/-- The call that ends a nonce closes it. -/
theorem Accepted.ends (h : Accepted w op w') (ends : Ends epoch nonce w op) :
    Closed epoch nonce w' ∧ takes epoch nonce [op] = [] := by
  cases h with
  | setPolicy next signer valid =>
    refine ⟨.inl ?_, rfl⟩
    obtain rfl : w.facility.epoch = epoch := ends
    exact Nat.lt_succ_self _
  | cancelQuote n =>
    obtain ⟨rfl, rfl⟩ : w.facility.epoch = epoch ∧ n = nonce := ends
    refine ⟨.inr ?_, rfl⟩
    change ((setUse n _ w.facility).quoteUses w.facility.epoch n).cancelled = true
    rw [setUse_apply, if_pos ⟨rfl, rfl⟩]
  | _ => cases ends

/-! ### Runs -/

theorem takes_of_closed {ops : List Op} (run : Run (accepts exec) w ops w')
    (closed : Closed epoch nonce w) : takes epoch nonce ops = [] := by
  induction run with
  | nil => rfl
  | @cons _ _ _ op ops first _ ih =>
    obtain ⟨still, none⟩ := (exec_accepted first).closed closed
    rw [← List.singleton_append, takes_append, none, ih still]
    rfl

theorem takes_of_ends {ops : List Op} (run : Run (accepts exec) w (op :: ops) w')
    (ended : Ends epoch nonce w op ∨ epoch < w.facility.epoch) :
    takes epoch nonce (op :: ops) = [] := by
  rcases ended with ends | past
  · cases run with
    | cons first rest =>
      obtain ⟨closed, none⟩ := (exec_accepted first).ends ends
      rw [← List.singleton_append, takes_append, none, takes_of_closed rest closed]
      rfl
  · exact takes_of_closed run (.inl past)

/-- A call that takes nothing on the nonce leaves what is filled, and the digest. -/
theorem Accepted.untouched (h : Accepted w op w')
    (other : ∀ t, op.take = some t → ¬(t.quote.epoch = epoch ∧ t.quote.nonce = nonce)) :
    (w'.facility.quoteUses epoch nonce).filled = (w.facility.quoteUses epoch nonce).filled ∧
      (w'.facility.quoteUses epoch nonce).digest = (w.facility.quoteUses epoch nonce).digest := by
  cases drawing : op.take with
  | none => exact h.unused drawing epoch nonce
  | some t =>
    have apart := other t drawing
    rw [(h.taken drawing).uses_eq, if_neg fun here => apart ⟨here.1.symm, here.2.symm⟩]
    exact ⟨rfl, rfl⟩

/-- The storage of a nonce against the draws on it so far. -/
structure Recorded (epoch nonce : ℕ) (ops : List Op) (w : World) : Prop where
  filled : ((takes epoch nonce ops).map Take.principal).sum =
    (w.facility.quoteUses epoch nonce).filled
  each : ∀ t ∈ takes epoch nonce ops, 0 < t.principal ∧
    w.cfg.quoteHash t.quote = (w.facility.quoteUses epoch nonce).digest ∧
      (w.facility.quoteUses epoch nonce).filled ≤ t.quote.capacity

variable {ops : List Op} {t : Take}

/-- Where something was taken, something is filled. -/
theorem Recorded.some_filled (h : Recorded epoch nonce ops w) (mem : t ∈ takes epoch nonce ops) :
    (w.facility.quoteUses epoch nonce).filled ≠ 0 := by
  have part : t.principal ≤ ((takes epoch nonce ops).map Take.principal).sum :=
    List.single_le_sum (fun _ _ => Nat.zero_le _) _ (List.mem_map_of_mem mem)
  have positive := (h.each t mem).1
  rw [h.filled] at part
  omega

/-- A draw on a nonce that was drawn before is of the same quote. -/
theorem Recorded.same_quote (ideal : Injective w.cfg.quoteHash)
    (h : Recorded epoch nonce ops w) {first : Take} (mem : first ∈ takes epoch nonce ops)
    (taken : Taken t w w') (at_epoch : t.quote.epoch = epoch) (at_nonce : t.quote.nonce = nonce) :
    first.quote = t.quote := by
  have digest := taken.digest
  rw [at_epoch, at_nonce] at digest
  exact ideal ((h.each first mem).2.1.trans (digest.resolve_left (h.some_filled mem)))

theorem Recorded.take (ideal : Injective w.cfg.quoteHash) (h : Recorded epoch nonce ops w)
    (taken : Taken t w w') (cfg_eq : w'.cfg = w.cfg) (drawing : op.take = some t)
    (at_epoch : t.quote.epoch = epoch) (at_nonce : t.quote.nonce = nonce) :
    Recorded epoch nonce (ops ++ [op]) w' := by
  have uses := taken.uses_eq epoch nonce
  rw [if_pos ⟨at_epoch.symm, at_nonce.symm⟩] at uses
  have room := taken.room
  rw [at_epoch, at_nonce] at room
  refine ⟨?_, fun other mem => ?_⟩
  · rw [takes_append, takes_self drawing at_epoch at_nonce, List.map_append, List.sum_append,
      h.filled, uses]
    simp
  · rw [uses, cfg_eq]
    rw [takes_append, takes_self drawing at_epoch at_nonce] at mem
    rcases List.mem_append.mp mem with before | last
    · rw [h.same_quote ideal before taken at_epoch at_nonce]
      exact ⟨(h.each other before).1, rfl, room⟩
    · obtain rfl := List.mem_singleton.mp last
      exact ⟨taken.positive, rfl, room⟩

theorem Recorded.step (ideal : Injective w.cfg.quoteHash) (h : Recorded epoch nonce ops w)
    (step : Accepted w op w') : Recorded epoch nonce (ops ++ [op]) w' := by
  by_cases here : ∃ t, op.take = some t ∧ t.quote.epoch = epoch ∧ t.quote.nonce = nonce
  · obtain ⟨t, drawing, at_epoch, at_nonce⟩ := here
    exact h.take ideal (step.taken drawing) step.cfg_eq drawing at_epoch at_nonce
  · have other : ∀ t, op.take = some t → ¬(t.quote.epoch = epoch ∧ t.quote.nonce = nonce) :=
      fun t drawing at_nonce => here ⟨t, drawing, at_nonce⟩
    obtain ⟨filled, digest⟩ := step.untouched other
    constructor
    · rw [takes_append, takes_other other, List.append_nil, filled, h.filled]
    · rw [takes_append, takes_other other, List.append_nil, filled, digest, step.cfg_eq]
      exact h.each

theorem recorded_of_run {start : World} (fresh : Deployed start)
    (ideal : Injective start.cfg.quoteHash) (run : Run (accepts exec) start ops w)
    (epoch nonce : ℕ) : Recorded epoch nonce ops w := by
  obtain ⟨limits, -, empty⟩ := fresh
  have start_recorded : Recorded epoch nonce [] start :=
    ⟨by rw [empty]; rfl, fun t none => absurd none List.not_mem_nil⟩
  refine (run.history (fun ops w => Recorded epoch nonce ops w ∧ w.cfg = start.cfg)
    (fun ops v op v' h done => ?_) ⟨start_recorded, rfl⟩).1
  have step := exec_accepted done
  exact ⟨h.1.step (h.2 ▸ ideal) step, step.cfg_eq.trans h.2⟩

/-- In every run of a facility whose quote digests do not collide, the draws on a nonce are of one
quote and lend no more than its capacity; each keeps to what the quote grants when it is made; and
once the nonce is cancelled or its epoch is over there are none. -/
theorem quote_capacity {start w : World} {ops : List Op} (fresh : Deployed start)
    (ideal : Injective start.cfg.quoteHash) (run : Run (accepts exec) start ops w)
    (epoch nonce : ℕ) :
    (∃ digest, ∀ t ∈ takes epoch nonce ops, start.cfg.quoteHash t.quote = digest) ∧
    (∀ t ∈ takes epoch nonce ops,
      ((takes epoch nonce ops).map Take.principal).sum ≤ t.quote.capacity) ∧
    ∀ before op after v v', ops = before ++ op :: after → Run (accepts exec) start before v →
      exec op v = .ok v' → Run (accepts exec) v' after w →
      (∀ t, op.take = some t → Granted t v) ∧
        (Ends epoch nonce v op ∨ epoch < v.facility.epoch →
          takes epoch nonce (op :: after) = []) := by
  have recorded := recorded_of_run fresh ideal run epoch nonce
  refine ⟨⟨(w.facility.quoteUses epoch nonce).digest, fun t mem => ?_⟩, fun t mem => ?_, ?_⟩
  · have kept := (recorded.each t mem).2.1
    rw [run_cfg_eq run] at kept
    exact kept
  · rw [recorded.filled]
    exact (recorded.each t mem).2.2
  · intro before op after v v' _ _ step rest
    refine ⟨fun t drawing => ((exec_accepted step).taken drawing).granted, fun ended => ?_⟩
    exact takes_of_ends (.cons step rest) ended

/-! A quote for a thousand, of which 333 and 600 are drawn before it is cancelled. -/

def encodeQuote (q : Quote) : ℕ :=
  Encodable.encode [q.epoch, q.nonce, Fin.val (n := 2 ^ 160) q.borrower, q.capacity, q.minDraw,
    q.collateralForCapacity, q.interestForCapacity, q.duration, q.validAfter, q.expiresAt]

theorem encodeQuote_injective : Injective encodeQuote := by
  intro p q same
  have fields := Encodable.encode_injective same
  simp only [List.cons.injEq, and_true] at fields
  obtain ⟨e, n, b, c, m, cc, ic, d, va, ex⟩ := fields
  cases p
  cases q
  simp only [Quote.mk.injEq]
  exact ⟨e, n, Fin.ext b, c, m, cc, ic, d, va, ex⟩

def quotedStart : World where
  cfg := sampleConfig encodeQuote
  now := 1000
  loanToken := (TokenLedger.empty.mint 2 (10 ^ 9)).approve 2 100 (10 ^ 9)
  collateralToken := (TokenLedger.empty.mint 3 (10 ^ 9)).approve 3 100 (10 ^ 9)
  isValidSignatureNow signer _ _ := signer == 2
  facility := deployed ⟨10 ^ 9, 1, 10 ^ 6, 86400, 86400, 5000, 1, 0⟩

def quotedThousand : Quote := sampleQuote

def quotedOps : List Op :=
  [.deposit 2 (10 ^ 6), .draw 3 11 quotedThousand [] 333 10 10 0,
    .draw 3 12 quotedThousand [] 600 10 10 0, .cancelQuote 2 5, .setNewLoansPaused 2 true]

def quotedEnd : World := reached quotedStart (execAll exec quotedOps quotedStart)

theorem quoted_run : Run (accepts exec) quotedStart quotedOps quotedEnd :=
  run_of_execAll (eq_ok_reached _ (by decide +kernel))

theorem quoted_capacity :
    ((takes 1 5 quotedOps).map Take.principal).sum = 933 ∧
      ((takes 1 5 quotedOps).map Take.principal).sum ≤ quotedThousand.capacity := by
  have bounded := (quote_capacity ⟨_, by decide, rfl⟩ encodeQuote_injective quoted_run 1 5).2.1
  exact ⟨by decide, bounded ⟨3, quotedThousand, [], 333⟩
    (by simp [takes, quotedOps, Op.take, quotedThousand, sampleQuote])⟩

end Turret.LenderFacility
