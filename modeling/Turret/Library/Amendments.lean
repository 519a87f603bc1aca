import Turret.Library.Execution

/-! A term of a deal that its two parties can change together: one proposes a new
value in a slot that holds one proposal, the other accepts exactly that. A labelled
system that keeps such a deal, and moves it only by the steps below, changes the
term only where both agreed, in every run. -/

namespace Turret.Amendments

open Execution

structure Proposal (A : Type) where
  proposer : A
  nonce : ℕ
  old : ℕ
  new : ℕ
  expiresAt : ℕ

inductive Phase
  | unopened
  | active
  | settled
  deriving DecidableEq

structure Deal (A : Type) where
  phase : Phase
  lender : A
  borrower : A
  deadline : ℕ
  nonce : ℕ
  proposal : Proposal A

/-- What a call does to the deal: any other call leaves an active deal alone. -/
inductive Act (A : Type)
  | propose (proposer : A) (new expiresAt : ℕ)
  | cancel
  | accept (accepter : A) (nonce old new expiresAt : ℕ)
  | settle

def Act.acceptedNonce {A : Type} : Act A → Option ℕ
  | .accept _ nonce _ _ _ => some nonce
  | .propose .. | .cancel | .settle => none

variable {A : Type}

/-- The nonces of the proposals accepted by a list of calls, in order. -/
def accepted {ι : Type} (act : ι → Option (Act A)) (is : List ι) : List ℕ :=
  (is.filterMap act).filterMap Act.acceptedNonce

def Deal.party (d : Deal A) (a : A) : Prop := a = d.lender ∨ a = d.borrower

/-- The moves of a deal; `vacant` is what an empty slot holds. -/
inductive Deal.Step (vacant : Proposal A) (now : ℕ) (d : Deal A) : Option (Act A) → Deal A → Prop
  | rest : Step vacant now d none d
  | opens (d' : Deal A) (before : d.phase = .unopened) (nonce : d'.nonce = d.nonce)
      (proposal : d'.proposal = d.proposal) : Step vacant now d none d'
  | propose (a : A) (new expiresAt : ℕ) (active : d.phase = .active) (party : d.party a)
      (later : d.deadline < new) :
      Step vacant now d (some (.propose a new expiresAt))
        { d with
          nonce := d.nonce + 1, proposal := ⟨a, d.nonce + 1, d.deadline, new, expiresAt⟩ }
  | cancel : Step vacant now d (some .cancel) { d with proposal := vacant }
  | accept (a : A) (active : d.phase = .active) (party : d.party a)
      (other : a ≠ d.proposal.proposer) (proposed : d.proposal.proposer ≠ vacant.proposer)
      (inTime : now < d.proposal.expiresAt) (current : d.deadline = d.proposal.old) :
      Step vacant now d
        (some (.accept a d.proposal.nonce d.proposal.old d.proposal.new d.proposal.expiresAt))
        { d with deadline := d.proposal.new, proposal := vacant }
  | settle (p : Proposal A) (active : d.phase = .active)
      (slot : p = d.proposal ∨ p = vacant) :
      Step vacant now d (some .settle) { d with phase := .settled, proposal := p }

namespace Deal.Step

variable {vacant : Proposal A} {now : ℕ} {d d' : Deal A} {x : Option (Act A)}

/-- A settled deal stays as it is. -/
theorem settled (h : d.Step vacant now x d') (was : d.phase = .settled) :
    d'.phase = .settled ∧ d'.deadline = d.deadline := by
  cases h with
  | rest | cancel => exact ⟨was, rfl⟩
  | opens _ before | propose _ _ _ before | accept _ before => exact nomatch was.symm.trans before
  | settle => exact ⟨rfl, rfl⟩

/-- Only an acceptance moves the deadline of a deal that was opened. -/
theorem accepts_of_moved (h : d.Step vacant now x d') (opened : d.phase ≠ .unopened)
    (moved : d'.deadline ≠ d.deadline) :
    ∃ a nonce old new expiresAt, x = some (.accept a nonce old new expiresAt) := by
  cases h with
  | rest | propose | cancel | settle => exact absurd rfl moved
  | opens _ before => exact absurd before opened
  | accept a => exact ⟨a, _, _, _, _, rfl⟩

end Deal.Step

/-! ### Systems that keep a deal -/

section Systems

variable {σ ι : Type} (step : σ → ι → σ → Prop) (view : σ → Deal A) (act : ι → Option (Act A))
  (now : σ → ℕ)

/-- The proposal of the slot was made in the run, and nothing has touched the deal since. -/
structure Pending (start : σ) (is : List ι) (s : σ) (proposer : A) (nonce old new expiresAt : ℕ) :
    Prop where
  made : ∃ earlier j mid u u', is = earlier ++ j :: mid ∧ Run step start earlier u ∧ step u j u' ∧
    Run step u' mid s ∧ act j = some (.propose proposer new expiresAt) ∧
    (view u).phase = .active ∧ (view u).deadline = old ∧ (view u').nonce = nonce ∧
    ∀ k ∈ mid, act k = none
  party : (view s).party proposer
  later : old < new

/-- What both parties have agreed to when `accepter` accepts in the state `s`. -/
structure Agreed (start : σ) (is : List ι) (s t : σ) (accepter : A)
    (nonce old new expiresAt : ℕ) : Prop where
  active : (view s).phase = .active
  deadline : (view s).deadline = old
  moved : (view t).deadline = new
  later : old < new
  inTime : now s < expiresAt
  party : (view s).party accepter
  proposed : ∃ proposer ≠ accepter,
    Pending step view act start is s proposer nonce old new expiresAt

/-- In the run the deadline of the deal moves by agreement only, and no proposal is used twice. -/
structure Consented (start : σ) (is : List ι) (s : σ) : Prop where
  only : ∀ before i after a b, is = before ++ i :: after → Run step start before a → step a i b →
    Run step b after s → (view a).phase ≠ .unopened → (view b).deadline ≠ (view a).deadline →
    ∃ accepter nonce old new expiresAt, act i = some (.accept accepter nonce old new expiresAt)
  agreed : ∀ before i after a b accepter nonce old new expiresAt, is = before ++ i :: after →
    Run step start before a → step a i b → Run step b after s →
    act i = some (.accept accepter nonce old new expiresAt) →
    Agreed step view act now start before a b accepter nonce old new expiresAt
  once : (accepted act is).Pairwise (· < ·)
  settled : ∀ before after a, is = before ++ after → Run step start before a →
    Run step a after s → (view a).phase = .settled →
    (view s).phase = .settled ∧ (view s).deadline = (view a).deadline

variable {step view act now} {vacant : Proposal A} {start s t : σ} {is : List ι}

theorem Pending.snoc {i : ι} {a : A} {nonce old new expiresAt : ℕ}
    (h : Pending step view act start is s a nonce old new expiresAt) (done : step s i t)
    (other : act i = none) (same : view t = view s) :
    Pending step view act start (is ++ [i]) t a nonce old new expiresAt := by
  obtain ⟨⟨earlier, j, mid, u, u', rfl, first, made, rest, proposed, active, old_eq, nonce_eq,
    quiet⟩, party, later⟩ := h
  refine ⟨⟨earlier, j, mid ++ [i], u, u', by simp, first, made, rest.snoc done, proposed, active,
    old_eq, nonce_eq, fun k mem => ?_⟩, same ▸ party, later⟩
  rcases List.mem_append.mp mem with before | last
  · exact quiet k before
  · exact List.mem_singleton.mp last ▸ other

/-- What the slot says after a run: nothing before the deal is opened, and what was last proposed
while it is active. -/
structure Slot (step : σ → ι → σ → Prop) (view : σ → Deal A) (act : ι → Option (Act A))
    (vacant : Proposal A) (start : σ) (is : List ι) (s : σ) : Prop where
  run : Run step start is s
  unopened : (view s).phase = .unopened → (view s).proposal.proposer = vacant.proposer
  pending : (view s).phase = .active → (view s).proposal.proposer ≠ vacant.proposer →
    Pending step view act start is s (view s).proposal.proposer (view s).proposal.nonce
      (view s).proposal.old (view s).proposal.new (view s).proposal.expiresAt

theorem Slot.snoc {i : ι} (h : Slot step view act vacant start is s) (done : step s i t)
    (move : (view s).Step vacant (now s) (act i) (view t)) :
    Slot step view act vacant start (is ++ [i]) t := by
  have run := h.run.snoc done
  generalize label : act i = x at move
  generalize after : view t = d' at move
  cases move with
  | rest =>
    refine ⟨run, ?_, fun active standing => ?_⟩
    · rw [after]
      exact h.unopened
    · rw [after] at active standing ⊢
      exact (h.pending active standing).snoc done label after
  | opens _ before nonce proposal =>
    refine ⟨run, fun _ => ?_, fun _ standing => ?_⟩
    · rw [after, proposal]
      exact h.unopened before
    · rw [after, proposal] at standing
      exact absurd (h.unopened before) standing
  | propose a new expiresAt active party later =>
    refine ⟨run, fun unopened => ?_, fun _ _ => ?_⟩
    · rw [after] at unopened
      exact nomatch active.symm.trans unopened
    · rw [after]
      refine ⟨⟨is, i, [], s, t, rfl, h.run, done, .nil t, label, active, rfl, ?_, nofun⟩, ?_, later⟩
      · rw [after]
      · rw [after]
        exact party
  | cancel | accept =>
    refine ⟨run, fun _ => ?_, fun _ standing => absurd ?_ standing⟩
    · rw [after]
    · rw [after]
  | settle =>
    refine ⟨run, fun unopened => ?_, fun active => ?_⟩
    · rw [after] at unopened
      cases unopened
    · rw [after] at active
      cases active

theorem accepted_snoc (is : List ι) (i : ι) :
    accepted act (is ++ [i]) = accepted act is ++ ((act i).bind Act.acceptedNonce).toList := by
  rw [accepted, List.filterMap_append, List.filterMap_append]
  cases label : act i with
  | none => simp [label, accepted]
  | some x => cases n : x.acceptedNonce <;> simp [label, n, accepted]

/-- No proposal accepted so far has a nonce above the last one given, and the one that stands has a
nonce above all of them. -/
structure Spent (act : ι → Option (Act A)) (vacant : Proposal A) (is : List ι) (d : Deal A) :
    Prop where
  le : ∀ n ∈ accepted act is, n ≤ d.nonce
  standing : d.proposal.proposer ≠ vacant.proposer →
    d.proposal.nonce = d.nonce ∧ ∀ n ∈ accepted act is, n < d.nonce
  increasing : (accepted act is).Pairwise (· < ·)

/-- A move that accepts nothing, and leaves the slot or empties it. -/
theorem Spent.quiet {d d' : Deal A} {is' : List ι} (h : Spent act vacant is d)
    (same : accepted act is' = accepted act is) (nonce : d'.nonce = d.nonce)
    (slot : d'.proposal = d.proposal ∨ d'.proposal = vacant) : Spent act vacant is' d' := by
  refine ⟨?_, fun standing => ?_, same ▸ h.increasing⟩
  · rw [same, nonce]
    exact h.le
  · rw [same, nonce]
    rcases slot with kept | emptied
    · rw [kept] at standing ⊢
      exact h.standing standing
    · exact absurd (congrArg Proposal.proposer emptied) standing

theorem Spent.snoc {d d' : Deal A} {time : ℕ} {i : ι} (h : Spent act vacant is d)
    (move : d.Step vacant time (act i) d') : Spent act vacant (is ++ [i]) d' := by
  have snoc : accepted act (is ++ [i]) = accepted act is ++ ((act i).bind Act.acceptedNonce).toList :=
    accepted_snoc is i
  generalize act i = x at move snoc
  cases move with
  | rest => exact h.quiet (snoc.trans (List.append_nil _)) rfl (.inl rfl)
  | opens _ _ nonce proposal =>
    exact h.quiet (snoc.trans (List.append_nil _)) nonce (.inl proposal)
  | cancel => exact h.quiet (snoc.trans (List.append_nil _)) rfl (.inr rfl)
  | settle p _ slot => exact h.quiet (snoc.trans (List.append_nil _)) rfl slot
  | propose =>
    have same : accepted act (is ++ [i]) = accepted act is := snoc.trans (List.append_nil _)
    refine ⟨fun n mem => ?_, fun _ => ⟨rfl, fun n mem => ?_⟩, same ▸ h.increasing⟩
    · exact (h.le n (same ▸ mem)).trans (Nat.le_succ _)
    · exact Nat.lt_succ_of_le (h.le n (same ▸ mem))
  | accept a _ _ _ proposed =>
    obtain ⟨last, below⟩ := h.standing proposed
    replace snoc : accepted act (is ++ [i]) = accepted act is ++ [d.proposal.nonce] := snoc
    refine ⟨fun n mem => ?_, fun standing => absurd rfl standing, ?_⟩
    · rw [snoc] at mem
      rcases List.mem_append.mp mem with before | here
      · exact h.le n before
      · exact (List.mem_singleton.mp here).trans last |>.le
    · rw [snoc, List.pairwise_append]
      refine ⟨h.increasing, List.pairwise_singleton .., fun n mem m here => ?_⟩
      rw [List.mem_singleton.mp here, last]
      exact below n mem

/-! Where an invariant of the system makes its steps moves of the deal. -/

variable {inv : σ → Prop} (keeps : ∀ s i t, inv s → step s i t → inv t)
  (moves : ∀ s i t, inv s → step s i t → (view s).Step vacant (now s) (act i) (view t))

include keeps moves

theorem slot_of_run (sound : inv start) (fresh : (view start).proposal = vacant)
    (unopened : (view start).phase = .unopened) (run : Run step start is s) :
    Slot step view act vacant start is s := by
  refine (run.history (fun is s => Slot step view act vacant start is s ∧ inv s)
    (fun is s i t h done => ⟨h.1.snoc done (moves s i t h.2 done), keeps s i t h.2 done⟩)
    ⟨⟨.nil start, fun _ => congrArg Proposal.proposer fresh, fun active => ?_⟩, sound⟩).1
  exact nomatch unopened.symm.trans active

/-- An acceptance in a run is of a standing proposal. -/
theorem agreed_of_run (sound : inv start) (fresh : (view start).proposal = vacant)
    (unopened : (view start).phase = .unopened) (run : Run step start is s) {i : ι}
    (done : step s i t) {accepter : A} {nonce old new expiresAt : ℕ}
    (label : act i = some (.accept accepter nonce old new expiresAt)) :
    Agreed step view act now start is s t accepter nonce old new expiresAt := by
  have slot := slot_of_run keeps moves sound fresh unopened run
  have move := moves s i t (run.invariant inv keeps sound) done
  rw [label] at move
  generalize after : view t = d' at move
  cases move with
  | accept _ active party other proposed inTime current =>
    have pending := slot.pending active proposed
    exact ⟨active, current, by rw [after], pending.later, inTime, party, _, other.symm, pending⟩

theorem increasing_of_run (sound : inv start) (fresh : (view start).proposal = vacant)
    (run : Run step start is s) : (accepted act is).Pairwise (· < ·) := by
  refine (run.history (fun is s => Spent act vacant is (view s) ∧ inv s)
    (fun is s i t h done => ⟨h.1.snoc (moves s i t h.2 done), keeps s i t h.2 done⟩)
    ⟨⟨nofun, fun standing => ?_, .nil⟩, sound⟩).1.increasing
  exact absurd (congrArg Proposal.proposer fresh) standing

theorem settled_of_run (sound : inv s) (run : Run step s is t)
    (ended : (view s).phase = .settled) :
    (view t).phase = .settled ∧ (view t).deadline = (view s).deadline := by
  refine (run.invariant
    (fun v => ((view v).phase = .settled ∧ (view v).deadline = (view s).deadline) ∧ inv v)
    (fun u i v h done => ?_) ⟨⟨ended, rfl⟩, sound⟩).1
  obtain ⟨phase, deadline⟩ := (moves u i v h.2 done).settled h.1.1
  exact ⟨⟨phase, deadline.trans h.1.2⟩, keeps u i v h.2 done⟩

/-- Such a system changes the deadline by consent only. -/
theorem consented_of_run (sound : inv start) (fresh : (view start).proposal = vacant)
    (unopened : (view start).phase = .unopened) (run : Run step start is s) :
    Consented step view act now start is s where
  only _ _ _ a b _ first done _ opened moved :=
    (moves a _ b (first.invariant inv keeps sound) done).accepts_of_moved opened moved
  agreed _ _ _ _ _ _ _ _ _ _ _ first done _ label :=
    agreed_of_run keeps moves sound fresh unopened first done label
  once := increasing_of_run keeps moves sound fresh run
  settled _ _ _ _ first rest ended :=
    settled_of_run keeps moves (first.invariant inv keeps sound) rest ended

end Systems

end Turret.Amendments
