import Turret.Negotiations.Service

/-! What one transaction does: it repeats an answer, opens a session or a
conversation, or moves one conversation on by one revision. -/

namespace Turret.Negotiations

open Execution Function

variable {Digest : Type} {svc : Service Digest} {signed : Signed}
  {src linked : Option Source} {w t : World Digest} {row new : Thread} {result : Result}

def State.started : State → Bool
  | .replacing | .recovering | .funding | .funded => true
  | _ => false

/-- The moves of a conversation. -/
inductive Transition (w : World Digest) (src linked : Option Source) (row : Thread) :
    Action → Thread → (SourceKey → Option ℕ) → Prop
  | close (ref : Ref) : row.state.started = false →
      Transition w src linked row (.close ref) { row with state := .closed }
        fun key => if w.selections key = some row.id then none else w.selections key
  | counter (ref : Ref) (terms : Terms) (responseBy : ℕ) (latest : Proposal) :
      row.state = .open_ →
      Transition w src linked row (.counter ref terms responseBy) { row with latest } w.selections
  | agree (ref : Ref) (s : Source) (account : Address) : s ∈ src → row.state = .open_ →
      (∀ thread ∈ selected row s w, thread = row.id) →
      Transition w src linked row (.agree ref)
        { row with state := .agreed, agreedBy := some account, agreedAt := some w.now }
        (update w.selections row.sourceKey (some row.id))
  | start (ref : Ref) (s : Source) : s ∈ src → row.state = .agreed →
      max w.now s.now < row.latest.responseBy →
      Transition w src linked row (.start ref)
        { row with state := .replacing, cancelAfterBlock := some s.blockNumber } w.selections
  | cancelled (ref : Ref) (hash : String) : row.state = .replacing →
      Transition w src linked row (.cancelled ref hash)
        { row with cancelHash := some hash, state := .recovering } w.selections
  | prepare (ref : Ref) (s : Source) (attempt : ℕ) : s ∈ src → row.state = .recovering →
      Transition w src linked row (.prepare ref)
        { row with
          state := .funding
          attempt := some attempt
          fundAfterBlock := some s.blockNumber } w.selections
  | bind (ref : Ref) (hash : String) (l : Source) : l ∈ linked → row.state = .funding →
      Transition w src linked row (.bind ref hash)
        { row with
          state := .funded
          replacement := some ⟨l.id, hash, l.status, l.blockNumber, l.blockHash⟩ } w.selections

/-- The row that the transaction keeps. -/
def advanced (row new : Thread) (now : ℕ) : Thread :=
  { new with revision := row.revision + 1, updatedAt := now }

/-- The stored answer to an action that is new. -/
def accept (svc : Service Digest) (signed : Signed) (done : Result × World Digest)
    (now : ℕ) : World Digest :=
  { done.2 with
    nonces := done.2.nonces ++
      [⟨signed.envelope.account, signed.envelope.nonce, svc.digest signed, done.1, now⟩] }

/-- What a transaction does when it does not throw. -/
inductive Committed (svc : Service Digest) (signed : Signed) (src linked : Option Source)
    (w : World Digest) : Result → World Digest → Prop
  | replayed (prior : NonceRow Digest) :
      w.nonceRow signed.envelope.account signed.envelope.nonce = some prior →
      prior.hash = svc.digest signed → Committed svc signed src linked w prior.result w
  | login :
      w.nonceRow signed.envelope.account signed.envelope.nonce = none →
      signed.envelope.action = .login →
      Committed svc signed src linked w (login signed.envelope.account w).1
        (accept svc signed (login signed.envelope.account w) w.now)
  | opened (row : Thread) :
      w.nonceRow signed.envelope.account signed.envelope.nonce = none →
      row.id = w.uuids → row.revision = 1 → row.state = .open_ → row.replacement = none →
      Committed svc signed src linked w (.thread w.now row)
        (accept svc signed (record signed row w.selections w) w.now)
  | moved (ref : Ref) (row new : Thread) (selections : SourceKey → Option ℕ) :
      w.nonceRow signed.envelope.account signed.envelope.nonce = none →
      signed.envelope.action.ref = some ref → w.get ref.threadId = some row →
      row.revision = ref.revision → row.latest.id = ref.proposalId →
      Transition w src linked row signed.envelope.action new selections →
      Committed svc signed src linked w (.thread w.now (advanced row new w.now))
        (accept svc signed (record signed (advanced row new w.now) selections w) w.now)

theorem onRow_ok {account : Address} {action : Action} {selections : SourceKey → Option ℕ}
    (done : onRow account action row src linked w = .ok (new, selections)) :
    Transition w src linked row action new selections ∧ new.revision = row.revision := by
  cases action with
  | login => cases done
  | open_ => cases done
  | close ref =>
    simp only [onRow, onClose, bind_eq_ok, revertIf_eq_ok, pure_eq_ok] at done
    obtain ⟨-, ongoing, same⟩ := done
    cases same
    refine ⟨.close ref ?_, rfl⟩
    rcases state : row.state <;> simp_all [State.started]
  | counter ref terms responseBy =>
    simp only [onRow, onCounter, proposalOpen, bind_eq_ok, revertIf_eq_ok, orRevert_eq_ok,
      pure_eq_ok, not_or, not_not] at done
    obtain ⟨s, -, _, ⟨-, ⟨-, -, state, -⟩, -, -, rfl⟩, same⟩ := done
    cases same
    exact ⟨.counter ref terms responseBy _ state, rfl⟩
  | agree ref =>
    simp only [onRow, onAgree, proposalOpen, bind_eq_ok, revertIf_eq_ok, orRevert_eq_ok,
      pure_eq_ok, not_or, not_not] at done
    obtain ⟨s, at_src, -, ⟨-, -, state, -⟩, -, -, -, free, same⟩ := done
    cases same
    push Not at free
    exact ⟨.agree ref s account at_src state free, rfl⟩
  | start ref =>
    simp only [onRow, onStart, bind_eq_ok, revertIf_eq_ok, orRevert_eq_ok, pure_eq_ok, not_or,
      not_not, not_le] at done
    obtain ⟨s, at_src, _, ⟨-, -, -, -, -, ⟨state, before⟩, rfl⟩, same⟩ := done
    cases same
    exact ⟨.start ref s at_src state before, rfl⟩
  | cancelled ref hash =>
    simp only [onRow, onCancelled, bind_eq_ok, revertIf_eq_ok, pure_eq_ok, not_not] at done
    obtain ⟨_, ⟨-, -, -, state, rfl⟩, same⟩ := done
    cases same
    exact ⟨.cancelled ref hash state, rfl⟩
  | prepare ref =>
    simp only [onRow, onPrepare, bind_eq_ok, revertIf_eq_ok, orRevert_eq_ok, pure_eq_ok, not_or,
      not_not] at done
    obtain ⟨s, at_src, _, ⟨-, -, -, ⟨state, -⟩, rfl⟩, same⟩ := done
    cases same
    exact ⟨.prepare ref s w.uuids at_src state, rfl⟩
  | bind ref hash =>
    simp only [onRow, onBind, bind_eq_ok, revertIf_eq_ok, orRevert_eq_ok, pure_eq_ok,
      not_not] at done
    obtain ⟨l, at_linked, _, ⟨-, state, rfl⟩, same⟩ := done
    cases same
    exact ⟨.bind ref hash l at_linked state, rfl⟩

theorem currentRow_ok {ref : Ref} {account : Address} (done : currentRow ref account w = .ok row) :
    w.get ref.threadId = some row ∧ row.revision = ref.revision ∧ row.latest.id = ref.proposalId := by
  simp only [currentRow, World.visible, bind_eq_ok, revertIf_eq_ok, orRevert_eq_ok, pure_eq_ok,
    not_or, not_not] at done
  obtain ⟨_, ⟨_, found, -, -, rfl⟩, -, ⟨revision, proposal⟩, rfl⟩ := done
  exact ⟨found, revision, proposal⟩

theorem onOpen_ok {config : Market} {account : Address} {offerId responseBy : ℕ} {terms : Terms}
    {s : Source} (done : onOpen config account offerId terms responseBy s w = .ok row) :
    row.id = w.uuids ∧ row.revision = 1 ∧ row.state = .open_ ∧ row.replacement = none := by
  simp only [onOpen, bind_eq_ok, pure_eq_ok] at done
  obtain ⟨-, -, -, -, -, -, -, -, rfl⟩ := done
  exact ⟨rfl, rfl, rfl, rfl⟩

theorem perform_moved {action : Action} (is : signed.envelope.action = action)
    {done : Result × World Digest} {ref : Ref} (at_ref : action.ref = some ref)
    (h : (do
      let row ← currentRow ref signed.envelope.account w
      let (row, selections) ← onRow signed.envelope.account action row src linked w
      pure (record signed { row with revision := row.revision + 1, updatedAt := w.now }
        selections w)) = Except.ok done)
    (new_nonce : w.nonceRow signed.envelope.account signed.envelope.nonce = none) :
    Committed svc signed src linked w done.1 (accept svc signed done w.now) := by
  simp only [bind_eq_ok, pure_eq_ok] at h
  obtain ⟨row, current, ⟨new, selections⟩, moved, rfl⟩ := h
  obtain ⟨found, revision, proposal⟩ := currentRow_ok current
  obtain ⟨transition, same⟩ := onRow_ok moved
  have kept : ({ new with revision := new.revision + 1, updatedAt := w.now } : Thread) =
      advanced row new w.now := by
    rw [advanced, same]
  dsimp only
  rw [kept]
  exact .moved ref row new selections new_nonce (is ▸ at_ref) found revision proposal
    (is ▸ transition)

variable [DecidableEq Digest]

theorem commit_ok (done : commit svc signed src linked w = .ok (result, t)) :
    Committed svc signed src linked w result t := by
  simp only [commit, bind_eq_ok] at done
  obtain ⟨_, -, done⟩ := done
  split at done
  · rename_i prior found
    simp only [bind_eq_ok, revertIf_eq_ok, pure_eq_ok, not_not] at done
    obtain ⟨-, same, pair⟩ := done
    cases pair
    exact .replayed prior found same
  · rename_i new_nonce
    simp only [bind_eq_ok, pure_eq_ok] at done
    obtain ⟨-, -, ⟨r, after⟩, performed, pair⟩ := done
    cases pair
    change Committed svc signed src linked w r (accept svc signed (r, after) w.now)
    unfold perform at performed
    cases is : signed.envelope.action with
    | login =>
      simp only [is, pure_eq_ok] at performed
      cases performed
      exact .login new_nonce is
    | open_ =>
      simp only [is, bind_eq_ok, pure_eq_ok] at performed
      obtain ⟨config, -, s, -, row, opened, pair⟩ := performed
      cases pair
      obtain ⟨id, revision, state, unbound⟩ := onOpen_ok opened
      exact .opened row new_nonce id revision state unbound
    | counter =>
      simp only [is] at performed
      exact perform_moved is rfl performed new_nonce
    | agree =>
      simp only [is] at performed
      exact perform_moved is rfl performed new_nonce
    | close =>
      simp only [is] at performed
      exact perform_moved is rfl performed new_nonce
    | start =>
      simp only [is] at performed
      exact perform_moved is rfl performed new_nonce
    | cancelled =>
      simp only [is] at performed
      exact perform_moved is rfl performed new_nonce
    | prepare =>
      simp only [is] at performed
      exact perform_moved is rfl performed new_nonce
    | bind =>
      simp only [is] at performed
      exact perform_moved is rfl performed new_nonce

end Turret.Negotiations
