import Turret.Library.Ledger

/-! An ERC-721 collection. The account 0 owns what is not minted and is nobody's
approval. A token leaves its owner only by the owner, an operator of the owner or
the account approved for the token; a transfer takes that approval back. -/

namespace Turret

open Function

structure NftLedger where
  ownerOf : ℕ → Address
  getApproved : ℕ → Address
  isApprovedForAll : Address → Address → Bool

namespace NftLedger

/-- `_isApprovedOrOwner`. -/
def Authorized (spender : Address) (id : ℕ) (l : NftLedger) : Prop :=
  spender = l.ownerOf id ∨ l.isApprovedForAll (l.ownerOf id) spender = true ∨
    spender = l.getApproved id

instance (spender : Address) (id : ℕ) (l : NftLedger) : Decidable (l.Authorized spender id) :=
  inferInstanceAs (Decidable (_ ∨ _ ∨ _))

def give (dst : Address) (id : ℕ) (l : NftLedger) : NftLedger :=
  { l with ownerOf := update l.ownerOf id dst, getApproved := update l.getApproved id 0 }

def transferFrom (spender src dst : Address) (id : ℕ) (l : NftLedger) : Option NftLedger :=
  if l.ownerOf id = src ∧ src ≠ 0 ∧ dst ≠ 0 ∧ l.Authorized spender id then some (l.give dst id)
  else none

def approve (sender spender : Address) (id : ℕ) (l : NftLedger) : Option NftLedger :=
  if l.ownerOf id ≠ 0 ∧
      (sender = l.ownerOf id ∨ l.isApprovedForAll (l.ownerOf id) sender = true) then
    some { l with getApproved := update l.getApproved id spender }
  else none

def setApprovalForAll (sender operator : Address) (approved : Bool) (l : NftLedger) : NftLedger :=
  { l with
    isApprovedForAll :=
      update l.isApprovedForAll sender (update (l.isApprovedForAll sender) operator approved) }

def mint (dst : Address) (id : ℕ) (l : NftLedger) : Option NftLedger :=
  if l.ownerOf id = 0 ∧ dst ≠ 0 then some (l.give dst id) else none

def burn (sender : Address) (id : ℕ) (l : NftLedger) : Option NftLedger :=
  if l.ownerOf id ≠ 0 ∧ l.Authorized sender id then some (l.give 0 id) else none

variable {l l' : NftLedger} {spender src dst x : Address} {id : ℕ}

@[simp] theorem give_ownerOf_self (dst : Address) (id : ℕ) (l : NftLedger) :
    (l.give dst id).ownerOf id = dst := by simp [give]

theorem give_ownerOf_other {i : ℕ} (h : i ≠ id) (dst : Address) (l : NftLedger) :
    (l.give dst id).ownerOf i = l.ownerOf i := by simp [give, h]

@[simp] theorem transferFrom_eq_some :
    l.transferFrom spender src dst id = some l' ↔
      (l.ownerOf id = src ∧ src ≠ 0 ∧ dst ≠ 0 ∧ l.Authorized spender id) ∧ l.give dst id = l' := by
  simp only [transferFrom, Option.ite_none_right_eq_some, Option.some.injEq]

/-! ### A holder that approves nobody -/

/-- The holder has no operator, and none of its tokens is approved to anyone. -/
structure Silent (x : Address) (l : NftLedger) : Prop where
  operators : ∀ a, l.isApprovedForAll x a = false
  approvals : ∀ id, l.ownerOf id = x → l.getApproved id = 0

/-- Others have no say over its tokens. -/
theorem Silent.not_authorized (h : Silent x l) (owned : l.ownerOf id = x) (other : spender ≠ x)
    (some_ : spender ≠ 0) : ¬l.Authorized spender id := by
  simp [Authorized, owned, h.operators, h.approvals id owned, other, some_]

theorem Silent.give (h : Silent x l) (dst : Address) (id : ℕ) : Silent x (l.give dst id) where
  operators := h.operators
  approvals i owned := by
    by_cases same : i = id
    · subst same
      simp [NftLedger.give]
    · rw [give_ownerOf_other same] at owned
      simp [NftLedger.give, same, h.approvals i owned]

/-- Two collections in which the holder is silent and has kept its tokens. -/
structure Keeps (x : Address) (l l' : NftLedger) : Prop where
  silent : Silent x l → Silent x l'
  owned : Silent x l → ∀ id, l.ownerOf id = x → l'.ownerOf id = x

theorem Keeps.refl (x : Address) (l : NftLedger) : Keeps x l l := ⟨id, fun _ _ => id⟩

theorem Keeps.trans {l'' : NftLedger} (h : Keeps x l l') (k : Keeps x l' l'') : Keeps x l l'' where
  silent s := k.silent (h.silent s)
  owned s i owned := k.owned (h.silent s) i (h.owned s i owned)

/-- A token of someone else changes hands. -/
theorem keeps_give (away : l.ownerOf id ≠ x) : Keeps x l (l.give dst id) where
  silent s := s.give dst id
  owned _ i owned := by
    have other : i ≠ id := fun same => away (same ▸ owned)
    rw [give_ownerOf_other other, owned]

end NftLedger

/-- The calls of a collection; a mint has no sender here. -/
inductive NftCall
  | transferFrom (spender src dst : Address) (id : ℕ)
  | approve (sender spender : Address) (id : ℕ)
  | setApprovalForAll (sender operator : Address) (approved : Bool)
  | mint (dst : Address) (id : ℕ)
  | burn (sender : Address) (id : ℕ)

namespace NftCall

def sender : NftCall → Option Address
  | .transferFrom sender .. | .approve sender .. | .setApprovalForAll sender .. | .burn sender _ =>
    some sender
  | .mint .. => none

def exec : NftCall → NftLedger → Option NftLedger
  | .transferFrom spender src dst id, l => l.transferFrom spender src dst id
  | .approve sender spender id, l => l.approve sender spender id
  | .setApprovalForAll sender operator approved, l =>
    some (l.setApprovalForAll sender operator approved)
  | .mint dst id, l => l.mint dst id
  | .burn sender id, l => l.burn sender id

open NftLedger in
/-- A holder that approves nobody keeps its tokens through the calls of others. -/
theorem exec_keeps {c : NftCall} {l l' : NftLedger} {x : Address} (h : c.exec l = some l')
    (some_ : x ≠ 0) (away : c.sender ≠ some x) (nobody : c.sender ≠ some 0) : Keeps x l l' := by
  by_cases silent : Silent x l
  swap
  · exact ⟨fun s => absurd s silent, fun s => absurd s silent⟩
  cases c with
  | transferFrom spender src dst id =>
    obtain ⟨⟨-, -, -, allowed⟩, rfl⟩ := transferFrom_eq_some.mp h
    refine keeps_give fun owned => silent.not_authorized owned ?_ ?_ allowed
    · exact fun same => away (congrArg some same)
    · exact fun same => nobody (congrArg some same)
  | approve sender spender id =>
    simp only [exec, NftLedger.approve, Option.ite_none_right_eq_some, Option.some.injEq] at h
    obtain ⟨⟨-, allowed⟩, rfl⟩ := h
    have other : l.ownerOf id ≠ x := by
      intro owned
      rw [owned, silent.operators] at allowed
      exact away (congrArg some (allowed.resolve_right (by decide)))
    refine ⟨fun s => ⟨s.operators, fun i owned => ?_⟩, fun _ _ owned => owned⟩
    have apart : i ≠ id := fun same => other (same ▸ owned)
    simpa [apart] using s.approvals i owned
  | setApprovalForAll sender operator approved =>
    obtain rfl := Option.some.inj h
    have other : x ≠ sender := fun same => away (congrArg some same.symm)
    exact ⟨fun s => ⟨fun a => by simpa [NftLedger.setApprovalForAll, other] using s.operators a, s.approvals⟩,
      fun _ _ => id⟩
  | mint dst id =>
    simp only [exec, NftLedger.mint, Option.ite_none_right_eq_some, Option.some.injEq] at h
    obtain ⟨⟨unminted, -⟩, rfl⟩ := h
    exact keeps_give (unminted ▸ Ne.symm some_)
  | burn sender id =>
    simp only [exec, NftLedger.burn, Option.ite_none_right_eq_some, Option.some.injEq] at h
    obtain ⟨⟨-, allowed⟩, rfl⟩ := h
    refine keeps_give fun owned => silent.not_authorized owned ?_ ?_ allowed
    · exact fun same => away (congrArg some same)
    · exact fun same => nobody (congrArg some same)

end NftCall

end Turret
