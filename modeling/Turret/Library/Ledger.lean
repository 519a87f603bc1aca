import Turret.Library.Execution

/-! Balances of a finite set of holders: sums over a function changed at one
holder, and an exact-transfer token with allowances. A transfer moves exactly
the stated amount or fails; nothing else changes a balance. -/

namespace Turret

open Finset Function

instance neZero_two_pow_160 : NeZero (2 ^ 160 : ℕ) := ⟨by norm_num⟩
instance neZero_two_pow_256 : NeZero (2 ^ 256 : ℕ) := ⟨by norm_num⟩

/-- A 160-bit account. -/
def Address : Type := Fin (2 ^ 160)
  deriving DecidableEq, Fintype

instance (n : ℕ) : OfNat Address n := inferInstanceAs (OfNat (Fin (2 ^ 160)) n)

instance : LawfulBEq (Address × Address) := inferInstance

theorem Address.two_ne_zero : (2 : Address) ≠ 0 := by decide

theorem Address.two_ne_one : (2 : Address) ≠ 1 := by decide

-- No sum over all accounts is ever to be unfolded.
attribute [irreducible] instFintypeAddress

section PointUpdate

variable {ι : Type} [Fintype ι] [DecidableEq ι] {β : Type}

/-- Changing `f` at `i` moves the sum by the change at `i`. -/
theorem sum_update_add (f : ι → ℕ) (i : ι) (v : ℕ) :
    (∑ j, update f i v j) + f i = (∑ j, f j) + v := by
  have split := Finset.add_sum_erase univ f (mem_univ i)
  rw [Finset.sum_update_of_mem (mem_univ i), ← Finset.erase_eq]
  omega

/-- The same for a field `g` of a record kept for each holder. -/
theorem sum_map_update_add (g : β → ℕ) (f : ι → β) (i : ι) (b : β) :
    (∑ j, g (update f i b j)) + g (f i) = (∑ j, g (f j)) + g b := by
  have h := sum_update_add (fun j => g (f j)) i (g b)
  have same : ∀ j, update (fun j => g (f j)) i (g b) j = g (update f i b j) := by
    intro j
    by_cases hj : j = i
    · subst hj; simp
    · simp [update_of_ne hj]
  simpa only [same] using h

omit [DecidableEq ι] in
theorem le_sum (f : ι → ℕ) (i : ι) : f i ≤ ∑ j, f j :=
  Finset.single_le_sum (fun _ _ => Nat.zero_le _) (mem_univ i)

end PointUpdate

section NumberedRecords

variable {β : Type}

/-- Changing one of the first `n` records moves the sum of a field by the change there. -/
theorem sum_range_update (g : β → ℕ) (f : ℕ → β) {n id : ℕ} (below : id < n) (b : β) :
    (∑ i ∈ range n, g (update f id b i)) + g (f id) = (∑ i ∈ range n, g (f i)) + g b := by
  have mem : id ∈ range n := mem_range.mpr below
  have others : ∑ i ∈ (range n).erase id, g (update f id b i) =
      ∑ i ∈ (range n).erase id, g (f i) :=
    sum_congr rfl fun i hi => by rw [update_of_ne (ne_of_mem_erase hi)]
  have before := add_sum_erase (range n) (fun i => g (f i)) mem
  have after := add_sum_erase (range n) (fun i => g (update f id b i)) mem
  simp only [update_self, others] at after
  omega

/-- One more record. -/
theorem sum_range_update_next (g : β → ℕ) (f : ℕ → β) (n : ℕ) (b : β) :
    ∑ i ∈ range (n + 1), g (update f n b i) = (∑ i ∈ range n, g (f i)) + g b := by
  rw [sum_range_succ, update_self]
  congr 1
  exact sum_congr rfl fun i hi => by rw [update_of_ne (mem_range.mp hi).ne]

end NumberedRecords

/-! ### The token -/

structure TokenLedger (A : Type) where
  balanceOf : A → ℕ
  allowance : A → A → ℕ

namespace TokenLedger

variable {A : Type} [DecidableEq A]

def empty : TokenLedger A := ⟨fun _ => 0, fun _ _ => 0⟩

/-- Move `amount` from `src` to `dst`; a holder paying itself is left as it was. -/
def move (src dst : A) (amount : ℕ) (t : TokenLedger A) : TokenLedger A :=
  let debited := update t.balanceOf src (t.balanceOf src - amount)
  { t with balanceOf := update debited dst (debited dst + amount) }

def transfer (sender dst : A) (amount : ℕ) (t : TokenLedger A) : Option (TokenLedger A) :=
  if amount ≤ t.balanceOf sender then some (t.move sender dst amount) else none

def approve (owner spender : A) (amount : ℕ) (t : TokenLedger A) : TokenLedger A :=
  { t with allowance := update t.allowance owner (update (t.allowance owner) spender amount) }

def transferFrom (spender src dst : A) (amount : ℕ) (t : TokenLedger A) :
    Option (TokenLedger A) :=
  if amount ≤ t.allowance src spender ∧ amount ≤ t.balanceOf src then
    some ((t.approve src spender (t.allowance src spender - amount)).move src dst amount)
  else none

def mint (dst : A) (amount : ℕ) (t : TokenLedger A) : TokenLedger A :=
  { t with balanceOf := update t.balanceOf dst (t.balanceOf dst + amount) }

@[simp] theorem move_allowance (src dst : A) (n : ℕ) (t : TokenLedger A) :
    (t.move src dst n).allowance = t.allowance := rfl

@[simp] theorem approve_balanceOf (a b : A) (n : ℕ) (t : TokenLedger A) :
    (t.approve a b n).balanceOf = t.balanceOf := rfl

@[simp] theorem mint_allowance (a : A) (n : ℕ) (t : TokenLedger A) :
    (t.mint a n).allowance = t.allowance := rfl

@[simp] theorem mint_self (a : A) (n : ℕ) (t : TokenLedger A) :
    (t.mint a n).balanceOf a = t.balanceOf a + n := by simp [mint]

theorem mint_other {a b : A} (h : b ≠ a) (n : ℕ) (t : TokenLedger A) :
    (t.mint a n).balanceOf b = t.balanceOf b := by simp [mint, h]

theorem le_mint (a b : A) (n : ℕ) (t : TokenLedger A) :
    t.balanceOf b ≤ (t.mint a n).balanceOf b := by
  by_cases h : b = a
  · subst h; simp
  · rw [mint_other h]

theorem move_src {src dst : A} (h : src ≠ dst) (n : ℕ) (t : TokenLedger A) :
    (t.move src dst n).balanceOf src = t.balanceOf src - n := by
  simp [move, h]

theorem move_dst {src dst : A} (h : src ≠ dst) (n : ℕ) (t : TokenLedger A) :
    (t.move src dst n).balanceOf dst = t.balanceOf dst + n := by
  simp [move, h.symm]

theorem move_other {src dst a : A} (hs : a ≠ src) (hd : a ≠ dst) (n : ℕ) (t : TokenLedger A) :
    (t.move src dst n).balanceOf a = t.balanceOf a := by
  simp [move, hs, hd]

theorem move_self {src : A} {n : ℕ} {t : TokenLedger A} (h : n ≤ t.balanceOf src) :
    (t.move src src n).balanceOf = t.balanceOf := by
  funext a
  by_cases ha : a = src
  · subst ha; simp [move, Nat.sub_add_cancel h]
  · simp [move, ha]

/-- Only the source of a move can end with less. -/
theorem le_move {src dst a : A} (hs : a ≠ src) (n : ℕ) (t : TokenLedger A) :
    t.balanceOf a ≤ (t.move src dst n).balanceOf a := by
  by_cases hd : a = dst
  · subst hd; simp [move, hs]
  · rw [move_other hs hd]

theorem approve_same (owner spender : A) (n : ℕ) (t : TokenLedger A) :
    (t.approve owner spender n).allowance owner spender = n := by simp [approve]

theorem approve_other {owner spender a b : A} (h : a ≠ owner ∨ b ≠ spender) (n : ℕ)
    (t : TokenLedger A) : (t.approve owner spender n).allowance a b = t.allowance a b := by
  by_cases ha : a = owner
  · subst ha
    have hb : b ≠ spender := h.resolve_left (fun k => k rfl)
    simp [approve, hb]
  · simp [approve, ha]

@[simp] theorem transfer_eq_some (a b : A) (n : ℕ) (t t' : TokenLedger A) :
    t.transfer a b n = some t' ↔ n ≤ t.balanceOf a ∧ t.move a b n = t' := by
  by_cases h : n ≤ t.balanceOf a <;> simp [transfer, h]

@[simp] theorem transferFrom_eq_some (s a b : A) (n : ℕ) (t t' : TokenLedger A) :
    t.transferFrom s a b n = some t' ↔ (n ≤ t.allowance a s ∧ n ≤ t.balanceOf a) ∧
      (t.approve a s (t.allowance a s - n)).move a b n = t' := by
  by_cases h : n ≤ t.allowance a s ∧ n ≤ t.balanceOf a
  · simp [transferFrom, h]
  · simp only [transferFrom, if_neg h, reduceCtorEq, false_iff]
    exact fun k => h k.1

@[simp] theorem transferFrom_eq_none (s a b : A) (n : ℕ) (t : TokenLedger A) :
    t.transferFrom s a b n = none ↔ t.allowance a s < n ∨ t.balanceOf a < n := by
  by_cases h : n ≤ t.allowance a s ∧ n ≤ t.balanceOf a
  · simp [transferFrom, h]
  · simp only [transferFrom, if_neg h, true_iff]
    omega

/-- Spending an allowance raises none. -/
theorem transferFrom_allowance_le {s src dst : A} {n : ℕ} {t t' : TokenLedger A}
    (h : t.transferFrom s src dst n = some t') (a b : A) :
    t'.allowance a b ≤ t.allowance a b := by
  obtain ⟨-, rfl⟩ := (transferFrom_eq_some ..).mp h
  rw [move_allowance]
  by_cases hab : a = src ∧ b = s
  · obtain ⟨rfl, rfl⟩ := hab
    rw [approve_same]
    omega
  · exact (approve_other (not_and_or.mp hab) ..).le

theorem transferFrom_keeps_closed {x s src dst : A} {n : ℕ} {t t' : TokenLedger A}
    (closed : ∀ a, t.allowance x a = 0) (h : t.transferFrom s src dst n = some t') (a : A) :
    t'.allowance x a = 0 :=
  Nat.eq_zero_of_le_zero ((transferFrom_allowance_le h x a).trans (closed a).le)

/-- Nothing is pulled from a holder that grants no allowance. -/
theorem transferFrom_closed {x s src dst : A} {n : ℕ} {t t' : TokenLedger A}
    (closed : ∀ a, t.allowance x a = 0) (h : t.transferFrom s src dst n = some t') :
    t.balanceOf x ≤ t'.balanceOf x ∧ (dst ≠ x → t'.balanceOf x = t.balanceOf x) := by
  obtain ⟨⟨allowed, -⟩, rfl⟩ := (transferFrom_eq_some ..).mp h
  by_cases hs : x = src
  · rw [← hs, closed] at allowed
    obtain rfl : n = 0 := Nat.eq_zero_of_le_zero allowed
    rw [← hs]
    by_cases hd : dst = x
    · rw [hd, move_self (Nat.zero_le _), approve_balanceOf]
      exact ⟨le_rfl, fun other => absurd rfl other⟩
    · rw [move_src (Ne.symm hd), approve_balanceOf, Nat.sub_zero]
      exact ⟨le_rfl, fun _ => rfl⟩
  · exact ⟨le_move hs n _, fun hd => move_other hs (Ne.symm hd) ..⟩

end TokenLedger

/-- The calls of a token; a mint has no sender here. -/
inductive TokenCall (A : Type)
  | transfer (sender dst : A) (amount : ℕ)
  | transferFrom (spender src dst : A) (amount : ℕ)
  | approve (owner spender : A) (amount : ℕ)
  | mint (dst : A) (amount : ℕ)

namespace TokenCall

variable {A : Type} [DecidableEq A]

def sender : TokenCall A → Option A
  | .transfer sender .. | .transferFrom sender .. | .approve sender .. => some sender
  | .mint .. => none

def receiver : TokenCall A → Option A
  | .transfer _ dst _ | .transferFrom _ _ dst _ | .mint dst _ => some dst
  | .approve .. => none

def exec : TokenCall A → TokenLedger A → Option (TokenLedger A)
  | .transfer sender dst amount, t => t.transfer sender dst amount
  | .transferFrom spender src dst amount, t => t.transferFrom spender src dst amount
  | .approve owner spender amount, t => some (t.approve owner spender amount)
  | .mint dst amount, t => some (t.mint dst amount)

variable {c : TokenCall A} {t t' : TokenLedger A} {x : A}

/-- Only a holder's own call raises its allowances. -/
theorem exec_allowance_le (h : c.exec t = some t') (away : c.sender ≠ some x) (a : A) :
    t'.allowance x a ≤ t.allowance x a := by
  cases c with
  | transfer sender dst amount =>
    obtain ⟨-, rfl⟩ := (TokenLedger.transfer_eq_some ..).mp h
    exact le_rfl
  | transferFrom spender src dst amount => exact TokenLedger.transferFrom_allowance_le h x a
  | approve owner spender amount =>
    obtain rfl := Option.some.inj h
    exact (TokenLedger.approve_other (.inl fun same => away (congrArg some same.symm)) ..).le
  | mint dst amount =>
    obtain rfl := Option.some.inj h
    exact le_rfl

/-- A holder that grants nothing loses nothing by the calls of others, and gains only what is sent
to it. -/
theorem exec_closed (h : c.exec t = some t') (away : c.sender ≠ some x)
    (closed : ∀ a, t.allowance x a = 0) :
    t.balanceOf x ≤ t'.balanceOf x ∧
      (c.receiver ≠ some x → t'.balanceOf x = t.balanceOf x) := by
  cases c with
  | transfer sender dst amount =>
    obtain ⟨-, rfl⟩ := (TokenLedger.transfer_eq_some ..).mp h
    have other : x ≠ sender := fun same => away (congrArg some same.symm)
    exact ⟨TokenLedger.le_move other ..,
      fun apart => TokenLedger.move_other other (fun same => apart (congrArg some same.symm)) ..⟩
  | transferFrom spender src dst amount =>
    have kept := TokenLedger.transferFrom_closed closed h
    exact ⟨kept.1, fun apart => kept.2 fun same => apart (congrArg some same)⟩
  | approve owner spender amount =>
    obtain rfl := Option.some.inj h
    exact ⟨le_rfl, fun _ => rfl⟩
  | mint dst amount =>
    obtain rfl := Option.some.inj h
    exact ⟨TokenLedger.le_mint ..,
      fun apart => TokenLedger.mint_other (fun same => apart (congrArg some same.symm)) ..⟩

theorem exec_keeps_closed (h : c.exec t = some t') (away : c.sender ≠ some x)
    (closed : ∀ a, t.allowance x a = 0) (a : A) : t'.allowance x a = 0 :=
  Nat.eq_zero_of_le_zero ((exec_allowance_le h away a).trans (closed a).le)

end TokenCall

namespace TokenLedger

variable {A : Type} [DecidableEq A]

/-! ### A payment passed on

`middle` pulls a payment and approves it for `target`, which can then pull it on. -/

def relay (payer middle target : A) (amount : ℕ) (t : TokenLedger A) : TokenLedger A :=
  ((t.approve payer middle (t.allowance payer middle - amount)).move payer middle amount).approve
    middle target amount

section Relay

variable {t : TokenLedger A} {payer middle target : A} {amount : ℕ}

theorem relay_allowance_middle (idle : ∀ a, t.allowance middle a = 0) (a : A) :
    (t.relay payer middle target amount).allowance middle a = if a = target then amount else 0 := by
  simp only [relay]
  split_ifs with ha
  · rw [ha, approve_same]
  · rw [approve_other (.inr ha), move_allowance]
    by_cases hp : middle = payer
    · rw [← hp]
      by_cases hs : a = middle
      · rw [hs, approve_same, idle, Nat.zero_sub]
      · rw [approve_other (.inr hs), idle]
    · rw [approve_other (.inl hp), idle]

theorem relay_allowance_target (apart : middle ≠ target) (closed : ∀ a, t.allowance target a = 0)
    (a : A) : (t.relay payer middle target amount).allowance target a = 0 := by
  simp only [relay]
  rw [approve_other (.inl (Ne.symm apart)), move_allowance]
  by_cases hp : target = payer ∧ a = middle
  · rw [hp.1, hp.2, approve_same, ← hp.1, closed, Nat.zero_sub]
  · rw [approve_other (not_and_or.mp hp), closed]

/-- A holder that grants nothing is not the payer of a positive amount. -/
theorem relay_balance_target (apart : middle ≠ target) (closed : ∀ a, t.allowance target a = 0)
    (allowed : amount ≤ t.allowance payer middle) :
    (t.relay payer middle target amount).balanceOf target = t.balanceOf target := by
  simp only [relay, approve_balanceOf]
  by_cases hp : payer = target
  · have none : amount = 0 := by
      rw [hp, closed] at allowed
      omega
    rw [none, hp, move_src (Ne.symm apart), Nat.sub_zero, approve_balanceOf]
  · rw [move_other (Ne.symm hp) (Ne.symm apart), approve_balanceOf]

theorem relay_balance_middle (other : payer ≠ middle) :
    (t.relay payer middle target amount).balanceOf middle = t.balanceOf middle + amount := by
  simp only [relay, approve_balanceOf]
  rw [move_dst other, approve_balanceOf]

theorem relay_payer (other : payer ≠ middle) :
    (t.relay payer middle target amount).balanceOf payer = t.balanceOf payer - amount ∧
      (t.relay payer middle target amount).allowance payer middle =
        t.allowance payer middle - amount := by
  simp only [relay, approve_balanceOf]
  rw [move_src other, approve_balanceOf, approve_other (.inl other), move_allowance, approve_same]
  exact ⟨rfl, rfl⟩

/-- The payer is not touched again when the payment is pulled on. -/
theorem relay_pulled_payer (other : payer ≠ middle) (away : payer ≠ target) {t' : TokenLedger A}
    (pulled : (t.relay payer middle target amount).transferFrom target middle target amount =
      some t') :
    t'.balanceOf payer = t.balanceOf payer - amount ∧
      t'.allowance payer middle = t.allowance payer middle - amount := by
  obtain ⟨-, rfl⟩ := (transferFrom_eq_some ..).mp pulled
  rw [move_other other away, approve_balanceOf, move_allowance, approve_other (.inl other)]
  exact relay_payer other

/-- Once `target` has pulled the payment, no allowance of `middle` is left. -/
theorem relay_spent (idle : ∀ a, t.allowance middle a = 0) {t' : TokenLedger A}
    (pulled : (t.relay payer middle target amount).transferFrom target middle target amount =
      some t') (a : A) : t'.allowance middle a = 0 := by
  obtain ⟨-, rfl⟩ := (transferFrom_eq_some ..).mp pulled
  rw [move_allowance]
  by_cases ha : a = target
  · rw [ha, approve_same, relay_allowance_middle idle, if_pos rfl, Nat.sub_self]
  · rw [approve_other (.inr ha), relay_allowance_middle idle, if_neg ha]

/-- The payment arrives whenever it was there. -/
theorem relay_pulled (idle : ∀ a, t.allowance middle a = 0) (apart : middle ≠ target)
    (other : payer ≠ middle) :
    ∃ t', (t.relay payer middle target amount).transferFrom target middle target amount = some t' ∧
      t'.balanceOf target = (t.relay payer middle target amount).balanceOf target + amount := by
  have granted : (t.relay payer middle target amount).allowance middle target = amount := by
    rw [relay_allowance_middle idle, if_pos rfl]
  have received : (t.relay payer middle target amount).balanceOf middle =
      t.balanceOf middle + amount := relay_balance_middle other
  refine ⟨_, (transferFrom_eq_some ..).mpr ⟨⟨granted.ge, by omega⟩, rfl⟩, ?_⟩
  rw [move_dst apart, approve_balanceOf]

end Relay

end TokenLedger

end Turret
