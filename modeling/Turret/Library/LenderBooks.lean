import Turret.Library.Execution
import Turret.Library.Rounding

/-! The books of a lending pool whose shares are claims on all of it: cash,
principal lent out, interest owed, and a fee taken from interest only when it is
received. Until then the fee share is held back from the pool's value.
A flow is any movement other than a write-off. -/

namespace Turret

open Rounding

structure LenderBooks where
  cash : ℕ
  principal : ℕ
  interest : ℕ
  supply : ℕ

namespace LenderBooks

/-- The fee share of `interest`, rounded down. -/
def fee (bps interest : ℕ) : ℕ := mulDiv interest bps 10000

def value (bps : ℕ) (b : LenderBooks) : ℕ :=
  b.cash + b.principal + b.interest - fee bps b.interest

variable {bps : ℕ}

theorem fee_le (h : bps ≤ 10000) (n : ℕ) : fee bps n ≤ n := mulDiv_le_self h n

theorem fee_mono (bps : ℕ) {m n : ℕ} (h : m ≤ n) : fee bps m ≤ fee bps n := mulDiv_mono h bps 10000

/-- The fee on what is received never exceeds it. -/
theorem fee_sub_le (h : bps ≤ 10000) {n y : ℕ} (hy : y ≤ n) :
    fee bps n - fee bps (n - y) ≤ y := by
  have step := mulDiv_add_le h (n - y) y
  rw [Nat.sub_add_cancel hy] at step
  unfold fee
  omega

def lend (n : ℕ) (b : LenderBooks) : LenderBooks :=
  { b with cash := b.cash - n, principal := b.principal + n }

/-- Principal and interest come in; the fee released by the interest leaves the lenders' cash. -/
def collect (bps p y : ℕ) (b : LenderBooks) : LenderBooks :=
  { b with
    cash := b.cash + (p + y) - (fee bps b.interest - fee bps (b.interest - y))
    principal := b.principal - p
    interest := b.interest - y }

def writeOff (p i : ℕ) (b : LenderBooks) : LenderBooks :=
  { b with principal := b.principal - p, interest := b.interest - i }

theorem value_lend {n : ℕ} {b : LenderBooks} (h : n ≤ b.cash) :
    (b.lend n).value bps = b.value bps := by
  simp only [value, lend]
  omega

theorem value_collect (hb : bps ≤ 10000) {p y : ℕ} {b : LenderBooks} (hp : p ≤ b.principal)
    (hy : y ≤ b.interest) : (b.collect bps p y).value bps = b.value bps := by
  have received := fee_sub_le hb hy
  have before := fee_le hb b.interest
  have after := fee_le hb (b.interest - y)
  have grows := fee_mono bps (Nat.sub_le b.interest y)
  simp only [value, collect]
  omega

/-- A write-off costs the lenders what was written off, less the fee they would have paid on it. -/
theorem value_writeOff (hb : bps ≤ 10000) {p i : ℕ} {b : LenderBooks} (hp : p ≤ b.principal)
    (hi : i ≤ b.interest) :
    (b.writeOff p i).value bps + (p + i - (fee bps b.interest - fee bps (b.interest - i))) =
      b.value bps := by
  have saved := fee_sub_le hb hi
  have before := fee_le hb b.interest
  have after := fee_le hb (b.interest - i)
  have grows := fee_mono bps (Nat.sub_le b.interest i)
  simp only [value, writeOff]
  omega

inductive Flow (bps v : ℕ) (b : LenderBooks) : LenderBooks → Prop
  | rest : Flow bps v b b
  | enter (paid minted : ℕ) (fair : minted * (b.value bps + 1) ≤ paid * (b.supply + v)) :
      Flow bps v b { b with cash := b.cash + paid, supply := b.supply + minted }
  | leave (paid burned : ℕ) (fair : paid * (b.supply + v) ≤ burned * (b.value bps + 1))
      (funded : paid ≤ b.cash) (held : burned ≤ b.supply) :
      Flow bps v b { b with cash := b.cash - paid, supply := b.supply - burned }
  | lend (n : ℕ) (funded : n ≤ b.cash) : Flow bps v b (b.lend n)
  | collect (p y : ℕ) (owed : p ≤ b.principal) (accrued : y ≤ b.interest) :
      Flow bps v b (b.collect bps p y)
  | earn (n : ℕ) : Flow bps v b { b with interest := b.interest + n }
  | gift (n : ℕ) : Flow bps v b { b with cash := b.cash + n }

/-- No flow lowers the price of a share. -/
theorem Flow.price (hb : bps ≤ 10000) {v : ℕ} {b b' : LenderBooks} (h : Flow bps v b b') :
    PriceLE v (b.value bps) b.supply (b'.value bps) b'.supply := by
  cases h with
  | rest => exact .refl ..
  | enter paid minted fair =>
    have grown : LenderBooks.value bps { b with cash := b.cash + paid, supply := b.supply + minted } =
        b.value bps + paid := by
      have := fee_le hb b.interest
      simp only [value]
      omega
    rw [grown]
    exact .enter fair
  | leave paid burned fair funded held =>
    have shrunk : LenderBooks.value bps { b with cash := b.cash - paid, supply := b.supply - burned } =
        b.value bps - paid := by
      have := fee_le hb b.interest
      simp only [value]
      omega
    have covered : paid ≤ b.value bps := by
      have := fee_le hb b.interest
      simp only [value]
      omega
    rw [shrunk]
    exact .leave fair covered held
  | lend n funded =>
    rw [value_lend funded]
    exact .refl ..
  | collect p y owed accrued =>
    rw [value_collect hb owed accrued]
    exact .refl ..
  | earn n =>
    refine .of_assets_le ?_ v b.supply
    have := mulDiv_add_le hb b.interest n
    have := fee_le hb b.interest
    simp only [value, fee] at *
    omega
  | gift n =>
    refine .of_assets_le ?_ v b.supply
    simp only [value]
    omega

/-! ### Calls of a pool, by what they do to the books and to the fees set aside -/

inductive Call
  | lend
  | collect (principal interest : ℕ)
  | writeOff (principal interest : ℕ)
  | checkpoint
  | claim
  | earn
  | other

/-- The calls that move value between cash, principal and interest without creating any. -/
def Call.isNeutral : Call → Bool
  | .lend | .collect .. | .checkpoint | .claim => true
  | _ => false

def Call.isLoss : Call → Bool
  | .writeOff .. => true
  | _ => false

inductive Effect (bps v : ℕ) (b : LenderBooks) (fees : ℕ) : Call → LenderBooks → ℕ → Prop
  | lend (n : ℕ) (funded : n ≤ b.cash) : Effect bps v b fees .lend (b.lend n) fees
  | collect (p y : ℕ) (owed : p ≤ b.principal) (accrued : y ≤ b.interest) :
      Effect bps v b fees (.collect p y) (b.collect bps p y)
        (fees + (fee bps b.interest - fee bps (b.interest - y)))
  | writeOff (p i : ℕ) (owed : p ≤ b.principal) (accrued : i ≤ b.interest) :
      Effect bps v b fees (.writeOff p i) (b.writeOff p i) fees
  | checkpoint : Effect bps v b fees .checkpoint b fees
  | claim : Effect bps v b fees .claim b 0
  | earn (n : ℕ) : Effect bps v b fees .earn { b with interest := b.interest + n } fees
  | other (b' : LenderBooks) (flow : Flow bps v b b') (same : b'.interest = b.interest) :
      Effect bps v b fees .other b' fees

namespace Effect

variable {v fees fees' : ℕ} {c : Call} {b b' : LenderBooks}

theorem flow (h : Effect bps v b fees c b' fees') (hc : c.isLoss = false) : Flow bps v b b' := by
  cases h with
  | lend n funded => exact .lend n funded
  | collect p y owed accrued => exact .collect p y owed accrued
  | writeOff => cases hc
  | checkpoint | claim => exact .rest
  | earn n => exact .earn n
  | other _ flow => exact flow

theorem value_eq (hb : bps ≤ 10000) (h : Effect bps v b fees c b' fees')
    (hc : c.isNeutral = true) : b'.value bps = b.value bps := by
  cases h with
  | lend n funded => exact value_lend funded
  | collect p y owed accrued => exact value_collect hb owed accrued
  | checkpoint | claim => rfl
  | writeOff | earn | other => cases hc

end Effect

end LenderBooks

/-! ### Where the fee goes

Over a run the fee share of the interest owed is taken by repayments, released
by write-offs, or still held back; what is taken is claimed or still booked. -/

@[ext] structure FeeFlow where
  taken : ℕ
  claimed : ℕ
  released : ℕ
  earned : ℕ

namespace FeeFlow

open LenderBooks

def none : FeeFlow := ⟨0, 0, 0, 0⟩

def add (a b : FeeFlow) : FeeFlow :=
  ⟨a.taken + b.taken, a.claimed + b.claimed, a.released + b.released, a.earned + b.earned⟩

/-- The fee flow of one call, read off the books before and after it. -/
def ofCall (bps : ℕ) (c : Call) (interest fees interest' fees' : ℕ) : FeeFlow :=
  match c with
  | .collect .. => { none with taken := fees' - fees }
  | .claim => { none with claimed := fees }
  | .writeOff _ i => { none with released := fee bps interest - fee bps (interest - i) }
  | .earn => { none with earned := fee bps interest' - fee bps interest }
  | _ => none

/-- From `booked` fees and a fee share `held` back to `booked'` and `held'`. -/
structure Balances (f : FeeFlow) (booked held booked' held' : ℕ) : Prop where
  booked_eq : booked' + f.claimed = booked + f.taken
  held_eq : f.taken + f.released + held' = held + f.earned

theorem Balances.add {f g : FeeFlow} {b h b' h' b'' h'' : ℕ} (hf : f.Balances b h b' h')
    (hg : g.Balances b' h' b'' h'') : (f.add g).Balances b h b'' h'' := by
  have := hf.booked_eq
  have := hf.held_eq
  have := hg.booked_eq
  have := hg.held_eq
  constructor <;> simp only [FeeFlow.add] <;> omega

theorem Balances.ofEffect {bps v fees fees' : ℕ} {c : Call} {b b' : LenderBooks}
    (h : Effect bps v b fees c b' fees') :
    (ofCall bps c b.interest fees b'.interest fees').Balances fees (fee bps b.interest) fees'
      (fee bps b'.interest) := by
  cases h with
  | lend | checkpoint | claim => constructor <;> simp [ofCall, none, LenderBooks.lend]
  | other _ _ same => constructor <;> simp [ofCall, none, same]
  | collect p y owed accrued =>
    have shrinks := fee_mono bps (Nat.sub_le b.interest y)
    constructor <;> simp only [ofCall, none, LenderBooks.collect] <;> omega
  | writeOff p i owed accrued =>
    have shrinks := fee_mono bps (Nat.sub_le b.interest i)
    refine ⟨rfl, ?_⟩
    simp only [ofCall, none, LenderBooks.writeOff]
    omega
  | earn n =>
    have grows := fee_mono bps (Nat.le_add_right b.interest n)
    refine ⟨rfl, ?_⟩
    simp only [ofCall, none]
    omega

variable {ε σ ι : Type} (exec : ι → σ → Except ε σ) (flow : ι → σ → σ → FeeFlow)

/-- The flows of a list of calls, up to the first that reverts. -/
def along : List ι → σ → FeeFlow
  | [], _ => none
  | i :: is, s =>
    match exec i s with
    | .ok t => (flow i s t).add (along is t)
    | .error _ => none

/-- If every step balances, so does the run. -/
theorem along_balances (P : σ → Prop) (booked held : σ → ℕ)
    (step : ∀ s i t, P s → exec i s = .ok t →
      P t ∧ (flow i s t).Balances (booked s) (held s) (booked t) (held t))
    {s t : σ} {is : List ι} (run : Execution.Run (Execution.accepts exec) s is t) (init : P s) :
    (along exec flow is s).Balances (booked s) (held s) (booked t) (held t) := by
  induction run with
  | nil s => exact ⟨rfl, by simp [along, none]⟩
  | cons first _ ih =>
    obtain ⟨kept, balanced⟩ := step _ _ _ init first
    simp only [along, show exec _ _ = .ok _ from first]
    exact balanced.add (ih kept)

end FeeFlow

end Turret
