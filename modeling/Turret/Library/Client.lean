import Mathlib.Data.List.Basic
import Mathlib.Tactic

/-! Programs that only read an outside service. The service answers each request
anew, so that two requests with one question may get different answers. `Gives`
says what a program returns without the positions of its requests. -/

namespace Turret.Client

variable {Q ε α β : Type} {A : Q → Type}

/-- The answer to each request, by its position. -/
abbrev Answers (Q : Type) (A : Q → Type) (ε : Type) := ℕ → (q : Q) → Except ε (A q)

/-- A program that has made `n` requests before, and returns how many it has made then. -/
def Reading (Q : Type) (A : Q → Type) (ε α : Type) := Answers Q A ε → ℕ → Except ε (α × ℕ)

instance : Monad (Reading Q A ε) where
  pure a := fun _ n => .ok (a, n)
  bind p k := fun answers n =>
    match p answers n with
    | .ok (a, m) => k a answers m
    | .error e => .error e

def request (q : Q) : Reading Q A ε (A q) := fun answers n =>
  match answers n q with
  | .ok a => .ok (a, n + 1)
  | .error e => .error e

def throwIf (c : Prop) [Decidable c] (e : ε) : Reading Q A ε Unit :=
  fun _ n => if c then .error e else .ok ((), n)

def orThrow (x : Option α) (e : ε) : Reading Q A ε α := fun _ n =>
  match x with
  | some a => .ok (a, n)
  | none => .error e

/-- What the program returns, from its first request on. -/
def read (p : Reading Q A ε α) (answers : Answers Q A ε) : Except ε α :=
  match p answers 0 with
  | .ok (a, _) => .ok a
  | .error e => .error e

/-- From some position on, the program returns `a`. -/
def Gives (answers : Answers Q A ε) (p : Reading Q A ε α) (a : α) : Prop :=
  ∃ n m, p answers n = .ok (a, m)

/-- Some request of the question was answered so. -/
def Answered (answers : Answers Q A ε) (q : Q) (a : A q) : Prop :=
  ∃ n, answers n q = .ok a

variable {answers : Answers Q A ε} {p : Reading Q A ε α} {a a' : α} {b : β}

theorem gives_of_read (h : read p answers = .ok a) : Gives answers p a := by
  unfold read at h
  split at h
  · rename_i m ran
    cases h
    exact ⟨0, m, ran⟩
  · cases h

theorem gives_bind {k : α → Reading Q A ε β} (h : Gives answers (p >>= k) b) :
    ∃ a, Gives answers p a ∧ Gives answers (k a) b := by
  obtain ⟨n, m, ran⟩ := h
  simp only [bind] at ran
  split at ran
  · rename_i a l first
    exact ⟨a, ⟨n, l, first⟩, ⟨l, m, ran⟩⟩
  · cases ran

theorem gives_pure (h : Gives answers (pure a : Reading Q A ε α) a') : a = a' := by
  obtain ⟨n, m, ran⟩ := h
  cases ran
  rfl

theorem gives_request {q : Q} {a : A q} (h : Gives answers (request q) a) :
    Answered answers q a := by
  obtain ⟨n, m, ran⟩ := h
  simp only [request] at ran
  split at ran
  · rename_i given
    cases ran
    exact ⟨n, given⟩
  · cases ran

theorem gives_throwIf {c : Prop} [Decidable c] {e : ε} {u : Unit}
    (h : Gives answers (throwIf c e : Reading Q A ε Unit) u) : ¬c := by
  obtain ⟨n, m, ran⟩ := h
  intro holds
  simp only [throwIf, if_pos holds] at ran
  cases ran

theorem gives_orThrow {x : Option α} {e : ε}
    (h : Gives answers (orThrow x e : Reading Q A ε α) a) : x = some a := by
  obtain ⟨n, m, ran⟩ := h
  cases x with
  | none => cases ran
  | some c =>
    cases ran
    rfl

end Turret.Client
