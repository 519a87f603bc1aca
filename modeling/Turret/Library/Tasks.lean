import Turret.Library.Execution
import Mathlib.Logic.Function.Basic

/-! Programs that run beside each other on one shared state. An action is
atomic; between two actions of a program the others and the environment act,
and the environment chooses the answers to the questions a program asks. A
program that stops is one that is not scheduled again. `Safe` is the rely and
guarantee rule of one program, `Sound.step` that of the whole system. -/

namespace Turret.Tasks

open Function

variable {σ Q ε α β ι κ η : Type} {A : Q → Type}

/-- A program that acts on a state `σ`, asks questions `Q` and may throw an `ε`. -/
inductive Program (σ Q : Type) (A : Q → Type) (ε α : Type)
  | done (a : α)
  | fail (e : ε)
  | act (f : σ → σ) (next : σ → Program σ Q A ε α)
  | ask (q : Q) (next : A q → Program σ Q A ε α)

namespace Program

def bind : Program σ Q A ε α → (α → Program σ Q A ε β) → Program σ Q A ε β
  | done a, k => k a
  | fail e, _ => fail e
  | act f next, k => act f fun s => (next s).bind k
  | ask q next, k => ask q fun a => (next a).bind k

instance : Monad (Program σ Q A ε) where
  pure := done
  bind := bind

/-- `try { … } catch`. -/
def orElse : Program σ Q A ε α → (ε → Program σ Q A ε α) → Program σ Q A ε α
  | done a, _ => done a
  | fail e, handler => handler e
  | act f next, handler => act f fun s => (next s).orElse handler
  | ask q next, handler => ask q fun a => (next a).orElse handler

/-- The state as it is now. -/
def look : Program σ Q A ε σ := act id done

def modify (f : σ → σ) : Program σ Q A ε Unit := act f fun _ => done ()

/-- An atomic action that may throw, and then changes nothing. -/
def attempt (body : σ → Except ε (α × σ)) : Program σ Q A ε α :=
  act
    (fun s => match body s with
      | .ok (_, t) => t
      | .error _ => s)
    (fun s => match body s with
      | .ok (a, _) => done a
      | .error e => fail e)

def question (q : Q) : Program σ Q A ε (A q) := ask q done

def throwIf (c : Prop) [Decidable c] (e : ε) : Program σ Q A ε Unit :=
  if c then fail e else done ()

def lift : Except ε α → Program σ Q A ε α
  | .ok a => done a
  | .error e => fail e

/-- A question whose answer may be an error, which is thrown. -/
def call {R : Q → Type} (q : Q) : Program σ Q (fun q => Except ε (R q)) ε (R q) :=
  question q >>= lift

def finished : Program σ Q A ε α → Bool
  | done _ => true
  | fail _ => true
  | _ => false

/-- No action changes the state. -/
def ReadOnly : Program σ Q A ε α → Prop
  | done _ => True
  | fail _ => True
  | act f next => ∀ s, f s = s ∧ (next s).ReadOnly
  | ask _ next => ∀ a, (next a).ReadOnly

/-- Every action stands in the relation. -/
def Acts (R : σ → σ → Prop) : Program σ Q A ε α → Prop
  | done _ => True
  | fail _ => True
  | act f next => ∀ s, R s (f s) ∧ (next s).Acts R
  | ask _ next => ∀ a, (next a).Acts R

/-- An action that changes the state is the last, and the program returns after it. -/
def ChangesLast : Program σ Q A ε α → Prop
  | done _ => True
  | fail _ => True
  | act f next => ∀ s, f s = s ∧ (next s).ChangesLast ∨ ∃ a, next s = done a
  | ask _ next => ∀ a, (next a).ChangesLast

/-- The program ends after at most `n` of its actions and questions, whatever it sees. -/
def EndsWithin : Program σ Q A ε α → ℕ → Prop
  | done _, _ => True
  | fail _, _ => True
  | act _ next, n => 0 < n ∧ ∀ s, (next s).EndsWithin (n - 1)
  | ask _ next, n => 0 < n ∧ ∀ a, (next a).EndsWithin (n - 1)

section Length

variable {p : Program σ Q A ε α} {k : α → Program σ Q A ε β} {n m : ℕ}

theorem EndsWithin.mono (h : p.EndsWithin n) (le : n ≤ m) : p.EndsWithin m := by
  induction p generalizing n m with
  | done a => exact trivial
  | fail e => exact trivial
  | act f next ih => exact ⟨h.1.trans_le le, fun s => ih s (h.2 s) (Nat.sub_le_sub_right le 1)⟩
  | ask q next ih => exact ⟨h.1.trans_le le, fun a => ih a (h.2 a) (Nat.sub_le_sub_right le 1)⟩

theorem EndsWithin.bind (h : p.EndsWithin n) (rest : ∀ a, (k a).EndsWithin m) :
    (p >>= k).EndsWithin (n + m) := by
  change (p.bind k).EndsWithin (n + m)
  induction p generalizing n with
  | done a => exact (rest a).mono (Nat.le_add_left ..)
  | fail e => exact trivial
  | act f next ih =>
    refine ⟨h.1.trans_le (Nat.le_add_right ..), fun s => ?_⟩
    have later := ih s (h.2 s)
    rwa [← Nat.sub_add_comm h.1] at later
  | ask q next ih =>
    refine ⟨h.1.trans_le (Nat.le_add_right ..), fun a => ?_⟩
    have later := ih a (h.2 a)
    rwa [← Nat.sub_add_comm h.1] at later

theorem EndsWithin.orElse {handler : ε → Program σ Q A ε α} (h : p.EndsWithin n)
    (rest : ∀ e, (handler e).EndsWithin m) : (p.orElse handler).EndsWithin (n + m) := by
  induction p generalizing n with
  | done a => exact trivial
  | fail e => exact (rest e).mono (Nat.le_add_left ..)
  | act f next ih =>
    refine ⟨h.1.trans_le (Nat.le_add_right ..), fun s => ?_⟩
    have later := ih s (h.2 s)
    rwa [← Nat.sub_add_comm h.1] at later
  | ask q next ih =>
    refine ⟨h.1.trans_le (Nat.le_add_right ..), fun a => ?_⟩
    have later := ih a (h.2 a)
    rwa [← Nat.sub_add_comm h.1] at later

theorem endsWithin_pure (a : α) : (pure a : Program σ Q A ε α).EndsWithin n := trivial

theorem endsWithin_fail (e : ε) : (fail e : Program σ Q A ε α).EndsWithin n := trivial

theorem endsWithin_look : (look : Program σ Q A ε σ).EndsWithin 1 :=
  ⟨Nat.one_pos, fun _ => trivial⟩

theorem endsWithin_modify (f : σ → σ) : (modify f : Program σ Q A ε Unit).EndsWithin 1 :=
  ⟨Nat.one_pos, fun _ => trivial⟩

theorem endsWithin_question (q : Q) : (question q : Program σ Q A ε (A q)).EndsWithin 1 :=
  ⟨Nat.one_pos, fun _ => trivial⟩

theorem endsWithin_throwIf {c : Prop} {_ : Decidable c} {e : ε} :
    (throwIf c e : Program σ Q A ε Unit).EndsWithin 0 := by
  unfold throwIf
  split
  · exact trivial
  · exact trivial

theorem endsWithin_lift (x : Except ε α) : (lift x : Program σ Q A ε α).EndsWithin 0 := by
  cases x with
  | ok a => exact trivial
  | error e => exact trivial

theorem endsWithin_call {R : Q → Type} (q : Q) :
    (call q : Program σ Q (fun q => Except ε (R q)) ε (R q)).EndsWithin 1 :=
  ⟨Nat.one_pos, fun a => endsWithin_lift a⟩

theorem endsWithin_attempt (body : σ → Except ε (α × σ)) :
    (attempt body : Program σ Q A ε α).EndsWithin 1 := by
  refine ⟨Nat.one_pos, fun s => ?_⟩
  dsimp only
  cases body s with
  | ok done => exact trivial
  | error e => exact trivial

end Length

section Changes

variable {p : Program σ Q A ε α} {k : α → Program σ Q A ε β}

theorem ReadOnly.bind (h : p.ReadOnly) (rest : ∀ a, (k a).ReadOnly) : (p >>= k).ReadOnly := by
  change (p.bind k).ReadOnly
  induction p with
  | done a => exact rest a
  | fail e => exact trivial
  | act f next ih => exact fun s => ⟨(h s).1, ih s (h s).2⟩
  | ask q next ih => exact fun a => ih a (h a)

theorem ReadOnly.orElse {handler : ε → Program σ Q A ε α} (h : p.ReadOnly)
    (rest : ∀ e, (handler e).ReadOnly) : (p.orElse handler).ReadOnly := by
  induction p with
  | done a => exact trivial
  | fail e => exact rest e
  | act f next ih => exact fun s => ⟨(h s).1, ih s (h s).2⟩
  | ask q next ih => exact fun a => ih a (h a)

theorem ReadOnly.changesLast (h : p.ReadOnly) (rest : ∀ a, (k a).ChangesLast) :
    (p >>= k).ChangesLast := by
  change (p.bind k).ChangesLast
  induction p with
  | done a => exact rest a
  | fail e => exact trivial
  | act f next ih => exact fun s => .inl ⟨(h s).1, ih s (h s).2⟩
  | ask q next ih => exact fun a => ih a (h a)

theorem Acts.bind {R : σ → σ → Prop} (h : p.Acts R) (rest : ∀ a, (k a).Acts R) :
    (p >>= k).Acts R := by
  change (p.bind k).Acts R
  induction p with
  | done a => exact rest a
  | fail e => exact trivial
  | act f next ih => exact fun s => ⟨(h s).1, ih s (h s).2⟩
  | ask q next ih => exact fun a => ih a (h a)

theorem ReadOnly.acts {R : σ → σ → Prop} (h : p.ReadOnly) (refl : ∀ s, R s s) : p.Acts R := by
  induction p with
  | done a => exact trivial
  | fail e => exact trivial
  | act f next ih =>
    intro s
    obtain ⟨same, rest⟩ := h s
    exact ⟨same.symm ▸ refl s, ih s rest⟩
  | ask q next ih => exact fun a => ih a (h a)

theorem acts_modify {R : σ → σ → Prop} {f : σ → σ} (h : ∀ s, R s (f s)) :
    (modify f : Program σ Q A ε Unit).Acts R :=
  fun s => ⟨h s, trivial⟩

theorem readOnly_pure (a : α) : (pure a : Program σ Q A ε α).ReadOnly := trivial

theorem readOnly_fail (e : ε) : (fail e : Program σ Q A ε α).ReadOnly := trivial

theorem readOnly_look : (look : Program σ Q A ε σ).ReadOnly := fun _ => ⟨rfl, trivial⟩

theorem readOnly_throwIf {c : Prop} {_ : Decidable c} {e : ε} :
    (throwIf c e : Program σ Q A ε Unit).ReadOnly := by
  unfold throwIf
  split
  · exact trivial
  · exact trivial

theorem readOnly_lift (x : Except ε α) : (lift x : Program σ Q A ε α).ReadOnly := by
  cases x with
  | ok a => exact trivial
  | error e => exact trivial

theorem readOnly_call {R : Q → Type} (q : Q) :
    (call q : Program σ Q (fun q => Except ε (R q)) ε (R q)).ReadOnly :=
  fun a => readOnly_lift a

theorem changesLast_attempt (body : σ → Except ε (α × σ)) :
    (attempt body : Program σ Q A ε α).ChangesLast := by
  intro s
  dsimp only
  cases body s with
  | ok done => exact .inr ⟨done.1, rfl⟩
  | error e => exact .inl ⟨rfl, trivial⟩

end Changes

end Program

/-! ### One program -/

/-- What a program may rely on between its actions, when its own actions are admitted, and what it
guarantees of an admitted one; and the answers that it may be given. -/
structure Contract (σ Q : Type) (A : Q → Type) where
  rely : σ → σ → Prop
  admits : σ → σ → Prop
  guarantee : σ → σ → Prop
  answers : σ → (q : Q) → A q → Prop
  refl : ∀ s, rely s s
  trans : ∀ {s t u}, rely s t → rely t u → rely s u

/-- Every admitted action, now and later, is as guaranteed, and the program ends as told. -/
def Safe (c : Contract σ Q A) (post : α → σ → Prop) (err : ε → σ → Prop) :
    Program σ Q A ε α → σ → Prop
  | .done a, s => ∀ t, c.rely s t → post a t
  | .fail e, s => ∀ t, c.rely s t → err e t
  | .act f next, s => ∀ t, c.rely s t → c.admits t (f t) →
      c.guarantee t (f t) ∧ Safe c post err (next t) (f t)
  | .ask q next, s => ∀ t, c.rely s t → c.admits t t → ∀ a, c.answers t q a →
      Safe c post err (next a) t

section Rules

variable {c : Contract σ Q A} {post post' : α → σ → Prop} {err err' : ε → σ → Prop}
  {p : Program σ Q A ε α} {s t : σ}

theorem Safe.stable (h : Safe c post err p s) (moved : c.rely s t) : Safe c post err p t := by
  cases p with
  | done a => exact fun u later => h u (c.trans moved later)
  | fail e => exact fun u later => h u (c.trans moved later)
  | act f next => exact fun u later => h u (c.trans moved later)
  | ask q next => exact fun u later => h u (c.trans moved later)

theorem Safe.mono (h : Safe c post err p s) (done : ∀ a t, post a t → post' a t)
    (fail : ∀ e t, err e t → err' e t) : Safe c post' err' p s := by
  induction p generalizing s with
  | done a => exact fun t moved => done a t (h t moved)
  | fail e => exact fun t moved => fail e t (h t moved)
  | act f next ih => exact fun t moved ok => ⟨(h t moved ok).1, ih t (h t moved ok).2⟩
  | ask q next ih => exact fun t moved ok a given => ih a (h t moved ok a given)

/-- What others and every guaranteed action keep holds at the end too. -/
theorem Safe.keeps (h : Safe c post err p s) (K : σ → Prop)
    (others : ∀ s t, K s → c.rely s t → K t)
    (own : ∀ s t, K s → c.admits s t → c.guarantee s t → K t) (init : K s) :
    Safe c (fun a t => post a t ∧ K t) (fun e t => err e t ∧ K t) p s := by
  induction p generalizing s with
  | done a => exact fun t moved => ⟨h t moved, others s t init moved⟩
  | fail e => exact fun t moved => ⟨h t moved, others s t init moved⟩
  | act f next ih =>
    intro t moved ok
    obtain ⟨guaranteed, rest⟩ := h t moved ok
    exact ⟨guaranteed, ih t rest (own _ _ (others s t init moved) ok guaranteed)⟩
  | ask q next ih =>
    exact fun t moved ok a given => ih a (h t moved ok a given) (others s t init moved)

theorem Safe.bind {post : β → σ → Prop} {k : α → Program σ Q A ε β}
    (h : Safe c (fun a t => Safe c post err (k a) t) err p s) : Safe c post err (p >>= k) s := by
  change Safe c post err (p.bind k) s
  induction p generalizing s with
  | done a => exact h s (c.refl s)
  | fail e => exact h
  | act f next ih => exact fun t moved ok => ⟨(h t moved ok).1, ih t (h t moved ok).2⟩
  | ask q next ih => exact fun t moved ok a given => ih a (h t moved ok a given)

theorem Safe.orElse {handler : ε → Program σ Q A ε α}
    (h : Safe c post (fun e t => Safe c post err (handler e) t) p s) :
    Safe c post err (p.orElse handler) s := by
  induction p generalizing s with
  | done a => exact h
  | fail e => exact h s (c.refl s)
  | act f next ih => exact fun t moved ok => ⟨(h t moved ok).1, ih t (h t moved ok).2⟩
  | ask q next ih => exact fun t moved ok a given => ih a (h t moved ok a given)

/-- A program of which nothing is asked but its actions. -/
theorem safe_of_acts (h : p.Acts c.guarantee) :
    Safe c (fun _ _ => True) (fun _ _ => True) p s := by
  induction p generalizing s with
  | done a => exact fun _ _ => trivial
  | fail e => exact fun _ _ => trivial
  | act f next ih => exact fun t _ _ => ⟨(h t).1, ih t (h t).2⟩
  | ask q next ih => exact fun t _ _ a _ => ih a (h a)

theorem safe_pure {a : α} (h : ∀ t, c.rely s t → post a t) :
    Safe c post err (pure a : Program σ Q A ε α) s := h

theorem safe_fail {e : ε} (h : ∀ t, c.rely s t → err e t) :
    Safe c post err (.fail e : Program σ Q A ε α) s := h

variable {k : β → Program σ Q A ε α}

theorem safe_look {k : σ → Program σ Q A ε α} (idle : ∀ s, c.guarantee s s)
    (h : ∀ t, c.rely s t → Safe c post err (k t) t) :
    Safe c post err (Program.look >>= k) s :=
  fun t moved _ => ⟨idle t, h t moved⟩

theorem safe_modify {f : σ → σ} {k : Unit → Program σ Q A ε α}
    (h : ∀ t, c.rely s t → c.admits t (f t) → c.guarantee t (f t) ∧ Safe c post err (k ()) (f t)) :
    Safe c post err (Program.modify f >>= k) s :=
  h

theorem safe_question {q : Q} {k : A q → Program σ Q A ε α}
    (h : ∀ t, c.rely s t → c.admits t t → ∀ a, c.answers t q a → Safe c post err (k a) t) :
    Safe c post err (Program.question q >>= k) s :=
  h

theorem safe_attempt {body : σ → Except ε (α × σ)} (idle : ∀ s, c.guarantee s s)
    (ok : ∀ t a u, c.rely s t → body t = .ok (a, u) → c.admits t u →
      c.guarantee t u ∧ ∀ v, c.rely u v → post a v)
    (error : ∀ t e, c.rely s t → body t = .error e → ∀ u, c.rely t u → err e u) :
    Safe c post err (Program.attempt body) s := by
  intro t moved admitted
  dsimp only at admitted ⊢
  rcases ran : body t with e | ⟨a, u⟩
  · exact ⟨idle t, error t e moved ran⟩
  · rw [ran] at admitted
    exact ok t a u moved ran admitted

theorem safe_throwIf {C : Prop} [Decidable C] {e : ε} {k : Unit → Program σ Q A ε α}
    (error : C → ∀ t, c.rely s t → err e t) (ok : ¬C → Safe c post err (k ()) s) :
    Safe c post err (Program.throwIf C e >>= k) s := by
  by_cases h : C
  · rw [Program.throwIf, if_pos h]
    exact error h
  · rw [Program.throwIf, if_neg h]
    exact ok h

theorem safe_guard {post : Unit → σ → Prop} {C : Prop} [Decidable C] {e : ε}
    (error : C → ∀ t, c.rely s t → err e t) (ok : ¬C → ∀ t, c.rely s t → post () t) :
    Safe c post err (Program.throwIf C e) s := by
  by_cases h : C
  · rw [Program.throwIf, if_pos h]
    exact error h
  · rw [Program.throwIf, if_neg h]
    exact ok h

theorem safe_lift {x : Except ε β} (error : ∀ e, x = .error e → ∀ t, c.rely s t → err e t)
    (ok : ∀ b, x = .ok b → Safe c post err (k b) s) :
    Safe c post err (Program.lift x >>= k) s := by
  cases x with
  | error e => exact error e rfl
  | ok b => exact ok b rfl

theorem safe_call {R : Q → Type} {c : Contract σ Q fun q => Except ε (R q)} {q : Q}
    {post : α → σ → Prop} {next : R q → Program σ Q (fun q => Except ε (R q)) ε α}
    (error : ∀ t e, c.rely s t → c.answers t q (.error e) → ∀ u, c.rely t u → err e u)
    (ok : ∀ t a, c.rely s t → c.admits t t → c.answers t q (.ok a) →
      Safe c post err (next a) t) :
    Safe c post err (Program.call q >>= next) s := by
  refine Safe.bind (safe_question fun t since admitted a given => ?_)
  cases a with
  | error e => exact error t e since given
  | ok a => exact fun _ later => (ok t a since admitted given).stable later

end Rules

/-! ### The system -/

/-- The calls of the processes, the answers to questions, and the steps of the environment. -/
structure Machine (σ Q : Type) (A : Q → Type) (ε α ι κ η : Type) where
  call : ι → κ → Program σ Q A ε α
  answers : σ → (q : Q) → A q → Prop
  env : η → σ → Option σ

structure System (σ Q : Type) (A : Q → Type) (ε α ι : Type) where
  shared : σ
  task : ι → Program σ Q A ε α

inductive Move (ι κ η : Type)
  | act (i : ι)
  | answer (i : ι)
  | begin (i : ι) (k : κ)
  | env (e : η)

/-- The process that moves on with its program. -/
def Move.runs : Move ι κ η → Option ι
  | act i => some i
  | answer i => some i
  | _ => none

section System

variable [DecidableEq ι]

inductive Step (m : Machine σ Q A ε α ι κ η) :
    System σ Q A ε α ι → Move ι κ η → System σ Q A ε α ι → Prop
  | act {s : System σ Q A ε α ι} {i : ι} {f : σ → σ} {next : σ → Program σ Q A ε α} :
      s.task i = .act f next →
      Step m s (.act i) ⟨f s.shared, update s.task i (next s.shared)⟩
  | answer {s : System σ Q A ε α ι} {i : ι} {q : Q} {next : A q → Program σ Q A ε α} {a : A q} :
      s.task i = .ask q next → m.answers s.shared q a →
      Step m s (.answer i) ⟨s.shared, update s.task i (next a)⟩
  | begin {s : System σ Q A ε α ι} {i : ι} {k : κ} :
      (s.task i).finished →
      Step m s (.begin i k) ⟨s.shared, update s.task i (m.call i k)⟩
  | env {s : System σ Q A ε α ι} {e : η} {t : σ} :
      m.env e s.shared = some t → Step m s (.env e) ⟨t, s.task⟩

/-- The contracts of all processes fit each other and the environment. -/
structure Compatible (m : Machine σ Q A ε α ι κ η) (c : ι → Contract σ Q A) : Prop where
  others : ∀ {i j s t}, i ≠ j → (c i).admits s t → (c i).guarantee s t → (c j).rely s t
  env : ∀ {j e s t}, m.env e s = some t → (c j).rely s t
  answers : ∀ {i s q a}, m.answers s q a → (c i).answers s q a

/-- Every process is safe where it stands. -/
def Sound (c : ι → Contract σ Q A) (post : ι → α → σ → Prop) (err : ι → ε → σ → Prop)
    (s : System σ Q A ε α ι) : Prop :=
  ∀ i, Safe (c i) (post i) (err i) (s.task i) s.shared

/-- The process that runs is admitted to do so. -/
def Admitted (c : ι → Contract σ Q A) (s : System σ Q A ε α ι) (move : Move ι κ η)
    (t : System σ Q A ε α ι) : Prop :=
  ∀ i ∈ move.runs, (c i).admits s.shared t.shared

/-- What a step of the system does to the shared state. -/
def Effect (m : Machine σ Q A ε α ι κ η) (c : ι → Contract σ Q A) (s t : σ) : Prop :=
  t = s ∨ (∃ i, (c i).admits s t ∧ (c i).guarantee s t) ∨ ∃ e, m.env e s = some t

variable {m : Machine σ Q A ε α ι κ η} {c : ι → Contract σ Q A} {post : ι → α → σ → Prop}
  {err : ι → ε → σ → Prop} {s t : System σ Q A ε α ι} {move : Move ι κ η}

theorem Sound.step (h : Sound c post err s) (fit : Compatible m c)
    (safe : ∀ i k, move = .begin i k → Safe (c i) (post i) (err i) (m.call i k) s.shared)
    (moved : Step m s move t) (ok : Admitted c s move t) :
    Sound c post err t ∧ Effect m c s.shared t.shared := by
  cases moved with
  | @act i f next at_act =>
    have admitted := ok i rfl
    have own := h i
    rw [at_act] at own
    obtain ⟨guaranteed, rest⟩ := own s.shared ((c i).refl _) admitted
    refine ⟨fun j => ?_, .inr (.inl ⟨i, admitted, guaranteed⟩)⟩
    by_cases same : j = i
    · subst same
      simpa only [update_self] using rest
    · simpa only [update_of_ne same] using
        (h j).stable (fit.others (Ne.symm same) admitted guaranteed)
  | @answer i q next a at_ask given =>
    have own := h i
    rw [at_ask] at own
    have rest := own s.shared ((c i).refl _) (ok i rfl) a (fit.answers given)
    refine ⟨fun j => ?_, .inl rfl⟩
    by_cases same : j = i
    · subst same
      simpa only [update_self] using rest
    · simpa only [update_of_ne same] using h j
  | @begin i k idle =>
    refine ⟨fun j => ?_, .inl rfl⟩
    by_cases same : j = i
    · subst same
      simpa only [update_self] using safe j k rfl
    · simpa only [update_of_ne same] using h j
  | @env e u ran => exact ⟨fun j => (h j).stable (fit.env ran), .inr (.inr ⟨e, ran⟩)⟩

/-- A step of a run that is admitted. -/
def admittedStep (m : Machine σ Q A ε α ι κ η) (c : ι → Contract σ Q A)
    (s : System σ Q A ε α ι) (move : Move ι κ η) (t : System σ Q A ε α ι) : Prop :=
  Step m s move t ∧ Admitted c s move t

/-- What every effect preserves holds in every state an admitted run reaches, and every process is
safe there. -/
theorem Sound.run (h : Sound c post err s) (fit : Compatible m c) (I : σ → Prop)
    (safe : ∀ i k u, I u → Safe (c i) (post i) (err i) (m.call i k) u)
    (preserved : ∀ s t, I s → Effect m c s t → I t) (init : I s.shared)
    {moves : List (Move ι κ η)} (run : Execution.Run (admittedStep m c) s moves t) :
    Sound c post err t ∧ I t.shared := by
  refine run.invariant (fun u => Sound c post err u ∧ I u.shared) (fun s move t now moved => ?_)
    ⟨h, init⟩
  obtain ⟨sound, effect⟩ := now.1.step fit (fun i k _ => safe i k _ now.2) moved.1 moved.2
  exact ⟨sound, preserved _ _ now.2 effect⟩

/-! ### One process in a run -/

/-- The step is no new call of the process `i`. -/
def Move.continues (i : ι) (move : Move ι κ η) : Prop :=
  ∀ k, move ≠ .begin i k

/-- A process that others let alone, and that is not called again, stays safe. -/
theorem Safe.step {c : Contract σ Q A} {post : α → σ → Prop} {err : ε → σ → Prop} {i : ι}
    (h : Safe c post err (s.task i) s.shared) (moved : Step m s move t)
    (continues : move.continues i) (answers : ∀ u q a, m.answers u q a → c.answers u q a)
    (others : move.runs ≠ some i → c.rely s.shared t.shared)
    (admitted : move.runs = some i → c.admits s.shared t.shared) :
    Safe c post err (t.task i) t.shared ∧
      (move.runs = some i → t.shared = s.shared ∨ c.guarantee s.shared t.shared) := by
  cases moved with
  | @act j f next at_act =>
    by_cases same : j = i
    · subst same
      rw [at_act] at h
      obtain ⟨guaranteed, rest⟩ := h s.shared (c.refl _) (admitted rfl)
      simp only [update_self]
      exact ⟨rest, fun _ => .inr guaranteed⟩
    · have other : (Move.act j : Move ι κ η).runs ≠ some i := fun at_i => same (Option.some.inj at_i)
      simp only [update_of_ne (Ne.symm same)]
      exact ⟨h.stable (others other), fun at_i => absurd at_i other⟩
  | @answer j q next a at_ask given =>
    by_cases same : j = i
    · subst same
      rw [at_ask] at h
      simp only [update_self]
      exact ⟨h s.shared (c.refl _) (admitted rfl) a (answers _ _ _ given), fun _ => .inl trivial⟩
    · simp only [update_of_ne (Ne.symm same)]
      exact ⟨h, fun _ => .inl trivial⟩
  | @begin j k idle =>
    have same : i ≠ j := fun same => continues k (by rw [same])
    simp only [update_of_ne same]
    exact ⟨h, fun _ => .inl trivial⟩
  | @env e u ran => exact ⟨h.stable (others nofun), nofun⟩

/-- What the processes do other than `i` is what `i` may rely on. -/
theorem Sound.rely (h : Sound c post err s) (fit : Compatible m c) (moved : Step m s move t)
    (ok : Admitted c s move t) {i : ι} (other : move.runs ≠ some i) :
    (c i).rely s.shared t.shared := by
  cases moved with
  | @act j f next at_act =>
    have admitted := ok j rfl
    have own := h j
    rw [at_act] at own
    have guaranteed := (own s.shared ((c j).refl _) admitted).1
    exact fit.others (fun same => other (congrArg some same)) admitted guaranteed
  | answer => exact (c i).refl _
  | begin => exact (c i).refl _
  | env ran => exact fit.env ran

/-- A process that is safe for more than the run asks of it stays so until it is called again. -/
theorem Sound.along (h : Sound c post err s) (fit : Compatible m c) (I : σ → Prop)
    (safe : ∀ i k u, I u → Safe (c i) (post i) (err i) (m.call i k) u)
    (preserved : ∀ s t, I s → Effect m c s t → I t) (init : I s.shared)
    {moves : List (Move ι κ η)} (run : Execution.Run (admittedStep m c) s moves t) {i : ι}
    (continues : ∀ move ∈ moves, move.continues i) {post' : α → σ → Prop} {err' : ε → σ → Prop}
    (own : Safe (c i) post' err' (s.task i) s.shared) :
    Safe (c i) post' err' (t.task i) t.shared := by
  induction run with
  | nil s => exact own
  | cons first rest ih =>
    obtain ⟨head, tail⟩ := List.forall_mem_cons.mp continues
    obtain ⟨sound, effect⟩ := h.step fit (fun i k _ => safe i k _ init) first.1 first.2
    have step := (own.step first.1 head (fun _ _ _ => fit.answers)
      (h.rely fit first.1 first.2) (first.2 i)).1
    exact ih sound (preserved _ _ init effect) tail step

/-- A process whose last action alone changes the state keeps to that, and where it has changed
the state it is done. -/
theorem Step.changesLast {i : ι} (moved : Step m s move t) (continues : move.continues i)
    (h : (s.task i).ChangesLast) :
    (t.task i).ChangesLast ∧
      (move.runs = some i → t.shared = s.shared ∨ ∃ a, t.task i = .done a) := by
  cases moved with
  | @act j f next at_act =>
    by_cases same : j = i
    · subst same
      rw [at_act] at h
      simp only [update_self]
      rcases h s.shared with ⟨kept, rest⟩ | ⟨a, last⟩
      · exact ⟨rest, fun _ => .inl kept⟩
      · exact ⟨last ▸ trivial, fun _ => .inr ⟨a, last⟩⟩
    · simp only [update_of_ne (Ne.symm same)]
      exact ⟨h, fun at_i => absurd (Option.some.inj at_i) same⟩
  | @answer j q next a at_ask given =>
    by_cases same : j = i
    · subst same
      rw [at_ask] at h
      simp only [update_self]
      exact ⟨h a, fun _ => .inl trivial⟩
    · simp only [update_of_ne (Ne.symm same)]
      exact ⟨h, fun _ => .inl trivial⟩
  | @begin j k idle =>
    have same : i ≠ j := fun same => continues k (by rw [same])
    simp only [update_of_ne same]
    exact ⟨h, fun _ => .inl trivial⟩
  | @env e u ran => exact ⟨h, nofun⟩

theorem Step.done_stays {i : ι} {a : α} (moved : Step m s move t) (continues : move.continues i)
    (h : s.task i = .done a) : t.task i = .done a := by
  cases moved with
  | @act j f next at_act =>
    have same : i ≠ j := fun same => by
      rw [← same, h] at at_act
      cases at_act
    simpa only [update_of_ne same] using h
  | @answer j q next b at_ask given =>
    have same : i ≠ j := fun same => by
      rw [← same, h] at at_ask
      cases at_ask
    simpa only [update_of_ne same] using h
  | @begin j k idle =>
    have same : i ≠ j := fun same => continues k (by rw [same])
    simpa only [update_of_ne same] using h
  | @env e u ran => exact h

/-- In this step the process `i` changes nothing. -/
def Quiet (i : ι) (s : System σ Q A ε α ι) (move : Move ι κ η) (t : System σ Q A ε α ι) : Prop :=
  move.runs = some i → t.shared = s.shared

/-- A call that fails has changed nothing. -/
theorem quiet_of_fail {i : ι} {e : ε}
    {step : System σ Q A ε α ι → Move ι κ η → System σ Q A ε α ι → Prop}
    (steps : ∀ s move t, step s move t → Step m s move t) {moves : List (Move ι κ η)}
    (run : Execution.Run step s moves t) (continues : ∀ move ∈ moves, move.continues i)
    (h : (s.task i).ChangesLast) (failed : t.task i = .fail e) :
    Execution.Run (fun s move t => step s move t ∧ Quiet i s move t) s moves t := by
  induction run with
  | nil s => exact .nil s
  | @cons s u t move moves first rest ih =>
    obtain ⟨head, tail⟩ := List.forall_mem_cons.mp continues
    obtain ⟨keeps, changed⟩ := (steps _ _ _ first).changesLast head h
    refine .cons ⟨first, fun at_i => (changed at_i).resolve_right ?_⟩ (ih tail keeps failed)
    rintro ⟨a, last⟩
    have done := rest.invariant_of_labels (fun move => move.continues i)
      (fun u => u.task i = .done a)
      (fun s move t continues now moved => (steps _ _ _ moved).done_stays continues now) tail last
    cases done.symm.trans failed

/-! ### Runs that are computed -/

/-- What is scheduled next, with the answers to give. -/
inductive Choice (A : Q → Type) (ι κ η : Type)
  | go (i : ι) (given : (q : Q) → Option (A q))
  | begin (i : ι) (k : κ)
  | env (e : η)

/-- The step that is scheduled; `check` decides whether an answer may be given. -/
def System.next (m : Machine σ Q A ε α ι κ η) (check : σ → (q : Q) → A q → Bool)
    (s : System σ Q A ε α ι) :
    Choice A ι κ η → Option (Move ι κ η × System σ Q A ε α ι)
  | .go i given =>
    match s.task i with
    | .act f next => some (.act i, ⟨f s.shared, update s.task i (next s.shared)⟩)
    | .ask q next =>
      match given q with
      | some a =>
        if check s.shared q a then some (.answer i, ⟨s.shared, update s.task i (next a)⟩) else none
      | none => none
    | _ => none
  | .begin i k =>
    if (s.task i).finished then some (.begin i k, ⟨s.shared, update s.task i (m.call i k)⟩) else none
  | .env e => (m.env e s.shared).map fun t => (.env e, ⟨t, s.task⟩)

variable {check : σ → (q : Q) → A q → Bool}

theorem step_of_next (sound : ∀ s q a, check s q a = true → m.answers s q a)
    {choice : Choice A ι κ η} (h : s.next m check choice = some (move, t)) : Step m s move t := by
  cases choice with
  | go i given =>
    simp only [System.next] at h
    split at h
    · cases h
      exact .act ‹_›
    · split at h
      · split at h
        · cases h
          exact .answer ‹_› (sound _ _ _ ‹_›)
        · cases h
      · cases h
    · cases h
  | begin i k =>
    simp only [System.next] at h
    split at h
    · cases h
      exact .begin ‹_›
    · cases h
  | env e =>
    simp only [System.next, Option.map_eq_some_iff] at h
    obtain ⟨u, ran, same⟩ := h
    cases same
    exact .env ran

/-- Run the choices, as long as each step passes the test. -/
def System.exec (m : Machine σ Q A ε α ι κ η) (check : σ → (q : Q) → A q → Bool)
    (test : σ → Move ι κ η → σ → Bool) :
    List (Choice A ι κ η) → System σ Q A ε α ι → Option (System σ Q A ε α ι)
  | [], s => some s
  | choice :: rest, s =>
    match s.next m check choice with
    | some (move, t) =>
      if test s.shared move t.shared then System.exec m check test rest t else none
    | none => none

theorem run_of_exec {test : σ → Move ι κ η → σ → Bool}
    {step : System σ Q A ε α ι → Move ι κ η → System σ Q A ε α ι → Prop}
    (sound : ∀ s q a, check s q a = true → m.answers s q a)
    (tested : ∀ s move t, Step m s move t → test s.shared move t.shared = true → step s move t)
    {choices : List (Choice A ι κ η)} (h : s.exec m check test choices = some t) :
    ∃ moves, Execution.Run step s moves t := by
  induction choices generalizing s with
  | nil =>
    simp only [System.exec, Option.some.injEq] at h
    exact h ▸ ⟨[], .nil s⟩
  | cons choice rest ih =>
    simp only [System.exec] at h
    split at h
    · rename_i move u at_next
      split at h
      · obtain ⟨moves, run⟩ := ih h
        exact ⟨_, .cons (tested _ _ _ (step_of_next sound at_next) ‹_›) run⟩
      · cases h
    · cases h

/-- What is read off the state that the choices reach. -/
theorem run_of_exec_map {γ : Type} {f : System σ Q A ε α ι → γ} {b : γ}
    {test : σ → Move ι κ η → σ → Bool}
    {step : System σ Q A ε α ι → Move ι κ η → System σ Q A ε α ι → Prop}
    (sound : ∀ s q a, check s q a = true → m.answers s q a)
    (tested : ∀ s move t, Step m s move t → test s.shared move t.shared = true → step s move t)
    {choices : List (Choice A ι κ η)} (h : (s.exec m check test choices).map f = some b) :
    ∃ t moves, Execution.Run step s moves t ∧ f t = b := by
  obtain ⟨t, reached, same⟩ := Option.map_eq_some_iff.mp h
  obtain ⟨moves, run⟩ := run_of_exec sound tested reached
  exact ⟨t, moves, run, same⟩

/-- The choices that only go on with what has begun. -/
theorem run_of_goes {test : σ → Move ι κ η → σ → Bool}
    {step : System σ Q A ε α ι → Move ι κ η → System σ Q A ε α ι → Prop}
    (sound : ∀ s q a, check s q a = true → m.answers s q a)
    (tested : ∀ s move t, Step m s move t → test s.shared move t.shared = true → step s move t)
    {goes : List (ι × ((q : Q) → Option (A q)))}
    (h : s.exec m check test (goes.map fun go => .go go.1 go.2) = some t) :
    ∃ moves, Execution.Run step s moves t ∧ ∀ move ∈ moves, ∀ i, move.continues i := by
  induction goes generalizing s with
  | nil =>
    simp only [List.map_nil, System.exec, Option.some.injEq] at h
    exact h ▸ ⟨[], .nil s, nofun⟩
  | cons go rest ih =>
    simp only [List.map_cons, System.exec] at h
    split at h
    · rename_i move u at_next
      split at h
      · obtain ⟨moves, run, continues⟩ := ih h
        have first := step_of_next sound at_next
        refine ⟨_, .cons (tested _ _ _ first ‹_›) run, List.forall_mem_cons.mpr ⟨?_, continues⟩⟩
        rintro i k rfl
        simp only [System.next] at at_next
        split at at_next
        · cases at_next
        · split at at_next
          · split at at_next <;> cases at_next
          · cases at_next
        · cases at_next
      · cases h
    · cases h

end System

end Turret.Tasks
