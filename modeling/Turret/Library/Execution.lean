import Mathlib.Tactic

/-! Checked calls and runs of them. A call returns `Except`: the error branch
carries no state, so a revert discards every change the call had made.
`Run` is a finite sequence of successful labelled steps, oldest first. -/

namespace Turret.Execution

variable {ε α β σ ι : Type}

/-- `if (c) revert e;` -/
def revertIf (c : Prop) [Decidable c] (e : ε) : Except ε Unit :=
  if c then .error e else .ok ()

/-- Checked subtraction: the arithmetic panic is the error `e`. -/
def checkedSub (a b : ℕ) (e : ε) : Except ε ℕ :=
  if b ≤ a then .ok (a - b) else .error e

def orRevert (x : Option α) (e : ε) : Except ε α :=
  match x with
  | some a => .ok a
  | none => .error e

@[simp] theorem bind_eq_ok (x : Except ε α) (f : α → Except ε β) (b : β) :
    (x >>= f) = .ok b ↔ ∃ a, x = .ok a ∧ f a = .ok b := by
  cases x <;> simp [bind, Except.bind]

theorem bind_ne_error (x : Except ε α) (f : α → Except ε β) (e : ε) :
    (x >>= f) ≠ .error e ↔ x ≠ .error e ∧ ∀ a, x = .ok a → f a ≠ .error e := by
  cases x <;> simp [bind, Except.bind]

@[simp] theorem map_eq_error (x : Except ε α) (f : α → β) (e : ε) :
    f <$> x = .error e ↔ x = .error e := by
  cases x <;> simp [Functor.map, Except.map]

@[simp] theorem ok_bind (a : α) (f : α → Except ε β) :
    ((.ok a : Except ε α) >>= f) = f a := rfl

@[simp] theorem error_bind (e : ε) (f : α → Except ε β) :
    ((.error e : Except ε α) >>= f) = .error e := rfl

@[simp] theorem pure_eq_ok (a b : α) : (pure a : Except ε α) = .ok b ↔ a = b := by
  simp [pure, Except.pure]

@[simp] theorem pure_ne_error (a : α) (e : ε) : (pure a : Except ε α) ≠ .error e := by
  simp [pure, Except.pure]

@[simp] theorem revertIf_eq_ok (c : Prop) [Decidable c] (e : ε) (u : Unit) :
    revertIf c e = .ok u ↔ ¬c := by
  by_cases h : c <;> simp [revertIf, h]

@[simp] theorem revertIf_eq_error (c : Prop) [Decidable c] (e e' : ε) :
    revertIf c e = .error e' ↔ c ∧ e = e' := by
  by_cases h : c <;> simp [revertIf, h]

@[simp] theorem checkedSub_eq_ok (a b d : ℕ) (e : ε) :
    checkedSub a b e = .ok d ↔ b ≤ a ∧ a - b = d := by
  by_cases h : b ≤ a <;> simp [checkedSub, h]

@[simp] theorem checkedSub_eq_error (a b : ℕ) (e e' : ε) :
    checkedSub a b e = .error e' ↔ a < b ∧ e = e' := by
  by_cases h : b ≤ a
  · simp [checkedSub, h, Nat.not_lt.mpr h]
  · simp [checkedSub, h, Nat.lt_of_not_le h]

@[simp] theorem orRevert_eq_ok (x : Option α) (e : ε) (a : α) :
    orRevert x e = .ok a ↔ x = some a := by
  cases x <;> simp [orRevert]

@[simp] theorem orRevert_eq_error (x : Option α) (e e' : ε) :
    orRevert x e = .error e' ↔ x = none ∧ e = e' := by
  cases x <;> simp [orRevert]

@[simp] theorem mapError_eq_ok {ε' : Type} (f : ε → ε') (x : Except ε α) (a : α) :
    x.mapError f = .ok a ↔ x = .ok a := by
  cases x <;> simp [Except.mapError]

@[simp] theorem mapError_eq_error {ε' : Type} (f : ε → ε') (x : Except ε α) (e' : ε') :
    x.mapError f = .error e' ↔ ∃ e, x = .error e ∧ f e = e' := by
  cases x <;> simp [Except.mapError]

/-! The run of a labelled step relation, and the rules by which what one step
preserves is carried to the whole run. -/

inductive Run (step : σ → ι → σ → Prop) : σ → List ι → σ → Prop
  | nil (s : σ) : Run step s [] s
  | cons {s t u : σ} {i : ι} {is : List ι} :
      step s i t → Run step t is u → Run step s (i :: is) u

namespace Run

variable {step : σ → ι → σ → Prop} {s t u : σ} {is js : List ι} {i : ι}

theorem single (h : step s i t) : Run step s [i] t :=
  .cons h (.nil t)

theorem append (h : Run step s is t) (k : Run step t js u) : Run step s (is ++ js) u := by
  induction h with
  | nil => exact k
  | cons first _ ih => exact .cons first (ih k)

theorem snoc (h : Run step s is t) (k : step t i u) : Run step s (is ++ [i]) u :=
  h.append (single k)

/-- The invariant rule. -/
theorem invariant (P : σ → Prop) (preserved : ∀ s i t, P s → step s i t → P t)
    (h : Run step s is t) (init : P s) : P t := by
  induction h with
  | nil => exact init
  | cons first _ ih => exact ih (preserved _ _ _ init first)

/-- The invariant rule where only the labels that meet `A` preserve it. -/
theorem invariant_of_labels (A : ι → Prop) (P : σ → Prop)
    (preserved : ∀ s i t, A i → P s → step s i t → P t)
    (h : Run step s is t) (admitted : ∀ i ∈ is, A i) (init : P s) : P t := by
  induction h with
  | nil => exact init
  | cons first _ ih =>
    have head := admitted _ (List.mem_cons_self ..)
    exact ih (fun i hi => admitted i (List.mem_cons_of_mem _ hi)) (preserved _ _ _ head init first)

/-- A relation that every step stands in, and that composes, holds between the ends. -/
theorem relates (R : σ → σ → Prop) (refl : ∀ s, R s s) (trans : ∀ s t u, R s t → R t u → R s u)
    (each : ∀ s i t, step s i t → R s t) (h : Run step s is t) : R s t := by
  induction h with
  | nil => exact refl _
  | cons first _ ih => exact trans _ _ _ (each _ _ _ first) ih

/-- The invariant rule for what is said of a state and of the labels that led to it. -/
theorem history (P : List ι → σ → Prop)
    (preserved : ∀ is s i t, P is s → step s i t → P (is ++ [i]) t)
    (h : Run step s is t) (init : P [] s) : P is t := by
  have after : ∀ before, P before s → P (before ++ is) t := by
    clear init
    induction h with
    | nil =>
      intro before start
      rw [List.append_nil]
      exact start
    | cons first _ ih =>
      intro before start
      rw [List.append_cons]
      exact ih _ (preserved _ _ _ _ start first)
  exact after [] init

theorem mono {step' : σ → ι → σ → Prop} (each : ∀ s i t, step s i t → step' s i t)
    (h : Run step s is t) : Run step' s is t := by
  induction h with
  | nil s => exact .nil s
  | cons first _ ih => exact .cons (each _ _ _ first) ih

/-- Every step of a run starts in a state that a prefix of the run reached. -/
theorem split (h : Run step s (is ++ i :: js) u) :
    ∃ a b, Run step s is a ∧ step a i b ∧ Run step b js u := by
  induction is generalizing s with
  | nil =>
    cases h with
    | cons first rest => exact ⟨s, _, .nil s, first, rest⟩
  | cons k ks ih =>
    cases h with
    | cons first rest =>
      obtain ⟨a, b, before, mid, after⟩ := ih rest
      exact ⟨a, b, .cons first before, mid, after⟩

end Run

/-- The labelled step of a total list of calls, each of which may revert. -/
def accepts (exec : ι → σ → Except ε σ) (s : σ) (i : ι) (t : σ) : Prop :=
  exec i s = .ok t

def execAll (exec : ι → σ → Except ε σ) : List ι → σ → Except ε σ
  | [], s => .ok s
  | i :: is, s => do
    let t ← exec i s
    execAll exec is t

/-- The state a list of calls reaches, or `d` where one of them reverts. -/
def reached (d : σ) : Except ε σ → σ
  | .ok s => s
  | .error _ => d

theorem eq_ok_reached {x : Except ε σ} (d : σ) (h : x.isOk = true) : x = .ok (reached d x) := by
  cases x with
  | ok s => rfl
  | error e => cases h

def failsWith [DecidableEq ε] (e : ε) : Except ε α → Bool
  | .ok _ => false
  | .error e' => decide (e' = e)

theorem eq_error_of_failsWith [DecidableEq ε] {e : ε} {x : Except ε α}
    (h : failsWith e x = true) : x = .error e := by
  cases x with
  | ok a => cases h
  | error e' => exact congrArg _ (of_decide_eq_true h)

theorem run_of_execAll {exec : ι → σ → Except ε σ} {is : List ι} {s t : σ}
    (h : execAll exec is s = .ok t) : Run (accepts exec) s is t := by
  induction is generalizing s with
  | nil =>
    simp only [execAll, Except.ok.injEq] at h
    exact h ▸ .nil s
  | cons i is ih =>
    simp only [execAll, bind_eq_ok] at h
    obtain ⟨mid, first, rest⟩ := h
    exact .cons first (ih rest)

end Turret.Execution
