import Turret.Library.Tasks

/-! One run of a program beside its environment, with all that it asked: between
two questions the environment moves on, and each answer is true of the state
that it is given in. -/

namespace Turret.Tasks

variable {σ Q ε α β : Type} {A : Q → Type}

/-- A question, its answer, and the state in which it was answered. -/
structure Exchange (σ Q : Type) (A : Q → Type) where
  state : σ
  question : Q
  answer : A question

/-- From the first state, with these exchanges, the program ends so in the last state. -/
inductive Ran (c : Contract σ Q A) :
    Program σ Q A ε α → σ → List (Exchange σ Q A) → Except ε α → σ → Prop
  | done {a : α} {s t : σ} : c.rely s t → Ran c (.done a) s [] (.ok a) t
  | fail {e : ε} {s t : σ} : c.rely s t → Ran c (.fail e) s [] (.error e) t
  | act {f : σ → σ} {next : σ → Program σ Q A ε α} {s t u : σ} {log : List (Exchange σ Q A)}
      {out : Except ε α} :
      c.rely s t → Ran c (next t) (f t) log out u → Ran c (.act f next) s log out u
  | ask {q : Q} {next : A q → Program σ Q A ε α} {a : A q} {s t u : σ}
      {log : List (Exchange σ Q A)} {out : Except ε α} :
      c.rely s t → c.answers t q a → Ran c (next a) t log out u →
      Ran c (.ask q next) s (⟨t, q, a⟩ :: log) out u

section Rules

variable {c : Contract σ Q A} {p : Program σ Q A ε α} {k : α → Program σ Q A ε β}
  {s t : σ} {log : List (Exchange σ Q A)}

/-- A program that changes nothing is between the states that the environment goes through. -/
theorem Ran.between {out : Except ε α} (h : Ran c p s log out t) (quiet : p.ReadOnly) :
    c.rely s t ∧ ∀ x ∈ log, c.rely s x.state ∧ c.rely x.state t ∧
      c.answers x.state x.question x.answer := by
  induction h with
  | done moved => exact ⟨moved, nofun⟩
  | fail moved => exact ⟨moved, nofun⟩
  | @act f next s t u log out moved rest ih =>
    obtain ⟨same, later⟩ := quiet t
    rw [same] at ih
    obtain ⟨reached, asked⟩ := ih later
    exact ⟨c.trans moved reached, fun x mem =>
      ⟨c.trans moved (asked x mem).1, (asked x mem).2⟩⟩
  | @ask q next a s t u log out moved given rest ih =>
    obtain ⟨reached, asked⟩ := ih (quiet a)
    refine ⟨c.trans moved reached, List.forall_mem_cons.mpr ⟨⟨moved, reached, given⟩, ?_⟩⟩
    exact fun x mem => ⟨c.trans moved (asked x mem).1, (asked x mem).2⟩

theorem ran_bind {out : Except ε β} (h : Ran c (p >>= k) s log out t) :
    (∃ e, out = .error e ∧ Ran c p s log (.error e) t) ∨
      ∃ a first rest u, log = first ++ rest ∧ Ran c p s first (.ok a) u ∧
        Ran c (k a) u rest out t := by
  change Ran c (p.bind k) s log out t at h
  induction p generalizing s log with
  | done a => exact .inr ⟨a, [], log, s, rfl, .done (c.refl s), h⟩
  | fail e =>
    cases h with
    | fail moved => exact .inl ⟨e, rfl, .fail moved⟩
  | act f next ih =>
    cases h with
    | @act _ _ _ v _ _ _ moved later =>
      rcases ih v later with ⟨e, same, failed⟩ | ⟨a, first, rest, u, same, ran, more⟩
      · exact .inl ⟨e, same, .act moved failed⟩
      · exact .inr ⟨a, first, rest, u, same, .act moved ran, more⟩
  | ask q next ih =>
    cases h with
    | @ask _ _ a _ v _ _ _ moved given later =>
      rcases ih a later with ⟨e, same, failed⟩ | ⟨b, first, rest, u, rfl, ran, more⟩
      · exact .inl ⟨e, same, .ask moved given failed⟩
      · exact .inr ⟨b, _, rest, u, rfl, .ask moved given ran, more⟩

/-- The parts of a sequence that returns. -/
theorem ran_bind_ok {b : β} (h : Ran c (p >>= k) s log (.ok b) t) :
    ∃ a first rest u, log = first ++ rest ∧ Ran c p s first (.ok a) u ∧
      Ran c (k a) u rest (.ok b) t := by
  rcases ran_bind h with ⟨e, same, -⟩ | parts
  · cases same
  · exact parts

theorem ran_orElse {handler : ε → Program σ Q A ε α} {out : Except ε α}
    (h : Ran c (p.orElse handler) s log out t) :
    (∃ a, out = .ok a ∧ Ran c p s log (.ok a) t) ∨
      ∃ e first rest u, log = first ++ rest ∧ Ran c p s first (.error e) u ∧
        Ran c (handler e) u rest out t := by
  induction p generalizing s log with
  | done a =>
    cases h with
    | done moved => exact .inl ⟨a, rfl, .done moved⟩
  | fail e => exact .inr ⟨e, [], log, s, rfl, .fail (c.refl s), h⟩
  | act f next ih =>
    cases h with
    | @act _ _ _ v _ _ _ moved later =>
      rcases ih v later with ⟨a, same, ran⟩ | ⟨e, first, rest, u, same, failed, more⟩
      · exact .inl ⟨a, same, .act moved ran⟩
      · exact .inr ⟨e, first, rest, u, same, .act moved failed, more⟩
  | ask q next ih =>
    cases h with
    | @ask _ _ a _ v _ _ _ moved given later =>
      rcases ih a later with ⟨b, same, ran⟩ | ⟨e, first, rest, u, rfl, failed, more⟩
      · exact .inl ⟨b, same, .ask moved given ran⟩
      · exact .inr ⟨e, _, rest, u, rfl, .ask moved given failed, more⟩

theorem ran_pure {a : α} {out : Except ε α}
    (h : Ran c (pure a : Program σ Q A ε α) s log out t) :
    out = .ok a ∧ log = [] ∧ c.rely s t := by
  cases h with
  | done moved => exact ⟨rfl, rfl, moved⟩

theorem ran_fail {e : ε} {out : Except ε α}
    (h : Ran c (.fail e : Program σ Q A ε α) s log out t) :
    out = .error e ∧ log = [] ∧ c.rely s t := by
  cases h with
  | fail moved => exact ⟨rfl, rfl, moved⟩

theorem ran_throwIf {C : Prop} [Decidable C] {e : ε} {out : Except ε Unit}
    (h : Ran c (Program.throwIf C e : Program σ Q A ε Unit) s log out t) :
    log = [] ∧ c.rely s t ∧ (C ∧ out = .error e ∨ ¬C ∧ out = .ok ()) := by
  unfold Program.throwIf at h
  split at h
  · cases h with
    | fail moved => exact ⟨rfl, moved, .inl ⟨‹_›, rfl⟩⟩
  · cases h with
    | done moved => exact ⟨rfl, moved, .inr ⟨‹_›, rfl⟩⟩

theorem ran_throwIf_ok {C : Prop} [Decidable C] {e : ε} {a : Unit}
    (h : Ran c (Program.throwIf C e : Program σ Q A ε Unit) s log (.ok a) t) :
    ¬C ∧ c.rely s t := by
  obtain ⟨-, moved, ⟨-, failed⟩ | ⟨passed, -⟩⟩ := ran_throwIf h
  · cases failed
  · exact ⟨passed, moved⟩

theorem ran_lift {x out : Except ε α}
    (h : Ran c (Program.lift x : Program σ Q A ε α) s log out t) :
    out = x ∧ log = [] ∧ c.rely s t := by
  cases x with
  | ok a => exact ran_pure h
  | error e => exact ran_fail h

end Rules

section Calls

variable {R : Q → Type} {c : Contract σ Q fun q => Except ε (R q)} {s t : σ}
  {log : List (Exchange σ Q fun q => Except ε (R q))}

theorem ran_call {q : Q} {out : Except ε (R q)}
    (h : Ran c (Program.call q) s log out t) :
    ∃ v, c.rely s v ∧ c.answers v q out ∧ c.rely v t ∧ log = [⟨v, q, out⟩] := by
  cases h with
  | @ask _ _ a _ v _ rest _ moved given later =>
    cases a with
    | ok a =>
      cases later with
      | done ended => exact ⟨v, moved, given, ended, rfl⟩
    | error e =>
      cases later with
      | fail ended => exact ⟨v, moved, given, ended, rfl⟩

end Calls

/-! ### Answers that do not change -/

/-- The exchanges and the end of a program whose questions are answered so. -/
def Program.replay (given : (q : Q) → A q) (s : σ) :
    Program σ Q A ε α → List (Exchange σ Q A) × Except ε α
  | done a => ([], .ok a)
  | fail e => ([], .error e)
  | act _ next => (next s).replay given s
  | ask q next =>
    let rest := (next (given q)).replay given s
    (⟨s, q, given q⟩ :: rest.1, rest.2)

theorem ran_replay {c : Contract σ Q A} {given : (q : Q) → A q} {s : σ}
    (truthful : ∀ q, c.answers s q (given q)) (p : Program σ Q A ε α) (quiet : p.ReadOnly) :
    Ran c p s (p.replay given s).1 (p.replay given s).2 s := by
  induction p with
  | done a => exact .done (c.refl s)
  | fail e => exact .fail (c.refl s)
  | act f next ih =>
    obtain ⟨same, later⟩ := quiet s
    refine .act (c.refl s) ?_
    rw [same]
    exact ih s later
  | ask q next ih => exact .ask (c.refl s) (truthful q) (ih (given q) (quiet (given q)))

end Turret.Tasks
