import Turret.ActiveLoans.Checkpoints

/-! What one call does, whatever the chain does between its reads. The target
is met before anything else is read and checked to be on the chain after it,
so that all that was read between belongs to the branch of the target. -/

namespace Turret.ActiveLoans

open Execution Branches Tasks Tasks.Program

variable {H : Type} (x : Index H) (i : ℕ)

/-- What is cached and persisted is valid, and the chains are lawful. -/
structure Inv (s : World H) : Prop where
  current : s.trace.chain ∈ s.trace.seen
  lawful : ∀ d ∈ s.trace.seen, Lawful x.market.startBlock d
  cached : ∀ v, s.cache = some v → Valid x v
  persisted : ∀ v, s.persisted = some v → Valid x v
  synced : x.persistence = true → ∀ v, s.cache = some v → s.persisted = some v

/-- Everything that one action of a call does. -/
inductive Act (s : World H) : World H → Prop
  | idle : Act s s
  | begin (requested : Option ℕ) : Act s (s.begin requested)
  | finish : Act s s.finish
  | store (v : Saved H) : Valid x v →
      (∀ n, s.pending = some (some n) → ∀ old, s.stored x = some old →
        ∀ point ∈ old.checkpoints, point.blockNumber ≤ n) →
      Act s (s.store x v)

/-- What a call may rely on: no other process writes while its own one lasts. -/
structure Since (s t : World H) : Prop where
  process : s.process ≤ t.process
  inv : Inv x s → Inv x t
  own : s.process = i → t.process = i →
    t.cache = s.cache ∧ t.persisted = s.persisted ∧ t.pending = s.pending ∧
      (∀ d ∈ s.trace.seen, d ∈ t.trace.seen) ∧
      (s.pending.isSome → Later s.trace t.trace)

variable {x i} {s t u : World H}

theorem Since.refl (s : World H) : Since x i s s :=
  ⟨le_rfl, id, fun _ _ => ⟨rfl, rfl, rfl, fun _ mem => mem, fun _ => .refl _⟩⟩

theorem Since.trans (h : Since x i s t) (h' : Since x i t u) : Since x i s u where
  process := h.process.trans h'.process
  inv := h'.inv ∘ h.inv
  own := by
    intro at_s at_u
    have at_t : t.process = i := le_antisymm (at_u ▸ h'.process) (at_s ▸ h.process)
    obtain ⟨cache, persisted, pending, seen, later⟩ := h.own at_s at_t
    obtain ⟨cache', persisted', pending', seen', later'⟩ := h'.own at_t at_u
    refine ⟨cache'.trans cache, persisted'.trans persisted, pending'.trans pending,
      fun d mem => seen' d (seen d mem), fun some => (later some).trans (later' ?_)⟩
    rw [pending]
    exact some

theorem Act.inv (h : Act x s t) (inv : Inv x s) : Inv x t := by
  cases h with
  | idle => exact inv
  | begin requested =>
    refine ⟨List.mem_singleton_self _, fun d mem => ?_, inv.cached, inv.persisted, inv.synced⟩
    rw [List.mem_singleton.mp mem]
    exact inv.lawful _ inv.current
  | finish => exact ⟨inv.current, inv.lawful, inv.cached, inv.persisted, inv.synced⟩
  | store v valid =>
    refine ⟨inv.current, inv.lawful, fun w is => ?_, fun w is => ?_, fun on w is => ?_⟩
    · exact Option.some.inj is ▸ valid
    · simp only [World.store] at is
      split at is
      · exact Option.some.inj is ▸ valid
      · exact inv.persisted w is
    · simp only [World.store, on, if_true]
      exact is

theorem Act.process (h : Act x s t) : t.process = s.process := by
  cases h <;> rfl

theorem Act.since {j : ℕ} (h : Act x s t) (other : s.process ≠ j) : Since x j s t :=
  ⟨h.process.ge, h.inv, fun at_s => absurd at_s other⟩

theorem environment_since {e : Incident} (h : environment x e s = some t) : Since x i s t := by
  cases e with
  | chain c =>
    simp only [environment, Option.ite_none_right_eq_some, Option.some.injEq] at h
    obtain ⟨⟨lawful, free⟩, rfl⟩ := h
    refine ⟨le_rfl, fun inv => ?_, fun _ _ => ⟨rfl, rfl, rfl, ?_, fun some => ?_⟩⟩
    · refine ⟨List.mem_cons_self, fun d mem => ?_, inv.cached, inv.persisted, inv.synced⟩
      exact (List.mem_cons.mp mem).elim (fun is => is ▸ lawful) (inv.lawful d)
    · exact fun d mem => List.mem_cons_of_mem _ mem
    · refine later_move (free.resolve_left fun none => ?_)
      rw [none] at some
      cases some
  | restart =>
    cases h
    refine ⟨Nat.le_succ _, fun inv => ?_, fun at_s at_t => ?_⟩
    · exact ⟨inv.current, inv.lawful, nofun, inv.persisted, fun _ => nofun⟩
    · exact absurd (at_t.trans at_s.symm) (Nat.succ_ne_self _)

variable (x) in
/-- The contract of the calls of process `i`: they run while it lasts. -/
def contract (i : ℕ) : Contract (World H) Query (Answer H) where
  rely := Since x i
  admits := fun s _ => s.process = i
  guarantee := Act x
  answers := answers x
  refl := Since.refl
  trans := Since.trans

theorem compatible [DecidableEq H] : Compatible (machine x) (contract x) where
  others := by
    intro i j s t ne admits act
    have at_i : s.process = i := admits
    exact Act.since act fun at_j => ne (at_i.symm.trans at_j)
  env := environment_since
  answers := id

/-- A call that throws has nothing to promise. -/
abbrev SafeTo (x : Index H) (i : ℕ) {α : Type} (post : α → World H → Prop) (p : Prog H α)
    (s : World H) : Prop :=
  Safe (contract x i) post (fun _ _ => True) p s

/-! ### Rules -/

/-- The call for this target is pending in process `i`. -/
structure Here (x : Index H) (i : ℕ) (requested : Option ℕ) (s : World H) : Prop where
  process : s.process = i
  pending : s.pending = some requested
  inv : Inv x s

/-- The chain has moved on, and nothing else. -/
structure Onto (s t : World H) : Prop where
  cache : t.cache = s.cache
  persisted : t.persisted = s.persisted
  later : Later s.trace t.trace

theorem Onto.trans (h : Onto s t) (h' : Onto t u) : Onto s u :=
  ⟨h'.cache.trans h.cache, h'.persisted.trans h.persisted, h.later.trans h'.later⟩

theorem Onto.stored (h : Onto s t) : t.stored x = s.stored x := by
  rw [World.stored, World.stored, h.cache, h.persisted]

variable {requested : Option ℕ}

theorem Here.since (h : Here x i requested s) (since : Since x i s t) (at_t : t.process = i) :
    Here x i requested t ∧ Onto s t := by
  obtain ⟨cache, persisted, pending, -, later⟩ := since.own h.process at_t
  refine ⟨⟨at_t, pending.trans h.pending, since.inv h.inv⟩, cache, persisted, later ?_⟩
  rw [h.pending]
  rfl

section Rules

variable {α β : Type} {post : β → World H → Prop}

theorem safe_call {q : Query} {next : q.Value H → Prog H β} (here : Here x i requested s)
    (h : ∀ t a, Here x i requested t → Onto s t → answers x t q (.ok a) →
      SafeTo x i post (next a) t) :
    SafeTo x i post (call q >>= next) s := by
  refine Tasks.safe_call (fun _ _ _ _ _ _ => trivial) fun t a since admitted given => ?_
  obtain ⟨here', onto⟩ := here.since since admitted
  exact h t a here' onto given

theorem safe_throwIf {c : Prop} {_ : Decidable c} {e : Err} {next : Unit → Prog H β}
    (h : ¬c → SafeTo x i post (next ()) s) : SafeTo x i post (throwIf c e >>= next) s :=
  Tasks.safe_throwIf (fun _ _ _ => trivial) h

theorem safe_lift {y : Except Err α} {next : α → Prog H β}
    (h : ∀ a, y = .ok a → SafeTo x i post (next a) s) : SafeTo x i post (lift y >>= next) s :=
  Tasks.safe_lift (fun _ _ _ _ => trivial) h

theorem safe_look {next : World H → Prog H β} (here : Here x i requested s)
    (h : ∀ t, Here x i requested t → Onto s t → SafeTo x i post (next t) t) :
    SafeTo x i post (look >>= next) s := by
  intro t since admitted
  obtain ⟨here', onto⟩ := here.since since admitted
  exact ⟨.idle, h t here' onto⟩

theorem safe_canonical {number : ℕ} {next : Header H → Prog H β} (here : Here x i requested s)
    (h : ∀ t hd, Here x i requested t → Onto s t → hd.number = number →
      Names x.hash hd t.trace.chain → SafeTo x i post (next hd) t) :
    SafeTo x i post (canonical number >>= next) s := by
  refine Safe.bind (safe_call here fun t (hd : Header H) here' onto given => ?_)
  have named : hd.number = number ∧ Names x.hash hd t.trace.chain := given
  refine safe_throwIf fun _ => safe_pure fun u later => ?_
  exact (h t hd here' onto named.1 named.2).stable later

theorem safe_unchanged [DecidableEq H] {hd : Header H} {next : Unit → Prog H β}
    (here : Here x i requested s)
    (h : ∀ t, Here x i requested t → Onto s t → Names x.hash hd t.trace.chain →
      SafeTo x i post (next ()) t) :
    SafeTo x i post (unchanged hd >>= next) s := by
  refine Safe.bind (safe_canonical here fun t observed here' onto number named => ?_)
  refine safe_guard (fun _ _ _ => trivial) fun same u later => ?_
  have is : observed = hd := by
    cases observed
    cases hd
    exact congrArg₂ Header.mk number (not_not.mp same)
  exact (h t here' onto (is ▸ named)).stable later

/-- The stored checkpoints are not above a requested block. -/
def Clear (x : Index H) (requested : Option ℕ) (s : World H) : Prop :=
  ∀ n, requested = some n → ∀ old, s.stored x = some old →
    ∀ point ∈ old.checkpoints, point.blockNumber ≤ n

theorem Clear.onto (h : Clear x requested s) (onto : Onto s t) : Clear x requested t :=
  fun n is old stored => h n is old (onto.stored ▸ stored)

theorem safe_store {v : Saved H} {next : Unit → Prog H β} (here : Here x i requested s)
    (valid : Valid x v) (clear : Clear x requested s)
    (h : ∀ t, Here x i requested t → Later s.trace t.trace → t.stored x = some v →
      SafeTo x i post (next ()) t) :
    SafeTo x i post (store x v >>= next) s := by
  have write : ∀ t, Here x i requested t → Onto s t →
      SafeTo x i (fun a t => SafeTo x i post (next a) t)
        (modify (World.store x v) : Prog H Unit) t := by
    intro t here' onto u since admitted
    obtain ⟨at_u, onto'⟩ := here'.since since admitted
    have act : Act x u (u.store x v) := by
      refine .store v valid fun n is => ?_
      exact (clear.onto (onto.trans onto')) n (Option.some.inj (at_u.pending.symm.trans is))
    refine ⟨act, fun w later => ?_⟩
    refine (h (u.store x v) ⟨at_u.process, at_u.pending, act.inv at_u.inv⟩ ?_ rfl).stable later
    exact (onto.trans onto').later
  refine Safe.bind ?_
  unfold store
  split
  · exact safe_call here fun t _ here' onto _ => write t here' onto
  · exact write s here ⟨rfl, rfl, .refl _⟩

/-- What is loaded is valid, and what is stored. -/
theorem safe_load {next : Saved H → Prog H β} (here : Here x i requested s)
    (h : ∀ t saved, Here x i requested t → Onto s t → Valid x saved →
      (∀ old, t.stored x = some old → old = saved) → SafeTo x i post (next saved) t) :
    SafeTo x i post (load x >>= next) s := by
  refine Safe.bind (safe_look here fun t at_t onto => ?_)
  split
  · rename_i saved cached
    refine safe_pure fun u since =>
      (h t saved at_t onto (at_t.inv.cached saved cached) fun old stored => ?_).stable since
    simpa [World.stored, cached] using stored.symm
  · rename_i uncached
    split
    · rename_i on
      refine safe_call at_t fun u _ at_u onto' _ => safe_look at_u fun v at_v onto'' => ?_
      have empty : v.cache = none := onto''.cache.trans (onto'.cache.trans uncached)
      have whole := (onto.trans onto').trans onto''
      cases persisted : v.persisted with
      | none =>
        refine safe_pure fun w since => (h v _ at_v whole .initial fun old stored => ?_).stable since
        simp [World.stored, empty, persisted] at stored
      | some saved =>
        have valid := at_v.inv.persisted saved persisted
        rw [valid.accepted]
        refine safe_pure fun w since => (h v _ at_v whole valid fun old stored => ?_).stable since
        simpa [World.stored, empty, persisted, on] using stored.symm
    · rename_i off
      refine safe_pure fun w since => (h t _ at_t onto .initial fun old stored => ?_).stable since
      simp [World.stored, uncached, off] at stored

end Rules

/-! ### Pages -/

/-- On any later chain that has the target, the progress is right. -/
structure Progressing (x : Index H) (target : Header H) (p : Progress H) (tr : Trace Block) :
    Prop where
  tracked : ∀ u, Later tr u → Lawful x.market.startBlock u.chain → Names x.hash target u.chain →
    Indexed u.chain p.next p.active
  started : x.market.startBlock ≤ p.next
  within : p.next ≤ target.number + 1
  points : WellFormed x p.checkpoints
  below : ∀ point ∈ p.checkpoints, point.blockNumber < p.next

variable {target : Header H} {p : Progress H}

theorem Progressing.later (h : Progressing x target p s.trace) (later : Later s.trace t.trace) :
    Progressing x target p t.trace :=
  { h with tracked := fun u after => h.tracked u (later.trans after) }

/-- The checkpoints that a page keeps. -/
theorem Progressing.grow {tr : Trace Block} (h : Progressing x target p tr) (last : Checkpoint H)
    (above : p.next ≤ last.blockNumber) (small : last.blockNumber < 2 ^ 256)
    (fits : last.activeIds.length ≤ x.maxActiveCandidates) (right : Right x last) :
    WellFormed x (lastOf x.retainedCheckpoints (p.checkpoints ++ [last])) ∧
      ∀ point ∈ lastOf x.retainedCheckpoints (p.checkpoints ++ [last]),
        point.blockNumber < last.blockNumber + 1 := by
  have grown := h.points.snoc (fun point mem => (h.below point mem).trans_le above)
    (h.started.trans above) small fits right
  refine ⟨grown.sublist (lastOf_sublist _ _), fun point mem => ?_⟩
  rcases List.mem_append.mp ((lastOf_sublist _ _).subset mem) with old | new
  · exact ((h.below point old).trans_le above).trans (Nat.lt_succ_self _)
  · rw [List.mem_singleton.mp new]
    exact Nat.lt_succ_self _

/-- Two chains that have the target have the same blocks up to it. -/
theorem shares_below (injective : Function.Injective x.hash) {c d : List Block} {n : ℕ}
    (h : Names x.hash target c) (h' : Names x.hash target d) (le : n ≤ target.number) :
    Shares n c d :=
  (h.shares injective h').of_le le

/-- The page that was read, on any later chain that has the target. -/
theorem Progressing.page (injective : Function.Injective x.hash)
    (h : Progressing x target p s.trace) (met : Met x.hash target s.trace)
    {toBlock : ℕ} (above : p.next ≤ toBlock) (below : toBlock ≤ target.number)
    {logs : List (Log H Event)} {read : World H} (after : Later s.trace read.trace)
    (perm : logs.Perm (logsFrom x.hash Block.events p.next (toBlock + 1 - p.next) read.trace.chain))
    {u : Trace Block} (later : Later read.trace u) (lawful : Lawful x.market.startBlock u.chain)
    (named : Names x.hash target u.chain) :
    Indexed u.chain (toBlock + 1)
      ((sortLogs logs).foldl (fun active log => record active log.event) p.active) := by
  have at_read := (met.later after).names injective later named
  have same : Shares toBlock read.trace.chain u.chain := shares_below injective at_read named below
  have count : p.next + (toBlock + 1 - p.next) = toBlock + 1 := by omega
  have page := (h.tracked u (after.trans later) lawful named).page lawful (toBlock + 1 - p.next)
  rw [count] at page
  rwa [sortLogs_eq positioned_events perm, same.logsFrom_eq x.hash count.le]

/-- A checkpoint that is found on the chain is right on any later chain that has the target. -/
theorem Right.tracked {point : Checkpoint H} (injective : Function.Injective x.hash)
    (right : Right x point) (below : point.blockNumber ≤ target.number)
    (met : Met x.hash target s.trace)
    (named : Names x.hash ⟨point.blockNumber, point.blockHash⟩ s.trace.chain) {u : Trace Block}
    (later : Later s.trace u) (at_u : Names x.hash target u.chain) :
    Indexed u.chain (point.blockNumber + 1) point.activeIds := by
  obtain ⟨c, -, at_c, indexed⟩ := right
  have now := met.names injective later at_u
  exact indexed.of_shares ((at_c.shares injective named).trans (shares_below injective now at_u below))

/-- The progress that a call starts from. -/
theorem Progressing.start {saved : Saved H} {kept : List (Checkpoint H)} (valid : Valid x saved)
    (above : x.market.startBlock ≤ target.number) (suffix : kept <:+ saved.checkpoints.reverse)
    (found : ∀ point ∈ kept.head?, point.blockNumber ≤ target.number ∧
      ∀ u, Later s.trace u → Names x.hash target u.chain →
        Indexed u.chain (point.blockNumber + 1) point.activeIds) :
    Progressing x target
      (match kept.head? with
        | some point => ⟨point.blockNumber + 1, point.activeIds, kept.reverse⟩
        | none => ⟨x.market.startBlock, [], kept.reverse⟩) s.trace := by
  have points : WellFormed x kept.reverse :=
    valid.points.sublist (List.reverse_suffix.mp (by simpa using suffix)).sublist
  cases kept with
  | nil =>
    exact ⟨fun u _ lawful _ => .start lawful, le_rfl, above.trans (Nat.le_succ _), points, by simp⟩
  | cons point older =>
    obtain ⟨below, tracked⟩ := found point rfl
    refine ⟨fun u later _ named => tracked u later named, ?_, Nat.succ_le_succ below, points, ?_⟩
    · exact (points.started point (by simp)).trans (Nat.le_succ _)
    · have ascending := points.ascending
      rw [List.reverse_cons, List.pairwise_append] at ascending
      intro other mem
      rw [List.reverse_cons] at mem
      rcases List.mem_append.mp mem with old | new
      · exact (ascending.2.2 other old point (List.mem_singleton_self _)).trans (Nat.lt_succ_self _)
      · rw [List.mem_singleton.mp new]
        exact Nat.lt_succ_self _

section Safe

variable [DecidableEq H] {β : Type} {post : β → World H → Prop}

theorem safe_checkBlocks {blocks : List (Header H)} {next : Unit → Prog H β}
    (here : Here x i requested s)
    (h : ∀ t, Here x i requested t → Onto s t → SafeTo x i post (next ()) t) :
    SafeTo x i post (checkBlocks blocks >>= next) s := by
  refine Safe.bind ?_
  induction blocks generalizing s with
  | nil => exact safe_pure fun t since => (h s here ⟨rfl, rfl, .refl _⟩).stable since
  | cons hd rest ih =>
    refine safe_unchanged here fun t at_t onto _ => ih at_t fun u at_u onto' => ?_
    exact h u at_u (onto.trans onto')

/-- What a page stores is valid, and the progress after it is right. -/
theorem safe_page {saved : Saved H} {historical : Bool} {next : Progress H → Prog H β}
    (injective : Function.Injective x.hash) (here : Here x i requested s)
    (valid : Valid x saved) (met : Met x.hash target s.trace)
    (progress : Progressing x target p s.trace) (more : p.next ≤ target.number)
    (requests : ∀ n, requested = some n → target.number = n)
    (clear : historical = false → Clear x requested s)
    (h : ∀ t q, Here x i requested t → Later s.trace t.trace → Progressing x target q t.trace →
      (historical = false → Clear x requested t) → SafeTo x i post (next q) t) :
    SafeTo x i post (page x saved historical target p >>= next) s := by
  refine Safe.bind (safe_canonical here fun t₁ last at₁ on₁ number named => ?_)
  refine safe_call at₁ fun t₂ (logs : List (Log H Event)) at₂ on₂ perm => ?_
  refine safe_throwIf fun _ => safe_lift fun _ _ => safe_checkBlocks at₂ fun t₃ at₃ on₃ => ?_
  refine safe_throwIf fun fits => safe_unchanged at₃ fun t₄ at₄ on₄ _ => ?_
  refine safe_unchanged at₄ fun t₅ at₅ on₅ named' => ?_
  have above : p.next ≤ min (p.next + x.pageSize - 1) target.number := by
    have := x.pageSize_pos
    omega
  have below : min (p.next + x.pageSize - 1) target.number ≤ target.number := min_le_right _ _
  have after₂ : Later s.trace t₂.trace := on₁.later.trans on₂.later
  have after₅ : Later t₂.trace t₅.trace := (on₃.later.trans on₄.later).trans on₅.later
  have lawful := at₅.inv.lawful _ at₅.inv.current
  generalize active_eq : (sortLogs logs).foldl (fun active log => record active log.event)
    p.active = active at fits ⊢
  have tracked : ∀ u, Later t₅.trace u → Lawful x.market.startBlock u.chain →
      Names x.hash target u.chain →
      Indexed u.chain (min (p.next + x.pageSize - 1) target.number + 1) active := by
    intro u later lawful named
    rw [← active_eq]
    exact progress.page injective met above below after₂ perm (after₅.trans later) lawful named
  have right : Right x ⟨min (p.next + x.pageSize - 1) target.number, last.hash, idsSorted active⟩ := by
    refine ⟨t₅.trace.chain, lawful, ?_, (tracked _ (.refl _) lawful named').sorted⟩
    have at_t₁ := (met.later on₁.later).names injective (on₂.later.trans after₅) named'
    rw [← number]
    exact named.of_shares (shares_below injective at_t₁ named' (number ▸ below))
  generalize min (p.next + x.pageSize - 1) target.number = toBlock at *
  have grown := progress.grow ⟨toBlock, last.hash, idsSorted active⟩ above
    ((below.trans_lt named'.1).trans lawful.short)
    ((List.length_insertionSort _ active).trans_le (not_lt.mp fits)) right
  have progress' : Progressing x target ⟨toBlock + 1, active,
      lastOf x.retainedCheckpoints (p.checkpoints ++ [⟨toBlock, last.hash, idsSorted active⟩])⟩
      t₅.trace :=
    ⟨tracked, (progress.started.trans above).trans (Nat.le_succ _), Nat.succ_le_succ below,
      grown.1, grown.2⟩
  split
  · refine safe_pure fun u since => (h t₅ _ at₅ (after₂.trans after₅) progress' fun off => ?_).stable since
    exact absurd off (by simp_all)
  · rename_i off
    have kept := clear (by simpa using off)
    have onto : Onto s t₅ :=
      (((on₁.trans on₂).trans on₃).trans on₄).trans on₅
    refine safe_store at₅ (valid.replace grown.1 (length_lastOf_le _ _)) (kept.onto onto)
      fun t₆ at₆ later stored => safe_pure fun u since => (h t₆ _ at₆ ((after₂.trans after₅).trans later)
        (progress'.later later) fun _ n is old at_old point mem => ?_).stable since
    cases Option.some.inj (stored.symm.trans at_old)
    have bound := grown.2 point mem
    have at_n := requests n is
    dsimp only at bound
    omega

theorem safe_pages {saved : Saved H} {historical : Bool} {n : ℕ} {next : Progress H → Prog H β}
    (injective : Function.Injective x.hash) (here : Here x i requested s)
    (valid : Valid x saved) (met : Met x.hash target s.trace)
    (progress : Progressing x target p s.trace)
    (requests : ∀ n, requested = some n → target.number = n)
    (clear : historical = false → Clear x requested s)
    (h : ∀ t q, Here x i requested t → Later s.trace t.trace → Progressing x target q t.trace →
      SafeTo x i post (next q) t) :
    SafeTo x i post (pages x saved historical target n p >>= next) s := by
  refine Safe.bind ?_
  induction n generalizing s p with
  | zero => exact safe_pure fun t since => (h s p here (.refl _) progress).stable since
  | succ n ih =>
    unfold pages
    split
    · refine safe_page injective here valid met progress ‹_› requests clear ?_
      intro t q at_t later progress' clear'
      exact ih at_t (met.later later) progress' clear' fun u q' at_u after progress'' =>
        h u q' at_u (later.trans after) progress''
    · exact safe_pure fun t since => (h s p here (.refl _) progress).stable since

theorem safe_rewind {points : List (Checkpoint H)} {next : List (Checkpoint H) → Prog H β}
    (injective : Function.Injective x.hash) (here : Here x i requested s)
    (met : Met x.hash target s.trace) (right : ∀ point ∈ points, Right x point)
    (h : ∀ t kept, Here x i requested t → Onto s t → kept <:+ points →
      (∀ point ∈ kept.head?, point.blockNumber ≤ target.number ∧
        ∀ u, Later t.trace u → Names x.hash target u.chain →
          Indexed u.chain (point.blockNumber + 1) point.activeIds) →
      SafeTo x i post (next kept) t) :
    SafeTo x i post (rewind target points >>= next) s := by
  refine Safe.bind ?_
  induction points generalizing s with
  | nil =>
    refine safe_pure fun t since => (h s [] here ⟨rfl, rfl, .refl _⟩ (List.suffix_refl _) ?_).stable since
    exact fun _ absent => (Option.not_mem_none _ absent).elim
  | cons point older ih =>
    have older_right : ∀ point ∈ older, Right x point :=
      fun p mem => right p (List.mem_cons_of_mem _ mem)
    unfold rewind
    split
    · exact ih here met older_right fun t kept at_t onto suffix =>
        h t kept at_t onto (suffix.trans (List.suffix_cons _ _))
    · rename_i above
      refine safe_canonical here fun t observed at_t onto number named => ?_
      split
      · rename_i same
        refine safe_pure fun u since => (h t _ at_t onto (List.suffix_refl _) ?_).stable since
        intro found is
        cases Option.some.inj is
        refine ⟨not_lt.mp above, fun u later at_u => ?_⟩
        refine (right _ List.mem_cons_self).tracked injective (not_lt.mp above)
          (met.later onto.later) ?_ later at_u
        rw [← number, ← same]
        exact named
      · exact ih at_t (met.later onto.later) older_right fun u kept at_u onto' suffix =>
          h u kept at_u (onto.trans onto') (suffix.trans (List.suffix_cons _ _))

end Safe

end Turret.ActiveLoans
