import Turret.FacilityLoans.Records

/-! What one update does, whatever the chain and the other processes do between
its reads. The target is met before anything else is read and checked to be on
the chain after it, so that all that was read between belongs to the branch of
the target; the revision says that the database at the commit is the one that
was read. -/

namespace Turret.FacilityLoans

open Execution Branches Tasks Tasks.Program Function

variable {H : Type} (x : Index H) (i : Task)

/-- The result of an update tells the loans of the blocks through `indexedThrough`, on the branch of
its target. -/
structure Describes (r : Snapshot H) (db : Database H) : Prop where
  revision : db.revision = r.revision
  epoch : db.epoch = r.historyEpoch
  branch : ∃ (d : List Block) (next : ℕ), Lawful x.entry.startBlock d ∧
    Names x.hash ⟨r.blockNumber, r.blockHash⟩ d ∧ r.indexedThrough = next - 1 ∧
    next ≤ r.blockNumber + 1 ∧ (r.complete = true ↔ next = r.blockNumber + 1) ∧
    db.rows = opened x.hash next d

/-- The result is of this database, or of one before it. -/
def Reported (r : Snapshot H) (db : Database H) : Prop :=
  ∃ old, Describes x r old ∧ Advances old db

/-- What holds at any time. -/
structure Inv (s : World H) : Prop where
  lawful : Lawful x.entry.startBlock s.chain
  seen : ∀ u ∈ s.updates, s.chain ∈ s.seen u
  begun : ∀ u ∈ s.updates, u < s.count
  stored : Stored x s.db
  settled : ∀ u r, s.settled u = some (.ok r) → Reported x r s.db

/-- Everything that one action of a request does. -/
inductive Act (s : World H) : World H → Prop
  | idle : Act s s
  | begin : Act s (s.begin i)
  | settle (u : ℕ) (r : Except Err (Snapshot H)) : s.owner u = i →
      (∀ snapshot, r = .ok snapshot → Reported x snapshot s.db) → Act s (s.settle i.1 u r)
  | commit (db : Database H) : Commits x s.db db → Act s { s with db }

/-- What a request may rely on: its own update runs on, until its process crashes. -/
structure Since (s t : World H) : Prop where
  count : s.count ≤ t.count
  crashed : ∀ p ∈ s.crashed, p ∈ t.crashed
  advances : Advances s.db t.db
  inv : Inv x s → Inv x t
  owner : ∀ u < s.count, t.owner u = s.owner u
  own : i.1 ∉ t.crashed → ∀ u ∈ s.updates, u < s.count → s.owner u = i →
    u ∈ t.updates ∧ Later (s.trace u) (t.trace u)

variable {x i} {s t u : World H}

theorem Reported.advances {r : Snapshot H} {a b : Database H} (h : Reported x r a)
    (advances : Advances a b) : Reported x r b := by
  obtain ⟨old, describes, since⟩ := h
  exact ⟨old, describes, since.trans advances⟩

theorem Since.refl (s : World H) : Since x i s s :=
  ⟨le_rfl, fun _ mem => mem, .refl _, id, fun _ _ => rfl, fun _ _ mem _ _ => ⟨mem, .refl _⟩⟩

theorem Since.trans (h : Since x i s t) (h' : Since x i t u) : Since x i s u where
  count := h.count.trans h'.count
  crashed := fun p mem => h'.crashed p (h.crashed p mem)
  advances := h.advances.trans h'.advances
  inv := h'.inv ∘ h.inv
  owner := fun n begun => (h'.owner n (begun.trans_le h.count)).trans (h.owner n begun)
  own := by
    intro alive n running begun own
    obtain ⟨running', later⟩ := h.own (fun mem => alive (h'.crashed _ mem)) n running begun own
    obtain ⟨running'', later'⟩ := h'.own alive n running' (begun.trans_le h.count)
      ((h.owner n begun).trans own)
    exact ⟨running'', later.trans later'⟩

theorem Act.inv (h : Act x i s t) (inv : Inv x s) : Inv x t := by
  cases h with
  | idle => exact inv
  | begin =>
    refine ⟨inv.lawful, fun u mem => ?_, fun u mem => ?_, inv.stored, inv.settled⟩
    · dsimp only [World.begin] at mem ⊢
      rcases List.mem_cons.mp mem with rfl | old
      · rw [update_self]
        exact List.mem_singleton_self _
      · rw [update_of_ne (inv.begun u old).ne]
        exact inv.seen u old
    · rcases List.mem_cons.mp mem with rfl | old
      · exact Nat.lt_succ_self _
      · exact (inv.begun u old).trans (Nat.lt_succ_self _)
  | settle u r own reported =>
    refine ⟨inv.lawful, fun n mem => inv.seen n (List.mem_of_mem_filter mem),
      fun n mem => inv.begun n (List.mem_of_mem_filter mem), inv.stored, fun n snapshot is => ?_⟩
    by_cases same : n = u
    · subst same
      simp only [World.settle, update_self] at is
      exact reported snapshot (Option.some.inj is)
    · simp only [World.settle, update_of_ne same] at is
      exact inv.settled n snapshot is
  | commit db commits =>
    exact ⟨inv.lawful, inv.seen, inv.begun, commits.stored,
      fun n snapshot is => (inv.settled n snapshot is).advances commits.advances⟩

theorem Act.advances (h : Act x i s t) : Advances s.db t.db := by
  cases h with
  | commit db commits => exact commits.advances
  | _ => exact .refl _

theorem Act.owner (h : Act x i s t) : ∀ u < s.count, t.owner u = s.owner u := by
  cases h with
  | begin => exact fun u begun => update_of_ne begun.ne _ _
  | _ => exact fun _ _ => rfl

theorem Act.count (h : Act x i s t) : s.count ≤ t.count := by
  cases h with
  | begin => exact Nat.le_succ _
  | _ => exact le_rfl

theorem Act.since {j : Task} (h : Act x i s t) (other : i ≠ j) : Since x j s t := by
  refine ⟨h.count, ?_, h.advances, h.inv, h.owner, fun _ u running begun own => ?_⟩
  · cases h <;> exact fun _ mem => mem
  · cases h with
    | idle => exact ⟨running, .refl _⟩
    | begin =>
      refine ⟨List.mem_cons_of_mem _ running, ?_⟩
      simp only [World.trace, World.begin, update_of_ne begun.ne]
      exact .refl _
    | settle n r at_n =>
      have ne : u ≠ n := fun same => other (at_n.symm.trans (same ▸ own))
      exact ⟨List.mem_filter.mpr ⟨running, decide_eq_true ne⟩, .refl _⟩
    | commit db => exact ⟨running, .refl _⟩

theorem environment_since {e : Incident} (h : environment x e s = some t) : Since x i s t := by
  cases e with
  | chain c =>
    simp only [environment, Option.ite_none_right_eq_some, Option.some.injEq] at h
    obtain ⟨⟨lawful, onward⟩, rfl⟩ := h
    refine ⟨le_rfl, fun _ mem => mem, .refl _, fun inv => ?_, fun _ _ => rfl,
      fun _ u running _ _ => ⟨running, later_move (onward u running)⟩⟩
    exact ⟨lawful, fun _ _ => List.mem_cons_self, inv.begun, inv.stored, inv.settled⟩
  | crash p =>
    cases h
    refine ⟨le_rfl, fun _ mem => List.mem_cons_of_mem _ mem, .refl _, fun inv => ?_,
      fun _ _ => rfl, ?_⟩
    · exact ⟨inv.lawful, fun u mem => inv.seen u (List.mem_of_mem_filter mem),
        fun u mem => inv.begun u (List.mem_of_mem_filter mem), inv.stored, inv.settled⟩
    · intro alive u running _ own
      refine ⟨List.mem_filter.mpr ⟨running, decide_eq_true fun same => alive ?_⟩, .refl _⟩
      rw [← own, same]
      exact List.mem_cons_self

variable (x) in
/-- The contract of the request `i`: it runs until its process crashes. -/
def contract (i : Task) : Contract (World H) Query (Answer H) where
  rely := Since x i
  admits := fun s _ => i.1 ∉ s.crashed
  guarantee := Act x i
  answers := answers x
  refl := Since.refl
  trans := Since.trans

theorem compatible [DecidableEq H] : Compatible (machine x) (contract x) where
  others := fun ne _ act => Act.since act ne
  env := environment_since
  answers := id

/-- A request that throws has nothing to promise. -/
abbrev SafeTo (x : Index H) (i : Task) {α : Type} (post : α → World H → Prop) (p : Prog H α)
    (s : World H) : Prop :=
  Safe (contract x i) post (fun _ _ => True) p s

/-! ### Rules -/

/-- The update `n` runs, for the request `i`. -/
structure Here (x : Index H) (i : Task) (n : ℕ) (s : World H) : Prop where
  alive : i.1 ∉ s.crashed
  running : n ∈ s.updates
  own : s.owner n = i
  inv : Inv x s

/-- The chain has moved on, and the database. -/
structure Onto (n : ℕ) (s t : World H) : Prop where
  advances : Advances s.db t.db
  later : Later (s.trace n) (t.trace n)

variable {n : ℕ}

theorem Onto.refl (n : ℕ) (s : World H) : Onto n s s := ⟨.refl _, .refl _⟩

theorem Onto.trans (h : Onto n s t) (h' : Onto n t u) : Onto n s u :=
  ⟨h.advances.trans h'.advances, h.later.trans h'.later⟩

theorem Here.since (h : Here x i n s) (since : Since x i s t) (alive : i.1 ∉ t.crashed) :
    Here x i n t ∧ Onto n s t := by
  have begun := h.inv.begun n h.running
  obtain ⟨running, later⟩ := since.own alive n h.running begun h.own
  exact ⟨⟨alive, running, (since.owner n begun).trans h.own, since.inv h.inv⟩, since.advances, later⟩

section Rules

variable {α β : Type} {post : β → World H → Prop}

theorem safe_call {q : Query} {next : q.Value H → Prog H β} (here : Here x i n s)
    (h : ∀ t a, Here x i n t → Onto n s t → answers x t q (.ok a) →
      SafeTo x i post (next a) t) :
    SafeTo x i post (call q >>= next) s := by
  refine Tasks.safe_call (fun _ _ _ _ _ _ => trivial) fun t a since admitted given => ?_
  obtain ⟨here', onto⟩ := here.since since admitted
  exact h t a here' onto given

theorem safe_throwIf {c : Prop} {_ : Decidable c} {e : Err} {next : Unit → Prog H β}
    (h : ¬c → SafeTo x i post (next ()) s) : SafeTo x i post (throwIf c e >>= next) s :=
  Tasks.safe_throwIf (fun _ _ _ => trivial) h

theorem safe_lift {y : Except Err α} {next : α → Prog H β}
    (h : ∀ a, y = .ok a → SafeTo x i post (next a) s) : SafeTo x i post (lift y >>= next) s :=
  Tasks.safe_lift (fun _ _ _ _ => trivial) h

theorem safe_look {next : World H → Prog H β} (here : Here x i n s)
    (h : ∀ t, Here x i n t → Onto n s t → SafeTo x i post (next t) t) :
    SafeTo x i post (look >>= next) s := by
  intro t since admitted
  obtain ⟨here', onto⟩ := here.since since admitted
  exact ⟨.idle, h t here' onto⟩

theorem safe_canonical {number : ℕ} {next : Header H → Prog H β} (here : Here x i n s)
    (h : ∀ t hd, Here x i n t → Onto n s t → hd.number = number →
      Names x.hash hd t.chain → SafeTo x i post (next hd) t) :
    SafeTo x i post (canonical number >>= next) s := by
  refine Safe.bind (safe_call here fun t (hd : Header H) here' onto given => ?_)
  have named : hd.number = number ∧ Names x.hash hd t.chain := given
  refine safe_throwIf fun _ => safe_pure fun u later => ?_
  exact (h t hd here' onto named.1 named.2).stable later

theorem safe_unchanged [DecidableEq H] {hd : Header H} {next : Unit → Prog H β}
    (here : Here x i n s)
    (h : ∀ t, Here x i n t → Onto n s t → Names x.hash hd t.chain → SafeTo x i post (next ()) t) :
    SafeTo x i post (unchanged hd >>= next) s := by
  refine Safe.bind (safe_canonical here fun t observed here' onto number named => ?_)
  refine safe_guard (fun _ _ _ => trivial) fun same u later => ?_
  have is : observed = hd := by
    cases observed
    cases hd
    exact congrArg₂ Header.mk number (not_not.mp same)
  exact (h t here' onto (is ▸ named)).stable later

theorem safe_checkBlocks [DecidableEq H] {blocks : List (Header H)} {next : Unit → Prog H β}
    (here : Here x i n s)
    (h : ∀ t, Here x i n t → Onto n s t → SafeTo x i post (next ()) t) :
    SafeTo x i post (checkBlocks blocks >>= next) s := by
  refine Safe.bind ?_
  induction blocks generalizing s with
  | nil => exact safe_pure fun t since => (h s here (.refl n s)).stable since
  | cons hd rest ih =>
    refine safe_unchanged here fun t at_t onto _ => ih at_t fun u at_u onto' => ?_
    exact h u at_u (onto.trans onto')

end Rules

end Turret.FacilityLoans

/-! The pages of one update, and what its transaction stores. -/

namespace Turret.FacilityLoans

open Execution Branches Tasks Tasks.Program

variable {H : Type} {x : Index H} {i : Task} {n : ℕ} {s t u : World H} {target : Header H}
  {p : Progress H} {first : ℕ} {c d : List Block} {db : Database H}
  {kept : List (Checkpoint H)}

/-! ### Progress -/

/-- On this chain, the progress since the block `first` is right. -/
structure Tracks (x : Index H) (first : ℕ) (p : Progress H) (c : List Block) : Prop where
  rows : opened x.hash p.next c = opened x.hash first c ++ p.discovered
  lastId : p.lastId = (opened x.hash p.next c).length
  marks : Marks x p.next p.checkpoints c

/-- The progress is right on any later chain that has the target. -/
structure Progressing (x : Index H) (target : Header H) (first : ℕ) (p : Progress H)
    (tr : Trace Block) : Prop where
  tracked : ∀ u, Later tr u → Lawful x.entry.startBlock u.chain → Names x.hash target u.chain →
    Tracks x first p u.chain
  within : p.next ≤ target.number + 1
  retained : p.checkpoints.length ≤ x.retainedCheckpoints

theorem discover_eq_ok {lastId : ℕ} {logs : List (Log H LoanOpened)} {found : ℕ × List Row}
    (h : discover lastId logs = .ok found) :
    found = (lastId + logs.length, logs.map rowOf) := by
  induction logs generalizing lastId found with
  | nil =>
    cases h
    rfl
  | cons log rest ih =>
    simp only [discover, bind_eq_ok, revertIf_eq_ok, not_not] at h
    obtain ⟨-, next, more, tail, done⟩ := h
    cases done
    rw [ih tail, next, List.length_cons, List.map_cons, Nat.add_assoc, Nat.add_comm 1]

/-- One page takes the progress from its first block to its last. -/
theorem Tracks.page (h : Tracks x first p c) {toBlock : ℕ} (above : p.next ≤ toBlock) {last : H}
    {found : ℕ × List Row} (named : Names x.hash ⟨toBlock, last⟩ c)
    (discovered : discover p.lastId (logsFrom x.hash Block.events p.next (toBlock + 1 - p.next) c) =
      .ok found) :
    Tracks x first (p.extend x toBlock last found) c := by
  have count : p.next + (toBlock + 1 - p.next) = toBlock + 1 := by omega
  have split : opened x.hash (toBlock + 1) c = opened x.hash p.next c ++
      (logsFrom x.hash Block.events p.next (toBlock + 1 - p.next) c).map rowOf := by
    rw [← opened_append, count]
  have is := discover_eq_ok discovered
  have lastId : found.1 = (opened x.hash (toBlock + 1) c).length := by
    rw [is, split, List.length_append, List.length_map, h.lastId]
  have at_end : Names x.hash (Checkpoint.mk toBlock last found.1).header c := named
  refine ⟨?_, lastId, h.marks.grow above at_end lastId x.retained_pos⟩
  rw [Progress.extend, is, split, h.rows, List.append_assoc]

/-- The page that was read, on any later chain that has the target. -/
theorem Progressing.page (injective : Function.Injective x.hash)
    (h : Progressing x target first p (s.trace n)) (met : Met x.hash target (s.trace n))
    {toBlock : ℕ} (above : p.next ≤ toBlock) (below : toBlock ≤ target.number) {last : Header H}
    (number : last.number = toBlock) (at_t : Later (s.trace n) (t.trace n))
    (named : Names x.hash last t.chain) (at_u : Later (t.trace n) (u.trace n))
    {logs : List (Log H LoanOpened)}
    (perm : logs.Perm (logsFrom x.hash Block.events p.next (toBlock + 1 - p.next) u.chain))
    {found : ℕ × List Row} (discovered : discover p.lastId (sortLogs logs) = .ok found)
    {w : World H} (at_w : Later (u.trace n) (w.trace n)) :
    Progressing x target first (p.extend x toBlock last.hash found) (w.trace n) := by
  have whole := (at_t.trans at_u).trans at_w
  refine ⟨fun v later lawful at_v => ?_, Nat.succ_le_succ below, ?_⟩
  · have target_u := (met.later (at_t.trans at_u)).names injective (at_w.trans later) at_v
    have target_t := (met.later at_t).names injective (at_u.trans (at_w.trans later)) at_v
    have same_u : Shares toBlock u.chain v.chain := (target_u.shares injective at_v).of_le below
    have same_t : Shares toBlock t.chain v.chain := (target_t.shares injective at_v).of_le below
    have end_v : Names x.hash ⟨toBlock, last.hash⟩ v.chain := by
      cases number
      exact named.of_shares same_t
    refine (h.tracked v (whole.trans later) lawful at_v).page above end_v ?_
    rw [← same_u.logsFrom_eq x.hash (by omega), ← sortLogs_eq positioned_events perm]
    exact discovered
  · rw [Progress.extend, List.rtake, List.length_drop]
    omega

section Safe

variable [DecidableEq H] {β : Type} {post : β → World H → Prop}

theorem safe_page {next : Progress H → Prog H β} (injective : Function.Injective x.hash)
    (here : Here x i n s) (met : Met x.hash target (s.trace n))
    (progress : Progressing x target first p (s.trace n)) (more : p.next ≤ target.number)
    (h : ∀ t q, Here x i n t → Onto n s t → Progressing x target first q (t.trace n) →
      q.checkpoints ≠ [] → SafeTo x i post (next q) t) :
    SafeTo x i post (page x target p >>= next) s := by
  refine Safe.bind (safe_canonical here fun t₁ last at₁ on₁ number named => ?_)
  refine safe_call at₁ fun t₂ (logs : List (Log H LoanOpened)) at₂ on₂ perm => ?_
  refine safe_throwIf fun _ => safe_lift fun _ _ => safe_checkBlocks at₂ fun t₃ at₃ on₃ => ?_
  refine safe_lift fun found discovered => safe_call at₃ fun t₄ (counter : ℕ) at₄ on₄ _ => ?_
  refine safe_throwIf fun _ => safe_unchanged at₄ fun t₅ at₅ on₅ _ => ?_
  refine safe_unchanged at₅ fun t₆ at₆ on₆ _ => safe_pure fun v since => ?_
  have above : p.next ≤ min (p.next + x.pageBlocks - 1) target.number := by
    have := x.pageBlocks_pos
    omega
  have onto : Onto n t₂ t₆ := ((on₃.trans on₄).trans on₅).trans on₆
  refine (h t₆ _ at₆ ((on₁.trans on₂).trans onto) ?_ (rtake_ne_nil x.retained_pos)).stable since
  exact progress.page injective met above (min_le_right _ _) number on₁.later named on₂.later perm
    discovered onto.later

theorem safe_pages {count : ℕ} {next : Progress H → Prog H β}
    (injective : Function.Injective x.hash) (here : Here x i n s)
    (met : Met x.hash target (s.trace n)) (progress : Progressing x target first p (s.trace n))
    (some : p.checkpoints ≠ [] ∨ 0 < count ∧ p.next ≤ target.number)
    (h : ∀ t q, Here x i n t → Onto n s t → Progressing x target first q (t.trace n) →
      q.checkpoints ≠ [] → SafeTo x i post (next q) t) :
    SafeTo x i post (pages x target count p >>= next) s := by
  refine Safe.bind ?_
  induction count generalizing s p with
  | zero =>
    have kept := some.resolve_right fun running => absurd running.1 (lt_irrefl 0)
    exact safe_pure fun t since => (h s p here (.refl n s) progress kept).stable since
  | succ count ih =>
    unfold pages
    split
    · refine safe_page injective here met progress ‹_› fun t q at_t onto progress' some' => ?_
      exact ih at_t (met.later onto.later) progress' (.inl some') fun u q' at_u onto' =>
        h u q' at_u (onto.trans onto')
    · rename_i done
      have kept := some.resolve_right fun running => done running.2
      exact safe_pure fun t since => (h s p here (.refl n s) progress kept).stable since

theorem safe_rewind {points : List (Checkpoint H)} {next : List (Checkpoint H) → Prog H β}
    (injective : Function.Injective x.hash) (here : Here x i n s)
    (met : Met x.hash target (s.trace n))
    (h : ∀ t kept, Here x i n t → Onto n s t → kept <:+ points →
      (∀ point ∈ kept.head?, point.number ≤ target.number ∧ ∀ u, Later (t.trace n) u →
        Names x.hash target u.chain → Names x.hash point.header u.chain) →
      SafeTo x i post (next kept) t) :
    SafeTo x i post (rewind target points >>= next) s := by
  refine Safe.bind ?_
  induction points generalizing s with
  | nil =>
    refine safe_pure fun t since =>
      (h s [] here (.refl n s) (List.suffix_refl _) ?_).stable since
    exact fun _ absent => (Option.not_mem_none _ absent).elim
  | cons point older ih =>
    unfold rewind
    split
    · exact ih here met fun t kept at_t onto suffix =>
        h t kept at_t onto (suffix.trans (List.suffix_cons _ _))
    · rename_i above
      refine safe_canonical here fun t observed at_t onto number named => ?_
      split
      · rename_i same
        refine safe_pure fun u since => (h t _ at_t onto (List.suffix_refl _) ?_).stable since
        intro found is
        cases Option.some.inj is
        refine ⟨not_lt.mp above, fun v later at_v => ?_⟩
        have at_t := (met.later onto.later).names injective later at_v
        have here : Names x.hash point.header t.chain := by
          rw [Checkpoint.header, ← number, ← same]
          exact named
        exact here.of_shares ((at_t.shares injective at_v).of_le (not_lt.mp above))
      · exact ih at_t (met.later onto.later) fun u kept at_u onto' suffix =>
          h u kept at_u (onto.trans onto') (suffix.trans (List.suffix_cons _ _))

end Safe

end Turret.FacilityLoans
