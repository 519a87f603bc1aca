import Turret.FacilityLoans.Updates

/-! What an update leaves in the database, and what it returns. -/

namespace Turret.FacilityLoans

open Execution Branches Tasks Tasks.Program

variable {H : Type} {x : Index H} {i : Task} {n : ℕ} {s t u : World H} {target : Header H}
  {p : Progress H} {c : List Block} {a b : Database H} {kept : List (Checkpoint H)}

/-! ### The checkpoints that are kept -/

theorem startAt_cons (point : Checkpoint H) (older : List (Checkpoint H)) :
    startAt x (point :: older) =
      ⟨point.number + 1, point.lastId, older.reverse ++ [point], []⟩ := by
  rw [startAt, List.head?_cons, List.reverse_cons]

theorem checkpoints_of_info {m : Meta H} (h : a.info = some m) : a.checkpoints = m.checkpoints := by
  rw [Database.checkpoints, h]
  rfl

/-- The kept checkpoints are the first of those that were read. -/
theorem prefix_of_kept {points older : List (Checkpoint H)} {point : Checkpoint H}
    (suffix : point :: older <:+ points.reverse) : older.reverse ++ [point] <+: points := by
  rw [← List.reverse_cons]
  exact List.reverse_suffix.mp (by simpa using suffix)

/-- A database with a kept checkpoint has a branch that shares its block with the chain. -/
theorem Stored.shares (injective : Function.Injective x.hash) (h : Stored x a)
    {point : Checkpoint H} {older : List (Checkpoint H)}
    (suffix : point :: older <:+ a.checkpoints.reverse) (named : Names x.hash point.header c) :
    ∃ m d, a.info = some m ∧ Records x m a.rows d ∧ point ∈ m.checkpoints ∧
      older.reverse ++ [point] <+: m.checkpoints ∧ Shares point.number d c := by
  cases info : a.info with
  | none =>
    rw [Database.checkpoints, info] at suffix
    simp at suffix
  | some m =>
    obtain ⟨d, records⟩ := h.records m info
    rw [checkpoints_of_info info] at suffix
    have start := prefix_of_kept suffix
    have mem : point ∈ m.checkpoints := start.subset (by simp)
    exact ⟨m, d, rfl, records, mem, start, (records.marks.named point mem).shares injective named⟩

/-- The rows that are kept are the loans of the blocks that are not read again. -/
theorem Stored.kept_rows (injective : Function.Injective x.hash) (h : Stored x a)
    (lawful : Lawful x.entry.startBlock c) (suffix : kept <:+ a.checkpoints.reverse)
    (named : ∀ point ∈ kept.head?, Names x.hash point.header c) :
    a.rows.filter (·.openedBlock < (startAt x kept).next) =
      opened x.hash (startAt x kept).next c := by
  cases kept with
  | nil =>
    have next : (startAt x ([] : List (Checkpoint H))).next = x.entry.startBlock := rfl
    rw [next, lawful.opened_start le_rfl]
    cases info : a.info with
    | none =>
      rw [h.empty info]
      rfl
    | some m =>
      obtain ⟨d, records⟩ := h.records m info
      rw [records.rows]
      rcases le_total x.entry.startBlock d.length with le | le
      · rw [filter_opened le, records.lawful.opened_start le_rfl]
      · rw [records.lawful.opened_start le]
        rfl
  | cons point older =>
    obtain ⟨m, d, -, records, mem, -, same⟩ := h.shares injective suffix (named point rfl)
    rw [startAt_cons, records.rows, filter_opened (records.marks.lt mem), opened_eq same le_rfl]

/-- Where every checkpoint is kept, every row is. -/
theorem Stored.all_kept (h : Stored x a) (suffix : kept <:+ a.checkpoints.reverse)
    (all : kept.length = a.checkpoints.length) :
    a.rows.filter (·.openedBlock < (startAt x kept).next) = a.rows := by
  have is : kept = a.checkpoints.reverse := suffix.eq_of_length (by simpa using all)
  cases info : a.info with
  | none =>
    rw [h.empty info]
    rfl
  | some m =>
    obtain ⟨d, records⟩ := h.records m info
    obtain ⟨point, last, -, length, -⟩ := records.branch
    have next : (startAt x kept).next = d.length := by
      rw [startAt, is, checkpoints_of_info info, List.head?_reverse, last]
      exact length.symm
    rw [next, records.rows]
    exact List.filter_eq_self.mpr fun row mem => decide_eq_true (openedBlock_lt mem)

/-- The progress that an update starts from. -/
theorem Progressing.start (injective : Function.Injective x.hash) (h : Stored x a)
    (above : x.entry.startBlock ≤ target.number) (suffix : kept <:+ a.checkpoints.reverse)
    {tr : Trace Block}
    (found : ∀ point ∈ kept.head?, point.number ≤ target.number ∧ ∀ u, Later tr u →
      Names x.hash target u.chain → Names x.hash point.header u.chain) :
    Progressing x target (startAt x kept).next (startAt x kept) tr := by
  cases kept with
  | nil =>
    refine ⟨fun u _ lawful _ => ⟨(List.append_nil _).symm, ?_, ?_⟩, above.trans (Nat.le_succ _),
      Nat.zero_le _⟩
    · change 0 = (opened x.hash x.entry.startBlock u.chain).length
      rw [lawful.opened_start le_rfl]
      rfl
    · constructor <;> simp [startAt]
  | cons point older =>
    obtain ⟨below, named⟩ := found point rfl
    rw [startAt_cons]
    refine ⟨fun u later lawful at_u => ?_, Nat.succ_le_succ below, ?_⟩
    · obtain ⟨m, d, -, records, mem, start, same⟩ := h.shares injective suffix (named u later at_u)
      refine ⟨(List.append_nil _).symm, ?_, records.marks.prefix start same⟩
      rw [records.marks.counted point mem, opened_eq same le_rfl]
    · have fewer := suffix.length_le
      cases info : a.info with
      | none =>
        rw [Database.checkpoints, info] at suffix
        simp at suffix
      | some m =>
        rw [checkpoints_of_info info, List.length_reverse] at fewer
        have retained := h.retained m info
        rw [← List.reverse_cons, List.length_reverse]
        exact fewer.trans retained

/-! ### The transaction -/

/-- The database after the transaction has the loans of the blocks that were read. -/
theorem Tracks.stored (h : Tracks x (startAt x kept).next p c)
    (lawful : Lawful x.entry.startBlock c) (stored : Stored x a)
    (rows : b.rows = opened x.hash p.next c) {revision epoch : ℕ}
    (info : b.info = some ⟨(a.info.map Meta.binding).getD x.entry, revision + 1, p.checkpoints,
      epoch⟩)
    (within : p.next ≤ c.length) (retained : p.checkpoints.length ≤ x.retainedCheckpoints)
    (nonempty : p.checkpoints ≠ []) : Stored x b := by
  refine ⟨fun none => ?_, fun m is => ?_, fun m is => ?_, fun m is => ?_, fun m is => ?_⟩
  · rw [none] at info
    cases info
  · cases Option.some.inj (info.symm.trans is)
    cases at_a : a.info with
    | none => rfl
    | some old => exact stored.bound old at_a
  · cases Option.some.inj (info.symm.trans is)
    exact Nat.le_add_left _ _
  · cases Option.some.inj (info.symm.trans is)
    exact retained
  · cases Option.some.inj (info.symm.trans is)
    obtain ⟨point, last⟩ := Option.ne_none_iff_exists'.mp
      (mt List.getLast?_eq_none_iff.mp nonempty)
    have next := h.marks.last point last
    have length : (c.take (point.number + 1)).length = point.number + 1 :=
      List.length_take_of_le (next ▸ within)
    have same : Shares point.number c (c.take (point.number + 1)) := by
      refine ⟨by omega, by omega, ?_⟩
      rw [List.take_take, min_self]
    have marks := h.marks
    rw [← next] at marks rows
    refine ⟨c.take (point.number + 1), lawful.take (Nat.succ_pos _), ?_, nonempty, ?_⟩
    · rw [length]
      exact marks.of_shares same
    · rw [length, rows, opened_eq same le_rfl]

/-- The transaction commits to the revision that was read, so that it finds what was read. -/
theorem Tracks.commits (injective : Function.Injective x.hash)
    (h : Tracks x (startAt x kept).next p c) (lawful : Lawful x.entry.startBlock c)
    (stored : Stored x a) (suffix : kept <:+ a.checkpoints.reverse)
    (named : ∀ point ∈ kept.head?, Names x.hash point.header c) (within : p.next ≤ c.length)
    (retained : p.checkpoints.length ≤ x.retainedCheckpoints) (nonempty : p.checkpoints ≠ [])
    (done : replaceRows x ⟨a.revision, a.epoch, a.checkpoints⟩ (startAt x kept).next p
      (a.epoch + if kept.length < a.checkpoints.length then 1 else 0) a = .ok b) :
    Commits x a b ∧ b.rows = opened x.hash p.next c ∧ b.revision = a.revision + 1 ∧
      b.epoch = a.epoch + if kept.length < a.checkpoints.length then 1 else 0 := by
  obtain ⟨-, rows, info⟩ := replaceRows_eq_ok done
  have revision : b.revision = a.revision + 1 := by
    rw [Database.revision, info]
    rfl
  have epoch : b.epoch = a.epoch + if kept.length < a.checkpoints.length then 1 else 0 := by
    rw [Database.epoch, info]
    rfl
  have found : b.rows = opened x.hash p.next c := by
    rw [rows, stored.kept_rows injective lawful suffix named, ← h.rows]
  refine ⟨⟨revision, ?_, h.stored lawful stored found info within retained nonempty⟩, found,
    revision, epoch⟩
  by_cases dropped : kept.length < a.checkpoints.length
  · rw [if_pos dropped] at epoch
    exact .inr epoch
  · rw [if_neg dropped] at epoch
    have fewer := suffix.length_le
    rw [List.length_reverse] at fewer
    refine .inl ⟨epoch, ?_⟩
    rw [rows, stored.all_kept suffix (by omega)]
    exact List.prefix_append _ _

theorem safe_commit {β : Type} {post : β → World H → Prop} {saved : Saved H} {rewound epoch : ℕ}
    {next : Unit → Prog H β} (here : Here x i n s)
    (h : ∀ t db, Here x i n t → Onto n s t → replaceRows x saved rewound p epoch t.db = .ok db →
      Commits x t.db db ∧ SafeTo x i post (next ()) { t with db }) :
    SafeTo x i post (commit x saved rewound p epoch >>= next) s := by
  refine Safe.bind (safe_call here fun t _ at_t onto _ => safe_attempt (fun _ => .idle)
    (fun u done v since ran admitted => ?_) fun _ _ _ _ _ _ => trivial)
  obtain ⟨db, replaced, rfl⟩ : ∃ db, replaceRows x saved rewound p epoch u.db = .ok db ∧
      v = { u with db } := by
    simp only [bind_eq_ok] at ran
    obtain ⟨db, replaced, rest⟩ := ran
    cases rest
    exact ⟨db, replaced, rfl⟩
  obtain ⟨at_u, onto'⟩ := at_t.since since admitted
  obtain ⟨commits, safe⟩ := h u db at_u (onto.trans onto') replaced
  exact ⟨.commit db commits, fun w later => safe.stable later⟩

/-- What an update returns describes a database that there has been. -/
theorem safe_perform [DecidableEq H] (injective : Function.Injective x.hash) (here : Here x i n s) :
    SafeTo x i (fun r t => Reported x r t.db) (perform x) s := by
  refine safe_call here fun t₁ (chainId : ℕ) at₁ _ _ => safe_throwIf fun _ => ?_
  refine safe_call at₁ fun t₂ (latest : Header H × ℕ) at₂ _ given => ?_
  obtain ⟨target, timestamp⟩ := latest
  have newest : target.number + 1 = t₂.chain.length ∧ Names x.hash target t₂.chain := given
  have met₂ : Met x.hash target (t₂.trace n) :=
    ⟨t₂.chain, at₂.inv.seen n at₂.running, newest.2⟩
  refine safe_call at₂ fun t₃ (time : ℕ) at₃ on₃ _ => safe_throwIf fun current => ?_
  refine safe_call at₃ fun t₄ (code : Option String) at₄ on₄ _ => safe_throwIf fun _ => ?_
  refine safe_look at₄ fun t₅ at₅ on₅ => safe_lift fun saved read => ?_
  cases savedState_eq_ok read
  have stored := at₅.inv.stored
  have met₅ := met₂.later ((on₃.later.trans on₄.later).trans on₅.later)
  have above : x.entry.startBlock ≤ target.number := by
    rw [not_or] at current
    exact not_lt.mp current.1
  refine safe_rewind injective at₅ met₅ fun t₆ kept at₆ on₆ suffix found => ?_
  have started : (startAt x kept).checkpoints ≠ [] ∨
      0 < x.maxPages ∧ (startAt x kept).next ≤ target.number := by
    cases kept with
    | nil => exact .inr ⟨x.maxPages_pos, above⟩
    | cons point older =>
      rw [startAt_cons]
      exact .inl (by simp)
  refine safe_pages injective at₆ (met₅.later on₆.later)
    (.start injective stored above suffix found) started fun t₇ p at₇ on₇ progress nonempty => ?_
  refine safe_unchanged at₇ fun t₈ at₈ on₈ named => ?_
  have lawful := at₈.inv.lawful
  have tracks := progress.tracked _ on₈.later lawful named
  have at_kept : ∀ point ∈ kept.head?, Names x.hash point.header t₈.chain := fun point is =>
    (found point is).2 _ (on₇.later.trans on₈.later) named
  have within : p.next ≤ t₈.chain.length := progress.within.trans named.1
  have whole : Onto n t₅ t₈ := (on₆.trans on₇).trans on₈
  dsimp only
  split
  · rename_i unchanged
    obtain ⟨same, all, -⟩ := unchanged
    refine safe_pure fun v since => ⟨t₅.db, ⟨rfl, ?_, t₈.chain, p.next, lawful, named, rfl,
      progress.within, decide_eq_true_iff, ?_⟩, whole.advances.trans since.advances⟩
    · rw [if_neg (by omega)]
      rfl
    · rw [← stored.all_kept suffix all, same]
      exact stored.kept_rows injective lawful suffix at_kept
  · refine safe_commit at₈ fun t₉ db at₉ on₉ done => ?_
    have found : t₅.db = t₉.db :=
      (whole.trans on₉).advances.same (replaceRows_eq_ok done).1.symm
    rw [← found] at done
    obtain ⟨commits, rows, revision, epoch⟩ := tracks.commits injective lawful stored suffix at_kept
      within progress.retained nonempty done
    refine ⟨found ▸ commits, safe_pure fun v since => ⟨db, ⟨revision, epoch, t₈.chain, p.next, lawful,
      named, rfl, progress.within, decide_eq_true_iff, rows⟩, since.advances⟩⟩

end Turret.FacilityLoans
