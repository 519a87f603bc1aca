import Turret.FacilityLoans.Index

/-! What the database stands for: the loans of one branch, which the hash of
its last checkpoint names. What one transaction makes of it. -/

namespace Turret.FacilityLoans

open Execution Branches

variable {H : Type} {x : Index H} {c d : List Block} {next : ℕ} {points : List (Checkpoint H)}
  {a b : Database H}

/-! ### Checkpoints -/

def Checkpoint.header (point : Checkpoint H) : Header H := ⟨point.number, point.hash⟩

/-- The checkpoints of a branch that ends before the block `next`: each counts the loans up to its
block, and the last is of the last block. -/
structure Marks (x : Index H) (next : ℕ) (points : List (Checkpoint H)) (c : List Block) : Prop where
  ascending : points.Pairwise fun a b => a.number < b.number
  named : ∀ point ∈ points, Names x.hash point.header c
  counted : ∀ point ∈ points, point.lastId = (opened x.hash (point.number + 1) c).length
  last : ∀ point ∈ points.getLast?, point.number + 1 = next

theorem Marks.lt (h : Marks x next points c) {point : Checkpoint H} (mem : point ∈ points) :
    point.number < next := by
  rcases List.eq_nil_or_concat' points with rfl | ⟨older, newest, rfl⟩
  · cases mem
  · have ends := h.last newest (by simp)
    rcases List.mem_append.mp mem with old | new
    · have less := (List.pairwise_append.mp h.ascending).2.2 point old newest
        (List.mem_singleton_self _)
      omega
    · rw [List.mem_singleton.mp new]
      omega

/-- On another chain with the blocks before `next`. -/
theorem Marks.of_shares (h : Marks x (next + 1) points c) (same : Shares next c d) :
    Marks x (next + 1) points d where
  ascending := h.ascending
  named := fun point mem => (h.named point mem).of_shares (same.of_le (Nat.le_of_lt_succ (h.lt mem)))
  counted := fun point mem => by
    rw [h.counted point mem, opened_eq same (h.lt mem)]
  last := h.last

/-- One more checkpoint, and the oldest ones forgotten. -/
theorem Marks.grow (h : Marks x next points c) {point : Checkpoint H} (above : next ≤ point.number)
    (named : Names x.hash point.header c)
    (counted : point.lastId = (opened x.hash (point.number + 1) c).length) {count : ℕ}
    (positive : 0 < count) :
    Marks x (point.number + 1) ((points ++ [point]).rtake count) c := by
  have whole : ∀ p ∈ points ++ [point], p ∈ points ∨ p = point := fun p mem => by simpa using mem
  have sub : (points ++ [point]).rtake count <:+ points ++ [point] := List.drop_suffix _ _
  have ascending : (points ++ [point]).Pairwise fun a b => a.number < b.number := by
    rw [List.pairwise_append]
    refine ⟨h.ascending, List.pairwise_singleton _ _, fun p mem q last => ?_⟩
    rw [List.mem_singleton.mp last]
    exact (h.lt mem).trans_le above
  refine ⟨ascending.sublist sub.sublist, fun p mem => ?_, fun p mem => ?_, fun p is => ?_⟩
  · exact (whole p (sub.subset mem)).elim (h.named p) fun is => is ▸ named
  · exact (whole p (sub.subset mem)).elim (h.counted p) fun is => is ▸ counted
  · rw [List.rtake_eq_reverse_take_reverse, List.reverse_append, List.reverse_singleton,
      List.singleton_append, ← Nat.succ_pred_eq_of_pos positive, List.take_succ_cons,
      List.reverse_cons, List.getLast?_append, List.getLast?_singleton] at is
    cases is
    rfl

theorem rtake_ne_nil {point : Checkpoint H} {count : ℕ} (positive : 0 < count) :
    (points ++ [point]).rtake count ≠ [] := by
  rw [List.rtake_eq_reverse_take_reverse, List.reverse_append, List.reverse_singleton,
    List.singleton_append, ← Nat.succ_pred_eq_of_pos positive, List.take_succ_cons]
  simp

/-- The checkpoints through one that is found on the chain again. -/
theorem Marks.prefix (h : Marks x next points c) {kept : List (Checkpoint H)} {point : Checkpoint H}
    (start : kept ++ [point] <+: points) (same : Shares point.number c d) :
    Marks x (point.number + 1) (kept ++ [point]) d := by
  have sub := start.subset
  have before : Marks x (point.number + 1) (kept ++ [point]) c := by
    refine ⟨h.ascending.sublist start.sublist, fun p mem => h.named p (sub mem),
      fun p mem => h.counted p (sub mem), fun p is => ?_⟩
    rw [List.getLast?_append, List.getLast?_singleton] at is
    cases is
    rfl
  exact before.of_shares same

/-! ### The database -/

def Database.revision (db : Database H) : ℕ := (db.info.map Meta.revision).getD 0

def Database.epoch (db : Database H) : ℕ := (db.info.map Meta.historyEpoch).getD 0

def Database.checkpoints (db : Database H) : List (Checkpoint H) :=
  (db.info.map Meta.checkpoints).getD []

/-- The rows are the loans of a branch, which the last checkpoint names. -/
structure Records (x : Index H) (m : Meta H) (rows : List Row) (c : List Block) : Prop where
  lawful : Lawful x.entry.startBlock c
  marks : Marks x c.length m.checkpoints c
  nonempty : m.checkpoints ≠ []
  rows : rows = opened x.hash c.length c

/-- What is in the database at any time. -/
structure Stored (x : Index H) (db : Database H) : Prop where
  empty : db.info = none → db.rows = []
  bound : ∀ m ∈ db.info, m.binding = x.entry
  counted : ∀ m ∈ db.info, 1 ≤ m.revision
  retained : ∀ m ∈ db.info, m.checkpoints.length ≤ x.retainedCheckpoints
  records : ∀ m ∈ db.info, ∃ c, Records x m db.rows c

/-- The branch of the last checkpoint is the one that its hash names. -/
theorem Records.branch {m : Meta H} {rows : List Row} (h : Records x m rows c) :
    ∃ point, m.checkpoints.getLast? = some point ∧ x.hash c = point.hash ∧
      c.length = point.number + 1 ∧ point.lastId = rows.length := by
  obtain ⟨point, is⟩ := Option.ne_none_iff_exists'.mp
    (mt List.getLast?_eq_none_iff.mp h.nonempty)
  have mem : point ∈ m.checkpoints := List.mem_of_getLast? is
  have length := h.marks.last point is
  have named := (h.marks.named point mem).2
  refine ⟨point, is, ?_, length.symm, ?_⟩
  · rw [Checkpoint.header, length, List.take_length] at named
    exact named
  · rw [h.marks.counted point mem, length, h.rows]

/-- The rows have the numbers from one to the last. -/
theorem Stored.ids (h : Stored x a) : a.rows.map Row.id = List.range' 1 a.rows.length := by
  cases info : a.info with
  | none => simp [h.empty info]
  | some m =>
    obtain ⟨c, records⟩ := h.records m info
    rw [records.rows]
    exact (records.lawful.opened_ids _).1

/-- What one database may become. -/
structure Advances (a b : Database H) : Prop where
  revision : a.revision ≤ b.revision
  same : a.revision = b.revision → a = b
  epoch : a.epoch ≤ b.epoch
  grows : a.epoch = b.epoch → a.rows <+: b.rows

theorem Advances.refl (a : Database H) : Advances a a :=
  ⟨le_rfl, fun _ => rfl, le_rfl, fun _ => List.prefix_rfl⟩

theorem Advances.trans {e : Database H} (h : Advances a b) (h' : Advances b e) : Advances a e where
  revision := h.revision.trans h'.revision
  same := fun is => by
    have first := h.same (le_antisymm h.revision (is ▸ h'.revision))
    exact first.trans (h'.same (first ▸ is))
  epoch := h.epoch.trans h'.epoch
  grows := fun is => by
    have first := le_antisymm h.epoch (is ▸ h'.epoch)
    exact (h.grows first).trans (h'.grows (first ▸ is))

/-! ### A transaction -/

/-- What a transaction does to the database that it finds: the rows are kept and added to, or the
epoch is a new one. -/
structure Commits (x : Index H) (a b : Database H) : Prop where
  revision : b.revision = a.revision + 1
  rows : b.epoch = a.epoch ∧ a.rows <+: b.rows ∨ b.epoch = a.epoch + 1
  stored : Stored x b

theorem Commits.advances (h : Commits x a b) : Advances a b := by
  have revision := h.revision
  refine ⟨by omega, fun same => by omega, ?_, fun same => ?_⟩
  · rcases h.rows with ⟨epoch, -⟩ | epoch <;> omega
  · rcases h.rows with ⟨-, grows⟩ | epoch
    · exact grows
    · omega

theorem put_eq_ok {row : Row} (h : a.put row = .ok b) :
    b = { a with rows := a.rows ++ [row] } := by
  simp only [Database.put, bind_eq_ok, revertIf_eq_ok] at h
  obtain ⟨-, -, done⟩ := h
  cases done
  rfl

theorem puts_eq_ok {rows : List Row} (h : rows.foldlM Database.put a = .ok b) :
    b = { a with rows := a.rows ++ rows } := by
  induction rows generalizing a with
  | nil =>
    cases h
    rw [List.append_nil]
  | cons row rows ih =>
    rw [List.foldlM_cons, bind_eq_ok] at h
    obtain ⟨mid, first, rest⟩ := h
    rw [ih rest, put_eq_ok first, List.append_assoc, List.singleton_append]

theorem metadata_eq_ok {info : Option (Meta H)} (h : metadata a = .ok info) : info = a.info := by
  simp only [metadata, bind_eq_ok] at h
  obtain ⟨-, -, done⟩ := h
  cases done
  rfl

/-- The transaction succeeds on the revision that was read, and is what it says. -/
theorem replaceRows_eq_ok {saved : Saved H} {rewound epoch : ℕ} {p : Progress H}
    (h : replaceRows x saved rewound p epoch a = .ok b) :
    a.revision = saved.revision ∧
      b.rows = a.rows.filter (·.openedBlock < rewound) ++ p.discovered ∧
      b.info = some ⟨(a.info.map Meta.binding).getD x.entry, saved.revision + 1, p.checkpoints,
        epoch⟩ := by
  simp only [replaceRows, bind_eq_ok, revertIf_eq_ok, not_not] at h
  obtain ⟨info, read, -, revision, mid, added, done⟩ := h
  rw [metadata_eq_ok read] at revision
  rw [puts_eq_ok added] at done
  cases done
  exact ⟨revision, rfl, rfl⟩

/-- What is read is what is stored. -/
theorem savedState_eq_ok {saved : Saved H} (h : savedState x a = .ok saved) :
    saved = ⟨a.revision, a.epoch, a.checkpoints⟩ := by
  simp only [savedState, bind_eq_ok] at h
  obtain ⟨info, read, rest⟩ := h
  have is := metadata_eq_ok read
  cases info with
  | none =>
    cases rest
    rw [Database.revision, Database.epoch, Database.checkpoints, ← is]
    rfl
  | some m =>
    simp only [bind_eq_ok] at rest
    obtain ⟨-, -, -, -, -, -, done⟩ := rest
    cases done
    rw [Database.revision, Database.epoch, Database.checkpoints, ← is]
    rfl

end Turret.FacilityLoans
