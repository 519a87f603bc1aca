import Turret.FacilityLoans.Commits

/-! What a listing returns: a page of the rows of one database, which is the
one that its update described. Pages that have one epoch, and of which each
continues at the cursor of the one before, have the rows of the first one. -/

namespace Turret.FacilityLoans

open Execution Branches Tasks Tasks.Program

variable {H : Type} {x : Index H} {i : Task} {s t u : World H} {a b : Database H}
  {account : Address} {cursor : ℕ}

/-! ### Rows -/

variable (x) in
/-- The rows of the account below the cursor, the newest first. -/
def held (account : Address) (cursor : ℕ) (db : Database H) : List Row :=
  (db.rows.filter fun row => Mine x account row ∧ row.id < cursor).reverse

/-- Of two rows, the one that is stored first has the lower number. -/
theorem Stored.ascending (h : Stored x a) : a.rows.Pairwise fun p q => p.id < q.id := by
  have ids : (a.rows.map Row.id).Pairwise (· < ·) := by
    rw [h.ids]
    exact List.pairwise_lt_range' 1
  exact List.pairwise_map.mp ids

theorem Stored.id_le (h : Stored x a) {row : Row} (mem : row ∈ a.rows) :
    1 ≤ row.id ∧ row.id ≤ a.rows.length := by
  have at_id : row.id ∈ a.rows.map Row.id := List.mem_map_of_mem mem
  rw [h.ids, List.mem_range'_1] at at_id
  omega

theorem Stored.descending (h : Stored x a) :
    (held x account cursor a).Pairwise fun p q => q.id < p.id :=
  List.pairwise_reverse.mpr (h.ascending.filter _)

instance : Std.Total (fun p q : Row => q.id ≤ p.id) := ⟨fun p q => le_total q.id p.id⟩

instance : IsTrans Row (fun p q => q.id ≤ p.id) := ⟨fun _ _ _ le le' => le'.trans le⟩

/-- The order by number is the order of insertion, reversed. -/
theorem Stored.newestFirst_eq (h : Stored x a) :
    newestFirst (a.rows.filter fun row => Mine x account row ∧ row.id < cursor) =
      held x account cursor a := by
  have sorted : ((newestFirst (a.rows.filter fun row => Mine x account row ∧ row.id < cursor))).Perm
      (held x account cursor a) :=
    (List.perm_insertionSort _ _).trans (List.reverse_perm _).symm
  refine List.Perm.eq_of_pairwise (fun p q at_p at_q le le' => ?_)
    (List.pairwise_insertionSort _ _) (h.descending.imp fun less => less.le) sorted
  have mem : p ∈ held x account cursor a := sorted.mem_iff.mp at_p
  have apart : ∀ p ∈ held x account cursor a, ∀ q ∈ held x account cursor a, p ≠ q → p.id ≠ q.id := by
    refine fun p at_p q at_q ne => List.Pairwise.forall_of_forall_of_flip
      (R := fun p q : Row => p ≠ q → p.id ≠ q.id) (fun _ _ ne => absurd rfl ne)
      (h.descending.imp fun less _ => less.ne') (h.descending.imp fun less _ => less.ne) at_p at_q ne
  by_contra ne
  exact apart p mem q at_q ne (le_antisymm le' le)

/-- The rows that were added later are above every cursor of a page. -/
theorem held_of_prefix (h : Stored x b) (grows : a.rows <+: b.rows)
    (within : cursor ≤ a.rows.length + 1) : held x account cursor b = held x account cursor a := by
  obtain ⟨more, rows⟩ := grows
  have later : ∀ row ∈ more, a.rows.length < row.id := by
    have ids := h.ids
    rw [← rows, List.map_append, List.length_append, ← List.range'_append_1] at ids
    have tail := List.append_inj_right' ids (by simp)
    intro row mem
    have at_id : row.id ∈ more.map Row.id := List.mem_map_of_mem mem
    rw [tail, List.mem_range'_1] at at_id
    omega
  have none : more.filter (fun row => Mine x account row ∧ row.id < cursor) = [] := by
    refine List.filter_eq_nil_iff.mpr fun row mem => ?_
    have above := later row mem
    simp only [decide_eq_true_eq, not_and]
    omega
  rw [held, held, ← rows, List.filter_append, none, List.append_nil]

/-- What follows a row, in the order of the pages. -/
theorem held_below {front : List Row} {last : Row} {rest : List Row} (h : Stored x a)
    (split : held x account cursor a = front ++ last :: rest) :
    held x account last.id a = rest := by
  have descending : (held x account cursor a).Pairwise fun p q => q.id < p.id := h.descending
  rw [split, List.pairwise_append] at descending
  obtain ⟨-, tail, before⟩ := descending
  have at_last : last.id < cursor := by
    have mem : last ∈ held x account cursor a := by simp [split]
    rw [held, List.mem_reverse, List.mem_filter, decide_eq_true_eq] at mem
    exact mem.2.2
  have narrower : held x account last.id a =
      (held x account cursor a).filter fun row => row.id < last.id := by
    rw [held, held, List.filter_reverse, List.filter_filter]
    refine congrArg List.reverse (List.filter_congr fun row _ => ?_)
    rw [← Bool.decide_and, decide_eq_decide]
    exact ⟨fun ⟨mine, below⟩ => ⟨below, mine, below.trans at_last⟩,
      fun ⟨below, mine, _⟩ => ⟨mine, below⟩⟩
  rw [narrower, split, List.filter_append, List.filter_cons_of_neg (by simp)]
  have none : front.filter (fun row => decide (row.id < last.id)) = [] := by
    refine List.filter_eq_nil_iff.mpr fun row mem => ?_
    have above := before row mem last List.mem_cons_self
    simp only [decide_eq_true_eq]
    omega
  have all : rest.filter (fun row => decide (row.id < last.id)) = rest :=
    List.filter_eq_self.mpr fun row mem => decide_eq_true ((List.pairwise_cons.mp tail).1 row mem)
  rw [none, all, List.nil_append]

/-! ### Pages -/

/-- A row of a page, and a stored one, by number and borrower. -/
def LoanRow.key (row : LoanRow) : ℕ × Address := (row.id, row.borrower)

def Row.key (row : Row) : ℕ × Address := (row.id, row.borrower)

variable (x) in
/-- The page has the newest rows of the account below the cursor, at most twenty, and names the last
of them where there are more. -/
structure Lists (account : Address) (cursor : ℕ) (db : Database H) (page : Page H) : Prop where
  epoch : db.epoch = page.historyEpoch
  rows : page.rows.map LoanRow.key = ((held x account cursor db).take 20).map Row.key
  nextCursor : page.nextCursor =
    if 20 < (held x account cursor db).length then page.rows.getLast?.map LoanRow.id else none
  branch : ∃ (d : List Block) (next : ℕ), Lawful x.entry.startBlock d ∧
    Names x.hash ⟨page.blockNumber, page.blockHash⟩ d ∧ page.indexedThrough = next - 1 ∧
    next ≤ page.blockNumber + 1 ∧ (page.complete = true ↔ next = page.blockNumber + 1) ∧
    db.rows = opened x.hash next d

variable (x) in
/-- The page is of a database that there has been, since this one. -/
def Served (account : Address) (cursor : ℕ) (since : Database H) (page : Page H) (s : World H) :
    Prop :=
  ∃ db, Advances since db ∧ Advances db s.db ∧ Stored x db ∧ Lists x account cursor db page

/-- The whole of the rows, or a page of them and those below its cursor. -/
theorem Lists.split {page : Page H} (h : Lists x account cursor a page) (stored : Stored x a) :
    page.nextCursor = none ∧ page.rows.map LoanRow.key = (held x account cursor a).map Row.key ∨
      ∃ last, page.nextCursor = some last ∧ last ≤ a.rows.length ∧
        (held x account cursor a).map Row.key =
          page.rows.map LoanRow.key ++ (held x account last a).map Row.key := by
  by_cases more : 20 < (held x account cursor a).length
  · have next := h.nextCursor
    rw [if_pos more] at next
    have at_19 : (held x account cursor a).take 20 = (held x account cursor a).take 19 ++
        [(held x account cursor a).get ⟨19, by omega⟩] := by
      rw [List.take_add_one, List.getElem?_eq_getElem (by omega)]
      rfl
    generalize is : (held x account cursor a).get ⟨19, by omega⟩ = last at at_19
    have split : held x account cursor a =
        (held x account cursor a).take 19 ++ last :: (held x account cursor a).drop 20 := by
      rw [← List.singleton_append, ← List.append_assoc, ← at_19, List.take_append_drop]
    have key : page.rows.getLast?.map LoanRow.key = some last.key := by
      rw [← List.getLast?_map, h.rows, at_19, List.map_append, List.map_singleton,
        List.getLast?_append, List.getLast?_singleton]
      rfl
    have cursor_eq : page.nextCursor = some last.id := by
      obtain ⟨row, at_row, same⟩ := Option.map_eq_some_iff.mp key
      rw [next, at_row]
      exact congrArg (fun k : ℕ × Address => some k.1) same
    have mem : last ∈ a.rows := by
      have at_held : last ∈ held x account cursor a := by
        rw [split]
        simp
      exact List.mem_of_mem_filter (List.mem_reverse.mp at_held)
    refine .inr ⟨last.id, cursor_eq, (stored.id_le mem).2, ?_⟩
    rw [held_below stored split, h.rows, ← List.map_append, List.take_append_drop]
  · have next := h.nextCursor
    rw [if_neg more] at next
    refine .inl ⟨next, ?_⟩
    rw [h.rows, List.take_of_length_le (by omega)]

/-! ### A request -/

section Rules

variable {β : Type} {post : β → World H → Prop}

theorem safe_ask {q : Query} {next : q.Value H → Prog H β} (inv : Inv x s)
    (h : ∀ t v, Inv x t → Advances s.db t.db → answers x t q (.ok v) →
      SafeTo x i post (next v) t) :
    SafeTo x i post (call q >>= next) s := by
  refine Tasks.safe_call (fun _ _ _ _ _ _ => trivial) fun t v since _ given => ?_
  exact h t v (since.inv inv) since.advances given

theorem safe_read {next : World H → Prog H β} (inv : Inv x s)
    (h : ∀ t, Inv x t → Advances s.db t.db → SafeTo x i post (next t) t) :
    SafeTo x i post (look >>= next) s :=
  fun t since _ => ⟨.idle, h t (since.inv inv) since.advances⟩

theorem safe_awaitSettled {n : ℕ} (inv : Inv x s) :
    SafeTo x i (fun r t => Reported x r t.db) (awaitSettled n) s := by
  intro t since _ a given
  cases a with
  | error e => exact fun _ _ => trivial
  | ok r =>
    have settled : t.settled n = some (.ok r) := given
    exact fun u later => ((since.inv inv).settled n r settled).advances later.advances

variable [DecidableEq H]

/-- An update is settled by the request that began it. -/
theorem safe_runUpdate (injective : Function.Injective x.hash) {n : ℕ} (here : Here x i n s) :
    SafeTo x i (fun r t => Reported x r t.db) (runUpdate x i n) s := by
  have begun := here.inv.begun n here.running
  have kept := (safe_perform injective here).keeps (fun t => n < t.count ∧ t.owner n = i)
    (fun t u now since => ⟨now.1.trans_le since.count, (since.owner n now.1).trans now.2⟩)
    (fun t u now _ (act : Act x i t u) =>
      ⟨now.1.trans_le act.count, (act.owner n now.1).trans now.2⟩) ⟨begun, here.own⟩
  refine Safe.orElse (Safe.mono (Safe.bind (kept.mono (fun r t told => ?_)
    fun _ _ given => given)) (fun _ _ told => told) fun e t own => ?_)
  · refine safe_modify fun u since _ => ?_
    have reported := told.1.advances since.advances
    refine ⟨.settle n _ ((since.owner n told.2.1).trans told.2.2) ?_, safe_pure fun v later => ?_⟩
    · intro snapshot is
      cases is
      exact reported
    · exact reported.advances later.advances
  · refine safe_modify fun u since _ => ⟨.settle n _ ((since.owner n own.2.1).trans own.2.2) ?_,
      fun _ _ => trivial⟩
    exact fun snapshot is => by cases is

/-- An update of one's own, or the one that is pending. -/
theorem safe_sync (injective : Function.Injective x.hash) {next : Snapshot H → Prog H β}
    (inv : Inv x s)
    (h : ∀ t r, Inv x t → Advances s.db t.db → Reported x r t.db → SafeTo x i post (next r) t) :
    SafeTo x i post (sync x i >>= next) s := by
  have reported : SafeTo x i (fun r t => Reported x r t.db) (sync x i) s := by
    refine safe_ask inv fun t (active : ℕ) inv_t _ _ => ?_
    refine Safe.bind (safe_attempt (fun _ => .idle) (fun u entered v since ran alive => ?_)
      fun _ _ _ _ _ _ => trivial)
    have inv_u := since.inv inv_t
    unfold enter at ran
    split at ran
    · cases ran
      exact ⟨.idle, fun w later => safe_awaitSettled (later.inv inv_u)⟩
    · split at ran
      · cases ran
      · cases ran
        have act : Act x i u (u.begin i) := .begin
        have here : Here x i u.count (u.begin i) :=
          ⟨alive, List.mem_cons_self, Function.update_self .., act.inv inv_u⟩
        exact ⟨act, fun w later => (safe_runUpdate injective here).stable later⟩
  refine Safe.bind (Safe.mono (reported.keeps (fun t => Inv x t ∧ Advances s.db t.db)
    (fun t u now since => ⟨since.inv now.1, now.2.trans since.advances⟩)
    (fun t u now _ (act : Act x i t u) => ⟨act.inv now.1, now.2.trans act.advances⟩)
    ⟨inv, .refl _⟩) (fun r t told => ?_) fun _ _ _ => trivial)
  exact h t r told.2.1 told.2.2 told.1

omit [DecidableEq H] in
/-- The loans are read for the rows, in their order. -/
theorem safe_readRows {block : ℕ} {rows : List Row} {next : List LoanRow → Prog H β} (inv : Inv x s)
    (h : ∀ t (loans : List LoanRow), Inv x t → Advances s.db t.db →
      loans.map LoanRow.key = rows.map Row.key → SafeTo x i post (next loans) t) :
    SafeTo x i post (readRows block rows >>= next) s := by
  refine Safe.bind ?_
  induction rows generalizing s next with
  | nil => exact safe_pure fun t since => (h s [] inv (.refl _) rfl).stable since
  | cons row rest ih =>
    refine safe_ask inv fun t (loan : Loan) inv_t since _ => safe_throwIf fun verified => ?_
    have same : loan.borrower = row.borrower := by
      by_contra other
      exact verified (.inl other)
    have tail : SafeTo x i (fun loans u => SafeTo x i post (next (⟨row.id, loan.borrower,
        loan.principal, loan.interest, loan.dueAt, loan.status⟩ :: loans)) u)
        (readRows block rest) t := by
      refine ih inv_t fun u loans inv_u since' keys => h u _ inv_u (since.trans since') ?_
      rw [List.map_cons, List.map_cons, keys]
      exact congrArg (fun b => (row.id, b) :: rest.map Row.key) same
    exact Safe.bind (tail.mono (fun loans u safe => safe_pure fun v later => safe.stable later)
      fun _ _ given => given)

/-- The page is of the database that the update described: its revision is unchanged. -/
theorem safe_list (injective : Function.Injective x.hash) {before : Option ℕ} (inv : Inv x s) :
    SafeTo x i (Served x account (before.getD (2 ^ 256 - 1)) s.db) (list x i account before) s := by
  refine safe_ask inv fun t₁ (listings : ℕ) inv₁ since₁ _ => safe_throwIf fun _ => ?_
  refine safe_throwIf fun _ => safe_throwIf fun _ => ?_
  refine safe_sync injective inv₁ fun t₂ r inv₂ since₂ reported => ?_
  refine safe_read inv₂ fun t₃ inv₃ since₃ => ?_
  refine safe_readRows inv₃ fun t₄ rows inv₄ since₄ keys => ?_
  refine Safe.bind (safe_ask inv₄ fun t₅ (observed : Header H) inv₅ since₅ _ => ?_)
  refine safe_throwIf fun _ => safe_pure fun t₆ later => ?_
  refine safe_read (later.inv inv₅) fun t₇ inv₇ since₇ => safe_lift fun info read => ?_
  refine safe_ask inv₇ fun t₈ (time : ℕ) inv₈ since₈ _ => safe_throwIf fun checked => ?_
  refine safe_ask inv₈ fun t₉ (time' : ℕ) inv₉ since₉ _ => safe_pure fun t since => ?_
  simp only [not_or, not_not] at checked
  have current : t₇.db.revision = r.revision := by
    rw [Database.revision, ← metadata_eq_ok read, checked.2.1]
    rfl
  obtain ⟨old, describes, first⟩ := reported
  have later₇ : Advances t₃.db t₇.db := ((since₄.trans since₅).trans later.advances).trans since₇
  have unchanged : old = t₃.db := by
    have low := (first.trans since₃).revision
    have high := later₇.revision
    have revision := describes.revision
    exact (first.trans since₃).same (by omega)
  have branch := describes.branch
  have epoch := describes.epoch
  rw [unchanged] at branch epoch
  have candidates : candidatesOf x account (before.getD (2 ^ 256 - 1)) t₃.db =
      (held x account (before.getD (2 ^ 256 - 1)) t₃.db).take 21 := by
    rw [candidatesOf, inv₃.stored.newestFirst_eq]
  rw [candidates, List.take_take] at keys
  refine ⟨t₃.db, ((since₁.trans since₂).trans since₃),
    ((later₇.trans since₈).trans since₉).trans since.advances, inv₃.stored, epoch, keys, ?_, branch⟩
  dsimp only
  rw [candidates, List.length_take]
  exact if_congr (by omega) rfl rfl

end Rules

end Turret.FacilityLoans
