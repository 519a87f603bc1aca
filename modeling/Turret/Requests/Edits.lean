import Turret.Library.Table
import Turret.Requests.Service

/-! What an accepted action does to the board, and what every action keeps. -/

namespace Turret.Requests

variable {made made' : List String} {e : Envelope} {board board' : Board} {row row' : Row}

/-- What an action does to the request that it names; `made` and `made'` are the identifiers before
and after it. -/
inductive Edit (made made' : List String) (board : Board) (row : Row) : Row → Prop
  | cancel : row.status ≠ .cancelled → Edit made made' board row { row with status := .cancelled }
  | bind {proposal : Proposal} {link : FundedOffer} : proposal ∈ row.proposals →
      (∀ old, proposal.fundedOffer = some old → old.id = link.id) →
      linkedElsewhere board row proposal link.id = false →
      Edit made made' board row { row with
        proposals := putProposal { proposal with fundedOffer := some link } row.proposals }
  | propose {proposal : Proposal} : row.status ≠ .cancelled → proposal.id ∉ made → proposal.id ∈ made' →
      proposal.fundedOffer = none → proposal.cancelled = false →
      Edit made made' board row { row with proposals := row.proposals ++ [proposal] }
  | accept {proposal : Proposal} : row.status ≠ .cancelled → proposal ∈ row.proposals →
      proposal.cancelled = false →
      Edit made made' board row { row with acceptedProposalId := some proposal.id, status := .agreed }
  | withdraw {proposal : Proposal} : row.status ≠ .cancelled → proposal ∈ row.proposals →
      Edit made made' board row (withdraw row proposal)

/-- What an accepted action does to the requests: a new one, or one of the next revision. -/
inductive Applied (made made' : List String) (e : Envelope) (board : Board) : List Row → Prop
  | publish {terms : Terms} {row : Row} : e.action = .publish terms → row.id ∉ made → row.id ∈ made' →
      row.revision = 1 → row.status = .opened → row.proposals = [] →
      Applied made made' e board (board.requests ++ [row])
  | change {row row' : Row} : row ∈ board.requests →
      e.action.target = some (row.id, row.revision) → Edit made made' board row row' →
      Applied made made' e board (put { row' with revision := row.revision + 1 } board.requests)

theorem withdraw_id (row : Row) (proposal : Proposal) :
    (withdraw row proposal).id = row.id ∧ (withdraw row proposal).market = row.market ∧
      (withdraw row proposal).revision = row.revision ∧
      (withdraw row proposal).proposals =
        putProposal { proposal with cancelled := true } row.proposals := by
  unfold withdraw
  dsimp only
  split
  · exact ⟨rfl, rfl, rfl, rfl⟩
  · exact ⟨rfl, rfl, rfl, rfl⟩

theorem Edit.same (h : Edit made made' board row row') :
    row'.id = row.id ∧ row'.market = row.market ∧ row'.revision = row.revision := by
  cases h with
  | @withdraw proposal _ _ =>
    obtain ⟨id, market, revision, -⟩ := withdraw_id row proposal
    exact ⟨id, market, revision⟩
  | _ => exact ⟨rfl, rfl, rfl⟩

/-- The requests are all that matters of the board. -/
theorem Edit.of_requests (h : Edit made made' board row row')
    (same : board'.requests = board.requests) : Edit made made' board' row row' := by
  cases h with
  | cancel active => exact .cancel active
  | bind there linked only =>
    refine .bind there linked ?_
    rw [linkedElsewhere, same]
    exact only
  | propose active fresh made unlinked live => exact .propose active fresh made unlinked live
  | accept active there live => exact .accept active there live
  | withdraw active there => exact .withdraw active there

theorem Applied.of_requests {requests : List Row} (h : Applied made made' e board requests)
    (same : board'.requests = board.requests) : Applied made made' e board' requests := by
  cases h with
  | publish action fresh made first opened none =>
    rw [← same]
    exact .publish action fresh made first opened none
  | change mem target edit =>
    rw [← same]
    exact .change (same ▸ mem) target (edit.of_requests same)

/-! ### What is kept -/

/-- Two linked proposals of one market with one offer are one proposal. -/
def LinkedOnce (requests : List Row) : Prop :=
  ∀ row ∈ requests, ∀ row' ∈ requests, ∀ p ∈ row.proposals, ∀ p' ∈ row'.proposals, ∀ link link',
    p.fundedOffer = some link → p'.fundedOffer = some link' → link.id = link'.id →
    row.market = row'.market → p.id = p'.id

def proposalIds (requests : List Row) : List String :=
  requests.flatMap fun row => row.proposals.map Proposal.id

structure Coherent (made : List String) (requests : List Row) : Prop where
  ids : (requests.map Row.id).Nodup
  proposals : (proposalIds requests).Nodup
  made : ∀ row ∈ requests, row.id ∈ made ∧ ∀ p ∈ row.proposals, p.id ∈ made
  links : LinkedOnce requests
  agreed : ∀ row ∈ requests, row.status = .agreed →
    ∃ p ∈ row.proposals, row.acceptedProposalId = some p.id ∧ p.cancelled = false

/-- What becomes of a proposal. -/
structure ProposalKept (p p' : Proposal) : Prop where
  id : p'.id = p.id
  cancelled : p.cancelled = true → p'.cancelled = true
  link : ∀ link, p.fundedOffer = some link → ∃ link', p'.fundedOffer = some link' ∧
    link'.id = link.id

/-- What becomes of a request. -/
structure RowKept (row row' : Row) : Prop where
  id : row'.id = row.id
  market : row'.market = row.market
  revision : row' = row ∨ row'.revision = row.revision + 1
  cancelled : row.status = .cancelled → row'.status = .cancelled
  proposals : ∀ p ∈ row.proposals, ∃ p' ∈ row'.proposals, ProposalKept p p'

theorem ProposalKept.refl (p : Proposal) : ProposalKept p p :=
  ⟨rfl, fun is => is, fun link is => ⟨link, is, rfl⟩⟩

theorem RowKept.refl (row : Row) : RowKept row row :=
  ⟨rfl, rfl, .inl rfl, fun is => is, fun p mem => ⟨p, mem, .refl p⟩⟩

theorem putProposal_split {p p' : Proposal} {proposals : List Proposal}
    (nodup : (proposals.map Proposal.id).Nodup) (mem : p ∈ proposals) (same : p'.id = p.id) :
    ∃ before after, proposals = before ++ p :: after ∧
      putProposal p' proposals = before ++ p' :: after :=
  Table.replace_split nodup mem same

theorem put_split {requests : List Row} (nodup : (requests.map Row.id).Nodup)
    (mem : row ∈ requests) (same : row'.id = row.id) :
    ∃ before after, requests = before ++ row :: after ∧
      put row' requests = before ++ row' :: after :=
  Table.replace_split nodup mem same

/-- One proposal of a request is replaced. -/
theorem kept_putProposal {p p' : Proposal} {proposals : List Proposal}
    (nodup : (proposals.map Proposal.id).Nodup) (mem : p ∈ proposals) (kept : ProposalKept p p')
    (q : Proposal) (at_q : q ∈ proposals) :
    ∃ q' ∈ putProposal p' proposals, ProposalKept q q' := by
  obtain ⟨before, after, rfl, changed⟩ := putProposal_split nodup mem kept.id
  rw [changed]
  rcases List.mem_append.mp at_q with early | late
  · exact ⟨q, List.mem_append_left _ early, .refl q⟩
  · rcases List.mem_cons.mp late with rfl | late
    · exact ⟨p', by simp, kept⟩
    · exact ⟨q, by simp [late], .refl q⟩

theorem ids_putProposal {p p' : Proposal} {proposals : List Proposal}
    (nodup : (proposals.map Proposal.id).Nodup) (mem : p ∈ proposals) (same : p'.id = p.id) :
    (putProposal p' proposals).map Proposal.id = proposals.map Proposal.id := by
  obtain ⟨before, after, rfl, changed⟩ := putProposal_split nodup mem same
  rw [changed, List.map_append, List.map_append, List.map_cons, List.map_cons, same]

theorem proposalKept_bind {p : Proposal} {link : FundedOffer}
    (same : ∀ old, p.fundedOffer = some old → old.id = link.id) :
    ProposalKept p { p with fundedOffer := some link } :=
  ⟨rfl, fun is => is, fun old is => ⟨link, rfl, (same old is).symm⟩⟩

theorem proposalKept_cancel (p : Proposal) : ProposalKept p { p with cancelled := true } :=
  ⟨rfl, fun _ => rfl, fun link is => ⟨link, is, rfl⟩⟩

/-- The request of the next revision. -/
theorem Edit.kept (h : Edit made made' board row row')
    (nodup : (row.proposals.map Proposal.id).Nodup) :
    RowKept row { row' with revision := row.revision + 1 } := by
  obtain ⟨id, market, -⟩ := h.same
  refine ⟨id, market, .inr rfl, fun was => ?_, fun p mem => ?_⟩
  · cases h with
    | cancel _ => rfl
    | bind _ _ _ => exact was
    | propose open_ _ _ _ _ => exact absurd was open_
    | accept open_ _ _ => exact absurd was open_
    | withdraw open_ _ => exact absurd was open_
  · cases h with
    | cancel _ => exact ⟨p, mem, .refl p⟩
    | bind there same _ => exact kept_putProposal nodup there (proposalKept_bind same) p mem
    | propose _ _ _ _ _ => exact ⟨p, List.mem_append_left _ mem, .refl p⟩
    | accept _ _ _ => exact ⟨p, mem, .refl p⟩
    | @withdraw proposal _ there =>
      dsimp only
      rw [(withdraw_id row proposal).2.2.2]
      exact kept_putProposal nodup there (proposalKept_cancel proposal) p mem

/-- The proposals are the same, or one of a new identifier is there too. -/
theorem Edit.proposals (h : Edit made made' board row row')
    (nodup : (row.proposals.map Proposal.id).Nodup) :
    row'.proposals.map Proposal.id = row.proposals.map Proposal.id ∨
      ∃ id, id ∉ made ∧ id ∈ made' ∧
        row'.proposals.map Proposal.id = row.proposals.map Proposal.id ++ [id] := by
  cases h with
  | cancel _ => exact .inl rfl
  | bind there _ _ => exact .inl (ids_putProposal nodup there rfl)
  | @propose proposal _ fresh there _ _ =>
    exact .inr ⟨proposal.id, fresh, there, by rw [List.map_append, List.map_singleton]⟩
  | accept _ _ _ => exact .inl rfl
  | @withdraw proposal _ there =>
    rw [(withdraw_id row proposal).2.2.2]
    exact .inl (ids_putProposal nodup there rfl)

/-- An agreed request still names a proposal that is not cancelled. -/
theorem Edit.agreed (h : Edit made made' board row row')
    (nodup : (row.proposals.map Proposal.id).Nodup)
    (agreed : row.status = .agreed →
      ∃ p ∈ row.proposals, row.acceptedProposalId = some p.id ∧ p.cancelled = false)
    (is : row'.status = .agreed) :
    ∃ p ∈ row'.proposals, row'.acceptedProposalId = some p.id ∧ p.cancelled = false := by
  cases h with
  | cancel _ => cases is
  | @bind proposal link there _ _ =>
    obtain ⟨p, mem, accepted, live⟩ := agreed is
    have same : ({ proposal with fundedOffer := some link } : Proposal).id = proposal.id := rfl
    obtain ⟨before, after, split, changed⟩ := putProposal_split nodup there same
    dsimp only
    rw [changed]
    rw [split] at mem
    rcases List.mem_append.mp mem with early | late
    · exact ⟨p, List.mem_append_left _ early, accepted, live⟩
    · rcases List.mem_cons.mp late with rfl | late
      · exact ⟨_, List.mem_append_right _ List.mem_cons_self, accepted, live⟩
      · exact ⟨p, by simp [late], accepted, live⟩
  | propose _ _ _ _ _ =>
    obtain ⟨p, mem, accepted, live⟩ := agreed is
    exact ⟨p, List.mem_append_left _ mem, accepted, live⟩
  | @accept proposal _ there live => exact ⟨proposal, there, rfl, live⟩
  | @withdraw proposal _ there =>
    unfold Requests.withdraw at is ⊢
    dsimp only at is ⊢
    split at is
    · cases is
    · rename_i other
      obtain ⟨p, mem, accepted, live⟩ := agreed is
      rw [if_neg other]
      refine ⟨p, List.mem_map.mpr ⟨p, mem, if_neg fun same => other ?_⟩, accepted, live⟩
      rw [accepted]
      exact congrArg some same

/-- The link is that of a proposal before the action. -/
def LinkedBefore (row : Row) (p' : Proposal) (link' : FundedOffer) : Prop :=
  ∃ p ∈ row.proposals, p.id = p'.id ∧ ∃ link, p.fundedOffer = some link ∧ link.id = link'.id

/-- No other of these proposals is linked to the offer. -/
def OnlyIn (proposals : List Proposal) (p' : Proposal) (link' : FundedOffer) : Prop :=
  ∀ q ∈ proposals, ∀ link, q.fundedOffer = some link → link.id = link'.id → q.id = p'.id

def OnlyOne (requests : List Row) (market : Address) (p' : Proposal) (link' : FundedOffer) : Prop :=
  ∀ other ∈ requests, other.market = market → OnlyIn other.proposals p' link'

/-- A link of the changed request was there, or is the only one of its offer. -/
theorem Edit.links (h : Edit made made' board row row') (there : row ∈ board.requests)
    (p' : Proposal) (mem : p' ∈ row'.proposals) (link' : FundedOffer)
    (is : p'.fundedOffer = some link') :
    LinkedBefore row p' link' ∨
      OnlyOne board.requests row.market p' link' ∧ OnlyIn row'.proposals p' link' := by
  have put : ∀ {p q : Proposal}, q ∈ putProposal p row.proposals → q = p ∨ q ∈ row.proposals := by
    intro p q at_p
    obtain ⟨r, at_r, eq⟩ := List.mem_map.mp at_p
    split at eq
    · exact .inl eq.symm
    · exact .inr (eq ▸ at_r)
  cases h with
  | cancel _ => exact .inl ⟨p', mem, rfl, link', is, rfl⟩
  | @bind proposal link at_proposal _ only =>
    rcases put mem with rfl | old
    · cases is
      have others : OnlyOne board.requests row.market proposal link' := by
        intro other at_other market q at_q l linked same
        by_contra differ
        refine absurd only (Bool.not_eq_false _ ▸ ?_)
        simp only [linkedElsewhere, List.any_eq_true, decide_eq_true_eq]
        exact ⟨other, at_other, q, at_q, by rw [linked, Option.map_some, same], market, differ⟩
      refine .inr ⟨others, fun q at_q l linked same => ?_⟩
      rcases put at_q with rfl | old
      · rfl
      · exact others row there rfl q old l linked same
    · exact .inl ⟨p', old, rfl, link', is, rfl⟩
  | propose _ _ _ unlinked _ =>
    rcases List.mem_append.mp mem with old | new
    · exact .inl ⟨p', old, rfl, link', is, rfl⟩
    · rw [List.mem_singleton.mp new, unlinked] at is
      cases is
  | accept _ _ _ => exact .inl ⟨p', mem, rfl, link', is, rfl⟩
  | @withdraw proposal _ at_proposal =>
    rw [(withdraw_id row proposal).2.2.2] at mem
    rcases put mem with rfl | old
    · exact .inl ⟨proposal, at_proposal, rfl, link', is, rfl⟩
    · exact .inl ⟨p', old, rfl, link', is, rfl⟩

/-! ### The board -/

variable {requests : List Row}

theorem Coherent.own (h : Coherent made requests) (mem : row ∈ requests) :
    (row.proposals.map Proposal.id).Nodup :=
  (List.nodup_flatMap.mp h.proposals).1 row mem

theorem Coherent.empty : Coherent made [] :=
  ⟨List.nodup_nil, List.nodup_nil, nofun, nofun, nofun⟩

theorem Applied.kept (h : Applied made made' e board requests)
    (coherent : Coherent made board.requests) :
    ∀ row ∈ board.requests, ∃ row' ∈ requests, RowKept row row' := by
  intro other at_other
  cases h with
  | publish _ _ _ _ _ _ => exact ⟨other, List.mem_append_left _ at_other, .refl other⟩
  | @change row row' mem _ edit =>
    have kept := edit.kept (coherent.own mem)
    obtain ⟨before, after, split, changed⟩ := put_split coherent.ids mem kept.id
    rw [changed]
    rw [split] at at_other
    rcases List.mem_append.mp at_other with early | late
    · exact ⟨other, List.mem_append_left _ early, .refl other⟩
    · rcases List.mem_cons.mp late with rfl | late
      · exact ⟨_, List.mem_append_right _ List.mem_cons_self, kept⟩
      · exact ⟨other, by simp [late], .refl other⟩

/-- The request that the action names is at the revision it was signed for, and then at the
next. -/
theorem Applied.target (h : Applied made made' e board requests)
    (coherent : Coherent made board.requests) {id : String} {revision : ℕ}
    (target : e.action.target = some (id, revision)) :
    ∃ row ∈ board.requests, row.id = id ∧ row.revision = revision ∧
      ∃ row' ∈ requests, RowKept row row' ∧ row'.revision = revision + 1 := by
  cases h with
  | publish action _ _ _ _ _ =>
    rw [action] at target
    cases target
  | @change row row' mem named edit =>
    have kept := edit.kept (coherent.own mem)
    obtain ⟨before, after, -, changed⟩ := put_split coherent.ids mem kept.id
    cases named.symm.trans target
    exact ⟨row, mem, rfl, rfl, _, by rw [changed]; simp, kept, rfl⟩

/-- The other requests stay as they are. -/
theorem Applied.others (h : Applied made made' e board requests) (mem : row ∈ board.requests)
    (other : e.action.target.map Prod.fst ≠ some row.id) : row ∈ requests := by
  cases h with
  | publish _ _ _ _ _ _ => exact List.mem_append_left _ mem
  | @change named row' _ target edit =>
    refine List.mem_map.mpr ⟨row, mem, if_neg fun same => other ?_⟩
    rw [target, Option.map_some, same]
    exact congrArg some edit.same.1.symm

/-- A new request comes from an action that names none, and is at the first revision. -/
theorem Applied.added (h : Applied made made' e board requests) :
    ∀ row' ∈ requests, (∃ row ∈ board.requests, row.id = row'.id) ∨
      e.action.target = none ∧ row'.revision = 1 := by
  intro other at_other
  cases h with
  | publish action _ _ first _ _ =>
    rcases List.mem_append.mp at_other with old | new
    · exact .inl ⟨other, old, rfl⟩
    · rw [List.mem_singleton.mp new, action]
      exact .inr ⟨rfl, first⟩
  | @change row row' mem _ edit =>
    obtain ⟨old, at_old, eq⟩ := List.mem_map.mp at_other
    refine .inl ⟨old, at_old, ?_⟩
    split at eq
    · rename_i same
      rw [← eq]
      exact same
    · rw [eq]

/-- A link after the action is one of before it, or the only one of the offer that was bound. -/
theorem link_cases {before after : List Row} (market : row'.market = row.market)
    (links : ∀ p' ∈ row'.proposals, ∀ link', p'.fundedOffer = some link' →
      LinkedBefore row p' link' ∨
        OnlyOne (before ++ row :: after) row.market p' link' ∧ OnlyIn row'.proposals p' link')
    {r : Row} (at_r : r ∈ before ++ row' :: after) {p : Proposal} (at_p : p ∈ r.proposals)
    {link : FundedOffer} (linked : p.fundedOffer = some link) :
    (∃ r₀ ∈ before ++ row :: after, r₀.market = r.market ∧ LinkedBefore r₀ p link) ∨
      r = row' ∧ OnlyOne (before ++ row :: after) row.market p link ∧
        OnlyIn row'.proposals p link := by
  have old : r ∈ before ++ row :: after →
      ∃ r₀ ∈ before ++ row :: after, r₀.market = r.market ∧ LinkedBefore r₀ p link :=
    fun there => ⟨r, there, rfl, p, at_p, rfl, link, linked, rfl⟩
  rcases List.mem_append.mp at_r with early | late
  · exact .inl (old (List.mem_append_left _ early))
  · rcases List.mem_cons.mp late with rfl | late
    · rcases links p at_p link linked with kept | only
      · exact .inl ⟨row, by simp, market.symm, kept⟩
      · exact .inr ⟨rfl, only⟩
    · exact .inl (old (by simp [late]))

theorem LinkedOnce.change {before after : List Row} (h : LinkedOnce (before ++ row :: after))
    (market : row'.market = row.market)
    (links : ∀ p' ∈ row'.proposals, ∀ link', p'.fundedOffer = some link' →
      LinkedBefore row p' link' ∨
        OnlyOne (before ++ row :: after) row.market p' link' ∧ OnlyIn row'.proposals p' link') :
    LinkedOnce (before ++ row' :: after) := by
  intro r at_r r' at_r' p at_p p' at_p' link link' linked linked' id markets
  rcases link_cases market links at_r at_p linked with
    ⟨r₀, mem, market₀, p₀, at_p₀, id₀, link₀, is, eq⟩ | ⟨rfl, only, own⟩
  · rcases link_cases market links at_r' at_p' linked' with
      ⟨r₁, mem₁, market₁, p₁, at_p₁, id₁, link₁, is₁, eq₁⟩ | ⟨rfl, only, -⟩
    · rw [← id₀, ← id₁]
      exact h r₀ mem r₁ mem₁ p₀ at_p₀ p₁ at_p₁ link₀ link₁ is is₁ (by rw [eq, eq₁, id])
        (by rw [market₀, market₁, markets])
    · rw [← id₀]
      exact only r₀ mem (by rw [market₀, markets, market]) p₀ at_p₀ link₀ is (by rw [eq, id])
  · rcases link_cases market links at_r' at_p' linked' with
      ⟨r₁, mem₁, market₁, p₁, at_p₁, id₁, link₁, is₁, eq₁⟩ | ⟨rfl, -, -⟩
    · rw [← id₁]
      exact (only r₁ mem₁ (by rw [market₁, ← markets, market]) p₁ at_p₁ link₁ is₁
        (by rw [eq₁, id])).symm
    · exact (own p' at_p' link' linked' id.symm).symm

/-- The identifiers of the proposals after one request has changed. -/
theorem nodup_change {before after : List Row}
    (h : (proposalIds (before ++ row :: after)).Nodup)
    (known : ∀ id ∈ proposalIds (before ++ row :: after), id ∈ made)
    (ids : row'.proposals.map Proposal.id = row.proposals.map Proposal.id ∨
      ∃ id, id ∉ made ∧ id ∈ made' ∧
        row'.proposals.map Proposal.id = row.proposals.map Proposal.id ++ [id]) :
    (proposalIds (before ++ row' :: after)).Nodup := by
  simp only [proposalIds, List.flatMap_append, List.flatMap_cons] at h known ⊢
  rcases ids with same | ⟨id, fresh, -, more⟩
  · rwa [same]
  · rw [more, List.append_assoc, List.singleton_append, ← List.append_assoc]
    refine List.nodup_middle.mpr (List.nodup_cons.mpr ⟨fun there => fresh (known id ?_), ?_⟩)
    · simpa [List.append_assoc] using there
    · simpa only [List.append_assoc] using h

theorem Applied.coherent (h : Applied made made' e board requests)
    (coherent : Coherent made board.requests) (more : ∀ id ∈ made, id ∈ made') :
    Coherent made' requests := by
  have widened : ∀ row ∈ board.requests, row.id ∈ made' ∧ ∀ p ∈ row.proposals, p.id ∈ made' :=
    fun row mem => ⟨more _ (coherent.made row mem).1,
      fun p at_p => more _ ((coherent.made row mem).2 p at_p)⟩
  cases h with
  | @publish terms row _ fresh there _ opened none =>
    refine ⟨?_, ?_, fun r at_r => ?_, ?_, fun r at_r is => ?_⟩
    · rw [List.map_append, List.map_singleton]
      refine List.nodup_append.mpr ⟨coherent.ids, List.nodup_singleton _, fun id mem other at_row => ?_⟩
      obtain ⟨old, at_old, rfl⟩ := List.mem_map.mp mem
      rw [List.mem_singleton.mp at_row]
      exact fun same => fresh (same ▸ (coherent.made old at_old).1)
    · rw [proposalIds, List.flatMap_append, List.flatMap_singleton, none, List.map_nil,
        List.append_nil]
      exact coherent.proposals
    · rcases List.mem_append.mp at_r with old | new
      · exact widened r old
      · rw [List.mem_singleton.mp new, none]
        exact ⟨there, nofun⟩
    · have within : ∀ r ∈ board.requests ++ [row], ∀ p ∈ r.proposals, r ∈ board.requests := by
        intro r at_r p at_p
        rcases List.mem_append.mp at_r with old | new
        · exact old
        · rw [List.mem_singleton.mp new, none] at at_p
          cases at_p
      intro r at_r r' at_r' p at_p p' at_p'
      exact coherent.links r (within r at_r p at_p) r' (within r' at_r' p' at_p') p at_p p' at_p'
    · rcases List.mem_append.mp at_r with old | new
      · exact coherent.agreed r old is
      · rw [List.mem_singleton.mp new, opened] at is
        cases is
  | @change row row' mem _ edit =>
    obtain ⟨id, market, -⟩ := edit.same
    have own := coherent.own mem
    have same : ({ row' with revision := row.revision + 1 } : Row).id = row.id := id
    obtain ⟨before, after, split, changed⟩ := put_split coherent.ids mem same
    have ids := coherent.ids
    have proposals := coherent.proposals
    have links := coherent.links
    rw [split] at ids proposals links
    rw [changed]
    refine ⟨?_, ?_, fun r at_r => ?_, links.change market fun p' at_p' link' is => ?_,
      fun r at_r is => ?_⟩
    · rw [List.map_append, List.map_cons] at ids ⊢
      rwa [id]
    · refine nodup_change proposals (fun id at_id => ?_) (edit.proposals own)
      rw [← split] at at_id
      obtain ⟨r, at_r, within⟩ := List.mem_flatMap.mp at_id
      obtain ⟨p, at_p, rfl⟩ := List.mem_map.mp within
      exact (coherent.made r at_r).2 p at_p
    · rcases List.mem_append.mp at_r with early | late
      · exact widened r (by rw [split]; exact List.mem_append_left _ early)
      · rcases List.mem_cons.mp late with rfl | late
        · refine ⟨id ▸ (widened row mem).1, fun p at_p => ?_⟩
          have old : ∀ id ∈ row.proposals.map Proposal.id, id ∈ made' := by
            intro id at_id
            obtain ⟨q, at_q, rfl⟩ := List.mem_map.mp at_id
            exact (widened row mem).2 q at_q
          have at_id : p.id ∈ row'.proposals.map Proposal.id := List.mem_map_of_mem at_p
          rcases edit.proposals own with same | ⟨fresh, -, there, same⟩
          · exact old _ (same ▸ at_id)
          · rw [same] at at_id
            rcases List.mem_append.mp at_id with earlier | last
            · exact old _ earlier
            · exact List.mem_singleton.mp last ▸ there
        · exact widened r (by rw [split]; simp [late])
    · rw [← split]
      exact edit.links mem p' at_p' link' is
    · rcases List.mem_append.mp at_r with early | late
      · exact coherent.agreed r (by rw [split]; exact List.mem_append_left _ early) is
      · rcases List.mem_cons.mp late with rfl | late
        · exact edit.agreed own (coherent.agreed row mem) is
        · exact coherent.agreed r (by rw [split]; simp [late]) is

end Turret.Requests
