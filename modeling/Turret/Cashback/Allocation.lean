import Turret.Library.Ledger
import Turret.Library.MerkleTree
import Turret.Library.Rounding

/-! `merkle.mjs` of the borrower-cashback service, beside the verification of
the distributor contract. `keccak256` is a parameter on the three shapes of
bytes that are hashed here; digests compare as their lower-case hex strings
do. Addresses are those that `getAddress` returns. -/

namespace Turret.Cashback

open Execution MerkleTree Uint256

/-- The bytes hashed: an ABI encoding of five words, one digest, or two digests. -/
inductive Preimage (Digest : Type)
  | encoded (chainId : ℕ) (distributor borrower engine : Address) (cumulative : ℕ)
  | digest (d : Digest)
  | pair (a b : Digest)

/-- The chain and the distributor contract of a campaign. -/
structure Distributor where
  chainId : ℕ
  address : Address
  chainId_lt : chainId < MODULUS

inductive AllocationError
  | duplicateRewardAccount
  | allocationExceedsEnrollmentCap
  | noConfirmedRewardsToPublish
  | integerOutOfRange
  deriving DecidableEq

/-- What `buildAllocation` reads of an account; the cap is a `uint256` amount. -/
structure RewardAccount where
  borrower : Address
  engine : Address
  confirmedRebate : ℕ
  cap : ℕ
  cap_lt : cap < MODULUS

structure Claim (Digest : Type) where
  borrower : Address
  engine : Address
  cumulative : ℕ
  leaf : Digest
  proof : List Digest

structure Allocation (Digest : Type) where
  root : Digest
  claims : List (Claim Digest)

variable {Digest : Type} [LinearOrder Digest] (keccak256 : Preimage Digest → Digest)

/-- The double hash of a claim, with the range check of the ABI encoder. -/
def allocationLeaf (d : Distributor) (borrower engine : Address) (cumulative : ℕ) :
    Except AllocationError Digest := do
  revertIf (MODULUS ≤ cumulative) .integerOutOfRange
  pure (keccak256 (.digest (keccak256
    (.encoded d.chainId d.address borrower engine cumulative))))

def parent (a b : Digest) : Digest :=
  keccak256 (if a < b then .pair a b else .pair b a)

def verifyAllocationClaim (d : Distributor) (root : Digest) (borrower engine : Address)
    (cumulative : ℕ) (proof : List Digest) : Except AllocationError Bool := do
  let leaf ← allocationLeaf keccak256 d borrower engine cumulative
  pure (decide (proof.foldl (parent keccak256) leaf = root))

/-- The `map` of `buildAllocation`: each account with its leaf, no pair seen twice. -/
def collectClaims (d : Distributor) (seen : List (Address × Address)) :
    List RewardAccount → Except AllocationError (List (Claim Digest))
  | [] => pure []
  | account :: rest => do
    revertIf ((account.borrower, account.engine) ∈ seen) .duplicateRewardAccount
    revertIf (account.cap < account.confirmedRebate) .allocationExceedsEnrollmentCap
    let leaf ← allocationLeaf keccak256 d account.borrower account.engine account.confirmedRebate
    let claims ← collectClaims d ((account.borrower, account.engine) :: seen) rest
    pure (⟨account.borrower, account.engine, account.confirmedRebate, leaf, []⟩ :: claims)

def buildAllocation (d : Distributor) (accounts : List RewardAccount) :
    Except AllocationError (Allocation Digest) := do
  let mapped ← collectClaims keccak256 d [] (accounts.filter fun a => 0 < a.confirmedRebate)
  let claims := mapped.mergeSort fun a b => a.leaf ≤ b.leaf
  revertIf (claims = []) .noConfirmedRewardsToPublish
  let levels := levels (parent keccak256) (claims.map Claim.leaf)
  let root ← orRevert (levels.getLast?.bind List.head?) .noConfirmedRewardsToPublish
  pure
    { root
      claims := claims.mapIdx fun i claim => { claim with proof := siblings levels.dropLast i } }

/-! ### The contract -/

/-- `TurretBorrowerCashback.leaf`, on words. -/
def leaf (d : Distributor) (borrower engine : Address) (cumulative : ℕ) : Digest :=
  keccak256 (.digest (keccak256 (.encoded d.chainId d.address borrower engine cumulative)))

/-- `_hashPair` of OpenZeppelin's `MerkleProof`. -/
def hashPair (a b : Digest) : Digest :=
  if a < b then keccak256 (.pair a b) else keccak256 (.pair b a)

def processProof : List Digest → Digest → Digest
  | [], computed => computed
  | sibling :: proof, computed => processProof proof (hashPair keccak256 computed sibling)

def verifyCalldata (proof : List Digest) (root leaf : Digest) : Bool :=
  decide (processProof keccak256 proof leaf = root)

end Turret.Cashback

/-! What a published root proves. Every claim of an allocation verifies, in the
service and in the contract, and with an ideal hash nothing else does; the
allocation does not depend on the order of the accounts. -/

namespace Turret.Cashback

open Execution MerkleTree Uint256

variable {Digest : Type} [LinearOrder Digest] {keccak256 : Preimage Digest → Digest}
  {d : Distributor} {accounts : List RewardAccount}

def RewardAccount.key (a : RewardAccount) : Address × Address := (a.borrower, a.engine)

/-- Distinct pairs, rebates within their caps, and something to publish. -/
structure Publishable (accounts : List RewardAccount) : Prop where
  distinct : (accounts.map RewardAccount.key).Nodup
  within : ∀ a ∈ accounts, a.confirmedRebate ≤ a.cap
  positive : ∃ a ∈ accounts, 0 < a.confirmedRebate

theorem Publishable.perm (h : Publishable accounts) {accounts' : List RewardAccount}
    (same : accounts.Perm accounts') : Publishable accounts' where
  distinct := (same.map _).nodup_iff.mp h.distinct
  within a mem := h.within a (same.mem_iff.mpr mem)
  positive := by
    obtain ⟨a, mem, pos⟩ := h.positive
    exact ⟨a, same.mem_iff.mp mem, pos⟩

/-! ### The hashes -/

omit [LinearOrder Digest] in
theorem allocationLeaf_eq (borrower engine : Address) {cumulative : ℕ}
    (h : cumulative < MODULUS) :
    allocationLeaf keccak256 d borrower engine cumulative =
      .ok (leaf keccak256 d borrower engine cumulative) := by
  simp only [allocationLeaf, bind_eq_ok, revertIf_eq_ok, pure_eq_ok, not_le]
  exact ⟨(), h, rfl⟩

theorem parent_comm (a b : Digest) : parent keccak256 a b = parent keccak256 b a := by
  unfold parent
  rcases lt_trichotomy a b with lt | rfl | gt
  · rw [if_pos lt, if_neg (not_lt.mpr lt.le)]
  · rfl
  · rw [if_neg (not_lt.mpr gt.le), if_pos gt]

theorem hashPair_eq (a b : Digest) : hashPair keccak256 a b = parent keccak256 a b := by
  unfold hashPair parent
  split_ifs <;> rfl

/-- The contract computes what the service computes. -/
theorem processProof_eq (proof : List Digest) (x : Digest) :
    processProof keccak256 proof x = climb (parent keccak256) x proof := by
  induction proof generalizing x with
  | nil => rfl
  | cons s proof ih =>
    rw [processProof, ih, hashPair_eq]
    rfl

theorem parent_injective (ideal : Function.Injective keccak256) :
    MerkleTree.Injective (parent keccak256) := by
  intro a b c d same
  have inputs := ideal same
  split_ifs at inputs <;> simp only [Preimage.pair.injEq] at inputs
  · exact .inl inputs
  · exact .inr inputs
  · exact .inr ⟨inputs.2, inputs.1⟩
  · exact .inl ⟨inputs.2, inputs.1⟩

/-- A leaf is no node: it hashes one digest, a node hashes two. -/
theorem leaf_ne_parent (ideal : Function.Injective keccak256) (borrower engine : Address)
    (cumulative : ℕ) (a b : Digest) :
    leaf keccak256 d borrower engine cumulative ≠ parent keccak256 a b := by
  intro same
  have inputs := ideal same
  split_ifs at inputs

omit [LinearOrder Digest] in
theorem leaf_injective (ideal : Function.Injective keccak256) {b e b' e' : Address} {n n' : ℕ}
    (same : leaf keccak256 d b e n = leaf keccak256 d b' e' n') : b = b' ∧ e = e' ∧ n = n' := by
  have inner := Preimage.digest.inj (ideal same)
  have encodings := Preimage.encoded.inj (ideal inner)
  exact encodings.2.2

/-! ### The claims -/

/-- An account with its leaf, before the proof is filled in. -/
def claimOf (keccak256 : Preimage Digest → Digest) (d : Distributor) (a : RewardAccount) :
    Claim Digest :=
  ⟨a.borrower, a.engine, a.confirmedRebate,
    leaf keccak256 d a.borrower a.engine a.confirmedRebate, []⟩

omit [LinearOrder Digest] in
theorem collectClaims_eq (seen : List (Address × Address))
    (distinct : (accounts.map RewardAccount.key).Nodup)
    (fresh : ∀ a ∈ accounts, a.key ∉ seen)
    (within : ∀ a ∈ accounts, a.confirmedRebate ≤ a.cap) :
    collectClaims keccak256 d seen accounts = .ok (accounts.map (claimOf keccak256 d)) := by
  induction accounts generalizing seen with
  | nil => rfl
  | cons a rest ih =>
    rw [List.map_cons, List.nodup_cons] at distinct
    have small := within a List.mem_cons_self
    have later : collectClaims keccak256 d (a.key :: seen) rest =
        .ok (rest.map (claimOf keccak256 d)) := by
      refine ih _ distinct.2 (fun b mem => ?_) fun b mem => within b (List.mem_cons_of_mem _ mem)
      rw [List.mem_cons, not_or]
      refine ⟨fun same => distinct.1 ?_, fresh b (List.mem_cons_of_mem _ mem)⟩
      exact same ▸ List.mem_map_of_mem mem
    simp only [collectClaims, bind_eq_ok, revertIf_eq_ok, pure_eq_ok]
    exact ⟨(), fresh a List.mem_cons_self, (), Nat.not_lt.mpr small, _,
      allocationLeaf_eq _ _ (small.trans_lt a.cap_lt), _, later, rfl⟩

def positiveAccounts (accounts : List RewardAccount) : List RewardAccount :=
  accounts.filter fun a => 0 < a.confirmedRebate

theorem mem_positiveAccounts {a : RewardAccount} :
    a ∈ positiveAccounts accounts ↔ a ∈ accounts ∧ 0 < a.confirmedRebate := by
  simp [positiveAccounts]

/-- The claims in the order of the leaves. -/
def sortedClaims (keccak256 : Preimage Digest → Digest) (d : Distributor)
    (accounts : List RewardAccount) : List (Claim Digest) :=
  ((positiveAccounts accounts).map (claimOf keccak256 d)).mergeSort fun a b => a.leaf ≤ b.leaf

theorem mem_sortedClaims {c : Claim Digest} : c ∈ sortedClaims keccak256 d accounts ↔
    ∃ a ∈ accounts, 0 < a.confirmedRebate ∧ claimOf keccak256 d a = c := by
  simp only [sortedClaims, List.mem_mergeSort, List.mem_map, mem_positiveAccounts, and_assoc]

def leaves (keccak256 : Preimage Digest → Digest) (d : Distributor)
    (accounts : List RewardAccount) : List Digest :=
  (sortedClaims keccak256 d accounts).map Claim.leaf

theorem mem_leaves {x : Digest} : x ∈ leaves keccak256 d accounts ↔
    ∃ a ∈ accounts, 0 < a.confirmedRebate ∧
      leaf keccak256 d a.borrower a.engine a.confirmedRebate = x := by
  simp only [leaves, List.mem_map, mem_sortedClaims]
  constructor
  · rintro ⟨_, ⟨a, mem, pos, rfl⟩, rfl⟩
    exact ⟨a, mem, pos, rfl⟩
  · rintro ⟨a, mem, pos, rfl⟩
    exact ⟨_, ⟨a, mem, pos, rfl⟩, rfl⟩

/-- The allocation that `buildAllocation` returns. -/
def allocationOf (keccak256 : Preimage Digest → Digest) (d : Distributor)
    (accounts : List RewardAccount) (root : Digest) : Allocation Digest where
  root := root
  claims := (sortedClaims keccak256 d accounts).mapIdx fun i claim =>
    { claim with
      proof := siblings (levels (parent keccak256) (leaves keccak256 d accounts)).dropLast i }

theorem exists_root (h : Publishable accounts) :
    ∃ r, root (parent keccak256) (leaves keccak256 d accounts) = some r := by
  obtain ⟨a, mem, pos⟩ := h.positive
  have member : leaf keccak256 d a.borrower a.engine a.confirmedRebate ∈
      leaves keccak256 d accounts := mem_leaves.mpr ⟨a, mem, pos, rfl⟩
  obtain ⟨i, place⟩ := List.mem_iff_getElem?.mp member
  exact ⟨_, climb_siblings parent_comm place⟩

theorem buildAllocation_eq (h : Publishable accounts) {r : Digest}
    (top : root (parent keccak256) (leaves keccak256 d accounts) = some r) :
    buildAllocation keccak256 d accounts = .ok (allocationOf keccak256 d accounts r) := by
  obtain ⟨a, mem, pos⟩ := h.positive
  have collected : collectClaims keccak256 d [] (positiveAccounts accounts) =
      .ok ((positiveAccounts accounts).map (claimOf keccak256 d)) := by
    refine collectClaims_eq [] ?_ (fun _ _ => List.not_mem_nil) fun b hb => ?_
    · exact h.distinct.sublist (List.filter_sublist.map _)
    · exact h.within b (mem_positiveAccounts.mp hb).1
  have some_claim : sortedClaims keccak256 d accounts ≠ [] :=
    List.ne_nil_of_mem (mem_sortedClaims.mpr ⟨a, mem, pos, rfl⟩)
  simp only [buildAllocation, bind_eq_ok, revertIf_eq_ok, orRevert_eq_ok, pure_eq_ok]
  exact ⟨_, collected, (), some_claim, r, top, rfl⟩

/-- Each claim is a positive account's, with the siblings of its leaf for a proof. -/
theorem mem_allocationOf {r : Digest} {c : Claim Digest}
    (h : c ∈ (allocationOf keccak256 d accounts r).claims) :
    (∃ a ∈ accounts, 0 < a.confirmedRebate ∧ c.borrower = a.borrower ∧ c.engine = a.engine ∧
      c.cumulative = a.confirmedRebate) ∧
    c.leaf = leaf keccak256 d c.borrower c.engine c.cumulative ∧
    ∃ i, (leaves keccak256 d accounts)[i]? = some c.leaf ∧
      c.proof = siblings (levels (parent keccak256) (leaves keccak256 d accounts)).dropLast i := by
  simp only [allocationOf, List.mem_mapIdx] at h
  obtain ⟨i, place, rfl⟩ := h
  have member := List.getElem_mem place
  obtain ⟨a, mem, pos, same⟩ := mem_sortedClaims.mp member
  rw [← same]
  refine ⟨⟨a, mem, pos, rfl, rfl, rfl⟩, rfl, i, ?_, rfl⟩
  rw [leaves, List.getElem?_map, List.getElem?_eq_getElem place, ← same]
  rfl

/-- With an ideal hash the order of the leaves determines the claims. -/
theorem sortedClaims_perm (ideal : Function.Injective keccak256)
    {accounts' : List RewardAccount} (same : accounts.Perm accounts') :
    sortedClaims keccak256 d accounts = sortedClaims keccak256 d accounts' := by
  have trans : ∀ a b c : Claim Digest, decide (a.leaf ≤ b.leaf) = true →
      decide (b.leaf ≤ c.leaf) = true → decide (a.leaf ≤ c.leaf) = true := by
    intro a b c hab hbc
    exact decide_eq_true ((of_decide_eq_true hab).trans (of_decide_eq_true hbc))
  have total : ∀ a b : Claim Digest,
      (decide (a.leaf ≤ b.leaf) || decide (b.leaf ≤ a.leaf)) = true := by
    intro a b
    simpa using le_total a.leaf b.leaf
  have sorted : ∀ claims : List (Claim Digest), List.Pairwise
      (fun a b => decide (a.leaf ≤ b.leaf) = true) (claims.mergeSort fun a b => a.leaf ≤ b.leaf) :=
    fun claims => List.pairwise_mergeSort trans total claims
  refine List.Perm.eq_of_pairwise (fun a b ha hb hab hba => ?_) (sorted _) (sorted _) ?_
  · obtain ⟨x, hx, -, rfl⟩ := mem_sortedClaims.mp ha
    obtain ⟨y, hy, -, rfl⟩ := mem_sortedClaims.mp hb
    have leaves_eq := le_antisymm (of_decide_eq_true hab) (of_decide_eq_true hba)
    obtain ⟨hb, he, hn⟩ := leaf_injective ideal leaves_eq
    simp only [claimOf, hb, he, hn]
  · have filtered : (positiveAccounts accounts).Perm (positiveAccounts accounts') := same.filter _
    exact ((List.mergeSort_perm _ _).trans (filtered.map _)).trans (List.mergeSort_perm _ _).symm

/-! ### Verification -/

theorem verifyAllocationClaim_ok {r : Digest} {borrower engine : Address} {cumulative : ℕ}
    {proof : List Digest} :
    verifyAllocationClaim keccak256 d r borrower engine cumulative proof = .ok true ↔
      cumulative < MODULUS ∧
        climb (parent keccak256) (leaf keccak256 d borrower engine cumulative) proof = r := by
  simp only [verifyAllocationClaim, allocationLeaf, bind_eq_ok, revertIf_eq_ok, pure_eq_ok, not_le,
    decide_eq_true_eq]
  constructor
  · rintro ⟨_, ⟨-, small, rfl⟩, climbed⟩
    exact ⟨small, climbed⟩
  · rintro ⟨small, climbed⟩
    exact ⟨_, ⟨(), small, rfl⟩, climbed⟩

theorem verifyCalldata_iff {r x : Digest} {proof : List Digest} :
    verifyCalldata keccak256 proof r x = true ↔ climb (parent keccak256) x proof = r := by
  rw [verifyCalldata, processProof_eq, decide_eq_true_eq]

theorem exists_proof_iff (ideal : Function.Injective keccak256) {r : Digest}
    (top : root (parent keccak256) (leaves keccak256 d accounts) = some r)
    (borrower engine : Address) (cumulative : ℕ) :
    (∃ proof, climb (parent keccak256) (leaf keccak256 d borrower engine cumulative) proof = r) ↔
      ∃ a ∈ accounts, 0 < a.confirmedRebate ∧ borrower = a.borrower ∧ engine = a.engine ∧
        cumulative = a.confirmedRebate := by
  constructor
  · rintro ⟨proof, climbed⟩
    have nodes : ∀ y ∈ leaves keccak256 d accounts, ∀ a b, y ≠ parent keccak256 a b := by
      intro y hy a b
      obtain ⟨x, -, -, rfl⟩ := mem_leaves.mp hy
      exact leaf_ne_parent ideal _ _ _ a b
    have mem := mem_of_climb (parent_injective ideal) nodes (leaf_ne_parent ideal _ _ _)
      (top.trans (congrArg some climbed.symm))
    obtain ⟨a, ha, pos, same⟩ := mem_leaves.mp mem
    obtain ⟨hb, he, hn⟩ := leaf_injective ideal same
    exact ⟨a, ha, pos, hb.symm, he.symm, hn.symm⟩
  · rintro ⟨a, ha, pos, rfl, rfl, rfl⟩
    have member : leaf keccak256 d a.borrower a.engine a.confirmedRebate ∈
        leaves keccak256 d accounts := mem_leaves.mpr ⟨a, ha, pos, rfl⟩
    obtain ⟨i, place⟩ := List.mem_iff_getElem?.mp member
    exact ⟨_, Option.some.inj ((climb_siblings parent_comm place).symm.trans top)⟩

/-- The tree of an allocation. Its claims are the positive accounts', each verifies in the service
and in the contract, and with an ideal hash no other claim has a proof of any length and the order
of the accounts does not matter. -/
theorem allocation_exact (keccak256 : Preimage Digest → Digest) (d : Distributor)
    (accounts : List RewardAccount) (h : Publishable accounts) :
    ∃ allocation, buildAllocation keccak256 d accounts = .ok allocation ∧
      (∀ a ∈ accounts, 0 < a.confirmedRebate → ∃ c ∈ allocation.claims,
        c.borrower = a.borrower ∧ c.engine = a.engine ∧ c.cumulative = a.confirmedRebate) ∧
      (∀ c ∈ allocation.claims,
        (∃ a ∈ accounts, 0 < a.confirmedRebate ∧ c.borrower = a.borrower ∧ c.engine = a.engine ∧
          c.cumulative = a.confirmedRebate) ∧
        verifyAllocationClaim keccak256 d allocation.root c.borrower c.engine c.cumulative
          c.proof = .ok true ∧
        verifyCalldata keccak256 c.proof allocation.root
          (leaf keccak256 d c.borrower c.engine c.cumulative) = true) ∧
      (Function.Injective keccak256 →
        (∀ borrower engine cumulative,
          ((∃ proof, verifyAllocationClaim keccak256 d allocation.root borrower engine cumulative
              proof = .ok true) ↔
            ∃ a ∈ accounts, 0 < a.confirmedRebate ∧ borrower = a.borrower ∧ engine = a.engine ∧
              cumulative = a.confirmedRebate) ∧
          ((∃ proof, verifyCalldata keccak256 proof allocation.root
              (leaf keccak256 d borrower engine cumulative) = true) ↔
            ∃ a ∈ accounts, 0 < a.confirmedRebate ∧ borrower = a.borrower ∧ engine = a.engine ∧
              cumulative = a.confirmedRebate)) ∧
        ∀ accounts', accounts.Perm accounts' →
          buildAllocation keccak256 d accounts' = .ok allocation) := by
  obtain ⟨r, top⟩ : ∃ r, root (parent keccak256) (leaves keccak256 d accounts) = some r :=
    exists_root h
  refine ⟨_, buildAllocation_eq h top, fun a mem pos => ?_, fun c mem => ?_, fun ideal =>
    ⟨fun borrower engine cumulative => ⟨?_, ?_⟩, fun accounts' same => ?_⟩⟩
  · have member : claimOf keccak256 d a ∈ sortedClaims keccak256 d accounts :=
      mem_sortedClaims.mpr ⟨a, mem, pos, rfl⟩
    obtain ⟨i, place, found⟩ := List.mem_iff_getElem.mp member
    refine ⟨_, List.mem_mapIdx.mpr ⟨i, place, rfl⟩, ?_⟩
    rw [found]
    exact ⟨rfl, rfl, rfl⟩
  · obtain ⟨owner, leaf_eq, i, place, proof_eq⟩ := mem_allocationOf mem
    obtain ⟨a, ha, pos, hb, he, hn⟩ := owner
    have climbed := Option.some.inj ((climb_siblings parent_comm place).symm.trans top)
    rw [leaf_eq, ← proof_eq] at climbed
    have small : c.cumulative < MODULUS := hn ▸ (h.within a ha).trans_lt a.cap_lt
    exact ⟨⟨a, ha, pos, hb, he, hn⟩, verifyAllocationClaim_ok.mpr ⟨small, climbed⟩,
      verifyCalldata_iff.mpr climbed⟩
  · simp only [verifyAllocationClaim_ok]
    rw [exists_and_left]
    refine ⟨fun found => (exists_proof_iff ideal top ..).mp found.2, fun found => ⟨?_, ?_⟩⟩
    · obtain ⟨a, ha, -, -, -, rfl⟩ := found
      exact (h.within a ha).trans_lt a.cap_lt
    · exact (exists_proof_iff ideal top ..).mpr found
  · simp only [verifyCalldata_iff]
    exact exists_proof_iff ideal top ..
  · have sorted := sortedClaims_perm (d := d) ideal same
    have tops : leaves keccak256 d accounts = leaves keccak256 d accounts' :=
      congrArg (List.map Claim.leaf) sorted
    rw [tops] at top
    rw [buildAllocation_eq (h.perm same) top, allocationOf, allocationOf, sorted, tops]

/-- A hash on numbers without collisions. -/
def pairingHash : Preimage ℕ → ℕ
  | .encoded chainId distributor borrower engine cumulative =>
    3 * Nat.pair chainId (Nat.pair (Fin.val distributor)
      (Nat.pair (Fin.val borrower) (Nat.pair (Fin.val engine) cumulative)))
  | .digest d => 3 * d + 1
  | .pair a b => 3 * Nat.pair a b + 2

theorem pairingHash_injective : Function.Injective pairingHash := by
  intro p q same
  cases p <;> cases q <;> simp only [pairingHash] at same
  case encoded.encoded =>
    have parts := Nat.eq_of_mul_eq_mul_left (by decide : 0 < 3) same
    simp only [Nat.pair_eq_pair] at parts
    obtain ⟨rfl, hd, hb, he, rfl⟩ := parts
    rw [Fin.ext hd, Fin.ext hb, Fin.ext he]
  case digest.digest =>
    have parts : _ = _ := Nat.eq_of_mul_eq_mul_left (by decide : 0 < 3) (Nat.add_right_cancel same)
    rw [parts]
  case pair.pair =>
    have parts := Nat.eq_of_mul_eq_mul_left (by decide : 0 < 3) (Nat.add_right_cancel same)
    obtain ⟨rfl, rfl⟩ := Nat.pair_eq_pair.mp parts
    rfl
  all_goals omega

def sampleDistributor : Distributor := ⟨4663, 9, by decide⟩

def sampleAccount (borrower : Address) (confirmedRebate : ℕ) : RewardAccount :=
  ⟨borrower, 7, confirmedRebate, 25000000, by decide⟩

/-- Three rewarded accounts, so that one leaf is promoted, and one without a reward. -/
def sampleAccounts : List RewardAccount :=
  [sampleAccount 1 500, sampleAccount 2 0, sampleAccount 3 25000000, sampleAccount 4 1]

theorem sample_allocation_exact : ∃ allocation,
    buildAllocation pairingHash sampleDistributor sampleAccounts = .ok allocation ∧
    (∃ c ∈ allocation.claims, c.borrower = 3 ∧ c.cumulative = 25000000 ∧
      verifyCalldata pairingHash c.proof allocation.root
        (leaf pairingHash sampleDistributor c.borrower c.engine c.cumulative) = true) ∧
    (¬∃ proof, verifyAllocationClaim pairingHash sampleDistributor allocation.root 2 7 1 proof =
      .ok true) ∧
    buildAllocation pairingHash sampleDistributor sampleAccounts.reverse = .ok allocation := by
  have publishable : Publishable sampleAccounts := by
    refine ⟨by decide, fun a mem => ?_, sampleAccount 1 500, by simp [sampleAccounts], by decide⟩
    simp only [sampleAccounts, List.mem_cons, List.not_mem_nil, or_false] at mem
    rcases mem with rfl | rfl | rfl | rfl <;> decide
  obtain ⟨allocation, built, every, verified, exact⟩ :=
    allocation_exact pairingHash sampleDistributor sampleAccounts publishable
  obtain ⟨only, ordered⟩ := exact pairingHash_injective
  obtain ⟨c, mem, hb, he, hn⟩ := every (sampleAccount 3 25000000) (by simp [sampleAccounts])
    (by decide)
  refine ⟨allocation, built, ⟨c, mem, hb, hn, (verified c mem).2.2⟩, fun found => ?_,
    ordered _ (List.reverse_perm _).symm⟩
  obtain ⟨a, ha, -, hb, -, hn⟩ := (only 2 7 1).1.mp found
  simp only [sampleAccounts, List.mem_cons, List.not_mem_nil, or_false] at ha
  rcases ha with rfl | rfl | rfl | rfl <;> revert hb hn <;> decide

end Turret.Cashback
