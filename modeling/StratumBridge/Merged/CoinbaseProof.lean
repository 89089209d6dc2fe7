import StratumBridge.Chain.Sample
import StratumBridge.Foundation.MerkleTree
import StratumBridge.Merged.Parent

/-! # The proof of a parent's coinbase

The branch built for a parent is the leftmost path of the consensus Merkle tree of its
transactions, so it folds the coinbase into the root of the header. With the commitment of
the coinbase the assembled block therefore carries a proof that verifies.
-/

namespace StratumBridge

section Model

variable [Platform]

/-- The leaves of the consensus tree: the hashes of the transactions, padded to the next
power of two. -/
def merkleLeaves (txs : List Tx) : List (Option Hash) :=
  txs.map (fun tx => some (Platform.txHash tx)) ++
    List.replicate (2 ^ Nat.clog 2 txs.length - txs.length) none

/-- The consensus root of the transactions, if the tree has one. -/
def merkleRoot (txs : List Tx) : Option Hash :=
  MerkleTree.root Platform.merkleHash zeroHash (Nat.clog 2 txs.length) (merkleLeaves txs)

/-- Fold a leaf with the right siblings of its path. -/
def foldBranch (leaf : Hash) (branch : List Hash) : Hash := branch.foldl Platform.merkleHash leaf

theorem length_merkleLeaves (txs : List Tx) :
    (merkleLeaves txs).length = 2 ^ Nat.clog 2 txs.length := by
  have padded : txs.length ≤ 2 ^ Nat.clog 2 txs.length := Nat.le_pow_clog Nat.one_lt_two _
  rw [merkleLeaves, List.length_append, List.length_map, List.length_replicate]
  omega

/-! ## The branch -/

theorem foldLevel_eq (level : List (Option Hash)) :
    foldLevel level = MerkleTree.level Platform.merkleHash zeroHash level := by
  induction level using foldLevel.induct with
  | case1 => rfl
  | case2 left => rfl
  | case3 left right rest ih =>
      rw [foldLevel, MerkleTree.level, ih]
      rfl

/-- As many rounds as there are levels reach the root. -/
theorem leftmostSiblings_eq (depth : Nat) {rounds : Nat} {level : List (Option Hash)}
    (full : level.length = 2 ^ depth) (enough : depth ≤ rounds) :
    leftmostSiblings rounds level =
      MerkleTree.siblings Platform.merkleHash zeroHash depth level := by
  induction depth generalizing rounds level with
  | zero =>
      have single : ¬ 1 < level.length := by
        rw [full]
        decide
      cases rounds with
      | zero => rfl
      | succ rounds => exact if_neg single
  | succ depth ih =>
      have pairs : level.length = 2 * 2 ^ depth := full.trans Nat.pow_succ'
      have several : 1 < level.length := by
        have := Nat.two_pow_pos depth
        omega
      cases rounds with
      | zero => exact absurd enough (Nat.not_succ_le_zero depth)
      | succ rounds =>
          rw [leftmostSiblings, if_pos several, foldLevel_eq, MerkleTree.siblings,
            ih (MerkleTree.length_level _ level pairs) (Nat.le_of_succ_le_succ enough)]

theorem coinbaseMerkleBranch_eq {txs : List Tx} (nonempty : txs ≠ []) :
    coinbaseMerkleBranch txs = MerkleTree.siblings Platform.merkleHash zeroHash
      (Nat.clog 2 txs.length) (merkleLeaves txs) := by
  have positive : 0 < txs.length := List.length_pos_iff.mpr nonempty
  by_cases several : txs.length ≤ 1
  · have one : txs.length = 1 := le_antisymm several positive
    have noLevels : Nat.clog 2 txs.length = 0 := by
      rw [one]
      exact Nat.clog_one_right 2
    rw [coinbaseMerkleBranch, if_pos several, noLevels]
    rfl
  · have enough : Nat.clog 2 txs.length ≤ txs.length :=
      Nat.clog_le_of_le_pow Nat.lt_two_pow_self.le
    have built : coinbaseMerkleBranch txs = leftmostSiblings txs.length (merkleLeaves txs) := by
      simp only [coinbaseMerkleBranch, if_neg several, merkleLeaves, List.length_map]
    rw [built]
    exact leftmostSiblings_eq _ (length_merkleLeaves txs) enough

/-- The branch folds the first transaction into the root. -/
theorem foldBranch_coinbaseMerkleBranch (coinbase : Tx) (others : List Tx) :
    merkleRoot (coinbase :: others) =
      some (foldBranch (Platform.txHash coinbase) (coinbaseMerkleBranch (coinbase :: others))) := by
  rw [coinbaseMerkleBranch_eq (List.cons_ne_nil coinbase others)]
  exact MerkleTree.root_eq_foldl_siblings _ (length_merkleLeaves _) rfl

theorem length_coinbaseMerkleBranch {txs : List Tx} (nonempty : txs ≠ []) :
    (coinbaseMerkleBranch txs).length = Nat.clog 2 txs.length := by
  rw [coinbaseMerkleBranch_eq nonempty]
  exact MerkleTree.length_siblings _ _

/-! ## The proof -/

/-- `AuxPow::verify_binding` accepts a coinbase that carries the commitment and is included
under the Merkle root of the parent. -/
def AcceptsBinding (verifyBinding : AuxPow → Hash → Bool) : Prop :=
  ∀ aux hFc, Platform.committedHash aux.parentCoinbase = some hFc →
    foldBranch (Platform.txHash aux.parentCoinbase) aux.coinbaseMerkleBranch =
      aux.parentHeader.hashMerkleRoot →
    verifyBinding aux hFc = true

/-- **The coinbase proof.** With the consensus calculation of the root, the branch of every
nonempty list of transactions folds the hash of the first into the root of the list, and has
one sibling for each level. Every parent whose header carries the root and whose coinbase
carries the commitment is assembled into the ZKas block with a proof that verifies, and with
nothing else changed. -/
theorem coinbase_proof (consensus : ∀ txs : List Tx, txs ≠ [] →
      merkleRoot txs = some (Platform.calcHashMerkleRoot txs))
    {verifyBinding : AuxPow → Hash → Bool} (accepts : AcceptsBinding verifyBinding) :
    (∀ (coinbase : Tx) (others : List Tx),
      foldBranch (Platform.txHash coinbase) (coinbaseMerkleBranch (coinbase :: others)) =
          Platform.calcHashMerkleRoot (coinbase :: others) ∧
        (coinbaseMerkleBranch (coinbase :: others)).length =
          Nat.log 2 (2 ^ Nat.clog 2 (coinbase :: others).length)) ∧
    ∀ (parent fcBlock : Block) (hFc : Hash),
      parent.header.hashMerkleRoot = Platform.calcHashMerkleRoot parent.transactions →
      committedHFc parent = some hFc →
        ∃ aux, assembleAuxBlock parent fcBlock = { fcBlock with auxPow := some aux } ∧
          verifyBinding aux hFc = true := by
  have folds : ∀ (coinbase : Tx) (others : List Tx),
      foldBranch (Platform.txHash coinbase) (coinbaseMerkleBranch (coinbase :: others)) =
        Platform.calcHashMerkleRoot (coinbase :: others) := by
    intro coinbase others
    have folded := foldBranch_coinbaseMerkleBranch coinbase others
    exact Option.some.inj (folded.symm.trans (consensus _ (List.cons_ne_nil coinbase others)))
  constructor
  · intro coinbase others
    refine ⟨folds coinbase others, ?_⟩
    rw [Nat.log_pow Nat.one_lt_two]
    exact length_coinbaseMerkleBranch (List.cons_ne_nil coinbase others)
  · intro parent fcBlock hFc carriesRoot commits
    cases listed : parent.transactions with
    | nil =>
        rw [committedHFc, listed] at commits
        exact nomatch commits
    | cons coinbase others =>
        rw [committedHFc, listed] at commits
        rw [assembleAuxBlock, listed]
        refine ⟨_, rfl, accepts _ hFc commits ?_⟩
        rw [carriesRoot, listed]
        exact folds coinbase others

end Model

section Sample

/-- A platform with the consensus calculation of the root. -/
@[reducible] def Sample.consensusPlatform : Platform :=
  { Sample.platform with
    merkleHash := fun left right => 3 * left + 5 * right + 1
    calcHashMerkleRoot := fun txs =>
      (MerkleTree.root (fun left right : Hash => 3 * left + 5 * right + 1) zeroHash
        (Nat.clog 2 txs.length) (txs.map (fun tx => some (Sample.hashOfBytes tx)) ++
          List.replicate (2 ^ Nat.clog 2 txs.length - txs.length) none)).getD zeroHash }

attribute [local instance] Sample.consensusPlatform

/-- A parent of three transactions. -/
def Sample.threeTxParent : Block where
  header := { Header.fromPrecomputedHash 9 [] with
    hashMerkleRoot := Platform.calcHashMerkleRoot [Sample.commitment 7, [1], [2]] }
  auxPow := none
  transactions := [Sample.commitment 7, [1], [2]]

/-- The ZKas block the parent commits to. -/
def Sample.committedBlock : Block := ⟨Header.fromPrecomputedHash 7 [], none, []⟩

/-- The commitment and the inclusion of the coinbase, checked. -/
def Sample.verifyBinding (aux : AuxPow) (hFc : Hash) : Bool :=
  decide (Platform.committedHash aux.parentCoinbase = some hFc) &&
    decide (foldBranch (Platform.txHash aux.parentCoinbase) aux.coinbaseMerkleBranch =
      aux.parentHeader.hashMerkleRoot)

theorem coinbase_proof_sample :
    ∃ aux, assembleAuxBlock Sample.threeTxParent Sample.committedBlock =
        { Sample.committedBlock with auxPow := some aux } ∧
      Sample.verifyBinding aux 7 = true := by
  have consensus : ∀ txs : List Tx, txs ≠ [] →
      merkleRoot txs = some (Platform.calcHashMerkleRoot txs) := by
    intro txs nonempty
    obtain ⟨coinbase, others, rfl⟩ := List.exists_cons_of_ne_nil nonempty
    have rooted := foldBranch_coinbaseMerkleBranch coinbase others
    have calculated : Platform.calcHashMerkleRoot (coinbase :: others) =
        (merkleRoot (coinbase :: others)).getD zeroHash := rfl
    rw [calculated, rooted]
    rfl
  have accepts : AcceptsBinding Sample.verifyBinding := by
    intro aux hFc commits folds
    exact (Bool.and_eq_true _ _).mpr ⟨decide_eq_true commits, decide_eq_true folds⟩
  apply (coinbase_proof consensus accepts).2 Sample.threeTxParent Sample.committedBlock 7 rfl
  decide +kernel

end Sample

end StratumBridge
