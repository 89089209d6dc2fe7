import Mathlib.Data.Nat.Log
import StratumBridge.Chain.Block

/-! # Merged-mining parents

In merged mode a miner hashes a *parent* block whose coinbase commits to the
hash `H_fc` of a ZKas block. This file builds the synthetic parent used when no
Kaspa template is available, reads the commitment of a parent back, and turns a
solved parent into the ZKas block that carries its proof.
-/

namespace StratumBridge

variable [Platform]

/-- `ZERO_HASH`. -/
def zeroHash : Hash := 0

/-- `Hash::from_u64_word`: the word in the first eight bytes, little endian. -/
def hashFromU64Word (word : Nat) : Hash := BitVec.ofNat 256 word

/-- One level of the transaction Merkle tree folded into the next. A pair whose
left leaf is absent is absent, an absent right leaf folds as `ZERO_HASH`. -/
def foldLevel : List (Option Hash) → List (Option Hash)
  | [] => []
  | [left] => [left.map fun hash => Platform.merkleHash hash zeroHash]
  | left :: right :: rest =>
      (left.map fun hash => Platform.merkleHash hash (right.getD zeroHash)) :: foldLevel rest

/-- The right siblings on the way from leaf 0 to the root. Every round halves
the level, so as many rounds as leaves are never used up. -/
def leftmostSiblings : Nat → List (Option Hash) → List Hash
  | 0, _ => []
  | rounds + 1, level =>
      if 1 < level.length then
        ((level.getD 1 none).getD zeroHash) :: leftmostSiblings rounds (foldLevel level)
      else []

/-- The coinbase Merkle inclusion branch of a parent with these transactions. -/
def coinbaseMerkleBranch (txs : List Tx) : List Hash :=
  if txs.length ≤ 1 then []
  else
    let leaves := txs.map fun tx => some (Platform.txHash tx)
    let padding := 2 ^ Nat.clog 2 leaves.length - leaves.length
    leftmostSiblings txs.length (leaves ++ List.replicate padding none)

/-- `Header::from_precomputed_hash`: every other field keeps its default. -/
def Header.fromPrecomputedHash (hash : Hash) (parents : List Hash) : Header where
  hash := hash
  version := 1
  parentsByLevel := [parents]
  hashMerkleRoot := zeroHash
  acceptedIdMerkleRoot := zeroHash
  utxoCommitment := zeroHash
  timestamp := 0
  bits := 0
  nonce := 0
  daaScore := 0
  blueWork := 0
  blueScore := 0
  pruningPoint := zeroHash

/-- `Header::finalize`: store the recomputed hash. -/
def Header.finalize (header : Header) : Header :=
  { header with hash := Platform.headerHash header }

/-- The parent an ASIC hashes when no Kaspa template is available: one coinbase
committing to the ZKas block, with the ZKas target. -/
def buildParentBlock (fcBlock : Block) : Block × Hash :=
  let hFc := fcBlock.header.hash
  let coinbase := Platform.coinbaseTx (Platform.embedCommitment [] hFc [])
  let parent :=
    { Header.fromPrecomputedHash zeroHash [hashFromU64Word 0xF12ECA54] with
      hashMerkleRoot := Platform.calcHashMerkleRoot [coinbase]
      -- The ASIC grinds against the ZKas target, not against a Kaspa one.
      bits := fcBlock.header.bits
      timestamp := fcBlock.header.timestamp }
  (⟨parent.finalize, none, [coinbase]⟩, hFc)

/-- The `H_fc` a parent commits to, read from its coinbase. -/
def committedHFc (parentBlock : Block) : Option Hash :=
  match parentBlock.transactions with
  | [] => none
  | coinbase :: _ => Platform.committedHash coinbase

/-- The nonce is not part of the commitment. -/
@[simp] theorem committedHFc_withNonce (parent : Block) (nonce : Nat) :
    committedHFc (parent.withNonce nonce) = committedHFc parent := rfl

/-- The ZKas block carrying the proof of a solved parent. A parent without a
coinbase carries no commitment and never gets here. -/
def assembleAuxBlock (parentBlock fcBlock : Block) : Block :=
  match parentBlock.transactions with
  | [] => fcBlock
  | coinbase :: _ =>
      { fcBlock with
        auxPow := some
          { parentHeader := parentBlock.header
            parentCoinbase := coinbase
            coinbaseMerkleBranch := coinbaseMerkleBranch parentBlock.transactions } }

/-- The proof rides outside the header: the assembled block keeps the ZKas one. -/
@[simp] theorem assembleAuxBlock_header (parentBlock fcBlock : Block) :
    (assembleAuxBlock parentBlock fcBlock).header = fcBlock.header := by
  unfold assembleAuxBlock
  split <;> rfl

/-- `POOL_FEE_MINUTES_PER_HOUR`. -/
def poolFeeMinutesPerHour : Nat := 1

/-- Whether a lane pays the pool in this minute of the hour. The lane number is
mixed so that the fee minutes of a fleet spread over the hour. -/
def isPoolFeeMinute (laneId minuteOfHour : Nat) : Bool :=
  let mixed : BitVec 64 := BitVec.ofNat 64 laneId + 0x9E3779B97F4A7C15
  let mixed := (mixed ^^^ (mixed >>> 30)) * 0xBF58476D1CE4E5B9
  let mixed := (mixed ^^^ (mixed >>> 27)) * 0x94D049BB133111EB
  let mixed := mixed ^^^ (mixed >>> 31)
  let start := mixed.toNat % 60
  (List.range poolFeeMinutesPerHour).any fun k => decide ((start + k) % 60 = minuteOfHour)

end StratumBridge
