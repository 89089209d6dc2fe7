import Mathlib.Data.BitVec

/-! # Blocks, headers and the platform they come from

The bridge reads and rebuilds blocks of two chains, the ZKas chain it serves and
the Kaspa chain whose proof of work it borrows. Both use one block shape. What
the consensus crates compute over blocks (hashes, proof-of-work values, coinbase
commitments, addresses) is not code of the bridge: it is collected in `Platform`
and left arbitrary.
-/

namespace StratumBridge

/-- A 256-bit hash. -/
abbrev Hash := BitVec 256

/-- One byte of a serialized structure. -/
abbrev Byte := BitVec 8

/-- Text as the miner sent it, one character at a time. -/
abbrev Text := List Char

/-- The bytes of a hash, most significant first. -/
def hashBytes (hash : Hash) : List Byte :=
  (List.range 32).map fun index => (hash >>> (8 * (31 - index))).setWidth 8

/-- A block header. The stored `hash` is the one the node computed; changing the
nonce does not recompute it. -/
structure Header where
  hash : Hash
  version : Nat
  parentsByLevel : List (List Hash)
  hashMerkleRoot : Hash
  acceptedIdMerkleRoot : Hash
  utxoCommitment : Hash
  timestamp : Nat
  bits : Nat
  nonce : Nat
  daaScore : Nat
  blueWork : Nat
  blueScore : Nat
  pruningPoint : Hash
deriving DecidableEq

/-- What the bridge takes from the consensus, wallet and hashing crates. -/
class Platform where
  /-- Transactions; the bridge never looks inside one. -/
  Tx : Type
  decTx : DecidableEq Tx
  /-- Decoded payout addresses. -/
  Address : Type
  decAddress : DecidableEq Address
  /-- Rendering of an address as text. -/
  addressText : Address → Text
  /-- Decoding of an address from text. -/
  parseAddress : Text → Option Address
  /-- Coinbase extra data carrying a commitment between two byte strings. -/
  embedCommitment : List Byte → Hash → List Byte → List Byte
  /-- The payload-only coinbase transaction. -/
  coinbaseTx : List Byte → Tx
  /-- The hash a coinbase commits to, if it carries a commitment. -/
  committedHash : Tx → Option Hash
  txHash : Tx → Hash
  merkleHash : Hash → Hash → Hash
  calcHashMerkleRoot : List Tx → Hash
  /-- The hash of a header, recomputed from its fields. -/
  headerHash : Header → Hash
  /-- The proof-of-work value of a header at a nonce. -/
  powValue : Header → Nat → Nat
  /-- The node's own decoding of compact difficulty bits. -/
  compactTarget : Nat → Nat
  /-- The keyed hash behind pre-proof-of-work hashes. -/
  blockHasher : List Byte → Hash

attribute [reducible, instance] Platform.decTx Platform.decAddress

export Platform (Tx Address)

variable [Platform]

/-- Proof that a solved parent commits to a ZKas block. -/
structure AuxPow where
  parentHeader : Header
  parentCoinbase : Tx
  coinbaseMerkleBranch : List Hash
deriving DecidableEq

/-- A block of either chain. The auxiliary proof rides outside the header hash,
so it is kept beside the header. -/
structure Block where
  header : Header
  auxPow : Option AuxPow
  transactions : List Tx
deriving DecidableEq

/-- The same block with another header nonce. -/
def Block.withNonce (block : Block) (nonce : Nat) : Block :=
  { block with header := { block.header with nonce := nonce } }

@[simp] theorem Block.withNonce_transactions (block : Block) (nonce : Nat) :
    (block.withNonce nonce).transactions = block.transactions := rfl

@[simp] theorem Block.withNonce_bits (block : Block) (nonce : Nat) :
    (block.withNonce nonce).header.bits = block.header.bits := rfl

@[simp] theorem Block.withNonce_nonce (block : Block) (nonce : Nat) :
    (block.withNonce nonce).header.nonce = nonce := rfl

/-- The node's proof-of-work check of a header: whether the value at `nonce`
meets the target of the header's own bits, together with that value. -/
def checkPow (header : Header) (nonce : Nat) : Bool × Nat :=
  (decide (Platform.powValue header nonce ≤ Platform.compactTarget header.bits),
    Platform.powValue header nonce)

end StratumBridge
