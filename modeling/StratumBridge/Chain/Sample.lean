import StratumBridge.Chain.Block
import StratumBridge.Job.Difficulty

/-! # A sample platform

A concrete platform on which runs of the bridge can be evaluated. A coinbase is
its payload, an address is its text, and the proof-of-work value of a header is
the nonce itself, so a run chooses the value it needs.
-/

namespace StratumBridge.Sample

def hashOfBytes (bytes : List Byte) : Hash :=
  bytes.foldl (fun value byte => value <<< 8 ||| byte.setWidth 256) 0

/-- The marker before a commitment, `ZKMM`. -/
def marker : List Byte := [0x5A, 0x4B, 0x4D, 0x4D]

def committedHash (payload : List Byte) : Option Hash :=
  if payload.take 4 = marker then some (hashOfBytes ((payload.drop 4).take 32)) else none

/-- Payload-only transactions, textual addresses, nonce-valued proof of work. -/
@[reducible] def platform : Platform where
  Tx := List Byte
  decTx := inferInstance
  Address := Text
  decAddress := inferInstance
  addressText := id
  parseAddress := fun text => if text = [] then none else some text
  embedCommitment := fun before hash after => before ++ marker ++ hashBytes hash ++ after
  coinbaseTx := id
  committedHash := committedHash
  txHash := hashOfBytes
  merkleHash := fun left right => left + right
  calcHashMerkleRoot := fun txs => (txs.map hashOfBytes).sum
  headerHash := fun header => header.hash
  powValue := fun _ nonce => nonce
  compactTarget := calculateTarget
  blockHasher := fun bytes => BitVec.ofNat 256 bytes.length

/-- The address of an all-zero public key. -/
def minerAddress : Text :=
  "kaspa:".toList ++ List.replicate 53 'q' ++ "kx9awp4e".toList

/-- The sample platform with a decoder that knows one address. -/
@[reducible] def minerPlatform : Platform :=
  { platform with parseAddress := fun text => if text = minerAddress then some text else none }

attribute [local instance] platform

/-- A block with the given hash, bits and transactions. -/
def block (hash : Hash) (bits : Nat) (transactions : List (List Byte)) : Block where
  header :=
    { hash, version := 1, parentsByLevel := [], hashMerkleRoot := 0, acceptedIdMerkleRoot := 0
      utxoCommitment := 0, timestamp := 0, bits, nonce := 0, daaScore := 1, blueWork := 0
      blueScore := 1, pruningPoint := 0 }
  auxPow := none
  transactions

/-- The coinbase of a parent committing to a ZKas block. -/
def commitment (hFc : Hash) : List Byte := marker ++ hashBytes hFc

/-- One more byte of a hash. -/
theorem shift_step (hash : Hash) (low : Nat) :
    (hash >>> (low + 8)) <<< 8 ||| ((hash >>> low).setWidth 8).setWidth 256 = hash >>> low := by
  apply BitVec.eq_of_getLsbD_eq
  intro i small
  simp only [BitVec.getLsbD_or, BitVec.getLsbD_shiftLeft, BitVec.getLsbD_setWidth,
    BitVec.getLsbD_ushiftRight]
  by_cases first : i < 8
  · simp [first, small]
  · have regrouped : low + 8 + (i - 8) = low + i := by omega
    simp [first, small, regrouped]

theorem hashOfBytes_take (hash : Hash) (count : Nat) (within : count ≤ 32) :
    hashOfBytes ((List.range count).map fun index => (hash >>> (8 * (31 - index))).setWidth 8) =
      hash >>> (8 * (32 - count)) := by
  induction count with
  | zero =>
      change (0 : Hash) = hash >>> 256
      apply BitVec.eq_of_getLsbD_eq
      intro i small
      simp
  | succ count ih =>
      rw [List.range_succ, List.map_append, hashOfBytes, List.foldl_append]
      change hashOfBytes _ <<< 8 ||| _ = _
      rw [ih (by omega)]
      have above : 8 * (32 - count) = 8 * (31 - count) + 8 := by omega
      have here : 8 * (32 - (count + 1)) = 8 * (31 - count) := by omega
      rw [above, here]
      exact shift_step hash _

theorem hashOfBytes_hashBytes (hash : Hash) : hashOfBytes (hashBytes hash) = hash :=
  (hashOfBytes_take hash 32 (Nat.le_refl 32)).trans (BitVec.ushiftRight_zero hash)

/-- The commitment of a coinbase reads back. -/
theorem committedHash_embed (hash : Hash) :
    Platform.committedHash (Platform.coinbaseTx (Platform.embedCommitment [] hash [])) =
      some hash := by
  have whole : (hashBytes hash ++ []).take 32 = hashBytes hash := by
    rw [List.append_nil]
    exact List.take_of_length_le (by simp [hashBytes])
  change (if marker = marker then some (hashOfBytes ((hashBytes hash ++ []).take 32)) else none) =
    some hash
  rw [if_pos rfl, whole, hashOfBytes_hashBytes]

end StratumBridge.Sample
