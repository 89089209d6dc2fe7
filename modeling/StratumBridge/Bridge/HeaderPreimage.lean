import StratumBridge.Foundation.PrefixCode
import StratumBridge.Bridge.JobFormats
import StratumBridge.Bridge.Parent

/-! # The preimage of a job hash

The bytes behind a pre-proof-of-work hash are numbers and hashes of fixed lengths, with
counts before the parents and before the stripped work. The fields can therefore be read
off the front one by one, and headers with one preimage agree in every hashed field.
-/

namespace StratumBridge

variable [Platform]

/-- The parent levels of a header, each behind its count, behind the count of levels. -/
def levelBytes (levels : List (List Hash)) : List Byte :=
  leBytes levels.length 8 ++
    levels.flatMap fun level => leBytes level.length 8 ++ level.flatMap hashBytes

/-- The work in big-endian bytes without leading zeros. -/
def strippedWork (blueWork : Nat) : List Byte :=
  (leBytes blueWork 24).reverse.dropWhile fun byte => byte = 0

/-- The bytes `serialize_block_header` feeds to the hasher. -/
def headerPreimage (header : Header) : List Byte :=
  leBytes header.version 2 ++ (levelBytes header.parentsByLevel ++
    (hashBytes header.hashMerkleRoot ++ (hashBytes header.acceptedIdMerkleRoot ++
      (hashBytes header.utxoCommitment ++ (leBytes 0 8 ++ (leBytes header.bits 4 ++
        (leBytes 0 8 ++ (leBytes header.daaScore 8 ++ (leBytes header.blueScore 8 ++
          (leBytes (strippedWork header.blueWork).length 8 ++
            (strippedWork header.blueWork ++ hashBytes header.pruningPoint)))))))))))

theorem serializeBlockHeader_eq (block : Block) :
    serializeBlockHeader block = .ok (Platform.blockHasher (headerPreimage block.header)) := by
  unfold serializeBlockHeader headerPreimage levelBytes
  simp only [List.append_assoc]
  rfl

/-- The fields fit the machine types of the source. -/
structure Header.Fits (header : Header) : Prop where
  version : header.version < 2 ^ 16
  levels : header.parentsByLevel.length < 2 ^ 64
  level : ∀ level ∈ header.parentsByLevel, level.length < 2 ^ 64
  bits : header.bits < 2 ^ 32
  daaScore : header.daaScore < 2 ^ 64
  blueScore : header.blueScore < 2 ^ 64
  blueWork : header.blueWork < 2 ^ 192

/-- Two headers agree in every hashed field other than timestamp and nonce. -/
structure Header.Agrees (first second : Header) : Prop where
  version : first.version = second.version
  parentsByLevel : first.parentsByLevel = second.parentsByLevel
  hashMerkleRoot : first.hashMerkleRoot = second.hashMerkleRoot
  acceptedIdMerkleRoot : first.acceptedIdMerkleRoot = second.acceptedIdMerkleRoot
  utxoCommitment : first.utxoCommitment = second.utxoCommitment
  bits : first.bits = second.bits
  daaScore : first.daaScore = second.daaScore
  blueWork : first.blueWork = second.blueWork
  blueScore : first.blueScore = second.blueScore
  pruningPoint : first.pruningPoint = second.pruningPoint

/-! ## Fields -/

theorem leBytes_eq (value count : Nat) : leBytes value count = Bytes.ofNatLE count value :=
  (Bytes.ofNatLE_eq_map count value).symm

theorem prefixFree_leBytes (count : Nat) :
    PrefixCode.PrefixFree (· < 256 ^ count) (leBytes · count) := by
  apply PrefixCode.prefixFree_of_length count
  · intro value _
    rw [leBytes_eq, Bytes.length_ofNatLE]
  · intro first second small fits same
    rw [leBytes_eq, leBytes_eq] at same
    exact Bytes.eq_of_ofNatLE_eq small fits same

theorem prefixFree_hashBytes : PrefixCode.PrefixFree (fun _ => True) hashBytes := by
  apply PrefixCode.prefixFree_of_length 32
  · intro hash _
    exact JobFormat.length_hashBytes hash
  · intro first second _ _ same
    have small : first.toNat < 256 ^ 32 := first.isLt
    have fits : second.toNat < 256 ^ 32 := second.isLt
    rw [JobFormat.hashBytes_eq, JobFormat.hashBytes_eq] at same
    have read := congrArg Bytes.toNatBE same
    rw [Bytes.toNatBE_ofNatBE, Bytes.toNatBE_ofNatBE, Nat.mod_eq_of_lt small,
      Nat.mod_eq_of_lt fits] at read
    exact BitVec.eq_of_toNat_eq read

/-- One level of parents behind its count. -/
theorem prefixFree_level :
    PrefixCode.PrefixFree
      (fun level : List Hash => level.length < 256 ^ 8 ∧ ∀ parent ∈ level, True)
      fun level => leBytes level.length 8 ++ level.flatMap hashBytes :=
  (prefixFree_leBytes 8).counted prefixFree_hashBytes

theorem prefixFree_levelBytes :
    PrefixCode.PrefixFree
      (fun levels : List (List Hash) => levels.length < 256 ^ 8 ∧
        ∀ level ∈ levels, level.length < 256 ^ 8 ∧ ∀ parent ∈ level, True)
      levelBytes :=
  (prefixFree_leBytes 8).counted prefixFree_level

theorem length_strippedWork (blueWork : Nat) : (strippedWork blueWork).length < 256 ^ 8 := by
  have short : (strippedWork blueWork).length ≤ 24 := by
    calc (strippedWork blueWork).length ≤ (leBytes blueWork 24).reverse.length :=
          (List.dropWhile_sublist _).length_le
      _ = 24 := by rw [List.length_reverse, leBytes_eq, Bytes.length_ofNatLE]
  omega

/-- The stripped bytes still determine the work. -/
theorem toNatBE_strippedWork {blueWork : Nat} (small : blueWork < 2 ^ 192) :
    Bytes.toNatBE (strippedWork blueWork) = blueWork := by
  have fits : blueWork < 256 ^ 24 := by omega
  rw [strippedWork, Bytes.toNatBE_dropWhile, leBytes_eq]
  exact (Bytes.toNatBE_ofNatBE 24 blueWork).trans (Nat.mod_eq_of_lt fits)

/-! ## Reading a preimage -/

theorem Header.Agrees.preimage {first second : Header} (agrees : first.Agrees second) :
    headerPreimage first = headerPreimage second := by
  unfold headerPreimage
  rw [agrees.version, agrees.parentsByLevel, agrees.hashMerkleRoot, agrees.acceptedIdMerkleRoot,
    agrees.utxoCommitment, agrees.bits, agrees.daaScore, agrees.blueScore, agrees.blueWork,
    agrees.pruningPoint]

/-- The fields of a preimage are read off its front one after the other. -/
theorem agrees_of_preimage {first second : Header} (fits : first.Fits) (small : second.Fits)
    (same : headerPreimage first = headerPreimage second) : first.Agrees second := by
  have levelsFit : ∀ {header : Header}, header.Fits → header.parentsByLevel.length < 256 ^ 8 ∧
      ∀ level ∈ header.parentsByLevel, level.length < 256 ^ 8 ∧ ∀ parent ∈ level, True :=
    fun fits => ⟨fits.levels, fun level member => ⟨fits.level level member, fun _ _ => trivial⟩⟩
  unfold headerPreimage at same
  obtain ⟨version, same⟩ := prefixFree_leBytes 2 fits.version small.version same
  obtain ⟨parents, same⟩ := prefixFree_levelBytes (levelsFit fits) (levelsFit small) same
  obtain ⟨merkle, same⟩ := prefixFree_hashBytes trivial trivial same
  obtain ⟨accepted, same⟩ := prefixFree_hashBytes trivial trivial same
  obtain ⟨utxo, same⟩ := prefixFree_hashBytes trivial trivial same
  have same := List.append_cancel_left same
  obtain ⟨bits, same⟩ := prefixFree_leBytes 4 fits.bits small.bits same
  have same := List.append_cancel_left same
  obtain ⟨daaScore, same⟩ := prefixFree_leBytes 8 fits.daaScore small.daaScore same
  obtain ⟨blueScore, same⟩ := prefixFree_leBytes 8 fits.blueScore small.blueScore same
  obtain ⟨lengths, same⟩ := prefixFree_leBytes 8 (length_strippedWork first.blueWork)
    (length_strippedWork second.blueWork) same
  obtain ⟨work, same⟩ := List.append_inj same lengths
  have blueWork := congrArg Bytes.toNatBE work
  rw [toNatBE_strippedWork fits.blueWork, toNatBE_strippedWork small.blueWork] at blueWork
  exact ⟨version, parents, merkle, accepted, utxo, bits, daaScore, blueWork, blueScore,
    prefixFree_hashBytes.injOn trivial trivial same⟩

/-- **The preimage is injective.** What `serialize_block_header` hashes is `headerPreimage`;
the preimages of two headers are equal exactly when the headers agree in every hashed field,
and no preimage depends on timestamp and nonce. -/
theorem header_preimage_injective :
    (∀ block : Block, serializeBlockHeader block =
      .ok (Platform.blockHasher (headerPreimage block.header))) ∧
    (∀ first second : Header, first.Fits → second.Fits →
      (headerPreimage first = headerPreimage second ↔ first.Agrees second)) ∧
    ∀ (header : Header) (timestamp nonce : Nat),
      headerPreimage { header with timestamp, nonce } = headerPreimage header := by
  refine ⟨serializeBlockHeader_eq, ?_, ?_⟩
  · intro first second fits small
    exact ⟨agrees_of_preimage fits small, Header.Agrees.preimage⟩
  · intro header timestamp nonce
    rfl

end StratumBridge
