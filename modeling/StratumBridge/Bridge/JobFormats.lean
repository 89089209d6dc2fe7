import StratumBridge.Foundation.Bytes
import StratumBridge.Bridge.Events

/-! # Job formats, byte by byte

The three job formats as the encoders build them: words read from the header bytes in
either byte order, and hexadecimal text of words or bytes. All three describe one header,
and they are the formats the bridge publishes.
-/

namespace StratumBridge

namespace JobFormat

/-- `u64::from_le_bytes`. -/
def fromLeBytes (bytes : List Byte) : BitVec 64 := BitVec.ofNat 64 (Bytes.toNatLE bytes)

/-- `u64::from_be_bytes`. -/
def fromBeBytes (bytes : List Byte) : BitVec 64 := BitVec.ofNat 64 (Bytes.toNatBE bytes)

/-- `u64::to_le_bytes`. -/
def toLeBytes (word : BitVec 64) : List Byte := Bytes.ofNatLE 8 word.toNat

/-- `u64::to_be_bytes`. -/
def toBeBytes (word : BitVec 64) : List Byte := Bytes.ofNatBE 8 word.toNat

/-- The first four words of the header data, as far as it reaches. -/
def readWords (fromBytes : List Byte → BitVec 64) (headerData : List Byte) :
    List (BitVec 64) :=
  (List.range 4).filterMap fun index =>
    let offset := index * 8
    if offset + 8 ≤ headerData.length then some (fromBytes ((headerData.drop offset).take 8))
    else none

def generateJobHeader (headerData : List Byte) : List (BitVec 64) :=
  readWords fromLeBytes headerData

/-- The text of the hash, then that of the timestamp, little-endian. -/
def generateIceriverJobParams (prePowHash : Hash) (timestamp : BitVec 64) : Text :=
  Bytes.hexEncode (hashBytes prePowHash) ++ Bytes.hexEncode (toLeBytes timestamp)

/-- Five big-endian words, the last one the timestamp with its bytes swapped. Formatting
panics when the header data does not hold four words. -/
def generateLargeJobParams (headerData : List Byte) (timestamp : BitVec 64) : Option Text := do
  let ids := readWords fromBeBytes headerData ++ [fromLeBytes (toBeBytes timestamp)]
  let first ← ids[0]?
  let second ← ids[1]?
  let third ← ids[2]?
  let fourth ← ids[3]?
  let fifth ← ids[4]?
  return [first, second, third, fourth, fifth].flatMap fun word => Text.hex16 word.toNat

/-- The header a job text stands for: 32 bytes of hash and a little-endian timestamp. -/
def decodeJobParams (text : Text) : Option (Hash × BitVec 64) := do
  let bytes ← Bytes.hexDecode text
  if bytes.length = 40 then
    return (BitVec.ofNat 256 (Bytes.toNatBE (bytes.take 32)), fromLeBytes (bytes.drop 32))
  else none

/-! ## Words and their bytes -/

@[simp] theorem length_toLeBytes (word : BitVec 64) : (toLeBytes word).length = 8 :=
  Bytes.length_ofNatLE 8 _

theorem ofNat_toNat (word : BitVec 64) : BitVec.ofNat 64 word.toNat = word := by
  rw [BitVec.ofNat_toNat, BitVec.setWidth_eq]

theorem fromLeBytes_toLeBytes (word : BitVec 64) : fromLeBytes (toLeBytes word) = word := by
  have small : word.toNat < 256 ^ 8 := word.isLt
  rw [fromLeBytes, toLeBytes, Bytes.toNatLE_ofNatLE, Nat.mod_eq_of_lt small, ofNat_toNat]

theorem fromBeBytes_toBeBytes (word : BitVec 64) : fromBeBytes (toBeBytes word) = word := by
  have small : word.toNat < 256 ^ 8 := word.isLt
  rw [fromBeBytes, toBeBytes, Bytes.toNatBE_ofNatBE, Nat.mod_eq_of_lt small, ofNat_toNat]

theorem toLeBytes_fromLeBytes {bytes : List Byte} (eight : bytes.length = 8) :
    toLeBytes (fromLeBytes bytes) = bytes := by
  have small : Bytes.toNatLE bytes < 256 ^ 8 := eight ▸ Bytes.toNatLE_lt bytes
  have word : (fromLeBytes bytes).toNat = Bytes.toNatLE bytes := Nat.mod_eq_of_lt small
  rw [toLeBytes, word, ← eight]
  exact Bytes.ofNatLE_toNatLE bytes

theorem toBeBytes_fromBeBytes {bytes : List Byte} (eight : bytes.length = 8) :
    toBeBytes (fromBeBytes bytes) = bytes := by
  have small : Bytes.toNatLE bytes.reverse < 256 ^ 8 := by
    rw [← eight, ← List.length_reverse]
    exact Bytes.toNatLE_lt bytes.reverse
  have word : (fromBeBytes bytes).toNat = Bytes.toNatBE bytes := Nat.mod_eq_of_lt small
  rw [toBeBytes, word, ← eight]
  exact Bytes.ofNatBE_toNatBE bytes

/-- A word read in one byte order and written in the other has its bytes swapped. -/
theorem toBeBytes_swapped (word : BitVec 64) :
    toBeBytes (fromLeBytes (toBeBytes word)) = toLeBytes word := by
  have reversed : fromLeBytes (toBeBytes word) = fromBeBytes (toLeBytes word) := rfl
  rw [reversed, toBeBytes_fromBeBytes (length_toLeBytes word)]

/-- A word formatted in sixteen digits is the text of its big-endian bytes. -/
theorem hex16_eq (word : BitVec 64) :
    Text.hex16 word.toNat = Bytes.hexEncode (toBeBytes word) := by
  have small : word.toNat < 16 ^ 16 := word.isLt
  rw [Text.hex16, Nat.mod_eq_of_lt word.isLt, Text.padZeros,
    Bytes.pad_toDigits (by decide) small, toBeBytes, Bytes.hexEncode_ofNatBE]

/-! ## The words of a hash -/

theorem readWords_of_length {fromBytes : List Byte → BitVec 64} {headerData : List Byte}
    (whole : headerData.length = 32) :
    readWords fromBytes headerData =
      [fromBytes (headerData.take 8), fromBytes ((headerData.drop 8).take 8),
        fromBytes ((headerData.drop 16).take 8), fromBytes ((headerData.drop 24).take 8)] := by
  have indices : List.range 4 = [0, 1, 2, 3] := rfl
  simp [readWords, indices, whole]

/-- The four words a 32-byte string is cut into make it up. -/
theorem cut_words {headerData : List Byte} (whole : headerData.length = 32) :
    headerData.take 8 ++ ((headerData.drop 8).take 8 ++
      ((headerData.drop 16).take 8 ++ (headerData.drop 24).take 8)) = headerData := by
  have last : (headerData.drop 24).take 8 = headerData.drop 24 :=
    List.take_of_length_le (by rw [List.length_drop]; omega)
  have third : (headerData.drop 16).take 8 ++ headerData.drop 24 = headerData.drop 16 := by
    have cut := List.take_append_drop 8 (headerData.drop 16)
    rwa [List.drop_drop] at cut
  have second : (headerData.drop 8).take 8 ++ headerData.drop 16 = headerData.drop 8 := by
    have cut := List.take_append_drop 8 (headerData.drop 8)
    rwa [List.drop_drop] at cut
  rw [last, third, second, List.take_append_drop]

theorem flatMap_readWords {fromBytes : List Byte → BitVec 64}
    {toBytes : BitVec 64 → List Byte}
    (inverse : ∀ bytes : List Byte, bytes.length = 8 → toBytes (fromBytes bytes) = bytes)
    {headerData : List Byte} (whole : headerData.length = 32) :
    (readWords fromBytes headerData).flatMap toBytes = headerData := by
  have sized : ∀ offset ≤ 24, ((headerData.drop offset).take 8).length = 8 := by
    intro offset within
    rw [List.length_take, List.length_drop]
    omega
  have front : (headerData.take 8).length = 8 := sized 0 (by omega)
  rw [readWords_of_length whole]
  simp only [List.flatMap_cons, List.flatMap_nil, List.append_nil, inverse _ front,
    inverse _ (sized 8 (by omega)), inverse _ (sized 16 (by omega)),
    inverse _ (sized 24 (by omega)),
    cut_words whole]

theorem length_hashBytes (hash : Hash) : (hashBytes hash).length = 32 := by
  simp only [hashBytes, List.length_map, List.length_range]

theorem hashBytes_eq (hash : Hash) : hashBytes hash = Bytes.ofNatBE 32 hash.toNat := by
  apply List.ext_getElem
  · rw [length_hashBytes, Bytes.length_ofNatBE]
  · intro index inHash inBytes
    rw [length_hashBytes] at inHash
    apply BitVec.eq_of_toNat_eq
    simp [hashBytes, Bytes.ofNatBE, Bytes.ofNatLE_eq_map, List.getElem_reverse]

theorem ofHash_eq (hash : Hash) : Text.ofHash hash = Bytes.hexEncode (hashBytes hash) := by
  have small : hash.toNat < 16 ^ 64 := hash.isLt
  rw [hashBytes_eq, Bytes.hexEncode_ofNatBE, Text.ofHash, Text.padZeros,
    Bytes.pad_toDigits (by decide) small]

/-- The bytes of a hash are those of its words. -/
theorem hashBytes_eq_flatMap (hash : Hash) :
    hashBytes hash = (hashWords hash).flatMap toBeBytes := by
  have word : ∀ low : Nat, toBeBytes ((hash >>> low).setWidth 64) =
      Bytes.ofNatBE 8 (hash.toNat / 2 ^ low) := by
    intro low
    rw [toBeBytes, BitVec.toNat_setWidth, BitVec.toNat_ushiftRight, Nat.shiftRight_eq_div_pow]
    exact Bytes.ofNatBE_mod 8 _
  have last : toBeBytes (hash.setWidth 64) = Bytes.ofNatBE 8 hash.toNat := by
    have whole := word 0
    rwa [BitVec.ushiftRight_zero, pow_zero, Nat.div_one] at whole
  rw [hashBytes_eq, Bytes.ofNatBE_add 24 8, Bytes.ofNatBE_add 16 8, Bytes.ofNatBE_add 8 8]
  simp only [hashWords, List.flatMap_cons, List.flatMap_nil, List.append_nil, word, last]
  rfl

theorem readWords_hashBytes {fromBytes : List Byte → BitVec 64} (hash : Hash) :
    readWords fromBytes (hashBytes hash) =
      (hashWords hash).map fun word => fromBytes (toBeBytes word) := by
  rw [readWords_of_length (length_hashBytes hash), hashBytes_eq_flatMap]
  rfl

/-- A byte shifted in below a word. -/
def shiftIn (word : BitVec 64) (byte : Byte) : BitVec 64 := word <<< 8 ||| byte.setWidth 64

theorem toNat_shiftIn (word : BitVec 64) (byte : Byte) :
    (shiftIn word byte).toNat = (word.toNat * 256 + byte.toNat) % 2 ^ 64 := by
  have small : byte.toNat < 2 ^ 8 := byte.isLt
  have high : word.toNat <<< 8 % 2 ^ 64 = (word.toNat % 2 ^ 56) <<< 8 := by
    simp only [Nat.shiftLeft_eq]
    omega
  have low : byte.toNat % 2 ^ 64 = byte.toNat := by omega
  rw [shiftIn, BitVec.toNat_or, BitVec.toNat_shiftLeft, BitVec.toNat_setWidth, high, low,
    ← Nat.shiftLeft_add_eq_or_of_lt small, Nat.shiftLeft_eq]
  omega

theorem toNat_shiftIns (bytes : List Byte) (word : BitVec 64) :
    (bytes.foldl shiftIn word).toNat =
      (word.toNat * 256 ^ bytes.length + Bytes.toNatBE bytes) % 2 ^ 64 := by
  induction bytes generalizing word with
  | nil =>
      rw [List.length_nil, pow_zero, Nat.mul_one]
      exact (Nat.mod_eq_of_lt word.isLt).symm
  | cons byte rest ih =>
      have value : Bytes.toNatBE (byte :: rest) =
          Bytes.toNatBE rest + 256 ^ rest.length * byte.toNat := by
        rw [Bytes.toNatBE, List.reverse_cons, Bytes.toNatLE_append, List.length_reverse]
        rfl
      rw [List.foldl_cons, ih, toNat_shiftIn, value, List.length_cons, pow_succ, Nat.add_mod,
        Nat.mod_mul_mod, ← Nat.add_mod]
      congr 1
      ring

/-- Swapping the bytes of a word by shifts. -/
theorem swapBytes_eq (word : BitVec 64) : swapBytes word = fromLeBytes (toBeBytes word) := by
  have bytes : swapBytes word = (toLeBytes word).foldl shiftIn 0 := by
    rw [toLeBytes, Bytes.ofNatLE_eq_map, List.foldl_map, swapBytes]
    congr 1
    funext swapped index
    have masked : (word >>> (8 * index)) &&& 0xFF =
        (BitVec.ofNat 8 (word.toNat >>> (8 * index))).setWidth 64 := by
      apply BitVec.eq_of_toNat_eq
      have low : word.toNat >>> (8 * index) &&& 255 = word.toNat >>> (8 * index) % 2 ^ 8 :=
        Nat.and_two_pow_sub_one_eq_mod _ 8
      have small : word.toNat >>> (8 * index) % 2 ^ 8 < 2 ^ 64 := by omega
      rw [BitVec.toNat_and, BitVec.toNat_ushiftRight, BitVec.toNat_setWidth, BitVec.toNat_ofNat,
        Nat.mod_eq_of_lt small]
      exact low
    rw [masked, shiftIn]
  apply BitVec.eq_of_toNat_eq
  rw [bytes, toNat_shiftIns]
  change (0 * _ + Bytes.toNatBE (toLeBytes word)) % 2 ^ 64 = _
  rw [Nat.zero_mul, Nat.zero_add]
  rfl

/-! ## The formats the bridge publishes -/

/-- The encoders produce the job data the bridge sends. -/
theorem published_legacy (prePowHash : Hash) :
    StratumBridge.generateJobHeader prePowHash =
      (generateJobHeader (hashBytes prePowHash)).map BitVec.toNat := by
  rw [generateJobHeader, readWords_hashBytes, List.map_map]
  apply List.map_congr_left
  intro word _
  rw [swapBytes_eq]
  rfl

theorem published_iceriver (prePowHash : Hash) (timestamp : Nat) :
    StratumBridge.generateIceriverJobParams prePowHash timestamp =
      generateIceriverJobParams prePowHash (BitVec.ofNat 64 timestamp) := by
  rw [StratumBridge.generateIceriverJobParams, swapBytes_eq, hex16_eq, toBeBytes_swapped,
    ofHash_eq]
  rfl

theorem published_large (prePowHash : Hash) (timestamp : Nat) :
    generateLargeJobParams (hashBytes prePowHash) (BitVec.ofNat 64 timestamp) =
      some (StratumBridge.generateLargeJobParams prePowHash timestamp) := by
  rw [generateLargeJobParams, readWords_hashBytes, StratumBridge.generateLargeJobParams,
    swapBytes_eq]
  simp only [fromBeBytes_toBeBytes, List.map_id']
  rfl

end JobFormat

/-! ## Agreement -/

open JobFormat

/-- **The job formats describe one header.** For every hash and timestamp the two text
formats agree, in 80 digits that read back as the hash and the timestamp, and the words of
the legacy format are the bytes of the hash. -/
theorem job_formats_agree (prePowHash : Hash) (timestamp : BitVec 64) :
    ∃ text, JobFormat.generateLargeJobParams (hashBytes prePowHash) timestamp = some text ∧
      JobFormat.generateIceriverJobParams prePowHash timestamp = text ∧ text.length = 80 ∧
      decodeJobParams text = some (prePowHash, timestamp) ∧
      (JobFormat.generateJobHeader (hashBytes prePowHash)).flatMap toLeBytes =
        hashBytes prePowHash := by
  have sized : (hashBytes prePowHash).length = 32 := length_hashBytes prePowHash
  have whole : JobFormat.generateIceriverJobParams prePowHash timestamp =
      Bytes.hexEncode (hashBytes prePowHash ++ toLeBytes timestamp) :=
    (Bytes.hexEncode_append _ _).symm
  have hash : BitVec.ofNat 256 (Bytes.toNatBE (hashBytes prePowHash)) = prePowHash := by
    have small : prePowHash.toNat < 256 ^ 32 := prePowHash.isLt
    rw [hashBytes_eq, Bytes.toNatBE_ofNatBE, Nat.mod_eq_of_lt small, BitVec.ofNat_toNat,
      BitVec.setWidth_eq]
  refine ⟨_, ?_, rfl, ?_, ?_, ?_⟩
  · have published := published_large prePowHash timestamp.toNat
    rw [ofNat_toNat] at published
    rw [published, StratumBridge.generateLargeJobParams, ofNat_toNat, swapBytes_eq,
      List.flatMap_append, List.flatMap_map]
    simp only [hex16_eq, List.flatMap_cons, List.flatMap_nil, List.append_nil, toBeBytes_swapped]
    rw [whole, Bytes.hexEncode_append, hashBytes_eq_flatMap]
    rfl
  · rw [whole, Bytes.length_hexEncode, List.length_append, sized, length_toLeBytes]
  · rw [whole, decodeJobParams, Bytes.hexDecode_hexEncode]
    simp only [Option.bind_eq_bind, Option.bind_some, List.length_append, sized,
      length_toLeBytes, ↓reduceIte, Option.pure_def]
    rw [← sized, List.take_left, List.drop_left, hash, fromLeBytes_toLeBytes]
  · exact flatMap_readWords (fun bytes eight => toLeBytes_fromLeBytes eight) sized

end StratumBridge
