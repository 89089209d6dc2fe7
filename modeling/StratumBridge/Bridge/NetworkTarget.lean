import StratumBridge.Chain.CompactBits
import StratumBridge.Chain.Sample
import StratumBridge.Bridge.SettlementProtocol

/-! # The network target in plain mode

Without merged mining a submission is held against the bridge's own decoding of
the header bits, while the node holds the block against its decoding.
-/

namespace StratumBridge

open Interaction

/-- The node decodes every word of compact bits as `nodeTarget` does, and its
proof-of-work values are 256-bit numbers. -/
structure NodeChecks [Platform] : Prop where
  decodes (bits : BitVec 32) :
    Platform.compactTarget bits.toNat = CompactBits.nodeTarget bits.toNat
  bounded (header : Header) (nonce : Nat) : Platform.powValue header nonce < 2 ^ 256

/-- Plain mode has no merged target. -/
theorem mergedFcTarget_plain [Platform] {settings : Settings}
    (plain : settings.mergedMining = false) (block : Block) :
    mergedFcTarget settings block = pure none := by
  simp only [mergedFcTarget, plain, Bool.false_eq_true, ↓reduceIte]

/-- The comparison of a submission without a merged target. -/
theorem meetsNetwork_plain_iff [Platform] (block : Block) (nonce : Nat) :
    (Evaluation.mk block nonce none).MeetsNetwork ↔
      Platform.powValue block.header nonce ≤ calculateTarget block.header.bits :=
  Iff.rfl

/-- A platform whose every proof-of-work value is the given one. -/
@[reducible] def constantPlatform (value : Nat) : Platform :=
  { Sample.platform with
    compactTarget := CompactBits.nodeTarget
    powValue := fun _ _ => value }

theorem constantPlatform_checks {value : Nat} (bounded : value < 2 ^ 256) :
    @NodeChecks (constantPlatform value) :=
  @NodeChecks.mk (constantPlatform value) (fun _ => rfl) (fun _ _ => bounded)

/-- Over every platform with the node's decoding, `meets_network_target` of a plain
submission and the node's proof-of-work check agree. -/
def AgreesInPlainMode (bits : Nat) : Prop :=
  ∀ [Platform], NodeChecks → ∀ (block : Block) (nonce : Nat), block.header.bits = bits →
    ((Evaluation.mk block nonce none).MeetsNetwork ↔ (checkPow block.header nonce).1 = true)

theorem agreesInPlainMode_iff (bits : BitVec 32) :
    AgreesInPlainMode bits.toNat ↔ CompactBits.Representable bits.toNat := by
  constructor
  · intro agrees
    by_contra loses
    obtain ⟨value, bounded, above, below⟩ := CompactBits.exists_between loses
    let header : Header := @Block.header Sample.platform (Sample.block 0 bits.toNat [])
    have same := @agrees (constantPlatform value) (constantPlatform_checks bounded)
      (@Block.mk (constantPlatform value) header none []) 0 rfl
    have passes : value ≤ CompactBits.nodeTarget bits.toNat :=
      of_decide_eq_true (same.mp below)
    omega
  · intro fits _ node block nonce known
    have decoded : calculateTarget block.header.bits = Platform.compactTarget block.header.bits := by
      rw [known, node.decodes]
      exact CompactBits.calculateTarget_eq_nodeTarget fits
    rw [meetsNetwork_plain_iff, decoded]
    exact decide_eq_true_iff.symm

/-- The bridge's target of compact bits is the node's exactly when the sign bit is clear
and the shift stays within 256 bits; so does the comparison of a plain submission agree
with the node's check. -/
theorem calculate_target_agrees_iff (bits : BitVec 32) :
    (calculateTarget bits.toNat = CompactBits.nodeTarget bits.toNat ↔
      CompactBits.Representable bits.toNat) ∧
    (AgreesInPlainMode bits.toNat ↔ CompactBits.Representable bits.toNat) :=
  ⟨CompactBits.agrees_iff bits.toNat, agreesInPlainMode_iff bits⟩

/-- A mantissa with its sign bit set is zero to the node. -/
theorem calculate_target_disagrees :
    ¬ ∀ bits : BitVec 32, calculateTarget bits.toNat = CompactBits.nodeTarget bits.toNat := by
  intro agrees
  have same := agrees 0x04800000
  exact absurd same (by decide)

end StratumBridge
