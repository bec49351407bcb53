import Mathlib

namespace LoopLang.Binary64

open Float.Model (Format)
open Float.Model.UnpackedFloat (packComponents unpackExponent unpackMantissa unpackSign)

def flipped {spec : Format} (bits : BitVec spec.numBits) : BitVec spec.numBits :=
  packComponents spec (-.ofBitVec (unpackSign bits)) (unpackExponent bits) (unpackMantissa bits)

variable {spec : Format} {bits : BitVec spec.numBits}

theorem unpack_flipped (bits : BitVec spec.numBits) :
    Float.Model.UnpackedFloat.unpack spec (flipped bits) =
      (Float.Model.UnpackedFloat.unpack spec bits).neg := by
  unfold Float.Model.UnpackedFloat.unpack flipped
  simp only [Float.Model.UnpackedFloat.unpackExponent_packComponents,
    Float.Model.UnpackedFloat.unpackMantissa_packComponents,
    Float.Model.UnpackedFloat.unpackSign_packComponents,
    Float.Model.UnpackedFloat.Sign.ofBitVec_toBitVec]
  split_ifs <;> rfl

theorem unpack_pack_neg (wide : 2 ≤ spec.exponentBits) (bits : BitVec spec.numBits) :
    Float.Model.UnpackedFloat.unpack spec
        (Float.Model.UnpackedFloat.pack spec (Float.Model.UnpackedFloat.unpack spec bits).neg) =
      (Float.Model.UnpackedFloat.unpack spec bits).neg := by
  rw [← unpack_flipped, Float.Model.UnpackedFloat.pack_unpack _ wide]
  split_ifs with nan
  · rw [Float.Model.UnpackedFloat.unpack_packedNaN]
    simp only [Float.Model.UnpackedFloat.isNaNBits, decide_eq_true_eq] at nan
    simp only [Float.Model.UnpackedFloat.unpack, nan, if_true, if_false]
  · rfl

theorem neg_neg_unpacked (x : Float.Model.UnpackedFloat) : x.neg.neg = x := by
  have signs : ∀ s : Float.Model.UnpackedFloat.Sign, - -s = s := fun s => by cases s <;> rfl
  cases x with
  | notANumber => rfl
  | infinity s | zero s | finite s => simp only [Float.Model.UnpackedFloat.neg, signs]

theorem neg_neg (x : Float) : - -x = x := by
  obtain ⟨m⟩ := x
  have negated : (Float.Model.pack m.unpack.neg).unpack = m.unpack.neg :=
    @unpack_pack_neg .binary64 (by decide) m.toBits.toBitVec
  have same : Float.Model.pack (Float.Model.pack m.unpack.neg).unpack.neg = m := by
    rw [negated, neg_neg_unpacked]
    obtain ⟨bits, valid⟩ := m
    simp only [Float.Model.pack, Float.Model.unpack,
      Float.Model.UnpackedFloat.pack_unpack_of_valid valid]
  exact congrArg Float.ofModel same

end LoopLang.Binary64
