import Mathlib
import SceneConvert.Decimal.Binary32

/-!
# SceneConvert.Proofs.Decimal.Patterns

Floats and their patterns of bits.

* `Binary32.float_magnitude`: a float is determined by its sign and its magnitude.
* `Binary32.isNegative_float`, `magnitude_float`: up to infinity each sign occurs with each magnitude.
* `Binary32.isFinite_iff`: the finite floats are those with a magnitude below infinity.
* `Binary32.eq_of_infinity_lt`: there is one float above infinity.
-/

namespace SceneConvert.Binary32

open Float.Model

theorem toNat_unpackExponent (b : BitVec 32) :
    (@UnpackedFloat.unpackExponent Format.binary32 b).toNat = b.toNat / 2 ^ 23 % 2 ^ 8 := by
  unfold UnpackedFloat.unpackExponent
  simp [Nat.shiftRight_eq_div_pow]

theorem toNat_unpackMantissa (b : BitVec 32) :
    (@UnpackedFloat.unpackMantissa Format.binary32 b).toNat = b.toNat % 2 ^ 23 := by
  unfold UnpackedFloat.unpackMantissa
  simp

theorem unpackExponent_eq_neg_one (b : BitVec 32) :
    @UnpackedFloat.unpackExponent Format.binary32 b = -1 ↔ infinity ≤ b.toNat % 2 ^ 31 := by
  rw [← BitVec.toNat_inj, toNat_unpackExponent]
  have hones : (-1 : BitVec 8).toNat = 255 := by decide
  have hinfinity : infinity = 255 * 2 ^ 23 := by decide
  change _ = (-1 : BitVec 8).toNat ↔ _
  omega

/-- A pattern with a magnitude up to infinity is kept. Above it all patterns stand for the same thing. -/
theorem toBits_ofBits {b : UInt32} (hb : b.toNat % 2 ^ 31 ≤ infinity) : (Float32.ofBits b).toBits = b := by
  have hvalid : Format.binary32.Valid b.toBitVec := by
    refine ⟨fun hexponent hmantissa => absurd ?_ hmantissa⟩
    have hlow := (unpackExponent_eq_neg_one b.toBitVec).1 hexponent
    rw [← BitVec.toNat_inj, toNat_unpackMantissa]
    have hinfinity : infinity = 255 * 2 ^ 23 := by decide
    change b.toNat % 2 ^ 23 = 0
    change infinity ≤ b.toNat % 2 ^ 31 at hlow
    omega
  exact congrArg Float32.toBits (Float32.ofBits_toBits ⟨⟨b, hvalid⟩⟩)

theorem float_magnitude (v : Float32) : float (isNegative v) (magnitude v) = v := by
  have hbits : UInt32.ofNat (if isNegative v then Nat.pow 2 31 + magnitude v else magnitude v) = v.toBits := by
    have hsize := v.toBits.toNat_lt
    rw [← UInt32.toNat_inj, UInt32.toNat_ofNat']
    simp only [isNegative, magnitude, Nat.pow_eq, decide_eq_true_eq]
    split <;> omega
  rw [float, hbits, Float32.ofBits_toBits]

section

variable (negative : Bool) {m : Nat}

theorem toNat_toBits_float (hm : m ≤ infinity) :
    (float negative m).toBits.toNat = if negative then 2 ^ 31 + m else m := by
  have hinfinity : infinity = 255 * 2 ^ 23 := by decide
  have hsize : (if negative then Nat.pow 2 31 + m else m) < 2 ^ 32 := by
    rw [Nat.pow_eq]
    split <;> omega
  rw [float, toBits_ofBits] <;> rw [UInt32.toNat_ofNat_of_lt' hsize, Nat.pow_eq]
  split <;> omega

theorem isNegative_float (hm : m ≤ infinity) : isNegative (float negative m) = negative := by
  have hinfinity : infinity = 255 * 2 ^ 23 := by decide
  rw [isNegative, toNat_toBits_float negative hm, Nat.pow_eq]
  cases negative with
  | true => simp
  | false => simp only [Bool.false_eq_true, ↓reduceIte, decide_eq_false_iff_not]; omega

theorem magnitude_float (hm : m ≤ infinity) : magnitude (float negative m) = m := by
  have hinfinity : infinity = 255 * 2 ^ 23 := by decide
  rw [magnitude, toNat_toBits_float negative hm, Nat.pow_eq]
  split <;> omega

end

theorem isFinite_iff (v : Float32) : v.isFinite = true ↔ magnitude v < infinity := by
  have hexponent := unpackExponent_eq_neg_one v.toBits.toBitVec
  change (UnpackedFloat.unpack Format.binary32 v.toBits.toBitVec).isFinite = true ↔ _
  rw [magnitude, Nat.pow_eq, ← not_le]
  change _ ↔ ¬infinity ≤ v.toBits.toBitVec.toNat % 2 ^ 31
  rw [← hexponent]
  unfold UnpackedFloat.unpack
  dsimp only
  split
  · rename_i h
    split <;> simp_all [UnpackedFloat.isFinite]
  · rename_i h
    split
    · split <;> simp_all [UnpackedFloat.isFinite]
    · simp_all [UnpackedFloat.isFinite]

theorem eq_of_infinity_lt {v w : Float32} (hv : infinity < magnitude v) (hw : infinity < magnitude w) :
    v = w := by
  have bits {v : Float32} (h : infinity < magnitude v) :
      v.toBits.toBitVec = UnpackedFloat.packedNaN Format.binary32 := by
    rw [magnitude, Nat.pow_eq] at h
    obtain ⟨⟨b, hvalid⟩⟩ := v
    change infinity < b.toBitVec.toNat % 2 ^ 31 at h
    refine hvalid.eq_packedNaN ((unpackExponent_eq_neg_one _).2 h.le) fun hmantissa => ?_
    have hlow := toNat_unpackMantissa b.toBitVec
    have hexponent := congrArg BitVec.toNat ((unpackExponent_eq_neg_one b.toBitVec).2 h.le)
    rw [toNat_unpackExponent, show (-1 : BitVec 8).toNat = 255 by decide] at hexponent
    rw [hmantissa] at hlow
    have hinfinity : infinity = 255 * 2 ^ 23 := by decide
    change 0 = b.toBitVec.toNat % 2 ^ 23 at hlow
    omega
  have heq : v.toBits = w.toBits := UInt32.eq_of_toBitVec_eq ((bits hv).trans (bits hw).symm)
  rw [← Float32.ofBits_toBits v, heq, Float32.ofBits_toBits]

end SceneConvert.Binary32
