import CppArchitecture.Core.Numerals
import Mathlib.Data.Nat.Bitwise

/-!
# The bytes of a machine integer

A number of a whole number of bytes is made of them again, in whichever order they come.
-/

namespace Core

/-- The bytes of a number, the highest first. -/
def bytes {w : ℕ} (v : BitVec w) : List UInt8 :=
  (List.range (w / 8)).map fun i => ⟨(v >>> ((w / 8 - i - 1) * 8)).setWidth 8⟩

/-- `v <<= CHAR_BIT; v |= b;` -/
def appendByte {w : ℕ} (v : BitVec w) (b : UInt8) : BitVec w := v <<< 8 ||| b.toBitVec.setWidth w

/-- The number with the given bytes, the highest first. -/
def ofBytes (w : ℕ) (bs : List UInt8) : BitVec w := bs.foldl appendByte 0

/-- The number with the bytes in the opposite order. -/
def byteSwap {w : ℕ} (v : BitVec w) : BitVec w := ofBytes w (bytes v).reverse

variable {w n N b : ℕ} {v : BitVec w} {bs : List UInt8}

@[simp] lemma length_bytes : (bytes v).length = w / 8 := by simp [bytes]

/-- The places of a number. -/
lemma range_map_succ : (List.range (n + 1)).map (fun i => N / b ^ (n + 1 - i - 1) % b) =
    (List.range n).map (fun i => N / b / b ^ (n - i - 1) % b) ++ [N % b] := by
  rw [List.range_succ, List.map_append, List.map_singleton, Nat.add_sub_cancel_left]
  congr 1
  · refine List.map_congr_left fun i hi => ?_
    have hi : i < n := List.mem_range.mp hi
    rw [Nat.div_div_eq_div_mul, ← pow_succ', show n + 1 - i - 1 = n - i - 1 + 1 by omega]
  · simp

lemma ofDigits_places :
    ofDigits b ((List.range n).map fun i => N / b ^ (n - i - 1) % b) = N % b ^ n := by
  induction n generalizing N with
  | zero => simp [ofDigits, Nat.mod_one]
  | succ n ih =>
    rw [range_map_succ, ofDigits_append, ih, ofDigits_singleton, List.length_singleton, pow_one,
      pow_succ', Nat.mod_mul]
    omega

lemma places_ofDigits {ds : List ℕ} (hds : ∀ d ∈ ds, d < b) :
    (List.range ds.length).map (fun i => ofDigits b ds / b ^ (ds.length - i - 1) % b) = ds := by
  induction ds using List.reverseRecOn with
  | nil => rfl
  | append_singleton ds d ih =>
    have hd : d < b := hds d (by simp)
    have hdiv : ofDigits b (ds ++ [d]) / b = ofDigits b ds := by
      rw [ofDigits_append, ofDigits_singleton, List.length_singleton, pow_one,
        Nat.mul_add_div (by omega), Nat.div_eq_of_lt hd, add_zero]
    have hmod : ofDigits b (ds ++ [d]) % b = d := by
      rw [ofDigits_append, ofDigits_singleton, List.length_singleton, pow_one, Nat.mul_add_mod,
        Nat.mod_eq_of_lt hd]
    rw [List.length_append, List.length_singleton, range_map_succ, hdiv, hmod,
      ih fun e he => hds e (List.mem_append_left _ he)]

lemma toNat_ofBytes : (ofBytes w bs).toNat = ofDigits 256 (bs.map UInt8.toNat) % 2 ^ w := by
  induction bs using List.reverseRecOn with
  | nil => simp [ofBytes, ofDigits]
  | append_singleton bs c ih =>
    have hstep : ofBytes w (bs ++ [c]) = ofBytes w bs <<< 8 ||| c.toBitVec.setWidth w := by
      simp [ofBytes, appendByte]
    have hc : c.toNat < 2 ^ 8 := c.toNat_lt
    rw [hstep, BitVec.toNat_or, BitVec.toNat_shiftLeft, BitVec.toNat_setWidth, ← Nat.or_mod_two_pow,
      UInt8.toNat_toBitVec, ← Nat.shiftLeft_add_eq_or_of_lt hc, Nat.shiftLeft_eq, ih,
      List.map_append, ofDigits_append]
    simp [Nat.add_mod, Nat.mul_mod, mul_comm]

lemma map_toNat_bytes : (bytes v).map UInt8.toNat =
    (List.range (w / 8)).map fun i => v.toNat / 256 ^ (w / 8 - i - 1) % 256 := by
  rw [bytes, List.map_map]
  refine List.map_congr_left fun i _ => ?_
  have hpow : (2 : ℕ) ^ ((w / 8 - i - 1) * 8) = 256 ^ (w / 8 - i - 1) := by
    rw [mul_comm, pow_mul]
    rfl
  rw [Function.comp_apply, ← UInt8.toNat_toBitVec, BitVec.toNat_setWidth, BitVec.toNat_ushiftRight,
    Nat.shiftRight_eq_div_pow, hpow]

lemma pow_eq (hw : 8 ∣ w) : 2 ^ w = 256 ^ (w / 8) := by
  conv_lhs => rw [← Nat.mul_div_cancel' hw, pow_mul]
  rfl

/-- A number is made of its bytes. -/
lemma ofBytes_bytes (hw : 8 ∣ w) : ofBytes w (bytes v) = v := by
  refine BitVec.eq_of_toNat_eq ?_
  rw [toNat_ofBytes, map_toNat_bytes, ofDigits_places, ← pow_eq hw, Nat.mod_mod,
    Nat.mod_eq_of_lt v.isLt]

lemma bytes_ofBytes (hw : 8 ∣ w) (hlength : bs.length = w / 8) : bytes (ofBytes w bs) = bs := by
  have hlt : ∀ d ∈ bs.map UInt8.toNat, d < 256 := by
    intro d hd
    obtain ⟨c, -, rfl⟩ := List.mem_map.mp hd
    exact c.toNat_lt
  have hplaces := places_ofDigits hlt
  have hmod := ofDigits_places (b := 256) (n := (bs.map UInt8.toNat).length)
    (N := ofDigits 256 (bs.map UInt8.toNat))
  rw [List.length_map] at hplaces hmod
  rw [hplaces] at hmod
  have hinjective : (List.map UInt8.toNat).Injective := List.map_injective_iff.mpr fun _ _ =>
    UInt8.toNat_inj.mp
  refine hinjective ?_
  rw [map_toNat_bytes, toNat_ofBytes, pow_eq hw, ← hlength, ← hmod, hplaces]

lemma bytes_byteSwap (hw : 8 ∣ w) : bytes (byteSwap v) = (bytes v).reverse :=
  bytes_ofBytes hw (by simp)

lemma byteSwap_byteSwap (hw : 8 ∣ w) : byteSwap (byteSwap v) = v := by
  rw [byteSwap, bytes_byteSwap hw, List.reverse_reverse, ofBytes_bytes hw]

end Core
