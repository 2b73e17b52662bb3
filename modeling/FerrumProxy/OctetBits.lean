import Mathlib

/-!
# Octets as bits

Octets in network order are a number and a sequence of bits, and masking all but the first bits of a
word compares these.
-/

namespace Octets

/-- The bit at a place, counted from the front. -/
def bit (octets : List UInt8) (i : Nat) : Bool := (octets.getD (i / 8) 0).toNat.testBit (7 - i % 8)

/-- The number in network order. -/
def value (octets : List UInt8) : Nat := octets.foldl (fun n b => 256 * n + b.toNat) 0

/-- The two have the same first bits. -/
def SameBits (count : Nat) (xs ys : List UInt8) : Prop := ∀ i < count, bit xs i = bit ys i

instance (count : Nat) (xs ys : List UInt8) : Decidable (SameBits count xs ys) :=
  inferInstanceAs (Decidable (∀ i < count, _))

theorem value_append (xs : List UInt8) (b : UInt8) :
    value (xs ++ [b]) = 2 ^ 8 * value xs + b.toNat := by
  rw [value, List.foldl_append]
  rfl

theorem bit_append (xs ys : List UInt8) (i : Nat) :
    bit (xs ++ ys) i = if i < 8 * xs.length then bit xs i else bit ys (i - 8 * xs.length) := by
  unfold bit
  split
  · rename_i hi
    rw [List.getD_append _ _ _ _ (by omega)]
  · rename_i hi
    rw [List.getD_append_right _ _ _ _ (by omega)]
    rw [show (i - 8 * xs.length) / 8 = i / 8 - xs.length by omega,
      show (i - 8 * xs.length) % 8 = i % 8 by omega]

theorem bit_drop (xs : List UInt8) (count i : Nat) :
    bit (xs.drop count) i = bit xs (8 * count + i) := by
  unfold bit
  rw [show (8 * count + i) / 8 = count + i / 8 by omega, show (8 * count + i) % 8 = i % 8 by omega]
  simp [List.getD_eq_getElem?_getD]

/-- Common bits with octets in two parts. -/
theorem sameBits_append_iff {count : Nat} {xs front back : List UInt8} :
    SameBits count xs (front ++ back) ↔
      SameBits (min count (8 * front.length)) xs front ∧
        SameBits (count - 8 * front.length) (xs.drop front.length) back := by
  constructor
  · intro h
    constructor
    · intro i hi
      rw [h i (by omega), bit_append, if_pos (by omega)]
    · intro i hi
      rw [bit_drop, h _ (by omega), bit_append, if_neg (by omega)]
      congr 1
      omega
  · intro ⟨hfront, hback⟩ i hi
    rw [bit_append]
    split
    · exact hfront i (by omega)
    · have hbit := hback (i - 8 * front.length) (by omega)
      rw [bit_drop] at hbit
      rw [← hbit]
      congr 1
      omega

theorem testBit_value (octets : List UInt8) {i : Nat} (hi : i < 8 * octets.length) :
    (value octets).testBit (8 * octets.length - 1 - i) = bit octets i := by
  induction octets using List.reverseRecOn generalizing i with
  | nil => exact absurd hi (Nat.not_lt_zero i)
  | append_singleton xs b ih =>
    rw [List.length_append, List.length_singleton] at hi ⊢
    rw [value_append, Nat.testBit_two_pow_mul_add _ b.toNat_lt, bit_append]
    by_cases hlast : i < 8 * xs.length
    · -- a bit of an octet before the last one
      rw [if_neg (by omega), if_pos hlast, ← ih hlast]
      congr 1
      omega
    · rw [if_pos (by omega), if_neg hlast, bit, show (i - 8 * xs.length) / 8 = 0 by omega]
      congr 1
      omega

/-- Words that agree under the mask of the first bits have these in common. -/
theorem masked_eq_iff {width count : Nat} (hcount : count ≤ width) (a b : BitVec width) :
    a &&& (BitVec.allOnes width <<< (width - count)) =
        b &&& (BitVec.allOnes width <<< (width - count)) ↔
      ∀ i < count, a.getLsbD (width - 1 - i) = b.getLsbD (width - 1 - i) := by
  have hmask : ∀ (word : BitVec width) (j : Nat), j < width →
      (word &&& (BitVec.allOnes width <<< (width - count))).getLsbD j =
        (word.getLsbD j && decide (width - count ≤ j)) := by
    intro word j hj
    rw [BitVec.getLsbD_and, BitVec.getLsbD_shiftLeft, BitVec.getLsbD_allOnes, decide_eq_true hj,
      Bool.true_and, decide_eq_true (show j - (width - count) < width by omega), Bool.and_true,
      ← decide_not]
    simp only [Nat.not_lt]
  constructor
  · intro h i hi
    have hbit := congrArg (fun word => word.getLsbD (width - 1 - i)) h
    simp only [hmask _ _ (show width - 1 - i < width by omega),
      decide_eq_true (show width - count ≤ width - 1 - i by omega), Bool.and_true] at hbit
    exact hbit
  · intro h
    refine BitVec.eq_of_getLsbD_eq (fun j hj => ?_)
    rw [hmask a j hj, hmask b j hj]
    by_cases hlow : width - count ≤ j
    · have hbit := h (width - 1 - j) (by omega)
      rw [show width - 1 - (width - 1 - j) = j by omega] at hbit
      rw [hbit]
    · rw [decide_eq_false hlow, Bool.and_false, Bool.and_false]

/-- Masked words in network order: the octets have the first bits in common. -/
theorem masked_value_eq_iff {width count : Nat} {xs ys : List UInt8} (hcount : count ≤ width)
    (hxs : width = 8 * xs.length) (hys : width = 8 * ys.length) :
    BitVec.ofNat width (value xs) &&& (BitVec.allOnes width <<< (width - count)) =
        BitVec.ofNat width (value ys) &&& (BitVec.allOnes width <<< (width - count)) ↔
      SameBits count xs ys := by
  rw [masked_eq_iff hcount]
  refine forall₂_congr (fun i hi => ?_)
  have hlow : width - 1 - i < width := by omega
  rw [BitVec.getLsbD_ofNat, BitVec.getLsbD_ofNat, decide_eq_true hlow, Bool.true_and, Bool.true_and]
  have hx := testBit_value xs (show i < 8 * xs.length by omega)
  have hy := testBit_value ys (show i < 8 * ys.length by omega)
  rw [← hxs] at hx
  rw [← hys] at hy
  rw [hx, hy]

end Octets
