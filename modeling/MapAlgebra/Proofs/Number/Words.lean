import MapAlgebra.Number.Word
import Mathlib.Data.Int.Bitwise

namespace MapAlgebra.Number

variable {a b n : Int}

-- The numbers that a word can hold.
def InWord (n : Int) : Prop := wideLowest ≤ n ∧ n ≤ wideHighest

instance (n : Int) : Decidable (InWord n) := inferInstanceAs (Decidable (_ ∧ _))

theorem inWord_iff : InWord n ↔ -2 ^ 127 ≤ n ∧ n < 2 ^ 127 := by
  have hlowest : wideLowest = -2 ^ 127 := rfl
  have hhighest : wideHighest = 2 ^ 127 - 1 := rfl
  rw [InWord, hlowest, hhighest]
  omega

theorem wide_eq (h : InWord n) : wide n = n := by
  obtain ⟨hlow, hhigh⟩ := inWord_iff.mp h
  have hword : Nat.pow 2 128 = 2 ^ 128 := rfl
  rw [wide, hword]
  exact Int.bmod_eq_of_le_mul_two (by omega) (by omega)

theorem saturate_saturateWide {lowest highest : Int} (hlow : wideLowest ≤ lowest)
    (hhigh : highest ≤ wideHighest) (n : Int) :
    saturate (saturateWide n) lowest highest = saturate n lowest highest := by
  unfold saturateWide saturate
  omega

theorem saturateWide_eq_zero_iff : saturateWide n = 0 ↔ n = 0 := by
  have hlowest : wideLowest = -2 ^ 127 := rfl
  have hhighest : wideHighest = 2 ^ 127 - 1 := rfl
  rw [saturateWide, saturate, hlowest, hhighest]
  omega

section Bits

-- Above some place all bits of a number tell its sign.
theorem testBit_of_bounds {k i : Nat} (hlow : -2 ^ k ≤ n) (hhigh : n < 2 ^ k) (hi : k ≤ i) :
    n.testBit i = decide (n < 0) := by
  have hpower : 2 ^ k ≤ 2 ^ i := Nat.pow_le_pow_right Nat.zero_lt_two hi
  cases n with
  | ofNat m =>
      have hm : m < 2 ^ k := by
        rw [Int.ofNat_eq_natCast] at hhigh
        exact_mod_cast hhigh
      exact Nat.testBit_lt_two_pow (Nat.lt_of_lt_of_le hm hpower)
  | negSucc m =>
      have hm : m < 2 ^ k := by
        rw [Int.negSucc_eq] at hlow
        exact_mod_cast (by omega : (m : Int) < 2 ^ k)
      rw [decide_eq_true (Int.negSucc_lt_zero m), Int.testBit,
        Nat.testBit_lt_two_pow (Nat.lt_of_lt_of_le hm hpower), Bool.not_false]

theorem bounds_of_testBit {k : Nat} {sign : Bool} (h : ∀ i, k ≤ i → n.testBit i = sign) :
    -2 ^ k ≤ n ∧ n < 2 ^ k := by
  have hnonneg : (0 : Int) < 2 ^ k := Int.pow_pos (by decide)
  -- a natural number has no bits far up, so the sign is known
  have hsmall : ∀ {m : Nat}, (∀ i, k ≤ i → m.testBit i = false) → (m : Int) < 2 ^ k := fun hm =>
    by exact_mod_cast Nat.lt_pow_two_of_testBit _ hm
  have htop : ∀ m : Nat, m.testBit (max k m) = false := fun m =>
    Nat.testBit_lt_two_pow (Nat.lt_of_le_of_lt (Nat.le_max_right k m) Nat.lt_two_pow_self)
  cases n with
  | ofNat m =>
      obtain rfl : false = sign := (htop m).symm.trans (h _ (Nat.le_max_left k m))
      have hm := hsmall h
      exact ⟨by rw [Int.ofNat_eq_natCast]; omega, hm⟩
  | negSucc m =>
      have hflipped : ∀ i, k ≤ i → m.testBit i = !sign := fun i hi =>
        Bool.not_eq_eq_eq_not.mp (h i hi)
      have hsign : (!sign) = false :=
        (hflipped _ (Nat.le_max_left k m)).symm.trans (htop m)
      have hm := hsmall fun i hi => (hflipped i hi).trans hsign
      rw [Int.negSucc_eq]
      omega

theorem getLsbD_ofInt {w : Nat} (n : Int) {i : Nat} (hi : i < w) :
    (BitVec.ofInt w n).getLsbD i = n.testBit i := by
  cases n with
  | ofNat m =>
      rw [Int.ofNat_eq_natCast, BitVec.ofInt_natCast, BitVec.getLsbD_ofNat, decide_eq_true hi]
      exact Bool.true_and _
  | negSucc m =>
      rw [BitVec.ofInt_negSucc_eq_not_ofNat, BitVec.getLsbD_not, BitVec.getLsbD_ofNat,
        decide_eq_true hi, Bool.true_and, Bool.true_and]
      rfl

-- An operation on the bits of words is the operation on the bits of the numbers that they hold.
theorem toInt_bitwise {f : Bool → Bool → Bool} {word : BitVec 128} (ha : InWord a) (hb : InWord b)
    (hword : ∀ i < 128, word.getLsbD i = f (a.testBit i) (b.testBit i)) :
    word.toInt = Int.bitwise f a b := by
  obtain ⟨halow, hahigh⟩ := inWord_iff.mp ha
  obtain ⟨hblow, hbhigh⟩ := inWord_iff.mp hb
  have hbits : word = BitVec.ofInt 128 (Int.bitwise f a b) :=
    BitVec.eq_of_getLsbD_eq fun i hi => by
      rw [hword i hi, getLsbD_ofInt _ hi, Int.testBit_bitwise]
  have hsign : ∀ i, 127 ≤ i → (Int.bitwise f a b).testBit i = f (a < 0) (b < 0) := fun i hi => by
    rw [Int.testBit_bitwise, testBit_of_bounds halow hahigh hi, testBit_of_bounds hblow hbhigh hi]
  have hresult : InWord (Int.bitwise f a b) := inWord_iff.mpr (bounds_of_testBit hsign)
  rw [hbits, BitVec.toInt_ofInt]
  exact wide_eq hresult

theorem bitAnd_eq (ha : InWord a) (hb : InWord b) : bitAnd a b = a.land b := by
  rw [← Int.bitwise_and]
  refine toInt_bitwise ha hb fun i hi => ?_
  rw [BitVec.getLsbD_and, getLsbD_ofInt a hi, getLsbD_ofInt b hi]

theorem bitOr_eq (ha : InWord a) (hb : InWord b) : bitOr a b = a.lor b := by
  rw [← Int.bitwise_or]
  refine toInt_bitwise ha hb fun i hi => ?_
  rw [BitVec.getLsbD_or, getLsbD_ofInt a hi, getLsbD_ofInt b hi]

theorem bitXor_eq (ha : InWord a) (hb : InWord b) : bitXor a b = a.xor b := by
  rw [← Int.bitwise_xor]
  refine toInt_bitwise ha hb fun i hi => ?_
  rw [BitVec.getLsbD_xor, getLsbD_ofInt a hi, getLsbD_ofInt b hi]

end Bits

section Shifts

theorem shiftCount_of_le (h : b ≤ 127) : shiftCount b = b.toNat := by
  unfold shiftCount saturate
  omega

theorem shiftCount_of_lt (h : 127 < b) : shiftCount b = 127 := by
  unfold shiftCount saturate
  omega

-- Nothing but zero stays in the word when it is shifted that far.
theorem eq_zero_of_inWord {count : Nat} (hcount : 127 < count) (h : InWord (a * 2 ^ count)) :
    a = 0 := by
  by_contra ha
  obtain ⟨hlow, hhigh⟩ := inWord_iff.mp h
  have hpower : 2 ^ 128 ≤ 2 ^ count := Nat.pow_le_pow_right Nat.zero_lt_two hcount
  have hle : 1 * 2 ^ 128 ≤ a.natAbs * 2 ^ count :=
    Nat.mul_le_mul (Int.natAbs_pos.mpr ha) hpower
  have habs : (a * 2 ^ count).natAbs = a.natAbs * 2 ^ count := by
    rw [Int.natAbs_mul, Int.natAbs_pow]
    rfl
  omega

-- A shift to the left wraps around where it leaves the word, and is exact where it stays in it.
theorem shiftLeft_eq (h : InWord (a * 2 ^ b.toNat)) :
    shiftLeft a (shiftCount b) = a * 2 ^ b.toNat := by
  by_cases hb : b ≤ 127
  · rw [shiftCount_of_le hb]
    exact wide_eq h
  · obtain rfl := eq_zero_of_inWord (by omega) h
    rw [shiftLeft, Int.zero_mul, Int.zero_mul]
    rfl

-- A power of two is never shifted out of the word as a whole.
theorem shiftLeft_one_ne_zero (b : Int) : shiftLeft 1 (shiftCount b) ≠ 0 := by
  have hcount : shiftCount b ≤ 127 := by
    unfold shiftCount saturate
    omega
  intro hzero
  rw [shiftLeft, Int.one_mul] at hzero
  have hdvd : Nat.pow 2 128 ∣ Nat.pow 2 (shiftCount b) :=
    Int.natCast_dvd_natCast.mp (Int.dvd_of_bmod_eq_zero hzero)
  have hle := (Nat.pow_dvd_pow_iff_le_right (Nat.lt_succ_self 1)).mp hdvd
  omega

-- Minus one keeps its sign however far it is shifted, since all of its bits are set.
theorem shiftLeft_neg_one (b : Int) :
    shiftLeft (-1) (shiftCount b) = saturateWide (-1 * 2 ^ b.toNat) := by
  have hlowest : wideLowest = -2 ^ 127 := rfl
  have hhighest : wideHighest = 2 ^ 127 - 1 := rfl
  by_cases hb : b ≤ 127
  · have hpower : (2 : Int) ^ b.toNat ≤ 2 ^ 127 := by
      exact_mod_cast Nat.pow_le_pow_right Nat.zero_lt_two (by omega : b.toNat ≤ 127)
    have hpositive : (0 : Int) < 2 ^ b.toNat := Int.pow_pos (by decide)
    rw [shiftLeft_eq (inWord_iff.mpr (by omega)), saturateWide, saturate, hlowest, hhighest]
    omega
  · have hpower : (2 : Int) ^ 127 ≤ 2 ^ b.toNat := by
      exact_mod_cast Nat.pow_le_pow_right Nat.zero_lt_two (by omega : 127 ≤ b.toNat)
    have hlast : shiftLeft (-1) 127 = -2 ^ 127 := by decide
    rw [shiftCount_of_lt (by omega), hlast, saturateWide, saturate, hlowest, hhighest]
    omega

-- What is left of a number when all of its bits but the sign are shifted out.
theorem ediv_of_bounds {m : Int} (hlow : -m ≤ a) (hhigh : a < m) :
    a / m = if a < 0 then -1 else 0 := by
  split
  · rename_i hneg
    exact Int.ediv_eq_neg_one_of_neg_of_le hneg (by omega)
  · exact Int.ediv_eq_zero_of_lt (by omega) hhigh

theorem shiftRight_eq (ha : InWord a) : shiftRight a (shiftCount b) = a / 2 ^ b.toNat := by
  rw [shiftRight, Int.shiftRight_eq_div_pow]
  by_cases hb : b ≤ 127
  · rw [shiftCount_of_le hb]
    rfl
  · obtain ⟨hlow, hhigh⟩ := inWord_iff.mp ha
    have hpower : (2 : Int) ^ 127 ≤ 2 ^ b.toNat := by
      exact_mod_cast Nat.pow_le_pow_right Nat.zero_lt_two (by omega : 127 ≤ b.toNat)
    have hshort := ediv_of_bounds hlow hhigh
    have hlong : a / 2 ^ b.toNat = _ := ediv_of_bounds (by omega) (by omega)
    rw [shiftCount_of_lt (by omega), hlong]
    exact hshort

end Shifts

end MapAlgebra.Number
