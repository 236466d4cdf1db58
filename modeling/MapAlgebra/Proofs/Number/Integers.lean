import MapAlgebra.Proofs.Number.Division

namespace MapAlgebra.Number

open Float.Model (UnpackedFloat)

variable {x y : Float} {n a b : Int}

theorem Near.neg (h : Near x n) : Near (-x) (-n) where
  number := h.number.neg
  exact hle := by
    rw [Int.natAbs_neg] at hle
    rw [units_neg, h.exact hle, Int.neg_mul]
  above hle := by
    have hbelow := h.below (by omega)
    rw [units_neg]
    omega
  below hle := by
    have habove := h.above (by omega)
    rw [units_neg]
    omega

theorem near_ofNat {k : Nat} (h : k < 2 ^ 63) : Near (UInt64.ofNat k).toFloat k := by
  have hword : (UInt64.ofNat k).toNat = k := UInt64.toNat_ofNat_of_lt' (Nat.lt_trans h (by decide))
  have hexponent : ((0 : Int) + placesAfter).toNat = placesAfter := by omega
  show Near (packed (.normalize layout ((UInt64.ofNat k).toNat : Int) 0 .positive)) k
  rw [hword]
  refine normalize_near (by decide) ?_ (log2_le (k := 200) ?_)
  · rw [hexponent, oneUnits, Int.natCast_pow]
    rfl
  · exact Nat.lt_of_lt_of_le h (by decide)

-- The bits of the double nearest to a large whole number.
theorem nearest_large {k : Nat} (h : 2 ^ 63 ≤ k) (h' : k ≤ 2 ^ 127) :
    ∃ (r : Nat) (f : Int), 2 ^ 52 ≤ r ∧ r < 2 ^ 53 ∧ 1 ≤ f ∧ f ≤ 971 ∧
      Format.double.nearest k 1 = (f + 1074).toNat * 2 ^ 52 + r := by
  have hlow : 63 ≤ k.log2 := (Nat.le_log2 (by omega)).mpr h
  have hhigh : k.log2 ≤ 127 := log2_le (Nat.lt_of_le_of_lt h' (by decide))
  have htop : (k.log2 : Int) - (Nat.log2 1 : Nat) = k.log2 := Int.sub_zero _
  have hreached : 1 <<< k.log2 ≤ k := by
    rw [Nat.one_shiftLeft]
    exact Nat.log2_self_le (by omega)
  have hlowest : Format.double.lowestExponent = -1074 := rfl
  have hprecision : Format.double.precision - 1 = 52 := rfl
  have hend : Format.double.infinityBits = 2047 * 2 ^ 52 := by decide +kernel
  have hexponent : max (-1074) ((k.log2 : Int) - (52 : Nat)) = (k.log2 - 52 : Nat) := by omega
  have hnonneg : (0 : Int) ≤ (k.log2 - 52 : Nat) := Int.natCast_nonneg _
  obtain ⟨unit, hunit⟩ : ∃ unit, unit = 1 <<< (k.log2 - 52) := ⟨_, rfl⟩
  obtain ⟨rounded, hrounded⟩ : ∃ rounded, rounded =
      if unit < 2 * (k % unit) ∨ (2 * (k % unit) = unit ∧ k / unit % 2 = 1) then k / unit + 1
      else k / unit := ⟨_, rfl⟩
  have hfloor : 2 ^ 52 ≤ k / unit ∧ k / unit < 2 ^ 53 := by
    have hpower : 0 < 2 ^ (k.log2 - 52) := Nat.two_pow_pos _
    have hsplit : k.log2 = 52 + (k.log2 - 52) := by omega
    rw [hunit, Nat.one_shiftLeft, Nat.le_div_iff_mul_le hpower, Nat.div_lt_iff_lt_mul hpower,
      ← Nat.pow_add, ← Nat.pow_add, ← hsplit]
    refine ⟨Nat.log2_self_le (by omega), Nat.lt_of_lt_of_le Nat.lt_log2_self ?_⟩
    exact Nat.pow_le_pow_right Nat.zero_lt_two (by omega)
  have hbounds : 2 ^ 52 ≤ rounded ∧ rounded ≤ 2 ^ 53 := by
    rw [hrounded]
    split <;> omega
  have hbits : Format.double.nearest k 1 = (k.log2 - 52 + 1074) * 2 ^ 52 + rounded := by
    have hplace : ((k.log2 - 52 : Nat) - (-1074) : Int).toNat = k.log2 - 52 + 1074 := by omega
    rw [Format.nearest, if_neg (by omega)]
    simp only [htop, hlowest, hprecision, Int.natCast_nonneg, if_true, Int.toNat_natCast,
      hreached, hexponent, ← hunit, ← hrounded, hplace]
    rw [hend, Nat.shiftLeft_eq, Nat.min_eq_right (by omega)]
  rw [hbits]
  by_cases hcarry : rounded = 2 ^ 53
  · refine ⟨2 ^ 52, (k.log2 - 51 : Nat), le_refl _, by decide, by omega, by omega, ?_⟩
    have hplace : ((k.log2 - 51 : Nat) + 1074 : Int).toNat = k.log2 - 52 + 1074 + 1 := by omega
    rw [hcarry, hplace]
    omega
  · refine ⟨rounded, (k.log2 - 52 : Nat), hbounds.1, by omega, by omega, by omega, ?_⟩
    have hplace : ((k.log2 - 52 : Nat) + 1074 : Int).toNat = k.log2 - 52 + 1074 := by omega
    rw [hplace]

theorem near_ofInt (h : n.natAbs ≤ 2 ^ 127) : Near (ofInt n) n := by
  rw [ofInt]
  by_cases hsmall : n.natAbs < Nat.pow 2 63
  · have hnear := near_ofNat hsmall
    rw [if_pos hsmall]
    by_cases hsign : n < 0
    · have hnegated : -(n.natAbs : Int) = n := by omega
      have hnear := hnear.neg
      rw [hnegated] at hnear
      simp only [hsign, if_true]
      exact hnear
    · have hsame : (n.natAbs : Int) = n := by omega
      rw [hsame] at hnear
      simp only [hsign, if_false]
      exact hnear
  · obtain ⟨r, f, hfull, hr, hf, hf', hbits⟩ := nearest_large (Nat.le_of_not_lt hsmall) h
    have hdecoded : Binary.ofFloat (ofRatio (n < 0) n.natAbs 1) = .finite (n < 0) r f := by
      have hsign : Format.double.signBit = 2 ^ 63 := rfl
      have hfits : (if decide (n < 0) then 2 ^ 63 else 0) + ((f + 1074).toNat * 2 ^ 52 + r) <
          2 ^ 64 := by split <;> omega
      rw [ofRatio, hbits, hsign, ofFloat_ofBits, UInt64.toNat_ofNat_of_lt' hfits]
      exact decode_full (n < 0) hfull hr (by omega) hf'
    have hlarge : 2 ^ 63 ≤ n.natAbs := Nat.le_of_not_lt hsmall
    have hmagnitude := le_magnitudeUnits hfull hf
    have hunits : units (ofRatio (n < 0) n.natAbs 1) = withSign (n < 0) (magnitudeUnits r f) := by
      rw [units, hdecoded, Binary.units]
    rw [if_neg hsmall]
    refine ⟨?_, fun hle => by omega, fun hle => ?_, fun hle => ?_⟩
    · rw [IsNumber, hdecoded]
      exact fun h => Binary.noConfusion h
    · rw [hunits, decide_eq_false (by omega)]
      show _ ≤ (magnitudeUnits r f : Int)
      exact_mod_cast hmagnitude
    · rw [hunits, decide_eq_true (by omega), Int.neg_mul]
      show -(magnitudeUnits r f : Int) ≤ _
      exact Int.neg_le_neg (by exact_mod_cast hmagnitude)

end MapAlgebra.Number
