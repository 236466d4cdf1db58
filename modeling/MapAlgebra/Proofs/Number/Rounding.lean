import MapAlgebra.Proofs.Number.Whole

namespace MapAlgebra.Number

open Float.Model (UnpackedFloat totalExponent)
open Float.Model.UnpackedFloat

variable {num den : Nat}

-- A quotient as a significand with the two bits that say how much was cut off.
def extended (num den : Nat) : ExtendedMantissa :=
  .ofMantissaAndAccuracy (num / den) (accuracyOfFraction (num % den) den)

theorem extended_one (m : Nat) : extended m 1 = .ofMantissaAndAccuracy m .exact := by
  rw [extended, Nat.div_one, Nat.mod_one]
  rfl

-- Halving a quotient doubles what it is divided by.
theorem shiftRightOne_extended (hden : 0 < den) :
    (extended num den).shiftRightOne = extended num (den * 2) := by
  have hrest := Nat.mod_lt num hden
  have hquotient : num / (den * 2) = num / den / 2 := (Nat.div_div_eq_div_mul _ _ _).symm
  have hmod : num % (den * 2) = num % den + den * (num / den % 2) := Nat.mod_mul
  rw [extended, extended, hquotient, hmod]
  unfold accuracyOfFraction
  rcases Nat.mod_two_eq_zero_or_one (num / den) with heven | hodd
  · by_cases hzero : num % den = 0
    · rw [hzero, heven, if_pos rfl, if_pos (by omega)]
      simp only [ExtendedMantissa.ofMantissaAndAccuracy, ExtendedMantissa.shiftRightOne, heven]
      rfl
    · have hless : compare (2 * (num % den)) (den * 2) = .lt := compare_lt_iff_lt.mpr (by omega)
      rw [heven, Nat.mul_zero, Nat.add_zero, if_neg hzero, if_neg hzero, hless]
      cases compare (2 * (num % den)) den <;>
        simp [ExtendedMantissa.ofMantissaAndAccuracy, ExtendedMantissa.shiftRightOne, heven]
  · by_cases hzero : num % den = 0
    · have hequal : compare (2 * (0 + den * 1)) (den * 2) = .eq :=
        compare_eq_iff_eq.mpr (by omega)
      rw [hzero, hodd, if_pos rfl, if_neg (by omega), hequal]
      simp [ExtendedMantissa.ofMantissaAndAccuracy, ExtendedMantissa.shiftRightOne, hodd]
    · have hmore : compare (2 * (num % den + den * 1)) (den * 2) = .gt :=
        compare_gt_iff_gt.mpr (by omega)
      rw [hodd, if_neg hzero, if_neg (by omega), hmore]
      cases compare (2 * (num % den)) den <;>
        simp [ExtendedMantissa.ofMantissaAndAccuracy, ExtendedMantissa.shiftRightOne, hodd]

theorem shiftRight_extended (hden : 0 < den) (k : Nat) :
    extended num den >>> k = extended num (den * 2 ^ k) := by
  induction k with
  | zero => rw [Nat.pow_zero, Nat.mul_one]; rfl
  | succ k ih =>
      have hstep : extended num den >>> (k + 1) = (extended num den >>> k).shiftRightOne := rfl
      rw [hstep, ih, shiftRightOne_extended (Nat.mul_pos hden (Nat.two_pow_pos k)), Nat.pow_succ,
        Nat.mul_assoc]

theorem rounded_ofMantissa (m : Nat) (accuracy : Accuracy) :
    (ExtendedMantissa.ofMantissaAndAccuracy m accuracy).roundedMantissa =
      accuracy.roundToNearestEven m := by
  cases accuracy with
  | exact => rfl
  | inexact order => cases order <;> rfl

-- A quotient rounded to the nearest whole number.
def nearest (num den : Nat) : Nat := (extended num den).roundedMantissa

theorem nearest_bounds (num : Nat) (hden : 0 < den) : num / den ≤ nearest num den ∧
    nearest num den ≤ num / den + 1 ∧ 2 * (nearest num den * den) ≤ 2 * num + den := by
  have hdivision := Nat.div_add_mod' num den
  have hnext : (num / den + 1) * den = num / den * den + den := Nat.succ_mul _ _
  have hdown : num / den ≤ num / den ∧ num / den ≤ num / den + 1 ∧
      2 * (num / den * den) ≤ 2 * num + den := by omega
  have hup : den ≤ 2 * (num % den) → num / den ≤ num / den + 1 ∧ num / den + 1 ≤ num / den + 1 ∧
      2 * ((num / den + 1) * den) ≤ 2 * num + den := by omega
  rw [nearest, extended, rounded_ofMantissa, accuracyOfFraction]
  by_cases hzero : num % den = 0
  · rw [if_pos hzero]
    exact hdown
  · rw [if_neg hzero]
    cases horder : compare (2 * (num % den)) den with
    | lt => exact hdown
    | eq =>
        have hhalf := compare_eq_iff_eq.mp horder
        rcases Nat.mod_two_eq_zero_or_one (num / den) with heven | hodd
        · rw [Accuracy.roundToNearestEven, heven]
          exact hdown
        · rw [Accuracy.roundToNearestEven, hodd]
          exact hup hhalf.ge
    | gt => exact hup (compare_gt_iff_gt.mp horder).le

theorem nearest_mul (hden : 0 < den) (r : Nat) : nearest (r * den) den = r := by
  rw [nearest, extended, Nat.mul_div_cancel _ hden, Nat.mul_mod_left]
  rfl

section Shifting

variable {e : Int}

theorem shiftToTarget (num : Nat) (he : -1074 ≤ e) (hfull : 2 ^ 52 ≤ num / den) (hden : 0 < den) :
    shiftToTargetExponent layout (num / den) e (accuracyOfFraction (num % den) den) =
      (extended num (den * 2 ^ ((num / den).log2 - 52)), e + ((num / den).log2 - 52 : Nat)) := by
  have hlog : 52 ≤ (num / den).log2 := (Nat.le_log2 (by omega)).mpr hfull
  have htarget : (layout.targetExponent (totalExponent (num / den) e) - e).toNat =
      (num / den).log2 - 52 := by
    show (max ((num / den).log2 + 1 + e - 53) (-1074) - e).toNat = _
    omega
  rw [shiftToTargetExponent, shiftToExponent, htarget, ← shiftRight_extended hden]
  rfl

-- Rounding up can come to one bit too many. Then the significand is a power of two.
theorem shiftToTarget_rounded {r : Nat} (he : -1074 ≤ e) (hfull : 2 ^ 52 ≤ r) (hr : r ≤ 2 ^ 53) :
    ∃ m f, shiftToTargetExponent layout r e .exact = (extended m 1, f) ∧
      2 ^ 52 ≤ m ∧ m < 2 ^ 53 ∧ f ≤ e + 1 ∧ e ≤ f ∧ magnitudeUnits m f = magnitudeUnits r e := by
  have hshift := shiftToTarget r he ((Nat.div_one r).symm ▸ hfull) Nat.one_pos
  rw [Nat.div_one, Nat.mod_one] at hshift
  have hexact : accuracyOfFraction 0 1 = .exact := rfl
  rw [hexact] at hshift
  by_cases hcarry : r = 2 ^ 53
  · have hlog : (2 ^ 53).log2 = 53 := Nat.log2_two_pow
    have hhalved : extended (2 ^ 53) (1 * 2 ^ (53 - 52)) = extended (2 ^ 52) 1 := rfl
    rw [hcarry, hlog, hhalved] at hshift
    refine ⟨2 ^ 52, e + 1, by rw [hcarry]; exact hshift, le_refl _, by decide, le_refl _, by omega, ?_⟩
    rw [hcarry, magnitudeUnits, magnitudeUnits]
    have hexponent : (e + 1 + placesAfter).toNat = (e + placesAfter).toNat + 1 := by
      rw [placesAfter]
      omega
    rw [hexponent, Nat.pow_succ]
    omega
  · have hlog : r.log2 = 52 := (Nat.log2_eq_iff (by omega)).mpr ⟨hfull, by omega⟩
    rw [hlog, Nat.sub_self, Nat.pow_zero, Nat.mul_one] at hshift
    exact ⟨r, e, by rw [hshift]; congr 1; omega, hfull, by omega, by omega, le_refl _, rfl⟩

theorem nearest_full (hden : 0 < den) (hfull : 2 ^ 52 ≤ num / den) :
    2 ^ 52 ≤ nearest num (den * 2 ^ ((num / den).log2 - 52)) ∧
      nearest num (den * 2 ^ ((num / den).log2 - 52)) ≤ 2 ^ 53 := by
  have hpower := Nat.two_pow_pos ((num / den).log2 - 52)
  obtain ⟨hlow, hhigh, _⟩ := nearest_bounds num (Nat.mul_pos hden hpower)
  have hlog := (Nat.le_log2 (by omega)).mpr hfull
  have hsmall := Nat.log2_self_le (n := num / den) (by omega)
  have hlarge := Nat.lt_log2_self (n := num / den)
  have hsplit : (num / den).log2 = 52 + ((num / den).log2 - 52) := by omega
  rw [← Nat.div_div_eq_div_mul] at hlow hhigh
  have hatLeast : 2 ^ 52 ≤ num / den / 2 ^ ((num / den).log2 - 52) := by
    rw [Nat.le_div_iff_mul_le hpower, ← Nat.pow_add, ← hsplit]
    exact hsmall
  have hbelow : num / den / 2 ^ ((num / den).log2 - 52) < 2 ^ 53 := by
    rw [Nat.div_lt_iff_lt_mul hpower, ← Nat.pow_add]
    refine Nat.lt_of_lt_of_le hlarge (Nat.pow_le_pow_right Nat.zero_lt_two (by omega))
  omega

-- What a quotient with at least 53 bits is rounded to.
theorem roundWithAccuracy_full (sign : Sign) (he : -1074 ≤ e) (hden : 0 < den)
    (hfull : 2 ^ 52 ≤ num / den) : ∃ m f hm,
      roundWithAccuracy layout sign (num / den) e (accuracyOfFraction (num % den) den) =
        .finite sign m f hm ∧
      2 ^ 52 ≤ m ∧ m < 2 ^ 53 ∧ f ≤ e + ((num / den).log2 - 52 : Nat) + 1 ∧
      e + ((num / den).log2 - 52 : Nat) ≤ f ∧
      magnitudeUnits m f = magnitudeUnits (nearest num (den * 2 ^ ((num / den).log2 - 52)))
        (e + ((num / den).log2 - 52 : Nat)) := by
  obtain ⟨hlow, hhigh⟩ := nearest_full hden hfull
  obtain ⟨m, f, hshift, hm, hm', hf, hf', hunits⟩ := shiftToTarget_rounded
    (e := e + ((num / den).log2 - 52 : Nat)) (by omega) hlow hhigh
  have hmantissa : (extended m 1).mantissa = m := by rw [extended_one]; rfl
  refine ⟨m, f, by omega, ?_, hm, hm', hf, hf', hunits⟩
  rw [nearest] at hshift
  rw [roundWithAccuracy, shiftToTarget num he hfull hden]
  simp only [hshift, hmantissa]
  rw [dif_neg (by omega)]

end Shifting

section WholeNumbers

variable {m j : Nat} {e : Int}

-- The magnitude that a whole number is rounded to. Up to 53 bits nothing is lost.
structure NearMagnitude (magnitude j : Nat) : Prop where
  exact : j ≤ 2 ^ 53 → magnitude = j * oneUnits
  above : 2 ^ 53 ≤ j → 2 ^ 53 * oneUnits ≤ magnitude

theorem le_magnitudeUnits (hfull : 2 ^ 52 ≤ m) (he : 1 ≤ e) :
    2 ^ 53 * oneUnits ≤ magnitudeUnits m e := by
  have hpower : 2 ^ 1 ≤ 2 ^ e.toNat := Nat.pow_le_pow_right Nat.zero_lt_two (by omega)
  rw [magnitudeUnits_of_nonneg (by omega), Nat.shiftLeft_eq]
  exact Nat.mul_le_mul_right _ (Nat.mul_le_mul hfull hpower)

theorem log2_whole (hm : 0 < m) (he : -1074 ≤ e) (h : magnitudeUnits m e = j * oneUnits) :
    0 < j ∧ e + m.log2 = j.log2 := by
  have hj : 0 < j := by
    refine Nat.pos_of_ne_zero fun hzero => ?_
    rw [hzero, Nat.zero_mul] at h
    exact (magnitudeUnits_pos hm).ne' h
  have hboth := congrArg Nat.log2 h
  rw [magnitudeUnits, log2_mul_two_pow hm, oneUnits, log2_mul_two_pow hj, placesAfter] at hboth
  exact ⟨hj, by omega⟩

theorem round_whole (sign : Sign) (hfull : 2 ^ 52 ≤ m) (he : -1074 ≤ e)
    (h : magnitudeUnits m e = j * oneUnits) (hj : j.log2 ≤ 200) : ∃ r f hr,
      roundWithAccuracy layout sign m e .exact = .finite sign r f hr ∧
      Canonical (.finite sign r f hr) ∧ NearMagnitude (magnitudeUnits r f) j := by
  obtain ⟨hpositive, hlog⟩ := log2_whole (by omega) he h
  have hbits : 52 ≤ m.log2 := (Nat.le_log2 (by omega)).mpr hfull
  obtain ⟨r, f, hr, hround, hlow, hhigh, hf, hf', hunits⟩ := roundWithAccuracy_full sign he
    Nat.one_pos ((Nat.div_one m).symm ▸ hfull)
  rw [Nat.div_one, Nat.mod_one] at hround
  rw [Nat.div_one] at hf hf' hunits
  refine ⟨r, f, hr, hround, ⟨hhigh, by omega, by omega, Or.inl hlow⟩, ?_, ?_⟩
  · intro hle
    obtain ⟨s, g, hs, hs', hg, hg', hsame⟩ := exists_full hpositive hle
    obtain ⟨_, hlog'⟩ := log2_whole (m := s) (by omega) (by omega) hsame
    rw [(Nat.log2_eq_iff (by omega)).mpr ⟨hs, hs'⟩] at hlog'
    have hexponent : e + (m.log2 - 52 : Nat) = g := by omega
    have hm := magnitudeUnits_eq he (by omega) (h.trans hsame.symm)
    have hshift : (g - e).toNat = m.log2 - 52 := by omega
    rw [hshift] at hm
    have hnearest : nearest m (2 ^ (m.log2 - 52)) = s :=
      (congrArg (nearest · _) hm).trans (nearest_mul (Nat.two_pow_pos _) s)
    rw [hunits, hexponent, ← hsame, Nat.one_mul, hnearest]
  · intro hle
    have hjbits : 53 ≤ j.log2 := (Nat.le_log2 (by omega)).mpr hle
    exact le_magnitudeUnits hlow (by omega)

-- Rounding first makes the significand long enough.
theorem round_eq (sign : Sign) (hm : 0 < m) (he : -1074 ≤ e)
    (h : magnitudeUnits m e = j * oneUnits) (hj : j.log2 ≤ 200) : ∃ r f hr,
      Float.Model.UnpackedFloat.round layout sign m e = .finite sign r f hr ∧
      Canonical (.finite sign r f hr) ∧ NearMagnitude (magnitudeUnits r f) j := by
  obtain ⟨_, hlog⟩ := log2_whole hm he h
  have htarget : layout.targetExponent (totalExponent m e) = (j.log2 : Int) - 52 := by
    show max (m.log2 + 1 + e - 53) (-1074) = _
    omega
  obtain ⟨k, hk⟩ : ∃ k, k = (e - ((j.log2 : Int) - 52)).toNat := ⟨_, rfl⟩
  have hexponent : (e + placesAfter).toNat = k + (e - k + placesAfter).toNat := by
    rw [placesAfter]
    omega
  have hsame : magnitudeUnits (m <<< k) (e - k) = j * oneUnits := by
    rw [← h, magnitudeUnits, magnitudeUnits, Nat.shiftLeft_eq, hexponent, Nat.pow_add,
      Nat.mul_assoc]
  have hfull : 2 ^ 52 ≤ m <<< k := by
    have hpositive := Nat.mul_pos hm (Nat.two_pow_pos k)
    rw [Nat.shiftLeft_eq, ← Nat.le_log2 hpositive.ne', log2_mul_two_pow hm]
    omega
  rw [Float.Model.UnpackedFloat.round, htarget, decreaseExponent, ← hk]
  exact round_whole sign hfull (by omega) hsame hj

end WholeNumbers

end MapAlgebra.Number
