import MapAlgebra.Proofs.Number.Doubles

namespace MapAlgebra.Number

section Whole

variable {m j : Nat} {e : Int}

theorem magnitudeUnits_of_nonneg (he : 0 ≤ e) :
    magnitudeUnits m e = m <<< e.toNat * oneUnits := by
  have hexponent : (e + placesAfter).toNat = e.toNat + placesAfter := by omega
  rw [magnitudeUnits, hexponent, Nat.pow_add, Nat.shiftLeft_eq, oneUnits, Nat.mul_assoc]

-- One in multiples of a smaller power of two.
theorem oneUnits_eq (he : -1074 ≤ e) (hsign : ¬ 0 ≤ e) :
    oneUnits = 2 ^ (-e).toNat * 2 ^ (e + placesAfter).toNat := by
  have hexponent : (-e).toNat + (e + placesAfter).toNat = placesAfter := by
    rw [placesAfter]
    omega
  rw [← Nat.pow_add, hexponent, oneUnits]

theorem magnitudeUnits_div (he : -1074 ≤ e) : magnitudeUnits m e / oneUnits =
    if 0 ≤ e then m <<< e.toNat else m >>> (-e).toNat := by
  by_cases hsign : 0 ≤ e
  · rw [if_pos hsign, magnitudeUnits_of_nonneg hsign, Nat.mul_div_cancel _ oneUnits_pos]
  · rw [if_neg hsign, magnitudeUnits, oneUnits_eq he hsign, Nat.mul_div_mul_right _ _ (Nat.two_pow_pos _),
      Nat.shiftRight_eq_div_pow]

theorem withSign_tdiv (negative : Bool) (a b : Nat) :
    (withSign negative a).tdiv b = withSign negative (a / b) := by
  cases negative with
  | false => exact (Int.ofNat_tdiv a b).symm
  | true =>
      show (-(a : Int)).tdiv b = -((a / b : Nat) : Int)
      rw [Int.neg_tdiv, ← Int.ofNat_tdiv]

theorem withSign_mul (negative : Bool) (a b : Nat) :
    withSign negative a * b = withSign negative (a * b) := by
  cases negative with
  | false => exact (Int.natCast_mul a b).symm
  | true =>
      show -(a : Int) * b = -((a * b : Nat) : Int)
      rw [Int.neg_mul, Int.natCast_mul]

-- The whole part, in multiples of the smallest positive double.
theorem wholePart_eq (x : Float) : wholePart x = (units x).tdiv oneUnits := by
  unfold wholePart units
  cases hparts : Binary.ofFloat x with
  | nan => exact (Int.zero_tdiv _).symm
  | infinite negative =>
      have hbefore : 2 ^ placesBefore = Nat.pow 2 1024 := by decide +kernel
      rw [Binary.units, withSign_tdiv, endUnits, Nat.mul_div_cancel _ oneUnits_pos, hbefore]
      cases negative <;> rfl
  | finite negative m e =>
      rw [Binary.units, withSign_tdiv, magnitudeUnits_div (exponent_of_ofFloat hparts).1]
      cases negative <;> rfl

-- A whole number in the form in which doubles hold it.
theorem exists_full (hj : 0 < j) (hle : j ≤ 2 ^ 53) : ∃ r e, 2 ^ 52 ≤ r ∧ r < 2 ^ 53 ∧
    -52 ≤ e ∧ e ≤ 1 ∧ magnitudeUnits r e = j * oneUnits := by
  by_cases htop : j = 2 ^ 53
  · refine ⟨2 ^ 52, 1, le_refl _, by decide, by decide, le_refl _, ?_⟩
    have hshift : 2 ^ 52 <<< Int.toNat 1 = 2 ^ 53 := by decide
    rw [magnitudeUnits_of_nonneg (by decide), hshift, htop]
  · have hlog : j.log2 < 53 := (Nat.log2_lt hj.ne').mpr (by omega)
    have hlow := Nat.log2_self_le hj.ne'
    have hhigh := Nat.lt_log2_self (n := j)
    refine ⟨j * 2 ^ (52 - j.log2), j.log2 - 52, ?_, ?_, by omega, by omega, ?_⟩
    · calc 2 ^ 52 = 2 ^ j.log2 * 2 ^ (52 - j.log2) := by rw [← Nat.pow_add]; congr 1; omega
        _ ≤ j * 2 ^ (52 - j.log2) := Nat.mul_le_mul_right _ hlow
    · calc j * 2 ^ (52 - j.log2)
          < 2 ^ (j.log2 + 1) * 2 ^ (52 - j.log2) :=
            Nat.mul_lt_mul_of_pos_right hhigh (Nat.two_pow_pos _)
        _ = 2 ^ 53 := by rw [← Nat.pow_add]; congr 1; omega
    · have hexponent : 52 - j.log2 + ((j.log2 : Int) - 52 + placesAfter).toNat = placesAfter := by
        rw [placesAfter]
        omega
      rw [magnitudeUnits, Nat.mul_assoc, ← Nat.pow_add, hexponent, oneUnits]

theorem log2_mul_two_pow (hm : 0 < m) (k : Nat) : (m * 2 ^ k).log2 = m.log2 + k := by
  have hpower := Nat.two_pow_pos k
  refine (Nat.log2_eq_iff (Nat.mul_pos hm hpower).ne').mpr ⟨?_, ?_⟩
  · rw [Nat.pow_add]
    exact Nat.mul_le_mul_right _ (Nat.log2_self_le hm.ne')
  · rw [Nat.add_right_comm, Nat.pow_add]
    exact Nat.mul_lt_mul_of_pos_right Nat.lt_log2_self hpower

-- The same magnitude with different exponents.
theorem magnitudeUnits_eq {r : Nat} {f : Int} (he : -1074 ≤ e) (hle : e ≤ f)
    (h : magnitudeUnits m e = magnitudeUnits r f) : m = r * 2 ^ (f - e).toNat := by
  have hexponent : (f + placesAfter).toNat = (f - e).toNat + (e + placesAfter).toNat := by
    rw [placesAfter]
    omega
  rw [magnitudeUnits, magnitudeUnits, hexponent, Nat.pow_add, ← Nat.mul_assoc] at h
  exact Nat.eq_of_mul_eq_mul_right (Nat.two_pow_pos _) h

-- A value that fits a full significand is encoded exactly.
theorem nearestDyadic_eq {r : Nat} {f : Int} (hfull : 2 ^ 52 ≤ r) (hr : r < 2 ^ 53)
    (hf : -1074 ≤ f) (hf' : f ≤ 971) (he : -1074 ≤ e)
    (h : magnitudeUnits m e = magnitudeUnits r f) :
    Format.double.nearestDyadic m e = (f + 1074).toNat * 2 ^ 52 + r := by
  have hm : 0 < m := by
    refine Nat.pos_of_ne_zero fun hzero => ?_
    have hpositive := magnitudeUnits_pos (e := f) (m := r) (by omega)
    rw [← h, hzero, magnitudeUnits, Nat.zero_mul] at hpositive
    exact absurd hpositive (Nat.lt_irrefl 0)
  have hlog : m.log2 + (e + 1074).toNat = 52 + (f + 1074).toNat := by
    have hboth := congrArg Nat.log2 h
    rw [magnitudeUnits, magnitudeUnits, log2_mul_two_pow hm, log2_mul_two_pow (by omega),
      (Nat.log2_eq_iff (by omega)).mpr ⟨hfull, hr⟩] at hboth
    exact hboth
  have hlowest : Format.double.lowestExponent = -1074 := rfl
  have hprecision : Format.double.precision = 53 := rfl
  have hend : Format.double.infinityBits = 2047 * 2 ^ 52 := by decide +kernel
  have hlast : max (-1074) (e + m.log2 - ((53 - 1 : Nat) : Int)) = f := by omega
  have hbits : ((f - -1074).toNat <<< (53 - 1) + r) = (f + 1074).toNat * 2 ^ 52 + r := by
    rw [Nat.shiftLeft_eq, Int.sub_neg]
  have hbelow : (f + 1074).toNat * 2 ^ 52 + r ≤ 2047 * 2 ^ 52 := by omega
  rw [Format.nearestDyadic, if_neg hm.ne']
  simp only [hlowest, hprecision, hlast, hend]
  by_cases hup : f ≤ e
  · have hr : m <<< (e - f).toNat = r := by
      rw [Nat.shiftLeft_eq]
      exact (magnitudeUnits_eq hf hup h.symm).symm
    rw [if_pos hup, hr, hbits, Nat.min_eq_right hbelow]
  · have hm := magnitudeUnits_eq he (by omega) h
    have hkept : m >>> (f - e).toNat = r := by
      rw [hm, Nat.shiftRight_eq_div_pow, Nat.mul_div_cancel _ (Nat.two_pow_pos _)]
    have hrest : m - r <<< (f - e).toNat = 0 := by
      rw [hm, Nat.shiftLeft_eq, Nat.sub_self]
    have hhalf : 0 < 1 <<< ((f - e).toNat - 1) := by
      rw [Nat.one_shiftLeft]
      exact Nat.two_pow_pos _
    rw [if_neg hup, hkept, hrest, if_neg (by omega), hbits, Nat.min_eq_right hbelow]

theorem ofFloat_toFloat {value : Binary} (h : Format.double.encode value < 2 ^ 64) :
    Binary.ofFloat value.toFloat = Format.double.decode (Format.double.encode value) := by
  rw [Binary.toFloat, ofFloat_ofBits, UInt64.toNat_ofNat_of_lt' h]

theorem decode_full (negative : Bool) {r : Nat} {f : Int} (hfull : 2 ^ 52 ≤ r) (hr : r < 2 ^ 53)
    (hf : -1074 ≤ f) (hf' : f ≤ 971) :
    Format.double.decode
      ((if negative then 2 ^ 63 else 0) + ((f + 1074).toNat * 2 ^ 52 + r)) =
        .finite negative r f := by
  obtain ⟨bits, hbits⟩ : ∃ bits, bits =
    (if negative then 2 ^ 63 else 0) + ((f + 1074).toNat * 2 ^ 52 + r) := ⟨_, rfl⟩
  have hfield : bits / 2 ^ 52 % 2 ^ 11 = (f + 1075).toNat := by
    rw [hbits]
    split <;> omega
  have hfraction : bits % 2 ^ 52 + 2 ^ 52 = r := by
    rw [hbits]
    split <;> omega
  have hsign : decide (2 ^ 63 ≤ bits) = negative := by
    rw [hbits]
    cases negative with
    | false => exact decide_eq_false (by simp only [Bool.false_eq_true, if_false]; omega)
    | true => exact decide_eq_true (by simp only [if_true]; omega)
  have hexponent : -1074 + (((f + 1075).toNat : Int) - 1) = f := by omega
  rw [← hbits, decode_eq, hfield, if_neg (by omega), if_neg (by omega), hfraction, hsign, hexponent]

-- A value that is a whole number is rounded to itself.
theorem toFloat_whole (negative : Bool) (he : -1074 ≤ e) (hle : j ≤ 2 ^ 53)
    (h : magnitudeUnits m e = j * oneUnits) :
    IsNumber (Binary.finite negative m e).toFloat ∧
      units (Binary.finite negative m e).toFloat = withSign negative (j * oneUnits) := by
  have hsign : Format.double.signBit = 2 ^ 63 := rfl
  by_cases hj : j = 0
  · have hm : m = 0 := by
      rw [hj, Nat.zero_mul] at h
      exact Nat.eq_zero_of_not_pos fun hm => (magnitudeUnits_pos hm).ne' h
    have hdecoded : Binary.ofFloat (Binary.finite negative m e).toFloat =
        .finite negative 0 (-1074) := by
      have hbits : Format.double.encode (.finite negative 0 e) =
          if negative then 2 ^ 63 else 0 := by
        rw [Format.encode, Format.nearestDyadic, if_pos rfl, hsign, Nat.add_zero]
      rw [hm, ofFloat_toFloat (by rw [hbits]; split <;> omega), hbits]
      cases negative <;> decide +kernel
    rw [IsNumber, units, hdecoded, hj, Nat.zero_mul, Binary.units, magnitudeUnits, Nat.zero_mul]
    exact ⟨fun h => Binary.noConfusion h, rfl⟩
  · obtain ⟨r, f, hfull, hr, hlow, hhigh, hsame⟩ := exists_full (Nat.pos_of_ne_zero hj) hle
    have hnearest := nearestDyadic_eq hfull hr (by omega) (by omega) he (h.trans hsame.symm)
    have hdecoded : Binary.ofFloat (Binary.finite negative m e).toFloat =
        .finite negative r f := by
      have hbits : Format.double.encode (.finite negative m e) =
          (if negative then 2 ^ 63 else 0) + ((f + 1074).toNat * 2 ^ 52 + r) := by
        rw [Format.encode, hnearest, hsign]
      rw [ofFloat_toFloat (by rw [hbits]; split <;> omega), hbits]
      exact decode_full negative hfull hr (by omega) (by omega)
    rw [IsNumber, units, hdecoded, Binary.units, hsame]
    exact ⟨fun h => Binary.noConfusion h, rfl⟩

-- The whole part as a double.
theorem units_truncate {x : Float} (h : IsNumber x) :
    IsNumber (truncate x) ∧ units (truncate x) = (units x).tdiv oneUnits * oneUnits := by
  cases hparts : Binary.ofFloat x with
  | nan => exact absurd hparts h
  | infinite negative =>
      have hsame : truncate x = x := by
        unfold truncate
        rw [hparts]
      rw [hsame, units, hparts, Binary.units, withSign_tdiv, withSign_mul, endUnits,
        Nat.mul_div_cancel _ oneUnits_pos]
      exact ⟨h, rfl⟩
  | finite negative m e =>
      obtain ⟨he, hm⟩ := exponent_of_ofFloat hparts
      have hunits : (units x).tdiv oneUnits * oneUnits = withSign negative
          ((if 0 ≤ e then m <<< e.toNat else m >>> (-e).toNat) * oneUnits) := by
        rw [units, hparts, Binary.units, withSign_tdiv, withSign_mul, magnitudeUnits_div he]
      have htruncate : truncate x = if 0 ≤ e then x
          else (Binary.finite negative (m >>> (-e).toNat) 0).toFloat := by
        rw [truncate, hparts]
      rw [hunits, htruncate]
      by_cases hsign : 0 ≤ e
      · rw [if_pos hsign, if_pos hsign, units, hparts, Binary.units,
          magnitudeUnits_of_nonneg hsign]
        exact ⟨h, rfl⟩
      · have hfits : m >>> (-e).toNat ≤ 2 ^ 53 := by
          rw [Nat.shiftRight_eq_div_pow]
          exact (Nat.div_le_self _ _).trans hm.le
        have hwhole : magnitudeUnits (m >>> (-e).toNat) 0 = m >>> (-e).toNat * oneUnits :=
          magnitudeUnits_of_nonneg (le_refl 0)
        rw [if_neg hsign, if_neg hsign]
        exact toFloat_whole negative (by decide) hfits hwhole

end Whole

end MapAlgebra.Number
