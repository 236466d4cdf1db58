import MapAlgebra.Proofs.Number.Integers

namespace MapAlgebra.Number

open Float.Model (UnpackedFloat)

-- A double that is a whole number of at most 53 bits.
def IsWhole (x : Float) (n : Int) : Prop := Exactly (parts x) n

variable {x y : Float} {n a b : Int}

theorem Near.isWhole (h : Near x n) (hn : n.natAbs ≤ 2 ^ 53) : IsWhole x n where
  canonical := canonical_parts x
  defined := isNumber_iff.mp h.number
  units_eq := by rw [← units_parts, h.exact hn]
  bound := hn

namespace IsWhole

theorem units_eq (h : IsWhole x n) : units x = n * oneUnits :=
  (units_parts x).trans (Exactly.units_eq h)

theorem isNumber (h : IsWhole x n) : IsNumber x := isNumber_iff.mpr h.defined

theorem of_units (hx : IsNumber x) (h : units x = n * oneUnits) (hn : n.natAbs ≤ 2 ^ 53) :
    IsWhole x n :=
  ⟨canonical_parts x, isNumber_iff.mp hx, (units_parts x).symm.trans h, hn⟩

theorem near (h : IsWhole x n) : Near x n where
  number := h.isNumber
  exact _ := h.units_eq
  above hle := by
    have hn : n = 2 ^ 53 := by have := h.bound; omega
    rw [h.units_eq, hn]
  below hle := by
    have hn : n = -2 ^ 53 := by have := h.bound; omega
    rw [h.units_eq, hn]

theorem lt_iff (hx : IsWhole x a) (hy : IsWhole y b) : x < y ↔ a < b := by
  rw [lt_iff_units hx.isNumber hy.isNumber, hx.units_eq, hy.units_eq]
  exact Int.mul_lt_mul_right (Int.natCast_pos.mpr oneUnits_pos)

theorem le_iff (hx : IsWhole x a) (hy : IsWhole y b) : x ≤ y ↔ a ≤ b := by
  rw [le_iff_units hx.isNumber hy.isNumber, hx.units_eq, hy.units_eq]
  exact Int.mul_le_mul_right (Int.natCast_pos.mpr oneUnits_pos)

theorem beq_iff (hx : IsWhole x a) (hy : IsWhole y b) : (x == y) = true ↔ a = b := by
  rw [beq_iff_units hx.isNumber hy.isNumber, hx.units_eq, hy.units_eq]
  exact Int.mul_eq_mul_right_iff (Int.natCast_ne_zero.mpr oneUnits_pos.ne')

theorem wholePart_eq (h : IsWhole x n) : wholePart x = n := by
  rw [Number.wholePart_eq, h.units_eq]
  exact Int.mul_tdiv_cancel _ (Int.natCast_ne_zero.mpr oneUnits_pos.ne')

theorem neg (h : IsWhole x n) : IsWhole (-x) (-n) :=
  h.near.neg.isWhole (by rw [Int.natAbs_neg]; exact h.bound)

theorem zero : IsWhole 0 0 := by
  have h : (0 : Float) = ofInt 0 := rfl
  rw [h]
  exact (near_ofInt (by decide)).isWhole (by decide)

theorem one : IsWhole 1 1 := by
  have h : (1 : Float) = ofInt 1 := rfl
  rw [h]
  exact (near_ofInt (by decide)).isWhole (by decide)

theorem of_toFloat {m j : Nat} {e : Int} (negative : Bool) (he : -1074 ≤ e) (hj : j ≤ 2 ^ 53)
    (h : magnitudeUnits m e = j * oneUnits) :
    IsWhole (Binary.finite negative m e).toFloat (withSign negative j) := by
  obtain ⟨hnumber, hunits⟩ := toFloat_whole negative he hj h
  refine of_units hnumber (hunits.trans (withSign_mul _ _ _).symm) ?_
  cases negative with
  | false => exact hj
  | true => exact (Int.natAbs_neg _).trans_le hj

-- The parts of a whole double, in the form in which doubles are taken apart.
theorem ofFloat (h : IsWhole x n) : ∃ (negative : Bool) (m : Nat) (e : Int) (j : Nat),
    Binary.ofFloat x = .finite negative m e ∧ n = withSign negative j ∧ j ≤ 2 ^ 53 ∧ -1074 ≤ e ∧
      magnitudeUnits m e = j * oneUnits := by
  rw [ofFloat_parts]
  obtain ⟨sign, hx, rfl⟩ | ⟨sign, m, e, hm, j, hx, rfl, hj, -, -, hlog, hunits⟩ := Exactly.cases h
  · refine ⟨isMinus sign, 0, -1074, 0, by rw [hx]; rfl, ?_, Nat.zero_le _, le_refl _, ?_⟩
    · cases sign <;> rfl
    · rw [magnitudeUnits, Nat.zero_mul, Nat.zero_mul]
  · refine ⟨isMinus sign, m, e, j, by rw [hx]; rfl, ?_, hj, by omega, hunits⟩
    cases sign <;> rfl

theorem truncate (h : IsWhole x n) : IsWhole (truncate x) n := by
  obtain ⟨hnumber, hunits⟩ := units_truncate h.isNumber
  refine of_units hnumber ?_ h.bound
  rw [hunits, ← Number.wholePart_eq, h.wholePart_eq]

-- There is nothing to round up or down.
theorem floor (h : IsWhole x n) : IsWhole (floor x) n := by
  have hnot : ¬ x < Number.truncate x := fun hless => lt_irrefl n ((h.lt_iff h.truncate).mp hless)
  rw [Number.floor]
  simp only [hnot, if_false]
  exact h.truncate

theorem ceiling (h : IsWhole x n) : IsWhole (ceiling x) n := by
  have hnot : ¬ Number.truncate x < x := fun hless => lt_irrefl n ((h.truncate.lt_iff h).mp hless)
  rw [Number.ceiling]
  simp only [hnot, if_false]
  exact h.truncate

theorem round (h : IsWhole x n) : IsWhole (round x) n := by
  obtain ⟨negative, m, e, j, hx, rfl, hj, he, hunits⟩ := h.ofFloat
  have hround : Number.round x = if 0 ≤ e then x
      else (Binary.finite negative
        ((m + 1 <<< ((-e).toNat - 1)) >>> (-e).toNat) 0).toFloat := by
    rw [Number.round, hx]
  have hwhole : magnitudeUnits j 0 = j * oneUnits := magnitudeUnits_of_nonneg (le_refl 0)
  rw [hround]
  by_cases hsign : 0 ≤ e
  · rw [if_pos hsign]
    exact h
  · have hm := magnitudeUnits_eq he (by omega) (hunits.trans hwhole.symm)
    have hhalf : 2 ^ ((-e).toNat - 1) < 2 ^ (-e).toNat :=
      Nat.pow_lt_pow_right Nat.one_lt_two (by omega)
    have hrounded : (m + 1 <<< ((-e).toNat - 1)) >>> (-e).toNat = j := by
      rw [hm, Int.zero_sub, Nat.one_shiftLeft, Nat.shiftRight_eq_div_pow, Nat.mul_comm,
        Nat.mul_add_div (Nat.two_pow_pos _), Nat.div_eq_of_lt hhalf, Nat.add_zero]
    rw [if_neg hsign, hrounded]
    exact of_toFloat negative (by decide) hj hwhole

theorem isNegative_eq {negative : Bool} {m : Nat} {e : Int}
    (h : Binary.ofFloat x = .finite negative m e) : isNegative x = negative := by
  rw [Binary.ofFloat, decode_eq] at h
  split_ifs at h
  all_goals exact (Binary.finite.inj h).1

theorem magnitude (h : IsWhole x n) : IsWhole (magnitude x) n.natAbs := by
  obtain ⟨negative, m, e, j, hx, hn, -, -, -⟩ := h.ofFloat
  rw [Number.magnitude, isNegative_eq hx]
  cases negative with
  | false =>
      have hsame : (n.natAbs : Int) = n := by
        rw [hn]
        rfl
      rw [hsame]
      exact h
  | true =>
      have hnegated : (n.natAbs : Int) = -n := by
        rw [hn]
        show ((-(j : Int)).natAbs : Int) = -(-(j : Int))
        omega
      rw [hnegated]
      exact h.neg

theorem larger (hx : IsWhole x a) (hy : IsWhole y b) : IsWhole (larger x y) (max a b) := by
  have hless := hx.lt_iff hy
  rw [Number.larger, hx.isNumber.isNaN_eq]
  by_cases h : a < b
  · have hless := hless.mpr h
    simp only [hless, if_true, Bool.false_eq_true, if_false, Int.max_eq_right h.le]
    exact hy
  · have hless := mt hless.mp h
    simp only [hless, Bool.false_eq_true, if_false, Int.max_eq_left (Int.not_lt.mp h)]
    exact hx

theorem smaller (hx : IsWhole x a) (hy : IsWhole y b) : IsWhole (smaller x y) (min a b) := by
  have hless := hy.lt_iff hx
  rw [Number.smaller, hx.isNumber.isNaN_eq]
  by_cases h : b < a
  · have hless := hless.mpr h
    simp only [hless, if_true, Bool.false_eq_true, if_false, Int.min_eq_right h.le]
    exact hy
  · have hless := mt hless.mp h
    simp only [hless, Bool.false_eq_true, if_false, Int.min_eq_left (Int.not_lt.mp h)]
    exact hx

theorem withSign_tmod (negative negative' : Bool) (j k : Nat) :
    (withSign negative j).tmod (withSign negative' k) = withSign negative (j % k) := by
  have hrest := (Int.ofNat_tmod j k).symm
  cases negative <;> cases negative'
  · exact hrest
  · exact (Int.tmod_neg _ _).trans hrest
  · exact (Int.neg_tmod _ _).trans (congrArg _ hrest)
  · exact (Int.tmod_neg _ _).trans ((Int.neg_tmod _ _).trans (congrArg _ hrest))

theorem remainder (hx : IsWhole x a) (hy : IsWhole y b) (hb : b ≠ 0) :
    IsWhole (remainder x y) (a.tmod b) := by
  obtain ⟨negative, m, e, j, hparts, rfl, hj, he, hm⟩ := hx.ofFloat
  obtain ⟨negative', n, f, k, hparts', rfl, hk, hf, hn⟩ := hy.ofFloat
  have hpositive : n ≠ 0 := by
    rintro rfl
    rw [magnitudeUnits, Nat.zero_mul] at hn
    obtain rfl : k = 0 := (Nat.mul_eq_zero.mp hn.symm).resolve_right oneUnits_pos.ne'
    cases negative' <;> exact hb rfl
  have hrest : Number.remainder x y = (Binary.finite negative
      ((m <<< (e - min e f).toNat) % (n <<< (f - min e f).toNat)) (min e f)).toFloat := by
    rw [Number.remainder, hparts, hparts']
    simp only [hpositive, if_false]
  have hunits : magnitudeUnits ((m <<< (e - min e f).toNat) % (n <<< (f - min e f).toNat))
      (min e f) = j % k * oneUnits := by
    have hm' : magnitudeUnits (m <<< (e - min e f).toNat) (min e f) = j * oneUnits :=
      (magnitudeUnits_shiftLeft (by omega) (by omega)).trans hm
    have hn' : magnitudeUnits (n <<< (f - min e f).toNat) (min e f) = k * oneUnits :=
      (magnitudeUnits_shiftLeft (by omega) (by omega)).trans hn
    rw [← Nat.mul_mod_mul_right, ← hm', ← hn', magnitudeUnits, magnitudeUnits, magnitudeUnits,
      Nat.mul_mod_mul_right]
  rw [hrest, withSign_tmod]
  exact of_toFloat negative (by omega) ((Nat.mod_le _ _).trans hj) hunits

theorem add (hx : IsWhole x a) (hy : IsWhole y b) : Near (x + y) (a + b) := Exactly.add hx hy

theorem sub (hx : IsWhole x a) (hy : IsWhole y b) : Near (x - y) (a - b) := Exactly.sub hx hy

theorem mul (hx : IsWhole x a) (hy : IsWhole y b) : Near (x * y) (a * b) := Exactly.mul hx hy

theorem quotient (hx : IsWhole x a) (hy : IsWhole y b) (hb : b ≠ 0) :
    IsWhole (Number.truncate (x / y)) (a.tdiv b) := by
  have hnumber : IsNumber (x / y) := (Exactly.div hx hy hb).1
  have hwhole : (units (x / y)).tdiv oneUnits = a.tdiv b := (Exactly.div hx hy hb).2
  obtain ⟨hnumber', hunits⟩ := units_truncate hnumber
  refine of_units hnumber' (by rw [hunits, hwhole]) ?_
  rw [Int.natAbs_tdiv]
  exact (Nat.div_le_self _ _).trans hx.bound

end IsWhole

end MapAlgebra.Number
