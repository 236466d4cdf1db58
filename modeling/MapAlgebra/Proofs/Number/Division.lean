import MapAlgebra.Proofs.Number.Arithmetic

namespace MapAlgebra.Number

open Float.Model (UnpackedFloat totalExponent)
open Float.Model.UnpackedFloat

section Quotients

variable {num den a b s : Nat}

-- A rounded quotient of whole numbers of 53 bits does not reach the next whole number.
theorem nearest_quotient (hden : 0 < den) (hb : 0 < b) (ha : a ≤ 2 ^ 53)
    (hvalue : num * b = a * 2 ^ s * den) (hfull : 2 ^ 52 * den ≤ num) :
    nearest num den / 2 ^ s = a / b := by
  obtain ⟨hlow, hhigh, hnear⟩ := nearest_bounds num hden
  have hpower := Nat.two_pow_pos s
  have hdivision := Nat.div_add_mod' a b
  have hrest := Nat.mod_lt a hb
  apply le_antisymm
  · by_contra hover
    have hnext : (a / b + 1) * 2 ^ s ≤ nearest num den := by
      rw [← Nat.le_div_iff_mul_le hpower]
      omega
    have hgap : num * b + 2 ^ s * den ≤ (a / b + 1) * 2 ^ s * den * b := by
      have hmore : a + 1 ≤ (a / b + 1) * b := by
        rw [Nat.succ_mul]
        omega
      calc num * b + 2 ^ s * den = (a + 1) * (2 ^ s * den) := by rw [hvalue]; ring
        _ ≤ (a / b + 1) * b * (2 ^ s * den) := Nat.mul_le_mul_right _ hmore
        _ = (a / b + 1) * 2 ^ s * den * b := by ring
    have hreached : (a / b + 1) * 2 ^ s * den * b ≤ nearest num den * den * b :=
      Nat.mul_le_mul_right _ (Nat.mul_le_mul_right _ hnext)
    have hbound : 2 * (nearest num den * den * b) ≤ 2 * (num * b) + den * b := by
      calc 2 * (nearest num den * den * b) = 2 * (nearest num den * den) * b := by ring
        _ ≤ (2 * num + den) * b := Nat.mul_le_mul_right _ hnear
        _ = 2 * (num * b) + den * b := by ring
    have hwide : 2 * 2 ^ s ≤ b := by
      have hboth : 2 * 2 ^ s * den ≤ b * den := by
        rw [Nat.mul_assoc, Nat.mul_comm b]
        omega
      exact Nat.le_of_mul_le_mul_right hboth hden
    have hexact : num ≤ 2 ^ 52 * den := by
      have hscaled : num * b ≤ 2 ^ 52 * den * b := by
        calc num * b = a * 2 ^ s * den := hvalue
          _ ≤ 2 ^ 53 * 2 ^ s * den := Nat.mul_le_mul_right _ (Nat.mul_le_mul_right _ ha)
          _ = 2 ^ 52 * den * (2 * 2 ^ s) := by ring
          _ ≤ 2 ^ 52 * den * b := Nat.mul_le_mul_left _ hwide
      exact Nat.le_of_mul_le_mul_right hscaled hb
    obtain rfl : num = 2 ^ 52 * den := le_antisymm hexact hfull
    rw [nearest_mul hden] at hreached
    have hpositive := Nat.mul_pos hpower hden
    omega
  · rw [Nat.le_div_iff_mul_le hpower]
    refine le_trans ?_ hlow
    rw [Nat.le_div_iff_mul_le hden]
    refine Nat.le_of_mul_le_mul_right ?_ hb
    calc a / b * 2 ^ s * den * b = a / b * b * (2 ^ s * den) := by ring
      _ ≤ a * (2 ^ s * den) := Nat.mul_le_mul_right _ (Nat.div_mul_le_self a b)
      _ = num * b := by rw [hvalue]; ring

theorem significand_eq {m j : Nat} {e : Int} (he : -52 ≤ e)
    (h : magnitudeUnits m e = j * oneUnits) : m * 2 ^ (e + 52).toNat = j * 2 ^ 52 := by
  obtain ⟨rest, hrest⟩ : ∃ rest, placesAfter = 52 + rest := ⟨1022, rfl⟩
  have hexponent : (e + placesAfter).toNat = (e + 52).toNat + rest := by omega
  rw [magnitudeUnits, hexponent, oneUnits, hrest, Nat.pow_add, Nat.pow_add, ← Nat.mul_assoc,
    ← Nat.mul_assoc] at h
  exact Nat.eq_of_mul_eq_mul_right (Nat.two_pow_pos _) h

theorem divCore_full {m n : Nat} {e f : Int} (hm : m.log2 = 52) (hn : n.log2 = 52)
    (hlow : -1021 ≤ e - f) : divCore layout m e n f =
      ((m <<< 53) / n, e - f - 53, accuracyOfFraction ((m <<< 53) % n) n) := by
  have htotal : layout.targetExponent (totalExponent m e - totalExponent n f) = e - f - 53 := by
    show max (m.log2 + 1 + e - (n.log2 + 1 + f) - 53) (-1074) = _
    omega
  have hleast : min (e - f) (e - f - 53) = e - f - 53 := by omega
  have hshift : (e - f - (e - f - 53)).toNat = 53 := by omega
  rw [divCore]
  simp only [htotal, hleast, hshift]

-- The whole part of a rounded quotient.
theorem whole_quotient {m n j k : Nat} {e f : Int} (hm : 2 ^ 52 ≤ m) (hm' : m < 2 ^ 53)
    (hn : 2 ^ 52 ≤ n) (hn' : n < 2 ^ 53) (hj : j ≤ 2 ^ 53) (he : e + 52 = j.log2)
    (hk : 0 < k) (hk' : k ≤ 2 ^ 53) (hf : f + 52 = k.log2)
    (hmj : magnitudeUnits m e = j * oneUnits)
    (hnk : magnitudeUnits n f = k * oneUnits) {c : Nat} (hc : c = ((m <<< 53) / n).log2 - 52)
    (hfull : 2 ^ 52 ≤ (m <<< 53) / n) :
    magnitudeUnits (nearest (m <<< 53) (n * 2 ^ c)) (e - f - 53 + c) / oneUnits = j / k := by
  have hpositive : 0 < n * 2 ^ c := Nat.mul_pos (by omega) (Nat.two_pow_pos c)
  have hsplit : 52 + c = ((m <<< 53) / n).log2 := by
    have hlog := (Nat.le_log2 (by omega)).mpr hfull
    omega
  have hsmall : c ≤ 1 := by
    have hbelow : (m <<< 53) / n < 2 ^ 54 := by
      rw [Nat.div_lt_iff_lt_mul (by omega), Nat.shiftLeft_eq]
      omega
    have hlog := (Nat.log2_lt (by omega)).mpr hbelow
    omega
  have hlarge : 2 ^ 52 * (n * 2 ^ c) ≤ m <<< 53 := by
    have hquotient : 2 ^ (52 + c) ≤ (m <<< 53) / n := by
      rw [hsplit]
      exact Nat.log2_self_le (by omega)
    rw [Nat.le_div_iff_mul_le (by omega), Nat.pow_add] at hquotient
    calc 2 ^ 52 * (n * 2 ^ c) = 2 ^ 52 * 2 ^ c * n := by ring
      _ ≤ m <<< 53 := hquotient
  have hm₁ := significand_eq (by omega) hmj
  have hn₁ := significand_eq (by omega) hnk
  rw [he, Int.toNat_natCast] at hm₁
  rw [hf, Int.toNat_natCast] at hn₁
  have htop : j.log2 ≤ 53 := log2_le (by omega)
  have hlow : k.log2 ≤ 53 := log2_le (by omega)
  rw [magnitudeUnits_div (by omega)]
  by_cases hwhole : k.log2 + 53 < j.log2 + c
  -- Only two to the 53rd over one has a quotient of more than 53 bits.
  · obtain rfl : c = 1 := by omega
    have hone : k < 2 ^ 1 := (Nat.log2_lt hk.ne').mp (by omega)
    obtain rfl : k = 1 := by omega
    have hlog' : Nat.log2 1 = 0 := rfl
    rw [hlog'] at hwhole hn₁ hf
    obtain rfl : j = 2 ^ 53 := by
      by_contra hless
      have hlog := log2_le (j := j) (k := 52) (by omega)
      omega
    have hlog : Nat.log2 (2 ^ 53) = 53 := Nat.log2_two_pow
    rw [hlog] at hm₁ he
    obtain rfl : m = 2 ^ 52 := by omega
    obtain rfl : n = 2 ^ 52 := by omega
    have hexponent : e - f - 53 + (1 : Nat) = 1 := by omega
    have hshift : 2 ^ 52 <<< 53 = 2 ^ 52 * (2 ^ 52 * 2 ^ 1) := by decide +kernel
    rw [hexponent, hshift, nearest_mul (by omega)]
    rfl
  · obtain ⟨s, hs⟩ : ∃ s, s + (j.log2 + c) = k.log2 + 53 :=
      ⟨k.log2 + 53 - (j.log2 + c), by omega⟩
    have hvalue : m <<< 53 * k = j * 2 ^ s * (n * 2 ^ c) := by
      refine Nat.eq_of_mul_eq_mul_right (Nat.two_pow_pos j.log2) ?_
      calc m <<< 53 * k * 2 ^ j.log2 = m * 2 ^ j.log2 * k * 2 ^ 53 := by
            rw [Nat.shiftLeft_eq]
            ring
        _ = j * (n * 2 ^ k.log2) * 2 ^ 53 := by rw [hm₁, hn₁]; ring
        _ = j * n * 2 ^ (k.log2 + 53) := by ring
        _ = j * 2 ^ s * (n * 2 ^ c) * 2 ^ j.log2 := by rw [← hs]; ring
    have hquotient := nearest_quotient hpositive hk hj hvalue hlarge
    have hexponent : (-(e - f - 53 + c)).toNat = s := by omega
    by_cases hzero : 0 ≤ e - f - 53 + c
    · have hzero : (e - f - 53 + c).toNat = 0 := by omega
      obtain rfl : s = 0 := by omega
      rw [Nat.pow_zero, Nat.div_one] at hquotient
      rw [if_pos (by omega), hzero, Nat.shiftLeft_zero, hquotient]
    · rw [if_neg hzero, hexponent, Nat.shiftRight_eq_div_pow, hquotient]

end Quotients

theorem apply_tdiv_apply (sign sign' : Sign) (j k : Nat) :
    (sign.apply j).tdiv (sign'.apply k) = (sign / sign').apply (j / k : Nat) := by
  have hquotient := (Int.ofNat_tdiv j k).symm
  cases sign <;> cases sign'
  · exact (Int.neg_tdiv_neg _ _).trans hquotient
  · exact (Int.neg_tdiv _ _).trans (congrArg _ hquotient)
  · exact (Int.tdiv_neg _ _).trans (congrArg _ hquotient)
  · exact hquotient

theorem apply_tdiv (sign : Sign) (j k : Nat) :
    (sign.apply j).tdiv k = sign.apply (j / k : Nat) := by
  have hquotient := (Int.ofNat_tdiv j k).symm
  cases sign
  · exact (Int.neg_tdiv _ _).trans (congrArg _ hquotient)
  · exact hquotient

variable {u v : UnpackedFloat} {a b : Int}

theorem magnitudeUnits_add {m : Nat} {e : Int} (he : -1074 ≤ e) (k : Nat) :
    magnitudeUnits m (e + k) = 2 ^ k * magnitudeUnits m e := by
  have hexponent : (e + k + placesAfter).toNat = k + (e + placesAfter).toNat := by
    rw [placesAfter]
    omega
  rw [magnitudeUnits, magnitudeUnits, hexponent, Nat.pow_add, Nat.mul_left_comm]

-- The quotient need not be a whole number, but its whole part is right, also after it is scaled up.
theorem Exactly.div_scaled (hu : Exactly u a) (hv : Exactly v b) (hb : b ≠ 0) (k : Nat)
    (ha : 2 ^ k * a.natAbs ≤ 2 ^ 53) : IsNumber (packed (u.div layout v)) ∧
      (2 ^ k * units (packed (u.div layout v))).tdiv oneUnits = (2 ^ k * a).tdiv b := by
  obtain ⟨sign', rfl, rfl⟩ | ⟨sign', n, f, hn, l, rfl, rfl, hl, hfull', htop', hf, hnl⟩ := hv.cases
  · exact absurd rfl hb
  · obtain ⟨sign, rfl, rfl⟩ | ⟨sign, m, e, hm, j, rfl, rfl, hj, hfull, htop, he, hmj⟩ := hu.cases
    · have hzero := (Exactly.zero (sign / sign')).near
      rw [UnpackedFloat.div, hzero.exact (by decide), Int.zero_mul, Int.mul_zero, Int.zero_tdiv,
        Int.zero_tdiv]
      exact ⟨hzero.number, rfl⟩
    · rw [natAbs_apply, Nat.mul_comm] at ha
      have hlpos : 0 < l := (log2_whole hn (by omega) hnl).1
      have hjpos : 0 < j := (log2_whole hm (by omega) hmj).1
      have hjlog : j.log2 ≤ 53 := log2_le (by omega)
      have hllog : l.log2 ≤ 53 := log2_le (by omega)
      have hlogm : m.log2 = 52 := (Nat.log2_eq_iff hm.ne').mpr ⟨hfull, htop⟩
      have hlogn : n.log2 = 52 := (Nat.log2_eq_iff hn.ne').mpr ⟨hfull', htop'⟩
      have hquotient : 2 ^ 52 ≤ m <<< 53 / n := by
        rw [Nat.le_div_iff_mul_le hn, Nat.shiftLeft_eq]
        omega
      have hsmall : m <<< 53 / n < 2 ^ 54 := by
        rw [Nat.div_lt_iff_lt_mul hn, Nat.shiftLeft_eq]
        omega
      have hlog := (Nat.log2_lt (by omega)).mpr hsmall
      have hmj' : magnitudeUnits m (e + k) = j * 2 ^ k * oneUnits := by
        rw [magnitudeUnits_add (by omega), hmj, ← Nat.mul_assoc, Nat.mul_comm (2 ^ k)]
      have hlogj : e + k + 52 = (j * 2 ^ k).log2 := by
        rw [log2_mul_two_pow hjpos]
        omega
      have hwhole := whole_quotient hfull htop hfull' htop' ha hlogj hlpos hl hf hmj' hnl rfl hquotient
      obtain ⟨r, g, hr, hround, hrfull, hrtop, hg, hg', hunits⟩ :=
        roundWithAccuracy_full (sign / sign') (e := e - f - 53) (by omega) hn hquotient
      have hcanonical : Canonical (.finite (sign / sign') r g hr) :=
        ⟨hrtop, by omega, by omega, Or.inl hrfull⟩
      have hcore := divCore_full (e := e) (f := f) hlogm hlogn (by omega)
      have hexponent : ∀ c : Nat, e + k - f - 53 + c = e - f - 53 + c + k := fun c => by omega
      rw [hexponent, magnitudeUnits_add (by omega), Nat.mul_comm] at hwhole
      have hscaled : ∀ (sign : Sign) (i : Nat), 2 ^ k * sign.apply i = sign.apply (i * 2 ^ k : Nat) :=
        fun sign i => by
          rw [apply_mul, Int.natCast_pow, Int.mul_comm]
          rfl
      rw [UnpackedFloat.div]
      simp only [hcore, hround]
      refine ⟨isNumber_pack hcanonical nofun, ?_⟩
      rw [packed, units_pack hcanonical, units_finite, hunits, hscaled, hscaled, apply_tdiv, hwhole,
        apply_tdiv_apply]

theorem Exactly.div (hu : Exactly u a) (hv : Exactly v b) (hb : b ≠ 0) :
    IsNumber (packed (u.div layout v)) ∧
      (units (packed (u.div layout v))).tdiv oneUnits = a.tdiv b := by
  have hbound : 2 ^ 0 * a.natAbs ≤ 2 ^ 53 := by
    rw [pow_zero, Nat.one_mul]
    exact hu.bound
  have hscaled := hu.div_scaled hv hb 0 hbound
  rwa [pow_zero, Int.one_mul, Int.one_mul] at hscaled

end MapAlgebra.Number
