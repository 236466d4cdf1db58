import MapAlgebra.Proofs.Number.Exact

namespace MapAlgebra.Number

open Float.Model (UnpackedFloat totalExponent)
open Float.Model.UnpackedFloat

-- A double is put together again from its parts.
theorem packed_parts (x : Float) : packed (parts x) = x := by
  obtain ⟨⟨⟨bits⟩, hvalid⟩⟩ := x
  have hback : pack layout (unpack layout bits) = bits := pack_unpack_of_valid hvalid
  simp only [packed, parts, Float.Model.pack, Float.Model.unpack, hback]

section Rounding

variable {m : Nat} {e : Int}

theorem shiftToTarget_canonical {sign : Sign} {hm : 0 < m} (h : Canonical (.finite sign m e hm))
    (k : Nat) : shiftToTargetExponent layout (m * 2 ^ k) (e - k) .exact =
      (extended (m * 2 ^ k) (1 * 2 ^ k), e) := by
  obtain ⟨hhigh, hlow, -, hfull⟩ := h
  have hlog := (Nat.log2_lt hm.ne').mpr hhigh
  have hbits : 2 ^ 52 ≤ m → 52 ≤ m.log2 := (Nat.le_log2 hm.ne').mpr
  have htarget : layout.targetExponent (totalExponent (m * 2 ^ k) (e - k)) = e := by
    show max (((m * 2 ^ k).log2 : Int) + 1 + (e - k) - 53) (-1074) = e
    rw [log2_mul_two_pow hm]
    omega
  have hshift : (e - (e - k)).toNat = k := by omega
  have hback : e - k + (k : Nat) = e := by omega
  rw [shiftToTargetExponent, shiftToExponent, htarget, hshift, ← shiftRight_extended Nat.one_pos,
    extended_one, hback]

-- A significand that a double can hold is not changed by rounding.
theorem roundWithAccuracy_canonical {sign : Sign} {hm : 0 < m}
    (h : Canonical (.finite sign m e hm)) (k : Nat) :
    roundWithAccuracy layout sign (m * 2 ^ k) (e - k) .exact = .finite sign m e hm := by
  have hkept := shiftToTarget_canonical h 0
  have hmantissa : (extended m 1).mantissa = m := by rw [extended_one]; rfl
  have hnearest : (extended (m * 2 ^ k) (1 * 2 ^ k)).roundedMantissa = m := by
    rw [Nat.one_mul]
    exact nearest_mul (Nat.two_pow_pos k) m
  rw [pow_zero, Nat.mul_one, Nat.mul_one, Int.natCast_zero, Int.sub_zero] at hkept
  rw [roundWithAccuracy, shiftToTarget_canonical h k]
  simp only [hnearest, hkept, hmantissa, hm.ne', dif_neg, not_false_eq_true]

-- What rounding gives is a double, except that its exponent can be too large.
theorem round_finite (sign : Sign) (hm : 0 < m) (he : -1074 ≤ e) : ∃ r f hr,
    Float.Model.UnpackedFloat.round layout sign m e = .finite sign r f hr ∧
      r < 2 ^ 53 ∧ -1074 ≤ f ∧ (2 ^ 52 ≤ r ∨ f = -1074) := by
  have htarget : layout.targetExponent (totalExponent m e) = max ((m.log2 : Int) + e - 52) (-1074) := by
    show max ((m.log2 : Int) + 1 + e - 53) (-1074) = _
    omega
  obtain ⟨k, hk⟩ : ∃ k, k = (e - max ((m.log2 : Int) + e - 52) (-1074)).toNat := ⟨_, rfl⟩
  have hlow : -1074 ≤ e - k := by omega
  have hpositive : 0 < m <<< k := by
    rw [Nat.shiftLeft_eq]
    exact Nat.mul_pos hm (Nat.two_pow_pos k)
  rw [Float.Model.UnpackedFloat.round, htarget, decreaseExponent, ← hk]
  by_cases hfull : 2 ^ 52 ≤ m <<< k
  · obtain ⟨r, f, hr, hround, hfull', hhigh, -, hf, -⟩ := roundWithAccuracy_full sign hlow
      Nat.one_pos ((Nat.div_one (m <<< k)).symm ▸ hfull)
    rw [Nat.div_one, Nat.mod_one] at hround
    exact ⟨r, f, hr, hround, hhigh, by omega, Or.inl hfull'⟩
  -- the significand is shorter only at the lowest exponent
  · have hlog : m.log2 + k < 52 := by
      have hshort := (Nat.log2_lt hpositive.ne').mpr (Nat.lt_of_not_le hfull)
      rwa [Nat.shiftLeft_eq, log2_mul_two_pow hm] at hshort
    have hlowest : e - k = -1074 := by omega
    have hcanonical : Canonical (.finite sign (m <<< k) (-1074) hpositive) :=
      ⟨by omega, le_refl _, by decide, Or.inr rfl⟩
    have hround := roundWithAccuracy_canonical hcanonical 0
    rw [pow_zero, Nat.mul_one, Int.natCast_zero, Int.sub_zero] at hround
    rw [hlowest]
    exact ⟨_, _, hpositive, hround, by omega, le_refl _, Or.inr rfl⟩

end Rounding

section Zeros

variable {x y : Float} {u v : UnpackedFloat}

-- Doubles other than the zero with a minus sign.
def Unminus (x : Float) : Prop := parts x ≠ .zero .negative

theorem unminus_packed (h : Canonical u) (hzero : u ≠ .zero .negative) : Unminus (packed u) := by
  intro hparts
  have hbinary := (ofFloat_parts (packed u)).symm.trans (ofFloat_pack h)
  rw [hparts] at hbinary
  cases u with
  | zero sign =>
      cases sign with
      | negative => exact hzero rfl
      | positive => cases hbinary
  | finite sign m e hm =>
      obtain ⟨-, hm', -⟩ := Binary.finite.inj hbinary
      exact hm.ne hm'
  | _ => cases hbinary

theorem packed_overflow {sign : Sign} {m : Nat} {e : Int} {hm : 0 < m} (he : 971 < e) :
    packed (.finite sign m e hm) = packed (.infinity sign) := by
  have hlarge : 2 ^ layout.exponentBits ≤
      (e + layout.exponentBias + layout.mantissaBitsWithoutImplicit).toNat + 1 := by
    show 2 ^ 11 ≤ (e + 1023 + 52).toNat + 1
    omega
  have hpack : pack layout (.finite sign m e hm) = pack layout (.infinity sign) := by
    simp only [pack, hlarge, if_true]
  simp only [packed, Float.Model.pack, hpack]

theorem unminus_round (sign : Sign) {m : Nat} {e : Int} (hm : 0 < m) (he : -1074 ≤ e) :
    Unminus (packed (Float.Model.UnpackedFloat.round layout sign m e)) := by
  obtain ⟨r, f, hr, hround, hhigh, hlow, hfull⟩ := round_finite sign hm he
  rw [hround]
  by_cases hf : f ≤ 971
  · exact unminus_packed ⟨hhigh, hlow, hf, hfull⟩ (by rintro ⟨⟩)
  · rw [packed_overflow (by omega)]
    exact unminus_packed trivial (by rintro ⟨⟩)

-- The sum of a number and what cancels it is a zero without a sign.
theorem unminus_normalize {k : Int} {e : Int} (he : -1074 ≤ e) :
    Unminus (packed (UnpackedFloat.normalize layout k e .positive)) := by
  rw [UnpackedFloat.normalize]
  rcases lt_trichotomy k 0 with hless | rfl | hmore
  · rw [compare_lt_iff_lt.mpr hless]
    exact unminus_round .negative (by omega) he
  · exact unminus_packed trivial (by rintro ⟨⟩)
  · rw [compare_gt_iff_gt.mpr hmore]
    exact unminus_round .positive (by omega) he

theorem unminus_add_parts (hu : Canonical u) (hv : Canonical v) (hzero : u ≠ .zero .negative) :
    Unminus (packed (u.add layout v)) := by
  cases u with
  | notANumber => exact unminus_packed trivial (by rintro ⟨⟩)
  | infinity sign =>
      cases v with
      | infinity sign' =>
          rw [UnpackedFloat.add]
          split <;> exact unminus_packed trivial (by rintro ⟨⟩)
      | _ => exact unminus_packed trivial (by rintro ⟨⟩)
  | zero sign =>
      cases sign with
      | negative => exact absurd rfl hzero
      | positive =>
          cases v with
          | zero sign' => cases sign' <;> exact unminus_packed trivial (by rintro ⟨⟩)
          | finite sign' n f hn => exact unminus_packed hv (by rintro ⟨⟩)
          | _ => exact unminus_packed trivial (by rintro ⟨⟩)
  | finite sign m e hm =>
      cases v with
      | zero sign' => exact unminus_packed hu (by rintro ⟨⟩)
      | finite sign' n f hn =>
          have hlow := hu.2.1
          have hlow' := hv.2.1
          exact unminus_normalize (by omega)
      | _ => exact unminus_packed trivial (by rintro ⟨⟩)

-- Only two such zeros add up to one.
theorem Unminus.add (h : Unminus x) (y : Float) : Unminus (x + y) :=
  unminus_add_parts (canonical_parts x) (canonical_parts y) h

theorem unminus_zero : Unminus 0 := by
  have hparts : parts 0 = .zero .positive := rfl
  rw [Unminus, hparts]
  rintro ⟨⟩

theorem Unminus.add_zero (h : Unminus x) : x + 0 = x := by
  have hparts : parts 0 = .zero .positive := rfl
  have hsum : (parts x).add layout (parts 0) = parts x := by
    rw [hparts]
    cases hx : parts x with
    | zero sign =>
        cases sign with
        | negative => exact absurd hx h
        | positive => rfl
    | _ => rfl
  exact (congrArg packed hsum).trans (packed_parts x)

end Zeros

theorem float_mul_one (x : Float) : x * 1 = x := by
  have hparts : parts 1 = .finite .positive (2 ^ 52) (-52) (by decide) := rfl
  have hproduct : (parts x).mul layout (parts 1) = parts x := by
    have hcanonical := canonical_parts x
    rw [hparts]
    cases hx : parts x with
    | notANumber => rfl
    | infinity sign => cases sign <;> rfl
    | zero sign => cases sign <;> rfl
    | finite sign m e hm =>
        rw [hx] at hcanonical
        have hround := roundWithAccuracy_canonical hcanonical 52
        cases sign <;> exact hround
  exact (congrArg packed hproduct).trans (packed_parts x)

end MapAlgebra.Number
