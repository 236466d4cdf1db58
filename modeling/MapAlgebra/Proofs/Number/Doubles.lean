import MapAlgebra.Number.Real
import Mathlib

namespace MapAlgebra.Number

open Float.Model (UnpackedFloat)
open Float.Model.UnpackedFloat (Sign)

abbrev layout : Float.Model.Format := Float.Model.Format.binary64

-- A double taken apart.
def parts (x : Float) : UnpackedFloat := x.toModel.unpack

-- Significands of doubles fill their 53 bits, unless the exponent is the lowest one.
def Canonical : UnpackedFloat → Prop
  | .finite _ m e _ => m < 2 ^ 53 ∧ -1074 ≤ e ∧ e ≤ 971 ∧ (2 ^ 52 ≤ m ∨ e = -1074)
  | _ => True

def isMinus : Sign → Bool
  | .negative => true
  | .positive => false

def Binary.ofParts : UnpackedFloat → Binary
  | .notANumber => .nan
  | .infinity sign => .infinite (isMinus sign)
  | .zero sign => .finite (isMinus sign) 0 (-1074)
  | .finite sign m e _ => .finite (isMinus sign) m e

section Decoding

theorem decode_eq (bits : Nat) : Format.double.decode bits =
    if bits / 2 ^ 52 % 2 ^ 11 = 2047 then
      if bits % 2 ^ 52 = 0 then .infinite (decide (2 ^ 63 ≤ bits)) else .nan
    else if bits / 2 ^ 52 % 2 ^ 11 = 0 then
      .finite (decide (2 ^ 63 ≤ bits)) (bits % 2 ^ 52) (-1074)
    else .finite (decide (2 ^ 63 ≤ bits)) (bits % 2 ^ 52 + 2 ^ 52)
      (-1074 + ((bits / 2 ^ 52 % 2 ^ 11 : Nat) - 1)) := by
  rw [← Nat.shiftRight_eq_div_pow]
  rfl

open Float.Model.UnpackedFloat

theorem unpackMantissa_toNat (b : BitVec 64) :
    (@unpackMantissa layout b).toNat = b.toNat % 2 ^ 52 := by
  simp [unpackMantissa]

theorem unpackExponent_toNat (b : BitVec 64) :
    (@unpackExponent layout b).toNat = b.toNat / 2 ^ 52 % 2 ^ 11 := by
  simp [unpackExponent, Nat.shiftRight_eq_div_pow]

theorem unpackSign_eq (b : BitVec 64) :
    isMinus (Sign.ofBitVec (@unpackSign layout b)) = decide (2 ^ 63 ≤ b.toNat) := by
  have hsign : (@unpackSign layout b).toNat = b.toNat / 2 ^ 63 % 2 := by
    simp [unpackSign, Nat.shiftRight_eq_div_pow]
  have hlt := b.isLt
  by_cases h : 2 ^ 63 ≤ b.toNat
  · have hminus : @unpackSign layout b ≠ 0#1 := by
      intro hzero
      rw [hzero, BitVec.toNat_ofNat] at hsign
      omega
    rw [Sign.ofBitVec, if_neg hminus, decide_eq_true h]
    rfl
  · have hplus : @unpackSign layout b = 0#1 := by
      apply BitVec.eq_of_toNat_eq
      rw [hsign, BitVec.toNat_ofNat]
      omega
    rw [Sign.ofBitVec, if_pos hplus, decide_eq_false h]
    rfl

theorem ofParts_unpack (b : BitVec 64) :
    Binary.ofParts (unpack layout b) = Format.double.decode b.toNat := by
  have hm := unpackMantissa_toNat b
  have he := unpackExponent_toNat b
  rw [decode_eq, ← he, ← hm, ← unpackSign_eq]
  have htop : @unpackExponent layout b = -1#_ ↔
      (@unpackExponent layout b).toNat = 2047 :=
    ⟨fun h => by rw [h]; rfl, fun h => BitVec.eq_of_toNat_eq h⟩
  have hbottom : @unpackExponent layout b = 0#_ ↔
      (@unpackExponent layout b).toNat = 0 :=
    ⟨fun h => by rw [h]; rfl, fun h => BitVec.eq_of_toNat_eq h⟩
  have hempty : @unpackMantissa layout b = 0#_ ↔
      (@unpackMantissa layout b).toNat = 0 :=
    ⟨fun h => by rw [h]; rfl, fun h => BitVec.eq_of_toNat_eq h⟩
  have hleading : (1#1 ++ @unpackMantissa layout b).toNat =
      (@unpackMantissa layout b).toNat + 2 ^ 52 := by
    rw [BitVec.toNat_append, ← Nat.shiftLeft_add_eq_or_of_lt (BitVec.isLt _), Nat.add_comm]
    rfl
  by_cases hspecial : (@unpackExponent layout b).toNat = 2047
  · rw [if_pos hspecial, unpack, if_pos (htop.mpr hspecial)]
    by_cases hzero : (@unpackMantissa layout b).toNat = 0
    · rw [if_pos hzero, if_pos (hempty.mpr hzero)]
      rfl
    · rw [if_neg hzero, if_neg (hzero ∘ hempty.mp)]
      rfl
  · rw [if_neg hspecial, unpack, if_neg (hspecial ∘ htop.mp)]
    by_cases hlow : (@unpackExponent layout b).toNat = 0
    · rw [if_pos hlow, if_pos (hbottom.mpr hlow)]
      by_cases hzero : (@unpackMantissa layout b).toNat = 0
      · rw [dif_pos (hempty.mpr hzero), hzero]
        rfl
      · rw [dif_neg (hzero ∘ hempty.mp)]
        simp only [Binary.ofParts, hlow]
        rfl
    · rw [if_neg hlow, if_neg (hlow ∘ hbottom.mp)]
      simp only [Binary.ofParts, hleading, Binary.finite.injEq, true_and]
      show ((@unpackExponent layout b).toNat : Int) - 1075 = _
      omega

theorem canonical_unpack (b : BitVec 64) : Canonical (unpack layout b) := by
  have hdecoded := ofParts_unpack b
  cases hparts : unpack layout b with
  | finite sign m e hm =>
      rw [hparts, decode_eq, Binary.ofParts] at hdecoded
      have hexponent : b.toNat / 2 ^ 52 % 2 ^ 11 < 2 ^ 11 := Nat.mod_lt _ (by decide)
      have hmantissa : b.toNat % 2 ^ 52 < 2 ^ 52 := Nat.mod_lt _ (by decide)
      split_ifs at hdecoded
      all_goals
        obtain ⟨_, rfl, rfl⟩ := Binary.finite.inj hdecoded
        unfold Canonical
        omega
  | _ => trivial

theorem toNat_packComponents (sign : Sign) (exponent : BitVec 11) (mantissa : BitVec 52) :
    (packComponents layout sign exponent mantissa).toNat =
      (sign.toBitVec.toNat * 2 ^ 11 + exponent.toNat) * 2 ^ 52 + mantissa.toNat := by
  unfold packComponents
  rw [BitVec.toNat_append, ← Nat.shiftLeft_add_eq_or_of_lt (BitVec.isLt _), BitVec.toNat_append,
    ← Nat.shiftLeft_add_eq_or_of_lt (BitVec.isLt _), Nat.shiftLeft_eq, Nat.shiftLeft_eq]

theorem decode_packComponents (sign : Sign) (exponent : BitVec 11) (mantissa : BitVec 52)
    (hexponent : exponent.toNat ≠ 2047) :
    Format.double.decode (packComponents layout sign exponent mantissa).toNat =
      if exponent.toNat = 0 then .finite (isMinus sign) mantissa.toNat (-1074)
      else .finite (isMinus sign) (mantissa.toNat + 2 ^ 52)
        (-1074 + ((exponent.toNat : Nat) - 1)) := by
  have he := exponent.isLt
  have hm := mantissa.isLt
  have hs := sign.toBitVec.isLt
  have hbits := toNat_packComponents sign exponent mantissa
  have hfield : (packComponents layout sign exponent mantissa).toNat / 2 ^ 52 % 2 ^ 11 =
      exponent.toNat := by omega
  have hfraction : (packComponents layout sign exponent mantissa).toNat % 2 ^ 52 =
      mantissa.toNat := by omega
  have hsign : decide (2 ^ 63 ≤ (packComponents layout sign exponent mantissa).toNat) =
      isMinus sign := by
    cases sign with
    | negative =>
        have hone : Sign.negative.toBitVec.toNat = 1 := rfl
        exact decide_eq_true (by omega)
    | positive =>
        have hzero : Sign.positive.toBitVec.toNat = 0 := rfl
        exact decide_eq_false (by omega)
  rw [decode_eq, hfield, hfraction, hsign, if_neg hexponent]

theorem decode_pack {u : UnpackedFloat} (h : Canonical u) :
    Format.double.decode (pack layout u).toNat = Binary.ofParts u := by
  cases u with
  | notANumber => rfl
  | infinity sign => cases sign <;> rfl
  | zero sign => cases sign <;> rfl
  | finite sign m e hm =>
      obtain ⟨hlt, hlow, hhigh, hfull⟩ := h
      have hfits : ¬ 2 ^ layout.exponentBits ≤
          (e + layout.exponentBias + layout.mantissaBitsWithoutImplicit).toNat + 1 := by
        show ¬ 2 ^ 11 ≤ (e + 1023 + 52).toNat + 1
        omega
      by_cases hnormal : 2 ^ 52 ≤ m
      · have hlog : m.log2 + 1 = layout.mantissaBits := by
          show m.log2 + 1 = 53
          rw [(Nat.log2_eq_iff hm.ne').mpr ⟨hnormal, hlt⟩]
        have hexponent : (BitVec.ofNat 11 (e + 1023 + 52).toNat).toNat = (e + 1075).toNat := by
          rw [BitVec.toNat_ofNat, Nat.mod_eq_of_lt (by omega)]
          omega
        have hmantissa : (BitVec.ofNat 52 m).toNat = m - 2 ^ 52 := by
          rw [BitVec.toNat_ofNat]
          omega
        rw [pack]
        simp only [hfits, if_false, hlog, if_true]
        show Format.double.decode (packComponents layout sign
          (BitVec.ofNat 11 (e + 1023 + 52).toNat) (BitVec.ofNat 52 m)).toNat = _
        have hsum : m - 2 ^ 52 + 2 ^ 52 = m := by omega
        have hback : -1074 + (((e + 1075).toNat : Int) - 1) = e := by omega
        rw [decode_packComponents _ _ _ (by omega), if_neg (by omega), hexponent, hmantissa,
          hsum, hback, Binary.ofParts]
      · obtain rfl : e = -1074 := by omega
        have hlog : ¬ m.log2 + 1 = layout.mantissaBits := by
          show ¬ m.log2 + 1 = 53
          have := (Nat.log2_lt hm.ne').mpr (by omega : m < 2 ^ 52)
          omega
        have hmantissa : (BitVec.ofNat 52 m).toNat = m := by
          rw [BitVec.toNat_ofNat, Nat.mod_eq_of_lt (by omega)]
        rw [pack]
        simp only [hfits, if_false, hlog]
        show Format.double.decode (packComponents layout sign 0#11 (BitVec.ofNat 52 m)).toNat = _
        have hzero : (0#11).toNat = 0 := rfl
        rw [decode_packComponents _ _ _ (by omega), if_pos hzero, hmantissa, Binary.ofParts]

end Decoding

theorem ofFloat_parts (x : Float) : Binary.ofFloat x = Binary.ofParts (parts x) :=
  (ofParts_unpack x.toModel.toBits.toBitVec).symm

theorem canonical_parts (x : Float) : Canonical (parts x) := canonical_unpack _

theorem ofFloat_pack {u : UnpackedFloat} (h : Canonical u) :
    Binary.ofFloat (.ofModel (.pack u)) = Binary.ofParts u := decode_pack h

theorem ofFloat_ofBits (bits : UInt64) :
    Binary.ofFloat (Float.ofBits bits) = Format.double.decode bits.toNat :=
  (ofFloat_pack (canonical_unpack _)).trans (ofParts_unpack _)


-- Finite values are compared by their magnitudes.

def withSign (negative : Bool) (n : Nat) : Int := if negative then -(n : Int) else n

-- The binary places after the point, and those before it.
def placesAfter : Nat := 1074

def placesBefore : Nat := 1024

-- How often the smallest positive double goes into a magnitude, into one, and into the end of the
-- finite doubles.
def magnitudeUnits (m : Nat) (e : Int) : Nat := m * 2 ^ (e + placesAfter).toNat

def oneUnits : Nat := 2 ^ placesAfter

def endUnits : Nat := 2 ^ placesBefore * oneUnits

-- A value counted in the smallest positive double. An infinity lies beyond all finite values, and
-- not-a-number counts as zero.
def Binary.units : Binary → Int
  | .nan => 0
  | .infinite negative => withSign negative endUnits
  | .finite negative m e => withSign negative (magnitudeUnits m e)

def units (x : Float) : Int := (Binary.ofFloat x).units

theorem units_parts (x : Float) : units x = (Binary.ofParts (parts x)).units := by
  rw [units, ofFloat_parts]

theorem units_pack {u : UnpackedFloat} (h : Canonical u) :
    units (.ofModel (.pack u)) = (Binary.ofParts u).units := by
  rw [units, ofFloat_pack h]

section Order

variable {m n : Nat} {e f : Int}

theorem magnitudeUnits_pos (hm : 0 < m) : 0 < magnitudeUnits m e :=
  Nat.mul_pos hm (Nat.two_pow_pos _)

theorem oneUnits_pos : 0 < oneUnits := Nat.two_pow_pos placesAfter

theorem endUnits_pos : 0 < endUnits := Nat.mul_pos (Nat.two_pow_pos placesBefore) oneUnits_pos

theorem mul_pow_lt {a b : Nat} (hm : m < 2 ^ 53) (h : a ≤ b) : m * 2 ^ a < 2 ^ 53 * 2 ^ b :=
  Nat.lt_of_lt_of_le (Nat.mul_lt_mul_of_pos_right hm (Nat.two_pow_pos a))
    (Nat.mul_le_mul_left _ (Nat.pow_le_pow_right Nat.zero_lt_two h))

theorem magnitudeUnits_lt_end (hm : m < 2 ^ 53) (he : e ≤ 971) :
    magnitudeUnits m e < endUnits := by
  have hplaces : 53 + (placesBefore - 53 + placesAfter) = placesBefore + placesAfter := rfl
  have hend : 2 ^ 53 * 2 ^ (placesBefore - 53 + placesAfter) = endUnits := by
    rw [← Nat.pow_add, endUnits, oneUnits, ← Nat.pow_add, hplaces]
  have hexponent : (e + placesAfter).toNat ≤ placesBefore - 53 + placesAfter := by
    rw [placesBefore, placesAfter]
    omega
  rw [← hend]
  exact mul_pow_lt hm hexponent

-- A larger exponent wins, as the significand with it is full.
theorem magnitudeUnits_lt (hm : m < 2 ^ 53) (he : -1074 ≤ e) (hn : 2 ^ 52 ≤ n) (hlt : e < f) :
    magnitudeUnits m e < magnitudeUnits n f := by
  have hexponent : (e + placesAfter).toNat + 1 ≤ (f + placesAfter).toNat := by
    rw [placesAfter]
    omega
  calc magnitudeUnits m e
      < 2 ^ 53 * 2 ^ (e + placesAfter).toNat := Nat.mul_lt_mul_of_pos_right hm (Nat.two_pow_pos _)
    _ = 2 ^ 52 * 2 ^ ((e + placesAfter).toNat + 1) := by ring
    _ ≤ n * 2 ^ (f + placesAfter).toNat :=
        Nat.mul_le_mul hn (Nat.pow_le_pow_right Nat.zero_lt_two hexponent)

theorem compare_magnitudes (hm : m < 2 ^ 53) (hn : n < 2 ^ 53) (he : -1074 ≤ e) (hf : -1074 ≤ f)
    (hfull : 2 ^ 52 ≤ m ∨ e = -1074) (hfull' : 2 ^ 52 ≤ n ∨ f = -1074) :
    (compare e f).then (compare m n) = compare (magnitudeUnits m e) (magnitudeUnits n f) := by
  rcases lt_trichotomy e f with hlt | rfl | hgt
  · have hunits := magnitudeUnits_lt hm he (hfull'.resolve_right (by omega)) hlt
    rw [compare_lt_iff_lt.mpr hlt, compare_lt_iff_lt.mpr hunits]
    rfl
  · rw [compare_eq_iff_eq.mpr rfl, magnitudeUnits, magnitudeUnits]
    rcases lt_trichotomy m n with hlt | rfl | hgt
    · rw [compare_lt_iff_lt.mpr hlt,
        compare_lt_iff_lt.mpr (Nat.mul_lt_mul_of_pos_right hlt (Nat.two_pow_pos _))]
      rfl
    · rw [compare_eq_iff_eq.mpr rfl, compare_eq_iff_eq.mpr rfl]
      rfl
    · rw [compare_gt_iff_gt.mpr hgt,
        compare_gt_iff_gt.mpr (Nat.mul_lt_mul_of_pos_right hgt (Nat.two_pow_pos _))]
      rfl
  · have hunits := magnitudeUnits_lt hn hf (hfull.resolve_right (by omega)) hgt
    rw [compare_gt_iff_gt.mpr hgt, compare_gt_iff_gt.mpr hunits]
    rfl

theorem compare_neg (a b : Nat) : compare (-(a : Int)) (-(b : Int)) = (compare a b).swap := by
  rcases lt_trichotomy a b with hlt | rfl | hgt
  · rw [compare_lt_iff_lt.mpr hlt, compare_gt_iff_gt.mpr (by omega)]
    rfl
  · rw [compare_eq_iff_eq.mpr rfl, compare_eq_iff_eq.mpr rfl]
    rfl
  · rw [compare_gt_iff_gt.mpr hgt, compare_lt_iff_lt.mpr (by omega)]
    rfl

theorem compare_natCast (a b : Nat) : compare (a : Int) (b : Int) = compare a b := by
  rcases lt_trichotomy a b with hlt | rfl | hgt
  · rw [compare_lt_iff_lt.mpr hlt, compare_lt_iff_lt.mpr (by omega)]
  · rw [compare_eq_iff_eq.mpr rfl, compare_eq_iff_eq.mpr rfl]
  · rw [compare_gt_iff_gt.mpr hgt, compare_gt_iff_gt.mpr (by omega)]

theorem units_infinity (sign : Sign) :
    (Binary.ofParts (.infinity sign)).units = sign.apply endUnits := by
  cases sign <;> rfl

theorem units_zero (sign : Sign) : (Binary.ofParts (.zero sign)).units = 0 := by
  have hzero : magnitudeUnits 0 (-1074) = 0 := Nat.zero_mul _
  cases sign <;> rw [Binary.ofParts, Binary.units, hzero] <;> rfl

theorem units_finite (sign : Sign) (hm : 0 < m) :
    (Binary.ofParts (.finite sign m e hm)).units = sign.apply (magnitudeUnits m e) := by
  cases sign <;> rfl

-- Doubles are ordered as their multiples of the smallest positive one are.
theorem compare_parts {u v : UnpackedFloat} (hu : Canonical u) (hv : Canonical v)
    (hdefined : u ≠ .notANumber) (hdefined' : v ≠ .notANumber) :
    u.compare v = some (compare (Binary.ofParts u).units (Binary.ofParts v).units) := by
  have hless : ∀ {a b : Int}, a < b → some Ordering.lt = some (compare a b) :=
    fun h => congrArg some (compare_lt_iff_lt.mpr h).symm
  have hgreater : ∀ {a b : Int}, b < a → some Ordering.gt = some (compare a b) :=
    fun h => congrArg some (compare_gt_iff_gt.mpr h).symm
  have hequal : ∀ a : Int, some Ordering.eq = some (compare a a) :=
    fun a => congrArg some (compare_eq_iff_eq.mpr rfl).symm
  have hend := endUnits_pos
  cases u with
  | notANumber => exact absurd rfl hdefined
  | infinity sign =>
      rw [units_infinity]
      cases v with
      | notANumber => exact absurd rfl hdefined'
      | infinity sign' =>
          rw [units_infinity]
          cases sign <;> cases sign' <;> simp only [Sign.apply]
          · exact hequal _
          · exact hless (by omega)
          · exact hgreater (by omega)
          · exact hequal _
      | zero sign' =>
          rw [units_zero]
          cases sign <;> simp only [Sign.apply]
          · exact hless (by omega)
          · exact hgreater (by omega)
      | finite sign' n f hn =>
          have hfinite := magnitudeUnits_lt_end hv.1 hv.2.2.1
          rw [units_finite]
          cases sign <;> cases sign' <;> simp only [Sign.apply]
          · exact hless (by omega)
          · exact hless (by omega)
          · exact hgreater (by omega)
          · exact hgreater (by omega)
  | zero sign =>
      rw [units_zero]
      cases v with
      | notANumber => exact absurd rfl hdefined'
      | infinity sign' =>
          rw [units_infinity]
          cases sign' <;> simp only [Sign.apply]
          · exact hgreater (by omega)
          · exact hless (by omega)
      | zero sign' =>
          rw [units_zero]
          exact hequal 0
      | finite sign' n f hn =>
          have hpositive := magnitudeUnits_pos (e := f) hn
          rw [units_finite]
          cases sign' <;> simp only [Sign.apply]
          · exact hgreater (by omega)
          · exact hless (by omega)
  | finite sign m e hm =>
      have hpositive := magnitudeUnits_pos (e := e) hm
      have hfinite := magnitudeUnits_lt_end hu.1 hu.2.2.1
      rw [units_finite]
      cases v with
      | notANumber => exact absurd rfl hdefined'
      | infinity sign' =>
          rw [units_infinity]
          cases sign <;> cases sign' <;> simp only [Sign.apply]
          · exact hgreater (by omega)
          · exact hless (by omega)
          · exact hgreater (by omega)
          · exact hless (by omega)
      | zero sign' =>
          rw [units_zero]
          cases sign <;> simp only [Sign.apply]
          · exact hless (by omega)
          · exact hgreater (by omega)
      | finite sign' n f hn =>
          have hpositive' := magnitudeUnits_pos (e := f) hn
          have hcompare :=
            compare_magnitudes hu.1 hv.1 hu.2.1 hv.2.1 hu.2.2.2 hv.2.2.2
          rw [units_finite]
          cases sign <;> cases sign' <;> simp only [Sign.apply]
          · rw [compare_neg, ← hcompare]
            rfl
          · exact hless (by omega)
          · exact hgreater (by omega)
          · rw [compare_natCast, ← hcompare]
            rfl

end Order

-- Every double but not-a-number.
def IsNumber (x : Float) : Prop := Binary.ofFloat x ≠ .nan

variable {x y : Float}

theorem isNumber_iff : IsNumber x ↔ parts x ≠ .notANumber := by
  rw [IsNumber, ofFloat_parts]
  cases parts x <;> simp [Binary.ofParts]

theorem isNumber_pack {u : UnpackedFloat} (h : Canonical u) (hdefined : u ≠ .notANumber) :
    IsNumber (.ofModel (.pack u)) := by
  rw [IsNumber, ofFloat_pack h]
  cases u <;> simp_all [Binary.ofParts]

theorem IsNumber.isNaN_eq (h : IsNumber x) : x.isNaN = false := by
  have hparts := isNumber_iff.mp h
  show (parts x).isNaN = false
  cases hcase : parts x with
  | notANumber => exact absurd hcase hparts
  | _ => rfl

theorem compare_units (hx : IsNumber x) (hy : IsNumber y) :
    (parts x).compare (parts y) = some (compare (units x) (units y)) := by
  rw [units_parts, units_parts]
  exact compare_parts (canonical_parts x) (canonical_parts y) (isNumber_iff.mp hx)
    (isNumber_iff.mp hy)

theorem lt_iff_units (hx : IsNumber x) (hy : IsNumber y) : x < y ↔ units x < units y := by
  show decide (((parts x).compare (parts y) == some .lt) = true) = true ↔ _
  rw [decide_eq_true_iff, compare_units hx hy, beq_iff_eq, Option.some.injEq]
  exact compare_lt_iff_lt

theorem le_iff_units (hx : IsNumber x) (hy : IsNumber y) : x ≤ y ↔ units x ≤ units y := by
  show decide (((parts x).compare (parts y)).any (·.isLE) = true) = true ↔ _
  rw [decide_eq_true_iff, compare_units hx hy, Option.any_some]
  exact Std.isLE_compare

theorem beq_iff_units (hx : IsNumber x) (hy : IsNumber y) : (x == y) = true ↔ units x = units y := by
  show ((parts x).compare (parts y) == some .eq) = true ↔ _
  rw [compare_units hx hy, beq_iff_eq, Option.some.injEq]
  exact compare_eq_iff_eq

theorem canonical_neg {u : UnpackedFloat} (h : Canonical u) : Canonical u.neg := by
  cases u <;> exact h

theorem units_neg_parts (u : UnpackedFloat) :
    (Binary.ofParts u.neg).units = -(Binary.ofParts u).units := by
  cases u with
  | notANumber => rfl
  | infinity sign =>
      rw [UnpackedFloat.neg, units_infinity, units_infinity]
      cases sign
      · exact (Int.neg_neg _).symm
      · rfl
  | zero sign => rw [UnpackedFloat.neg, units_zero, units_zero, Int.neg_zero]
  | finite sign m e hm =>
      rw [UnpackedFloat.neg, units_finite, units_finite]
      cases sign
      · exact (Int.neg_neg _).symm
      · rfl

theorem units_neg (x : Float) : units (-x) = -units x :=
  (units_pack (canonical_neg (canonical_parts x))).trans
    ((units_neg_parts _).trans (congrArg _ (units_parts x).symm))

theorem IsNumber.neg (h : IsNumber x) : IsNumber (-x) := by
  refine isNumber_pack (canonical_neg (canonical_parts x)) ?_
  have hparts := isNumber_iff.mp h
  show (parts x).neg ≠ _
  cases hcase : parts x with
  | notANumber => exact absurd hcase hparts
  | _ => exact nofun

-- The exponent of a finite double is not below the lowest one.
theorem exponent_of_ofFloat {negative : Bool} {m : Nat} {e : Int}
    (h : Binary.ofFloat x = .finite negative m e) : -1074 ≤ e ∧ m < 2 ^ 53 := by
  have hcanonical := canonical_parts x
  rw [ofFloat_parts] at h
  cases hparts : parts x with
  | notANumber =>
      rw [hparts] at h
      cases h
  | infinity sign =>
      rw [hparts] at h
      cases h
  | zero sign =>
      rw [hparts] at h
      obtain ⟨-, rfl, rfl⟩ := Binary.finite.inj h
      omega
  | finite sign n f hn =>
      rw [hparts] at h hcanonical
      obtain ⟨-, rfl, rfl⟩ := Binary.finite.inj h
      exact ⟨hcanonical.2.1, hcanonical.1⟩

end MapAlgebra.Number
