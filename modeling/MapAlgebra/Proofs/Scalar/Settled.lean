import MapAlgebra.Op.Exact
import MapAlgebra.Proofs.Number.Exact

namespace MapAlgebra

open Number

variable {x y : Float} {n : Int} {dtype : DataType}

namespace Number

theorem isWhole_flag (p : Bool) : IsWhole (DataType.flag p) (wholeFlag p) := by
  cases p with
  | false => exact IsWhole.zero
  | true => exact IsWhole.one

theorem Near.units_eq_zero (h : Near x n) : units x = 0 ↔ n = 0 := by
  have hone : (0 : Int) < oneUnits := Int.natCast_pos.mpr oneUnits_pos
  by_cases hn : n.natAbs ≤ 2 ^ 53
  · rw [h.exact hn, Int.mul_eq_zero]
    omega
  · by_cases hsign : 0 ≤ n
    · have habove := h.above (by omega)
      omega
    · have hbelow := h.below (by omega)
      omega

theorem Near.holds_eq (h : Near x n) : DataType.holds x = decide (n ≠ 0) := by
  have hequal : (x == 0) = decide (n = 0) := by
    rw [Bool.eq_iff_iff, beq_iff_units h.number IsWhole.zero.isNumber, IsWhole.zero.units_eq,
      Int.zero_mul, h.units_eq_zero, decide_eq_true_iff]
  rw [DataType.holds, bne, hequal, h.number.isNaN_eq]
  by_cases hn : n = 0 <;> simp [hn]

end Number

-- How the doubles that stand for whole numbers are read back.
section Settling

variable {lowest highest : Float} {l u t : Int}

theorem Number.Near.whole (h : Near x n) : wholePart x = n ∨
    (2 ^ 53 < n ∧ 2 ^ 53 ≤ wholePart x) ∨ (n < -2 ^ 53 ∧ wholePart x ≤ -2 ^ 53) := by
  have hone : (0 : Int) < oneUnits := Int.natCast_pos.mpr oneUnits_pos
  by_cases hexact : n.natAbs ≤ 2 ^ 53
  · exact Or.inl (h.isWhole hexact).wholePart_eq
  by_cases hn : 0 ≤ n
  · rw [wholePart_eq]
    exact Or.inr (Or.inl ⟨by omega, Int.le_tdiv_of_mul_le hone (h.above (by omega))⟩)
  · have hnegated : 2 ^ 53 ≤ (units (-x)).tdiv oneUnits :=
      Int.le_tdiv_of_mul_le hone (h.neg.above (by omega))
    rw [units_neg, Int.neg_tdiv, ← wholePart_eq] at hnegated
    exact Or.inr (Or.inr ⟨by omega, by omega⟩)

-- A double with a whole value against the end of a range below zero.
theorem Number.Near.lt_lowest (h : Near lowest l) (hl : l ≤ 0) (hy : IsNumber y)
    (hunits : units y = t * oneUnits) :
    (y < lowest → t < l ∨ t < -2 ^ 53) ∧ (t < l → l.natAbs ≤ 2 ^ 53 → y < lowest) := by
  have hone : (0 : Int) < oneUnits := Int.natCast_pos.mpr oneUnits_pos
  rw [lt_iff_units hy h.number, hunits]
  refine ⟨fun hless => ?_, fun hless hsmall => ?_⟩
  · by_cases hsmall : l.natAbs ≤ 2 ^ 53
    · rw [h.exact hsmall] at hless
      exact Or.inl (Int.lt_of_mul_lt_mul_right hless hone.le)
    · have hbelow := h.below (by omega)
      exact Or.inr (Int.lt_of_mul_lt_mul_right (Int.lt_of_lt_of_le hless hbelow) hone.le)
  · rw [h.exact hsmall]
    exact Int.mul_lt_mul_of_pos_right hless hone

theorem Number.Near.highest_lt (h : Near highest u) (hu : 0 ≤ u) (hy : IsNumber y)
    (hunits : units y = t * oneUnits) :
    (highest < y → u < t ∨ 2 ^ 53 < t) ∧ (u < t → u.natAbs ≤ 2 ^ 53 → highest < y) := by
  have hone : (0 : Int) < oneUnits := Int.natCast_pos.mpr oneUnits_pos
  rw [lt_iff_units h.number hy, hunits]
  refine ⟨fun hless => ?_, fun hless hsmall => ?_⟩
  · by_cases hsmall : u.natAbs ≤ 2 ^ 53
    · rw [h.exact hsmall] at hless
      exact Or.inl (Int.lt_of_mul_lt_mul_right hless hone.le)
    · have habove := h.above (by omega)
      exact Or.inr (Int.lt_of_mul_lt_mul_right (Int.lt_of_le_of_lt habove hless) hone.le)
  · rw [h.exact hsmall]
    exact Int.mul_lt_mul_of_pos_right hless hone

-- The ends of a range of 64 bits are not exact as doubles, but they are out of the way of what is.
theorem Number.isWhole_clamp (h : Near x n) (hlow : Near lowest l) (hhigh : Near highest u)
    (hl : l ≤ 0) (hu : 0 ≤ u) (hsmall : (saturate n l u).natAbs ≤ 2 ^ 53) :
    IsWhole (clamp (truncate x) lowest highest) (saturate n l u) := by
  obtain ⟨hnumber, hunits⟩ := units_truncate h.number
  rw [← wholePart_eq] at hunits
  obtain ⟨hunder, hunder'⟩ := hlow.lt_lowest hl hnumber hunits
  obtain ⟨hover, hover'⟩ := hhigh.highest_lt hu hnumber hunits
  have hplace := h.whole
  rw [clamp]
  by_cases hless : truncate x < lowest
  · have hresult : saturate n l u = l := by
      have hreached := hunder hless
      clear hunder hunder' hover hover'
      unfold saturate at hsmall ⊢
      rcases hplace with hplace | ⟨hn, hplace⟩ | ⟨hn, hplace⟩ <;> omega
    rw [if_pos hless, hresult]
    exact hlow.isWhole (hresult ▸ hsmall)
  · rw [if_neg hless]
    by_cases hmore : highest < truncate x
    · have hresult : saturate n l u = u := by
        have hreached := hover hmore
        clear hunder hunder' hover hover'
        unfold saturate at hsmall ⊢
        rcases hplace with hplace | ⟨hn, hplace⟩ | ⟨hn, hplace⟩ <;> omega
      rw [if_pos hmore, hresult]
      exact hhigh.isWhole (hresult ▸ hsmall)
    · have hwithin : l.natAbs ≤ 2 ^ 53 → l ≤ wholePart x :=
        fun h => Int.not_lt.mp fun hout => hless (hunder' hout h)
      have hwithin' : u.natAbs ≤ 2 ^ 53 → wholePart x ≤ u :=
        fun h => Int.not_lt.mp fun hout => hmore (hover' hout h)
      have hresult : saturate n l u = wholePart x := by
        clear hunder hunder' hover hover'
        unfold saturate at hsmall ⊢
        rcases hplace with hplace | ⟨hn, hplace⟩ | ⟨hn, hplace⟩ <;> omega
      rw [if_neg hmore, hresult]
      exact .of_units hnumber hunits (hresult ▸ hsmall)

end Settling

namespace DataType

-- The whole number that a type holds in place of another one.
def settle (dtype : DataType) (n : Int) : Int :=
  if dtype.isBool then wholeFlag (n ≠ 0) else saturate n dtype.range.1 dtype.range.2

theorem normalize_integer (hdtype : dtype.isInteger = true) (x : Float) :
    dtype.normalize x = if x.isNaN then 0
      else clamp (truncate x) (ofInt dtype.range.1) (ofInt dtype.range.2) := by
  cases dtype with
  | untyped | f32 | f64 | b8 => exact absurd hdtype Bool.false_ne_true
  | _ => rfl

theorem range_bounds (dtype : DataType) : dtype.range.1 ≤ 0 ∧ 0 ≤ dtype.range.2 ∧
    dtype.range.1.natAbs ≤ 2 ^ 127 ∧ dtype.range.2.natAbs ≤ 2 ^ 127 := by
  cases dtype <;> decide

theorem eq_bool (h : dtype.isBool = true) : dtype = .b8 := by
  cases dtype with
  | b8 => rfl
  | _ => exact absurd h Bool.false_ne_true

theorem isInteger_or_bool (h : dtype.isExact = true) : dtype.isInteger = true ∨ dtype = .b8 := by
  rw [isExact, Bool.or_eq_true] at h
  exact h.imp_right eq_bool

theorem settle_integer (h : dtype.isInteger = true) (n : Int) :
    dtype.settle n = saturate n dtype.range.1 dtype.range.2 := by
  cases dtype with
  | b8 => exact absurd h Bool.false_ne_true
  | _ => rfl

theorem settle_settle (dtype : DataType) (n : Int) : dtype.settle (dtype.settle n) = dtype.settle n := by
  obtain ⟨hl, hu, -, -⟩ := dtype.range_bounds
  unfold settle
  split
  · by_cases h : n = 0 <;> simp [h, wholeFlag]
  · unfold saturate
    omega

-- Settling brings a number closer to zero, if it moves it at all.
theorem natAbs_settle_le (dtype : DataType) (n : Int) : (dtype.settle n).natAbs ≤ n.natAbs := by
  obtain ⟨hl, hu, -, -⟩ := dtype.range_bounds
  unfold settle
  split
  · by_cases h : n = 0 <;> simp [h, wholeFlag]
    omega
  · unfold saturate
    omega

-- A double near a whole number becomes the number that the type holds in place of it, if that one is
-- small enough.
theorem isWhole_normalize (h : Near x n) (hdtype : dtype.isExact = true)
    (hsmall : (dtype.settle n).natAbs ≤ 2 ^ 53) : IsWhole (dtype.normalize x) (dtype.settle n) := by
  obtain ⟨hl, hu, hlow, hhigh⟩ := dtype.range_bounds
  obtain hinteger | rfl := isInteger_or_bool hdtype
  · rw [settle_integer hinteger] at hsmall ⊢
    rw [normalize_integer hinteger, h.number.isNaN_eq]
    exact isWhole_clamp h (near_ofInt hlow) (near_ofInt hhigh) hl hu hsmall
  · have hflag := isWhole_flag (holds x)
    rw [h.holds_eq] at hflag
    show IsWhole (flag (holds x)) (wholeFlag (n ≠ 0))
    rw [h.holds_eq]
    exact hflag

-- What is settled stays.
theorem isWhole_normalize_settled (h : IsWhole x n) (hdtype : dtype.isExact = true)
    (hsettled : dtype.settle n = n) : IsWhole (dtype.normalize x) n := by
  have hwhole := isWhole_normalize h.near hdtype (by rw [hsettled]; exact h.bound)
  rw [hsettled] at hwhole
  exact hwhole

end DataType

namespace Scalar

theorem saturate_bounds {l u : Int} (h : l ≤ u) (n : Int) : l ≤ saturate n l u ∧ saturate n l u ≤ u := by
  unfold saturate
  omega

-- A whole number gets a type by being settled in it.
theorem ofWhole_eq_ok (hdtype : dtype.isExact = true) (n : Int) : ∃ scalar,
    ofWhole n dtype = .ok scalar ∧ scalar.dtype = dtype ∧ scalar.payload = .whole (dtype.settle n) := by
  obtain ⟨hl, hu, -, -⟩ := dtype.range_bounds
  obtain ⟨hlow, hhigh⟩ := saturate_bounds (hl.trans hu) n
  have hsigned : ∀ {m : Int}, m = saturate n dtype.range.1 dtype.range.2 →
      Payload.whole m = .whole (saturate n dtype.range.1 dtype.range.2) := congrArg _
  have hunsigned : ∀ {m : Nat}, m = (saturate n dtype.range.1 dtype.range.2).toNat →
      0 ≤ saturate n dtype.range.1 dtype.range.2 →
      Payload.whole m = .whole (saturate n dtype.range.1 dtype.range.2) := by
    intro m hm hnonneg
    rw [hm, Int.toNat_of_nonneg hnonneg]
  cases dtype with
  | untyped | f32 | f64 => exact absurd hdtype Bool.false_ne_true
  | b8 =>
      refine ⟨_, rfl, rfl, congrArg Payload.whole ?_⟩
      show (if decide (n ≠ 0) then (1 : Int) else 0) = wholeFlag (n ≠ 0)
      rfl
  | s8 => exact ⟨_, rfl, rfl, hsigned (Int8.toInt_ofInt_of_le hlow (Int.lt_of_le_sub_one hhigh))⟩
  | s16 => exact ⟨_, rfl, rfl, hsigned (Int16.toInt_ofInt_of_le hlow (Int.lt_of_le_sub_one hhigh))⟩
  | s32 => exact ⟨_, rfl, rfl, hsigned (Int32.toInt_ofInt_of_le hlow (Int.lt_of_le_sub_one hhigh))⟩
  | s64 => exact ⟨_, rfl, rfl, hsigned (Int64.toInt_ofInt_of_le hlow (Int.lt_of_le_sub_one hhigh))⟩
  | u8 => exact ⟨_, rfl, rfl, hunsigned
      (UInt8.toNat_ofNat_of_lt' ((Int.toNat_lt hlow).mpr (Int.lt_of_le_sub_one hhigh))) hlow⟩
  | u16 => exact ⟨_, rfl, rfl, hunsigned
      (UInt16.toNat_ofNat_of_lt' ((Int.toNat_lt hlow).mpr (Int.lt_of_le_sub_one hhigh))) hlow⟩
  | u32 => exact ⟨_, rfl, rfl, hunsigned
      (UInt32.toNat_ofNat_of_lt' ((Int.toNat_lt hlow).mpr (Int.lt_of_le_sub_one hhigh))) hlow⟩
  | u64 => exact ⟨_, rfl, rfl, hunsigned
      (UInt64.toNat_ofNat_of_lt' ((Int.toNat_lt hlow).mpr (Int.lt_of_le_sub_one hhigh))) hlow⟩

-- An exact type and a whole number leave no choice.
theorem eq_of_payload {a b : Scalar} (hdtype : a.dtype = b.dtype) (hexact : a.dtype.isExact = true)
    (h : a.payload = b.payload) : a = b := by
  have hwhole : ∀ {m n : Int}, Payload.whole m = .whole n → m = n := fun h => Payload.whole.inj h
  cases a with
  | bool value =>
      cases b with
      | bool other =>
          have := hwhole h
          cases value <;> cases other <;> first | rfl | cases this
      | _ => cases hdtype
  | s8 value =>
      cases b with
      | s8 other => exact congrArg s8 (Int8.toInt_inj.mp (hwhole h))
      | _ => cases hdtype
  | s16 value =>
      cases b with
      | s16 other => exact congrArg s16 (Int16.toInt_inj.mp (hwhole h))
      | _ => cases hdtype
  | s32 value =>
      cases b with
      | s32 other => exact congrArg s32 (Int32.toInt_inj.mp (hwhole h))
      | _ => cases hdtype
  | s64 value =>
      cases b with
      | s64 other => exact congrArg s64 (Int64.toInt_inj.mp (hwhole h))
      | _ => cases hdtype
  | u8 value =>
      cases b with
      | u8 other => exact congrArg u8 (UInt8.toNat_inj.mp (Int.ofNat_inj.mp (hwhole h)))
      | _ => cases hdtype
  | u16 value =>
      cases b with
      | u16 other => exact congrArg u16 (UInt16.toNat_inj.mp (Int.ofNat_inj.mp (hwhole h)))
      | _ => cases hdtype
  | u32 value =>
      cases b with
      | u32 other => exact congrArg u32 (UInt32.toNat_inj.mp (Int.ofNat_inj.mp (hwhole h)))
      | _ => cases hdtype
  | u64 value =>
      cases b with
      | u64 other => exact congrArg u64 (UInt64.toNat_inj.mp (Int.ofNat_inj.mp (hwhole h)))
      | _ => cases hdtype
  | f32 value => exact absurd hexact Bool.false_ne_true
  | f64 value => exact absurd hexact Bool.false_ne_true

theorem saturate_eq {l u : Int} (hl : l ≤ n) (hu : n ≤ u) : saturate n l u = n := by
  unfold saturate
  omega

theorem isExact_of_payload {scalar : Scalar} {n : Int} (h : scalar.payload = .whole n) :
    scalar.dtype.isExact = true := by
  cases scalar with
  | f32 | f64 => cases h
  | _ => rfl

-- Exact scalars hold whole numbers of their types.
theorem exists_payload {scalar : Scalar} (h : scalar.dtype.isExact = true) :
    ∃ n, scalar.payload = .whole n ∧ scalar.dtype.settle n = n := by
  have hword : ∀ {k m : Nat}, k < m → (k : Int) ≤ m - 1 := by omega
  cases scalar with
  | bool value =>
      refine ⟨_, rfl, ?_⟩
      cases value <;> rfl
  | s8 value => exact ⟨_, rfl, saturate_eq value.le_toInt (Int.le_sub_one_of_lt value.toInt_lt)⟩
  | s16 value => exact ⟨_, rfl, saturate_eq value.le_toInt (Int.le_sub_one_of_lt value.toInt_lt)⟩
  | s32 value => exact ⟨_, rfl, saturate_eq value.le_toInt (Int.le_sub_one_of_lt value.toInt_lt)⟩
  | s64 value => exact ⟨_, rfl, saturate_eq value.le_toInt (Int.le_sub_one_of_lt value.toInt_lt)⟩
  | u8 value => exact ⟨_, rfl, saturate_eq (Int.natCast_nonneg _) (hword value.toNat_lt)⟩
  | u16 value => exact ⟨_, rfl, saturate_eq (Int.natCast_nonneg _) (hword value.toNat_lt)⟩
  | u32 value => exact ⟨_, rfl, saturate_eq (Int.natCast_nonneg _) (hword value.toNat_lt)⟩
  | u64 value => exact ⟨_, rfl, saturate_eq (Int.natCast_nonneg _) (hword value.toNat_lt)⟩
  | f32 value => exact absurd h Bool.false_ne_true
  | f64 value => exact absurd h Bool.false_ne_true

theorem settle_payload {scalar : Scalar} (h : scalar.payload = .whole n) :
    scalar.dtype.settle n = n := by
  obtain ⟨m, hm, hsettled⟩ := exists_payload (isExact_of_payload h)
  obtain rfl : n = m := Payload.whole.inj (h.symm.trans hm)
  exact hsettled

theorem convert_self {scalar : Scalar} (h : scalar.dtype.isExact = true) :
    scalar.convert scalar.dtype = .ok scalar := by
  obtain ⟨n, hpayload, hsettled⟩ := exists_payload h
  obtain ⟨other, hother, hdtype, hpayload'⟩ := ofWhole_eq_ok h n
  have hsame : other = scalar := by
    refine eq_of_payload hdtype (hdtype ▸ h) ?_
    rw [hpayload', hsettled, hpayload]
  rw [convert, hpayload]
  exact hsame ▸ hother

-- A double with a whole value is read as that value.
theorem ofFloat_whole (h : IsWhole x n) (hdtype : dtype.isExact = true) :
    ofFloat x dtype = ofWhole n dtype := by
  have hwhole : (Payload.real x).toWhole = n := h.wholePart_eq
  have htrue : (Payload.real x).isTrue = (Payload.whole n).isTrue := by
    show (!(x == 0)) = decide (n ≠ 0)
    have hzero := h.beq_iff IsWhole.zero
    rw [Bool.eq_iff_iff, Bool.not_eq_true', Bool.eq_false_iff, Ne, hzero, decide_eq_true_iff]
  have hsame : (Payload.real x).saturated = (Payload.whole n).saturated := by
    funext dtype
    rw [Payload.saturated, hwhole]
    rfl
  cases dtype with
  | untyped | f32 | f64 => exact absurd hdtype Bool.false_ne_true
  | b8 => exact congrArg (fun p => Except.ok (bool p)) htrue
  | _ => simp only [ofFloat, ofWhole, ofPayload, ofPayload?, hsame]

end Scalar

end MapAlgebra
