import MapAlgebra.Proofs.Scalar.Settled

namespace MapAlgebra

namespace DataType

variable {dtype : DataType} {n m : Int}

-- The whole numbers that a type has room for.
def Covers (dtype : DataType) (n : Int) : Prop := dtype.range.1 ≤ n ∧ n ≤ dtype.range.2

-- The number of a type's range that is nearest to a whole number.
def nearest (dtype : DataType) (n : Int) : Int := max dtype.range.1 (min n dtype.range.2)

theorem nearest_mono (h : n ≤ m) : dtype.nearest n ≤ dtype.nearest m := by
  unfold nearest
  omega

theorem nearest_eq_iff : dtype.nearest n = n ↔ dtype.Covers n := by
  obtain ⟨hl, hu, -, -⟩ := dtype.range_bounds
  unfold Covers nearest
  omega

-- What lies outside of a range is moved to an end of it, toward zero, and never gets back.
theorem nearest_nearest_eq_iff {source : DataType} (h : source.Covers n) :
    source.nearest (dtype.nearest n) = n ↔ dtype.Covers n := by
  obtain ⟨hl, hu, -, -⟩ := dtype.range_bounds
  obtain ⟨hl', hu', -, -⟩ := source.range_bounds
  unfold Covers nearest at *
  omega

-- A stop on the way changes nothing if it has room for the number or for all that comes after it.
theorem nearest_through {between : DataType}
    (h : between.Covers n ∨ ∀ k, dtype.Covers k → between.Covers k) :
    dtype.nearest (between.nearest n) = dtype.nearest n := by
  obtain hcovers | hwithin := h
  · rw [nearest_eq_iff.mpr hcovers]
  · obtain ⟨hl, hu, -, -⟩ := dtype.range_bounds
    have hlowest := hwithin dtype.range.1 ⟨Int.le_refl _, hl.trans hu⟩
    have hhighest := hwithin dtype.range.2 ⟨hl.trans hu, Int.le_refl _⟩
    unfold Covers at hlowest hhighest
    unfold nearest
    omega

-- A truth value is a number of two, and every integer type has room for both.
theorem covers_truth (hdtype : dtype.isInteger = true) (h : DataType.b8.Covers n) : dtype.Covers n := by
  have hrange : dtype.range.1 ≤ 0 ∧ 1 ≤ dtype.range.2 := by
    cases dtype with
    | untyped | f32 | f64 | b8 => exact absurd hdtype Bool.false_ne_true
    | _ => decide
  have hpair : (0 : Int) ≤ n ∧ n ≤ 1 := h
  unfold Covers
  omega

theorem isExact_of_isInteger (h : dtype.isInteger = true) : dtype.isExact = true := by
  rw [isExact, h, Bool.true_or]

theorem settle_eq_iff (h : dtype.isExact = true) : dtype.settle n = n ↔ dtype.Covers n := by
  obtain hinteger | rfl := isInteger_or_bool h
  · rw [settle_integer hinteger]
    exact nearest_eq_iff
  · show wholeFlag (n ≠ 0) = n ↔ 0 ≤ n ∧ n ≤ 1
    unfold wholeFlag
    split <;> simp_all
    omega

end DataType

namespace Scalar

open DataType (Covers nearest)

variable {scalar : Scalar} {dtype : DataType} {n : Int}

theorem whole?_eq_some_iff : scalar.whole? = some n ↔ scalar.payload = .whole n := by
  unfold whole?
  cases scalar.payload with
  | whole m => simp
  | real x => simp

theorem exists_whole (h : scalar.dtype.isExact = true) :
    ∃ n, scalar.whole? = some n ∧ scalar.dtype.Covers n := by
  obtain ⟨n, hpayload, hsettled⟩ := exists_payload h
  exact ⟨n, whole?_eq_some_iff.mpr hpayload, (DataType.settle_eq_iff h).mp hsettled⟩

-- The tag of a number plays no part in what becomes of it.
theorem convert_eq_ofWhole (h : scalar.whole? = some n) (dtype : DataType) :
    scalar.convert dtype = ofWhole n dtype := by
  rw [convert, whole?_eq_some_iff.mp h]
  rfl

theorem ofWhole_integer (hdtype : dtype.isInteger = true) (n : Int) : ∃ scalar,
    ofWhole n dtype = .ok scalar ∧ scalar.dtype = dtype ∧ scalar.whole? = some (dtype.nearest n) := by
  obtain ⟨scalar, hok, htag, hpayload⟩ := ofWhole_eq_ok (DataType.isExact_of_isInteger hdtype) n
  rw [DataType.settle_integer hdtype] at hpayload
  exact ⟨scalar, hok, htag, whole?_eq_some_iff.mpr hpayload⟩

-- The range of a type is made of the values of the scalars that carry its tag.
theorem covers_iff (hdtype : dtype.isExact = true) :
    dtype.Covers n ↔ ∃ scalar : Scalar, scalar.dtype = dtype ∧ scalar.whole? = some n := by
  constructor
  · intro h
    obtain ⟨scalar, -, htag, hpayload⟩ := ofWhole_eq_ok hdtype n
    rw [(DataType.settle_eq_iff hdtype).mpr h] at hpayload
    exact ⟨scalar, htag, whole?_eq_some_iff.mpr hpayload⟩
  · rintro ⟨scalar, rfl, hwhole⟩
    exact (DataType.settle_eq_iff hdtype).mp (settle_payload (whole?_eq_some_iff.mp hwhole))

theorem eq_of_whole {a b : Scalar} (htag : a.dtype = b.dtype) (ha : a.whole? = some n)
    (hb : b.whole? = some n) : a = b := by
  have hpayload := whole?_eq_some_iff.mp ha
  exact eq_of_payload htag (isExact_of_payload hpayload)
    (hpayload.trans (whole?_eq_some_iff.mp hb).symm)

-- A number is brought back to a tag when it is the number that the tag has for it.
theorem ofWhole_eq_self_iff {m : Int} (h : scalar.whole? = some n) :
    ofWhole m scalar.dtype = .ok scalar ↔ scalar.dtype.settle m = n := by
  have hexact := isExact_of_payload (whole?_eq_some_iff.mp h)
  obtain ⟨back, hok, htag, hpayload⟩ := ofWhole_eq_ok hexact m
  rw [hok]
  constructor
  · intro hsame
    cases hsame
    rw [whole?_eq_some_iff.mp h] at hpayload
    exact (Payload.whole.inj hpayload).symm
  · intro hsettle
    rw [hsettle] at hpayload
    exact congrArg Except.ok (eq_of_whole htag (whole?_eq_some_iff.mpr hpayload) h)

-- There and back again, a scalar is the same if the other type has room for its value.
theorem ofWhole_nearest_eq_self_iff (hdtype : dtype.isInteger = true) (h : scalar.whole? = some n) :
    ofWhole (dtype.nearest n) scalar.dtype = .ok scalar ↔ dtype.Covers n := by
  have hexact := isExact_of_payload (whole?_eq_some_iff.mp h)
  have hown := (covers_iff hexact).mpr ⟨scalar, rfl, h⟩
  rw [ofWhole_eq_self_iff h]
  obtain hinteger | hbool := DataType.isInteger_or_bool hexact
  · rw [DataType.settle_integer hinteger]
    exact DataType.nearest_nearest_eq_iff hown
  · rw [hbool] at hown
    have hcovers := DataType.covers_truth hdtype hown
    rw [DataType.nearest_eq_iff.mpr hcovers]
    exact iff_of_true ((DataType.settle_eq_iff hexact).mpr (hbool ▸ hown)) hcovers

-- Between booleans and integers a conversion moves a value to the nearest number of the new type. It
-- keeps the order of values, does not care for a stop on the way that has room enough, and can be taken
-- back just where the new type has room for the value.
theorem convert_projects {scalar : Scalar} (hexact : scalar.dtype.isExact = true)
    {between dtype : DataType} (hbetween : between.isInteger = true) (hdtype : dtype.isInteger = true) :
    ∃ n result, scalar.whole? = some n ∧ scalar.dtype.Covers n ∧
      scalar.convert dtype = .ok result ∧ result.dtype = dtype ∧
      result.whole? = some (max dtype.range.1 (min n dtype.range.2)) ∧
      (∀ (other : Scalar) (m : Int), other.whole? = some m → n ≤ m → ∃ result' k k',
        other.convert dtype = .ok result' ∧ result.whole? = some k ∧ result'.whole? = some k' ∧
          k ≤ k') ∧
      (between.Covers n ∨ (∀ k, dtype.Covers k → between.Covers k) →
        ∃ middle, scalar.convert between = .ok middle ∧ middle.convert dtype = scalar.convert dtype) ∧
      (result.convert scalar.dtype = .ok scalar ↔ dtype.Covers n) ∧
      (scalar.dtype = .b8 → dtype.Covers n) ∧
      scalar.convert .b8 = .ok (.bool (n ≠ 0)) ∧
      ∀ tag k, tag.isExact = true → (tag.Covers k ↔ ∃ held : Scalar, held.dtype = tag ∧
        held.whole? = some k ∧ ∀ target, ofWhole k target = held.convert target) := by
  obtain ⟨n, hwhole, hcovers⟩ := exists_whole hexact
  obtain ⟨result, hok, htag, hresult⟩ := ofWhole_integer hdtype n
  refine ⟨n, result, hwhole, hcovers, (convert_eq_ofWhole hwhole dtype).trans hok, htag, hresult,
    fun other m hother hle => ?_, fun hroom => ?_, ?_, fun hbool => ?_,
    convert_eq_ofWhole hwhole .b8, fun tag k htag => ?_⟩
  · obtain ⟨result', hok', -, hresult'⟩ := ofWhole_integer hdtype m
    exact ⟨result', _, _, (convert_eq_ofWhole hother dtype).trans hok', hresult, hresult',
      DataType.nearest_mono hle⟩
  · obtain ⟨middle, hmiddle, -, hvalue⟩ := ofWhole_integer hbetween n
    refine ⟨middle, (convert_eq_ofWhole hwhole between).trans hmiddle, ?_⟩
    obtain ⟨result', hok', htag', hresult'⟩ := ofWhole_integer hdtype (between.nearest n)
    rw [DataType.nearest_through hroom] at hresult'
    rw [convert_eq_ofWhole hvalue, convert_eq_ofWhole hwhole, hok, hok',
      eq_of_whole (htag'.trans htag.symm) hresult' hresult]
  · rw [convert_eq_ofWhole hresult]
    exact ofWhole_nearest_eq_self_iff hdtype hwhole
  · exact DataType.covers_truth hdtype (hbool ▸ hcovers)
  · rw [covers_iff htag]
    refine exists_congr fun held => and_congr_right fun _ => ?_
    exact (and_iff_left_of_imp fun hheld target => (convert_eq_ofWhole hheld target).symm).symm

-- The greatest word of 64 bits, by way of the signed words of the same width.
theorem greatest_word_projects : ∃ result, (Scalar.u64 (2 ^ 64 - 1)).convert .s32 = .ok result ∧
    result.whole? = some (2 ^ 31 - 1) ∧ result.convert .u64 ≠ .ok (.u64 (2 ^ 64 - 1)) ∧
    ∃ middle, (Scalar.u64 (2 ^ 64 - 1)).convert .s64 = .ok middle ∧
      middle.convert .s32 = .ok result := by
  obtain ⟨n, result, hwhole, -, hconvert, -, hresult, -, hthrough, hback, -⟩ :=
    @convert_projects (.u64 (2 ^ 64 - 1)) rfl .s64 .s32 rfl rfl
  obtain rfl : n = 2 ^ 64 - 1 := by
    have hvalue : (Scalar.u64 (2 ^ 64 - 1)).whole? = some (2 ^ 64 - 1) := by decide +kernel
    exact Option.some.inj (hwhole.symm.trans hvalue)
  refine ⟨result, hconvert, hresult, fun h => ?_, ?_⟩
  · have hcovers := hback.mp h
    exact absurd hcovers.2 (by decide +kernel)
  · obtain ⟨middle, hmiddle, hlast⟩ := hthrough (.inr fun k hk => by
      have hlow : (-2 ^ 31 : Int) ≤ k := hk.1
      have hhigh : k ≤ (2 ^ 31 - 1 : Int) := hk.2
      exact ⟨Int.le_trans (by decide) hlow, Int.le_trans hhigh (by decide)⟩)
    exact ⟨middle, hmiddle, hlast.trans hconvert⟩

end Scalar

end MapAlgebra
