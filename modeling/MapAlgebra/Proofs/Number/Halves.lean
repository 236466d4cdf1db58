import MapAlgebra.Proofs.Number.Exact
import Mathlib.Data.Rat.Floor
import Mathlib.Tactic.FieldSimp

namespace MapAlgebra.Number

-- The whole number nearest to a rational one, a half away from zero.
def roundAway (q : ℚ) : Int := if 0 ≤ q then ⌊q + 1 / 2⌋ else ⌈q - 1 / 2⌉

-- Half of a number, rounded away from zero.
def halved (t : Int) : Int := t.sign * ((t.natAbs + 1) / 2 : Nat)

theorem halved_natCast (k : Nat) : halved k = ((k + 1) / 2 : Nat) := by
  obtain rfl | hk := Nat.eq_zero_or_pos k
  · rfl
  · rw [halved, Int.natAbs_natCast, Int.sign_eq_one_of_pos (Int.natCast_pos.mpr hk), Int.one_mul]

theorem halved_neg (t : Int) : halved (-t) = -halved t := by
  rw [halved, halved, Int.sign_neg, Int.natAbs_neg, Int.neg_mul]

theorem halved_double (n : Int) : halved (2 * n) = n := by
  have hhalf : (2 * n.natAbs + 1) / 2 = n.natAbs := by omega
  rw [halved, Int.natAbs_mul, Int.sign_mul]
  show 1 * n.sign * ((2 * n.natAbs + 1) / 2 : Nat) = n
  rw [hhalf, Int.one_mul, Int.sign_mul_natAbs]

theorem halved_withSign (negative : Bool) (k : Nat) :
    halved (withSign negative k) = withSign negative ((k + 1) / 2) := by
  cases negative with
  | false => exact halved_natCast k
  | true => exact (halved_neg k).trans (congrArg _ (halved_natCast k))

theorem roundAway_neg (q : ℚ) : roundAway (-q) = -roundAway q := by
  unfold roundAway
  rcases lt_trichotomy q 0 with hless | rfl | hmore
  · have hmirrored : -q + 1 / 2 = -(q - 1 / 2) := by ring
    rw [if_pos (by linarith), if_neg (by linarith), hmirrored, Int.floor_neg]
  · decide +kernel
  · have hmirrored : -q - 1 / 2 = -(q + 1 / 2) := by ring
    rw [if_neg (by linarith), if_pos hmore.le, hmirrored, Int.ceil_neg]

theorem floor_add_half (k : Nat) {q : Nat} (hq : 0 < q) :
    ⌊(k / q : ℚ) + 1 / 2⌋ = ((2 * k / q + 1) / 2 : Nat) := by
  have hpositive : (q : ℚ) ≠ 0 := Nat.cast_ne_zero.mpr hq.ne'
  have hsum : (k / q : ℚ) + 1 / 2 = ((2 * k + q : Nat) : ℚ) / ((q * 2 : Nat) : ℚ) := by
    push_cast
    field_simp
  rw [hsum, Rat.floor_natCast_div_natCast, ← Int.natCast_div, ← Nat.div_div_eq_div_mul,
    Nat.add_div_right _ hq]

-- A fraction is rounded by the whole part of twice of it.
theorem roundAway_div (p : Int) {q : Nat} (hq : 0 < q) :
    roundAway (p / q) = halved ((2 * p).tdiv q) := by
  have hnonneg : ∀ k : Nat, roundAway ((k : Int) / q) = halved ((2 * (k : Int)).tdiv q) := fun k => by
    have hsign : (0 : ℚ) ≤ (k : Int) / q := by positivity
    rw [roundAway, if_pos hsign]
    exact (floor_add_half k hq).trans (halved_natCast (2 * k / q)).symm
  obtain ⟨k, rfl | rfl⟩ := p.eq_nat_or_neg
  · exact hnonneg k
  · rw [Int.mul_neg, Int.neg_tdiv, halved_neg, ← hnonneg, Int.cast_neg, neg_div, roundAway_neg]

variable {x y : Float} {a : Int}

theorem two_mul_magnitudeUnits_div {m s : Nat} {e : Int} (he : -1074 ≤ e) (hsign : ¬ 0 ≤ e)
    (hs : (-e).toNat = s + 1) : 2 * magnitudeUnits m e / oneUnits = m / 2 ^ s := by
  rw [magnitudeUnits, oneUnits_eq he hsign, hs, ← Nat.mul_assoc,
    Nat.mul_div_mul_right _ _ (Nat.two_pow_pos _), Nat.pow_succ',
    Nat.mul_div_mul_left _ _ Nat.zero_lt_two]

-- A double is rounded to the nearest whole number, a half away from zero.
theorem wholePart_round (x : Float) :
    wholePart (round x) = halved ((2 * units x).tdiv oneUnits) := by
  have hone : (oneUnits : Int) ≠ 0 := Int.natCast_ne_zero.mpr oneUnits_pos.ne'
  -- what is whole already stays
  have hkept : ∀ {w : Int}, round x = x → units x = w * oneUnits →
      wholePart (round x) = halved ((2 * units x).tdiv oneUnits) := fun hround hunits => by
    rw [hround, wholePart_eq, hunits, ← Int.mul_assoc, Int.mul_tdiv_cancel _ hone,
      Int.mul_tdiv_cancel _ hone, halved_double]
  cases hparts : Binary.ofFloat x with
  | nan =>
      refine hkept (w := 0) ?_ ?_
      · rw [round, hparts]
      · rw [units, hparts, Binary.units, Int.zero_mul]
  | infinite negative =>
      refine hkept (w := withSign negative (2 ^ placesBefore)) ?_ ?_
      · rw [round, hparts]
      · rw [units, hparts, Binary.units, withSign_mul, endUnits]
  | finite negative m e =>
      obtain ⟨he, hm⟩ := exponent_of_ofFloat hparts
      have hround : round x = if 0 ≤ e then x
          else (Binary.finite negative
            ((m + 1 <<< ((-e).toNat - 1)) >>> (-e).toNat) 0).toFloat := by
        rw [round, hparts]
      by_cases hsign : 0 ≤ e
      · refine hkept (w := withSign negative (m <<< e.toNat)) ?_ ?_
        · rw [hround, if_pos hsign]
        · rw [units, hparts, Binary.units, magnitudeUnits_of_nonneg hsign, withSign_mul]
      · obtain ⟨s, hs⟩ : ∃ s, (-e).toNat = s + 1 := ⟨(-e).toNat - 1, by omega⟩
        have hrounded : (m + 1 <<< s) >>> (s + 1) = (m / 2 ^ s + 1) / 2 := by
          rw [Nat.one_shiftLeft, Nat.shiftRight_eq_div_pow, Nat.pow_succ, ← Nat.div_div_eq_div_mul,
            Nat.add_div_right _ (Nat.two_pow_pos s)]
        have hfits : (m / 2 ^ s + 1) / 2 ≤ 2 ^ 53 := by
          have hle := Nat.div_le_self m (2 ^ s)
          omega
        have hexact : magnitudeUnits ((m / 2 ^ s + 1) / 2) 0 = (m / 2 ^ s + 1) / 2 * oneUnits :=
          magnitudeUnits_of_nonneg (le_refl 0)
        have hunits : 2 * units x = withSign negative (2 * magnitudeUnits m e) := by
          rw [units, hparts, Binary.units, Int.mul_comm, Nat.mul_comm]
          exact withSign_mul negative (magnitudeUnits m e) 2
        rw [hround, if_neg hsign, hs, Nat.add_sub_cancel, hrounded, hunits, withSign_tdiv,
          two_mul_magnitudeUnits_div he hsign hs, halved_withSign]
        exact (IsWhole.of_toFloat negative (by decide) hfits hexact).wholePart_eq

-- The quotient of whole numbers is rounded as if it were exact.
theorem wholePart_round_div (hx : IsWhole x a) (ha : 2 * a.natAbs ≤ 2 ^ 53) {q : Nat}
    (hy : IsWhole y q) (hq : 0 < q) : wholePart (round (x / y)) = roundAway (a / q) := by
  have hquotient : (2 * units (x / y)).tdiv oneUnits = (2 * a).tdiv q :=
    (Exactly.div_scaled hx hy (Int.natCast_ne_zero.mpr hq.ne') 1 ha).2
  rw [wholePart_round, hquotient, roundAway_div a hq]

end MapAlgebra.Number
