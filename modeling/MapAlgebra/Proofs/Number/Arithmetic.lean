import MapAlgebra.Proofs.Number.Rounding

namespace MapAlgebra.Number

open Float.Model (UnpackedFloat)
open Float.Model.UnpackedFloat

-- A double that a whole number is rounded to. Up to 53 bits nothing is lost, and larger numbers
-- stay large.
structure Near (x : Float) (n : Int) : Prop where
  number : IsNumber x
  exact : n.natAbs ≤ 2 ^ 53 → units x = n * oneUnits
  above : 2 ^ 53 ≤ n → 2 ^ 53 * (oneUnits : Int) ≤ units x
  below : n ≤ -2 ^ 53 → units x ≤ -2 ^ 53 * (oneUnits : Int)

-- A whole number of at most 53 bits, taken apart.
structure Exactly (u : UnpackedFloat) (n : Int) : Prop where
  canonical : Canonical u
  defined : u ≠ .notANumber
  units_eq : (Binary.ofParts u).units = n * oneUnits
  bound : n.natAbs ≤ 2 ^ 53

def packed (u : UnpackedFloat) : Float := .ofModel (.pack u)

section

variable {u v : UnpackedFloat} {a b n : Int} {sign : Sign} {m j : Nat} {e : Int}

theorem Exactly.near (h : Exactly u n) : Near (packed u) n := by
  have hunits : units (packed u) = n * oneUnits := (units_pack h.canonical).trans h.units_eq
  have hbound := h.bound
  refine ⟨isNumber_pack h.canonical h.defined, fun _ => hunits, fun habove => ?_, fun hbelow => ?_⟩
  · obtain rfl : n = 2 ^ 53 := by omega
    exact hunits.ge
  · obtain rfl : n = -2 ^ 53 := by omega
    exact hunits.le

theorem Exactly.zero (sign : Sign) : Exactly (.zero sign) 0 where
  canonical := trivial
  defined := nofun
  units_eq := by rw [units_zero, Int.zero_mul]
  bound := by decide

theorem Exactly.neg (h : Exactly u n) : Exactly u.neg (-n) where
  canonical := canonical_neg h.canonical
  defined := by
    have hdefined := h.defined
    cases u with
    | notANumber => exact absurd rfl hdefined
    | _ => exact nofun
  units_eq := by rw [units_neg_parts, h.units_eq, Int.neg_mul]
  bound := by rw [Int.natAbs_neg]; exact h.bound

theorem natAbs_apply (sign : Sign) (k : Nat) : (sign.apply k).natAbs = k := by
  cases sign with
  | negative => exact Int.natAbs_neg _
  | positive => rfl

theorem apply_mul (sign : Sign) (k l : Nat) : sign.apply (k * l : Nat) = sign.apply k * l := by
  cases sign with
  | negative =>
      show -((k * l : Nat) : Int) = -(k : Int) * l
      rw [Int.neg_mul, Int.natCast_mul]
  | positive => exact Int.natCast_mul k l

-- A whole number is zero, or its significand is full.
theorem Exactly.cases (h : Exactly u n) : (∃ sign, u = .zero sign ∧ n = 0) ∨
    ∃ sign m e hm j, u = .finite sign m e hm ∧ n = sign.apply (j : Nat) ∧ j ≤ 2 ^ 53 ∧ 2 ^ 52 ≤ m ∧
      m < 2 ^ 53 ∧ e + 52 = j.log2 ∧ magnitudeUnits m e = j * oneUnits := by
  have hunits := h.units_eq
  have hmagnitude : ∀ {sign : Sign} {k : Nat}, sign.apply k = n * oneUnits →
      k = n.natAbs * oneUnits := by
    intro sign k hk
    rw [← natAbs_apply sign k, hk, Int.natAbs_mul, Int.natAbs_natCast]
  cases u with
  | notANumber => exact absurd rfl h.defined
  | infinity sign =>
      rw [units_infinity] at hunits
      have hbefore : 2 ^ placesBefore = n.natAbs :=
        Nat.eq_of_mul_eq_mul_right oneUnits_pos (hmagnitude hunits)
      have hlarge : 2 ^ 53 < 2 ^ placesBefore := Nat.pow_lt_pow_right Nat.one_lt_two (by decide)
      have hbound := h.bound
      omega
  | zero sign =>
      rw [units_zero] at hunits
      have hpositive := oneUnits_pos
      obtain hzero | hzero := Int.mul_eq_zero.mp hunits.symm
      · exact Or.inl ⟨sign, rfl, hzero⟩
      · omega
  | finite sign m e hm =>
      obtain ⟨hhigh, hlow, _, hfull⟩ := h.canonical
      rw [units_finite] at hunits
      have hsame := hmagnitude hunits
      obtain ⟨_, hlog⟩ := log2_whole hm hlow hsame
      have hbits : m.log2 < 53 := (Nat.log2_lt hm.ne').mpr hhigh
      have hfull : 2 ^ 52 ≤ m := hfull.resolve_right (by omega)
      rw [(Nat.log2_eq_iff hm.ne').mpr ⟨hfull, hhigh⟩] at hlog
      rw [hsame, apply_mul] at hunits
      have hnumber : n = sign.apply n.natAbs :=
        (Int.eq_of_mul_eq_mul_right (Int.natCast_ne_zero.mpr oneUnits_pos.ne') hunits).symm
      exact Or.inr ⟨sign, m, e, hm, n.natAbs, rfl, hnumber, h.bound, hfull, hhigh, hlog, hsame⟩

theorem near_finite {hm : 0 < m} (h : Canonical (.finite sign m e hm))
    (hnear : NearMagnitude (magnitudeUnits m e) j) :
    Near (packed (.finite sign m e hm)) (sign.apply j) := by
  have hunits : units (packed (.finite sign m e hm)) = sign.apply (magnitudeUnits m e) :=
    (units_pack h).trans (units_finite sign hm)
  obtain ⟨hexact, habove⟩ := hnear
  refine ⟨isNumber_pack h nofun, fun hle => ?_, fun hle => ?_, fun hle => ?_⟩
  · rw [natAbs_apply] at hle
    rw [hunits, hexact hle, apply_mul]
  · cases sign with
    | negative =>
        have hsign : -(j : Int) = Sign.negative.apply j := rfl
        omega
    | positive =>
        have hsign : Sign.positive.apply j = (j : Int) := rfl
        have hmagnitude := habove (by omega)
        rw [hunits]
        show _ ≤ (magnitudeUnits m e : Int)
        exact_mod_cast hmagnitude
  · cases sign with
    | negative =>
        have hj : (2 ^ 53 : Int) ≤ j := by
          have hsign : Sign.negative.apply j = -(j : Int) := rfl
          omega
        have hmagnitude := habove (by exact_mod_cast hj)
        rw [hunits, Int.neg_mul]
        show -(magnitudeUnits m e : Int) ≤ _
        exact Int.neg_le_neg (by exact_mod_cast hmagnitude)
    | positive =>
        have hsign : Sign.positive.apply j = (j : Int) := rfl
        omega

-- A whole number in any form is rounded to a double near it.
theorem normalize_near {k : Int} (he : -1074 ≤ e) (h : k * 2 ^ (e + placesAfter).toNat = n * oneUnits)
    (hn : n.natAbs.log2 ≤ 200) : Near (packed (UnpackedFloat.normalize layout k e .positive)) n := by
  have hmagnitude : magnitudeUnits k.natAbs e = n.natAbs * oneUnits := by
    have habs := congrArg Int.natAbs h
    rw [Int.natAbs_mul, Int.natAbs_mul, Int.natAbs_natCast, Int.natAbs_pow] at habs
    exact habs
  have hpower : 0 < (2 : Int) ^ (e + placesAfter).toNat := Int.pow_pos (by decide)
  have hone : 0 < (oneUnits : Int) := Int.natCast_pos.mpr oneUnits_pos
  rw [UnpackedFloat.normalize]
  rcases lt_trichotomy k 0 with hless | rfl | hmore
  · have hn' : n = Sign.negative.apply n.natAbs := by
      have hproduct := Int.mul_neg_of_neg_of_pos hless hpower
      rw [h] at hproduct
      have hneg : n < 0 := Int.not_le.mp fun hle =>
        Int.not_lt.mpr (Int.mul_nonneg hle hone.le) hproduct
      show n = -(n.natAbs : Int)
      omega
    obtain ⟨r, f, hr, hround, hcanonical, hnear⟩ :=
      round_eq .negative (Int.natAbs_pos.mpr hless.ne) he hmagnitude hn
    have habs : (-k).toNat = k.natAbs := by omega
    rw [compare_lt_iff_lt.mpr hless, hn']
    simp only [habs, hround]
    exact near_finite hcanonical hnear
  · rw [Int.zero_mul] at h
    obtain rfl : n = 0 := (Int.mul_eq_zero.mp h.symm).resolve_right hone.ne'
    exact (Exactly.zero .positive).near
  · have hn' : n = Sign.positive.apply n.natAbs := by
      have hproduct := Int.mul_pos hmore hpower
      rw [h] at hproduct
      have hpos : 0 < n := Int.pos_of_mul_pos_left hproduct hone
      show n = (n.natAbs : Int)
      omega
    obtain ⟨r, f, hr, hround, hcanonical, hnear⟩ :=
      round_eq .positive (Int.natAbs_pos.mpr hmore.ne') he hmagnitude hn
    have habs : k.toNat = k.natAbs := by omega
    rw [compare_gt_iff_gt.mpr hmore, hn']
    simp only [habs, hround]
    exact near_finite hcanonical hnear

theorem magnitudeUnits_shiftLeft {low : Int} (hlow : -1074 ≤ low) (hle : low ≤ e) :
    magnitudeUnits (m <<< (e - low).toNat) low = magnitudeUnits m e := by
  have hexponent : (e + placesAfter).toNat = (e - low).toNat + (low + placesAfter).toNat := by
    rw [placesAfter]
    omega
  rw [magnitudeUnits, magnitudeUnits, Nat.shiftLeft_eq, hexponent, Nat.pow_add, Nat.mul_assoc]

theorem apply_shiftLeft {low : Int} (hlow : -1074 ≤ low) (hle : low ≤ e)
    (h : magnitudeUnits m e = j * oneUnits) :
    sign.apply (m <<< (e - low).toNat : Nat) * 2 ^ (low + placesAfter).toNat =
      sign.apply j * oneUnits := by
  have hunits := (magnitudeUnits_shiftLeft hlow hle).trans h
  rw [magnitudeUnits] at hunits
  have hpower : (2 : Int) ^ (low + placesAfter).toNat = (2 ^ (low + placesAfter).toNat : Nat) := by
    rw [Int.natCast_pow]
    rfl
  rw [hpower, ← apply_mul, hunits, apply_mul]

theorem neg_apply (sign : Sign) (k : Int) : (-sign).apply k = -sign.apply k := by
  cases sign with
  | negative => exact (Int.neg_neg k).symm
  | positive => rfl

theorem log2_le {k : Nat} (h : j < 2 ^ (k + 1)) : j.log2 ≤ k := by
  by_cases hzero : j = 0
  · rw [hzero]
    exact Nat.zero_le k
  · exact Nat.le_of_lt_succ ((Nat.log2_lt hzero).mpr h)

theorem Exactly.add (hu : Exactly u a) (hv : Exactly v b) :
    Near (packed (u.add layout v)) (a + b) := by
  have ha := hu.bound
  have hb := hv.bound
  obtain ⟨sign, rfl, rfl⟩ | ⟨sign, m, e, hm, j, rfl, rfl, -, -, -, hlog, hm'⟩ := hu.cases
  · obtain ⟨sign', rfl, rfl⟩ | ⟨sign', n, f, hn, k, rfl, rfl, -, -, -, -, -⟩ := hv.cases
    · cases sign <;> cases sign' <;> exact (Exactly.zero _).near
    · rw [Int.zero_add]
      exact hv.near
  · obtain ⟨sign', rfl, rfl⟩ | ⟨sign', n, f, hn, k, rfl, rfl, -, -, -, hlog', hn'⟩ := hv.cases
    · rw [Int.add_zero]
      exact hu.near
    · refine normalize_near (by omega) ?_ (log2_le (k := 200) ?_)
      · rw [Int.add_mul, Int.add_mul]
        exact congrArg₂ (· + ·) (apply_shiftLeft (by omega) (by omega) hm')
          (apply_shiftLeft (by omega) (by omega) hn')
      · exact Nat.lt_of_lt_of_le (m := 2 ^ 55) (by omega) (by decide)

theorem sub_eq (u v : UnpackedFloat) : u.sub layout v = u.add layout v.neg := by
  cases u with
  | notANumber => rfl
  | infinity sign => cases v <;> rfl
  | zero sign => cases v <;> rfl
  | finite sign m e hm =>
      cases v with
      | finite sign' n f hn =>
          rw [UnpackedFloat.neg, UnpackedFloat.sub, UnpackedFloat.add]
          simp only [neg_apply, Int.sub_eq_add_neg]
      | _ => rfl

theorem Exactly.sub (hu : Exactly u a) (hv : Exactly v b) :
    Near (packed (u.sub layout v)) (a - b) := by
  rw [sub_eq, Int.sub_eq_add_neg]
  exact hu.add hv.neg

theorem apply_mul_apply (sign sign' : Sign) (k l : Nat) :
    (sign * sign').apply (k * l : Nat) = sign.apply k * sign'.apply l := by
  have hproduct := Int.natCast_mul k l
  cases sign <;> cases sign'
  · exact hproduct.trans (Int.neg_mul_neg _ _).symm
  · exact (congrArg _ hproduct).trans (Int.neg_mul _ _).symm
  · exact (congrArg _ hproduct).trans (Int.mul_neg _ _).symm
  · exact hproduct

theorem Exactly.mul (hu : Exactly u a) (hv : Exactly v b) :
    Near (packed (u.mul layout v)) (a * b) := by
  have ha := hu.bound
  have hb := hv.bound
  obtain ⟨sign, rfl, rfl⟩ | ⟨sign, m, e, hm, j, rfl, rfl, hj, hfull, -, hlog, hm'⟩ := hu.cases
  · rw [Int.zero_mul]
    obtain ⟨sign', rfl, rfl⟩ | ⟨sign', n, f, hn, k, rfl, rfl, -, -, -, -, -⟩ := hv.cases
    · exact (Exactly.zero _).near
    · exact (Exactly.zero _).near
  · obtain ⟨sign', rfl, rfl⟩ | ⟨sign', n, f, hn, k, rfl, rfl, hk, hfull', -, hlog', hn'⟩ := hv.cases
    · rw [Int.mul_zero]
      exact (Exactly.zero _).near
    · have hunits : magnitudeUnits (m * n) (e + f) = j * k * oneUnits := by
        have hexponent : (e + f + placesAfter).toNat + placesAfter =
            (e + placesAfter).toNat + (f + placesAfter).toNat := by
          rw [placesAfter]
          omega
        refine Nat.eq_of_mul_eq_mul_right oneUnits_pos ?_
        calc magnitudeUnits (m * n) (e + f) * oneUnits
            = m * n * 2 ^ ((e + f + placesAfter).toNat + placesAfter) := by
              rw [magnitudeUnits, oneUnits, Nat.mul_assoc, ← Nat.pow_add]
          _ = magnitudeUnits m e * magnitudeUnits n f := by
              rw [hexponent, Nat.pow_add, magnitudeUnits, magnitudeUnits, Nat.mul_mul_mul_comm]
          _ = j * k * oneUnits * oneUnits := by
              rw [hm', hn', Nat.mul_mul_mul_comm, ← Nat.mul_assoc]
      have hlarge : 2 ^ 52 * 1 ≤ m * n := Nat.mul_le_mul hfull hn
      have hsmall : (j * k).log2 ≤ 200 := by
        have hproduct : j * k ≤ 2 ^ 53 * 2 ^ 53 := Nat.mul_le_mul hj hk
        exact log2_le (k := 200) (Nat.lt_of_le_of_lt hproduct (by decide))
      obtain ⟨r, g, hr, hround, hcanonical, hnear⟩ :=
        round_whole (sign * sign') (by omega) (by omega) hunits hsmall
      rw [UnpackedFloat.mul, hround, ← apply_mul_apply]
      exact near_finite hcanonical hnear

end

end MapAlgebra.Number
