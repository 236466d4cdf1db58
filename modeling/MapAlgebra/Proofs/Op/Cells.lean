import MapAlgebra.Proofs.Scalar.Settled

namespace MapAlgebra

open Number

variable {x y : Float} {n a b : Int} {dtype : DataType}

theorem saturateWide_eq (h : n.natAbs ≤ 2 ^ 120) : saturateWide n = n := by
  have hlowest : wideLowest = -2 ^ 127 := rfl
  have hhighest : wideHighest = 2 ^ 127 - 1 := rfl
  rw [saturateWide, saturate, hlowest, hhighest]
  omega

theorem wordOf_eq (h : IsWhole x n) : wordOf x = n := by
  have hbound := h.bound
  rw [wordOf, h.wholePart_eq, saturateWide_eq (by omega)]

theorem near_flag {p : Bool} {q : Prop} [Decidable q] (h : p = decide q) :
    Near (DataType.flag p) (wholeFlag q) := by
  subst h
  exact (isWhole_flag _).near

theorem near_complement (h : IsWhole x n) : Near (DataType.flag (!DataType.holds x))
    (wholeFlag (n = 0)) := by
  refine near_flag ?_
  rw [h.near.holds_eq]
  by_cases hn : n = 0 <;> simp [hn]

theorem UnaryOp.real_near {op : UnaryOp} {r : Int} (h : IsWhole x n)
    (hop : op.ofWhole? n dtype = some r) : Near (op.real x dtype) r := by
  have hbound := h.bound
  cases op with
  | pos => exact Option.some.inj hop ▸ h.near
  | neg => exact Option.some.inj hop ▸ h.neg.near
  | not => exact Option.some.inj hop ▸ near_complement h
  | abs => exact Option.some.inj hop ▸ h.magnitude.near
  | ceil => exact Option.some.inj hop ▸ h.ceiling.near
  | floor => exact Option.some.inj hop ▸ h.floor.near
  | trunc => exact Option.some.inj hop ▸ h.truncate.near
  | round => exact Option.some.inj hop ▸ h.round.near
  | bnot =>
      have hrange : 0 < dtype.range.2 + 1 := by have := dtype.range_bounds; omega
      rw [ofWhole?] at hop
      rw [real, complement, wordOf_eq h]
      split_ifs at hop with hbool hunsigned
      · rw [if_pos hbool]
        exact Option.some.inj hop ▸ near_complement h
      · rw [if_neg hbool, if_pos hunsigned, ← Option.some.inj hop]
        refine near_ofInt ?_
        have hlow := Int.emod_nonneg (bitNot n) hrange.ne'
        have hhigh := Int.emod_lt_of_pos (bitNot n) hrange
        have hend := dtype.range_bounds
        omega
      · rw [if_neg hbool, if_neg hunsigned, ← Option.some.inj hop]
        refine near_ofInt ?_
        rw [bitNot]
        omega
  | _ => cases hop

theorem natAbs_toInt_le (w : BitVec 128) : w.toInt.natAbs ≤ 2 ^ 127 := by
  have hlow := BitVec.le_toInt w
  have hhigh := BitVec.toInt_lt (x := w)
  omega

theorem natAbs_wide_le (n : Int) : (wide n).natAbs ≤ 2 ^ 127 := by
  have hlow := Int.le_bmod (x := n) (m := Nat.pow 2 128) (by decide)
  have hhigh := Int.bmod_lt (x := n) (m := Nat.pow 2 128) (by decide)
  have hword : Nat.pow 2 128 = 2 ^ 128 := rfl
  rw [hword] at hlow hhigh
  rw [wide, hword]
  omega

theorem natAbs_shiftRight_le (n : Int) (count : Nat) : (shiftRight n count).natAbs ≤ n.natAbs := by
  rw [shiftRight, Int.shiftRight_eq_div_pow]
  exact Int.natAbs_ediv_le_natAbs n _

theorem BinaryOp.real_near {op : BinaryOp} {r : Int} (hx : IsWhole x a) (hy : IsWhole y b)
    (hdtype : dtype.isFloat = false) (hop : op.ofWholes? a b = some r) :
    Near (op.real x y dtype) r := by
  have ha := hx.bound
  have hb := hy.bound
  have hless := hx.lt_iff hy
  have hmore := hy.lt_iff hx
  have hzero : (y == 0) = decide (b = 0) := by
    rw [Bool.eq_iff_iff, hy.beq_iff IsWhole.zero, decide_eq_true_iff]
  cases op with
  | add => exact Option.some.inj hop ▸ hx.add hy
  | sub => exact Option.some.inj hop ▸ hx.sub hy
  | mul =>
      have hproduct : (a * b).natAbs ≤ 2 ^ 120 := by
        rw [Int.natAbs_mul]
        exact (Nat.mul_le_mul ha hb).trans (by decide)
      rw [← Option.some.inj hop, saturateWide_eq hproduct]
      exact hx.mul hy
  | div =>
      rw [← Option.some.inj hop, real, quotient, hdtype, hzero]
      by_cases hb : b = 0
      · rw [hb, Int.tdiv_zero]
        exact IsWhole.zero.near
      · rw [decide_eq_false hb]
        exact (hx.quotient hy hb).near
  | mod =>
      rw [← Option.some.inj hop, real, rest, hdtype, hzero]
      by_cases hb : b = 0
      · rw [if_pos hb, decide_eq_true hb]
        exact IsWhole.zero.near
      · rw [if_neg hb, decide_eq_false hb]
        exact (hx.remainder hy hb).near
  | eq =>
      refine Option.some.inj hop ▸ near_flag ?_
      rw [Bool.eq_iff_iff, hx.beq_iff hy, decide_eq_true_iff]
  | ne =>
      refine Option.some.inj hop ▸ near_flag ?_
      rw [bne, Bool.eq_iff_iff, Bool.not_eq_true', Bool.eq_false_iff, Ne, hx.beq_iff hy,
        decide_eq_true_iff]
  | lt => exact Option.some.inj hop ▸ near_flag (decide_eq_decide.mpr hless)
  | gt => exact Option.some.inj hop ▸ near_flag (decide_eq_decide.mpr hmore)
  | le => exact Option.some.inj hop ▸ near_flag (decide_eq_decide.mpr (hx.le_iff hy))
  | ge => exact Option.some.inj hop ▸ near_flag (decide_eq_decide.mpr (hy.le_iff hx))
  | and =>
      refine Option.some.inj hop ▸ near_flag ?_
      rw [hx.near.holds_eq, hy.near.holds_eq, Bool.decide_and]
  | or =>
      refine Option.some.inj hop ▸ near_flag ?_
      rw [hx.near.holds_eq, hy.near.holds_eq, Bool.decide_or]
  | band =>
      rw [← Option.some.inj hop, real, wordOf_eq hx, wordOf_eq hy]
      exact near_ofInt (natAbs_toInt_le _)
  | bor =>
      rw [← Option.some.inj hop, real, wordOf_eq hx, wordOf_eq hy]
      exact near_ofInt (natAbs_toInt_le _)
  | bxor =>
      rw [← Option.some.inj hop, real, wordOf_eq hx, wordOf_eq hy]
      exact near_ofInt (natAbs_toInt_le _)
  | shl =>
      rw [← Option.some.inj hop, real, wordOf_eq hx, wordOf_eq hy]
      exact near_ofInt (natAbs_wide_le _)
  | shr =>
      have hshift := natAbs_shiftRight_le a (shiftCount b)
      rw [← Option.some.inj hop, real, wordOf_eq hx, wordOf_eq hy]
      exact near_ofInt (by omega)
  | max => exact Option.some.inj hop ▸ (hx.larger hy).near
  | min => exact Option.some.inj hop ▸ (hx.smaller hy).near
  | _ => cases hop

theorem DataType.promote_exact {left right : DataType} (hl : left.isExact = true)
    (hr : right.isExact = true) : (left.promote right).isExact = true := by
  cases left <;> cases right <;> first | rfl | exact absurd hl Bool.false_ne_true |
    exact absurd hr Bool.false_ne_true

theorem DataType.isFloat_of_exact (h : dtype.isExact = true) : dtype.isFloat = false := by
  cases dtype <;> first | rfl | exact absurd h Bool.false_ne_true

namespace UnaryOp

variable {op : UnaryOp}

-- Operations without a floating result stay among the whole numbers.
theorem ofWhole?_of_exact (hdtype : dtype.isExact = true)
    (hresult : (op.resultType dtype).isFloat = false) (n : Int) :
    (op.resultType dtype).isExact = true ∧ ∃ r, op.ofWhole? n dtype = some r := by
  have hfloat := DataType.isFloat_of_exact hdtype
  have hfloating : dtype.floating = .f32 := by
    rw [DataType.floating, hfloat]
    rfl
  cases op with
  | not => exact ⟨rfl, _, rfl⟩
  | pos | neg | abs | ceil | floor | trunc | round => exact ⟨hdtype, _, rfl⟩
  | bnot =>
      refine ⟨hdtype, ?_⟩
      unfold ofWhole?
      split_ifs <;> exact ⟨_, rfl⟩
  | _ =>
      have hresult : dtype.floating.isFloat = false := hresult
      rw [hfloating] at hresult
      cases hresult

theorem onScalar_eq {scalar : Scalar} {r : Int} (hpayload : scalar.payload = .whole n)
    (hexact : scalar.dtype.isExact = true) (hresult : (op.resultType scalar.dtype).isExact = true)
    (hop : op.ofWhole? n scalar.dtype = some r) :
    op.onScalar scalar = Scalar.ofWhole r (op.resultType scalar.dtype) := by
  have hwhole : scalar.whole? = some n := by
    rw [Scalar.whole?, hpayload]
  rw [onScalar]
  simp only [hexact, hresult, Bool.and_self, if_true, hwhole, Option.bind_some, hop]

theorem isWhole_cell {r : Int} (h : IsWhole x n) (hresult : (op.resultType dtype).isExact = true)
    (hop : op.ofWhole? n dtype = some r)
    (hsmall : ((op.resultType dtype).settle r).natAbs ≤ 2 ^ 53) :
    IsWhole (op.cell x dtype) ((op.resultType dtype).settle r) :=
  DataType.isWhole_normalize (real_near h hop) hresult hsmall

end UnaryOp

namespace BinaryOp

variable {op : BinaryOp} {left right : DataType}

theorem ofWholes?_of_exact (hl : left.isExact = true) (hr : right.isExact = true)
    (hresult : (op.resultType left right).isFloat = false) (a b : Int) :
    (op.resultType left right).isExact = true ∧ ∃ r, op.ofWholes? a b = some r := by
  have hpromoted := DataType.promote_exact hl hr
  have hfloat := DataType.isFloat_of_exact hpromoted
  have hfloating : (left.promote right).floating = .f32 := by
    rw [DataType.floating, hfloat]
    rfl
  cases op with
  | atan2 | pow | hypot | fmod =>
      have hresult : (left.promote right).floating.isFloat = false := hresult
      rw [hfloating] at hresult
      cases hresult
  | eq | ne | lt | gt | le | ge | and | or => exact ⟨rfl, _, rfl⟩
  | shl | shr => exact ⟨hl, _, rfl⟩
  | _ => exact ⟨hpromoted, _, rfl⟩

theorem onScalars_eq {left right : Scalar} {r : Int} (hleft : left.payload = .whole a)
    (hright : right.payload = .whole b)
    (hexact : (left.dtype.promote right.dtype).isExact = true)
    (hresult : (op.resultType left.dtype right.dtype).isExact = true)
    (hop : op.ofWholes? a b = some r) :
    op.onScalars left right = Scalar.ofWhole r (op.resultType left.dtype right.dtype) := by
  have hwhole : left.whole? = some a := by
    rw [Scalar.whole?, hleft]
  have hwhole' : right.whole? = some b := by
    rw [Scalar.whole?, hright]
  rw [onScalars]
  simp only [hexact, hresult, Bool.and_self, if_true, hwhole, hwhole', Option.bind_some, hop]

theorem isWhole_cell {r : Int} (hx : IsWhole x a) (hy : IsWhole y b)
    (hexact : (left.promote right).isExact = true)
    (hresult : (op.resultType left right).isExact = true) (hop : op.ofWholes? a b = some r)
    (hsmall : ((op.resultType left right).settle r).natAbs ≤ 2 ^ 53) :
    IsWhole (op.cell x y left right) ((op.resultType left right).settle r) :=
  DataType.isWhole_normalize (real_near hx hy (DataType.isFloat_of_exact hexact) hop) hresult hsmall

end BinaryOp

end MapAlgebra
