import MapAlgebra.Proofs.Number.Words
import MapAlgebra.Proofs.Op.Cells

namespace MapAlgebra

open Number

variable {n a b r : Int} {dtype : DataType}

namespace UnaryOp

-- The results of the operations on whole numbers, without regard to any type.
def ideal? (op : UnaryOp) (n : Int) : Option Int :=
  match op with
  | .pos => some n
  | .neg => some (-n)
  | .not => some (wholeFlag (n = 0))
  | .abs => some |n|
  | _ => none

end UnaryOp

namespace BinaryOp

-- Bits are those of two's complements without an end. A negative count does not shift.
def ideal? (op : BinaryOp) (a b : Int) : Option Int :=
  match op with
  | .add => some (a + b)
  | .sub => some (a - b)
  | .mul => some (a * b)
  | .div => some (if b = 0 then 0 else a.tdiv b)
  | .mod => some (if b = 0 then 0 else a.tmod b)
  | .band => some (a.land b)
  | .bor => some (a.lor b)
  | .bxor => some (a.xor b)
  | .shl => some (a * 2 ^ b.toNat)
  | .shr => some (a / 2 ^ b.toNat)
  | .max => some (Max.max a b)
  | .min => some (Min.min a b)
  | .eq => some (wholeFlag (a = b))
  | .ne => some (wholeFlag (a ≠ b))
  | .lt => some (wholeFlag (a < b))
  | .gt => some (wholeFlag (a > b))
  | .le => some (wholeFlag (a ≤ b))
  | .ge => some (wholeFlag (a ≥ b))
  | .and => some (wholeFlag (a ≠ 0 ∧ b ≠ 0))
  | .or => some (wholeFlag (a ≠ 0 ∨ b ≠ 0))
  | .atan2 | .pow | .hypot | .fmod => none

-- A shift to the left stays in the word, or it shifts a truth value or minus one.
def Fits (op : BinaryOp) (left : DataType) (a b : Int) : Prop :=
  op = .shl → left = .b8 ∨ a = -1 ∨ InWord (a * 2 ^ b.toNat)

end BinaryOp

namespace DataType

theorem range_inWord (dtype : DataType) : InWord dtype.range.1 ∧ InWord dtype.range.2 := by
  cases dtype <;> exact ⟨by decide, by decide⟩

-- Saturating in the word first makes no difference to what a type holds.
theorem settle_saturateWide (dtype : DataType) (n : Int) :
    dtype.settle (saturateWide n) = dtype.settle n := by
  obtain ⟨⟨hlow, -⟩, -, hhigh⟩ := dtype.range_inWord
  rw [settle, settle, saturate_saturateWide hlow hhigh]
  simp only [ne_eq, saturateWide_eq_zero_iff]

-- What a type holds is in the word.
theorem inWord_of_settle (h : dtype.settle n = n) : InWord n := by
  obtain ⟨hlow, hhigh⟩ := dtype.range_inWord
  rw [inWord_iff] at hlow hhigh ⊢
  rw [settle] at h
  split at h
  · unfold wholeFlag at h
    split at h <;> omega
  · rw [saturate] at h
    omega

theorem settle_bool (n : Int) : settle .b8 n = wholeFlag (n ≠ 0) := rfl

-- However far a truth value is shifted to the left, it is not shifted out of the word.
theorem settle_shiftLeft_bool (h : settle .b8 a = a) (b : Int) :
    settle .b8 (shiftLeft a (shiftCount b)) = settle .b8 (a * 2 ^ b.toNat) := by
  by_cases ha : a = 0
  · rw [ha, shiftLeft, Int.zero_mul, Int.zero_mul]
    rfl
  · obtain rfl : 1 = a := by
      rw [← h]
      exact (if_pos (decide_eq_true ha)).symm
    have hexact : (1 : Int) * 2 ^ b.toNat ≠ 0 := by positivity
    have hshifted := shiftLeft_one_ne_zero b
    rw [settle_bool, settle_bool, decide_eq_true hshifted, decide_eq_true hexact]

end DataType

namespace UnaryOp

theorem ofWhole?_of_ideal {op : UnaryOp} (h : op.ideal? n = some r) :
    op.ofWhole? n dtype = some r := by
  cases op with
  | pos | neg | not => exact h
  | abs => rw [ofWhole?, Int.natCast_natAbs]; exact h
  | _ => cases h

theorem resultType_exact {op : UnaryOp} (hdtype : dtype.isExact = true)
    (h : op.ideal? n = some r) : (op.resultType dtype).isExact = true := by
  cases op with
  | not => rfl
  | pos | neg | abs => exact hdtype
  | _ => cases h

end UnaryOp

namespace BinaryOp

variable {op : BinaryOp} {left right : DataType}

theorem resultType_exact (hl : left.isExact = true) (hr : right.isExact = true)
    (h : op.ideal? a b = some r) : (op.resultType left right).isExact = true := by
  cases op with
  | atan2 | pow | hypot | fmod => cases h
  | eq | ne | lt | gt | le | ge | and | or => rfl
  | shl | shr => exact hl
  | _ => exact DataType.promote_exact hl hr

-- The word carries every result that fits, up to what the type of the result leaves of it.
theorem settle_ofWholes? (hl : left.settle a = a) (hr : right.settle b = b)
    (hfits : op.Fits left a b) (h : op.ideal? a b = some r) :
    ∃ s, op.ofWholes? a b = some s ∧
      (op.resultType left right).settle s = (op.resultType left right).settle r := by
  have ha := DataType.inWord_of_settle hl
  have hb := DataType.inWord_of_settle hr
  cases op with
  | mul => exact Option.some.inj h ▸ ⟨_, rfl, DataType.settle_saturateWide _ _⟩
  | div =>
      refine ⟨_, rfl, ?_⟩
      rw [← Option.some.inj h]
      split
      · rename_i hzero
        rw [hzero, Int.tdiv_zero]
      · rfl
  | band => exact ⟨_, rfl, by rw [← Option.some.inj h, bitAnd_eq ha hb]⟩
  | bor => exact ⟨_, rfl, by rw [← Option.some.inj h, bitOr_eq ha hb]⟩
  | bxor => exact ⟨_, rfl, by rw [← Option.some.inj h, bitXor_eq ha hb]⟩
  | shl =>
      refine ⟨_, rfl, ?_⟩
      rw [← Option.some.inj h]
      obtain rfl | rfl | hword := hfits rfl
      · exact DataType.settle_shiftLeft_bool hl b
      · rw [shiftLeft_neg_one]
        exact DataType.settle_saturateWide _ _
      · rw [shiftLeft_eq hword]
  | shr => exact ⟨_, rfl, by rw [← Option.some.inj h, shiftRight_eq ha]⟩
  | atan2 | pow | hypot | fmod => cases h
  | _ => exact ⟨_, rfl, by rw [← Option.some.inj h]⟩

end BinaryOp

-- Arithmetic on booleans and integers of the host is exact and then saturates to the type of the
-- result.
theorem integers_exact {left right : Scalar} (hl : left.dtype.isExact = true)
    (hr : right.dtype.isExact = true) :
    ∃ a b, left.payload = .whole a ∧ right.payload = .whole b ∧
      (∀ (op : UnaryOp) (r : Int), op.ideal? a = some r → ∃ result,
        op.onScalar left = .ok result ∧ result.dtype = op.resultType left.dtype ∧
          result.payload = .whole (result.dtype.settle r)) ∧
      ∀ (op : BinaryOp) (r : Int), op.ideal? a b = some r → op.Fits left.dtype a b → ∃ result,
        op.onScalars left right = .ok result ∧
          result.dtype = op.resultType left.dtype right.dtype ∧
          result.payload = .whole (result.dtype.settle r) := by
  obtain ⟨a, hleft, ha⟩ := Scalar.exists_payload hl
  obtain ⟨b, hright, hb⟩ := Scalar.exists_payload hr
  refine ⟨a, b, hleft, hright, fun op r hideal => ?_, fun op r hideal hfits => ?_⟩
  · have hresult := UnaryOp.resultType_exact hl hideal
    rw [op.onScalar_eq hleft hl hresult (UnaryOp.ofWhole?_of_ideal hideal)]
    obtain ⟨result, hok, hdtype, hpayload⟩ := Scalar.ofWhole_eq_ok hresult r
    exact ⟨result, hok, hdtype, hdtype ▸ hpayload⟩
  · have hresult := BinaryOp.resultType_exact hl hr hideal
    obtain ⟨s, hs, hsettle⟩ := BinaryOp.settle_ofWholes? ha hb hfits hideal
    rw [op.onScalars_eq hleft hright (DataType.promote_exact hl hr) hresult hs]
    obtain ⟨result, hok, hdtype, hpayload⟩ := Scalar.ofWhole_eq_ok hresult s
    exact ⟨result, hok, hdtype, by rw [hpayload, hdtype, hsettle]⟩

-- The smallest number has neither a magnitude nor a multiple in its type. It can be shifted to the
-- left as long as the result stays in the word.
theorem wide_integers_exact :
    (∃ result, UnaryOp.abs.onScalar (.s64 (-9223372036854775808)) = .ok result ∧
        result.payload = .whole 9223372036854775807) ∧
      (∃ result, BinaryOp.mul.onScalars (.s64 (-9223372036854775808)) (.s8 62) = .ok result ∧
        result.payload = .whole (-9223372036854775808)) ∧
      (∃ result, BinaryOp.shl.onScalars (.s64 (-9223372036854775808)) (.s8 62) = .ok result ∧
        result.payload = .whole (-9223372036854775808)) ∧
      ∃ result, BinaryOp.shr.onScalars (.s64 (-9223372036854775808)) (.s8 62) = .ok result ∧
        result.payload = .whole (-2) := by
  obtain ⟨a, b, ha, hb, hunary, hbinary⟩ :=
    @integers_exact (.s64 (-9223372036854775808)) (.s8 62) rfl rfl
  obtain rfl := Payload.whole.inj ha
  obtain rfl := Payload.whole.inj hb
  refine ⟨?_, ?_, ?_, ?_⟩
  · obtain ⟨result, hok, htype, hwhole⟩ := hunary .abs _ rfl
    exact ⟨result, hok, by rw [hwhole, htype]; rfl⟩
  · obtain ⟨result, hok, htype, hwhole⟩ := hbinary .mul _ rfl nofun
    exact ⟨result, hok, by rw [hwhole, htype]; rfl⟩
  · obtain ⟨result, hok, htype, hwhole⟩ := hbinary .shl _ rfl fun _ => Or.inr (Or.inr (by decide))
    exact ⟨result, hok, by rw [hwhole, htype]; rfl⟩
  · obtain ⟨result, hok, htype, hwhole⟩ := hbinary .shr _ rfl nofun
    exact ⟨result, hok, by rw [hwhole, htype]; rfl⟩

-- A one in the sign of the word becomes the smallest number of its type instead of the largest.
theorem shift_into_sign :
    BinaryOp.ideal? .shl 1 127 = some (2 ^ 127) ∧
      DataType.settle .s32 (2 ^ 127) = 2147483647 ∧
      BinaryOp.shl.onScalars (.s32 1) (.s32 127) = .ok (.s32 (-2147483648)) :=
  ⟨rfl, by decide, rfl⟩

end MapAlgebra
