import MapAlgebra.Op.Real
import MapAlgebra.Scalar.Convert

namespace MapAlgebra

-- A truth value as a whole number.
def wholeFlag (b : Bool) : Int := if b then 1 else 0

namespace UnaryOp

-- The operation on whole numbers, for those operations that stay among them.
def ofWhole? (op : UnaryOp) (n : Int) (dtype : DataType) : Option Int :=
  match op with
  | .pos | .ceil | .floor | .trunc | .round => some n
  | .neg => some (-n)
  | .not => some (wholeFlag (n = 0))
  | .abs => some n.natAbs
  | .bnot =>
      if dtype.isBool then some (wholeFlag (n = 0))
      else if dtype.isUnsigned then some (Number.bitNot n % (dtype.range.2 + 1))
      else some (Number.bitNot n)
  | _ => none

-- Booleans and integers are computed exactly where the result is one too.
def onScalar (op : UnaryOp) (scalar : Scalar) : Except MapError Scalar :=
  let dtype := scalar.dtype
  let result := op.resultType dtype
  let exact :=
    if dtype.isExact && result.isExact then scalar.whole?.bind (op.ofWhole? · dtype) else none
  match exact with
  | some n => Scalar.ofWhole n result
  | none => Scalar.ofFloat (op.cell scalar.toFloat dtype) result

end UnaryOp

namespace BinaryOp

-- Quotients go toward zero and division by zero gives zero. A product saturates where it leaves
-- the word, and a shift to the left wraps around.
def ofWholes? (op : BinaryOp) (a b : Int) : Option Int :=
  match op with
  | .add => some (a + b)
  | .sub => some (a - b)
  | .mul => some (Number.saturateWide (a * b))
  | .div => some (a.tdiv b)
  | .mod => some (if b = 0 then 0 else a.tmod b)
  | .eq => some (wholeFlag (a = b))
  | .ne => some (wholeFlag (a ≠ b))
  | .lt => some (wholeFlag (a < b))
  | .gt => some (wholeFlag (b < a))
  | .le => some (wholeFlag (a ≤ b))
  | .ge => some (wholeFlag (b ≤ a))
  | .and => some (wholeFlag (a ≠ 0 ∧ b ≠ 0))
  | .or => some (wholeFlag (a ≠ 0 ∨ b ≠ 0))
  | .band => some (Number.bitAnd a b)
  | .bor => some (Number.bitOr a b)
  | .bxor => some (Number.bitXor a b)
  | .shl => some (Number.shiftLeft a (Number.shiftCount b))
  | .shr => some (Number.shiftRight a (Number.shiftCount b))
  | .max => some (Max.max a b)
  | .min => some (Min.min a b)
  | .atan2 | .pow | .hypot | .fmod => none

def onScalars (op : BinaryOp) (left right : Scalar) : Except MapError Scalar :=
  let result := op.resultType left.dtype right.dtype
  let exact :=
    if (left.dtype.promote right.dtype).isExact && result.isExact then
      left.whole?.bind fun a => right.whole?.bind fun b => op.ofWholes? a b
    else none
  match exact with
  | some n => Scalar.ofWhole n result
  | none =>
      Scalar.ofFloat (op.cell left.toFloat right.toFloat left.dtype right.dtype) result

end BinaryOp

end MapAlgebra
