import MapAlgebra.Number.Word
import MapAlgebra.Op

namespace MapAlgebra

open DataType (holds flag)

-- The whole part of a real as a word of 128 bits.
def wordOf (x : Float) : Int := Number.saturateWide (Number.wholePart x)

-- The inverse hyperbolic cosine by the logarithm of the sum with both roots.
def inverseCosh (x : Float) : Float :=
  if x < 1 then Number.notANumber
  else Float.log (x + Float.sqrt (x - 1) * Float.sqrt (x + 1))

-- The inverse hyperbolic sine; it leaves the range of doubles where twice the operand does.
def inverseSinh (x : Float) : Float :=
  if (Number.magnitude x + Number.magnitude x) == Number.infinity then
    (if Number.isNegative x then Number.negativeInfinity else Number.infinity)
  else Float.asinh x

namespace UnaryOp

-- The complement flips the bits of a word of the operand's width; a truth value is negated.
def complement (x : Float) (dtype : DataType) : Float :=
  if dtype.isBool then flag (!holds x)
  else
    let bits := Number.bitNot (wordOf x)
    if dtype.isUnsigned then Number.ofInt (bits % (dtype.range.2 + 1)) else Number.ofInt bits

-- The operation on reals. Cells of every type are computed this way.
def real (op : UnaryOp) (x : Float) (dtype : DataType) : Float :=
  match op with
  | .pos => x
  | .neg => -x
  | .not => flag (!holds x)
  | .bnot => complement x dtype
  | .sin => Float.sin x
  | .cos => Float.cos x
  | .tan => Float.tan x
  | .asin => Float.asin x
  | .acos => Float.acos x
  | .atan => Float.atan x
  | .sinh => Float.sinh x
  | .cosh => Float.cosh x
  | .tanh => Float.tanh x
  | .asinh => inverseSinh x
  | .acosh => inverseCosh x
  | .atanh => Float.atanh x
  | .exp => Float.exp x
  | .exp2 => Float.exp2 x
  | .exp10 => Float.pow 10 x
  | .log => Float.log x
  | .log2 => Float.log2 x
  | .log10 => Float.log10 x
  | .sqrt => Float.sqrt x
  | .cbrt => Float.cbrt x
  | .abs => Number.magnitude x
  | .ceil => Number.ceiling x
  | .floor => Number.floor x
  | .trunc => Number.truncate x
  | .round => Number.round x

-- The operation on a cell, brought into its result type.
def cell (op : UnaryOp) (x : Float) (dtype : DataType) : Float :=
  (op.resultType dtype).normalize (op.real x dtype)

end UnaryOp

namespace BinaryOp

-- Outside the floats a division drops the fraction and division by zero gives zero.
def quotient (x y : Float) (dtype : DataType) : Float :=
  if dtype.isFloat then x / y
  else if y == 0 then 0
  else Number.truncate (x / y)

def rest (x y : Float) (dtype : DataType) : Float :=
  if !dtype.isFloat && y == 0 then 0 else Number.remainder x y

def real (op : BinaryOp) (x y : Float) (dtype : DataType) : Float :=
  match op with
  | .add => x + y
  | .sub => x - y
  | .mul => x * y
  | .div => quotient x y dtype
  | .mod => rest x y dtype
  | .eq => flag (x == y)
  | .ne => flag (x != y)
  | .lt => flag (x < y)
  | .gt => flag (y < x)
  | .le => flag (x ≤ y)
  | .ge => flag (y ≤ x)
  | .and => flag (holds x && holds y)
  | .or => flag (holds x || holds y)
  | .band => Number.ofInt (Number.bitAnd (wordOf x) (wordOf y))
  | .bor => Number.ofInt (Number.bitOr (wordOf x) (wordOf y))
  | .bxor => Number.ofInt (Number.bitXor (wordOf x) (wordOf y))
  | .shl => Number.ofInt (Number.shiftLeft (wordOf x) (Number.shiftCount (wordOf y)))
  | .shr => Number.ofInt (Number.shiftRight (wordOf x) (Number.shiftCount (wordOf y)))
  | .max => Number.larger x y
  | .min => Number.smaller x y
  | .atan2 => Float.atan2 x y
  | .pow => Float.pow x y
  | .hypot => Number.hypotenuse x y
  | .fmod => Number.remainder x y

-- Two cells are combined in their common type and brought into the result type.
def cell (op : BinaryOp) (x y : Float) (left right : DataType) : Float :=
  (op.resultType left right).normalize (op.real x y (left.promote right))

end BinaryOp

-- One more value taken into a reduction.
def ReductionOp.combine (op : ReductionOp) (total x : Float) : Float :=
  match op with
  | .sum => total + x
  | .prod => total * x
  | .and => flag (holds total && holds x)
  | .or => flag (holds total || holds x)
  | .max => Number.larger total x
  | .min => Number.smaller total x

end MapAlgebra
