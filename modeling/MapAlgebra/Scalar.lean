import MapAlgebra.DataType
import MapAlgebra.Number.Decimal
import MapAlgebra.Number.Word

namespace MapAlgebra

-- One typed value.
inductive Scalar where
  | bool (value : Bool)
  | s8 (value : Int8)
  | s16 (value : Int16)
  | s32 (value : Int32)
  | s64 (value : Int64)
  | u8 (value : UInt8)
  | u16 (value : UInt16)
  | u32 (value : UInt32)
  | u64 (value : UInt64)
  | f32 (value : Float32)
  | f64 (value : Float)

-- A number or truth value of the host before it has a type.
inductive Literal where
  | float (value : Float)
  | int (value : Int)
  | bool (value : Bool)

-- What a scalar holds once its type is forgotten. The sign of a zero and a not-a-number only
-- occur in real payloads.
inductive Payload where
  | whole (value : Int)
  | real (value : Float)

namespace Payload

def toFloat : Payload → Float
  | .whole n => Number.ofInt n
  | .real x => x

def isTrue : Payload → Bool
  | .whole n => n ≠ 0
  | .real x => x != 0

-- Reals drop their fraction; not-a-number counts as zero.
def toWhole : Payload → Int
  | .whole n => n
  | .real x => Number.wholePart x

-- The nearest whole number that a type can hold.
def saturated (payload : Payload) (dtype : DataType) : Int :=
  Number.saturate payload.toWhole dtype.range.1 dtype.range.2

end Payload

namespace Scalar

def dtype : Scalar → DataType
  | bool _ => .b8
  | s8 _ => .s8
  | s16 _ => .s16
  | s32 _ => .s32
  | s64 _ => .s64
  | u8 _ => .u8
  | u16 _ => .u16
  | u32 _ => .u32
  | u64 _ => .u64
  | f32 _ => .f32
  | f64 _ => .f64

def payload : Scalar → Payload
  | bool value => .whole (if value then 1 else 0)
  | s8 value => .whole value.toInt
  | s16 value => .whole value.toInt
  | s32 value => .whole value.toInt
  | s64 value => .whole value.toInt
  | u8 value => .whole value.toNat
  | u16 value => .whole value.toNat
  | u32 value => .whole value.toNat
  | u64 value => .whole value.toNat
  | f32 value => .real (Number.widen value)
  | f64 value => .real value

def toFloat (scalar : Scalar) : Float := scalar.payload.toFloat

def isTrue (scalar : Scalar) : Bool := scalar.payload.isTrue

-- The exact value of a boolean or integer.
def whole? (scalar : Scalar) : Option Int :=
  match scalar.payload with
  | .whole n => some n
  | .real _ => none

-- Gives a payload a type. Nothing has the untyped type.
def ofPayload? (payload : Payload) (dtype : DataType) : Option Scalar :=
  match dtype with
  | .untyped => none
  | .b8 => some (bool payload.isTrue)
  | .f32 => some (f32 (Number.narrow payload.toFloat))
  | .f64 => some (f64 payload.toFloat)
  | .s8 => some (s8 (Int8.ofInt (payload.saturated .s8)))
  | .s16 => some (s16 (Int16.ofInt (payload.saturated .s16)))
  | .s32 => some (s32 (Int32.ofInt (payload.saturated .s32)))
  | .s64 => some (s64 (Int64.ofInt (payload.saturated .s64)))
  | .u8 => some (u8 (UInt8.ofNat (payload.saturated .u8).toNat))
  | .u16 => some (u16 (UInt16.ofNat (payload.saturated .u16).toNat))
  | .u32 => some (u32 (UInt32.ofNat (payload.saturated .u32).toNat))
  | .u64 => some (u64 (UInt64.ofNat (payload.saturated .u64).toNat))

-- A real literal becomes single precision, a whole one a 32-bit integer.
def ofLiteral : Literal → Scalar
  | .float x => f32 (Number.narrow x)
  | .bool b => bool b
  | .int n => s32 (Int32.ofInt (Payload.saturated (.whole n) .s32))

def text : Scalar → String
  | bool value => if value then "true" else "false"
  | s8 value => toString value.toInt
  | s16 value => toString value.toInt
  | s32 value => toString value.toInt
  | s64 value => toString value.toInt
  | u8 value => toString value.toNat
  | u16 value => toString value.toNat
  | u32 value => toString value.toNat
  | u64 value => toString value.toNat
  | f32 value => Number.float32Text value
  | f64 value => Number.floatText value

-- Equality as numbers of one type: not-a-number differs from itself and the two zeros agree.
def same : Scalar → Scalar → Bool
  | bool a, bool b => a == b
  | s8 a, s8 b => a == b
  | s16 a, s16 b => a == b
  | s32 a, s32 b => a == b
  | s64 a, s64 b => a == b
  | u8 a, u8 b => a == b
  | u16 a, u16 b => a == b
  | u32 a, u32 b => a == b
  | u64 a, u64 b => a == b
  | f32 a, f32 b => a == b
  | f64 a, f64 b => a == b
  | _, _ => false

end Scalar

end MapAlgebra
