import MapAlgebra.Coded
import MapAlgebra.Number.Real

namespace MapAlgebra

-- The element type of a node's data.
inductive DataType where
  | untyped | f32 | f64 | b8 | u8 | u16 | u32 | u64 | s8 | s16 | s32 | s64
deriving DecidableEq, Repr

-- How many axes a node's data has.
inductive Dimension where
  | unknown | time | zero | one | two | three
deriving DecidableEq, Repr

-- Whether a node's data comes from or goes to a named resource.
inductive Stream where
  | closed | input | output | both
deriving DecidableEq, Repr

instance : Coded DataType where
  family := "DataType"
  all := [.untyped, .f32, .f64, .b8, .u8, .u16, .u32, .u64, .s8, .s16, .s32, .s64]
  code
    | .untyped => 0 | .f32 => 1 | .f64 => 2 | .b8 => 3
    | .u8 => 4 | .u16 => 5 | .u32 => 6 | .u64 => 7
    | .s8 => 8 | .s16 => 9 | .s32 => 10 | .s64 => 11
  label
    | .untyped => "none" | .f32 => "f32" | .f64 => "f64" | .b8 => "b8"
    | .u8 => "u8" | .u16 => "u16" | .u32 => "u32" | .u64 => "u64"
    | .s8 => "s8" | .s16 => "s16" | .s32 => "s32" | .s64 => "s64"
  variant
    | .untyped => "None" | .f32 => "F32" | .f64 => "F64" | .b8 => "B8"
    | .u8 => "U8" | .u16 => "U16" | .u32 => "U32" | .u64 => "U64"
    | .s8 => "S8" | .s16 => "S16" | .s32 => "S32" | .s64 => "S64"

instance : Coded Dimension where
  family := "NumDim"
  all := [.unknown, .time, .zero, .one, .two, .three]
  code
    | .unknown => 0 | .time => 1 | .zero => 2 | .one => 4 | .two => 6 | .three => 8
  label
    | .unknown => "none" | .time => "time" | .zero => "d0" | .one => "d1" | .two => "d2"
    | .three => "d3"
  variant
    | .unknown => "None" | .time => "Time" | .zero => "D0" | .one => "D1" | .two => "D2"
    | .three => "D3"

instance : Coded Stream where
  family := "StreamDir"
  all := [.closed, .input, .output, .both]
  code
    | .closed => 0 | .input => 1 | .output => 2 | .both => 3
  label
    | .closed => "none" | .input => "in" | .output => "out" | .both => "io"
  variant
    | .closed => "None" | .input => "In" | .output => "Out" | .both => "InOut"

namespace DataType

def isFloat : DataType → Bool
  | .f32 | .f64 => true
  | _ => false

def isBool : DataType → Bool
  | .b8 => true
  | _ => false

def isSigned : DataType → Bool
  | .s8 | .s16 | .s32 | .s64 => true
  | _ => false

def isUnsigned : DataType → Bool
  | .u8 | .u16 | .u32 | .u64 => true
  | _ => false

def isInteger (dtype : DataType) : Bool :=
  dtype.isSigned || dtype.isUnsigned

-- Arithmetic on these types stays in the whole numbers.
def isExact (dtype : DataType) : Bool :=
  dtype.isInteger || dtype.isBool

def bytes : DataType → Nat
  | .untyped => 0
  | .b8 | .u8 | .s8 => 1
  | .u16 | .s16 => 2
  | .f32 | .u32 | .s32 => 4
  | .f64 | .u64 | .s64 => 8

def signedOfBytes : Nat → DataType
  | 1 => .s8
  | 2 => .s16
  | 4 => .s32
  | _ => .s64

-- The type in which two types are combined: a float wins over an integer, the wider integer
-- over the narrower one, a signed one over an unsigned one of the same width, and any type
-- over a boolean or over none.
def promote (a b : DataType) : DataType :=
  if a = b then a
  else if a.isFloat || b.isFloat then
    if a = .f64 || b = .f64 then .f64 else .f32
  else
    match a, b with
    | .untyped, t | t, .untyped => t
    | .b8, t | t, .b8 => t
    | a, b =>
        if b.bytes < a.bytes then a
        else if a.bytes < b.bytes then b
        else signedOfBytes a.bytes

-- The type of a floating-point function's result.
def floating (dtype : DataType) : DataType :=
  if dtype.isFloat then dtype else .f32

-- The least and the greatest whole number of an exact type.
def range : DataType → Int × Int
  | .b8 => (0, 1)
  | .u8 => (0, Nat.pow 2 8 - 1)
  | .u16 => (0, Nat.pow 2 16 - 1)
  | .u32 => (0, Nat.pow 2 32 - 1)
  | .u64 => (0, Nat.pow 2 64 - 1)
  | .s8 => (-Nat.pow 2 7, Nat.pow 2 7 - 1)
  | .s16 => (-Nat.pow 2 15, Nat.pow 2 15 - 1)
  | .s32 => (-Nat.pow 2 31, Nat.pow 2 31 - 1)
  | .s64 => (-Nat.pow 2 63, Nat.pow 2 63 - 1)
  | .untyped | .f32 | .f64 => (0, 0)

def largestSingle : Float :=
  (Number.Binary.finite false (Nat.pow 2 24 - 1) 104).toFloat

def largestDouble : Float :=
  (Number.Binary.finite false (Nat.pow 2 53 - 1) 971).toFloat

-- The ends of a type's range as doubles; the 64-bit ones round up to a power of two.
def bounds : DataType → Float × Float
  | .untyped => (Number.negativeInfinity, Number.infinity)
  | .f32 => (-largestSingle, largestSingle)
  | .f64 => (-largestDouble, largestDouble)
  | dtype => (Number.ofInt dtype.range.1, Number.ofInt dtype.range.2)

-- A cell holds when it is neither zero nor not-a-number.
def holds (x : Float) : Bool :=
  x != 0 && !x.isNaN

def flag (b : Bool) : Float :=
  if b then 1 else 0

-- Brings a value into the set of values that a type can hold.
def normalize (dtype : DataType) (x : Float) : Float :=
  match dtype with
  | .untyped | .f64 => x
  | .f32 => Number.widen (Number.narrow x)
  | .b8 => flag (holds x)
  | dtype =>
      if x.isNaN then 0
      else Number.clamp (Number.truncate x) dtype.bounds.1 dtype.bounds.2

end DataType

end MapAlgebra
