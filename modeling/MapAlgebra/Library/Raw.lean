import MapAlgebra.Coded.Lookup
import MapAlgebra.Engine
import MapAlgebra.Shape.Checked

namespace MapAlgebra.Library

-- How many patterns of bits the values of a type have. Nothing has the untyped type.
def patterns : DataType → Nat
  | .untyped => 0
  | .b8 => 2
  | dtype => Nat.pow 2 (8 * dtype.bytes)

-- A scalar as it lies in memory: a type with the bits of one of its values. A not-a-number with other
-- bits is another image, although as a number there is only one.
@[ext]
structure Image where
  dtype : DataType
  bits : Nat
  known : bits < patterns dtype
deriving DecidableEq, Repr

namespace Image

def ofScalar : Scalar → Image
  | .bool value => ⟨.b8, value.toNat, value.toNat_lt⟩
  | .s8 value => ⟨.s8, value.toUInt8.toNat, value.toUInt8.toNat_lt⟩
  | .s16 value => ⟨.s16, value.toUInt16.toNat, value.toUInt16.toNat_lt⟩
  | .s32 value => ⟨.s32, value.toUInt32.toNat, value.toUInt32.toNat_lt⟩
  | .s64 value => ⟨.s64, value.toUInt64.toNat, value.toUInt64.toNat_lt⟩
  | .u8 value => ⟨.u8, value.toNat, value.toNat_lt⟩
  | .u16 value => ⟨.u16, value.toNat, value.toNat_lt⟩
  | .u32 value => ⟨.u32, value.toNat, value.toNat_lt⟩
  | .u64 value => ⟨.u64, value.toNat, value.toNat_lt⟩
  | .f32 value => ⟨.f32, value.toBits.toNat, value.toBits.toNat_lt⟩
  | .f64 value => ⟨.f64, value.toBits.toNat, value.toBits.toNat_lt⟩

def toScalar : Image → Scalar
  | ⟨.untyped, _, known⟩ => absurd known (Nat.not_lt_zero _)
  | ⟨.b8, bits, _⟩ => .bool (bits ≠ 0)
  | ⟨.s8, bits, _⟩ => .s8 (UInt8.ofNat bits).toInt8
  | ⟨.s16, bits, _⟩ => .s16 (UInt16.ofNat bits).toInt16
  | ⟨.s32, bits, _⟩ => .s32 (UInt32.ofNat bits).toInt32
  | ⟨.s64, bits, _⟩ => .s64 (UInt64.ofNat bits).toInt64
  | ⟨.u8, bits, _⟩ => .u8 (UInt8.ofNat bits)
  | ⟨.u16, bits, _⟩ => .u16 (UInt16.ofNat bits)
  | ⟨.u32, bits, _⟩ => .u32 (UInt32.ofNat bits)
  | ⟨.u64, bits, _⟩ => .u64 (UInt64.ofNat bits)
  | ⟨.f32, bits, _⟩ => .f32 (Float32.ofBits (UInt32.ofNat bits))
  | ⟨.f64, bits, _⟩ => .f64 (Float.ofBits (UInt64.ofNat bits))

end Image

-- A scalar as libraries exchange it: a word, of which only the low bytes that the type needs
-- count, and the code of the type.
structure RawScalar where
  word : UInt64
  code : Int
deriving DecidableEq, Repr

namespace RawScalar

-- The low bytes of the word.
def field (raw : RawScalar) (bytes : Nat) : Nat := raw.word.toNat % Nat.pow 2 (8 * bytes)

-- The bits of the value that the type says. Any byte but zero is true.
def bits (raw : RawScalar) (dtype : DataType) : Nat :=
  if dtype = .b8 then min (raw.field dtype.bytes) 1 else raw.field dtype.bytes

theorem bits_lt (raw : RawScalar) {dtype : DataType} (h : dtype ≠ .untyped) :
    raw.bits dtype < patterns dtype := by
  cases dtype with
  | untyped => exact absurd rfl h
  | b8 => exact Nat.lt_succ_of_le (Nat.min_le_right _ _)
  | _ => exact Nat.mod_lt _ (Nat.two_pow_pos _)

def ofImage (image : Image) : RawScalar := ⟨UInt64.ofNat image.bits, Coded.code image.dtype⟩

def toImage (raw : RawScalar) : Except MapError Image := do
  let dtype : DataType ← Coded.ofCode raw.code
  if h : dtype = .untyped then .error (.typeMismatch .untypedScalar)
  else return ⟨dtype, raw.bits dtype, raw.bits_lt h⟩

def ofScalar (scalar : Scalar) : RawScalar := ofImage (.ofScalar scalar)

def toScalar (raw : RawScalar) : Except MapError Scalar := do return (← raw.toImage).toScalar

-- The digits of the word as far as the type uses it, and the code.
def text (raw : RawScalar) : String :=
  let bytes := match (Coded.find? raw.code : Option DataType) with
    | some dtype => dtype.bytes
    | none => 8
  Text.paddedHex (2 * bytes) (raw.field bytes) ++ ":" ++ toString raw.code

end RawScalar

-- The weights of a kernel in the order in which they are handed over.
def rawKernel (kernel : List Scalar) : List RawScalar := kernel.map RawScalar.ofScalar

-- One argument of a library call.
inductive Argument where
  | node (address : Address)
  | int (value : Int)
  | array (raw : Shape.Raw)
  | text (value : String)
  | scalar (raw : RawScalar)
  | kernel (values : List RawScalar)

def Argument.show : Argument → String
  | node address => Text.hex address
  | int value => toString value
  | array raw => s!"[{raw.first},{raw.second};{raw.count}]"
  | text value => "<" ++ value ++ ">"
  | scalar raw => raw.text
  | kernel values =>
      "\x7b" ++ String.intercalate ", " (values.map RawScalar.text) ++ "\x7d"

-- A call with the name of the function and its arguments.
structure Call where
  symbol : String
  arguments : List Argument

def Call.text (call : Call) : String :=
  call.symbol ++ "(" ++ String.intercalate ", " (call.arguments.map Argument.show) ++ ")"

-- Which function names nodes.
inductive NameSymbol where
  | long
  | short
deriving DecidableEq, Repr

-- The functions that a library may or may not have.
structure Features where
  name : Option NameSymbol
  stream : Bool
  group : Bool
deriving DecidableEq, Repr

-- The variables of a loop as a library reports them. Either list may be missing.
structure RawPairs where
  count : Int
  before : Option (List Address)
  after : Option (List Address)

end MapAlgebra.Library
