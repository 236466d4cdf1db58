import MapAlgebra.Json.Reader
import MapAlgebra.Layout
import MapAlgebra.Grid
import MapAlgebra.Shape.Checked

namespace MapAlgebra

namespace Numeral

-- Whole numbers are only those that fit a 64-bit word, and negative zero is not among them.
def whole? (numeral : Numeral) : Option Int :=
  if !numeral.whole then none
  else if numeral.negative then
    if 0 < numeral.digits ∧ numeral.digits ≤ Nat.pow 2 63 then some (-(numeral.digits : Int)) else none
  else if numeral.digits < Nat.pow 2 64 then some numeral.digits
  else none

-- The nearest double; a number beyond the range is refused.
def float? (numeral : Numeral) : Option Float :=
  Number.readDecimal numeral.negative numeral.digits numeral.exponent

-- A whole number is rounded once, any other number first to a double.
def single? (numeral : Numeral) : Option Float32 :=
  match numeral.whole? with
  | some n => some (Number.Binary.toFloat32 (.finite (n < 0) n.natAbs 0))
  | none => numeral.float?.map Number.narrow

end Numeral

namespace Json

def intIn (low high : Int) : Json → Option Int
  | .number numeral => do
      let n ← numeral.whole?
      if low ≤ n ∧ n ≤ high then some n else none
  | _ => none

def int32? : Json → Option Int := intIn (-Nat.pow 2 31) (Nat.pow 2 31 - 1)

-- A count or a size in memory.
def count? (json : Json) : Option Nat := (intIn 0 (Nat.pow 2 64 - 1) json).map Int.toNat

def float? : Json → Option Float
  | .number numeral => numeral.float?
  | _ => none

def bool? : Json → Option Bool
  | .bool value => some value
  | _ => none

def text? : Json → Option String
  | .string text => text
  | _ => none

def listOf {α : Type} (item : Json → Option α) : Json → Option (List α)
  | .array items => items.mapM item
  | _ => none

-- The value of a name that may occur once.
def once? (members : List (String × Json)) (name : String) : Option (Option Json) :=
  match members.filter (·.1 = name) with
  | [] => some none
  | [(_, value)] => some (some value)
  | _ => none

-- The fields of a record. It is written with names, or as a list in the order of the fields.
-- Names that are not known are passed over.
def record? (names : List String) : Json → Option (List (Option Json))
  | .object members => do
      let members ← members.mapM fun (name, value) => name.map (·, value)
      names.mapM (once? members)
  | .array items =>
      if items.length ≤ names.length then
        some (names.mapIdx fun index _ => items[index]?)
      else none
  | _ => none

-- The name of a choice and what comes with it.
def choice? : Json → Option (String × Option Json)
  | .string text => text.map (·, none)
  | .object [(name, value)] => name.map (·, some value)
  | _ => none

def coded? {α : Type} [Coded α] (json : Json) : Option α := do
  match ← choice? json with
  | (name, none) => Coded.ofVariant? name
  | (name, some .null) => Coded.ofVariant? name
  | _ => none

end Json

namespace Scalar

-- The name under which data files hold a scalar's type.
def dataName : Scalar → String
  | bool _ => "Bool"
  | s8 _ => "I8"
  | s16 _ => "I16"
  | s32 _ => "I32"
  | s64 _ => "I64"
  | u8 _ => "U8"
  | u16 _ => "U16"
  | u32 _ => "U32"
  | u64 _ => "U64"
  | f32 _ => "F32"
  | f64 _ => "F64"

def ofJson? (json : Json) : Option Scalar := do
  match ← json.choice? with
  | (_, none) => none
  | ("Bool", some value) => value.bool?.map bool
  | ("I8", some value) => (value.intIn (-Nat.pow 2 7) (Nat.pow 2 7 - 1)).map (s8 ∘ Int8.ofInt)
  | ("I16", some value) => (value.intIn (-Nat.pow 2 15) (Nat.pow 2 15 - 1)).map (s16 ∘ Int16.ofInt)
  | ("I32", some value) => (value.intIn (-Nat.pow 2 31) (Nat.pow 2 31 - 1)).map (s32 ∘ Int32.ofInt)
  | ("I64", some value) => (value.intIn (-Nat.pow 2 63) (Nat.pow 2 63 - 1)).map (s64 ∘ Int64.ofInt)
  | ("U8", some value) => (value.intIn 0 (Nat.pow 2 8 - 1)).map (u8 ∘ UInt8.ofNat ∘ Int.toNat)
  | ("U16", some value) => (value.intIn 0 (Nat.pow 2 16 - 1)).map (u16 ∘ UInt16.ofNat ∘ Int.toNat)
  | ("U32", some value) => (value.intIn 0 (Nat.pow 2 32 - 1)).map (u32 ∘ UInt32.ofNat ∘ Int.toNat)
  | ("U64", some value) => (value.intIn 0 (Nat.pow 2 64 - 1)).map (u64 ∘ UInt64.ofNat ∘ Int.toNat)
  | ("F32", some (.number numeral)) => numeral.single?.map f32
  | ("F64", some value) => value.float?.map f64
  | _ => none

def dataText (scalar : Scalar) : String :=
  let value := match scalar with
    | f32 x => Number.float32Data x
    | f64 x => Number.floatData x
    | other => other.text
  Json.braces [(scalar.dataName, value)]

end Scalar

def codedData {α : Type} [Coded α] (member : α) : String := Json.quote (Coded.variant member)

def intData (items : List Int) : String := Json.list (items.map toString)

namespace Shape

-- The fields as they stand; the slots may be used in any way.
def Raw.ofJson? (json : Json) : Option Raw := do
  match ← json.record? ["dims", "len"] with
  | [some slots, some count] =>
      match ← slots.listOf Json.int32? with
      | [first, second] => return ⟨first, second, ← count.intIn 0 (Nat.pow 2 31 - 1)⟩
      | _ => none
  | _ => none

def Raw.dataText (raw : Raw) : String :=
  Json.braces [("dims", intData raw.slots), ("len", toString raw.count)]

def ofJson? (json : Json) : Option Shape := do (ofRaw (← Raw.ofJson? json)).toOption

def dataText (shape : Shape) : String := shape.toRaw.dataText

end Shape

namespace Coord

def ofJson? (json : Json) : Option Coord := do
  (ofList (← json.listOf Json.int32?)).toOption

def dataText (coord : Coord) : String := intData coord.values

end Coord

def MemOrder.ofJson? (json : Json) : Option MemOrder :=
  (json.intIn 0 (Nat.pow 2 32 - 1)).map fun bits => ⟨UInt32.ofNat bits.toNat⟩

def DeviceMask.dataText (mask : DeviceMask) : String := toString mask.bits.toNat

namespace Grid

-- Takes the fields as they stand; that the cells fill the shape is not looked at.
def ofJson? (json : Json) : Option Grid := do
  match ← json.record? ["dtype", "shape", "data"] with
  | [some dtype, some shape, some cells] =>
      return ⟨← dtype.coded?, ← shape.listOf Json.count?,
        (← cells.listOf Json.float?).toArray⟩
  | _ => none

def dataText (grid : Grid) : String :=
  Json.braces
    [("dtype", codedData grid.dtype),
     ("shape", Json.list (grid.shape.map toString)),
     ("data", Json.list (grid.cells.toList.map Number.floatData))]

end Grid

-- Reads one value of a domain type from a whole text.
def readData {α : Type} (decode : Json → Option α) (text : String) : Except MapError α :=
  match (Json.read text).bind decode with
  | some value => .ok value
  | none => .error .data

end MapAlgebra
