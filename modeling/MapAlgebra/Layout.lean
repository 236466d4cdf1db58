import MapAlgebra.Error

namespace MapAlgebra

-- Flags for the order of cells in memory.
structure MemOrder where
  bits : UInt32
deriving DecidableEq, Repr

namespace MemOrder

def unordered : MemOrder := ⟨0⟩

def blocked : MemOrder := ⟨1⟩

def rows : MemOrder := ⟨2⟩

def columns : MemOrder := ⟨4⟩

def curve : MemOrder := ⟨6⟩

def union (a b : MemOrder) : MemOrder := ⟨a.bits ||| b.bits⟩

def intersection (a b : MemOrder) : MemOrder := ⟨a.bits &&& b.bits⟩

def contains (a b : MemOrder) : Bool := (a.intersection b).bits = b.bits

def isBlocked (order : MemOrder) : Bool := order.contains blocked

def usual : MemOrder := rows.union blocked

-- The flags as engines exchange them, in a signed word.
def code (order : MemOrder) : Int := order.bits.toInt32.toInt

def ofCode (code : Int) : Except MapError MemOrder :=
  if 0 ≤ code ∧ code ≤ 7 then .ok ⟨UInt32.ofNat code.toNat⟩
  else .error (.typeMismatch (.unknownCode "MemOrder" code))

def pattern (order : MemOrder) : String :=
  let rest := order.bits &&& ~~~blocked.bits
  if rest = unordered.bits then "none"
  else if rest = rows.bits then "row"
  else if rest = columns.bits then "col"
  else if rest = curve.bits then "sfc"
  else "mixed"

def text (order : MemOrder) : String :=
  if order.isBlocked then order.pattern ++ "+blk" else order.pattern

end MemOrder

-- A choice of devices to run on.
structure DeviceMask where
  bits : UInt32
deriving DecidableEq, Repr

namespace DeviceMask

def union (a b : DeviceMask) : DeviceMask := ⟨a.bits ||| b.bits⟩

def contains (a b : DeviceMask) : Bool := (a.bits &&& b.bits) = b.bits

def code (mask : DeviceMask) : Int := mask.bits.toInt32.toInt

-- Names are read without regard to case and to blanks around them.
def ofName (name : String) : Except MapError DeviceMask :=
  match Text.lower (Text.trim name) with
  | "default" => .ok ⟨1⟩
  | "cpu" => .ok ⟨2⟩
  | "gpu" => .ok ⟨4⟩
  | "acc" | "accelerator" => .ok ⟨8⟩
  | "custom" => .ok ⟨16⟩
  | "all" => .ok ⟨0xffffffff⟩
  | other => .error (.text (.unknownDevice other))

end DeviceMask

-- The size, type and partitioning of a node's data.
structure Layout where
  size : Shape
  dtype : DataType
  order : MemOrder
  block : Shape
  group : Shape
deriving DecidableEq

def Layout.usual : Layout := ⟨.unset, .f32, .usual, .unset, .unset⟩

-- The layout of a single value.
def Layout.single (dtype : DataType) : Layout := { Layout.usual with dtype }

end MapAlgebra
