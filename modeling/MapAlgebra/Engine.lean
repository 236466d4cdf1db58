import MapAlgebra.Layout
import MapAlgebra.Op

namespace MapAlgebra

-- Where an engine keeps a node. Zero is the null node.
abbrev Address := Nat

def Address.null : Address := 0

-- A computation on the state of an engine. What happened before a failure stays.
abbrev Run (σ α : Type) := ExceptT MapError (StateM σ) α

-- A request for a new node. It names other nodes in whatever way the one who asks does.
inductive Request (ν : Type) where
  | constant (value : Scalar) (layout : Layout)
  | index (layout : Layout) (dimension : Dimension)
  | rand (seed : ν) (dtype : DataType) (order : MemOrder)
  | cast (node : ν) (dtype : DataType)
  | unary (node : ν) (op : UnaryOp)
  | binary (left right : ν) (op : BinaryOp)
  | conditional (condition yes no : ν)
  | access (node : ν) (position : Coord)
  | update (node value : ν) (position : Coord)
  | neighbor (node : ν) (offset : Coord)
  | boundedNeighbor (node rows columns : ν)
  | convolution (node : ν) (kernel : List Scalar) (shape : Shape)
  | focal (node : ν) (kernel : List Scalar) (shape : Shape) (op : ReductionOp)
  | zonal (node : ν) (op : ReductionOp)
  | radial (node : ν) (op : ReductionOp) (origin : Coord)
  | blockStats (node : ν) (op : ReductionOp)
  | stats (node lowest highest mean deviation : ν)
  | barrier (node : ν)
  | identity (node : ν)
  | read (resource : String)

-- A request as engines receive it.
abbrev Construction := Request Address

namespace Request

variable {ν μ : Type}

-- The nodes that a request names, in order.
def nodes : Request ν → List ν
  | constant _ _ | index _ _ | read _ => []
  | rand node _ _ | cast node _ | unary node _ | access node _ | neighbor node _
  | convolution node _ _ | focal node _ _ _ | zonal node _ | radial node _ _ | blockStats node _
  | barrier node | identity node => [node]
  | binary left right _ => [left, right]
  | update node value _ => [node, value]
  | conditional condition yes no => [condition, yes, no]
  | boundedNeighbor node rows columns => [node, rows, columns]
  | stats node lowest highest mean deviation => [node, lowest, highest, mean, deviation]

-- The nodes that the new node reads. The stand-in takes the place of an empty branch, and
-- summaries that are not there are left out.
def inputs (isEmpty : ν → Bool) (standIn : ν) : Request ν → List ν
  | conditional condition yes no =>
      [condition, if isEmpty yes then standIn else yes, if isEmpty no then standIn else no]
  | stats node lowest highest mean deviation =>
      node :: [lowest, highest, mean, deviation].filter (!isEmpty ·)
  | request => request.nodes

end Request

-- The nodes that variables hold before and after a loop, aligned by position.
structure Pairs where
  before : List Address
  after : List Address
deriving DecidableEq, Repr

namespace Pairs

def size (pairs : Pairs) : Nat := pairs.before.length

def isEmpty (pairs : Pairs) : Bool := pairs.before.isEmpty

-- The node after the loop for the first entry of a node before it.
def afterFor (pairs : Pairs) (node : Address) : Option Address :=
  (pairs.before.idxOf? node).bind (pairs.after[·]?)

end Pairs

-- What runs graphs. A new node has no holders: whoever asked for it acquires it, and an engine
-- may drop a node that nobody holds any more.
structure Engine (σ : Type) where
  name : String
  setupDevices : String → DeviceMask → String → Run σ Unit
  setRanks : Int → Run σ Unit
  acquire : Address → σ → σ
  release : Address → σ → σ
  construct : Construction → Run σ Address
  loopStart : Run σ Unit
  loopCondition : Address → Run σ Unit
  loopReplay : Loop.Replay → Run σ Unit
  loopAssemble : Run σ Address
  loopEnd : Run σ Unit
  loopPairs : Address → Run σ Pairs
  -- The status of a write is zero when it succeeded.
  write : Address → String → Run σ Int
  evaluate : List Address → Run σ Unit
  value : Address → Run σ Scalar
  nodeId : Address → Run σ Int
  nodeName : Address → Run σ String
  stream : Address → Run σ Stream
  dataType : Address → Run σ DataType
  dimension : Address → Run σ Dimension
  memOrder : Address → Run σ MemOrder
  size : Address → Run σ Shape
  block : Address → Run σ Shape
  group : Address → Run σ Shape

end MapAlgebra
