import MapAlgebra.Grid.Sweep
import MapAlgebra.Layout
import MapAlgebra.Shape.Checked

namespace MapAlgebra.Graph

-- What is known about a node's data before it is computed.
structure Meta where
  dtype : DataType
  shape : List Nat
  order : MemOrder
  block : Shape
  group : Shape
  stream : Stream
deriving DecidableEq

namespace Meta

def ofLayout (layout : Layout) : Meta :=
  ⟨layout.dtype, layout.size.extents, layout.order, layout.block, layout.group, .closed⟩

-- A new node takes over the partitioning of the node it is made from.
def derived (info : Meta) (dtype : DataType) (shape : List Nat) : Meta :=
  { info with dtype, shape, stream := .closed }

def dimension (info : Meta) : Dimension :=
  match info.shape.length with
  | 0 => .zero
  | 1 => .one
  | 2 => .two
  | _ => .three

-- An extent as a signed word of 32 bits.
def extentWord (extent : Nat) : Int := (Int32.ofNat extent).toInt

-- The extents as engines report them; what does not fit counts as unset.
def size (info : Meta) : Shape :=
  match Shape.withRank (info.shape.map extentWord) with
  | .ok shape => shape
  | .error _ => .unset

end Meta

-- Where a step of a loop body reads an input: an earlier step of the same round, a value that
-- is carried from round to round, or a node outside the loop.
inductive Slot where
  | step (index : Nat)
  | carried (index : Nat)
  | outer (node : Nat)
deriving DecidableEq, Repr

-- A carried value starts as a node before the loop and is replaced by a step of the body at the
-- end of each round.
structure CarriedValue where
  init : Nat
  feed : Nat
deriving DecidableEq, Repr

-- A recorded loop. The first carried value is the condition.
structure LoopPlan where
  body : List Nat
  slots : List (List Slot)
  carried : List CarriedValue
deriving DecidableEq, Repr

namespace LoopPlan

def addNew (seen : List Nat) (node : Nat) : List Nat :=
  if node ∈ seen then seen else seen ++ [node]

def outerReads (plan : LoopPlan) : List Nat :=
  plan.slots.flatten.filterMap fun
    | .outer node => some node
    | _ => none

-- The nodes outside the body that the loop needs, each once.
def externals (plan : LoopPlan) : List Nat :=
  (plan.carried.map (·.init) ++ plan.outerReads).foldl addNew []

-- For each step that feeds a carried value, the first value that it feeds.
def tails (plan : LoopPlan) : List (Nat × Nat) :=
  plan.carried.zipIdx.foldl (fun tails (value, index) =>
    if tails.any (·.2 = value.feed) then tails else tails ++ [(index, value.feed)]) []

end LoopPlan

-- The operation of a node.
inductive NodeKind where
  | constant (value : Scalar)
  | index (axis : Nat)
  | rand
  | cast
  | unary (op : UnaryOp)
  | binary (op : BinaryOp)
  | conditional
  | access (position : Coord)
  | update (position : Coord)
  | neighbor (offset : Coord)
  | boundedNeighbor
  | convolution (weights : Weights)
  | focal (weights : Weights) (op : ReductionOp)
  | zonal (op : ReductionOp)
  | radial (op : ReductionOp) (origin : Coord)
  | blockStats (op : ReductionOp)
  | stats
  | barrier
  | identity
  | read (resource : String) (grid : Grid)
  | loop (plan : LoopPlan)
  | loopTail (index : Nat)

namespace NodeKind

def label : NodeKind → String
  | constant _ => "Constant"
  | index _ => "Index"
  | rand => "Rand"
  | cast => "Cast"
  | unary _ => "Unary"
  | binary _ => "Binary"
  | conditional => "Conditional"
  | access _ => "Access"
  | update _ => "LhsAccess"
  | neighbor _ => "Neighbor"
  | boundedNeighbor => "BoundedNbh"
  | convolution _ => "Convolution"
  | focal _ _ => "FocalFunc"
  | zonal _ => "ZonalReduc"
  | radial _ _ => "RadialScan"
  | blockStats _ => "BlockStats"
  | stats => "Stats"
  | barrier => "Barrier"
  | identity => "Identity"
  | read _ _ => "Read"
  | loop _ => "Loop"
  | loopTail _ => "LoopTail"

-- Whether two replays recorded the same operation. Numbers are compared as numbers, so an
-- operation that holds a not-a-number is never the same.
def same : NodeKind → NodeKind → Bool
  | constant a, constant b => a.same b
  | index a, index b => a = b
  | rand, rand => true
  | cast, cast => true
  | unary a, unary b => a = b
  | binary a, binary b => a = b
  | conditional, conditional => true
  | access a, access b => a = b
  | update a, update b => a = b
  | neighbor a, neighbor b => a = b
  | boundedNeighbor, boundedNeighbor => true
  | convolution a, convolution b => a.same b
  | focal a p, focal b q => a.same b && p = q
  | zonal a, zonal b => a = b
  | radial a p, radial b q => a = b && p = q
  | blockStats a, blockStats b => a = b
  | stats, stats => true
  | barrier, barrier => true
  | identity, identity => true
  | read a p, read b q => a = b && p.same q
  | loop a, loop b => a = b
  | loopTail a, loopTail b => a = b
  | _, _ => false

end NodeKind

-- A node with the number of its handles and the number of its other users: edges from other
-- nodes, and holds that a recording takes.
structure Node where
  kind : NodeKind
  inputs : List Nat
  info : Meta
  refs : Nat
  users : Nat

def Node.isDead (node : Node) : Bool := node.refs = 0 && node.users = 0

end MapAlgebra.Graph
