import MapAlgebra.Graph.State

namespace MapAlgebra.Graph

-- The shape of a cell by cell result; single values go with every shape.
def broadcast (left right : List Nat) : Except MapError (List Nat) :=
  if left = right then .ok left
  else if left = [] then .ok right
  else if right = [] then .ok left
  else .error (.invalidShape (.noBroadcast left right))

-- A coordinate has to address a cell.
def checkCoord (info : Meta) (coord : Coord) : Except MapError Unit :=
  if info.shape = [] then .error (.invalidShape .zeroRankNode)
  else if (info.shape.zip coord.values).any fun (extent, c) => c < 0 ∨ (extent : Int) ≤ c then
    .error (.invalidShape (.outside coord.values info.shape))
  else if maxRank < info.shape.length then .error .brokenInvariant
  else .ok ()

def requirePlane (info : Meta) (operation : NodeKind) : Except MapError Unit :=
  if info.shape.length = 2 then .ok ()
  else .error (.invalidShape (.notPlane operation.label info.shape))

-- The weights of a kernel that fills its shape.
def weightsOf (kernel : List Scalar) (shape : Shape) : Except MapError Weights :=
  match shape.extents with
  | [rows, columns] =>
      if rows * columns = kernel.length ∧ kernel ≠ [] then
        .ok
          { values := (kernel.map Scalar.toFloat).toArray
            dtype := kernel.foldl (fun dtype value => dtype.promote value.dtype) .untyped
            rows, columns }
      else .error (.invalidShape (.kernelFill kernel.length shape.extents))
  | extents => .error (.invalidShape (.kernelFill kernel.length extents))

-- The axis that a dimension counts along.
def axisOf : Dimension → Except MapError Nat
  | .one => .ok 0
  | .two => .ok 1
  | other => .error (.invalidShape (.noIndexAxis other))

-- The number of blocks on each axis. An axis without block size is one block.
def blockCounts : List Nat → List Nat → List Nat
  | [], _ => []
  | _ :: extents, [] => 1 :: blockCounts extents []
  | extent :: extents, block :: blocks =>
      (if 0 < block then (extent + block - 1) / block else 1) :: blockCounts extents blocks

-- What is settled about a new node before it is made. An empty branch of a conditional is a single
-- zero, of which the same is known.
structure Draft where
  kind : NodeKind
  info : Meta
  standIn : Option Meta

-- A branch that may be left empty is a single zero of the other one's type.
def branches (yes no : Option Meta) : Except MapError (Meta × Meta) :=
  match yes, no with
  | some yes, some no => .ok (yes, no)
  | none, some no => .ok (no.derived no.dtype [], no)
  | some yes, none => .ok (yes, yes.derived yes.dtype [])
  | none, none => .error (.nullNode .bothBranches)

section Drafting

variable {ν : Type} (info : ν → Except MapError Meta) (isEmpty : ν → Bool)

-- A node of the same type and shape.
def draftLike (node : ν) (kind : NodeKind) : Except MapError Draft := do
  let info ← info node
  return ⟨kind, info.derived info.dtype info.shape, none⟩

-- A node that is made from a plane.
def draftFocal (node : ν) (kind : NodeKind) (dtype : DataType) : Except MapError Draft := do
  let info ← info node
  requirePlane info kind
  return ⟨kind, info.derived dtype info.shape, none⟩

def branch (node : ν) : Except MapError (Option Meta) :=
  if isEmpty node then .ok none else (info node).map some

def draftConditional (condition yes no : ν) : Except MapError Draft := do
  let conditionInfo ← info condition
  let yesNote ← branch info isEmpty yes
  let noNote ← branch info isEmpty no
  let (yesInfo, noInfo) ← branches yesNote noNote
  let shape ← broadcast (← broadcast conditionInfo.shape yesInfo.shape) noInfo.shape
  let template := ([yesInfo, noInfo, conditionInfo].find? (·.shape ≠ [])).getD yesInfo
  let standIn :=
    if yesNote.isNone then some yesInfo else if noNote.isNone then some noInfo else none
  return ⟨.conditional, template.derived (yesInfo.dtype.promote noInfo.dtype) shape, standIn⟩

def draftBoundedNeighbor (node rows columns : ν) : Except MapError Draft := do
  let nodeInfo ← info node
  let rowInfo ← info rows
  let columnInfo ← info columns
  if nodeInfo.shape = [] then throw (.invalidShape .boundedZeroRank)
  if !rowInfo.dtype.isInteger || !columnInfo.dtype.isInteger then
    throw (.typeMismatch (.neighborTypes rowInfo.dtype columnInfo.dtype))
  let _ ← broadcast nodeInfo.shape rowInfo.shape
  let _ ← broadcast nodeInfo.shape columnInfo.shape
  return ⟨.boundedNeighbor, nodeInfo.derived nodeInfo.dtype nodeInfo.shape, none⟩

-- Checks types and shapes and settles what the new node is.
def draftOf (store : Store) : Request ν → Except MapError Draft
  | .constant value layout => do
      return ⟨.constant (← value.convert layout.dtype), .ofLayout layout, none⟩
  | .index layout dimension => do
      let axis ← axisOf dimension
      if layout.size.rank ≤ axis then
        throw (.invalidShape (.indexRank dimension layout.size.rank))
      return ⟨.index axis, .ofLayout layout, none⟩
  | .rand seed dtype order => do
      let info ← info seed
      return ⟨.rand, { info.derived dtype info.shape with order }, none⟩
  | .cast node dtype => do
      if dtype = .untyped then throw (.typeMismatch .untypedCast)
      let info ← info node
      return ⟨.cast, info.derived dtype info.shape, none⟩
  | .unary node op => do
      let info ← info node
      return ⟨.unary op, info.derived (op.resultType info.dtype) info.shape, none⟩
  | .binary left right op => do
      let leftInfo ← info left
      let rightInfo ← info right
      let shape ← broadcast leftInfo.shape rightInfo.shape
      let template := if leftInfo.shape = [] then rightInfo else leftInfo
      return ⟨.binary op,
        template.derived (op.resultType leftInfo.dtype rightInfo.dtype) shape, none⟩
  | .conditional condition yes no => draftConditional info isEmpty condition yes no
  | .access node position => do
      let info ← info node
      checkCoord info position
      return ⟨.access position, info.derived info.dtype [], none⟩
  | .update node value position => do
      let nodeInfo ← info node
      let valueInfo ← info value
      checkCoord nodeInfo position
      if valueInfo.shape ≠ [] then throw (.invalidShape (.cellValue valueInfo.shape))
      return ⟨.update position, nodeInfo.derived nodeInfo.dtype nodeInfo.shape, none⟩
  | .neighbor node offset => draftLike info node (.neighbor offset)
  | .boundedNeighbor node rows columns => draftBoundedNeighbor info node rows columns
  | .convolution node kernel shape => do
      let weights ← weightsOf kernel shape
      let dtype := (← info node).dtype.promote weights.dtype
      draftFocal info node (.convolution weights) dtype
  | .focal node kernel shape op => do
      let weights ← weightsOf kernel shape
      let dtype := op.resultType (← info node).dtype
      draftFocal info node (.focal weights op) dtype
  | .zonal node op => do
      let info ← info node
      return ⟨.zonal op, info.derived (op.resultType info.dtype) [], none⟩
  | .radial node op origin => do
      let dtype := op.resultType (← info node).dtype
      draftFocal info node (.radial op origin) dtype
  | .blockStats node op => do
      let info ← info node
      return ⟨.blockStats op,
        info.derived (op.resultType info.dtype) (blockCounts info.shape info.block.extents), none⟩
  | .stats node _ _ _ _ => draftLike info node .stats
  | .barrier node => draftLike info node .barrier
  | .identity node => draftLike info node .identity
  | .read resource => do
      let grid ← store.load resource
      return ⟨.read resource grid, ⟨grid.dtype, grid.shape, .usual, .unset, .unset, .input⟩, none⟩

end Drafting

namespace State

-- A request names nodes of the graph; the null node stands for none.
def draft (state : State) (request : Construction) : Except MapError Draft :=
  draftOf state.info (· = Address.null) state.store request

-- Makes the zero that stands in for an empty branch, if there is one.
def createZero (state : State) : Option Meta → Address × State
  | some info =>
      let zero := (Scalar.zero info.dtype).toOption.getD (.f32 (Number.narrow 0))
      state.create (.constant zero) [] info
  | none => (Address.null, state)

-- Makes a node as it was drafted.
def place (state : State) (request : Construction) (draft : Draft) : Address × State :=
  let (standIn, state) := state.createZero draft.standIn
  state.create draft.kind (request.inputs (· = Address.null) standIn) draft.info

def construct (state : State) (request : Construction) : Except MapError (Address × State) := do
  return state.place request (← state.draft request)

end State

end MapAlgebra.Graph
