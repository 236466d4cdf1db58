import MapAlgebra.Library.Raw

namespace MapAlgebra.Library

-- A library that can be called: what its functions return, and what they do to its state.
structure Foreign (σ : Type) where
  features : Features
  acquire : Address → σ → σ
  release : Address → σ → σ
  perform : Call → σ → σ
  node : Call → σ → Address × σ
  int : Call → σ → Int × σ
  array : Call → σ → Shape.Raw × σ
  scalar : Call → σ → RawScalar × σ
  -- The text of a name, unless there is none.
  name : Call → σ → Option String × σ
  pairs : Call → σ → RawPairs × σ

-- A text that can be handed over ends at its first nul, so it may hold none.
def plainText (text : String) : Except MapError Argument :=
  if text.toList.any (·.toNat = 0) then .error (.text (.interiorNul text))
  else .ok (.text text)

def code {α : Type} [Coded α] (member : α) : Argument := .int (Coded.code member)

def coordArgument (coord : Coord) : Argument := .array coord.toRaw

def shapeArgument (shape : Shape) : Argument := .array shape.toRaw

def kernelArguments (kernel : List Scalar) (shape : Shape) : Except MapError (List Argument) :=
  if kernel.length < Nat.pow 2 31 then
    .ok [.kernel (rawKernel kernel), .int kernel.length, shapeArgument shape]
  else .error (.invalidShape .kernelTooLarge)

-- The call that makes a node.
def callFor : Construction → Except MapError Call
  | .constant value layout => .ok ⟨"constant",
      [.scalar (.ofScalar value), shapeArgument layout.size, code layout.dtype,
       .int layout.order.code, shapeArgument layout.block, shapeArgument layout.group]⟩
  | .index layout dimension => .ok ⟨"index",
      [shapeArgument layout.size, code dimension, .int layout.order.code,
       shapeArgument layout.block, shapeArgument layout.group]⟩
  | .rand seed dtype order => .ok ⟨"rand", [.node seed, code dtype, .int order.code]⟩
  | .cast node dtype => .ok ⟨"cast", [.node node, code dtype]⟩
  | .unary node op => .ok ⟨"unary", [.node node, code op]⟩
  | .binary left right op => .ok ⟨"binary", [.node left, .node right, code op]⟩
  | .conditional condition yes no =>
      .ok ⟨"conditional", [.node condition, .node yes, .node no]⟩
  | .access node position => .ok ⟨"access", [.node node, coordArgument position]⟩
  | .update node value position =>
      .ok ⟨"lhsAccess", [.node node, .node value, coordArgument position]⟩
  | .neighbor node offset => .ok ⟨"neighbor", [.node node, coordArgument offset]⟩
  | .boundedNeighbor node rows columns =>
      .ok ⟨"boundedNbh", [.node node, .node rows, .node columns]⟩
  | .convolution node kernel shape => do
      return ⟨"convolution", .node node :: (← kernelArguments kernel shape)⟩
  | .focal node kernel shape op => do
      return ⟨"focalFunc", .node node :: (← kernelArguments kernel shape) ++ [code op]⟩
  | .zonal node op => .ok ⟨"zonalReduc", [.node node, code op]⟩
  | .radial node op origin => .ok ⟨"radialScan", [.node node, code op, coordArgument origin]⟩
  | .blockStats node op => .ok ⟨"blockStats", [.node node, code op]⟩
  | .stats node lowest highest mean deviation => .ok ⟨"stats",
      [.node node, .node lowest, .node highest, .node mean, .node deviation]⟩
  | .barrier node => .ok ⟨"barrier", [.node node]⟩
  | .identity node => .ok ⟨"identity", [.node node]⟩
  | .read resource => do return ⟨"read", [← plainText resource]⟩

-- Both lists are needed unless there are no variables.
def RawPairs.toPairs (raw : RawPairs) : Except MapError Pairs :=
  if raw.count < 0 then .error (.engine (.pairCount raw.count))
  else if raw.count = 0 then .ok ⟨[], []⟩
  else
    match raw.before, raw.after with
    | some before, some after => .ok ⟨before, after⟩
    | _, _ => .error (.engine .missingPairs)

namespace Foreign

variable {σ α : Type} (library : Foreign σ)

def perform' (call : Call) : Run σ Unit := modify (library.perform call)

def returning (function : Call → σ → α × σ) (call : Call) : Run σ α := fun state =>
  let (result, state) := function call state
  (.ok result, state)

def askInt (symbol : String) (node : Address) : Run σ Int :=
  returning library.int ⟨symbol, [.node node]⟩

def askShape (symbol : String) (node : Address) : Run σ Shape := do
  Shape.ofRaw (← returning library.array ⟨symbol, [.node node]⟩)

def askCoded [Coded α] (symbol : String) (node : Address) : Run σ α := do
  Coded.ofCode (← library.askInt symbol node)

-- A library without function for names has its nodes named by number.
def nodeName (node : Address) : Run σ String :=
  match library.features.name with
  | none => do return "node" ++ toString (← library.askInt "nodeid" node)
  | some symbol => do
      let symbol := match symbol with
        | .long => "longname"
        | .short => "nodename"
      match ← returning library.name ⟨symbol, [.node node]⟩ with
      | some name => return name
      | none => throw (.engine .unnamedNode)

-- The engine behind a library. Nothing is checked that the library checks itself.
def engine : Engine σ where
  name := "libmap"
  setupDevices platform mask device := do
    let platform ← plainText platform
    let device ← plainText device
    library.perform' ⟨"setupDevices", [platform, .int mask.code, device]⟩
  setRanks ranks := library.perform' ⟨"setNumRanks", [.int ranks]⟩
  acquire := library.acquire
  release := library.release
  construct request := do returning library.node (← callFor request)
  loopStart := library.perform' ⟨"loopStart", []⟩
  loopCondition node := library.perform' ⟨"loopCond", [.node node]⟩
  loopReplay
    | .first => library.perform' ⟨"loopBody", []⟩
    | .second => library.perform' ⟨"loopAgain", []⟩
  loopAssemble := returning library.node ⟨"loopAssemble", []⟩
  loopEnd := library.perform' ⟨"loopEnd", []⟩
  loopPairs loop := do
    RawPairs.toPairs (← returning library.pairs ⟨"loopUpdateVars", [.node loop]⟩)
  write node resource := do
    let resource ← plainText resource
    returning library.int ⟨"write", [.node node, resource]⟩
  evaluate nodes :=
    library.perform' ⟨"eval", nodes.map .node ++ [.int nodes.length]⟩
  value node := do RawScalar.toScalar (← returning library.scalar ⟨"value", [.node node]⟩)
  nodeId := library.askInt "nodeid"
  nodeName := library.nodeName
  stream node := if library.features.stream then library.askCoded "streamdir" node
    else return .closed
  dataType := library.askCoded "datatype"
  dimension := library.askCoded "numdim"
  memOrder node := do MemOrder.ofCode (← library.askInt "memorder" node)
  size := library.askShape "datasize"
  block := library.askShape "blocksize"
  group node := if library.features.group then library.askShape "groupsize" node
    else return .unset

end Foreign

-- Looks for the first of several libraries that has all functions an engine needs.
def load {α : Type} (find? : String → Option α) (paths : List String) : Except MapError α :=
  match paths.findSome? find? with
  | some library => .ok library
  | none => .error (.binding paths)

end MapAlgebra.Library
