import MapAlgebra.Op.Exact
import MapAlgebra.Raster

namespace MapAlgebra

-- A value in an expression: a node of the graph or a number of the host. As long as no node
-- takes part, operations are done at once and make no node.
inductive Operand where
  | node (raster : Raster)
  | host (value : Scalar)

namespace Operand

def isNode : Operand → Bool
  | node _ => true
  | host _ => false

def toRaster : Operand → Except MapError Raster
  | node raster => .ok raster
  | host value => .error (.typeMismatch (.hostValue value))

def toHost : Operand → Except MapError Scalar
  | host value => .ok value
  | node raster => .error (.typeMismatch (.graphNode raster.address))

end Operand

namespace Engine

variable {σ α : Type} (engine : Engine σ)

-- A new handle on the same operand.
def copyOperand : Operand → Run σ Operand
  | .node raster => do return .node (← engine.copy raster)
  | .host value => return .host value

def letGoOperand : Operand → σ → σ
  | .node raster, state => engine.letGo raster state
  | .host _, state => state

def lendingOperand (operand : Operand) (step : Operand → Run σ α) : Run σ α := fun state =>
  let (result, state) := step operand state
  (result, engine.letGoOperand operand state)

def operandType : Operand → Run σ DataType
  | .node raster => raster.ask engine.dataType
  | .host value => return value.dtype

-- A node for a single value of its own type.
def scalarNode (value : Scalar) : Run σ Raster :=
  engine.make (.constant value (.single value.dtype))

-- A handle on a node for the operand; numbers become nodes.
def promote : Operand → Run σ Raster
  | .node raster => engine.copy raster
  | .host value => engine.scalarNode value

-- Lends out a node for the operand.
def promoting (operand : Operand) (step : Raster → Run σ α) : Run σ α := do
  engine.lending (← engine.promote operand) step

def unaryNode (raster : Raster) (op : UnaryOp) : Run σ Raster :=
  engine.derive raster (.unary · op)

def binaryNodes (left right : Raster) (op : BinaryOp) : Run σ Raster := do
  engine.make (.binary (← left.require) (← right.require) op)

def unary (operand : Operand) (op : UnaryOp) : Run σ Operand :=
  match operand with
  | .host value => do return .host (← op.onScalar value)
  | .node raster => do return .node (← engine.unaryNode raster op)

-- A number next to a node becomes a node. Both operands are made nodes before they are combined.
def binary (left right : Operand) (op : BinaryOp) : Run σ Operand :=
  match left, right with
  | .host a, .host b => do return .host (← op.onScalars a b)
  | left, right =>
      engine.promoting left fun left => engine.promoting right fun right => do
        return .node (← engine.binaryNodes left right op)

-- Among nodes the exponent is made a float by adding zero.
def power (base exponent : Operand) : Run σ Operand :=
  match base, exponent with
  | .host a, .host b => do return .host (← BinaryOp.pow.onScalars a b)
  | base, exponent =>
      engine.promoting base fun base => engine.promoting exponent fun exponent => do
        let zero ← engine.scalarNode (Scalar.ofLiteral (.float 0))
        engine.lending zero fun zero => do
          let exponent ← engine.binaryNodes exponent zero .add
          engine.lending exponent fun exponent => do
            return .node (← engine.binaryNodes base exponent .pow)

-- The second operand where the first one holds and the third one elsewhere.
def select (condition yes no : Operand) : Run σ Operand :=
  match condition, yes, no with
  | .host condition, .host yes, .host no =>
      return .host (if condition.isTrue then yes else no)
  | condition, yes, no =>
      engine.promoting condition fun condition =>
        engine.promoting yes fun yes => engine.promoting no fun no => do
          return .node (← engine.make
            (.conditional (← condition.require) (← yes.require) (← no.require)))

def cast (raster : Raster) (dtype : DataType) : Run σ Raster :=
  engine.derive raster (.cast · dtype)

def castOperand (operand : Operand) (dtype : DataType) : Run σ Operand :=
  match operand with
  | .host value => do return .host (← value.convert dtype)
  | .node raster => do return .node (← engine.cast raster dtype)

-- Combines a node with any operand.
def combine (raster : Raster) (operand : Operand) (op : BinaryOp) : Run σ Raster :=
  engine.promoting operand fun other => engine.binaryNodes raster other op

-- Combines any operand with a node.
def combineBefore (operand : Operand) (raster : Raster) (op : BinaryOp) : Run σ Raster :=
  engine.promoting operand fun other => engine.binaryNodes other raster op

-- Truth values are negated and all other values complemented.
def invert (raster : Raster) : Run σ Raster := do
  let dtype ← raster.ask engine.dataType
  engine.unaryNode raster (if dtype.isBool then .not else .bnot)

-- The raster raised to a power, or a base raised to the raster.
def powerOf (raster : Raster) (exponent : Operand) : Run σ Raster := do
  (← engine.power (.node raster) exponent).toRaster

def powerTo (raster : Raster) (base : Operand) : Run σ Raster := do
  (← engine.power base (.node raster)).toRaster

end Engine

end MapAlgebra
