import MapAlgebra.Loop.Lowering
import MapAlgebra.Raster.Cells
import MapAlgebra.Raster.Create
import MapAlgebra.Raster.Regions

namespace MapAlgebra.Script

-- A parameter as it was written. What is wrong with it shows when the function needs it, after
-- the arguments have been computed.
abbrev Param (α : Type) := Except MapError α

-- The functions of expressions with the parameters that are no expressions.
inductive Function where
  | unary (op : Param UnaryOp)
  | binary (op : Param BinaryOp)
  | power
  | select
  | castOperand (dtype : Param DataType)
  | intoHost
  | intoRaster
  | arithmetic (op : BinaryOp)
  | negate
  | invert
  | compare (op : BinaryOp)
  | powerOf
  | powerTo
  | cast (dtype : Param DataType)
  | scalar (value : Param Scalar)
  | get (position : Param Coord)
  | mask
  | neighbor (offset : Param Coord)
  | boundedNeighbor
  | logicalNot
  | barrier
  | identity
  | convolve (kernel : Param Kernel)
  | focal (kernel : Param Kernel) (op : Param ReductionOp)
  | focalSum
  | zonal (op : Param ReductionOp)
  | zonalMasked (op : ReductionOp)
  | radial (op : Param ReductionOp) (origin : Param Coord)
  | blockStats (op : Param ReductionOp)
  | stats
  | constant (value : Param Scalar) (layout : Param Layout)
  | zeros (layout : Param Layout)
  | ones (layout : Param Layout)
  | truths (value : Bool) (layout : Param Layout)
  | zerosLike (dtype : Param (Option DataType))
  | onesLike (dtype : Param (Option DataType))
  | constantLike (value : Param Scalar) (dtype : Param (Option DataType))
  | index (dimension : Param Dimension)
  | random (layout : Param (Option Layout))
  | read (resource : String)
  | promote
  | empty
  | wrap (node : Address)

-- What a place for an argument takes.
inductive Place where
  | operand
  | raster
  -- A raster that may be left out.
  | optional
  -- A raster, or a number written right there.
  | factor
deriving DecidableEq, Repr

inductive Expr where
  | absent
  | variable (name : String)
  | loopVariable (name : String)
  | loopRaster (name : String)
  | loopHost (name : String)
  | host (value : Param Scalar)
  | literal (value : Literal)
  | call (function : Function) (arguments : List Expr)

def Function.places : Function → List Place
  | unary _ | castOperand _ | intoHost | intoRaster | random _ | promote => [.operand]
  | binary _ | power => [.operand, .operand]
  | select => [.operand, .operand, .operand]
  | arithmetic _ => [.factor, .factor]
  | compare _ | powerOf | powerTo => [.raster, .operand]
  | negate | invert | cast _ | scalar _ | get _ | neighbor _ | logicalNot | barrier | identity
  | convolve _ | focal _ _ | focalSum | zonal _ | radial _ _ | blockStats _ | zerosLike _
  | onesLike _ | constantLike _ _ | index _ => [.raster]
  | mask => [.raster, .raster]
  | boundedNeighbor => [.raster, .raster, .raster]
  | zonalMasked _ => [.raster, .optional]
  | stats => [.raster, .optional, .optional, .optional, .optional]
  | constant _ _ | zeros _ | ones _ | truths _ _ | read _ | empty | wrap _ => []

-- The raster in an argument, if it is there.
def rasterIn : Option Operand → Option Raster
  | some (.node raster) => some raster
  | _ => none

def nodeOf {σ : Type} (make : Run σ Raster) : Run σ Operand := do return .node (← make)

variable {σ : Type} (engine : Engine σ)

-- Functions whose result may be a number.
def applyOperand (function : Function) (arguments : List Operand) : Run σ Operand :=
  match function, arguments with
  | .unary op, [a] => do engine.unary a (← op)
  | .binary op, [a, b] => do engine.binary a b (← op)
  | .power, [a, b] => engine.power a b
  | .select, [a, b, c] => engine.select a b c
  | .castOperand dtype, [a] => do engine.castOperand a (← dtype)
  | .intoHost, [a] => do return .host (← a.toHost)
  | .intoRaster, [a] => do engine.copyOperand (.node (← a.toRaster))
  | .promote, [a] => nodeOf (engine.promote a)
  | .random layout, [a] => nodeOf do engine.random a (← layout)
  | .compare op, [.node r, a] => nodeOf (engine.combine r a op)
  | .powerOf, [.node r, a] => nodeOf (engine.powerOf r a)
  | .powerTo, [.node r, a] => nodeOf (engine.powerTo r a)
  | .arithmetic op, [.node a, .node b] => nodeOf (engine.binaryNodes a b op)
  | .arithmetic op, [.node a, b] => nodeOf (engine.combine a b op)
  | .arithmetic op, [a, .node b] => nodeOf (engine.combineBefore a b op)
  | _, _ => throw (.misuse "arguments")

-- Functions of one raster.
def applyRaster (function : Function) (r : Raster) : Run σ Raster :=
  match function with
  | .negate => engine.unaryNode r .neg
  | .invert => engine.invert r
  | .cast dtype => do engine.cast r (← dtype)
  | .scalar value => do engine.scalarNode (← value)
  | .get position => do engine.cellAt r (← position)
  | .neighbor offset => do
      let offset ← offset
      engine.derive r (.neighbor · offset)
  | .logicalNot => engine.unaryNode r .not
  | .barrier => engine.derive r .barrier
  | .identity => engine.derive r .identity
  | .convolve kernel => do engine.convolve r (← kernel)
  | .focal kernel op => do
      let kernel ← kernel
      engine.focal r kernel (← op)
  | .focalSum => engine.focalSum r
  | .zonal op => do engine.zonal r (← op)
  | .radial op origin => do
      let op ← op
      engine.radial r op (← origin)
  | .blockStats op => do engine.blockStats r (← op)
  | .zerosLike dtype => do engine.zerosLike r (← dtype)
  | .onesLike dtype => do engine.onesLike r (← dtype)
  | .constantLike value dtype => do
      let value ← value
      engine.constantLike value r (← dtype)
  | .index dimension => do engine.index r (← dimension)
  | _ => throw (.misuse "arguments")

-- Functions that start from nothing.
def applyNothing (function : Function) : Run σ Raster :=
  match function with
  | .constant value layout => do
      let value ← value
      engine.constant value (← layout)
  | .zeros layout => do engine.zeros (← layout)
  | .ones layout => do engine.ones (← layout)
  | .truths value layout => do engine.truths value (← layout)
  | .read resource => engine.read resource
  | .empty => return .empty
  | .wrap node => engine.wrap node
  | _ => throw (.misuse "arguments")

-- Applies a function to its arguments, which it borrows.
def apply (function : Function) (arguments : List (Option Operand)) : Run σ Operand :=
  match function, arguments with
  | .mask, [some (.node r), some (.node condition)] => nodeOf (engine.mask r condition)
  | .boundedNeighbor, [some (.node r), some (.node rows), some (.node columns)] =>
      nodeOf (engine.boundedNeighbor r rows columns)
  | .zonalMasked op, [some (.node r), condition] =>
      nodeOf (engine.zonalMasked r (rasterIn condition) op)
  | .stats, [some (.node r), lowest, highest, mean, deviation] =>
      nodeOf (engine.stats r
        ⟨rasterIn lowest, rasterIn highest, rasterIn mean, rasterIn deviation⟩)
  | function, [] => nodeOf (applyNothing engine function)
  | function, arguments =>
      match function.places, arguments with
      | [.raster], [some (.node r)] => nodeOf (applyRaster engine function r)
      | _, arguments => applyOperand engine function (arguments.filterMap id)

-- The names that expressions see beside the loop variables.
abbrev Names := Bindings

def lookUp (names : Names) (name : String) : Except MapError Operand :=
  match names.find? name with
  | some operand => .ok operand
  | none => .error (.misuse ("no variable " ++ name))

def letGoOptional : Option Operand → σ → σ
  | some operand, state => engine.letGoOperand operand state
  | none, state => state

def letGoAll (operands : List Operand) (state : σ) : σ :=
  operands.foldl (fun state operand => engine.letGoOperand operand state) state

open Loop (Act Vars onEngine afterwards)

-- Checks what was computed for a place.
def fit (place : Place) (operand : Operand) : Except MapError Operand :=
  match place, operand with
  | .operand, operand => .ok operand
  | _, operand => do return .node (← operand.toRaster)

-- Goes on without the arguments that may be left out at the end.
def withoutRest {α : Type} : List Place → (List (Option Operand) → Act σ Vars α) → Act σ Vars α
  | [], next => next []
  | .optional :: places, next => withoutRest places fun rest => next (none :: rest)
  | _ :: _, _ => throw (.misuse "missing argument")

mutual

-- Computes an expression. The result is a handle of its own, and handles on arguments are let go
-- when the call ends.
def Expr.eval (names : Names) : Expr → Act σ Vars Operand
  | .absent => throw (.misuse "missing expression")
  | .variable name => do
      let operand ← lookUp names name
      onEngine (engine.copyOperand operand)
  | .loopVariable name => do
      let operand ← (← get).vars.get name
      onEngine (engine.copyOperand operand)
  | .loopRaster name => do
      let raster ← (← get).vars.raster name
      onEngine (engine.copyOperand (.node raster))
  | .loopHost name => do
      let value ← (← get).vars.host name
      return .host value
  | .host value => do return .host (← value)
  | .literal value => return .host (Scalar.ofLiteral value)
  | .call function arguments =>
      Expr.evalArguments names arguments function.places fun arguments =>
        onEngine (apply engine function arguments)

-- Computes the arguments of a call in order and hands them to what follows.
def Expr.evalArguments (names : Names) :
    List Expr → List Place → (List (Option Operand) → Act σ Vars Operand) → Act σ Vars Operand
  | [], places, next => withoutRest places next
  | _ :: _, [], next => next []
  | .absent :: arguments, .optional :: places, next =>
      Expr.evalArguments names arguments places fun rest => next (none :: rest)
  | .literal value :: arguments, .factor :: places, next =>
      Expr.evalArguments names arguments places fun rest =>
        next (some (.host (Scalar.ofLiteral value)) :: rest)
  | argument :: arguments, place :: places, next => do
      let operand ← argument.eval names
      let operand ← fit place operand
      afterwards
        (Expr.evalArguments names arguments places fun rest => next (some operand :: rest))
        (engine.letGoOperand operand)

end

-- Computes an expression and lends the result to a step.
def Expr.lend {α : Type} (expr : Expr) (names : Names) (step : Operand → Act σ Vars α) :
    Act σ Vars α := do
  let operand ← expr.eval engine names
  afterwards (step operand) (engine.letGoOperand operand)

-- The same for an expression that has to be a raster.
def Expr.lendRaster {α : Type} (expr : Expr) (names : Names) (step : Raster → Act σ Vars α) :
    Act σ Vars α :=
  expr.lend engine names fun operand => do step (← operand.toRaster)

end MapAlgebra.Script
