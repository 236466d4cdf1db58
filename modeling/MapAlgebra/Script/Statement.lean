import MapAlgebra.Script.Expr

namespace MapAlgebra.Script

open Loop (Act Guard Vars onEngine afterwards changeEngine)

-- How the value of a condition is used as one.
inductive GuardForm where
  -- A node or a number as it comes.
  | operand
  -- Only a node.
  | raster
  -- Only a number.
  | truth
deriving DecidableEq, Repr

-- Statements act on the loop variables.
inductive Statement where
  | declare (name : String) (value : Expr)
  | set (name : String) (value : Expr)
  | cell (name : String) (position : Param Coord) (value : Expr)
  | setWhere (name : String) (mask value : Expr)
  | take (name : String)
  | takeRaster (name : String)
  | clear
  | fail (text : String)
  | loop (condition : Expr) (form : GuardForm) (body : List Statement)

variable {σ : Type} (engine : Engine σ)

-- The value of a condition, which is handed on.
def Expr.guard (names : Names) (form : GuardForm) (condition : Expr) : Act σ Vars Guard := do
  let operand ← condition.eval engine names
  match form, operand with
  | .operand, operand => return .ofOperand operand
  | .raster, operand => return .node (← operand.toRaster)
  | .truth, operand =>
      afterwards (do return .host (← operand.toHost).isTrue) (engine.letGoOperand operand)

-- Changes the variables and lets go of what they held before.
def exchange (change : Vars → Option Operand × Vars) : Act σ Vars Unit :=
  modify fun scope =>
    let (old, vars) := change scope.vars
    { scope with vars, engine := letGoOptional engine old scope.engine }

-- Assigns a variable. If there is none the new value is let go.
def assign (name : String) (operand : Operand) : Act σ Vars Unit := do
  match (← get).vars.set name operand with
  | .ok (old, vars) => exchange engine fun _ => (some old, vars)
  | .error problem => do
      changeEngine (engine.letGoOperand operand)
      throw problem

-- Changes a raster variable in place and marks it.
def changeInPlace (name : String) (change : Raster → Run σ Raster) : Act σ Vars Unit := do
  let vars ← (← get).vars.touch name
  modify fun scope => { scope with vars }
  let raster ← vars.raster name
  let raster ← onEngine (change raster)
  modify fun scope => { scope with vars := scope.vars.replace name (.node raster) }

-- Removes a variable and hands its value on.
def takeOut (name : String) : Act σ Vars Operand := do
  let (operand, vars) ← (← get).vars.take name
  modify fun scope => { scope with vars }
  return operand

mutual

-- Runs one statement. What it takes out of the variables is handed on.
def Statement.run (names : Names) : Statement → Act σ Vars (Option Operand)
  | .declare name value => do
      let operand ← value.eval engine names
      exchange engine (·.declare name operand)
      return none
  | .set name value => do
      let operand ← value.eval engine names
      assign engine name operand
      return none
  | .cell name position value =>
      value.lend engine names fun operand => do
        let position ← position
        changeInPlace name (engine.setCell · position operand)
        return none
  | .setWhere name mask value =>
      mask.lendRaster engine names fun mask => value.lend engine names fun operand => do
        changeInPlace name (engine.setWhere · mask operand)
        return none
  | .take name => do return some (← takeOut name)
  | .takeRaster name => do
      match ← takeOut name with
      | .node raster => return some (.node raster)
      | .host value => throw (.typeMismatch (.hostValue value))
  | .clear => do
      modify fun scope => { scope with vars := scope.vars.clearAssigned }
      return none
  | .fail text => throw (.engine (.reported text))
  | .loop condition form body => do
      match ← Loop.whileLoop engine (condition.guard engine names form)
          (Statement.runAll names body) with
      | some node => changeEngine (engine.letGo node)
      | none => pure ()
      return none

-- Runs statements in order and lets go of what they hand on.
def Statement.runAll (names : Names) : List Statement → Act σ Vars Unit
  | [] => return ()
  | statement :: statements => do
      let taken ← statement.run names
      changeEngine (letGoOptional engine taken)
      Statement.runAll names statements

end

-- A loop over the loop variables. The loop node, if there is one, is handed on.
def runLoop (names : Names) (condition : Expr) (form : GuardForm) (body : List Statement) :
    Act σ Vars (Option Raster) :=
  Loop.whileLoop engine (condition.guard engine names form) (Statement.runAll engine names body)

end MapAlgebra.Script
