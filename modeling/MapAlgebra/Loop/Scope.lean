import MapAlgebra.Loop.Vars

namespace MapAlgebra.Loop

-- What client code works on: the engine, whether a loop is being lowered, and variables.
structure Scope (σ ν : Type) where
  engine : σ
  lowering : Bool
  vars : ν

-- A computation of client code. What happened before a failure stays.
abbrev Act (σ ν α : Type) := ExceptT MapError (StateM (Scope σ ν)) α

variable {σ ν α : Type}

-- Runs a computation on the engine alone.
def onEngine (step : Run σ α) : Act σ ν α := fun scope =>
  let (result, engine) := step scope.engine
  (result, { scope with engine })

def changeEngine (f : σ → σ) : Act σ ν Unit :=
  modify fun scope => { scope with engine := f scope.engine }

-- Runs a change of engine and variables together.
def changing (f : ν → σ → ν × σ) : Act σ ν Unit :=
  modify fun scope =>
    let (vars, engine) := f scope.vars scope.engine
    { scope with vars, engine }

-- Runs a step and then a change, also when the step fails.
def afterwards (step : Act σ ν α) (change : σ → σ) : Act σ ν α := fun scope =>
  let (result, scope) := step scope
  (result, { scope with engine := change scope.engine })

-- Runs a step, and then a change only if the step fails.
def onFailure (step : Act σ ν α) (change : Scope σ ν → Scope σ ν) : Act σ ν α := fun scope =>
  match step scope with
  | (.ok result, scope) => (.ok result, scope)
  | (.error problem, scope) => (.error problem, change scope)

end MapAlgebra.Loop
