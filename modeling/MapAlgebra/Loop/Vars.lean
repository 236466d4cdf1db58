import MapAlgebra.Bindings

namespace MapAlgebra.Loop

-- The named variables of a loop. Those that were assigned are moved on when the loop is done.
structure Vars where
  slots : Bindings
  assigned : List String

namespace Vars

def empty : Vars := ⟨.empty, []⟩

def names (vars : Vars) : List String := vars.slots.names

def contains (vars : Vars) (name : String) : Bool := name ∈ vars.names

def get (vars : Vars) (name : String) : Except MapError Operand :=
  match vars.slots.find? name with
  | some operand => .ok operand
  | none => .error (.malformedLoop (.unknownVariable name))

def raster (vars : Vars) (name : String) : Except MapError Raster := do
  match ← vars.get name with
  | .node raster => .ok raster
  | .host _ => .error (.typeMismatch (.hostVariable name))

def host (vars : Vars) (name : String) : Except MapError Scalar := do
  match ← vars.get name with
  | .host value => .ok value
  | .node _ => .error (.typeMismatch (.nodeVariable name))

def mark (vars : Vars) (name : String) : Vars :=
  if name ∈ vars.assigned then vars else { vars with assigned := vars.assigned ++ [name] }

-- Puts another value into a slot.
def replace (vars : Vars) (name : String) (operand : Operand) : Vars :=
  { vars with slots := vars.slots.replace name operand }

-- Adds a variable or gives it another value, without marking it. The old value is handed back.
def declare (vars : Vars) (name : String) (operand : Operand) : Option Operand × Vars :=
  match vars.slots.find? name with
  | some old => (some old, vars.replace name operand)
  | none => (none, { vars with slots := vars.slots.append name operand })

-- Gives a variable another value and marks it. The old value is handed back.
def set (vars : Vars) (name : String) (operand : Operand) : Except MapError (Operand × Vars) := do
  let old ← vars.get name
  return (old, (vars.replace name operand).mark name)

-- Marks a variable that is about to be changed in place. It is marked even if it turns out to
-- hold no raster.
def touch (vars : Vars) (name : String) : Except MapError Vars := do
  let _ ← vars.get name
  return vars.mark name

-- Removes a variable together with its mark.
def take (vars : Vars) (name : String) : Except MapError (Operand × Vars) := do
  let operand ← vars.get name
  return (operand, ⟨vars.slots.erase name, vars.assigned.filter (· ≠ name)⟩)

def clearAssigned (vars : Vars) : Vars := { vars with assigned := [] }

end Vars

-- The nodes after a loop, by the node that a variable held after the second replay.
structure Carried where
  pairs : List (Address × Raster)

namespace Carried

def size (carried : Carried) : Nat := carried.pairs.length

def isEmpty (carried : Carried) : Bool := carried.pairs.isEmpty

def before (carried : Carried) : List Address := carried.pairs.map (·.1)

def afterFor (carried : Carried) (node : Address) : Option Raster := carried.pairs.lookup node

end Carried

end MapAlgebra.Loop

namespace MapAlgebra.Engine

open Loop (Carried Vars)

variable {σ : Type} (engine : Engine σ)

-- Moves a handle to the node of another one.
def follow (raster target : Raster) (state : σ) : Raster × σ :=
  match target.node with
  | some node =>
      if raster.node = some node then (raster, state)
      else (target, engine.letGo raster (engine.acquire node state))
  | none => (raster, state)

-- Moves a handle on if the loop carries its node, and says whether it did.
def followCarried (carried : Carried) (operand : Operand) (state : σ) : (Bool × Operand) × σ :=
  match operand with
  | .host _ => ((false, operand), state)
  | .node raster =>
      match raster.node.bind carried.afterFor with
      | some target =>
          let (raster, state) := engine.follow raster target state
          ((true, .node raster), state)
      | none => ((false, operand), state)

-- Moves several operands on, one after the other.
def followAll (carried : Carried) : List Operand → σ → List (Bool × Operand) × σ
  | [], state => ([], state)
  | operand :: operands, state =>
      let (first, state) := engine.followCarried carried operand state
      let (rest, state) := followAll carried operands state
      (first :: rest, state)

-- Moves the assigned variables on, one after the other, and counts those that were moved.
def rebindAssigned (carried : Carried) (vars : Vars) (state : σ) : (Nat × Vars) × σ :=
  go vars.names vars state
where
  go : List String → Vars → σ → (Nat × Vars) × σ
    | [], vars, state => ((0, vars), state)
    | name :: names, vars, state =>
        match vars.slots.find? name with
        | some operand =>
            if name ∈ vars.assigned then
              let ((any, moved), state) := engine.followCarried carried operand state
              let ((count, vars), state) := go names (vars.replace name moved) state
              (((if any then count + 1 else count), vars), state)
            else go names vars state
        | none => go names vars state

-- Moves the assigned variables on when their number does not matter.
def followAssigned (carried : Carried) (vars : Vars) (state : σ) : Vars × σ :=
  let ((_, vars), state) := engine.rebindAssigned carried vars state
  (vars, state)

def letGoCarried (carried : Carried) (state : σ) : σ :=
  carried.pairs.foldl (fun state pair => engine.letGo pair.2 state) state

end MapAlgebra.Engine
