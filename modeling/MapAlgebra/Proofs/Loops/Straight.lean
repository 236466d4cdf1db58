import MapAlgebra.Proofs.Graph.Requests
import MapAlgebra.Script.Statement

namespace MapAlgebra.Loop

-- Where straight-line code reads a node: a variable as it stands, what an earlier call of the same
-- closure returned, or a raster from outside the loop. Where something may be left out, such as a
-- summary or a branch of a conditional, nothing is read; elsewhere the engine refuses that.
inductive Source where
  | named (name : String)
  | result (index : Nat)
  | outside (raster : Raster)
  | absent

namespace Source

def isAbsent : Source → Bool
  | absent => true
  | _ => false

-- The node that is read. Results are the handles on what was returned so far.
def node (vars : Vars) (results : List Raster) : Source → Except MapError Address
  | named name => do (← vars.raster name).require
  | result index =>
      match results[index]? with
      | some raster => raster.require
      | none => .error .brokenInvariant
  | outside raster => raster.require
  | absent => .ok Address.null

def address (vars : Vars) (results : List Raster) (source : Source) : Address :=
  (source.node vars results).toOption.getD Address.null

end Source

-- Straight-line code issues calls and assigns variables.
inductive Instruction where
  | call (request : Request Source)
  | assign (name : String) (source : Source)

-- A loop whose condition and body are straight-line code.
structure Code where
  condition : List (Request Source)
  guard : Source
  body : List Instruction

section Running

variable {σ : Type} (engine : Engine σ)

def letGoResults (results : List Raster) (scope : Scope σ Vars) : Scope σ Vars :=
  { scope with
    engine := results.foldl (fun state raster => engine.letGo raster state) scope.engine }

-- Runs one instruction. What a call returns is kept with the other results.
def Instruction.run (results : List Raster) : Instruction → Act σ Vars (List Raster)
  | call request => do
      let vars := (← get).vars
      let _ ← (request.nodes.mapM (·.node vars results) : Except MapError (List Address))
      let raster ← onEngine (engine.make (request.map (Source.address vars results)))
      return results ++ [raster]
  | assign name source => do
      let node ← source.node (← get).vars results
      let raster ← onEngine (engine.wrap node)
      Script.assign engine name (.node raster)
      return results

def runAll : List Instruction → List Raster → Act σ Vars (List Raster)
  | [], results => return results
  | instruction :: rest, results => do
      let results ← onFailure (instruction.run engine results) (letGoResults engine results)
      runAll rest results

namespace Code

variable (code : Code)

-- The results of a closure are let go when it ends.
def runBody : Act σ Vars Unit := do
  let results ← runAll engine code.body []
  modify (letGoResults engine results)

def runCondition : Act σ Vars Raster := do
  let results ← runAll engine (code.condition.map .call) []
  let raster ← onFailure
    (do
      let node ← code.guard.node (← get).vars results
      onEngine (engine.wrap node))
    (letGoResults engine results)
  modify (letGoResults engine results)
  return raster

-- The condition as a loop asks for it.
def ask : Act σ Vars Guard := do
  return .node (← code.runCondition engine)

end Code

end Running

-- What straight-line code reads in one round: a variable as it was when the round began, what a
-- step of the round made, or a raster from outside.
inductive Ref where
  | start (name : String)
  | step (index : Nat)
  | outside (raster : Raster)
  | absent

def Ref.isAbsent : Ref → Bool
  | absent => true
  | _ => false

-- What a closure reads, given what the variables refer to and which steps its calls returned.
def Source.resolve (vars : String → Ref) (results : List Nat) : Source → Ref
  | named name => vars name
  | result index => ((results[index]?).map Ref.step).getD .absent
  | outside raster => .outside raster
  | absent => .absent

-- One node that code has made: that of a request, or a zero of another node's type.
inductive Step (ν : Type) where
  | node (request : Request ν)
  | zero (like : ν)

-- The steps of a call when so many were made before it. In the place of an absent branch, a zero of
-- the other one's type is made first.
def stepsOf (next : Nat) : Request Ref → List (Step Ref)
  | .conditional condition yes no =>
      if yes.isAbsent then [.zero no, .node (.conditional condition (.step next) no)]
      else if no.isAbsent then [.zero yes, .node (.conditional condition yes (.step next))]
      else [.node (.conditional condition yes no)]
  | request => [.node request]

-- What a round does, told without the graph: the steps that it makes, what the variables refer to in
-- the end, and which steps the calls of the running closure returned.
structure Outline where
  steps : List (Step Ref)
  vars : String → Ref
  results : List Nat

namespace Outline

def fresh : Outline := ⟨[], .start, []⟩

-- A call returns the last of its steps.
def extend (outline : Outline) : Instruction → Outline
  | .call request =>
      let made := stepsOf outline.steps.length
        (request.map (Source.resolve outline.vars outline.results))
      { outline with
        steps := outline.steps ++ made
        results := outline.results ++ [outline.steps.length + made.length - 1] }
  | .assign name source =>
      { outline with
        vars := fun other =>
          if other = name then source.resolve outline.vars outline.results else outline.vars other }

-- The end of a closure.
def closed (outline : Outline) : Outline := { outline with results := [] }

end Outline

namespace Step

variable {ν : Type}

-- The nodes that a step looks at, and those that it cannot do without.
def nodes : Step ν → List ν
  | node request => request.nodes
  | zero like => [like]

def required : Step ν → List ν
  | node request => request.required
  | zero like => [like]

-- What the node of a step reads.
def inputs : Step Ref → List Ref
  | node request => request.inputs Ref.isAbsent .absent
  | zero _ => []

end Step

namespace Code

variable (code : Code)

-- The body on its own.
def inner : Outline := (code.body.foldl Outline.extend .fresh).closed

-- What asking for the condition adds.
def asking (outline : Outline) : Outline :=
  (code.condition.map .call).foldl Outline.extend outline

-- The body and then the condition.
def round : Outline := (code.asking code.inner).closed

-- What a variable refers to at the end of a round.
def ends (name : String) : Ref := code.inner.vars name

-- What the condition refers to once its calls are made.
def guardIn (outline : Outline) : Ref :=
  code.guard.resolve (code.asking outline).vars (code.asking outline).results

-- The condition that comes after the body.
def guardRef : Ref := code.guardIn code.inner

-- Variables whose value at the beginning of a round is looked at.
def Reads (name : String) : Prop :=
  code.guard = .named name ∨ ∃ step ∈ code.round.steps, Ref.start name ∈ step.nodes

-- A variable whose final value the loop hands on: it ends a round as a step that is looked at in
-- the next round.
def Carries (name : String) : Prop :=
  ∃ step other, code.ends name = .step step ∧ code.Reads other ∧ code.ends other = .step step

end Code

end MapAlgebra.Loop
