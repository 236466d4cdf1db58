import MapAlgebra.Graph.Node
import MapAlgebra.Graph.Table

namespace MapAlgebra.Graph

open Loop (Phase Replay)

-- Records the two replays of a loop body. Matching them tells what the body reads from the
-- round before.
structure Recorder where
  phase : Phase
  conditions : List Nat
  first : List Nat
  second : List Nat
  pairs : List (Nat × List (Nat × Nat))

namespace Recorder

def idle : Recorder := ⟨.idle, [], [], [], []⟩

def isActive (recorder : Recorder) : Bool := recorder.phase ≠ .idle

def start (recorder : Recorder) : Except MapError Recorder :=
  if recorder.isActive then .error (.malformedLoop .alreadyStarted)
  else .ok { recorder with phase := .started }

-- Takes a condition. Whoever records it holds the node until the recording is finished.
def addCondition (recorder : Recorder) (node : Nat) : Except MapError Recorder :=
  match recorder.phase with
  | .started | .firstReplay | .secondReplay =>
      if recorder.conditions.length < 2 then
        .ok { recorder with conditions := recorder.conditions ++ [node] }
      else .error (.malformedLoop .unexpectedCondition)
  | _ => .error (.malformedLoop .unexpectedCondition)

def replay (recorder : Recorder) (next : Replay) : Except MapError Recorder :=
  match next, recorder.phase with
  | .first, .started => .ok { recorder with phase := .firstReplay }
  | .second, .firstReplay => .ok { recorder with phase := .secondReplay }
  | next, phase => .error (.malformedLoop (.outOfOrder next phase))

def isRecording (recorder : Recorder) : Bool :=
  match recorder.phase with
  | .firstReplay | .secondReplay => true
  | _ => false

-- Takes a new node into the replay that is going on.
def record (recorder : Recorder) (node : Nat) : Recorder :=
  match recorder.phase with
  | .firstReplay => { recorder with first := recorder.first ++ [node] }
  | .secondReplay => { recorder with second := recorder.second ++ [node] }
  | _ => recorder

def require (condition : Bool) (problem : LoopProblem) : Except MapError Unit :=
  if condition then .ok () else .error (.malformedLoop problem)

-- Finds a carried value or adds it.
def carriedIndex (carried : List CarriedValue) (value : CarriedValue) :
    Nat × List CarriedValue :=
  match carried.idxOf? value with
  | some index => (index, carried)
  | none => (carried.length, carried ++ [value])

-- Explains one input of a step from the nodes that the two replays read there.
def slot (recorder : Recorder) (step : Nat) (carried : List CarriedValue) (first second : Nat) :
    Except MapError (Slot × List CarriedValue) :=
  match recorder.second.idxOf? second with
  | some index => do
      require (recorder.first[index]? = some first) (.differentSteps step)
      return (.step index, carried)
  | none =>
      match recorder.first.idxOf? second with
      | some index => do
          require (first ∉ recorder.first) (.undefinedStep step)
          let (index, carried) := carriedIndex carried ⟨first, index⟩
          return (.carried index, carried)
      | none => do
          require (first = second) (.differentOuter step)
          return (.outer second, carried)

def slotsFrom (recorder : Recorder) (step : Nat) (carried : List CarriedValue) :
    List (Nat × Nat) → Except MapError (List Slot × List CarriedValue)
  | [] => return ([], carried)
  | (first, second) :: inputs => do
      let (slot, carried) ← recorder.slot step carried first second
      let (slots, carried) ← recorder.slotsFrom step carried inputs
      return (slot :: slots, carried)

-- The inputs of one step, which both replays have to have recorded in the same way.
def stepSlots (recorder : Recorder) (nodes : Table Node) (step : Nat)
    (carried : List CarriedValue) (first second : Nat) :
    Except MapError (List Slot × List CarriedValue) :=
  match nodes.get? first, nodes.get? second with
  | some a, some b => do
      require (a.kind.same b.kind && a.inputs.length = b.inputs.length)
        (.divergence step a.kind.label b.kind.label)
      recorder.slotsFrom step carried (a.inputs.zip b.inputs)
  | _, _ => .error (.malformedLoop (.releasedStep step))

def stepsFrom (recorder : Recorder) (nodes : Table Node) (step : Nat)
    (carried : List CarriedValue) :
    List (Nat × Nat) → Except MapError (List (List Slot) × List CarriedValue)
  | [] => return ([], carried)
  | (first, second) :: steps => do
      let (slots, carried) ← recorder.stepSlots nodes step carried first second
      let (rest, carried) ← recorder.stepsFrom nodes (step + 1) carried steps
      return (slots :: rest, carried)

-- Matches the two replays step by step.
def plan (recorder : Recorder) (nodes : Table Node) : Except MapError LoopPlan := do
  require (recorder.phase = .secondReplay) .missingReplay
  match recorder.conditions with
  | [initial, next] =>
      require (recorder.first.length = recorder.second.length)
        (.replayLengths recorder.first.length recorder.second.length)
      match recorder.first.idxOf? next with
      | none => .error (.malformedLoop .fixedCondition)
      | some feed =>
          let (slots, carried) ← recorder.stepsFrom nodes 0 [⟨initial, feed⟩]
            (recorder.first.zip recorder.second)
          return ⟨recorder.first, slots, carried⟩
  | conditions => .error (.malformedLoop (.conditionCount conditions.length))

-- Stops recording; nodes made from here on belong to the graph around the loop.
def close (recorder : Recorder) : Recorder := { recorder with phase := .assembled }

def setPairs (recorder : Recorder) (loop : Nat) (pairs : List (Nat × Nat)) : Recorder :=
  { recorder with pairs := (loop, pairs) :: recorder.pairs.filter (·.1 ≠ loop) }

def pairsOf (recorder : Recorder) (loop : Nat) : Option (List (Nat × Nat)) :=
  recorder.pairs.lookup loop

-- Every node that the recording holds.
def held (recorder : Recorder) : List Nat :=
  recorder.conditions ++ recorder.first ++ recorder.second

end Recorder

end MapAlgebra.Graph
