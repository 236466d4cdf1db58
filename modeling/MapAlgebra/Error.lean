import MapAlgebra.Loop.Phase
import MapAlgebra.Scalar
import MapAlgebra.Shape
import MapAlgebra.Text

namespace MapAlgebra

-- A value of another type or kind than the operation takes.
inductive TypeProblem where
  | unknownCode (family : String) (code : Int)
  | untypedConversion
  | wrongPayload (found wanted : DataType)
  | hostValue (value : Scalar)
  | graphNode (address : Nat)
  | noGraphNode
  | untypedCast
  | neighborTypes (rows columns : DataType)
  | hostVariable (name : String)
  | nodeVariable (name : String)
  | untypedScalar

-- Extents, coordinates or counts that do not fit.
inductive ShapeProblem where
  | extentCount (count : Int)
  | notPair (extents : List Int)
  | rank (count : Nat)
  | negativeExtent (extent : Int) (extents : List Int)
  | partlyUnset (slots : List Int) (count : Nat)
  | coordinateLength (values : List Int)
  | valueCount (count : Nat) (shape : List Nat)
  | raggedRows
  | notScalar (shape : List Nat)
  | noBroadcast (left right : List Nat)
  | zeroRankNode
  | zeroRankRaster
  | outside (position : List Int) (shape : List Nat)
  | notPlane (operation : String) (shape : List Nat)
  | focalPlane (shape : List Nat)
  | radialPlane (shape : List Nat)
  | kernelFill (count : Nat) (shape : List Nat)
  | kernelShape (count : Nat) (shape : List Nat)
  | kernelTooLarge
  | noIndexAxis (dimension : Dimension)
  | indexRank (dimension : Dimension) (rank : Nat)
  | cellValue (shape : List Nat)
  | boundedZeroRank

-- The null node, where a node is needed.
inductive NullProblem where
  | returned (engine : String)
  | operand
  | rebinding
  | received
  | bothBranches

-- A loop that is not recorded in the order or in the way that assembly needs.
inductive LoopProblem where
  | alreadyStarted
  | unexpectedCondition
  | outOfOrder (replay : Loop.Replay) (phase : Loop.Phase)
  | missingReplay
  | conditionCount (count : Nat)
  | replayLengths (first second : Nat)
  | fixedCondition
  | releasedStep (step : Nat)
  | divergence (step : Nat) (first second : String)
  | differentSteps (step : Nat)
  | undefinedStep (step : Nat)
  | differentOuter (step : Nat)
  | notOpen (address : Nat)
  | unknownVariable (name : String)
  | conditionLeftGraph
  | conditionJoinedGraph

-- A failure inside an engine.
inductive EngineProblem where
  | unknownNode (address : Nat)
  | tooManyIterations (loop limit : Nat)
  | rankCount (count : Int)
  | unknownResource (name : String)
  | pairCount (count : Int)
  | missingPairs
  | unnamedNode
  | largeNode (address : Nat)
  | looseTail (label : String)
  | nestedLoop
  | reported (text : String)

-- A text that names nothing known or cannot be handed on.
inductive TextProblem where
  | unknownName (family text : String)
  | unknownDevice (text : String)
  | interiorNul (text : String)

-- What can go wrong while a graph is built or evaluated. A broken invariant marks a state that
-- well-formed graphs never reach, and misuse a script that asks for what is not there.
inductive MapError where
  | binding (tried : List String)
  | typeMismatch (problem : TypeProblem)
  | invalidShape (problem : ShapeProblem)
  | nullNode (problem : NullProblem)
  | nestedLowering
  | malformedLoop (problem : LoopProblem)
  | writeFailed (resource : String) (status : Int)
  | engine (problem : EngineProblem)
  | text (problem : TextProblem)
  | data
  | brokenInvariant
  | misuse (reason : String)

def quoted (text : String) : String := "'" ++ text ++ "'"

def natList (items : List Nat) : String := Text.bracketed (items.map toString)

def intList (items : List Int) : String := Text.bracketed (items.map toString)

def TypeProblem.message : TypeProblem → String
  | .unknownCode family code => s!"unknown {family} code {code}"
  | .untypedConversion => "cannot convert a scalar to an unset datatype"
  | .wrongPayload found wanted =>
      s!"cannot read {Coded.label found} payload as {Coded.label wanted}"
  | .hostValue value => s!"expected a graph node, found host value {value.text}"
  | .graphNode address => s!"expected a host value, found node {Text.hex address}"
  | .noGraphNode => "no graph node among the operands"
  | .untypedCast => "cannot cast to the untyped data type"
  | .neighborTypes rows columns =>
      "neighbor coordinates must be integers, found " ++
        s!"{Coded.label rows} and {Coded.label columns}"
  | .hostVariable name => s!"loop variable {quoted name} holds a host value"
  | .nodeVariable name => s!"loop variable {quoted name} holds a graph node"
  | .untypedScalar => "engine returned an untyped scalar"

def ShapeProblem.message : ShapeProblem → String
  | .extentCount count => s!"invalid extent count {count}"
  | .notPair extents => s!"expected 0 or {maxRank} extents, got {intList extents}"
  | .rank count => s!"rank {count} exceeds the supported maximum {maxRank}"
  | .negativeExtent extent extents => s!"negative extent {extent} in {intList extents}"
  | .partlyUnset slots count => s!"partially unset shape {intList slots} with count {count}"
  | .coordinateLength values => s!"coordinate needs {maxRank} entries, got {intList values}"
  | .valueCount count shape => s!"{count} values do not fill shape {natList shape}"
  | .raggedRows => "ragged rows"
  | .notScalar shape => s!"expected a zero-rank value, found shape {natList shape}"
  | .noBroadcast left right => s!"shapes {natList left} and {natList right} do not broadcast"
  | .zeroRankNode => "cannot index a zero-rank node"
  | .zeroRankRaster => "cannot index a zero-rank raster"
  | .outside position shape => s!"coordinate {intList position} outside shape {natList shape}"
  | .notPlane operation shape => s!"{operation} needs a 2D raster, found shape {natList shape}"
  | .focalPlane shape => s!"focal operations need a 2D raster, found {natList shape}"
  | .radialPlane shape => s!"radial scans need a 2D raster, found {natList shape}"
  | .kernelFill count shape => s!"{count} kernel values do not fill shape {natList shape}"
  | .kernelShape count shape => s!"kernel of {count} values does not fill shape {natList shape}"
  | .kernelTooLarge => "kernel too large"
  | .noIndexAxis dimension => s!"no index along {Coded.label dimension}"
  | .indexRank dimension axes => s!"index along {Coded.label dimension} of a rank {axes} layout"
  | .cellValue shape => s!"cell assignment needs a zero-rank value, found shape {natList shape}"
  | .boundedZeroRank => "bounded neighbor of a zero-rank node"

def NullProblem.message : NullProblem → String
  | .returned engine => s!"{engine} returned a null node"
  | .operand => "empty placeholder used as an operand"
  | .rebinding => "cannot rebind to a null node"
  | .received => "the engine received the null node"
  | .bothBranches => "both branches are empty"

def LoopProblem.message : LoopProblem → String
  | .alreadyStarted => "loop started while another loop is being assembled"
  | .unexpectedCondition => "unexpected loop condition"
  | .outOfOrder replay phase => s!"{replay.name} out of order ({phase.name})"
  | .missingReplay => "loop assembled before both replays were recorded"
  | .conditionCount count => s!"expected 2 loop conditions, got {count}"
  | .replayLengths first second => s!"replays differ in length ({first} vs {second})"
  | .fixedCondition => "loop condition does not depend on the loop body"
  | .releasedStep step => s!"loop step {step} was released before assembly"
  | .divergence step first second => s!"replays diverge at step {step}: {first} vs {second}"
  | .differentSteps step => s!"step {step} reads different steps in each replay"
  | .undefinedStep step => s!"step {step} reads the loop body before it is defined"
  | .differentOuter step => s!"step {step} reads different outer values in each replay"
  | .notOpen address => s!"{Text.hex address} is not an open loop"
  | .unknownVariable name => s!"unknown loop variable {quoted name}"
  | .conditionLeftGraph => "loop condition stopped producing a graph node"
  | .conditionJoinedGraph => "host loop condition started producing a graph node"

def EngineProblem.message : EngineProblem → String
  | .unknownNode address => s!"unknown node {Text.hex address}"
  | .tooManyIterations loop limit => s!"loop {loop} exceeded {limit} iterations"
  | .rankCount count => s!"invalid rank count {count}"
  | .unknownResource name => s!"unknown resource {quoted name}"
  | .pairCount count => s!"negative loop variable count {count}"
  | .missingPairs => "loop variable arrays missing"
  | .unnamedNode => "engine returned no node name"
  | .largeNode address => s!"node id {address} overflows"
  | .looseTail label => s!"loop tail attached to {label}"
  | .nestedLoop => "nested loops are not supported"
  | .reported text => text

def TextProblem.message : TextProblem → String
  | .unknownName family text => s!"unknown {family} {quoted text}"
  | .unknownDevice text => s!"unknown device type {quoted text}"
  | .interiorNul text => s!"string {quoted text} contains an interior NUL"

-- The text of an error. Failures of data files and of library search have none of their own.
def MapError.message : MapError → Option String
  | .binding tried => if tried.isEmpty then some bindingText else none
  | .typeMismatch problem => some ("type mismatch: " ++ problem.message)
  | .invalidShape problem => some ("invalid shape: " ++ problem.message)
  | .nullNode problem => some ("null node: " ++ problem.message)
  | .nestedLowering =>
      some "unsupported loop context: a loop is already being lowered on this thread"
  | .malformedLoop problem => some ("malformed loop: " ++ problem.message)
  | .writeFailed resource status =>
      some s!"write of resource {quoted resource} failed with status {status}"
  | .engine problem => some ("engine fault: " ++ problem.message)
  | .text problem => some problem.message
  | .data => none
  | .brokenInvariant => none
  | .misuse reason => some reason
where
  bindingText := "engine library could not be loaded from any of []: no search paths configured"

end MapAlgebra
