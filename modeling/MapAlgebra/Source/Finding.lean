import MapAlgebra.Source.Code

namespace MapAlgebra.Source

-- Why a loop cannot be lowered.
inductive Fault where
  | noLoop
  | moreThanLoop
  | labelled
  | annotated
  | patternCondition
  | pathTarget
  | fieldTarget
  | tupleTarget
  | referenceTarget
  | otherTarget
  | leaves
  | skips
deriving DecidableEq, Repr

def Fault.message : Fault → String
  | noLoop => "unsupported loop context: map_while! expects a `while` loop"
  | moreThanLoop => "malformed loop: expected exactly one `while` loop"
  | labelled => "malformed loop: labeled loops cannot be lowered"
  | annotated => "malformed loop: attributes on the loop are not supported"
  | patternCondition => "malformed loop: `while let` cannot be lowered"
  | pathTarget => "unsupported assignment target: only local names can be loop-carried"
  | fieldTarget => "unsupported assignment target: fields cannot be loop-carried"
  | tupleTarget => "unsupported assignment target: destructuring cannot be loop-carried"
  | referenceTarget =>
      "unsupported assignment target: writes through references cannot be loop-carried"
  | otherTarget => "unsupported assignment target"
  | leaves => "malformed loop: `break` cannot leave a lowered loop"
  | skips => "malformed loop: `continue` cannot skip part of a lowered loop"

-- What a look through a loop body finds.
inductive Finding where
  | assigned (name : String)
  | declared (name : String)
  | fault (fault : Fault)
deriving DecidableEq, Repr

mutual

-- The names that a declaration with this pattern declares. Alternatives, brackets and what has to
-- match beside a name are not looked into.
def Pattern.names : Pattern → List String
  | .bind name _ => [name]
  | .group parts => Pattern.namesOfAll parts
  | .either _ | .paren _ | .closed => []

def Pattern.namesOfAll : List Pattern → List String
  | [] => []
  | part :: parts => part.names ++ Pattern.namesOfAll parts

end

-- What an assignment to this form means: positions and brackets are seen through.
def Code.target : Code → List Finding
  | .name text => [.assigned text]
  | .index base _ => base.target
  | .paren inner => inner.target
  | .placeholder => []
  | .path _ => [.fault .pathTarget]
  | .field _ => [.fault .fieldTarget]
  | .tuple _ => [.fault .tupleTarget]
  | .dereference _ => [.fault .referenceTarget]
  | _ => [.fault .otherTarget]

-- The methods that change what they are called on.
def changesReceiver (method : String) : Bool := method = "set" || method = "set_where"

-- A jump is a fault unless some loop or closure inside the body encloses it.
def jump (enclosed : Bool) (fault : Fault) : List Finding :=
  if enclosed then [] else [.fault fault]

mutual

-- What is found in a form, in the order of the text. The left side of a plain assignment counts
-- for its target alone.
def Code.findings (enclosed : Bool) : Code → List Finding
  | .name _ | .placeholder => []
  | .path constants => Code.findingsOfAll enclosed constants
  | .paren inner => inner.findings enclosed
  | .tuple items => Code.findingsOfAll enclosed items
  | .field base => base.findings enclosed
  | .index base position => base.findings enclosed ++ position.findings enclosed
  | .dereference base => base.findings enclosed
  | .assign left right => left.target ++ right.findings enclosed
  | .update left right => left.target ++ left.findings enclosed ++ right.findings enclosed
  | .method receiver called arguments =>
      (if changesReceiver called then receiver.target else []) ++ receiver.findings enclosed ++
        Code.findingsOfAll enclosed arguments
  | .parts inner => Code.findingsOfAll enclosed inner
  | .block _ body => Code.findingsOfAll enclosed body
  | .detached body => Code.findingsOfAll enclosed body
  | .branch condition yes no =>
      condition.findings enclosed ++ Code.findingsOfAll enclosed yes ++
        Code.findingsOfAll enclosed no
  | .select value arms => value.findings enclosed ++ Code.findingsOfAll enclosed arms
  | .arm _ constants guard result =>
      Code.findingsOfAll enclosed constants ++ Code.findingsOfAll enclosed guard ++
        result.findings enclosed
  | .test _ constants value => Code.findingsOfAll enclosed constants ++ value.findings enclosed
  | .declare pattern constants value otherwise =>
      pattern.names.map .declared ++ Code.findingsOfAll enclosed constants ++
        Code.findingsOfAll enclosed value ++ Code.findingsOfAll enclosed otherwise
  | .whileLoop _ condition body => condition.findings true ++ Code.findingsOfAll true body
  | .forLoop _ _ constants range body =>
      Code.findingsOfAll true constants ++ range.findings true ++ Code.findingsOfAll true body
  | .endless _ body => Code.findingsOfAll true body
  | .closure _ constants body => Code.findingsOfAll true constants ++ body.findings true
  | .function _ constants body =>
      Code.findingsOfAll enclosed constants ++ Code.findingsOfAll enclosed body
  | .leave _ value => jump enclosed .leaves ++ Code.findingsOfAll enclosed value
  | .again _ => jump enclosed .skips

def Code.findingsOfAll (enclosed : Bool) : List Code → List Finding
  | [] => []
  | code :: rest => code.findings enclosed ++ Code.findingsOfAll enclosed rest

end

def Finding.fault? : Finding → Option Fault
  | .fault found => some found
  | _ => none

def Finding.assigned? : Finding → Option String
  | .assigned text => some text
  | _ => none

def Finding.declared? : Finding → Option String
  | .declared text => some text
  | _ => none

-- Each of several names once, in the order of their first use.
def firstUses (names : List String) : List String :=
  names.foldl (fun seen name => if seen.contains name then seen else seen ++ [name]) []

-- The names that a body assigns and declares nowhere, or the faults of the body.
def assignedNames (body : List Code) : Except (List Fault) (List String) :=
  let findings := Code.findingsOfAll false body
  match findings.filterMap Finding.fault? with
  | [] =>
      let declared := findings.filterMap Finding.declared?
      .ok ((firstUses (findings.filterMap Finding.assigned?)).filter (!declared.contains ·))
  | faults => .error faults

end MapAlgebra.Source
