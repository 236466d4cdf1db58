import MapAlgebra.Source.Grammar

namespace MapAlgebra.Source

structure Segment where
  word : String
  -- Whether arguments follow.
  applied : Bool
  constants : List Code

structure Path where
  -- Whether it starts from a type.
  qualified : Bool
  -- Whether it starts with a separator.
  rooted : Bool
  segments : List Segment

namespace Path

def constants (path : Path) : List Code := path.segments.flatMap Segment.constants

-- Whether no arguments are written.
def isBare (path : Path) : Bool := path.segments.all (!·.applied)

def endsBare (path : Path) : Bool := path.segments.getLast?.any (!·.applied)

-- The name that the path consists of, if it does.
def name? (path : Path) : Option String :=
  match path.qualified, path.rooted, path.segments with
  | false, false, [segment] => if segment.applied then none else some segment.word
  | _, _, _ => none

end Path

namespace Grammar

open Read

variable (grammar : Grammar)

-- A constant as an argument.
def constantArgument : Read (List Code) := do
  if ← looks isLiteral then
    literal
    return []
  else if ← looks isName then
    let _ ← name
    return []
  else
    grammar.annotations
    return [.detached [.block none (← grammar.attributedBody)]]

-- Names after the word for that hold within one type.
def quantifier? : Read Bool := do
  if !(← word? "for") then return false
  mark "<"
  let _ ← separatedUntil "," (marked ">") do
    grammar.annotations
    let _ ← label
  mark ">"
  return true

-- The type behind an arrow.
def returned (plus : Bool) : Read (List Code) := do
  if ← mark? "->" then grammar.type plus else return []

-- Types in round brackets behind a path, and whether the path can go on.
def inputsAndOutput : Read (Bool × List Code) := do
  let inputs ← group .round (separated "," (grammar.type true))
  let isOpen := !(← marked "->") || (← grouped .round 2)
  return (isOpen, inputs.flatten ++ (← grammar.returned false))

-- The name of an associated type or constant with its arguments, where a condition on it follows.
def associated : Read (List Code) := do
  let _ ← name
  let constants ←
    if (← marked "<") && !(← marked "<=") then do
      mark "<"
      let arguments ← separatedUntil "," (marked ">") do
        if (← label?).isSome then return []
        grammar.type true
      mark ">"
      pure arguments.flatten
    else pure []
  require ((← marked "=") || ((← marked ":") && !(← marked "::")))
  return constants

-- What an associated type or constant has to be.
def condition : Read (List Code) := do
  if ← mark? "=" then
    if (← looks isLiteral) || (← grouped .curly) then grammar.constantArgument
    else grammar.type true
  else
    mark ":"
    let isDone := do return (← marked ",") || (← marked ">")
    let bounds ← separatedUntil "+" isDone (grammar.bound false)
    return bounds.flatMap (·.2)

def argument : Read (List Code) := do
  if (← looks isLabel) && !(← marked "+" 1) then
    let _ ← label
    return []
  else if (← looks isLiteral) || (← grouped .curly) then grammar.constantArgument
  else
    match ← attempt grammar.associated with
    | some constants => return constants ++ (← grammar.condition)
    | none => grammar.type true

-- Arguments in angle brackets.
def angleArguments : Read (List Code) := do
  let _ ← mark? "::"
  mark "<"
  let arguments ← separatedUntil "," (marked ">") grammar.argument
  mark ">"
  return arguments.flatten

-- In expressions a separator stands before the arguments.
def segment (inExpression : Bool) : Read Segment := do
  if ← looks fun tokens => ["super", "self", "crate", "try"].any (isWord · tokens) then
    return ⟨← anyWord, false, []⟩
  let word ← if ← worded "Self" then anyWord else name
  if (!inExpression && (← marked "<") && !(← marked "<=")) ||
      ((← marked "::") && (← marked "<" 2)) then
    return ⟨word, true, ← grammar.angleArguments⟩
  return ⟨word, false, []⟩

def segments (inExpression : Bool) : Read (List Segment) :=
  collect do
    if (← marked "::") && !(← grouped .round 2) then
      advance 2
      return some (← grammar.segment inExpression)
    return none

def path (inExpression : Bool) : Read Path := do
  let rooted ← mark? "::"
  let first ← grammar.segment inExpression
  return ⟨false, rooted, first :: (← grammar.segments inExpression)⟩

-- A path that can start from a type in angle brackets. The constants of the type come first.
def qualifiedPath (inExpression : Bool) : Read (List Code × Path) := do
  if !(← mark? "<") then return ([], ← grammar.path inExpression)
  let origin ← grammar.type true
  let trait ← if ← word? "as" then some <$> grammar.path false else pure none
  mark ">"
  mark "::"
  let first ← grammar.segment inExpression
  let rest ← collect do
    if !(← mark? "::") then return none
    return some (← grammar.segment inExpression)
  let inner := trait.toList.flatMap Path.segments
  return (origin, ⟨true, false, inner ++ first :: rest⟩)

-- Whether the types of a function follow a path.
def inputsAhead : Read Bool := do
  return (← grouped .round) || ((← marked "::") && (← grouped .round 2))

-- A path as the name of a type or of a trait. The types of a function can follow it.
def typePath : Read (List Code × Path) := do
  let (origin, path) ← grammar.qualifiedPath false
  if !path.endsBare || !(← inputsAhead) then return (origin, path)
  let _ ← mark? "::"
  let (isOpen, constants) ← grammar.inputsAndOutput
  let more ← if isOpen then grammar.segments false else pure []
  return (origin, { path with segments := path.segments ++ ⟨"", true, constants⟩ :: more })

-- Bounds.

def traitBound : Read (List Code) := do
  let quantified ← grammar.quantifier?
  let isMaybe ← mark? "?"
  if isMaybe && !quantified then
    let _ ← grammar.quantifier?
  let path ← grammar.path false
  if path.endsBare && (← inputsAhead) then
    let _ ← mark? "::"
    return path.constants ++ (← grammar.inputsAndOutput).2
  return path.constants

def captures : Read Unit := do
  word "use"
  mark "<"
  let _ ← separatedUntil "," (marked ">") do
    if !(← label?).isSome then
      let _ ← anyWord
  mark ">"

def oneBound (capturing : Bool) : Read (Bool × List Code) := do
  if (← label?).isSome then return (false, [])
  else if ← worded "use" then
    require capturing
    captures
    return (false, [])
  else if ← grouped .round then return (true, ← group .round grammar.traitBound)
  else return (true, ← grammar.traitBound)

def boundAhead : Read Bool := do
  return (← looks isAnyWord) || (← marked "::") || (← marked "?") || (← looks isLabel) ||
    (← grouped .round)

-- Further bounds, each behind a plus sign. The last one may be missing.
def moreBounds (capturing : Bool) : Read (List (Bool × List Code)) :=
  collect do
    if !(← mark? "+") then return none
    if ← boundAhead then return some (← grammar.oneBound capturing)
    return some (false, [])

-- The bounds that stand for a type; one of them has to be a trait.
def bounds (capturing plus : Bool) : Read (List Code) := do
  let first ← grammar.oneBound capturing
  let rest ← if plus then grammar.moreBounds capturing else pure []
  require ((first :: rest).any (·.1))
  return (first :: rest).flatMap (·.2)

-- Types.

-- What round brackets hold, and whether bounds have to follow them or can.
inductive Bracketed where
  | closed
  | boundable
  | bound

def bracketedType : Read (Bracketed × List Code) := do
  if ← atEnd then return (.closed, [])
  else if ← looks isLabel then return (.closed, ← grammar.bounds false true)
  else if ← marked "?" then return (.bound, ← grammar.traitBound)
  else
    let first ← grammar.type true
    if !(← mark? ",") then return (.boundable, first)
    let rest ← separated "," (grammar.type true)
    return (.closed, first ++ rest.flatten)

def functionType : Read (List Code) := do
  let _ ← word? "unsafe"
  if ← word? "extern" then
    if ← looks isString then advance 1
  word "fn"
  let inputs ← group .round do
    separated "," do
      grammar.annotations
      if ← mark? "..." then return []
      if ((← looks isName) || (← worded "_")) && (← marked ":" 1) && !(← marked "::" 1) then
        advance 2
      grammar.type true
  return inputs.flatten ++ (← grammar.returned false)

-- The bounds added to a path that starts a type.
def addedBounds : Read (List Code) := do
  return (← grammar.moreBounds false).flatMap (·.2)

def namedType (plus : Bool) : Read (List Code) := do
  let (origin, path) ← grammar.typePath
  if path.qualified then return origin ++ path.constants
  if (← marked "!") && !(← marked "!=") && path.isBare then
    let _ ← macroRest
    return []
  if plus && (← marked "+") then return path.constants ++ (← grammar.addedBounds)
  return path.constants

def oneType (plus : Bool) : Read (List Code) := do
  let quantified ← grammar.quantifier?
  let isPath := (← looks isName) || (← pathWorded)
  if quantified && !isPath then
    require ((← worded "fn") || (← worded "unsafe") || (← worded "extern"))
  if ← grouped .round then
    let (kind, constants) ← group .round grammar.bracketedType
    match kind with
    | .closed => return constants
    | .boundable =>
        if plus then return constants ++ (← grammar.addedBounds) else return constants
    | .bound => return constants ++ (← grammar.addedBounds)
  else if (← worded "fn") || (← worded "unsafe") || (← worded "extern") then grammar.functionType
  else if isPath || (← marked "::") || (← marked "<") then grammar.namedType plus
  else if ← word? "dyn" then
    let _ ← mark? "*"
    grammar.bounds false plus
  else if ← grouped .square then
    group .square do
      let constants ← grammar.type true
      if ← mark? ";" then return constants ++ [← grammar.constant] else return constants
  else if ← mark? "*" then
    if !(← word? "const") then word "mut"
    grammar.type false
  else if ← mark? "&" then
    let _ ← label?
    let _ ← word? "mut"
    grammar.type false
  else if ← mark? "!" then return []
  else if ← word? "impl" then grammar.bounds true plus
  else if ← word? "_" then return []
  else
    require (← looks isLabel)
    grammar.bounds false true

end Grammar

end MapAlgebra.Source
