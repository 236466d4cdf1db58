import MapAlgebra.Source.Types

namespace MapAlgebra.Source.Grammar

open Read

variable (grammar : Grammar)

-- Alternatives, perhaps with a bar before the first.
def alternatives : Read Matched := do
  let isBarred ← mark? "|"
  let first ← grammar.pattern
  let rest ← collect do
    if (← marked "|") && !(← marked "||") && !(← marked "|=") then
      advance 1
      return some (← grammar.pattern)
    return none
  if !isBarred && rest.isEmpty then return first
  let cases := first :: rest
  return ⟨.plain, .either (cases.map Matched.pattern), cases.flatMap Matched.constants⟩

-- One end of a range, unless what can follow a range comes first.
def rangeEnd? : Read (Option (List Code)) := do
  if (← atEnd) || (← marked "|") || (← marked "=") || ((← marked ":") && !(← marked "::")) ||
      (← marked ",") || (← marked ";") || (← worded "if") then
    return none
  else if ← looks isLiteral then
    literal
    return some []
  else if (← looks isName) || (← pathWorded) || (← marked "::") || (← marked "<") then
    let (origin, path) ← grammar.qualifiedPath true
    return some (origin ++ path.constants)
  else
    word "const"
    return some [.detached (← grammar.attributedBody)]

-- The dots of a range, and whether its end belongs to it.
def rangeDots : Read Bool := do
  if ← mark? "..=" then return true
  else if ← mark? "..." then return true
  else
    mark ".."
    return false

-- A range behind its start.
def rangeFrom (start : List Code) : Read Matched := do
  let closed ← rangeDots
  match ← grammar.rangeEnd? with
  | some stop => return .closed (start ++ stop)
  | none =>
      require !closed
      return ⟨.openRange, .closed, start⟩

-- A range without a start, or the rest of the parts.
def rangeTo : Read Matched := do
  let closed ← rangeDots
  match ← grammar.rangeEnd? with
  | some stop => return ⟨.openRange, .closed, stop⟩
  | none =>
      require !closed
      return ⟨.rest, .closed, []⟩

def fieldPattern : Read Matched := do
  grammar.annotations
  let isBoxed ← word? "box"
  let isReference ← word? "ref"
  let isMutable ← word? "mut"
  if isBoxed || isReference || isMutable then
    let bound ← name
    return ⟨.plain, if isBoxed then .closed else .bind bound [], []⟩
  match ← memberName? with
  | none => do
      mark ":"
      grammar.alternatives
  | some bound =>
      if ← mark? ":" then grammar.alternatives else return ⟨.plain, .bind bound [], []⟩

-- The fields of a structure. Nothing is read behind the sign for the rest.
def fieldPatterns : Read (List Matched) :=
  collect do
    if ← atEnd then return none
    let before ← get
    grammar.annotations
    if ← mark? ".." then return none
    set before
    let field ← grammar.fieldPattern
    if !(← atEnd) then mark ","
    return some field

def pathPattern : Read Matched := do
  let (origin, path) ← grammar.qualifiedPath true
  let constants := origin ++ path.constants
  if !path.qualified && (← marked "!") && !(← marked "!=") && path.isBare then
    let _ ← macroRest
    return .closed []
  let parts ←
    if ← grouped .curly then group .curly grammar.fieldPatterns
    else if ← grouped .round then group .round (separated "," grammar.alternatives)
    else if ← marked ".." then return ← grammar.rangeFrom constants
    else return .closed constants
  let parts := Matched.group parts
  return { parts with constants := constants ++ parts.constants }

def bracketedPattern : Read Matched := do
  let items ← group .round do
    separated "," do
      let item ← grammar.alternatives
      return (item, ← atEnd)
  match items with
  | [(item, true)] =>
      if item.fit = .rest then return .group [item]
      return ⟨.plain, .paren item.pattern, item.constants⟩
  | items => return .group (items.map (·.1))

def slicePattern : Read Matched := do
  let items ← group .square (separated "," grammar.alternatives)
  require (items.all (·.fit ≠ .openRange))
  return .group items

def bindingPattern : Read Matched := do
  let _ ← word? "ref"
  let _ ← word? "mut"
  let bound ← if ← worded "self" then anyWord else name
  if !(← mark? "@") then return ⟨.plain, .bind bound [], []⟩
  let also ← grammar.pattern
  return ⟨.plain, .bind bound [also.pattern], also.constants⟩

-- Whether a path starts here that is more than a name to be bound.
def pathAhead : Read Bool := do
  let goesOn := (← marked "::" 1) || (← marked "!" 1) || (← grouped .curly 1) ||
    (← grouped .round 1) || (← marked ".." 1)
  return ((← looks isName) && goesOn) || ((← worded "self") && (← marked "::" 1)) ||
    (← marked "::") || (← marked "<") || (← worded "Self") || (← worded "super") ||
    (← worded "crate")

def onePattern : Read Matched := do
  if ← pathAhead then grammar.pathPattern
  else if ← word? "_" then return .closed []
  else if ← word? "box" then return .closed (← grammar.pattern).constants
  else if (← marked "-") || (← looks isLiteral) || (← worded "const") then
    let start ← grammar.rangeEnd?
    let start := start.getD []
    if ← marked ".." then grammar.rangeFrom start else return .closed start
  else if (← worded "ref") || (← worded "mut") || (← worded "self") || (← looks isName) then
    grammar.bindingPattern
  else if ← mark? "&" then
    let _ ← word? "mut"
    return .group [← grammar.pattern]
  else if ← grouped .round then grammar.bracketedPattern
  else if ← grouped .square then grammar.slicePattern
  else
    require ((← marked "..") && !(← marked "..."))
    grammar.rangeTo

end MapAlgebra.Source.Grammar
