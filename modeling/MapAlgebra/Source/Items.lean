import MapAlgebra.Source.Patterns

namespace MapAlgebra.Source.Grammar

open Read

variable (grammar : Grammar)

-- Where bounds end.
def boundsEnd : Read Bool := do
  return (← atEnd) || (← grouped .curly) || (← marked ",") || (← marked ";") ||
    ((← marked ":") && !(← marked "::")) || (← marked "=") || (← marked ">")

-- Bounds up to their end, none of which is needed.
def openBounds : Read (List Code) := do
  let bounds ← separatedUntil "+" boundsEnd (grammar.bound false)
  return bounds.flatMap (·.2)

def lifetimeBounds : Read Unit := do
  let _ ← separatedUntil "+" boundsEnd label

def parameter : Read (List Code) := do
  grammar.annotations
  if (← label?).isSome then
    if ← mark? ":" then lifetimeBounds
    return []
  else if ← word? "const" then
    let _ ← name
    mark ":"
    let constants ← grammar.type true
    if ← mark? "=" then return constants ++ (← grammar.constantArgument) else return constants
  else
    if !(← word? "_") then
      let _ ← name
    let bounds ← if ← mark? ":" then grammar.openBounds else pure []
    if ← mark? "=" then return bounds ++ (← grammar.type true) else return bounds

-- Parameters in angle brackets, if there are any.
def parameters : Read (List Code) := do
  if !(← mark? "<") then return []
  let found ← separatedUntil "," (marked ">") grammar.parameter
  mark ">"
  return found.flatten

def requirement : Read (List Code) := do
  if (← looks isLabel) && (← marked ":" 1) then
    advance 2
    lifetimeBounds
    return []
  let _ ← grammar.quantifier?
  let constants ← grammar.type true
  mark ":"
  return constants ++ (← grammar.openBounds)

-- Conditions on the parameters, if there are any.
def requirements : Read (List Code) := do
  if !(← word? "where") then return []
  let found ← collect do
    if ← boundsEnd then return none
    let constants ← grammar.requirement
    if !(← boundsEnd) then mark ","
    else
      let _ ← mark? ","
    return some constants
  return found.flatten

-- Who can see an item.
def visibility : Read Unit := do
  if !(← word? "pub") then return
  match ← ahead with
  | .group .round [.word text] :: _ =>
      if ["crate", "self", "super"].contains text then advance 1
  | .group .round (.word "in" :: _) :: _ =>
      group .round do
        advance 1
        plainPath
  | _ => return

def functionMarks : Read Unit := do
  let _ ← word? "const"
  let _ ← word? "async"
  let _ ← word? "unsafe"
  if ← word? "extern" then
    if ← looks isString then advance 1

-- Whether a function starts here.
def functionAhead : Read Bool := do
  let before ← get
  functionMarks
  let found ← worded "fn"
  set before
  return found

def receiver : Read (List Code) := do
  let isBorrowed ← mark? "&"
  if isBorrowed then
    let _ ← label?
  let _ ← word? "mut"
  word "self"
  if !isBorrowed && (← mark? ":") then grammar.type true else return []

def functionParameter : Read (Option Matched) := do
  grammar.annotations
  if ← mark? "..." then return none
  match ← attempt grammar.receiver with
  | some constants => return some (.closed constants)
  | none => do
      let matched ← grammar.pattern
      mark ":"
      if ← mark? "..." then return none
      let constants ← grammar.type true
      return some { matched with constants := matched.constants ++ constants }

-- A function. Without a body it holds nothing.
def function : Read Code := do
  functionMarks
  word "fn"
  let _ ← name
  let generic ← grammar.parameters
  let inputs ← group .round (separated "," grammar.functionParameter)
  let output ← grammar.returned true
  let conditions ← grammar.requirements
  let inputs := inputs.filterMap id
  let constants := generic ++ conditions ++ inputs.flatMap Matched.constants ++ output
  if ← mark? ";" then return .parts constants
  return .function (inputs.map Matched.pattern) constants (← grammar.attributedBody)

def constantItem (named : Read Unit) : Read Code := do
  named
  let generic ← grammar.parameters
  mark ":"
  let constants ← grammar.type true
  let value ← if ← mark? "=" then pure [← grammar.constant] else pure []
  let conditions ← grammar.requirements
  mark ";"
  return .parts (generic ++ conditions ++ constants ++ value)

def nameOrBlank : Read Unit := do
  if !(← word? "_") then
    let _ ← name

def staticItem : Read Code := do
  let _ ← word? "mut"
  grammar.constantItem do
    let _ ← name

def typeItem : Read Code := do
  let _ ← name
  let generic ← grammar.parameters
  let bounds ← if ← mark? ":" then grammar.openBounds else pure []
  let conditions ← grammar.requirements
  let constants ← if ← mark? "=" then grammar.type true else pure []
  let more ← grammar.requirements
  mark ";"
  return .parts (generic ++ conditions ++ more ++ bounds ++ constants)

-- Structures and unions.

def namedField : Read (List Code) := do
  grammar.annotations
  visibility
  let _ ← name
  mark ":"
  grammar.type true

def plainField : Read (List Code) := do
  grammar.annotations
  visibility
  grammar.type true

def namedFields : Read (List Code) := do
  return (← group .curly (separated "," grammar.namedField)).flatten

def plainFields : Read (List Code) := do
  return (← group .round (separated "," grammar.plainField)).flatten

def structureItem : Read Code := do
  let _ ← name
  let generic ← grammar.parameters
  if ← grouped .round then
    let fields ← grammar.plainFields
    let conditions ← grammar.requirements
    mark ";"
    return .parts (generic ++ conditions ++ fields)
  let conditions ← grammar.requirements
  if ← mark? ";" then return .parts (generic ++ conditions)
  return .parts (generic ++ conditions ++ (← grammar.namedFields))

def variant : Read (List Code) := do
  grammar.annotations
  visibility
  let _ ← name
  let fields ←
    if ← grouped .curly then grammar.namedFields
    else if ← grouped .round then grammar.plainFields
    else pure []
  if ← mark? "=" then return fields ++ [← grammar.constant] else return fields

def enumerationItem : Read Code := do
  let _ ← name
  let generic ← grammar.parameters
  let conditions ← grammar.requirements
  let variants ← group .curly (separated "," grammar.variant)
  return .parts (generic ++ conditions ++ variants.flatten)

-- Names from elsewhere.

def importTree : Nat → Read Unit
  | 0 => refuse
  | fuel + 1 => do
      if ← mark? "*" then return
      else if ← grouped .curly then
        group .curly do
          let _ ← separated "," do
            let _ ← mark? "::"
            importTree fuel
      else
        require ((← looks isName) || (← pathWorded) || (← worded "_") || (← worded "try"))
        advance 1
        if ← mark? "::" then importTree fuel
        else if ← word? "as" then nameOrBlank

def importItem : Read Code := do
  let _ ← mark? "::"
  importTree (Token.weightOfAll (← ahead) + 1)
  mark ";"
  return .nothing

def foreignCrate : Read Code := do
  if !(← word? "self") then
    let _ ← name
  if ← word? "as" then nameOrBlank
  mark ";"
  return .nothing

-- Items in braces.

def macroItem : Read Code := do
  plainPath
  mark "!"
  if (← looks isName) || (← worded "try") then advance 1
  if (← skipGroup) ≠ .curly then mark ";"
  return .nothing

-- What stands in a trait, in an implementation or in a block of foreign items.
def associatedItem : Read Code := do
  grammar.annotations
  visibility
  if (← worded "default") && !(← marked "!" 1) then advance 1
  if ← functionAhead then grammar.function
  else if ← word? "const" then grammar.constantItem nameOrBlank
  else if ← word? "static" then grammar.staticItem
  else if ← word? "type" then grammar.typeItem
  else macroItem

def associatedItems : Read (List Code) :=
  group .curly do
    let _ ← grammar.innerAnnotations
    collect do
      if ← atEnd then return none
      return some (← grammar.associatedItem)

def traitItem : Read Code := do
  let _ ← name
  let generic ← grammar.parameters
  let bounds ← if ← mark? ":" then grammar.openBounds else pure []
  if ← mark? "=" then
    let _ ← grammar.openBounds
    let _ ← grammar.requirements
    mark ";"
    return .nothing
  let conditions ← grammar.requirements
  return .parts (generic ++ conditions ++ bounds ++ (← grammar.associatedItems))

-- Whether parameters follow, and no path that starts from a type.
def parametersAhead : Read Bool := do
  return (← marked "<") && ((← marked ">" 1) || (← marked "#" 1) || (← worded "const" 1) ||
    (((← looks isName 1) || (← looks isLabel 1)) &&
      ((← marked ":" 2) || (← marked "," 2) || (← marked ">" 2) || (← marked "=" 2))))

def implementation : Read Code := do
  let generic ← if ← parametersAhead then grammar.parameters else pure []
  let _ ← word? "const"
  let _ ← mark? "!"
  let first ← grammar.type true
  let second ← if ← word? "for" then grammar.type true else pure []
  let conditions ← grammar.requirements
  return .parts (generic ++ conditions ++ first ++ second ++ (← grammar.associatedItems))

def moduleItem : Read Code := do
  let _ ← anyWord
  if ← mark? ";" then return .nothing
  let items ← group .curly do
    let _ ← grammar.innerAnnotations
    collect do
      if ← atEnd then return none
      return some (← grammar.item)
  return .parts items

def macroDefinition : Read Code := do
  let _ ← name
  if ← grouped .round then
    let _ ← skipGroup
  require ((← skipGroup) = .curly)
  return .nothing

-- An item behind what says who can see it.
def itemRest : Read Code := do
  if ← functionAhead then return ← grammar.function
  let isUnsafe ← word? "unsafe"
  if ← word? "extern" then
    if ← word? "crate" then foreignCrate
    else
      if ← looks isString then advance 1
      return .parts (← grammar.associatedItems)
  else if ← word? "mod" then grammar.moduleItem
  else if ← word? "trait" then grammar.traitItem
  else if (← worded "auto") && (← worded "trait" 1) then
    advance 2
    grammar.traitItem
  else if ← word? "impl" then grammar.implementation
  else if (← worded "default") && !(← marked "!" 1) then
    advance 1
    let _ ← word? "unsafe"
    word "impl"
    grammar.implementation
  else
    require !isUnsafe
    if ← word? "use" then importItem
    else if ← word? "static" then grammar.staticItem
    else if ← word? "const" then grammar.constantItem nameOrBlank
    else if ← word? "type" then grammar.typeItem
    else if ← word? "struct" then grammar.structureItem
    else if ← word? "enum" then grammar.enumerationItem
    else if (← worded "union") && (← looks isName 1) then
      advance 1
      grammar.structureItem
    else if ← word? "macro" then macroDefinition
    else macroItem

def oneItem : Read Code := do
  grammar.annotations
  visibility
  grammar.itemRest

end MapAlgebra.Source.Grammar
