import MapAlgebra.Source.Operators

namespace MapAlgebra.Source.Grammar

open Read

variable (grammar : Grammar)

def arguments : Read (List Code) := group .round (separated "," grammar.wholeExpression)

-- Members by number, several of which can look like one number with a point. Tells whether the
-- last point still wants its member.
def numberedMembers (text : String) (base : Code) : Read (Bool × Code) := do
  let numbers := Text.split '.' text
  let isOpen := numbers.getLast? = some ""
  let numbers := if isOpen then numbers.dropLast else numbers
  require (numbers.all isMember)
  return (isOpen, numbers.foldl (fun code _ => .field code) base)

-- A member behind its point.
def namedMember (base : Code) : Read Code := do
  if ← word? "await" then return .parts [base]
  let member ← memberName?
  let constants ←
    if member.isSome && (← marked "::") then some <$> grammar.angleArguments else pure none
  match member with
  | none => return .field base
  | some member => do
      if constants.isNone && !(← grouped .round) then return .field base
      return .method base member (constants.getD [] ++ (← grammar.arguments))

def member (base : Code) : Read Code := do
  advance 1
  match ← ahead with
  | .literal text :: _ =>
      if isNumber text && text.contains '.' then do
        advance 1
        let (isOpen, base) ← numberedMembers text base
        if isOpen then grammar.namedMember base else return base
      else grammar.namedMember base
  | _ => grammar.namedMember base

-- One call, member, position or question mark behind a phrase.
def trailingStep (base : Phrase) : Read (Option Phrase) := do
  let isRange : Bool := base.form = .range
  if ← grouped .round then
    return some (.plain (.parts (base.code :: (← grammar.arguments))))
  else if (← marked ".") && !(← marked "..") && !isRange then
    return some (.plain (← grammar.member base.code))
  else if ← grouped .square then
    return some (.plain (.index base.code (← group .square grammar.wholeExpression)))
  else if (← marked "?") && !isRange then
    advance 1
    return some (.plain (.parts [base.code]))
  else return none

def trailingSteps : Nat → Phrase → Read Phrase
  | 0, _ => refuse
  | fuel + 1, base => do
      match ← grammar.trailingStep base with
      | some phrase => trailingSteps fuel phrase
      | none => return base

def trailing (base : Phrase) : Read Phrase := do
  grammar.trailingSteps ((← ahead).length + 1) base

-- Phrases without operators.

def closureParameter : Read Matched := do
  grammar.annotations
  let matched ← grammar.pattern
  let constants ← if ← mark? ":" then grammar.type true else pure []
  return { matched with constants := matched.constants ++ constants }

def closure (structures : Bool) : Read Code := do
  let _ ← grammar.quantifier?
  let _ ← word? "const"
  let _ ← word? "static"
  let _ ← word? "async"
  let _ ← word? "move"
  mark "|"
  let parameters ← separatedUntil "," (marked "|") grammar.closureParameter
  mark "|"
  let constants := parameters.flatMap Matched.constants
  let parameters := parameters.map Matched.pattern
  if ← mark? "->" then
    let output ← grammar.type true
    return .closure parameters (constants ++ output) (.block none (← grammar.body))
  return .closure parameters constants (← grammar.expression structures).code

def fieldValue : Read Code := do
  grammar.annotations
  match ← memberName? with
  | none => do
      mark ":"
      grammar.wholeExpression
  | some member => if ← mark? ":" then grammar.wholeExpression else return .name member

-- The fields of a structure and what the others are taken from.
def structureFields : Read (List Code) := do
  let fields ← collect do
    if (← atEnd) || (← marked "..") then return none
    let field ← grammar.fieldValue
    if !(← atEnd) then mark ","
    return some field
  if (← mark? "..") && !(← atEnd) then return fields ++ [← grammar.wholeExpression]
  return fields

def pathPhrase (structures : Bool) : Read Phrase := do
  let (origin, path) ← grammar.qualifiedPath true
  let constants := origin ++ path.constants
  if !path.qualified && (← marked "!") && !(← marked "!=") && path.isBare then
    return ⟨.macroCall (← macroRest), .nothing⟩
  if structures && (← grouped .curly) then
    return .plain (.parts (constants ++ (← group .curly grammar.structureFields)))
  match path.name? with
  | some name => return .plain (.name name)
  | none => return .plain (if path.qualified then .parts constants else .path constants)

-- Round brackets hold one expression or a tuple.
def bracketed : Read Code := do
  let items ← group .round do
    separated "," do
      let item ← grammar.wholeExpression
      return (item, ← atEnd)
  match items with
  | [(item, true)] => return .paren item
  | items => return .tuple (items.map (·.1))

def array : Read Code :=
  group .square do
    if ← atEnd then return .nothing
    let first ← grammar.wholeExpression
    if ← mark? ";" then return .parts [first, ← grammar.constant]
    if !(← atEnd) then mark ","
    return .parts (first :: (← separated "," grammar.wholeExpression))

def clause : Read (Code × List Code) := do
  word "if"
  let condition ← grammar.expression false
  return (condition.code, ← grammar.body)

def branchOf (last : List Code) : List (Code × List Code) → List Code
  | [] => last
  | (condition, yes) :: clauses => [.branch condition yes (branchOf last clauses)]

def branches : Read Code := do
  let (condition, yes) ← grammar.clause
  let clauses ← collect do
    if (← worded "else") && (← worded "if" 1) then
      advance 1
      return some (← grammar.clause)
    return none
  let last ← if ← word? "else" then pure [.block none (← grammar.body)] else pure []
  return .branch condition yes (branchOf last clauses)

def whileRest (label : Option String) : Read Code := do
  word "while"
  let condition ← grammar.expression false
  return .whileLoop label condition.code (← grammar.attributedBody)

def forRest (label : Option String) : Read Code := do
  word "for"
  let matched ← grammar.alternatives
  word "in"
  let range ← grammar.expression false
  return .forLoop label matched.pattern matched.constants range.code (← grammar.attributedBody)

def loopRest (label : Option String) : Read Code := do
  word "loop"
  return .endless label (← grammar.attributedBody)

def labelled : Read Code := do
  let name ← label
  mark ":"
  if ← worded "while" then grammar.whileRest name
  else if ← worded "for" then grammar.forRest name
  else if ← worded "loop" then grammar.loopRest name
  else return .block name (← grammar.attributedBody)

def closureAhead : Read Bool := do
  let quantified := (← worded "for") && (← marked "<" 1) &&
    ((← looks isLabel 2) || (← marked ">" 2))
  let waiting := (← worded "async") && ((← marked "|" 1) || (← worded "move" 1))
  return (← marked "|") || (← worded "move") || quantified ||
    ((← worded "const") && !(← grouped .curly 1)) || (← worded "static") || waiting

-- Whether something starts here that ends a statement by itself.
def completeAhead : Read Bool := do
  if ← closureAhead then return false
  let opens ← ["if", "while", "for", "loop", "match", "unsafe"].anyM worded
  return opens || ((← worded "try") && (← grouped .curly 1)) ||
    ((← worded "const") && (← grouped .curly 1)) || (← grouped .curly) || (← looks isLabel)

-- Whether an expression can start here, behind a word that can stand alone.
def expressionAhead : Read Bool := do
  let starts := fun (mark : String) (others : List String) => do
    return (← marked mark) && !(← others.anyM marked)
  return ((← looks isAnyWord) && !(← worded "as")) || (← looks isAnyGroup) ||
    (← looks isLiteral) || (← starts "!" ["!="]) || (← starts "-" ["-=", "->"]) ||
    (← starts "*" ["*="]) || (← starts "|" ["|="]) || (← starts "&" ["&="]) || (← marked "..") ||
    (← starts "<" ["<=", "<<="]) || (← marked "::") || (← looks isLabel) || (← marked "#")

def returnedValue : Read (List Code) := do
  if ← expressionAhead then return [← grammar.wholeExpression] else return []

def leaving (structures : Bool) : Read Code := do
  let target ← label?
  require (target.isNone || !(← marked ":"))
  if (← expressionAhead) && (structures || !(← grouped .curly)) then
    return .leave target [(← grammar.expression structures).code]
  return .leave target []

def testing (structures : Bool) : Read Code := do
  let matched ← grammar.alternatives
  mark "="
  let value ← grammar.operand structures
  let value ← grammar.operators structures Level.comparison value
  return .test matched.pattern matched.constants value.code

def arm : Read Code := do
  grammar.annotations
  let matched ← grammar.alternatives
  let guard ← if ← word? "if" then pure [← grammar.wholeExpression] else pure []
  mark "=>"
  let result ← grammar.early
  if result.form ≠ .complete && !(← atEnd) then mark ","
  else
    let _ ← mark? ","
  return .arm matched.pattern matched.constants guard result.code

def selection : Read Code := do
  let value ← grammar.expression false
  let arms ← group .curly do
    let _ ← grammar.innerAnnotations
    collect do
      if ← atEnd then return none
      return some (← grammar.arm)
  return .select value.code arms

-- A phrase that starts with a word of its own.
def wordedPhrase (structures : Bool) : Read Phrase := do
  if ← word? "async" then
    let _ ← word? "move"
    return .plain (.detached (← grammar.body))
  else if ← word? "try" then return ⟨.complete, .block none (← grammar.body)⟩
  else if ← word? "break" then return .plain (← grammar.leaving structures)
  else if ← word? "continue" then return .plain (.again (← label?))
  else if ← word? "return" then return .plain (.parts (← grammar.returnedValue))
  else if ← word? "yield" then return .plain (.parts (← grammar.returnedValue))
  else if ← word? "become" then
    let _ ← grammar.wholeExpression
    return .plain .nothing
  else if ← word? "let" then return .plain (← grammar.testing structures)
  else if ← worded "if" then return ⟨.complete, ← grammar.branches⟩
  else if ← worded "while" then return ⟨.complete, ← grammar.whileRest none⟩
  else if ← worded "for" then return ⟨.complete, ← grammar.forRest none⟩
  else if ← worded "loop" then return ⟨.complete, ← grammar.loopRest none⟩
  else if ← word? "match" then return ⟨.complete, ← grammar.selection⟩
  else if ← word? "unsafe" then return ⟨.complete, .block none (← grammar.attributedBody)⟩
  else if ← word? "const" then return ⟨.complete, .detached (← grammar.attributedBody)⟩
  else
    word "_"
    return .plain .placeholder

-- A block that runs later.
def delayedAhead : Read Bool := do
  return (← worded "async") &&
    ((← grouped .curly 1) || ((← worded "move" 1) && (← grouped .curly 2)))

def pathStarts : Read Bool := do
  return (← looks isName) || (← marked "::") || (← marked "<") || (← pathWorded) ||
    ((← worded "try") && ((← marked "!" 1) || (← marked "::" 1)))

-- A phrase without operators and without anything behind it.
def single (structures : Bool) : Read Phrase := do
  if ← looks isLiteral then
    literal
    return .plain .nothing
  else if (← delayedAhead) || ((← worded "try") && (← grouped .curly 1)) then
    grammar.wordedPhrase structures
  else if ← closureAhead then return .plain (← grammar.closure structures)
  else if (← worded "builtin") && (← marked "#" 1) then
    advance 2
    let _ ← name
    require ((← skipGroup) = .round)
    return .plain .nothing
  else if ← pathStarts then grammar.pathPhrase structures
  else if ← grouped .round then return .plain (← grammar.bracketed)
  else if ← grouped .square then return .plain (← grammar.array)
  else if ← grouped .curly then return ⟨.complete, .block none (← grammar.attributedBody)⟩
  else if ← marked ".." then return ⟨.range, .parts (← grammar.rangeRest structures)⟩
  else if ← looks isLabel then return ⟨.complete, ← grammar.labelled⟩
  else grammar.wordedPhrase structures

-- The signs before an operand.
def oneOperand (structures : Bool) : Read Phrase := do
  grammar.annotations
  if ← mark? "&" then
    if (← worded "raw") && ((← worded "mut" 1) || (← worded "const" 1)) then advance 2
    else
      let _ ← word? "mut"
    return .plain (.parts [(← grammar.operand structures).code])
  else if ← mark? "*" then return .plain (.dereference (← grammar.operand structures).code)
  else if (← mark? "!") || (← mark? "-") then
    return .plain (.parts [(← grammar.operand structures).code])
  else grammar.trailing (← grammar.single structures)

def oneExpression (structures : Bool) : Read Phrase := do
  grammar.operatorsFrom structures Level.least (← grammar.oneOperand structures)

def earlyExpression : Read Phrase := do
  grammar.annotations
  if !(← completeAhead) then return ← grammar.oneExpression true
  let phrase ← grammar.single true
  if ((← marked ".") && !(← marked "..")) || (← marked "?") then
    grammar.operatorsFrom true Level.least (← grammar.trailing phrase)
  else return phrase

end MapAlgebra.Source.Grammar
