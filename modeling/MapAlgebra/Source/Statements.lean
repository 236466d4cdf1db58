import MapAlgebra.Source.Expressions
import MapAlgebra.Source.Items

namespace MapAlgebra.Source.Grammar

open Read

variable (grammar : Grammar)

-- A statement, and whether another one needs a semicolon before it.
abbrev Sentence := Code × Bool

-- Whether the last token is a block. Such a value takes no block for what does not match.
def endsInBlock (tokens : List Token) : Bool :=
  match tokens.getLast? with
  | some (.group .curly _) => true
  | _ => false

def declaration : Read Code := do
  let matched ← grammar.pattern
  let constants ← if ← mark? ":" then grammar.type true else pure []
  let constants := matched.constants ++ constants
  if !(← mark? "=") then
    mark ";"
    return .declare matched.pattern constants [] []
  let (value, tokens) ← withTokens grammar.wholeExpression
  let otherwise ←
    if !endsInBlock tokens && (← worded "else") then do
      advance 1
      pure [.block none (← grammar.body)]
    else pure []
  mark ";"
  return .declare matched.pattern constants [value] otherwise

-- What a macro's name starts.
inductive MacroUse where
  | none
  | statement
  | item

-- The path of a macro that makes up a statement is passed.
def macroUse : Read MacroUse := do
  let before ← get
  if (← attempt plainPath).isSome && (← marked "!") then
    if (← looks isName 1) || (← worded "try" 1) then
      set before
      return .item
    else if (← grouped .curly 1) && !((← marked "." 2) && !(← marked ".." 2)) &&
        !(← marked "?" 2) then
      return .statement
  set before
  return .none

def staticItemAhead : Read Bool := do
  let isDelayed := (← worded "async" 1) && ((← worded "move" 2) || (← marked "|" 2))
  return (← worded "static") && ((← worded "mut" 1) || ((← looks isName 1) && !isDelayed))

def constantItemAhead : Read Bool := do
  let isFunction := (← worded "unsafe" 2) || (← worded "extern" 2) || (← worded "fn" 2)
  return (← worded "const") && !((← grouped .curly 1) || (← worded "static" 1) ||
    ((← worded "async" 1) && !isFunction) || (← worded "move" 1) || (← marked "|" 1))

def itemAhead : Read Bool := do
  let opens ← ["pub", "extern", "use", "fn", "mod", "type", "struct", "enum", "trait", "impl",
    "macro"].anyM worded
  let waits := (← worded "unsafe" 1) || (← worded "extern" 1) || (← worded "fn" 1)
  return opens || ((← worded "crate") && !(← marked "::" 1)) || (← staticItemAhead) ||
    (← constantItemAhead) || ((← worded "unsafe") && !(← grouped .curly 1)) ||
    ((← worded "async") && waits) || ((← worded "union") && (← looks isName 1)) ||
    ((← worded "auto") && (← worded "trait" 1)) ||
    ((← worded "default") && ((← worded "unsafe" 1) || (← worded "impl" 1)))

def phraseStatement : Read Sentence := do
  let phrase ← grammar.early
  let isClosed ← mark? ";"
  let isComplete :=
    match phrase.form with
    | .complete | .macroCall .curly => true
    | _ => false
  return (phrase.code, !isClosed && !isComplete)

def sentence : Read Sentence := do
  grammar.annotations
  match ← macroUse with
  | .statement => do
      let _ ← macroRest
      let _ ← mark? ";"
      return (.nothing, false)
  | .item => return (← grammar.item, false)
  | .none =>
      if ← word? "let" then return (← grammar.declaration, false)
      else if ← itemAhead then return (← grammar.item, false)
      else grammar.phraseStatement

-- The statements up to the end. What is no semicolon may follow only a statement that needs none.
def sentences : Read (List Code) := do
  collect do
    let _ ← collect do if ← mark? ";" then return some () else return none
    if ← atEnd then return none
    let (code, isOpen) ← grammar.sentence
    require (!isOpen || (← atEnd))
    return some code

-- The readers within one more level of the text.
def next : Grammar where
  expression := grammar.oneExpression
  operand := grammar.oneOperand
  operators := grammar.operatorsFrom
  early := grammar.earlyExpression
  statements := grammar.sentences
  pattern := grammar.onePattern
  type := grammar.oneType
  bound := grammar.oneBound
  item := grammar.oneItem

-- The readers for texts that are nested so deep.
def within : Nat → Grammar
  | 0 => nothing
  | depth + 1 => (within depth).next

end MapAlgebra.Source.Grammar

namespace MapAlgebra.Source

-- Readers call each other at most a few times before the next token.
def grammarFor (tokens : List Token) : Grammar := Grammar.within (4 * Token.weightOfAll tokens + 8)

end MapAlgebra.Source
