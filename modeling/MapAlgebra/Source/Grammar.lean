import MapAlgebra.Source.Reader

namespace MapAlgebra.Source

-- What a phrase is to the text around it.
inductive Form where
  | plain
  -- A range, to which no operator can be added.
  | range
  -- A comparison, to which no other can be added.
  | comparison
  -- A form that ends a statement and an arm by itself.
  | complete
  | macroCall (bracket : Bracket)
deriving DecidableEq

structure Phrase where
  form : Form
  code : Code

def Phrase.plain (code : Code) : Phrase := ⟨.plain, code⟩

-- What a pattern is to the patterns around it.
inductive Fit where
  | plain
  -- What stands for any number of parts.
  | rest
  -- A range without one of its ends.
  | openRange
deriving DecidableEq

-- What a pattern binds, and the constants inside.
structure Matched where
  fit : Fit
  pattern : Pattern
  constants : List Code

def Matched.closed (constants : List Code) : Matched := ⟨.plain, .closed, constants⟩

def Matched.group (parts : List Matched) : Matched :=
  ⟨.plain, .group (parts.map pattern), parts.flatMap constants⟩

-- The readers that call each other, as they are to be called within one more pair of brackets or
-- behind one more token.
structure Grammar where
  -- An expression. The flag tells whether a structure can be written there.
  expression : Bool → Read Phrase
  -- An expression without operators behind it.
  operand : Bool → Read Phrase
  -- The operators behind an operand that bind at least so tight.
  operators : Bool → Nat → Phrase → Read Phrase
  -- An expression that reaches as far as a statement or an arm does: forms that end by themselves
  -- take no operators there.
  early : Read Phrase
  statements : Read (List Code)
  pattern : Read Matched
  -- The constants in a type. The flag tells whether bounds can be added to it.
  type : Bool → Read (List Code)
  -- One bound of a type, and whether it is a trait. The flag tells whether it can list captures.
  bound : Bool → Read (Bool × List Code)
  item : Read Code

def Grammar.nothing : Grammar :=
  ⟨fun _ => Read.refuse, fun _ => Read.refuse, fun _ _ _ => Read.refuse, Read.refuse, Read.refuse,
    Read.refuse, fun _ => Read.refuse, fun _ => Read.refuse, Read.refuse⟩

namespace Grammar

open Read

variable (grammar : Grammar)

def wholeExpression : Read Code := do return (← grammar.expression true).code

-- A constant stands by itself: jumps neither enter nor leave it.
def constant : Read Code := do return .detached [← grammar.wholeExpression]

-- Statements in braces.
def body : Read (List Code) := group .curly grammar.statements

def pathWord : Read Unit := do
  require ((← looks isName) || (← pathWorded))
  advance 1

-- The path of a macro or of an attribute.
def plainPath : Read Unit := do
  let _ ← mark? "::"
  pathWord
  let _ ← collect do
    if !(← mark? "::") then return none
    return some (← pathWord)

-- What stands in the brackets of an attribute.
def annotation : Read Unit := do
  plainPath
  if ← looks isAnyGroup then
    let _ ← skipGroup
  else if ← mark? "=" then
    let _ ← grammar.wholeExpression

def guardedAnnotation : Read Unit := do
  if ← word? "unsafe" then group .round grammar.annotation else grammar.annotation

def annotations : Read Unit := do
  let _ ← collect do
    if !(← mark? "#") then return none
    return some (← group .square grammar.guardedAnnotation)

-- Attributes of what they stand in. Tells whether there are any.
def innerAnnotations : Read Bool := do
  let found ← collect do
    if !(← marked "#") || !(← marked "!" 1) then return none
    advance 2
    return some (← group .square grammar.guardedAnnotation)
  return !found.isEmpty

-- Statements in braces, behind attributes of the block.
def attributedBody : Read (List Code) :=
  group .curly do
    let _ ← grammar.innerAnnotations
    grammar.statements

-- A macro and what it is given, which stays unread.
def macroRest : Read Bracket := do
  mark "!"
  skipGroup

end Grammar

end MapAlgebra.Source
