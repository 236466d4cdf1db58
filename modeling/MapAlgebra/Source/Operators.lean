import MapAlgebra.Source.Patterns

namespace MapAlgebra.Source

-- How tight operators bind, from the loosest to the tightest.
namespace Level

def least : Nat := 0

def assignment : Nat := 1

def range : Nat := 2

def test : Nat := 5

def comparison : Nat := 6

def cast : Nat := 13

end Level

structure Operator where
  text : String
  level : Nat
  -- Whether it assigns to its left side.
  updates : Bool

-- The operators between two operands; of two that start alike the longer one comes first.
def Operator.all : List Operator :=
  (["+=", "-=", "*=", "/=", "%=", "^=", "&=", "|=", "<<=", ">>="].map
    fun text => ⟨text, Level.assignment, true⟩) ++
  [⟨"&&", 4, false⟩, ⟨"||", 3, false⟩, ⟨"<<", 10, false⟩, ⟨">>", 10, false⟩,
   ⟨"==", Level.comparison, false⟩, ⟨"<=", Level.comparison, false⟩,
   ⟨"!=", Level.comparison, false⟩, ⟨">=", Level.comparison, false⟩, ⟨"+", 11, false⟩,
   ⟨"-", 11, false⟩, ⟨"*", 12, false⟩, ⟨"/", 12, false⟩, ⟨"%", 12, false⟩, ⟨"^", 8, false⟩,
   ⟨"&", 9, false⟩, ⟨"|", 7, false⟩, ⟨"<", Level.comparison, false⟩,
   ⟨">", Level.comparison, false⟩]

namespace Grammar

open Read

variable (grammar : Grammar)

def operator? : Read (Option Operator) := do
  let tokens ← ahead
  return Operator.all.find? fun operator => marksAhead operator.text.toList tokens

def assignmentAhead : Read Bool := do return (← marked "=") && !(← marked "=>")

-- How tight the next operator binds.
def levelAhead : Read Nat := do
  match ← operator? with
  | some operator => return operator.level
  | none =>
      if ← assignmentAhead then return Level.assignment
      else if ← marked ".." then return Level.range
      else if ← worded "as" then return Level.cast
      else return Level.least

-- Adds to a right side what binds tighter than the operator on its left. Assignments group to the
-- right.
def extend (structures : Bool) (level : Nat) : Nat → Phrase → Read Phrase
  | 0, _ => refuse
  | fuel + 1, phrase => do
      let next ← levelAhead
      if next > level || (next = level && level = Level.assignment) then
        let before := (← ahead).length
        let extended ← grammar.operators structures next phrase
        if (← ahead).length = before then return extended
        extend structures level fuel extended
      else return phrase

-- The right side of an operator.
def rightSide (structures : Bool) (level : Nat) : Read Code := do
  let first ← grammar.operand structures
  return (← grammar.extend structures level ((← ahead).length + 1) first).code

-- Whether the dots of a range are followed by no end.
def rangeOpen (structures : Bool) : Read Bool := do
  let isMarked ← [",", ";", "?", "=>", "=", "+", "/", "%", "^", ">", "<=", "!=", "-=", "*=", "&=",
    "|=", "<<="].anyM marked
  return (← atEnd) || isMarked || ((← marked ".") && !(← marked "..")) ||
    (!structures && (← grouped .curly)) || (← worded "as")

-- The dots of a range and its end.
def rangeRest (structures : Bool) : Read (List Code) := do
  if ← mark? "..=" then return [← grammar.rightSide structures Level.range]
  require (!(← marked "..."))
  mark ".."
  if ← rangeOpen structures then return []
  return [← grammar.rightSide structures Level.range]

-- A type behind an operand. Nothing that would belong to the operand can follow it.
def castRest : Read (List Code) := do
  advance 1
  let constants ← grammar.type false
  require (!((← marked ".") && !(← marked "..")) && !(← marked "?") && !(← grouped .square) &&
    !(← grouped .round))
  return constants

-- One operator behind a phrase with its right side, if one follows that binds at least so tight.
def operatorStep (structures : Bool) (base : Nat) (left : Phrase) : Read (Option Phrase) := do
  if left.form = .range then return none
  match ← operator? with
  | some operator => do
      if operator.level < base then return none
      let compares := operator.level = Level.comparison
      require (!(compares && left.form = .comparison))
      mark operator.text
      let right ← grammar.rightSide structures operator.level
      let code := if operator.updates then .update left.code right else .parts [left.code, right]
      return some ⟨if compares then .comparison else .plain, code⟩
  | none =>
      if base ≤ Level.assignment && (← assignmentAhead) then
        advance 1
        return some (.plain (.assign left.code (← grammar.rightSide structures Level.assignment)))
      else if base ≤ Level.range && (← marked "..") then
        return some ⟨.range, .parts (left.code :: (← grammar.rangeRest structures))⟩
      else if base ≤ Level.cast && (← worded "as") then
        return some (.plain (.parts (left.code :: (← grammar.castRest))))
      else return none

def operatorSteps (structures : Bool) (base : Nat) : Nat → Phrase → Read Phrase
  | 0, _ => refuse
  | fuel + 1, left => do
      match ← grammar.operatorStep structures base left with
      | some phrase => operatorSteps structures base fuel phrase
      | none => return left

-- The operators behind a phrase.
def operatorsFrom (structures : Bool) (base : Nat) (left : Phrase) : Read Phrase := do
  grammar.operatorSteps structures base ((← ahead).length + 1) left

end Grammar

end MapAlgebra.Source
