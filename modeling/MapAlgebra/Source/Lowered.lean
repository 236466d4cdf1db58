import MapAlgebra.Source.Finding
import MapAlgebra.Source.Lexer
import MapAlgebra.Source.Statements

namespace MapAlgebra.Source

-- A loop that can be lowered. The texts have no blanks.
structure LoweredLoop where
  condition : String
  body : String
  targets : List String

inductive Refusal where
  -- The text is no source text.
  | unreadable
  | faults (faults : List Fault)

namespace LoweredLoop

-- The parts of a loop's tokens behind its first word: the condition and the inside of the body.
def partsOf? (tokens : List Token) : Option (List Token × List Token) :=
  match tokens.reverse with
  | .group .curly inner :: condition => some (condition.reverse, inner)
  | _ => none

def startsLoop (tokens : List Token) : Bool := Read.isWord "while" tokens || Read.isLabel tokens

-- What a condition or a body looks like with attributes of its own in front.
def isAnnotated : List Token → Bool
  | .mark '#' _ :: .mark '!' _ :: _ => true
  | _ => false

def refuse {α : Type} (fault : Fault) : Except Refusal α := .error (.faults [fault])

-- The loop in a phrase that was read from these tokens.
def ofCode (code : Code) (tokens : List Token) : Except Refusal LoweredLoop := do
  match code, partsOf? (tokens.drop 1) with
  | .whileLoop (some _) _ _, _ => refuse .labelled
  | .whileLoop none condition body, some (conditionTokens, bodyTokens) => do
      if isAnnotated bodyTokens then refuse .annotated
      if let .test _ _ _ := condition then refuse .patternCondition
      match assignedNames body with
      | .ok targets =>
          return ⟨compactText conditionTokens, compactText [.group .curly bodyTokens], targets⟩
      | .error faults => .error (.faults faults)
  | _, _ => refuse .noLoop

-- Reads a loop and at most a semicolon behind it.
def readLoop (tokens : List Token) : Except Refusal (LoweredLoop × Rest) := do
  if tokens.isEmpty then throw .unreadable
  if !startsLoop tokens then refuse .noLoop
  let grammar := grammarFor tokens
  match (Read.withTokens (grammar.expression true)) ⟨tokens, false⟩ with
  | none => throw .unreadable
  | some ((phrase, read), rest) =>
      let left := if Read.marksAhead [';'] rest.tokens then rest.tokens.drop 1 else rest.tokens
      if !left.isEmpty then refuse .moreThanLoop
      return (← ofCode phrase.code read, rest)

-- Analyses the text of a loop. A fault of the loop hides tokens that were left in brackets.
def analyse (source : String) : Except Refusal LoweredLoop := do
  match tokensOf? source with
  | none => throw .unreadable
  | some tokens => do
      let (loop, rest) ← readLoop tokens
      if rest.astray then throw .unreadable else return loop

end LoweredLoop

end MapAlgebra.Source
