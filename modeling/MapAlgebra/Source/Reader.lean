import MapAlgebra.Source.Code
import MapAlgebra.Source.Token

namespace MapAlgebra.Source

-- What is still to be read, and whether brackets were left before their end. That does not stop
-- the reading, but in the end the text counts as unreadable.
structure Rest where
  tokens : List Token
  astray : Bool

-- Readers give nothing where the text does not have the form they expect.
abbrev Read (α : Type) := StateT Rest Option α

namespace Read

variable {α β : Type}

def ahead : Read (List Token) := do return (← get).tokens

def atEnd : Read Bool := do return (← ahead).isEmpty

def refuse : Read α := failure

def require (condition : Bool) : Read Unit := if condition then pure () else refuse

-- Tests. Each looks at the tokens behind so many others.

-- Punctuation of several characters has no gap inside.
def marksAhead : List Char → List Token → Bool
  | [], _ => true
  | [c], .mark d _ :: _ => c = d
  | c :: cs, .mark d joint :: tokens => c = d && joint && marksAhead cs tokens
  | _ :: _, _ => false

def isWord (word : String) : List Token → Bool
  | .word text :: _ => text = word
  | _ => false

-- The words that are no names.
def keywords : List String :=
  ["_", "abstract", "as", "async", "await", "become", "box", "break", "const", "continue", "crate",
   "do", "dyn", "else", "enum", "extern", "false", "final", "fn", "for", "if", "impl", "in", "let",
   "loop", "macro", "match", "mod", "move", "mut", "override", "priv", "pub", "ref", "return",
   "Self", "self", "static", "struct", "super", "trait", "true", "try", "type", "typeof", "unsafe",
   "unsized", "use", "virtual", "where", "while", "yield"]

def isName : List Token → Bool
  | .word text :: _ => !keywords.contains text
  | _ => false

def isAnyWord : List Token → Bool
  | .word _ :: _ => true
  | _ => false

def isLabel : List Token → Bool
  | .label _ :: _ => true
  | _ => false

def isGroup (bracket : Bracket) : List Token → Bool
  | .group found _ :: _ => found = bracket
  | _ => false

def isAnyGroup : List Token → Bool
  | .group _ _ :: _ => true
  | _ => false

def isNumber (text : String) : Bool := text.toList.head?.any Char.isDigit

-- A literal, a truth value or a number with a sign.
def isLiteral : List Token → Bool
  | .literal _ :: _ => true
  | .word text :: _ => text = "true" || text = "false"
  | .mark '-' _ :: .literal text :: _ => isNumber text
  | _ => false

def isString : List Token → Bool
  | .literal text :: _ => text.toList.head?.any fun c => c = '"' || c = 'r'
  | _ => false

def looks (test : List Token → Bool) (behind : Nat := 0) : Read Bool := do
  return test ((← ahead).drop behind)

def marked (text : String) (behind : Nat := 0) : Read Bool :=
  looks (marksAhead text.toList) behind

def worded (text : String) (behind : Nat := 0) : Read Bool := looks (isWord text) behind

def grouped (bracket : Bracket) (behind : Nat := 0) : Read Bool := looks (isGroup bracket) behind

-- One of the words that paths can start with beside names.
def pathWorded (behind : Nat := 0) : Read Bool :=
  looks (fun tokens => ["super", "self", "Self", "crate"].any (isWord · tokens)) behind

-- Steps.

def advance (count : Nat) : Read Unit :=
  modify fun rest => { rest with tokens := rest.tokens.drop count }

def mark (text : String) : Read Unit := do
  require (← marked text)
  advance text.length

def mark? (text : String) : Read Bool := do
  let found ← marked text
  if found then advance text.length
  return found

def word (text : String) : Read Unit := do
  require (← worded text)
  advance 1

def word? (text : String) : Read Bool := do
  let found ← worded text
  if found then advance 1
  return found

def anyWord : Read String := do
  match ← ahead with
  | .word text :: _ => do
      advance 1
      return text
  | _ => refuse

def name : Read String := do
  require (← looks isName)
  anyWord

def label : Read String := do
  match ← ahead with
  | .label name :: _ => do
      advance 1
      return name
  | _ => refuse

def label? : Read (Option String) := do
  if ← looks isLabel then return some (← label) else return none

def literal : Read Unit := do
  require (← looks isLiteral)
  advance (if ← marked "-" then 2 else 1)

-- The number of a member: decimal digits that fit in 32 bits.
def isMember (text : String) : Bool :=
  let digits := text.toList.filter (· ≠ '_')
  isNumber text && digits.all Char.isDigit &&
    digits.foldl (fun n c => n * 10 + (c.toNat - '0'.toNat)) 0 < Nat.pow 2 32

-- The member of a structure, and its name if it is not a number.
def memberName? : Read (Option String) := do
  match ← ahead with
  | .literal text :: _ => do
      require (isMember text)
      advance 1
      return none
  | _ => return some (← name)

-- Reads inside brackets. What is left there is noted.
def group (bracket : Bracket) (inside : Read α) : Read α := do
  match ← ahead with
  | .group found inner :: after => do
      require (found = bracket)
      let outer ← get
      set { outer with tokens := inner }
      let value ← inside
      let left ← get
      set { tokens := after, astray := left.astray || !left.tokens.isEmpty : Rest }
      return value
  | _ => refuse

-- Passes brackets of any kind unread, and tells their kind.
def skipGroup : Read Bracket := do
  match ← ahead with
  | .group bracket _ :: _ => do
      advance 1
      return bracket
  | _ => refuse

-- Reads something if it is there.
def attempt (reader : Read α) : Read (Option α) := fun rest =>
  match reader rest with
  | some (value, rest) => some (some value, rest)
  | none => some (none, rest)

def optional (condition : Bool) (reader : Read α) : Read (Option α) :=
  if condition then some <$> reader else return none

def repeatedly (step : Read (Option α)) : Nat → Read (List α)
  | 0 => refuse
  | fuel + 1 => do
      match ← step with
      | some value => return value :: (← repeatedly step fuel)
      | none => return []

-- Repeats a step as long as it finds something. Every step passes at least one token.
def collect (step : Read (Option α)) : Read (List α) := do
  repeatedly step ((← ahead).length + 1)

-- Items up to the end, one separator after each but perhaps the last.
def separated (separator : String) (item : Read α) : Read (List α) :=
  collect do
    if ← atEnd then return none
    let value ← item
    if !(← atEnd) then mark separator
    return some value

-- The same up to an end that is more than the end of the tokens.
def separatedUntil (separator : String) (done : Read Bool) (item : Read α) : Read (List α) :=
  collect do
    if ← done then return none
    let value ← item
    if !(← done) then mark separator
    return some value

-- A reader together with the tokens it passes.
def withTokens (reader : Read α) : Read (α × List Token) := do
  let before ← ahead
  let value ← reader
  return (value, before.take (before.length - (← ahead).length))

end Read

end MapAlgebra.Source
