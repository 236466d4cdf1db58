import MapAlgebra.Text

namespace MapAlgebra.Source

inductive Bracket where
  | round
  | square
  | curly
deriving DecidableEq, Repr

def Bracket.opening : Bracket → Char
  | round => '('
  | square => '['
  | curly => '\x7b'

def Bracket.closing : Bracket → Char
  | round => ')'
  | square => ']'
  | curly => '\x7d'

def Bracket.ofOpening? (c : Char) : Option Bracket :=
  [round, square, curly].find? (·.opening = c)

def Bracket.ofClosing? (c : Char) : Option Bracket :=
  [round, square, curly].find? (·.closing = c)

-- The pieces of a source text. Brackets match by construction.
inductive Token where
  -- A name or a keyword.
  | word (text : String)
  -- The name of a label or of a lifetime, without its mark.
  | label (name : String)
  | literal (text : String)
  -- One punctuation character, and whether another one follows it at once.
  | mark (char : Char) (joint : Bool)
  | group (bracket : Bracket) (inner : List Token)

mutual

-- The text of a token as it was written, but for what stands between tokens.
def Token.text : Token → String
  | .word text => text
  | .label name => "'" ++ name
  | .literal text => text
  | .mark char _ => char.toString
  | .group bracket inner =>
      bracket.opening.toString ++ Token.textOfAll inner ++ bracket.closing.toString

def Token.textOfAll : List Token → String
  | [] => ""
  | token :: tokens => token.text ++ Token.textOfAll tokens

end

mutual

-- The number of tokens, those inside brackets included.
def Token.weight : Token → Nat
  | .word _ | .label _ | .literal _ | .mark _ _ => 1
  | .group _ inner => Token.weightOfAll inner + 1

def Token.weightOfAll : List Token → Nat
  | [] => 0
  | token :: tokens => token.weight + Token.weightOfAll tokens

end

-- The text of tokens without any blank, also inside literals.
def compactText (tokens : List Token) : String := Text.withoutBlanks (Token.textOfAll tokens)

end MapAlgebra.Source
