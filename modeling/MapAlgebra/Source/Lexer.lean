import MapAlgebra.Source.Letters
import MapAlgebra.Source.Token

namespace MapAlgebra.Source.Lexer

-- What a scanner leaves of the text, or nothing if the text does not start that way.
abbrev Scan := List Char → Option (List Char)

def newline : Char := '\n'

def carriageReturn : Char := '\r'

def afterWord (word : String) (cs : List Char) : Option (List Char) :=
  if word.toList.isPrefixOf cs then some (cs.drop word.length) else none

def starts (word : String) (cs : List Char) : Bool := word.toList.isPrefixOf cs

-- Blanks between tokens. Direction marks count as blanks.
def isBlank (c : Char) : Bool := Text.isBlank c || c.toNat = 0x200e || c.toNat = 0x200f

def hexValue? (c : Char) : Option Nat :=
  if c.isDigit then some (c.toNat - '0'.toNat)
  else if 'a' ≤ c ∧ c ≤ 'f' then some (c.toNat - 'a'.toNat + 10)
  else if 'A' ≤ c ∧ c ≤ 'F' then some (c.toNat - 'A'.toNat + 10)
  else none

-- Names and what can follow a literal.

def name : Scan
  | c :: rest => if Letters.starts c then some (rest.dropWhile Letters.continues) else none
  | [] => none

-- The words that never become plain names by the mark r#.
def isReserved (word : List Char) : Bool :=
  ["_", "super", "self", "Self", "crate"].any (·.toList = word)

-- A name, or a keyword turned into a name.
def anyName (cs : List Char) : Option (List Char) := do
  match afterWord "r#" cs with
  | some marked =>
      let rest ← name marked
      if isReserved (marked.take (marked.length - rest.length)) then none else some rest
  | none => name cs

def suffix (cs : List Char) : List Char := (name cs).getD cs

-- A literal ends where no name goes on.
def wordEnd : Scan
  | c :: rest => if Letters.continues c then none else some (c :: rest)
  | [] => some []

-- Comments.

-- The line and what follows, from the line end on.
def line : List Char → List Char × List Char
  | [] => ([], [])
  | '\n' :: rest => ([], '\n' :: rest)
  | '\r' :: '\n' :: rest => ([], '\r' :: '\n' :: rest)
  | c :: rest =>
      let (inside, after) := line rest
      (c :: inside, after)

-- A block comment within so many others, from behind its opening.
def blockEnd : Nat → Scan
  | depth, '*' :: '/' :: rest =>
      match depth with
      | 0 => some rest
      | depth + 1 => blockEnd depth rest
  | depth, '/' :: '*' :: rest => blockEnd (depth + 1) rest
  | depth, _ :: rest => blockEnd depth rest
  | _, [] => none

def blockComment (cs : List Char) : Option (List Char) := do
  blockEnd 0 (← afterWord "/*" cs)

-- Skips blanks and the comments that document nothing.
def skip : Nat → List Char → List Char
  | 0, cs => cs
  | fuel + 1, cs =>
      if starts "//" cs && (!starts "///" cs || starts "////" cs) && !starts "//!" cs then
        skip fuel (line cs).2
      else if starts "/**/" cs then skip fuel (cs.drop 4)
      else if starts "/*" cs && (!starts "/**" cs || starts "/***" cs) && !starts "/*!" cs then
        match blockComment cs with
        | some rest => skip fuel rest
        | none => cs
      else
        match cs with
        | c :: rest => if isBlank c then skip fuel rest else cs
        | [] => []

-- Every carriage return belongs to a line end.
def wholeLines : List Char → Bool
  | '\r' :: '\n' :: rest => wholeLines rest
  | '\r' :: _ => false
  | _ :: rest => wholeLines rest
  | [] => true

structure Remark where
  -- Whether it speaks of what it stands in.
  inner : Bool
  text : List Char
  rest : List Char

def lineRemark (inner : Bool) (cs : List Char) : Remark :=
  let (text, rest) := line cs
  ⟨inner, text, rest⟩

def blockRemark (inner : Bool) (cs : List Char) : Option Remark := do
  let rest ← blockComment cs
  let comment := cs.take (cs.length - rest.length)
  return ⟨inner, (comment.drop 3).take (comment.length - 5), rest⟩

-- A comment that documents something.
def remark (cs : List Char) : Option Remark := do
  let found ←
    if starts "//!" cs then some (lineRemark true (cs.drop 3))
    else if starts "/*!" cs then blockRemark true cs
    else if starts "///" cs && !starts "////" cs then some (lineRemark false (cs.drop 3))
    else if starts "/**" cs && !starts "/***" cs then blockRemark false cs
    else none
  if wholeLines found.text then some found else none

def quoted (text : List Char) : String :=
  "\"" ++ String.join (text.map fun c =>
    if c = '"' then "\\\"" else if c = '\\' then "\\\\" else if c = newline then "\\n"
    else if c = carriageReturn then "\\r" else if c = '\t' then "\\t" else c.toString) ++ "\""

-- The attribute that a remark stands for.
def Remark.tokens (found : Remark) : List Token :=
  (if found.inner then [.mark '#' false, .mark '!' false] else [.mark '#' false]) ++
    [.group .square
      [.word "doc", .mark '=' false, .literal (quoted found.text)]]

-- Quoted literals.

inductive Quoting where
  | text
  | bytes
  | terminated
deriving DecidableEq

-- Two hexadecimal digits.
def byteEscape (quoting : Quoting) : Scan
  | a :: b :: rest => do
      let high ← hexValue? a
      let low ← hexValue? b
      match quoting with
      | .text => if high ≤ 7 then some rest else none
      | .bytes => some rest
      | .terminated => if high = 0 ∧ low = 0 then none else some rest
  | _ => none

def isScalarValue (n : Nat) : Bool := n < 0xd800 || (0xe000 ≤ n && n < 0x110000)

-- Up to six hexadecimal digits and the closing brace, with low lines among them.
def codePoint (quoting : Quoting) : Nat → Nat → Scan
  | value, count, c :: rest =>
      match hexValue? c with
      | some digit =>
          if count = 6 then none else codePoint quoting (value * 16 + digit) (count + 1) rest
      | none =>
          if count = 0 then none
          else if c = '_' then codePoint quoting value count rest
          else if c = '\x7d' && isScalarValue value && (quoting = .text || value ≠ 0) then
            some rest
          else none
  | _, _, [] => none

def unicodeEscape (quoting : Quoting) : Scan
  | '\x7b' :: rest => codePoint quoting 0 0 rest
  | _ => none

-- What follows a backslash, in a character.
def escape (quoting : Quoting) : Scan
  | 'x' :: rest => byteEscape quoting rest
  | 'u' :: rest => if quoting = .bytes then none else unicodeEscape quoting rest
  | '0' :: rest => if quoting = .terminated then none else some rest
  | c :: rest => if ['n', 'r', 't', '\\', '\'', '"'].contains c then some rest else none
  | [] => none

-- The blanks after a backslash at the end of a line.
def lineJoin : Scan
  | '\r' :: '\n' :: rest => lineJoin rest
  | '\r' :: _ => none
  | c :: rest => if c = ' ' || c = '\t' || c = '\n' then lineJoin rest else some (c :: rest)
  | [] => none

def allowed (quoting : Quoting) (c : Char) : Bool :=
  match quoting with
  | .text => true
  | .bytes => c.toNat < 128
  | .terminated => c.toNat ≠ 0

-- The inside of a string and its closing mark.
def quotedRest (quoting : Quoting) : Nat → Scan
  | 0, _ => none
  | fuel + 1, cs =>
      match cs with
      | [] => none
      | '"' :: rest => some (suffix rest)
      | '\r' :: '\n' :: rest => quotedRest quoting fuel rest
      | '\r' :: _ => none
      | '\\' :: rest =>
          match rest with
          | '\n' :: _ | '\r' :: _ => do quotedRest quoting fuel (← lineJoin rest)
          | _ => do quotedRest quoting fuel (← escape quoting rest)
      | c :: rest => if allowed quoting c then quotedRest quoting fuel rest else none

-- The inside of a string that ends at a mark with so many signs behind it.
def rawRest (quoting : Quoting) (signs : Nat) : Scan
  | [] => none
  | '\r' :: '\n' :: rest => rawRest quoting signs rest
  | '\r' :: _ => none
  | '"' :: rest =>
      if (List.replicate signs '#').isPrefixOf rest then some (suffix (rest.drop signs))
      else rawRest quoting signs rest
  | c :: rest => if allowed quoting c then rawRest quoting signs rest else none

def rawString (quoting : Quoting) (cs : List Char) : Option (List Char) :=
  let signs := (cs.takeWhile (· = '#')).length
  match cs.drop signs with
  | '"' :: rest => if signs ≤ 255 then rawRest quoting signs rest else none
  | _ => none

def anyString (quoting : Quoting) (opening rawOpening : String) (cs : List Char) :
    Option (List Char) :=
  match afterWord opening cs with
  | some inside => quotedRest quoting (inside.length + 1) inside
  | none => do rawString quoting (← afterWord rawOpening cs)

def closingQuote : Scan
  | '\'' :: rest => some (suffix rest)
  | _ => none

def character (quoting : Quoting) (opening : String) (cs : List Char) :
    Option (List Char) := do
  match ← afterWord opening cs with
  | '\\' :: rest => closingQuote (← escape quoting rest)
  | c :: rest => if allowed quoting c then closingQuote rest else none
  | [] => none

-- Numbers.

-- The digits behind an exponent mark; without any digit there is no exponent.
def exponent (cs : List Char) : Option (List Char) :=
  let unsigned :=
    match cs.dropWhile (· = '_') with
    | c :: rest => if c = '+' || c = '-' then rest else c :: rest
    | [] => []
  let rest := unsigned.dropWhile (· = '_')
  match rest with
  | c :: _ => if c.isDigit then some (rest.dropWhile fun c => c.isDigit || c = '_') else none
  | [] => none

def isExponentMark (c : Char) : Bool := c = 'e' || c = 'E'

-- A fraction and an exponent, of which one has to be there.
def fraction (cs : List Char) : Option (List Char) :=
  match cs.dropWhile fun c => c.isDigit || c = '_' with
  | '.' :: rest =>
      match rest with
      | c :: _ =>
          if c = '.' || Letters.starts c then none
          else
            let rest := rest.dropWhile fun c => c.isDigit || c = '_'
            match rest with
            | c :: more => if isExponentMark c then (exponent more).or (some rest) else some rest
            | [] => some []
      | [] => some []
  | c :: rest => if isExponentMark c then exponent rest else none
  | [] => none

def real (cs : List Char) : Option (List Char) :=
  match cs with
  | c :: _ => do if c.isDigit then wordEnd (suffix (← fraction cs)) else none
  | [] => none

-- The digits of a number in some base. A decimal digit beyond the base spoils the number, a
-- letter beyond it ends it.
def digits (base : Nat) : Bool → Scan
  | empty, [] => if empty then none else some []
  | empty, c :: rest =>
      if c = '_' then if empty && base = 10 then none else digits base empty rest
      else
        match hexValue? c with
        | some digit =>
            if digit < base then digits base false rest
            else if c.isDigit || empty then none
            else some (c :: rest)
        | none => if empty then none else some (c :: rest)

def whole (cs : List Char) : Option (List Char) := do
  let rest ←
    match cs with
    | '0' :: 'x' :: rest => digits 16 true rest
    | '0' :: 'o' :: rest => digits 8 true rest
    | '0' :: 'b' :: rest => digits 2 true rest
    | cs => digits 10 true cs
  wordEnd (suffix rest)

def literal (cs : List Char) : Option (List Char) :=
  anyString .text "\"" "r" cs <|> anyString .bytes "b\"" "br" cs <|>
    anyString .terminated "c\"" "cr" cs <|> character .bytes "b'" cs <|> character .text "'" cs <|>
    real cs <|> whole cs

-- Marks.

def marks : List Char := "~!@#$%^&*-=+|;:,<.>/?'".toList

-- A comment is no mark.
def isMark (cs : List Char) : Bool :=
  match cs with
  | c :: _ => marks.contains c && !starts "//" cs && !starts "/*" cs
  | [] => false

-- A label: its mark, its name, and no second mark.
def label (cs : List Char) : Option (Token × List Char) := do
  let inside ← afterWord "'" cs
  let rest ← anyName inside
  match rest with
  | '\'' :: _ => none
  | '#' :: _ => if starts "r#" inside then some () else none
  | _ => some ()
  return (.label (String.ofList (inside.take (inside.length - rest.length))), rest)

-- Names cannot start as literals do.
def isLiteralStart (cs : List Char) : Bool :=
  ["r\"", "r#\"", "r##", "b\"", "b'", "br\"", "br#", "c\"", "cr\"", "cr#"].any (starts · cs)

def leaf (cs : List Char) : Option (Token × List Char) :=
  let textTo := fun (rest : List Char) => String.ofList (cs.take (cs.length - rest.length))
  match literal cs with
  | some rest => some (.literal (textTo rest), rest)
  | none =>
      match cs with
      | [] => none
      | c :: rest =>
          if c = '\'' then label cs
          else if isMark cs then some (.mark c (isMark rest), rest)
          else if isLiteralStart cs then none
          else do
            let rest ← anyName cs
            return (.word (textTo rest), rest)

-- The brackets that are open, each with the tokens before it in reverse.
abbrev Open := List (Bracket × List Token)

-- Reads tokens up to the end of the text. Those read so far come in reverse.
def tokens : Nat → Open → List Token → List Char → Option (List Token)
  | 0, _, _, _ => none
  | fuel + 1, stack, read, cs =>
      let cs := skip (cs.length + 1) cs
      match remark cs with
      | some found => tokens fuel stack (found.tokens.reverse ++ read) found.rest
      | none =>
          match cs with
          | [] => if stack.isEmpty then some read.reverse else none
          | c :: rest =>
              match Bracket.ofOpening? c, Bracket.ofClosing? c with
              | some bracket, _ => tokens fuel ((bracket, read) :: stack) [] rest
              | none, some bracket =>
                  match stack with
                  | (opened, before) :: stack =>
                      if opened = bracket then
                        tokens fuel stack (.group bracket read.reverse :: before) rest
                      else none
                  | [] => none
              | none, none =>
                  match leaf cs with
                  | some (token, rest) => tokens fuel stack (token :: read) rest
                  | none => none

def withoutByteOrderMark : List Char → List Char
  | c :: rest => if c.toNat = 0xfeff then rest else c :: rest
  | [] => []

end Lexer

-- The tokens of a text, if it can be cut into tokens and its brackets match.
def tokensOf? (text : String) : Option (List Token) :=
  let cs := Lexer.withoutByteOrderMark text.toList
  Lexer.tokens (cs.length + 1) [] [] cs

end MapAlgebra.Source
