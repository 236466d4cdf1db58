import MapAlgebra.Json

namespace MapAlgebra.Json.Reader

def isSpace (c : Char) : Bool := c = ' ' || c = '\n' || c = '\r' || c = '\t'

def skip (cs : List Char) : List Char := cs.dropWhile isSpace

def digitOf (c : Char) : Nat := c.toNat - '0'.toNat

def digitsOf (cs : List Char) : Nat := cs.foldl (fun n c => n * 10 + digitOf c) 0

def hexOf (c : Char) : Option Nat :=
  if c.isDigit then some (digitOf c)
  else if 'a' ≤ c ∧ c ≤ 'f' then some (c.toNat - 'a'.toNat + 10)
  else if 'A' ≤ c ∧ c ≤ 'F' then some (c.toNat - 'A'.toNat + 10)
  else none

-- Four hexadecimal digits.
def unit : List Char → Option (Nat × List Char)
  | a :: b :: c :: d :: rest => do
      let a ← hexOf a
      let b ← hexOf b
      let c ← hexOf c
      let d ← hexOf d
      return (((a * 16 + b) * 16 + c) * 16 + d, rest)
  | _ => none

def isHigh (n : Nat) : Bool := 0xd800 ≤ n && n < 0xdc00

def isLow (n : Nat) : Bool := 0xdc00 ≤ n && n < 0xe000

-- The character that an escape stands for, unless it is half a pair.
def unicodeEscape (cs : List Char) : Option (Option Char × List Char) := do
  let (first, rest) ← unit cs
  if isHigh first then
    match rest with
    | '\\' :: 'u' :: more =>
        let (second, rest) ← unit more
        if isLow second then
          return (some (Char.ofNat (0x10000 + (first - 0xd800) * 0x400 + (second - 0xdc00))), rest)
        else return (none, rest)
    | _ => return (none, rest)
  else if isLow first then return (none, rest)
  else return (some (Char.ofNat first), rest)

def simpleEscape : Char → Option Char
  | '"' => some '"'
  | '\\' => some '\\'
  | '/' => some '/'
  | 'b' => some (Char.ofNat 8)
  | 'f' => some (Char.ofNat 12)
  | 'n' => some '\n'
  | 'r' => some '\r'
  | 't' => some '\t'
  | _ => none

-- Reads the inside of a string and its closing mark. The characters come in reverse.
def stringBody : Nat → List Char → List Char → Bool → Option (Option String × List Char)
  | 0, _, _, _ => none
  | _ + 1, [], _, _ => none
  | _ + 1, '"' :: rest, seen, sound =>
      some (if sound then some (String.ofList seen.reverse) else none, rest)
  | fuel + 1, '\\' :: 'u' :: rest, seen, sound => do
      match ← unicodeEscape rest with
      | (some c, rest) => stringBody fuel rest (c :: seen) sound
      | (none, rest) => stringBody fuel rest seen false
  | fuel + 1, '\\' :: c :: rest, seen, sound => do
      stringBody fuel rest ((← simpleEscape c) :: seen) sound
  | fuel + 1, c :: rest, seen, sound =>
      if c = '\\' ∨ c.toNat < 32 then none else stringBody fuel rest (c :: seen) sound

def string (cs : List Char) : Option (Option String × List Char) :=
  stringBody (cs.length + 1) cs [] true

-- The digits after a point.
def fraction (cs : List Char) : Option (List Char × List Char) :=
  match cs with
  | '.' :: rest =>
      let digits := rest.takeWhile Char.isDigit
      if digits.isEmpty then none else some (digits, rest.dropWhile Char.isDigit)
  | _ => some ([], cs)

def unsignedExponent (negative : Bool) (cs : List Char) : Option (Int × List Char) :=
  let digits := cs.takeWhile Char.isDigit
  if digits.isEmpty then none
  else
    let value : Int := digitsOf digits
    some (if negative then -value else value, cs.dropWhile Char.isDigit)

def exponent (cs : List Char) : Option (Option Int × List Char) :=
  match cs with
  | e :: rest =>
      if e = 'e' ∨ e = 'E' then do
        let (value, rest) ← match rest with
          | '-' :: rest => unsignedExponent true rest
          | '+' :: rest => unsignedExponent false rest
          | rest => unsignedExponent false rest
        return (some value, rest)
      else some (none, cs)
  | [] => some (none, [])

-- Reads a number. Its first digit is zero only if it is the only one before the point.
def numeral (cs : List Char) : Option (Numeral × List Char) := do
  let (negative, cs) := match cs with
    | '-' :: rest => (true, rest)
    | cs => (false, cs)
  let whole := cs.takeWhile Char.isDigit
  let rest := cs.dropWhile Char.isDigit
  match whole with
  | [] => none
  | '0' :: _ :: _ => none
  | _ =>
      let (places, rest) ← fraction rest
      let (power, rest) ← exponent rest
      return (⟨negative, digitsOf (whole ++ places), power.getD 0 - places.length,
        places.isEmpty && power.isNone⟩, rest)

def keyword (word : String) (value : Json) (cs : List Char) : Option (Json × List Char) :=
  if word.toList.isPrefixOf cs then some (value, cs.drop word.length) else none

mutual

-- Reads one value. Every step uses up fuel, and more than one step for each character is never
-- needed.
def value : Nat → List Char → Option (Json × List Char)
  | 0, _ => none
  | fuel + 1, cs =>
      match skip cs with
      | '"' :: rest => do
          let (text, rest) ← string rest
          return (.string text, rest)
      | '[' :: rest =>
          match skip rest with
          | ']' :: rest => some (.array [], rest)
          | rest => do
              let (items, rest) ← items fuel rest
              return (.array items, rest)
      | '\x7b' :: rest =>
          match skip rest with
          | '\x7d' :: rest => some (.object [], rest)
          | rest => do
              let (fields, rest) ← fields fuel rest
              return (.object fields, rest)
      | 't' :: rest => keyword "rue" (.bool true) rest
      | 'f' :: rest => keyword "alse" (.bool false) rest
      | 'n' :: rest => keyword "ull" .null rest
      | cs => do
          let (numeral, rest) ← numeral cs
          return (.number numeral, rest)

def items : Nat → List Char → Option (List Json × List Char)
  | 0, _ => none
  | fuel + 1, cs => do
      let (item, rest) ← value fuel cs
      match skip rest with
      | ',' :: rest =>
          let (more, rest) ← items fuel rest
          return (item :: more, rest)
      | ']' :: rest => return ([item], rest)
      | _ => none

def fields : Nat → List Char → Option (List (Option String × Json) × List Char)
  | 0, _ => none
  | fuel + 1, cs => do
      match skip cs with
      | '"' :: rest =>
          let (name, rest) ← string rest
          match skip rest with
          | ':' :: rest =>
              let (item, rest) ← value fuel rest
              match skip rest with
              | ',' :: rest =>
                  let (more, rest) ← fields fuel rest
                  return ((name, item) :: more, rest)
              | '\x7d' :: rest => return ([(name, item)], rest)
              | _ => none
          | _ => none
      | _ => none

end

end Reader

-- Reads a whole text; only blanks may follow the value.
def read (text : String) : Option Json := do
  let cs := text.toList
  let (value, rest) ← Reader.value (cs.length + 1) cs
  if (Reader.skip rest).isEmpty then some value else none

end MapAlgebra.Json
