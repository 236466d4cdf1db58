import MapAlgebra.Number.Decimal
import MapAlgebra.Text

namespace MapAlgebra

-- A number as it is written: its digits without the point, and the power of ten they count. It is
-- whole when neither point nor exponent is written.
structure Numeral where
  negative : Bool
  digits : Nat
  exponent : Int
  whole : Bool
deriving DecidableEq, Repr

-- Data text as a tree. A text that escapes half a surrogate pair stands for no string; that
-- only matters where the string is used.
inductive Json where
  | null
  | bool (value : Bool)
  | number (numeral : Numeral)
  | string (text : Option String)
  | array (items : List Json)
  | object (members : List (Option String × Json))
deriving Inhabited

namespace Json

def text (value : String) : Json := .string (some value)

def members (fields : List (String × Json)) : Json :=
  .object (fields.map fun (name, value) => (some name, value))

def ofInt (n : Int) : Json := .number ⟨n < 0, n.natAbs, 0, true⟩

def escapeChar (c : Char) : String :=
  if c = '"' then "\\\""
  else if c = '\\' then "\\\\"
  else if c = '\n' then "\\n"
  else if c = '\r' then "\\r"
  else if c = '\t' then "\\t"
  else if c.toNat = 8 then "\\b"
  else if c.toNat = 12 then "\\f"
  else if c.toNat < 32 then "\\u" ++ Text.paddedHex 4 c.toNat
  else String.singleton c

def quote (value : String) : String :=
  "\"" ++ String.join (value.toList.map escapeChar) ++ "\""

def list (items : List String) : String :=
  "[" ++ String.intercalate "," items ++ "]"

def braces (fields : List (String × String)) : String :=
  "\x7b" ++ String.intercalate "," (fields.map fun (name, value) => quote name ++ ":" ++ value) ++
    "\x7d"

def numeralText (numeral : Numeral) : String :=
  Number.signed numeral.negative
    (if numeral.whole then toString numeral.digits
    else toString numeral.digits ++ "e" ++ toString numeral.exponent)

-- Writes a tree without any blanks.
def compact : Json → String
  | .null => "null"
  | .bool value => if value then "true" else "false"
  | .number numeral => numeralText numeral
  | .string value => quote (value.getD "")
  | .array items => list (items.map compact)
  | .object fields => "\x7b" ++ String.intercalate "," (fields.map memberText) ++ "\x7d"
where
  memberText : Option String × Json → String
    | (name, value) => quote (name.getD "") ++ ":" ++ compact value

end Json

end MapAlgebra
