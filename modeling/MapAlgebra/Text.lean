namespace MapAlgebra.Text

-- The characters of the Unicode property White_Space.
def isBlank (c : Char) : Bool :=
  let n := c.toNat
  (9 ≤ n && n ≤ 13) || n = 0x20 || n = 0x85 || n = 0xa0 || n = 0x1680 ||
    (0x2000 ≤ n && n ≤ 0x200a) || n = 0x2028 || n = 0x2029 || n = 0x202f || n = 0x205f ||
    n = 0x3000

-- Drops blanks at both ends.
def trimList (cs : List Char) : List Char :=
  ((cs.dropWhile isBlank).reverse.dropWhile isBlank).reverse

def withoutBlanks (text : String) : String := String.ofList (text.toList.filter (!isBlank ·))

def trim (text : String) : String := String.ofList (trimList text.toList)

-- Only the letters A to Z change.
def lower (text : String) : String := text.map Char.toLower

-- The parts between separators; there is always at least one.
def splitList (separator : Char) : List Char → List (List Char)
  | [] => [[]]
  | c :: rest =>
      if c = separator then [] :: splitList separator rest
      else
        match splitList separator rest with
        | [] => [[c]]
        | part :: parts => (c :: part) :: parts

def split (separator : Char) (text : String) : List String :=
  (splitList separator text.toList).map String.ofList

-- The text before and after the first separator.
def splitOnce (separator : Char) (text : String) : Option (String × String) :=
  let before := text.toList.takeWhile (· ≠ separator)
  match text.toList.dropWhile (· ≠ separator) with
  | [] => none
  | _ :: after => some (String.ofList before, String.ofList after)

def bracketed (items : List String) : String :=
  "[" ++ String.intercalate ", " items ++ "]"

def hexDigits (n : Nat) : String := String.ofList (Nat.toDigits 16 n)

-- Hexadecimal with its mark, as addresses are written.
def hex (n : Nat) : String := "0x" ++ hexDigits n

-- Hexadecimal digits of a fixed width.
def paddedHex (width n : Nat) : String :=
  let digits := hexDigits n
  String.ofList (List.replicate (width - digits.length) '0') ++ digits

end MapAlgebra.Text
