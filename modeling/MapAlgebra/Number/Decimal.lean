import MapAlgebra.Number.Shortest

namespace MapAlgebra.Number

-- The decimal digits of a number, most significant first.
def digitText (n : Nat) : String := toString n

def zeros (n : Nat) : String := String.ofList (List.replicate n '0')

-- Writes a decimal without exponent. A whole number carries no point.
def Decimal.positional (decimal : Decimal) : String :=
  let text := digitText decimal.digits
  if 0 ≤ decimal.exponent then text ++ zeros decimal.exponent.toNat
  else
    let places := (-decimal.exponent).toNat
    let padded := zeros (places + 1 - text.length) ++ text
    let whole := padded.length - places
    String.ofList (padded.toList.take whole) ++ "." ++ String.ofList (padded.toList.drop whole)

-- Writes a decimal with one digit before the point and an exponent without plus sign.
def Decimal.scientific (decimal : Decimal) : String :=
  let text := digitText decimal.digits
  let exponent := decimal.exponent + (text.length - 1 : Nat)
  let mantissa := match text.toList with
    | [] => ""
    | [digit] => String.singleton digit
    | digit :: rest => String.ofList (digit :: '.' :: rest)
  mantissa ++ "e" ++ toString exponent

-- The position of the point counted from the first digit.
def Decimal.point (decimal : Decimal) : Int :=
  decimal.exponent + (digitText decimal.digits).length

def signed (negative : Bool) (text : String) : String :=
  if negative then "-" ++ text else text

-- Plain text of a floating-point value: the fewest digits that read back, never an exponent.
def Format.text (format : Format) : Binary → String
  | .nan => "NaN"
  | .infinite negative => signed negative "inf"
  | .finite negative significand exponent =>
      signed negative
        (if significand = 0 then "0" else (format.shortest .up significand exponent).positional)

-- The points between which data text stays positional.
structure Positional where
  lowest : Int
  highest : Int
deriving DecidableEq, Repr

def Format.positional (format : Format) : Positional :=
  if format = .single then ⟨-6, 13⟩ else ⟨-5, 16⟩

-- Data text of a floating-point value: whole numbers show one zero after the point, very large
-- and very small ones an exponent. What is not finite has no number to show.
def Format.dataText (format : Format) : Binary → String
  | .finite negative significand exponent =>
      signed negative
        (if significand = 0 then "0.0"
        else
          let decimal := format.shortest .toEven significand exponent
          if format.positional.lowest < decimal.point ∧
              decimal.point ≤ format.positional.highest then
            if 0 ≤ decimal.exponent then decimal.positional ++ ".0" else decimal.positional
          else decimal.scientific)
  | _ => "null"

def floatText (x : Float) : String := Format.double.text (Binary.ofFloat x)

def float32Text (x : Float32) : String := Format.single.text (Binary.ofFloat32 x)

def floatData (x : Float) : String := Format.double.dataText (Binary.ofFloat x)

def float32Data (x : Float32) : String := Format.single.dataText (Binary.ofFloat32 x)

-- The double nearest to a whole number times a power of ten; nothing when it is not finite.
-- Exponents far outside the range are settled by their size alone.
def readDecimal (negative : Bool) (digits : Nat) (exponent : Int) : Option Float :=
  let size := exponent + (digitText digits).length
  let bits :=
    if digits = 0 ∨ size < -400 then 0
    else if 400 < size then Format.double.infinityBits
    else if 0 ≤ exponent then Format.double.nearest (digits * Nat.pow 10 exponent.toNat) 1
    else Format.double.nearest digits (Nat.pow 10 (-exponent).toNat)
  if bits = Format.double.infinityBits then none
  else some (Float.ofBits (UInt64.ofNat ((if negative then Format.double.signBit else 0) + bits)))

end MapAlgebra.Number
