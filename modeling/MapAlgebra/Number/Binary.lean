namespace MapAlgebra.Number

-- A value of a binary format, taken apart. A finite value is its sign, a whole significand
-- and the power of two that the significand counts; zero keeps its sign.
inductive Binary where
  | nan
  | infinite (negative : Bool)
  | finite (negative : Bool) (significand : Nat) (exponent : Int)
deriving DecidableEq, Repr

-- A binary interchange format. The precision counts the leading bit of a normal significand.
structure Format where
  precision : Nat
  exponentBits : Nat
deriving DecidableEq, Repr

namespace Format

@[inline] def double : Format := ⟨53, 11⟩

@[inline] def single : Format := ⟨24, 8⟩

-- The exponent of the last place of the smallest positive value.
@[inline] def lowestExponent (format : Format) : Int :=
  2 - (Nat.pow 2 (format.exponentBits - 1) : Nat) - ((format.precision - 1 : Nat) : Int)

@[inline] def infinityBits (format : Format) : Nat :=
  (Nat.pow 2 format.exponentBits - 1) <<< (format.precision - 1)

@[inline] def signBit (format : Format) : Nat :=
  1 <<< (format.precision - 1 + format.exponentBits)

-- Reads a bit pattern.
@[inline] def decode (format : Format) (bits : Nat) : Binary :=
  let negative := format.signBit ≤ bits
  let fraction := bits % Nat.pow 2 (format.precision - 1)
  let field := (bits >>> (format.precision - 1)) % Nat.pow 2 format.exponentBits
  if field = Nat.pow 2 format.exponentBits - 1 then
    if fraction = 0 then .infinite negative else .nan
  else if field = 0 then
    .finite negative fraction format.lowestExponent
  else
    .finite negative (fraction + Nat.pow 2 (format.precision - 1)) (format.lowestExponent + (field - 1))

-- The bit pattern, without sign, of the value nearest to numerator / denominator. A tie goes
-- to the even significand, and what lies beyond the largest finite value becomes infinite.
-- Adding the significand to the shifted exponent lets a carry move to the next binade.
def nearest (format : Format) (numerator denominator : Nat) : Nat :=
  if numerator = 0 then 0 else
    let top := (numerator.log2 : Int) - denominator.log2
    let reached :=
      if 0 ≤ top then denominator <<< top.toNat ≤ numerator
      else denominator ≤ numerator <<< (-top).toNat
    let exponent := max format.lowestExponent
      ((if reached then top else top - 1) - ((format.precision - 1 : Nat) : Int))
    let scaled := if 0 ≤ exponent then numerator else numerator <<< (-exponent).toNat
    let unit := if 0 ≤ exponent then denominator <<< exponent.toNat else denominator
    let quotient := scaled / unit
    let rest := 2 * (scaled % unit)
    let rounded :=
      if unit < rest ∨ (rest = unit ∧ quotient % 2 = 1) then quotient + 1 else quotient
    min format.infinityBits
      ((exponent - format.lowestExponent).toNat <<< (format.precision - 1) + rounded)

-- The bit pattern, without sign, nearest to a significand times a power of two. Only bits below
-- the last place are rounded away.
@[inline] def nearestDyadic (format : Format) (significand : Nat) (exponent : Int) : Nat :=
  if significand = 0 then 0 else
    let last := max format.lowestExponent
      (exponent + significand.log2 - ((format.precision - 1 : Nat) : Int))
    let rounded :=
      if last ≤ exponent then significand <<< (exponent - last).toNat
      else
        let dropped := (last - exponent).toNat
        let kept := significand >>> dropped
        let rest := significand - kept <<< dropped
        let half := 1 <<< (dropped - 1)
        if half < rest ∨ (rest = half ∧ kept % 2 = 1) then kept + 1 else kept
    min format.infinityBits
      ((last - format.lowestExponent).toNat <<< (format.precision - 1) + rounded)

-- The bit pattern nearest to a value; every not-a-number becomes the quiet one without sign.
@[inline] def encode (format : Format) : Binary → Nat
  | .nan => format.infinityBits + 1 <<< (format.precision - 2)
  | .infinite negative => (if negative then format.signBit else 0) + format.infinityBits
  | .finite negative significand exponent =>
      (if negative then format.signBit else 0) + format.nearestDyadic significand exponent

end Format

def Binary.ofFloat (x : Float) : Binary :=
  Format.double.decode x.toBits.toNat

def Binary.toFloat (value : Binary) : Float :=
  Float.ofBits (UInt64.ofNat (Format.double.encode value))

def Binary.ofFloat32 (x : Float32) : Binary :=
  Format.single.decode x.toBits.toNat

def Binary.toFloat32 (value : Binary) : Float32 :=
  Float32.ofBits (UInt32.ofNat (Format.single.encode value))

-- Rounds to single precision.
def narrow (x : Float) : Float32 :=
  (Binary.ofFloat x).toFloat32

-- Every single-precision value is a double-precision value.
def widen (x : Float32) : Float :=
  (Binary.ofFloat32 x).toFloat

-- The double nearest to a quotient of whole numbers.
def ofRatio (negative : Bool) (numerator denominator : Nat) : Float :=
  Float.ofBits (UInt64.ofNat
    ((if negative then Format.double.signBit else 0) + Format.double.nearest numerator denominator))

end MapAlgebra.Number
