import MapAlgebra.Number.Binary

namespace MapAlgebra.Number

-- A positive decimal number: a whole number of units of a power of ten.
structure Decimal where
  digits : Nat
  exponent : Int
deriving DecidableEq, Repr

-- Where a value lies midway between two shortest decimals, one of them has to be named.
inductive Tie where
  | up
  | toEven
deriving DecidableEq, Repr

-- The numbers that round to one binary value, all scaled by a common factor. The ends belong
-- to the interval when the significand is even.
structure Interval where
  lowest : Nat
  middle : Nat
  highest : Nat
  closed : Bool
deriving DecidableEq, Repr

namespace Interval

def holds (interval : Interval) (n : Nat) : Bool :=
  if interval.closed then interval.lowest ≤ n && n ≤ interval.highest
  else interval.lowest < n && n < interval.highest

-- The multiple of the unit inside the interval that is nearest to the middle. If any multiple
-- lies inside then so does one of the two around the middle.
def nearestMultiple (interval : Interval) (tie : Tie) (unit : Nat) : Option Nat :=
  let below := interval.middle / unit
  let rest := 2 * (interval.middle % unit)
  match interval.holds (below * unit), interval.holds ((below + 1) * unit) with
  | false, false => none
  | true, false => some below
  | false, true => some (below + 1)
  | true, true =>
      let up := if rest = unit then tie = .up || below % 2 = 1 else unit < rest
      some (if up then below + 1 else below)

end Interval

-- A significand counts powers of two. Below a power of two the next smaller value is only half
-- as far away, unless the exponent is already the lowest one.
def Format.interval (format : Format) (significand scale : Nat) (exponent : Int) : Interval :=
  let half := significand = Nat.pow 2 (format.precision - 1) ∧ format.lowestExponent < exponent
  { lowest := (4 * significand - if half then 1 else 2) * scale
    middle := 4 * significand * scale
    highest := (4 * significand + 2) * scale
    closed := significand % 2 = 0 }

-- Looks for a decimal in the interval on finer and finer grids.
def Format.firstGrid (format : Format) (tie : Tie) (significand : Nat) (exponent : Int) :
    Nat → Int → Decimal
  | 0, place => ⟨0, place⟩
  | fuel + 1, place =>
      let scale := Nat.pow 2 (exponent - 2).toNat * Nat.pow 10 (-place).toNat
      let unit := Nat.pow 2 (2 - exponent).toNat * Nat.pow 10 place.toNat
      match (format.interval significand scale exponent).nearestMultiple tie unit with
      | some digits => ⟨digits, place⟩
      | none => format.firstGrid tie significand exponent fuel (place - 1)

-- Drops zeros at the end of the digits.
def Decimal.trim : Nat → Decimal → Decimal
  | 0, decimal => decimal
  | fuel + 1, decimal =>
      if decimal.digits ≠ 0 ∧ decimal.digits % 10 = 0 then
        Decimal.trim fuel ⟨decimal.digits / 10, decimal.exponent + 1⟩
      else decimal

-- The decimal with the fewest digits that reads back as the given positive value, and of those
-- the nearest. The search starts above the value: a binary place is less than 0.30103 decimal
-- ones.
def Format.shortest (format : Format) (tie : Tie) (significand : Nat) (exponent : Int) : Decimal :=
  let top := ((significand.log2 : Int) + exponent + 1) * 30103 / 100000 + 2
  (format.firstGrid tie significand exponent 24 top).trim 24

end MapAlgebra.Number
