import MapAlgebra.Number.Binary

namespace MapAlgebra.Number

def notANumber : Float := Binary.nan.toFloat

def infinity : Float := (Binary.infinite false).toFloat

def negativeInfinity : Float := (Binary.infinite true).toFloat

def isNegative (x : Float) : Bool :=
  Format.double.signBit ≤ x.toBits.toNat

-- The double nearest to a whole number, ties to even. Small numbers go through the machine
-- conversion, which rounds the same way.
def ofInt (n : Int) : Float :=
  if n.natAbs < Nat.pow 2 63 then
    let magnitude := (UInt64.ofNat n.natAbs).toFloat
    if n < 0 then -magnitude else magnitude
  else ofRatio (n < 0) n.natAbs 1

-- The whole part, toward zero. Not-a-number counts as zero and an infinity lies beyond every
-- finite value.
def wholePart (x : Float) : Int :=
  match Binary.ofFloat x with
  | .nan => 0
  | .infinite negative => if negative then -Nat.pow 2 1024 else Nat.pow 2 1024
  | .finite negative significand exponent =>
      let magnitude :=
        if 0 ≤ exponent then significand <<< exponent.toNat
        else significand >>> (-exponent).toNat
      if negative then -(magnitude : Int) else magnitude

-- Rounds toward zero; a result of zero keeps the sign.
def truncate (x : Float) : Float :=
  match Binary.ofFloat x with
  | .finite negative significand exponent =>
      if 0 ≤ exponent then x
      else (Binary.finite negative (significand >>> (-exponent).toNat) 0).toFloat
  | _ => x

def floor (x : Float) : Float :=
  let whole := truncate x
  if x < whole then whole - 1.0 else whole

def ceiling (x : Float) : Float :=
  let whole := truncate x
  if whole < x then whole + 1.0 else whole

-- Rounds to the nearest whole number, a half away from zero.
def round (x : Float) : Float :=
  match Binary.ofFloat x with
  | .finite negative significand exponent =>
      if 0 ≤ exponent then x
      else
        let shift := (-exponent).toNat
        (Binary.finite negative ((significand + 1 <<< (shift - 1)) >>> shift) 0).toFloat
  | _ => x

def magnitude (x : Float) : Float :=
  if isNegative x then -x else x

-- The larger operand; a not-a-number gives way to the other one, and of two zeros the first
-- is taken.
def larger (a b : Float) : Float :=
  if a.isNaN then b else if a < b then b else a

def smaller (a b : Float) : Float :=
  if a.isNaN then b else if b < a then b else a

-- Not-a-number passes through.
def clamp (x lowest highest : Float) : Float :=
  if x < lowest then lowest else if highest < x then highest else x

-- The exact rest of the division toward zero; it has the sign of the dividend.
def remainder (a b : Float) : Float :=
  match Binary.ofFloat a, Binary.ofFloat b with
  | .finite negative m e, .finite _ n f =>
      if n = 0 then notANumber
      else
        let low := min e f
        (Binary.finite negative ((m <<< (e - low).toNat) % (n <<< (f - low).toNat)) low).toFloat
  | .finite .., .infinite _ => a
  | _, _ => notANumber

-- The whole square root by Newton's iteration from above; each round halves the distance.
def rootFrom (n : Nat) : Nat → Nat → Nat
  | 0, guess => guess
  | fuel + 1, guess =>
      let next := (guess + n / guess) / 2
      if next < guess then rootFrom n fuel next else guess

def squareRoot (n : Nat) : Nat :=
  if n = 0 then 0 else rootFrom n (n.log2 + 2) (1 <<< (n.log2 / 2 + 1))

-- The root of the sum of squares, rounded once. The root is taken with more than the needed
-- bits, and a last bit says whether anything was cut off, so that the rounding sees no tie
-- that is none.
def hypotenuse (a b : Float) : Float :=
  match Binary.ofFloat a, Binary.ofFloat b with
  | .infinite _, _ => infinity
  | _, .infinite _ => infinity
  | .finite _ m e, .finite _ n f =>
      let low := min e f
      let sum := Nat.pow (m <<< (e - low).toNat) 2 + Nat.pow (n <<< (f - low).toNat) 2
      let shifted := sum <<< 128
      let root := squareRoot shifted
      let cut := if root * root = shifted then 0 else 1
      (Binary.finite false (2 * root + cut) (low - 65)).toFloat
  | _, _ => notANumber

end MapAlgebra.Number
