namespace MapAlgebra.Number

-- The nearest number of a closed range.
def saturate (n lowest highest : Int) : Int :=
  max lowest (min n highest)

def wideLowest : Int := -Nat.pow 2 127

def wideHighest : Int := Nat.pow 2 127 - 1

-- Exact results are carried in words of 128 bits.
def wide (n : Int) : Int := Int.bmod n (Nat.pow 2 128)

def saturateWide (n : Int) : Int := saturate n wideLowest wideHighest

-- Two's complement bit operations on 128-bit words.
def bitAnd (a b : Int) : Int := (BitVec.ofInt 128 a &&& BitVec.ofInt 128 b).toInt

def bitOr (a b : Int) : Int := (BitVec.ofInt 128 a ||| BitVec.ofInt 128 b).toInt

def bitXor (a b : Int) : Int := (BitVec.ofInt 128 a ^^^ BitVec.ofInt 128 b).toInt

def bitNot (a : Int) : Int := -a - 1

-- A shift count is brought into the range of the word.
def shiftCount (n : Int) : Nat := (saturate n 0 127).toNat

def shiftLeft (a : Int) (count : Nat) : Int := wide (a * Nat.pow 2 count)

def shiftRight (a : Int) (count : Nat) : Int := a >>> count

end MapAlgebra.Number
