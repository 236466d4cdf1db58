import MapAlgebra.DataType

namespace MapAlgebra.Random

-- One word of a key: the state moves on linearly and is scrambled before use.
def keyWord (state : UInt64) : UInt64 × UInt32 :=
  let state := state * 6364136223846793005 + 11634580027462260723
  let mixed := ((((state >>> 18) ^^^ state) >>> 27) % 4294967296).toUInt32
  let turn := (state >>> 59).toUInt32
  (state, (mixed >>> turn) ||| (mixed <<< ((32 - turn) % 32)))

def keyWords : Nat → UInt64 → List UInt32
  | 0, _ => []
  | count + 1, state =>
      let (state, word) := keyWord state
      word :: keyWords count state

def rotateLeft (x count : UInt32) : UInt32 :=
  (x <<< count) ||| (x >>> (32 - count))

def wordAt (block : Array UInt32) (index : Nat) : UInt32 := block.getD index 0

-- Mixes four words of a block.
def quarterRound (block : Array UInt32) (a b c d : Nat) : Array UInt32 :=
  let wa := wordAt block a + wordAt block b
  let wd := rotateLeft (wordAt block d ^^^ wa) 16
  let wc := wordAt block c + wd
  let wb := rotateLeft (wordAt block b ^^^ wc) 12
  let wa := wa + wb
  let wd := rotateLeft (wd ^^^ wa) 8
  let wc := wc + wd
  let wb := rotateLeft (wb ^^^ wc) 7
  (((block.setIfInBounds a wa).setIfInBounds b wb).setIfInBounds c wc).setIfInBounds d wd

-- A round over the columns followed by one over the diagonals.
def doubleRound (block : Array UInt32) : Array UInt32 :=
  let block := quarterRound block 0 4 8 12
  let block := quarterRound block 1 5 9 13
  let block := quarterRound block 2 6 10 14
  let block := quarterRound block 3 7 11 15
  let block := quarterRound block 0 5 10 15
  let block := quarterRound block 1 6 11 12
  let block := quarterRound block 2 7 8 13
  quarterRound block 3 4 9 14

-- The first block of the stream cipher with twelve rounds and counter zero.
def firstBlock (key : List UInt32) : Array UInt32 :=
  let start := (#[0x61707865, 0x3320646e, 0x79622d32, 0x6b206574] : Array UInt32) ++
    key.toArray ++ #[0, 0, 0, 0]
  let mixed := Nat.repeat doubleRound 6 start
  (start.zip mixed).map fun (a, b) => a + b

-- The random words that belong to a seed: one of 32 and one of 64 bits from the same block.
structure Draw where
  short : UInt32
  long : UInt64

def draw (seed : UInt64) : Draw :=
  let block := firstBlock (keyWords 8 seed)
  let low := wordAt block 0
  ⟨low, low.toUInt64 ||| ((wordAt block 1).toUInt64 <<< 32)⟩

-- Each cell has a seed of its own, made from the seed cell and the index.
def cellSeed (seed : Float) (index : Nat) : UInt64 :=
  seed.toBits ^^^ (UInt64.ofNat index * 0x9e3779b97f4a7c15)

-- The largest random fraction.
def largestFraction : Float := Number.ofRatio false (Nat.pow 2 52 - 1) (Nat.pow 2 52)

-- Makes a scale smaller until even the largest fraction stays in the range.
def fitScale (low high : Float) : Nat → Float → Float
  | 0, scale => scale
  | fuel + 1, scale =>
      if high < scale * largestFraction + low then
        fitScale low high fuel (Float.ofBits (scale.toBits - 1))
      else scale

-- A uniform real between two bounds.
def between (low high : Float) (word : UInt64) : Float :=
  let scale := fitScale low high 64 ((high - low) / largestFraction)
  let fraction := Float.ofBits ((0x3ff0000000000000 : UInt64) ||| (word >>> 12)) - 1
  fraction * scale + low

-- A random value of a type: a fraction below one for floats, a whole number of the type's range
-- for integers.
def value (dtype : DataType) (seed : UInt64) : Float :=
  let words := draw seed
  match dtype with
  | .f32 | .f64 | .untyped => Number.ofInt (words.long >>> 11).toNat * Number.ofRatio false 1 (Nat.pow 2 53)
  | .b8 => DataType.flag (words.short >>> 31 = 1)
  | dtype => Number.floor (between dtype.bounds.1 dtype.bounds.2 words.long)

end MapAlgebra.Random
