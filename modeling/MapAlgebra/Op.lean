import MapAlgebra.DataType

namespace MapAlgebra

-- Operations on one value.
inductive UnaryOp where
  | pos | neg | not | bnot
  | sin | cos | tan | asin | acos | atan
  | sinh | cosh | tanh | asinh | acosh | atanh
  | exp | exp2 | exp10 | log | log2 | log10 | sqrt | cbrt
  | abs | ceil | floor | trunc | round
deriving DecidableEq, Repr

-- Operations on two values.
inductive BinaryOp where
  | add | sub | mul | div | mod
  | eq | ne | lt | gt | le | ge
  | and | or | band | bor | bxor | shl | shr
  | max | min | atan2 | pow | hypot | fmod
deriving DecidableEq, Repr

-- Operations that bring many values down to one.
inductive ReductionOp where
  | sum | prod | and | or | max | min
deriving DecidableEq, Repr

namespace UnaryOp

-- Name for people, name in data files and number of each operation.
def entries : List (UnaryOp × String × String × Int) :=
  [(.pos, "pos", "Pos", 1), (.neg, "neg", "Neg", 2), (.not, "not", "Not", 3),
   (.bnot, "bnot", "BNot", 4), (.sin, "sin", "Sin", 6), (.cos, "cos", "Cos", 7),
   (.tan, "tan", "Tan", 8), (.asin, "asin", "Asin", 9), (.acos, "acos", "Acos", 10),
   (.atan, "atan", "Atan", 11), (.sinh, "sinh", "Sinh", 12), (.cosh, "cosh", "Cosh", 13),
   (.tanh, "tanh", "Tanh", 14), (.asinh, "asinh", "Asinh", 15), (.acosh, "acosh", "Acosh", 16),
   (.atanh, "atanh", "Atanh", 17), (.exp, "exp", "Exp", 18), (.exp2, "exp2", "Exp2", 19),
   (.exp10, "exp10", "Exp10", 20), (.log, "log", "Log", 21), (.log2, "log2", "Log2", 22),
   (.log10, "log10", "Log10", 23), (.sqrt, "sqrt", "Sqrt", 24), (.cbrt, "cbrt", "Cbrt", 25),
   (.abs, "abs", "Abs", 26), (.ceil, "ceil", "Ceil", 27), (.floor, "floor", "Floor", 28),
   (.trunc, "trunc", "Trunc", 29), (.round, "round", "Round", 30)]

end UnaryOp

namespace BinaryOp

def entries : List (BinaryOp × String × String × Int) :=
  [(.add, "add", "Add", 1), (.sub, "sub", "Sub", 2), (.mul, "mul", "Mul", 3),
   (.div, "div", "Div", 4), (.mod, "mod", "Mod", 5), (.eq, "eq", "Eq", 6), (.ne, "ne", "Ne", 7),
   (.lt, "lt", "Lt", 8), (.gt, "gt", "Gt", 9), (.le, "le", "Le", 10), (.ge, "ge", "Ge", 11),
   (.and, "and", "And", 12), (.or, "or", "Or", 13), (.band, "band", "BAnd", 14),
   (.bor, "bor", "BOr", 15), (.bxor, "bxor", "BXor", 16), (.shl, "shl", "Shl", 17),
   (.shr, "shr", "Shr", 18), (.max, "max", "Max", 20), (.min, "min", "Min", 21),
   (.atan2, "atan2", "Atan2", 22), (.pow, "pow", "Pow", 23), (.hypot, "hypot", "Hypot", 24),
   (.fmod, "fmod", "Fmod", 25)]

end BinaryOp

namespace ReductionOp

def entries : List (ReductionOp × String × String × Int) :=
  [(.sum, "sum", "Sum", 1), (.prod, "prod", "Prod", 2), (.and, "and", "And", 3),
   (.or, "or", "Or", 4), (.max, "max", "Max", 6), (.min, "min", "Min", 7)]

end ReductionOp

-- Looks a member up in a table of names and numbers.
def entryOf {α : Type} [DecidableEq α] (entries : List (α × String × String × Int)) (a : α) :
    String × String × Int :=
  (entries.lookup a).getD ("", "", 0)

instance : Coded UnaryOp where
  family := "UnaryOp"
  all := UnaryOp.entries.map (·.1)
  label op := (entryOf UnaryOp.entries op).1
  variant op := (entryOf UnaryOp.entries op).2.1
  code op := (entryOf UnaryOp.entries op).2.2

instance : Coded BinaryOp where
  family := "BinaryOp"
  all := BinaryOp.entries.map (·.1)
  label op := (entryOf BinaryOp.entries op).1
  variant op := (entryOf BinaryOp.entries op).2.1
  code op := (entryOf BinaryOp.entries op).2.2

instance : Coded ReductionOp where
  family := "ReductionOp"
  all := ReductionOp.entries.map (·.1)
  label op := (entryOf ReductionOp.entries op).1
  variant op := (entryOf ReductionOp.entries op).2.1
  code op := (entryOf ReductionOp.entries op).2.2

namespace UnaryOp

-- Whether the operation is written with a symbol and not as a function.
def isOperator (op : UnaryOp) : Bool := Coded.code op < 5

def resultType (op : UnaryOp) (input : DataType) : DataType :=
  match op with
  | .not => .b8
  | .pos | .neg | .bnot | .abs | .ceil | .floor | .trunc | .round => input
  | _ => input.floating

end UnaryOp

namespace BinaryOp

def isOperator (op : BinaryOp) : Bool := Coded.code op < 19

def isComparison : BinaryOp → Bool
  | .eq | .ne | .lt | .gt | .le | .ge => true
  | _ => false

def isBitwise : BinaryOp → Bool
  | .band | .bor | .bxor | .shl | .shr => true
  | _ => false

-- Truth values are boolean, a shift keeps the type of what is shifted, and everything else
-- takes the common type, made floating where the operation needs it.
def resultType (op : BinaryOp) (left right : DataType) : DataType :=
  match op with
  | .eq | .ne | .lt | .gt | .le | .ge | .and | .or => .b8
  | .shl | .shr => left
  | .atan2 | .pow | .hypot | .fmod => (left.promote right).floating
  | _ => left.promote right

end BinaryOp

namespace ReductionOp

-- The value that a reduction starts from.
def identity : ReductionOp → Float
  | .sum | .or => 0
  | .prod | .and => 1
  | .max => Number.negativeInfinity
  | .min => Number.infinity

def resultType (op : ReductionOp) (input : DataType) : DataType :=
  match op with
  | .and | .or => .b8
  | _ => input

end ReductionOp

end MapAlgebra
