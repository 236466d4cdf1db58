import MapAlgebra.Error

namespace MapAlgebra.Coded

variable {α : Type} [Coded α]

-- The member with a code, as an engine reports it.
def ofCode (code : Int) : Except MapError α :=
  match find? code with
  | some member => .ok member
  | none => .error (.typeMismatch (.unknownCode (family α) code))

-- The member with a label, as people write it.
def ofLabel (label : String) : Except MapError α :=
  match named? label with
  | some member => .ok member
  | none => .error (.text (.unknownName (family α) label))

end MapAlgebra.Coded
