import MapAlgebra.Error

namespace MapAlgebra.Scalar

def ofPayload (payload : Payload) (dtype : DataType) : Except MapError Scalar :=
  match ofPayload? payload dtype with
  | some scalar => .ok scalar
  | none => .error (.typeMismatch .untypedConversion)

-- Integers saturate, floats drop their fraction, and everything but zero becomes true.
def convert (scalar : Scalar) (dtype : DataType) : Except MapError Scalar :=
  ofPayload scalar.payload dtype

def ofFloat (value : Float) (dtype : DataType) : Except MapError Scalar :=
  ofPayload (.real value) dtype

def ofWhole (value : Int) (dtype : DataType) : Except MapError Scalar :=
  ofPayload (.whole value) dtype

def zero (dtype : DataType) : Except MapError Scalar := ofFloat 0 dtype

def one (dtype : DataType) : Except MapError Scalar := ofFloat 1 dtype

-- Reading never converts: the scalar already has to have the wanted type.
def readAs (scalar : Scalar) (wanted : DataType) : Except MapError Scalar :=
  if scalar.dtype = wanted then .ok scalar
  else .error (.typeMismatch (.wrongPayload scalar.dtype wanted))

end MapAlgebra.Scalar
