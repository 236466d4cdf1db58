namespace MapAlgebra

-- A closed family of names that an engine knows by number. The label is what people read and
-- the variant is what data files hold.
class Coded (α : Type) where
  family : String
  all : List α
  code : α → Int
  label : α → String
  variant : α → String

namespace Coded

variable {α : Type} [Coded α]

def find? (code : Int) : Option α :=
  (all : List α).find? (Coded.code · = code)

def named? (label : String) : Option α :=
  (all : List α).find? (Coded.label · = label)

def ofVariant? (variant : String) : Option α :=
  (all : List α).find? (Coded.variant · = variant)

end Coded

end MapAlgebra
