import MapAlgebra.Operand

namespace MapAlgebra

-- Operands by name. Each name occurs once.
structure Bindings where
  entries : List (String × Operand)
  distinct : (entries.map Prod.fst).Nodup

namespace Bindings

def empty : Bindings := ⟨[], List.nodup_nil⟩

def names (bindings : Bindings) : List String := bindings.entries.map Prod.fst

def operands (bindings : Bindings) : List Operand := bindings.entries.map Prod.snd

def find? (bindings : Bindings) (name : String) : Option Operand := bindings.entries.lookup name

def erase (bindings : Bindings) (name : String) : Bindings :=
  ⟨bindings.entries.filter (·.1 ≠ name),
    bindings.distinct.sublist (List.filter_sublist.map Prod.fst)⟩

-- Puts a name in front of all others.
def bind (bindings : Bindings) (name : String) (operand : Operand) : Bindings where
  entries := (name, operand) :: (bindings.erase name).entries
  distinct := by
    simp only [List.map_cons, List.nodup_cons, List.mem_map, not_exists, not_and]
    refine ⟨fun entry member same => ?_, (bindings.erase name).distinct⟩
    simpa [same] using (List.mem_filter.mp member).2

-- Puts a name behind all others.
def append (bindings : Bindings) (name : String) (operand : Operand) : Bindings where
  entries := (bindings.erase name).entries ++ [(name, operand)]
  distinct := by
    rw [List.map_append, List.nodup_append]
    refine ⟨(bindings.erase name).distinct, by simp, fun other member last hlast => ?_⟩
    obtain ⟨entry, hentry, rfl⟩ := List.mem_map.mp member
    simpa [List.mem_singleton.mp hlast] using (List.mem_filter.mp hentry).2

-- Puts another operand in the place of a name, if the name is there.
def replace (bindings : Bindings) (name : String) (operand : Operand) : Bindings where
  entries := bindings.entries.map fun entry =>
    (entry.1, if entry.1 = name then operand else entry.2)
  distinct := by
    rw [List.map_map]
    exact bindings.distinct

end Bindings

end MapAlgebra
