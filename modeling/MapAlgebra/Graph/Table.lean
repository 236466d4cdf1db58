namespace MapAlgebra

-- A finite map from numbers. Each number occurs once.
structure Table (α : Type) where
  entries : List (Nat × α)
  distinct : (entries.map Prod.fst).Nodup

namespace Table

variable {α : Type}

def empty : Table α := ⟨[], List.nodup_nil⟩

def get? (table : Table α) (key : Nat) : Option α := table.entries.lookup key

def contains (table : Table α) (key : Nat) : Bool := (table.get? key).isSome

def size (table : Table α) : Nat := table.entries.length

def erase (table : Table α) (key : Nat) : Table α :=
  ⟨table.entries.filter (·.1 ≠ key), table.distinct.sublist (List.filter_sublist.map Prod.fst)⟩

def insert (table : Table α) (key : Nat) (value : α) : Table α where
  entries := (key, value) :: (table.erase key).entries
  distinct := by
    simp only [List.map_cons, List.nodup_cons, List.mem_map, not_exists, not_and]
    refine ⟨fun entry member same => ?_, (table.erase key).distinct⟩
    simpa [same] using (List.mem_filter.mp member).2

-- Changes the value of a number, if it has one.
def modify (table : Table α) (key : Nat) (f : α → α) : Table α where
  entries := table.entries.map fun (k, value) => (k, if k = key then f value else value)
  distinct := by
    rw [List.map_map]
    exact table.distinct

-- Inserts entries one after the other.
def insertAll (table : Table α) (entries : List (Nat × α)) : Table α :=
  entries.foldl (fun table entry => table.insert entry.1 entry.2) table

def ofList (entries : List (Nat × α)) : Table α := empty.insertAll entries

end Table

end MapAlgebra
