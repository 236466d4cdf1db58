import MapAlgebra.Proofs.Grid.Places

namespace MapAlgebra

-- The value of the last of some writes that fell on a cell, if one did.
def lastWritten (rank : Nat) (writes : List (Coord × Float)) (position : List Int) : Option Float :=
  ((writes.filter fun write => write.1.values.take rank = position).getLast?).map Prod.snd

theorem lastWritten_append (rank : Nat) (writes : List (Coord × Float)) (coord : Coord) (x : Float)
    (position : List Int) : lastWritten rank (writes ++ [(coord, x)]) position =
      if coord.values.take rank = position then some x else lastWritten rank writes position := by
  unfold lastWritten
  by_cases hcoord : coord.values.take rank = position
  · rw [if_pos hcoord, List.filter_append, List.filter_cons_of_pos (by simpa using hcoord)]
    simp
  · rw [if_neg hcoord, List.filter_append, List.filter_cons_of_neg (by simpa using hcoord)]
    simp

theorem lastWritten_eq_none {rank : Nat} {writes : List (Coord × Float)} {position : List Int}
    (h : ∀ write ∈ writes, write.1.values.take rank ≠ position) :
    lastWritten rank writes position = none := by
  unfold lastWritten
  rw [List.filter_eq_nil_iff.mpr fun write hwrite => by simpa using h write hwrite]
  rfl

namespace Grid

variable {grid : Grid} {position : List Int} {index : Nat} {x : Float}

theorem get_eq_some : grid.get position = .ok (some x) ↔
    ∃ index, grid.offset position = some index ∧ grid.cells[index]? = some x := by
  unfold get
  cases grid.offset position with
  | none => simp
  | some index => cases hcell : grid.cells[index]? <;> simp [hcell]

theorem get_cast (h : grid.get position = .ok (some x)) (dtype : DataType) :
    (grid.cast dtype).get position = .ok (some (dtype.normalize x)) := by
  obtain ⟨index, hindex, hcell⟩ := get_eq_some.mp h
  refine get_eq_some.mpr ⟨index, hindex, ?_⟩
  rw [Grid.cast, Array.getElem?_map, hcell]
  rfl

theorem get_set_same (hindex : grid.offset position = some index) (hlt : index < grid.cells.size)
    (x : Float) : (grid.set index x).get position = .ok (some (grid.dtype.normalize x)) := by
  refine get_eq_some.mpr ⟨index, hindex, ?_⟩
  rw [Grid.set, Array.getElem?_setIfInBounds_self, if_pos hlt]

-- A write changes no other cell.
theorem get_set_other {other : List Int} (hindex : grid.offset position = some index)
    (hother : other ≠ position) (h : grid.get other = .ok (some x)) (value : Float) :
    (grid.set index value).get other = .ok (some x) := by
  obtain ⟨place, hplace, hcell⟩ := get_eq_some.mp h
  have hdiffers : index ≠ place := by
    rintro rfl
    exact hother (offsetFrom_injective hplace hindex)
  refine get_eq_some.mpr ⟨place, hplace, ?_⟩
  rw [Grid.set, Array.getElem?_setIfInBounds_ne hdiffers, hcell]

theorem at?_cast (grid : Grid) (dtype : DataType) (index : Nat) :
    (grid.cast dtype).at? index = (grid.at? index).map dtype.normalize := by
  show (if grid.isScalar then (grid.cells.map dtype.normalize)[0]?
    else (grid.cells.map dtype.normalize)[index]?) = _
  unfold at?
  split <;> exact Array.getElem?_map

theorem cell_cast (grid : Grid) (dtype : DataType) (index : Nat) :
    (grid.cast dtype).cell index = (grid.cell index).map dtype.normalize := by
  unfold cell
  rw [at?_cast]
  cases grid.at? index <;> rfl

-- A grid after some writes to an original one. A cell holds what was written last to it, or else what
-- it held at first. Both count as brought into the type.
structure Rewritten (dtype : DataType) (original : Grid) (writes : List (Coord × Float))
    (current : Grid) : Prop where
  has : current.Has ⟨dtype, original.shape⟩
  cell : ∀ position, Within original.shape position → ∃ x y,
    original.get position = .ok (some x) ∧ current.get position = .ok (some y) ∧
      dtype.normalize y =
        dtype.normalize ((lastWritten original.shape.length writes position).getD x)

namespace Rewritten

variable {dtype : DataType} {original current : Grid} {writes : List (Coord × Float)}

theorem refl (h : original.Has ⟨dtype, original.shape⟩) : Rewritten dtype original [] original := by
  refine ⟨h, fun position hposition => ?_⟩
  obtain ⟨x, hx⟩ := h.get_within hposition
  exact ⟨x, x, hx, hx, rfl⟩

-- The value may have been brought into the type beforehand.
theorem write (hidem : ∀ x, dtype.normalize (dtype.normalize x) = dtype.normalize x)
    (h : Rewritten dtype original writes current) {coord : Coord} {index : Nat} {x value : Float}
    (hindex : current.offset (coord.values.take original.shape.length) = some index)
    (hvalue : dtype.normalize value = dtype.normalize x) :
    Rewritten dtype original (writes ++ [(coord, x)]) ((current.cast dtype).set index value) := by
  have hcast := h.has.cast dtype
  have hplace : (current.cast dtype).offset (coord.values.take original.shape.length) =
      some index := hindex
  refine ⟨hcast.set index value, fun position hposition => ?_⟩
  obtain ⟨first, held, hfirst, hheld, hsame⟩ := h.cell position hposition
  rw [lastWritten_append]
  by_cases hwritten : coord.values.take original.shape.length = position
  · subst hwritten
    refine ⟨first, dtype.normalize value, hfirst, get_set_same hplace (hcast.offset_lt hplace) value, ?_⟩
    rw [if_pos rfl, hidem, hvalue]
    rfl
  · refine ⟨first, dtype.normalize held, hfirst, ?_, ?_⟩
    · exact get_set_other hplace (Ne.symm hwritten) (get_cast hheld dtype) value
    · rw [if_neg hwritten, hidem, hsame]

end Rewritten

end Grid

end MapAlgebra
