import MapAlgebra.Grid.Sweep
import MapAlgebra.Proofs.Outcome

namespace MapAlgebra

-- A fold succeeds when each of its steps does, and what every step keeps holds at its end.
theorem foldlM_total {ε α β : Type} {motive : β → Prop} {items : List α} {f : β → α → Except ε β}
    {start : β} (hstart : motive start)
    (hstep : ∀ total, motive total → ∀ item ∈ items, ∃ next, f total item = .ok next ∧ motive next) :
    ∃ result, items.foldlM f start = .ok result ∧ motive result := by
  induction items generalizing start with
  | nil => exact ⟨start, rfl, hstart⟩
  | cons item items ih =>
      obtain ⟨next, hnext, hkept⟩ := hstep start hstart item List.mem_cons_self
      obtain ⟨result, hresult, hend⟩ := ih hkept fun total htotal other hother =>
        hstep total htotal other (List.mem_cons_of_mem _ hother)
      refine ⟨result, ?_, hend⟩
      rw [List.foldlM_cons]
      exact bind_eq_ok.mpr ⟨next, hnext, hresult⟩

-- A chain comes to a good end when its first part does and goes on well from there.
theorem bind_total {ε α β : Type} {middle : α → Prop} {last : β → Prop} {x : Except ε α}
    {f : α → Except ε β} (h : ∃ a, x = .ok a ∧ middle a)
    (hnext : ∀ a, middle a → ∃ b, f a = .ok b ∧ last b) : ∃ b, (x >>= f) = .ok b ∧ last b := by
  obtain ⟨a, hx, ha⟩ := h
  obtain ⟨b, hf, hb⟩ := hnext a ha
  exact ⟨b, bind_eq_ok.mpr ⟨a, hx, hf⟩, hb⟩

-- The type and the extents of a grid.
structure Form where
  dtype : DataType
  shape : List Nat
deriving DecidableEq

namespace Grid

-- A position that lies within some extents on every axis.
def Within (extents : List Nat) (position : List Int) : Prop :=
  List.Forall₂ (fun (extent : Nat) (c : Int) => 0 ≤ c ∧ c < extent) extents position

-- The index of a position stays below the cells that the extents span, counted on from the cells
-- before it.
theorem offsetFrom_lt {extents : List Nat} {position : List Int} {flat index : Nat}
    (h : offsetFrom extents position flat = some index) :
    index < (flat + 1) * cellCount extents := by
  induction extents generalizing position flat with
  | nil =>
      cases position with
      | nil =>
          cases h
          simp [cellCount]
      | cons c position => cases h
  | cons extent extents ih =>
      cases position with
      | nil => cases h
      | cons c position =>
          rw [offsetFrom] at h
          split at h
          · cases h
          · rename_i hinside
            have hlt := ih h
            have hrow : flat * extent + c.toNat + 1 ≤ (flat + 1) * extent := by
              rw [Nat.add_mul, Nat.one_mul]
              omega
            have hcells := Nat.mul_le_mul_right (cellCount extents) hrow
            have hcount : cellCount (extent :: extents) = extent * cellCount extents := rfl
            rw [hcount, ← Nat.mul_assoc]
            exact Nat.lt_of_lt_of_le hlt hcells

theorem offsetFrom_total {extents : List Nat} {position : List Int} (h : Within extents position)
    (flat : Nat) : ∃ index, offsetFrom extents position flat = some index := by
  induction h generalizing flat with
  | nil => exact ⟨flat, rfl⟩
  | @cons extent c extents position hinside _ ih =>
      obtain ⟨index, hindex⟩ := ih (flat * extent + c.toNat)
      refine ⟨index, ?_⟩
      rw [offsetFrom, if_neg (by omega)]
      exact hindex

theorem length_digits (extents : List Nat) (flat : Nat) :
    (digits extents flat).1.length = extents.length := by
  induction extents with
  | nil => rfl
  | cons extent extents ih => simp only [digits, List.length_cons, ih]

-- Extents that span a cell are not empty on any axis.
theorem zero_not_mem_of_lt {extents : List Nat} {index : Nat} (h : index < cellCount extents) :
    0 ∉ extents := by
  induction extents generalizing index with
  | nil => exact List.not_mem_nil
  | cons extent extents ih =>
      have hcount : cellCount (extent :: extents) = extent * cellCount extents := rfl
      rw [hcount] at h
      have hpositive : 0 < extent * cellCount extents := by omega
      rw [List.mem_cons, not_or]
      refine ⟨Nat.ne_of_lt (Nat.pos_of_mul_pos_right hpositive), ?_⟩
      exact ih (Nat.pos_of_mul_pos_left hpositive)

-- No block is empty on any axis.
theorem zero_not_mem_blockExtents (extents blocks : List Nat) : 0 ∉ blockExtents extents blocks := by
  induction extents generalizing blocks with
  | nil => exact List.not_mem_nil
  | cons extent extents ih =>
      cases blocks with
      | nil =>
          rw [blockExtents, List.mem_cons, not_or]
          exact ⟨by omega, ih []⟩
      | cons block blocks =>
          rw [blockExtents, List.mem_cons, not_or]
          refine ⟨?_, ih blocks⟩
          split <;> omega

-- Every cell of a grid is there. That is the grid's type, its extents and its number of cells.
structure Has (grid : Grid) (form : Form) : Prop where
  dtype : grid.dtype = form.dtype
  shape : grid.shape = form.shape
  cells : grid.cells.size = cellCount form.shape

-- Shapes that broadcast to a whole: a single value stands at every index.
def Spreads (shape whole : List Nat) : Prop := shape = [] ∨ shape = whole

namespace Has

variable {grid : Grid} {form : Form}

theorem cell_total (h : grid.Has form) {whole : List Nat} (hspreads : Spreads form.shape whole)
    {index : Nat} (hindex : index < cellCount whole) : ∃ x, grid.cell index = .ok x := by
  have hthere : ∃ x, grid.at? index = some x := by
    unfold at? isScalar
    obtain hsingle | hwhole := hspreads
    · have hsize : 0 < grid.cells.size := by simp [h.cells, hsingle, cellCount]
      rw [h.shape, hsingle]
      exact ⟨grid.cells[0], Array.getElem?_eq_getElem hsize⟩
    · have hsize : index < grid.cells.size := by rw [h.cells, hwhole]; exact hindex
      by_cases hsingle : grid.shape.isEmpty
      · rw [if_pos hsingle]
        exact ⟨grid.cells[0], Array.getElem?_eq_getElem (by omega)⟩
      · rw [if_neg hsingle]
        exact ⟨grid.cells[index], Array.getElem?_eq_getElem hsize⟩
  obtain ⟨x, hx⟩ := hthere
  exact ⟨x, by rw [cell, hx]⟩

-- A grid with cells has no empty axis, so that no index is divided by zero.
theorem position_total (h : grid.Has form) {index : Nat} (hindex : index < cellCount form.shape) :
    ∃ position, grid.position index = .ok position ∧ position.length = form.shape.length := by
  have hzero : 0 ∉ grid.shape := by
    rw [h.shape]
    exact zero_not_mem_of_lt hindex
  refine ⟨(digits grid.shape index).1, ?_, ?_⟩
  · rw [position, position?, if_neg hzero]
  · rw [length_digits, h.shape]

theorem offset_lt (h : grid.Has form) {position : List Int} {index : Nat}
    (hoffset : grid.offset position = some index) : index < grid.cells.size := by
  have hlt := offsetFrom_lt hoffset
  rw [h.shape] at hlt
  rw [h.cells]
  omega

-- A position has a cell or lies outside the grid.
theorem get_total (h : grid.Has form) (position : List Int) :
    ∃ value, grid.get position = .ok value := by
  unfold get
  cases hoffset : grid.offset position with
  | none => exact ⟨none, rfl⟩
  | some index =>
      have hlt := h.offset_lt hoffset
      exact ⟨some grid.cells[index], by simp only [Array.getElem?_eq_getElem hlt]⟩

theorem get_within (h : grid.Has form) {position : List Int} (hwithin : Within form.shape position) :
    ∃ x, grid.get position = .ok (some x) := by
  obtain ⟨index, hindex⟩ := offsetFrom_total (h.shape ▸ hwithin) 0
  have hoffset : grid.offset position = some index := hindex
  have hlt := h.offset_lt hoffset
  exact ⟨grid.cells[index], by simp only [get, hoffset, Array.getElem?_eq_getElem hlt]⟩

theorem cast (h : grid.Has form) (dtype : DataType) : (grid.cast dtype).Has ⟨dtype, form.shape⟩ where
  dtype := rfl
  shape := h.shape
  cells := by
    rw [Grid.cast, Array.size_map]
    exact h.cells

theorem set (h : grid.Has form) (index : Nat) (value : Float) : (grid.set index value).Has form where
  dtype := h.dtype
  shape := h.shape
  cells := by
    rw [Grid.set, Array.size_setIfInBounds]
    exact h.cells

end Has

theorem has_filled (dtype : DataType) (shape : List Nat) (value : Float) :
    (filled dtype shape value).Has ⟨dtype, shape⟩ :=
  ⟨rfl, rfl, Array.size_replicate⟩

theorem ofCells_total (dtype : DataType) {shape : List Nat} {cells : Array Float}
    (h : cells.size = cellCount shape) :
    ∃ grid, ofCells dtype shape cells = .ok grid ∧ grid.Has ⟨dtype, shape⟩ := by
  refine ⟨_, if_pos h, rfl, rfl, ?_⟩
  rw [Array.size_map]
  exact h

-- As many cells as there are indices, if every index gives one.
theorem mapM_range_total (count : Nat) {f : Nat → Except MapError Float}
    (h : ∀ index < count, ∃ x, f index = .ok x) :
    ∃ cells, (Array.range count).mapM f = .ok cells ∧ cells.size = count := by
  obtain ⟨items, hitems⟩ : ∃ items, (List.range count).mapM f = .ok items :=
    mapM_total fun index hindex => h index (List.mem_range.mp hindex)
  refine ⟨items.toArray, ?_, ?_⟩
  · rw [Array.mapM_eq_mapM_toList, Array.toList_range, hitems]
    rfl
  · have hlength := (mapM_eq_ok.mp hitems).length_eq
    rw [List.length_range] at hlength
    rw [List.size_toArray]
    omega

-- What never fails could have been done without failures in mind.
theorem mapM_range_eq {count : Nat} {f : Nat → Except MapError Float} {g : Nat → Float}
    (h : ∀ index < count, f index = .ok (g index)) :
    (Array.range count).mapM f = .ok ((List.range count).map g).toArray := by
  rw [Array.mapM_eq_mapM_toList, Array.toList_range,
    mapM_congr fun index hindex => h index (List.mem_range.mp hindex)]
  exact congrArg (Except.map List.toArray) List.mapM_pure

theorem tabulate_total (dtype : DataType) {shape : List Nat} {f : Nat → Except MapError Float}
    (h : ∀ index < cellCount shape, ∃ x, f index = .ok x) :
    ∃ grid, tabulate dtype shape f = .ok grid ∧ grid.Has ⟨dtype, shape⟩ :=
  bind_total (mapM_range_total _ h) fun _ hsize => ofCells_total dtype hsize

namespace Has

variable {grid : Grid} {form : Form}

theorem focalCell_total (h : grid.Has form) (weights : Weights) (reduction : Option ReductionOp)
    (row column : Int) : ∃ x, grid.focalCell weights reduction row column = .ok x := by
  unfold focalCell
  have hstep : ∀ place : Nat × Nat, ∃ value, grid.get
      [row + place.1 - (weights.rows / 2 : Nat), column + place.2 - (weights.columns / 2 : Nat)] =
        .ok value := fun place => h.get_total _
  refine (foldlM_total (motive := fun _ => True) trivial fun total _ place _ => ?_).imp
    fun x hx => hx.1
  obtain ⟨value, hvalue⟩ := hstep place
  exact ⟨_, bind_eq_ok.mpr ⟨value, hvalue, rfl⟩, trivial⟩

theorem focal_total (h : grid.Has form) (hplane : form.shape.length = 2) (weights : Weights)
    (reduction : Option ReductionOp) (dtype : DataType) :
    ∃ result, grid.focal weights reduction dtype = .ok result ∧ result.Has ⟨dtype, form.shape⟩ := by
  obtain ⟨rows, columns, hshape⟩ := List.length_eq_two.mp hplane
  unfold focal
  rw [h.shape, hshape]
  refine bind_total (mapM_range_total (rows * columns) fun index _ =>
    h.focalCell_total weights reduction _ _) fun cells hsize => ofCells_total dtype ?_
  simp [hsize, cellCount]

theorem alongLine_total (h : grid.Has form) (op : ReductionOp) (points : List (Int × Int)) :
    ∃ x, grid.alongLine op points = .ok x := by
  unfold alongLine
  refine (foldlM_total (motive := fun _ => True) trivial fun total _ point _ => ?_).imp
    fun x hx => hx.1
  obtain ⟨value, hvalue⟩ := h.get_total [point.1, point.2]
  cases value with
  | none => exact ⟨total, bind_eq_ok.mpr ⟨none, hvalue, rfl⟩, trivial⟩
  | some y => exact ⟨op.combine total y, bind_eq_ok.mpr ⟨some y, hvalue, rfl⟩, trivial⟩

theorem radial_total (h : grid.Has form) (hplane : form.shape.length = 2) (op : ReductionOp)
    (origin : Coord) (dtype : DataType) :
    ∃ result, grid.radial op origin dtype = .ok result ∧ result.Has ⟨dtype, form.shape⟩ := by
  obtain ⟨rows, columns, hshape⟩ := List.length_eq_two.mp hplane
  have hcells : grid.cells.size = cellCount [rows, columns] := hshape ▸ h.cells
  unfold radial radialBy
  rw [h.shape, hshape]
  refine bind_total (mapM_range_total grid.size fun index _ => h.alongLine_total op _)
    fun cells hsize => ofCells_total dtype (hsize.trans hcells)

-- Cells are taken into the blocks that there are, and no block is added.
theorem blocks_total (h : grid.Has form) (op : ReductionOp) (block : Shape) (shape : List Nat)
    (dtype : DataType) :
    ∃ result, grid.blocks op block shape dtype = .ok result ∧ result.Has ⟨dtype, shape⟩ := by
  unfold blocks
  dsimp only
  rw [← Array.foldlM_toList, Array.toList_range]
  refine bind_total (foldlM_total (motive := (Array.size · = cellCount shape)) Array.size_replicate
    fun totals hsize index hindex => ?_) fun totals hsize => ofCells_total dtype hsize
  have hlt : index < cellCount form.shape := by
    rw [← h.cells]
    exact List.mem_range.mp hindex
  obtain ⟨position, hposition, _⟩ := h.position_total hlt
  cases hblock : offsetFrom shape (blockOf position (blockExtents grid.shape block.extents)) 0 with
  | none =>
      refine ⟨totals, bind_eq_ok.mpr ⟨position, hposition, ?_⟩, hsize⟩
      simp only [hblock]
      rfl
  | some target =>
      refine ⟨totals.modify target (op.combine · (grid.cells.getD index 0)),
        bind_eq_ok.mpr ⟨position, hposition, ?_⟩, ?_⟩
      · simp only [hblock]
        rfl
      · rw [Array.size_modify]
        exact hsize

end Has

end Grid

end MapAlgebra
