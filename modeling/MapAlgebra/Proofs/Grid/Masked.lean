import MapAlgebra.Graph.Apply
import MapAlgebra.Proofs.Grid.Blocks
import MapAlgebra.Proofs.Number.Neutral

namespace MapAlgebra

open Number (Unminus unminus_zero float_mul_one)

theorem DataType.holds_flag (b : Bool) : holds (flag b) = b := by
  cases b <;> rfl

namespace ReductionOp

-- The reductions that can be restricted by a mask.
def Maskable (op : ReductionOp) : Prop := op ∈ [sum, prod, and, or]

instance (op : ReductionOp) : Decidable op.Maskable := inferInstanceAs (Decidable (_ ∈ _))

-- The totals that a reduction comes by.
inductive Reaches (op : ReductionOp) : Float → Prop
  | start : Reaches op op.identity
  | step {total : Float} (h : Reaches op total) (x : Float) : Reaches op (op.combine total x)

variable {op : ReductionOp} {total : Float}

theorem Reaches.unminus (h : Reaches .sum total) : Unminus total := by
  induction h with
  | start => exact unminus_zero
  | step _ x ih => exact ih.add x

-- Whether all or some cells hold is said by a flag.
theorem Reaches.flag (h : Reaches op total) (hop : op = .and ∨ op = .or) :
    ∃ b, total = DataType.flag b := by
  induction h with
  | start =>
      obtain rfl | rfl := hop
      · exact ⟨true, rfl⟩
      · exact ⟨false, rfl⟩
  | step _ x _ =>
      obtain rfl | rfl := hop
      · exact ⟨_, rfl⟩
      · exact ⟨_, rfl⟩

-- What a reduction starts from changes none of its totals.
theorem Reaches.neutral (h : Reaches op total) (hop : op.Maskable) :
    op.combine total op.identity = total := by
  cases op with
  | sum => exact h.unminus.add_zero
  | prod => exact float_mul_one total
  | and =>
      obtain ⟨b, rfl⟩ := h.flag (Or.inl rfl)
      show DataType.flag (DataType.holds (DataType.flag b) && DataType.holds (DataType.flag true)) = _
      rw [DataType.holds_flag, DataType.holds_flag, Bool.and_true]
  | or =>
      obtain ⟨b, rfl⟩ := h.flag (Or.inr rfl)
      show DataType.flag (DataType.holds (DataType.flag b) || DataType.holds (DataType.flag false)) = _
      rw [DataType.holds_flag, DataType.holds_flag, Bool.or_false]
  | max | min => exact absurd hop (by decide)

-- Cells that are replaced by what the reduction starts from are as good as left out.
theorem foldl_replaced (hop : op.Maskable) {α : Type} (items : List α) (chosen : α → Bool)
    (cell : α → Float) {start : Float} (hstart : Reaches op start) :
    items.foldl (fun total item => op.combine total (if chosen item then cell item else op.identity))
      start = ((items.filter chosen).map cell).foldl op.combine start := by
  induction items generalizing start with
  | nil => rfl
  | cons item items ih =>
      rw [List.foldl_cons]
      by_cases hchosen : chosen item
      · rw [if_pos hchosen, List.filter_cons_of_pos hchosen, ih (hstart.step _)]
        rfl
      · rw [if_neg hchosen, List.filter_cons_of_neg hchosen, hstart.neutral hop, ih hstart]

theorem identity_cases (hop : op.Maskable) : op.identity = 0 ∨ op.identity = 1 := by
  cases op with
  | sum | or => exact Or.inl rfl
  | prod | and => exact Or.inr rfl
  | max | min => exact absurd hop (by decide)

-- Every type holds what these reductions start from.
theorem normalize_identity (hop : op.Maskable) (dtype : DataType) :
    dtype.normalize op.identity = op.identity := by
  obtain hidentity | hidentity := identity_cases hop
  all_goals
    rw [hidentity]
    cases dtype <;> decide +kernel

theorem identity_scalar (hop : op.Maskable) {dtype : DataType} (htyped : dtype ≠ .untyped) :
    ∃ neutral, Scalar.ofFloat op.identity dtype = .ok neutral ∧ neutral.dtype = dtype ∧
      neutral.convert dtype = .ok neutral ∧ neutral.toFloat = op.identity := by
  obtain hidentity | hidentity := identity_cases hop
  all_goals
    rw [hidentity]
    cases dtype with
    | untyped => exact absurd rfl htyped
    | _ => exact ⟨_, rfl, rfl, rfl, by decide +kernel⟩

end ReductionOp

namespace Grid

-- The cell at an index of a whole that a grid is spread over.
def spread (grid : Grid) (index : Nat) : Float := (grid.at? index).getD 0

-- The cells of a grid where a mask is not zero, in row-major order. Both are spread over a whole.
def underMask (grid marks : Grid) (whole : List Nat) : List Float :=
  ((List.range (cellCount whole)).filter fun index => marks.spread index != 0).map grid.spread

variable {grid marks : Grid} {form markForm : Form} {whole : List Nat}

theorem Has.at?_eq (h : grid.Has form) (hspreads : Spreads form.shape whole) {index : Nat}
    (hindex : index < cellCount whole) : grid.at? index = some (grid.spread index) := by
  obtain ⟨x, hx⟩ := h.cell_total hspreads hindex
  unfold cell at hx
  unfold spread
  cases hthere : grid.at? index with
  | none =>
      rw [hthere] at hx
      cases hx
  | some y => rfl

theorem Has.cell_eq (h : grid.Has form) (hspreads : Spreads form.shape whole) {index : Nat}
    (hindex : index < cellCount whole) : grid.cell index = .ok (grid.spread index) := by
  rw [cell, h.at?_eq hspreads hindex]

theorem cell_filled (dtype : DataType) (x : Float) (index : Nat) :
    (filled dtype [] x).cell index = .ok (dtype.normalize x) := rfl

-- What a choice between a grid and a single value makes of them.
theorem Has.select_eq (h : grid.Has form) (hspreads : Spreads form.shape whole)
    (hmarks : marks.Has markForm) (hmarkSpreads : Spreads markForm.shape whole) (dtype : DataType)
    {x : Float} (hx : dtype.normalize x = x) :
    tabulate dtype whole (Graph.conditionalCell marks grid (filled dtype [] x)) =
      .ok ⟨dtype, whole, ((List.range (cellCount whole)).map fun index =>
        if marks.spread index != 0 then dtype.normalize (grid.spread index) else x).toArray⟩ := by
  have hcells := mapM_range_eq (f := Graph.conditionalCell marks grid (filled dtype [] x))
    (g := fun index => if marks.spread index != 0 then grid.spread index else x)
    fun index (hindex : index < cellCount whole) => by
      rw [Graph.conditionalCell, hmarks.cell_eq hmarkSpreads hindex, h.cell_eq hspreads hindex,
        cell_filled, hx]
      show (if _ then _ else _) = _
      split <;> rfl
  have hcount : ((List.range (cellCount whole)).map fun index =>
      if marks.spread index != 0 then grid.spread index else x).toArray.size = cellCount whole := by
    rw [List.size_toArray, List.length_map, List.length_range]
  rw [tabulate, hcells]
  show ofCells dtype whole _ = _
  rw [ofCells, if_pos hcount, List.map_toArray, List.map_map]
  congr 4
  funext index
  rw [Function.comp_apply, apply_ite dtype.normalize, hx]

-- A grid in which the other cells are replaced is reduced to what the cells under the mask are.
theorem foldl_select {op : ReductionOp} (hop : op.Maskable) (grid marks : Grid) (whole : List Nat)
    (dtype : DataType) :
    ((List.range (cellCount whole)).map fun index =>
      if marks.spread index != 0 then dtype.normalize (grid.spread index)
      else op.identity).toArray.foldl op.combine op.identity =
        ((grid.underMask marks whole).map dtype.normalize).foldl op.combine op.identity := by
  rw [List.foldl_toArray, List.foldl_map, underMask, List.map_map]
  exact ReductionOp.foldl_replaced hop _ _ _ .start

-- Only cells of a grid are under a mask.
theorem Has.mem_of_underMask (h : grid.Has form) (hspreads : Spreads form.shape whole) {x : Float}
    (hx : x ∈ grid.underMask marks whole) : x ∈ grid.cells := by
  obtain ⟨index, hindex, rfl⟩ := List.mem_map.mp hx
  have hlt := List.mem_range.mp (List.mem_filter.mp hindex).1
  have hthere := h.at?_eq hspreads hlt
  unfold at? at hthere
  split at hthere <;> exact Array.mem_of_getElem? hthere

end Grid

end MapAlgebra
