import MapAlgebra.Graph.Apply
import MapAlgebra.Proofs.Graph.Draft
import MapAlgebra.Proofs.Grid.Form

namespace MapAlgebra

-- A grid that has as many cells as its extents span, on no more axes than there may be.
structure Grid.Whole (grid : Grid) : Prop where
  cells : grid.cells.size = cellCount grid.shape
  rank : grid.shape.length ≤ maxRank

namespace Grid.Has

variable {grid : Grid} {form : Form}

theorem unary_total (h : grid.Has form) (op : UnaryOp) (dtype : DataType) :
    ∃ result, tabulate dtype form.shape (fun index => do
      return op.cell (← grid.cell index) grid.dtype) = .ok result ∧ result.Has ⟨dtype, form.shape⟩ :=
  tabulate_total dtype fun index hindex => by
    obtain ⟨x, hx⟩ := h.cell_total (Or.inr rfl) hindex
    exact ⟨_, bind_eq_ok.mpr ⟨x, hx, rfl⟩⟩

theorem random_total (h : grid.Has form) (dtype : DataType) :
    ∃ result, tabulate dtype form.shape (Graph.randomCell dtype grid) = .ok result ∧
      result.Has ⟨dtype, form.shape⟩ :=
  tabulate_total dtype fun index hindex => by
    obtain ⟨x, hx⟩ := h.cell_total (Or.inr rfl) hindex
    exact ⟨_, bind_eq_ok.mpr ⟨x, hx, rfl⟩⟩

theorem binary_total {left right : Grid} {a b : Form} (hleft : left.Has a) (hright : right.Has b)
    (op : BinaryOp) (dtype : DataType) {shape : List Nat} (ha : Spreads a.shape shape)
    (hb : Spreads b.shape shape) :
    ∃ result, tabulate dtype shape (fun index => do
      return op.cell (← left.cell index) (← right.cell index) left.dtype right.dtype) = .ok result ∧
        result.Has ⟨dtype, shape⟩ :=
  tabulate_total dtype fun index hindex => by
    obtain ⟨x, hx⟩ := hleft.cell_total ha hindex
    obtain ⟨y, hy⟩ := hright.cell_total hb hindex
    exact ⟨_, bind_eq_ok.mpr ⟨x, hx, bind_eq_ok.mpr ⟨y, hy, rfl⟩⟩⟩

theorem conditional_total {condition yes no : Grid} {a b c : Form} (hcondition : condition.Has a)
    (hyes : yes.Has b) (hno : no.Has c) (dtype : DataType) {shape : List Nat}
    (ha : Spreads a.shape shape) (hb : Spreads b.shape shape) (hc : Spreads c.shape shape) :
    ∃ result, tabulate dtype shape (Graph.conditionalCell condition yes no) = .ok result ∧
      result.Has ⟨dtype, shape⟩ :=
  tabulate_total dtype fun index hindex => by
    obtain ⟨x, hx⟩ := hcondition.cell_total ha hindex
    have hbranch : ∃ y, (if (x != 0) = true then yes.cell index else no.cell index) = .ok y := by
      by_cases hholds : (x != 0) = true
      · rw [if_pos hholds]
        exact hyes.cell_total hb hindex
      · rw [if_neg hholds]
        exact hno.cell_total hc hindex
    obtain ⟨y, hy⟩ := hbranch
    exact ⟨y, bind_eq_ok.mpr ⟨x, hx, hy⟩⟩

-- A neighbor may lie outside the grid, but its position has as many entries as there are axes.
theorem neighbor_total (h : grid.Has form) (hrank : form.shape.length ≤ maxRank) (offset : Coord)
    (dtype : DataType) :
    ∃ result, tabulate dtype form.shape (Graph.neighborCell grid offset) = .ok result ∧
      result.Has ⟨dtype, form.shape⟩ :=
  tabulate_total dtype fun index hindex => by
    obtain ⟨position, hposition, hlength⟩ := h.position_total hindex
    have haddress : Graph.addressOf offset position.length =
        .ok (offset.values.take position.length) := if_pos (hlength ▸ hrank)
    have hshifted : Graph.shifted position offset =
        .ok (position.zipWith (· + ·) (offset.values.take position.length)) :=
      bind_eq_ok.mpr ⟨_, haddress, rfl⟩
    obtain ⟨value, hvalue⟩ := h.get_total
      (position.zipWith (· + ·) (offset.values.take position.length))
    refine ⟨value.getD 0, bind_eq_ok.mpr ⟨position, hposition, ?_⟩⟩
    exact bind_eq_ok.mpr ⟨_, hshifted, bind_eq_ok.mpr ⟨value, hvalue, rfl⟩⟩

theorem bounded_total {rows columns : Grid} {a b : Form} (h : grid.Has form)
    (hrank : form.shape.length ≤ maxRank) (hrows : rows.Has a) (hcolumns : columns.Has b)
    (ha : Spreads a.shape form.shape) (hb : Spreads b.shape form.shape) (dtype : DataType) :
    ∃ result, tabulate dtype form.shape (Graph.boundedCell grid rows columns) = .ok result ∧
      result.Has ⟨dtype, form.shape⟩ :=
  tabulate_total dtype fun index hindex => by
    obtain ⟨row, hrow⟩ := hrows.cell_total ha hindex
    obtain ⟨column, hcolumn⟩ := hcolumns.cell_total hb hindex
    obtain ⟨value, hvalue⟩ := h.get_total (grid.shape.zipWith Graph.clampedTo [row, column])
    have hfits : ¬ maxRank < grid.shape.length := by
      rw [h.shape]
      omega
    refine ⟨value.getD 0, bind_eq_ok.mpr ⟨row, hrow, bind_eq_ok.mpr ⟨column, hcolumn, ?_⟩⟩⟩
    rw [if_neg hfits]
    exact bind_eq_ok.mpr ⟨value, hvalue, rfl⟩

theorem address_total (h : grid.Has form) (hrank : form.shape.length ≤ maxRank) (position : Coord) :
    Graph.addressOf position grid.shape.length = .ok (position.values.take form.shape.length) := by
  rw [h.shape]
  exact if_pos hrank

theorem accessed_total (h : grid.Has form) (hrank : form.shape.length ≤ maxRank) {position : Coord}
    (hwithin : Within form.shape (position.values.take form.shape.length)) :
    ∃ x, Graph.accessed grid position = .ok x := by
  obtain ⟨x, hx⟩ := h.get_within hwithin
  refine ⟨x, bind_eq_ok.mpr ⟨_, h.address_total hrank position, ?_⟩⟩
  exact bind_eq_ok.mpr ⟨some x, hx, rfl⟩

theorem updated_total {value : Grid} {single : Form} (h : grid.Has form)
    (hrank : form.shape.length ≤ maxRank) (dtype : DataType) {position : Coord}
    (hwithin : Within form.shape (position.values.take form.shape.length))
    (hvalue : value.Has single) (hsingle : single.shape = []) :
    ∃ result, Graph.updated grid dtype position value = .ok result ∧
      result.Has ⟨dtype, form.shape⟩ := by
  have hfirst : 0 < cellCount [] := Nat.one_pos
  obtain ⟨x, hx⟩ := hvalue.cell_total (Or.inl hsingle) hfirst
  have hinside : Within grid.shape (position.values.take form.shape.length) := by
    rw [h.shape]
    exact hwithin
  obtain ⟨index, hindex⟩ := offsetFrom_total hinside 0
  have hoffset : grid.offset (position.values.take form.shape.length) = some index := hindex
  have hlt := h.offset_lt hoffset
  refine ⟨_, bind_eq_ok.mpr ⟨_, h.address_total hrank position, ?_⟩, (h.cast dtype).set index x⟩
  simp only [hoffset, if_pos hlt]
  exact bind_eq_ok.mpr ⟨x, hx, rfl⟩

end Grid.Has

namespace Graph

def Meta.form (info : Meta) : Form := ⟨info.dtype, info.shape⟩

-- The form of what an operation makes of inputs of some forms, when all that it has to check about
-- them holds. The summaries of statistics are not read.
inductive Typed : NodeKind → List Form → Form → Prop
  | constant {form : Form} (value : Scalar) (hrank : form.shape.length ≤ maxRank) :
      Typed (.constant value) [] form
  | index {axis : Nat} {form : Form} (haxis : axis < form.shape.length)
      (hrank : form.shape.length ≤ maxRank) : Typed (.index axis) [] form
  | rand {seed form : Form} (hshape : seed.shape = form.shape) : Typed .rand [seed] form
  | cast {input form : Form} (hshape : input.shape = form.shape) : Typed .cast [input] form
  | unary {input form : Form} (op : UnaryOp) (hshape : input.shape = form.shape) :
      Typed (.unary op) [input] form
  | binary {left right form : Form} (op : BinaryOp) (hleft : Grid.Spreads left.shape form.shape)
      (hright : Grid.Spreads right.shape form.shape)
      (hshape : form.shape = left.shape ∨ form.shape = right.shape) :
      Typed (.binary op) [left, right] form
  | conditional {condition yes no form : Form}
      (hcondition : Grid.Spreads condition.shape form.shape)
      (hyes : Grid.Spreads yes.shape form.shape) (hno : Grid.Spreads no.shape form.shape)
      (hshape : form.shape = condition.shape ∨ form.shape = yes.shape ∨ form.shape = no.shape) :
      Typed .conditional [condition, yes, no] form
  | access {input form : Form} {position : Coord}
      (hwithin : Grid.Within input.shape (position.values.take input.shape.length))
      (hshape : form.shape = []) : Typed (.access position) [input] form
  | update {input value form : Form} {position : Coord}
      (hwithin : Grid.Within input.shape (position.values.take input.shape.length))
      (hvalue : value.shape = []) (hshape : input.shape = form.shape) :
      Typed (.update position) [input, value] form
  | neighbor {input form : Form} (offset : Coord) (hshape : input.shape = form.shape) :
      Typed (.neighbor offset) [input] form
  | boundedNeighbor {input rows columns form : Form}
      (hrows : Grid.Spreads rows.shape input.shape)
      (hcolumns : Grid.Spreads columns.shape input.shape) (hshape : input.shape = form.shape) :
      Typed .boundedNeighbor [input, rows, columns] form
  | convolution {weights : Weights} {input form : Form}
      (hweights : weights.values.size = weights.rows * weights.columns)
      (hplane : input.shape.length = 2) (hshape : input.shape = form.shape) :
      Typed (.convolution weights) [input] form
  | focal {weights : Weights} {input form : Form} (op : ReductionOp)
      (hweights : weights.values.size = weights.rows * weights.columns)
      (hplane : input.shape.length = 2) (hshape : input.shape = form.shape) :
      Typed (.focal weights op) [input] form
  | zonal {input form : Form} (op : ReductionOp) (hshape : form.shape = []) :
      Typed (.zonal op) [input] form
  | radial {input form : Form} (op : ReductionOp) (origin : Coord)
      (hplane : input.shape.length = 2) (hshape : input.shape = form.shape) :
      Typed (.radial op origin) [input] form
  | blockStats {input form : Form} (op : ReductionOp)
      (hrank : form.shape.length = input.shape.length) : Typed (.blockStats op) [input] form
  | stats {form : Form} (summaries : List Form) : Typed .stats (form :: summaries) form
  | barrier {form : Form} : Typed .barrier [form] form
  | identity {form : Form} : Typed .identity [form] form
  | read {form : Form} {resource : String} {grid : Grid} (hdtype : grid.dtype = form.dtype)
      (hshape : grid.shape = form.shape) : Typed (.read resource grid) [] form

-- What operations take for granted: an index counts along an axis that is there, a kernel has a
-- weight for every place, and nothing is divided by an empty axis or block.
def NodeKind.Grounded (kind : NodeKind) (info : Meta) : Prop :=
  match kind with
  | .index axis => axis < info.shape.length
  | .convolution weights | .focal weights _ => weights.values.size = weights.rows * weights.columns
  | .radial _ _ => 0 < cellCount info.shape → 0 ∉ info.shape
  | .blockStats _ => ∀ extents, 0 ∉ Grid.blockExtents extents info.block.extents
  | _ => True

namespace Typed

variable {kind : NodeKind} {forms : List Form} {form : Form}

theorem grounded {info : Meta} (h : Typed kind forms form) (hinfo : info.form = form) :
    kind.Grounded info := by
  subst hinfo
  cases h with
  | index haxis _ => exact haxis
  | convolution hweights _ _ => exact hweights
  | focal op hweights _ _ => exact hweights
  | radial op origin _ _ => exact Grid.zero_not_mem_of_lt
  | blockStats op _ => exact fun extents => Grid.zero_not_mem_blockExtents extents _
  | _ => trivial

-- No operation makes more axes than its inputs have, but for those that bring their own.
theorem rank (h : Typed kind forms form) (hranks : ∀ input ∈ forms, input.shape.length ≤ maxRank)
    (hread : ∀ resource grid, kind = .read resource grid → grid.Whole) :
    form.shape.length ≤ maxRank := by
  have hlike : ∀ {input : Form}, input ∈ forms → input.shape = form.shape →
      form.shape.length ≤ maxRank := by
    intro input hinput hshape
    rw [← hshape]
    exact hranks input hinput
  have hsingle : form.shape = [] → form.shape.length ≤ maxRank := by
    intro hshape
    rw [hshape]
    exact Nat.zero_le _
  cases h with
  | constant value hrank => exact hrank
  | index haxis hrank => exact hrank
  | access hwithin hshape => exact hsingle hshape
  | zonal op hshape => exact hsingle hshape
  | binary op hleft hright hshape =>
      obtain hshape | hshape := hshape
      · exact hlike (by simp) hshape.symm
      · exact hlike (by simp) hshape.symm
  | conditional hcondition hyes hno hshape =>
      obtain hshape | hshape | hshape := hshape
      · exact hlike (by simp) hshape.symm
      · exact hlike (by simp) hshape.symm
      · exact hlike (by simp) hshape.symm
  | blockStats op hrank =>
      rw [hrank]
      exact hranks _ List.mem_cons_self
  | stats summaries => exact hlike List.mem_cons_self rfl
  | barrier => exact hlike List.mem_cons_self rfl
  | identity => exact hlike List.mem_cons_self rfl
  | read hdtype hshape =>
      rw [← hshape]
      exact (hread _ _ rfl).rank
  | update hwithin hvalue hshape => exact hlike List.mem_cons_self hshape
  | boundedNeighbor hrows hcolumns hshape => exact hlike List.mem_cons_self hshape
  | convolution hweights hplane hshape => exact hlike List.mem_cons_self hshape
  | focal op hweights hplane hshape => exact hlike List.mem_cons_self hshape
  | radial op origin hplane hshape => exact hlike List.mem_cons_self hshape
  | neighbor offset hshape => exact hlike List.mem_cons_self hshape
  | unary op hshape => exact hlike List.mem_cons_self hshape
  | rand hshape => exact hlike List.mem_cons_self hshape
  | cast hshape => exact hlike List.mem_cons_self hshape

-- An operation whose inputs are as they should be never fails.
theorem apply_total {info : Meta} {grids : List Grid} (h : Typed kind forms form)
    (hinfo : info.form = form) (hgrids : List.Forall₂ Grid.Has grids forms)
    (hranks : ∀ input ∈ forms, input.shape.length ≤ maxRank)
    (hread : ∀ resource grid, kind = .read resource grid → grid.Whole) :
    ∃ grid, kind.apply info grids = .ok grid ∧ grid.Has form := by
  subst hinfo
  cases h with
  | constant value hrank => exact ⟨_, rfl, Grid.has_filled _ _ _⟩
  | index haxis hrank =>
      cases hgrids
      refine Grid.tabulate_total info.dtype fun index hindex => ?_
      obtain ⟨position, hposition, _⟩ :=
        (Grid.has_filled info.dtype info.shape 0).position_total hindex
      exact ⟨_, bind_eq_ok.mpr ⟨position, hposition, rfl⟩⟩
  | rand hshape =>
      obtain _ | ⟨hgrid, _ | _⟩ := hgrids
      obtain ⟨result, hresult, hhas⟩ := hgrid.random_total info.dtype
      rw [hshape] at hresult hhas
      exact ⟨result, hresult, hhas⟩
  | cast hshape =>
      obtain _ | ⟨hgrid, _ | _⟩ := hgrids
      have hhas := hgrid.cast info.dtype
      rw [hshape] at hhas
      exact ⟨_, rfl, hhas⟩
  | unary op hshape =>
      obtain _ | ⟨hgrid, _ | _⟩ := hgrids
      obtain ⟨result, hresult, hhas⟩ := hgrid.unary_total op info.dtype
      rw [hshape] at hresult hhas
      exact ⟨result, hresult, hhas⟩
  | binary op hleft hright _ =>
      obtain _ | ⟨hfirst, _ | ⟨hsecond, _ | _⟩⟩ := hgrids
      exact hfirst.binary_total hsecond op info.dtype hleft hright
  | conditional hcondition hyes hno _ =>
      obtain _ | ⟨hfirst, _ | ⟨hsecond, _ | ⟨hthird, _ | _⟩⟩⟩ := hgrids
      exact hfirst.conditional_total hsecond hthird info.dtype hcondition hyes hno
  | access hwithin _ =>
      obtain _ | ⟨hgrid, _ | _⟩ := hgrids
      obtain ⟨x, hx⟩ := hgrid.accessed_total (hranks _ List.mem_cons_self) hwithin
      exact ⟨_, bind_eq_ok.mpr ⟨_, rfl, bind_eq_ok.mpr ⟨x, hx, rfl⟩⟩, Grid.has_filled _ _ _⟩
  | update hwithin hvalue hshape =>
      obtain _ | ⟨hgrid, _ | ⟨hsecond, _ | _⟩⟩ := hgrids
      obtain ⟨result, hresult, hhas⟩ := hgrid.updated_total (hranks _ List.mem_cons_self)
        info.dtype hwithin hsecond hvalue
      rw [hshape] at hhas
      exact ⟨result, hresult, hhas⟩
  | neighbor offset hshape =>
      obtain _ | ⟨hgrid, _ | _⟩ := hgrids
      obtain ⟨result, hresult, hhas⟩ := hgrid.neighbor_total (hranks _ List.mem_cons_self) offset
        info.dtype
      rw [hshape] at hresult hhas
      exact ⟨result, hresult, hhas⟩
  | boundedNeighbor hrows hcolumns hshape =>
      obtain _ | ⟨hgrid, _ | ⟨hsecond, _ | ⟨hthird, _ | _⟩⟩⟩ := hgrids
      obtain ⟨result, hresult, hhas⟩ := hgrid.bounded_total (hranks _ List.mem_cons_self) hsecond
        hthird hrows hcolumns info.dtype
      rw [hshape] at hresult hhas
      exact ⟨result, hresult, hhas⟩
  | convolution _ hplane hshape =>
      obtain _ | ⟨hgrid, _ | _⟩ := hgrids
      obtain ⟨result, hresult, hhas⟩ := hgrid.focal_total hplane _ none info.dtype
      rw [hshape] at hhas
      exact ⟨result, hresult, hhas⟩
  | focal op _ hplane hshape =>
      obtain _ | ⟨hgrid, _ | _⟩ := hgrids
      obtain ⟨result, hresult, hhas⟩ := hgrid.focal_total hplane _ (some op) info.dtype
      rw [hshape] at hhas
      exact ⟨result, hresult, hhas⟩
  | zonal op _ =>
      obtain _ | ⟨hgrid, _ | _⟩ := hgrids
      exact ⟨_, rfl, Grid.has_filled _ _ _⟩
  | radial op origin hplane hshape =>
      obtain _ | ⟨hgrid, _ | _⟩ := hgrids
      obtain ⟨result, hresult, hhas⟩ := hgrid.radial_total hplane op origin info.dtype
      rw [hshape] at hhas
      exact ⟨result, hresult, hhas⟩
  | blockStats op _ =>
      obtain _ | ⟨hgrid, _ | _⟩ := hgrids
      exact hgrid.blocks_total op info.block info.shape info.dtype
  | stats summaries =>
      obtain _ | ⟨hgrid, _⟩ := hgrids
      exact ⟨_, rfl, hgrid⟩
  | barrier =>
      obtain _ | ⟨hgrid, _ | _⟩ := hgrids
      exact ⟨_, rfl, hgrid⟩
  | identity =>
      obtain _ | ⟨hgrid, _ | _⟩ := hgrids
      exact ⟨_, rfl, hgrid⟩
  | read hdtype hshape =>
      refine ⟨_, rfl, hdtype, hshape, ?_⟩
      rw [← hshape]
      exact (hread _ _ rfl).cells

end Typed

end Graph

end MapAlgebra
