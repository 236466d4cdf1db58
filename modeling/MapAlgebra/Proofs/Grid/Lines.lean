import MapAlgebra.Proofs.Grid.Blocks
import MapAlgebra.Proofs.Number.Halves
import Mathlib.Data.List.Range

namespace MapAlgebra.Grid

open Number (roundAway roundAway_div halved halved_natCast halved_neg)

-- How far a line has come along an axis after some of its steps, in exact arithmetic.
def exactly (distance steps step : Int) : Int := roundAway (distance * step / steps)

-- The same without a direction.
def advance (distance steps step : Nat) : Nat := (2 * (distance * step) / steps + 1) / 2

section Axis

variable {distance steps step : Nat}

theorem advance_zero (distance steps : Nat) : advance distance steps 0 = 0 := by
  rw [advance, Nat.mul_zero, Nat.mul_zero, Nat.zero_div]

theorem advance_last (distance : Nat) (hsteps : 0 < steps) :
    advance distance steps steps = distance := by
  rw [advance, ← Nat.mul_assoc, Nat.mul_div_cancel _ hsteps]
  omega

-- Along its longer axis a line moves with every step.
theorem advance_whole (hsteps : 0 < steps) (step : Nat) : advance steps steps step = step := by
  rw [advance, Nat.mul_left_comm, Nat.mul_div_cancel_left _ hsteps]
  omega

theorem advance_step (hdistance : distance ≤ steps) (step : Nat) :
    advance distance steps step ≤ advance distance steps (step + 1) ∧
      advance distance steps (step + 1) ≤ advance distance steps step + 1 := by
  obtain rfl | hsteps := Nat.eq_zero_or_pos steps
  · simp [advance]
  · have hnext : 2 * (distance * (step + 1)) = 2 * (distance * step) + 2 * distance := by ring
    have hlow : 2 * (distance * step) / steps ≤ 2 * (distance * (step + 1)) / steps :=
      Nat.div_le_div_right (by omega)
    -- at most two halves are added, whatever was left over before
    have hhigh : 2 * (distance * (step + 1)) / steps ≤ 2 * (distance * step) / steps + 2 := by
      rw [← Nat.add_mul_div_right _ _ hsteps]
      exact Nat.div_le_div_right (by omega)
    unfold advance
    omega

theorem advance_le (hstep : step ≤ steps) : advance distance steps step ≤ distance := by
  have hpart : 2 * (distance * step) / steps ≤ 2 * distance := by
    rw [← Nat.mul_assoc]
    exact Nat.div_le_of_le_mul (Nat.mul_comm steps _ ▸ Nat.mul_le_mul_left _ hstep)
  unfold advance
  omega

theorem exactly_eq (distance : Int) (hsteps : 0 < steps) (step : Nat) :
    exactly distance steps step = distance.sign * advance distance.natAbs steps step := by
  have hexactly : ∀ d : Int, exactly d steps step = halved ((2 * (d * step)).tdiv steps) := fun d => by
    have hvalue : (d * step / steps : ℚ) = (d * step : Int) / steps := by push_cast; rfl
    rw [← roundAway_div _ hsteps, ← hvalue]
    rfl
  have hforward : ∀ k : Nat, exactly k steps step = advance k steps step := fun k =>
    (hexactly k).trans (halved_natCast (2 * (k * step) / steps))
  obtain ⟨k, rfl | rfl⟩ := distance.eq_nat_or_neg
  · rw [hforward, Int.natAbs_natCast]
    obtain rfl | hk := Nat.eq_zero_or_pos k
    · simp [advance]
    · rw [Int.sign_natCast_of_ne_zero hk.ne', Int.one_mul]
  · have hmirrored : exactly (-k) steps step = -exactly k steps step := by
      rw [hexactly, hexactly, Int.neg_mul, Int.mul_neg, Int.neg_tdiv, halved_neg]
    rw [hmirrored, hforward, Int.natAbs_neg, Int.natAbs_natCast, Int.sign_neg]
    obtain rfl | hk := Nat.eq_zero_or_pos k
    · simp [advance]
    · rw [Int.sign_natCast_of_ne_zero hk.ne', Int.neg_mul, Int.one_mul]

end Axis

-- A walk from one point to another in which every step counts: it has no more points than it needs,
-- visits none of them twice, moves to a neighbour each time and makes no detour.
structure ProperLine (origin cell : Int × Int) (points : List (Int × Int)) : Prop where
  length : points.length = max (cell.1 - origin.1).natAbs (cell.2 - origin.2).natAbs + 1
  start : points.head? = some origin
  finish : points.getLast? = some cell
  distinct : points.Nodup
  near : points.IsChain fun p q => (q.1 - p.1).natAbs ≤ 1 ∧ (q.2 - p.2).natAbs ≤ 1
  between : ∀ p ∈ points, (min origin.1 cell.1 ≤ p.1 ∧ p.1 ≤ max origin.1 cell.1) ∧
    min origin.2 cell.2 ≤ p.2 ∧ p.2 ≤ max origin.2 cell.2

section Points

variable {origin distance : Int} {steps step : Nat}

theorem linePoint_eq (hdistance : distance.natAbs ≤ steps) (origin : Int) (step : Nat) :
    linePoint exactly origin distance steps step =
      origin + distance.sign * advance distance.natAbs steps step := by
  obtain rfl | hsteps := Nat.eq_zero_or_pos steps
  · obtain rfl : distance = 0 := by omega
    rw [linePoint, if_pos Int.natCast_zero, Int.sign_zero, Int.zero_mul, Int.add_zero]
  · rw [linePoint, if_neg (by omega), exactly_eq distance hsteps]

theorem linePoint_zero (hdistance : distance.natAbs ≤ steps) :
    linePoint exactly origin distance steps (0 : Nat) = origin := by
  rw [linePoint_eq hdistance, advance_zero, Int.natCast_zero, Int.mul_zero, Int.add_zero]

theorem linePoint_last (hdistance : distance.natAbs ≤ steps) :
    linePoint exactly origin distance steps steps = origin + distance := by
  rw [linePoint_eq hdistance]
  obtain rfl | hsteps := Nat.eq_zero_or_pos steps
  · obtain rfl : distance = 0 := by omega
    rw [Int.sign_zero, Int.zero_mul]
  · rw [advance_last _ hsteps, Int.sign_mul_natAbs]

theorem linePoint_near (hdistance : distance.natAbs ≤ steps) (origin : Int) (step : Nat) :
    (linePoint exactly origin distance steps (step + 1 : Nat) -
      linePoint exactly origin distance steps step).natAbs ≤ 1 := by
  rw [linePoint_eq hdistance, linePoint_eq hdistance]
  obtain ⟨hlow, hhigh⟩ := advance_step hdistance step
  rcases distance.sign_trichotomy with hsign | hsign | hsign <;> rw [hsign] <;> omega

theorem linePoint_between (hdistance : distance.natAbs ≤ steps) (hstep : step ≤ steps) (origin : Int) :
    min origin (origin + distance) ≤ linePoint exactly origin distance steps step ∧
      linePoint exactly origin distance steps step ≤ max origin (origin + distance) := by
  rw [linePoint_eq hdistance]
  have hadvance : advance distance.natAbs steps step ≤ distance.natAbs := advance_le hstep
  rcases lt_trichotomy distance 0 with hless | rfl | hmore
  · rw [Int.sign_eq_neg_one_of_neg hless]
    omega
  · rw [Int.sign_zero]
    omega
  · rw [Int.sign_eq_one_of_pos hmore]
    omega

-- No two steps come to the same point along the longer axis.
theorem linePoint_injective (hdistance : distance.natAbs = steps) {step step' : Nat}
    (hstep : step ≤ steps) (hstep' : step' ≤ steps)
    (h : linePoint exactly origin distance steps step =
      linePoint exactly origin distance steps step') : step = step' := by
  obtain rfl | hsteps := Nat.eq_zero_or_pos steps
  · omega
  · have hsign : distance.sign ≠ 0 := Int.sign_eq_zero_iff_zero.not.mpr (by omega)
    rw [linePoint_eq hdistance.le, linePoint_eq hdistance.le, hdistance, advance_whole hsteps,
      advance_whole hsteps] at h
    have hsame := Int.eq_of_mul_eq_mul_left hsign (Int.add_left_cancel h)
    exact_mod_cast hsame

end Points

theorem properLine (origin cell : Int × Int) : ProperLine origin cell (line exactly origin cell) := by
  obtain ⟨r, c⟩ := origin
  obtain ⟨r', c'⟩ := cell
  obtain ⟨steps, hsteps⟩ : ∃ steps, steps = max (r' - r).natAbs (c' - c).natAbs := ⟨_, rfl⟩
  have hrows : (r' - r).natAbs ≤ steps := by omega
  have hcolumns : (c' - c).natAbs ≤ steps := by omega
  have hline : line exactly (r, c) (r', c') = (List.range (steps + 1)).map fun (step : Nat) =>
      (linePoint exactly r (r' - r) steps step, linePoint exactly c (c' - c) steps step) := by
    rw [line, ← hsteps]
  have hback : r + (r' - r) = r' ∧ c + (c' - c) = c' := by omega
  rw [hline]
  constructor
  case length => rw [List.length_map, List.length_range, hsteps]
  case start =>
    rw [List.head?_map, List.head?_range, if_neg (Nat.succ_ne_zero steps), Option.map_some,
      linePoint_zero hrows, linePoint_zero hcolumns]
  case finish =>
    rw [List.getLast?_map, List.getLast?_range, if_neg (Nat.succ_ne_zero steps), Option.map_some,
      Nat.add_sub_cancel, linePoint_last hrows, linePoint_last hcolumns, hback.1, hback.2]
  case distinct =>
    refine List.Nodup.map_on (fun step hstep step' hstep' hsame => ?_) List.nodup_range
    rw [List.mem_range, Nat.lt_succ_iff] at hstep hstep'
    obtain ⟨hrow, hcolumn⟩ := Prod.mk.inj hsame
    by_cases hlonger : (r' - r).natAbs = steps
    · exact linePoint_injective hlonger hstep hstep' hrow
    · exact linePoint_injective (by omega) hstep hstep' hcolumn
  case near =>
    rw [List.isChain_map, List.isChain_range_succ]
    exact fun step _ => ⟨linePoint_near hrows r step, linePoint_near hcolumns c step⟩
  case between =>
    intro p hp
    obtain ⟨step, hstep, rfl⟩ := List.mem_map.mp hp
    rw [List.mem_range, Nat.lt_succ_iff] at hstep
    have hrow := linePoint_between hrows hstep r
    have hcolumn := linePoint_between hcolumns hstep c
    rw [hback.1] at hrow
    rw [hback.2] at hcolumn
    exact ⟨hrow, hcolumn⟩

-- Whether a point lies in a plane of some rows and columns.
def Inside (rows columns : Nat) (point : Int × Int) : Prop :=
  (0 ≤ point.1 ∧ point.1 < rows) ∧ 0 ≤ point.2 ∧ point.2 < columns

instance (rows columns : Nat) (point : Int × Int) : Decidable (Inside rows columns point) :=
  inferInstanceAs (Decidable (_ ∧ _))

-- The index of a point of a plane.
def pointIndex (columns : Nat) (point : Int × Int) : Nat := point.1.toNat * columns + point.2.toNat

def cellAt (grid : Grid) (columns : Nat) (point : Int × Int) : Float :=
  grid.cells.getD (pointIndex columns point) 0

-- The cells that a walk over a plane comes by, in the order in which it visits them.
def cellsAlong (grid : Grid) (rows columns : Nat) (points : List (Int × Int)) : List Float :=
  (points.filter fun point => Inside rows columns point).map (grid.cellAt columns)

section Planes

variable {grid : Grid} {dtype : DataType} {rows columns : Nat} {point : Int × Int}

theorem offset_inside (hshape : grid.shape = [rows, columns]) (h : Inside rows columns point) :
    grid.offset [point.1, point.2] = some (pointIndex columns point) := by
  obtain ⟨hrow, hcolumn⟩ := h
  rw [offset, hshape, offsetFrom, if_neg (by omega), offsetFrom, if_neg (by omega), offsetFrom,
    Nat.zero_mul, Nat.zero_add, pointIndex]

theorem offset_outside (hshape : grid.shape = [rows, columns]) (h : ¬ Inside rows columns point) :
    grid.offset [point.1, point.2] = none := by
  rw [Inside, not_and_or] at h
  rw [offset, hshape, offsetFrom]
  split
  · rfl
  · rw [offsetFrom, if_pos (by omega)]

theorem pointIndex_lt (h : Inside rows columns point) : pointIndex columns point < rows * columns := by
  obtain ⟨hrow, hcolumn⟩ := h
  calc pointIndex columns point < (point.1.toNat + 1) * columns := by
        rw [pointIndex, Nat.succ_mul]
        omega
    _ ≤ rows * columns := Nat.mul_le_mul_right _ (by omega)

theorem Has.get_inside (h : grid.Has ⟨dtype, [rows, columns]⟩) (hinside : Inside rows columns point) :
    grid.get [point.1, point.2] = .ok (some (grid.cellAt columns point)) := by
  have hlt : pointIndex columns point < grid.cells.size := by
    rw [h.cells, cellCount_cons, cellCount_cons]
    exact (pointIndex_lt hinside).trans_eq (congrArg _ (Nat.mul_one columns).symm)
  simp only [get, offset_inside h.shape hinside, Array.getElem?_eq_getElem hlt,
    cellAt, Array.getD_eq_getD_getElem?, Option.getD_some]

theorem Has.get_outside (h : grid.Has ⟨dtype, [rows, columns]⟩) (houtside : ¬ Inside rows columns point) :
    grid.get [point.1, point.2] = .ok none := by
  simp only [get, offset_outside h.shape houtside]

-- What lies outside of the grid is passed over.
theorem Has.alongLine_eq (h : grid.Has ⟨dtype, [rows, columns]⟩) (op : ReductionOp)
    (points : List (Int × Int)) : grid.alongLine op points =
      .ok ((grid.cellsAlong rows columns points).foldl op.combine op.identity) := by
  rw [cellsAlong, List.foldl_map, List.foldl_filter, alongLine]
  refine foldlM_eq_foldl (fun point _ total => ?_) _
  by_cases hinside : Inside rows columns point
  · rw [h.get_inside hinside, if_pos (by simpa using hinside)]
    rfl
  · rw [h.get_outside hinside, if_neg (by simpa using hinside)]
    rfl

-- The index of a point gives the point back.
theorem point_of_pointIndex (h : Inside rows columns point) :
    (((pointIndex columns point / columns : Nat) : Int),
      ((pointIndex columns point % columns : Nat) : Int)) = point := by
  obtain ⟨hrow, hcolumn⟩ := h
  have hlt : point.2.toNat < columns := by omega
  have hdiv : pointIndex columns point / columns = point.1.toNat := by
    rw [pointIndex, Nat.mul_comm, Nat.mul_add_div (by omega), Nat.div_eq_of_lt hlt, Nat.add_zero]
  have hmod : pointIndex columns point % columns = point.2.toNat := by
    rw [pointIndex, Nat.mul_comm, Nat.mul_add_mod, Nat.mod_eq_of_lt hlt]
  rw [hdiv, hmod, Int.toNat_of_nonneg hrow.1, Int.toNat_of_nonneg hcolumn.1]

theorem Has.radialBy_spec (h : grid.Has ⟨dtype, [rows, columns]⟩)
    (interpolate : Int → Int → Int → Int) (op : ReductionOp) (origin : Coord) (dtype' : DataType) :
    ∃ result, grid.radialBy interpolate op origin dtype' = .ok result ∧
      result.Has ⟨dtype', [rows, columns]⟩ ∧
      ∀ cell, Inside rows columns cell → result.get [cell.1, cell.2] =
        .ok (some (dtype'.normalize ((grid.cellsAlong rows columns
          (line interpolate (origin.row, origin.column) cell)).foldl op.combine op.identity))) := by
  obtain ⟨total, htotal⟩ : ∃ total : Int × Int → Float, ∀ cell, total cell =
      (grid.cellsAlong rows columns
        (line interpolate (origin.row, origin.column) cell)).foldl op.combine op.identity :=
    ⟨_, fun _ => rfl⟩
  have hcount : grid.size = cellCount [rows, columns] := h.cells
  have hplane : cellCount [rows, columns] = rows * columns :=
    congrArg (rows * ·) (Nat.mul_one columns)
  have htotals : (Array.range grid.size).mapM (fun (index : Nat) =>
      grid.alongLine op (line interpolate (origin.row, origin.column)
        ((index / columns : Nat), (index % columns : Nat)))) =
      .ok ((List.range grid.size).map fun (index : Nat) =>
        total ((index / columns : Nat), (index % columns : Nat))).toArray :=
    mapM_range_eq fun index _ => by rw [h.alongLine_eq, htotal]
  have hsize : ((List.range grid.size).map fun (index : Nat) =>
      total ((index / columns : Nat), (index % columns : Nat))).toArray.size =
        cellCount [rows, columns] := by
    rw [List.size_toArray, List.length_map, List.length_range, hcount]
  obtain ⟨result, hresult, hform⟩ := ofCells_total dtype' hsize
  refine ⟨result, ?_, hform, fun cell hcell => ?_⟩
  · unfold radialBy
    rw [h.shape]
    exact bind_eq_ok.mpr ⟨_, htotals, hresult⟩
  · have hlt : pointIndex columns cell < grid.size := by
      rw [hcount, hplane]
      exact pointIndex_lt hcell
    have hthere : result.cells[pointIndex columns cell]? = some (dtype'.normalize (total cell)) := by
      rw [cells_of_ofCells hresult, Array.getElem?_map, List.getElem?_toArray, List.getElem?_map,
        List.getElem?_range hlt, Option.map_some, Option.map_some, point_of_pointIndex hcell]
    simp only [get, offset_inside hform.shape hcell, hthere, htotal]

-- A walk that makes no detour leaves a plane neither on its way nor at its ends.
theorem ProperLine.inside {origin cell : Int × Int} {points : List (Int × Int)}
    (h : ProperLine origin cell points) (horigin : Inside rows columns origin)
    (hcell : Inside rows columns cell) : ∀ p ∈ points, Inside rows columns p := by
  intro p hp
  have hbetween := h.between p hp
  unfold Inside at *
  omega

theorem cellsAlong_inside {points : List (Int × Int)} (h : ∀ p ∈ points, Inside rows columns p) :
    grid.cellsAlong rows columns points = points.map (grid.cellAt columns) := by
  rw [cellsAlong, List.filter_eq_self.mpr fun p hp => decide_eq_true (h p hp)]

end Planes

section Doubles

open Number (IsWhole near_ofInt wholePart_round_div)

-- On short lines doubles lose nothing that the rounding would see.
theorem interpolated_eq {distance : Int} {steps step : Nat} (hdistance : distance.natAbs ≤ steps)
    (hstep : step ≤ steps) (hpositive : 0 < steps) (hsteps : steps ≤ 2 ^ 26) :
    interpolated distance steps step = exactly distance steps step := by
  have hwhole : ∀ {n : Int}, n.natAbs ≤ 2 ^ 26 → IsWhole (Number.ofInt n) n := fun hn =>
    (near_ofInt (hn.trans (by decide))).isWhole (hn.trans (by decide))
  have hproduct : (distance * step).natAbs ≤ 2 ^ 52 := by
    rw [Int.natAbs_mul, Int.natAbs_natCast]
    exact (Nat.mul_le_mul (hdistance.trans hsteps) (hstep.trans hsteps)).trans (by decide)
  have hmul := (hwhole (hdistance.trans hsteps)).mul
    (hwhole (n := step) (by rw [Int.natAbs_natCast]; exact hstep.trans hsteps))
  have hsum : IsWhole _ (distance * step) := hmul.isWhole (hproduct.trans (by decide))
  have hround := wholePart_round_div hsum (by omega)
    (hwhole (n := steps) (by rwa [Int.natAbs_natCast])) hpositive
  rw [interpolated, hround, exactly]
  push_cast
  rfl

theorem line_interpolated {origin cell : Int × Int} (hrows : (cell.1 - origin.1).natAbs ≤ 2 ^ 26)
    (hcolumns : (cell.2 - origin.2).natAbs ≤ 2 ^ 26) :
    line interpolated origin cell = line exactly origin cell := by
  have hpoint : ∀ {start distance : Int} {steps step : Nat}, distance.natAbs ≤ steps →
      step ≤ steps → steps ≤ 2 ^ 26 → linePoint interpolated start distance steps step =
        linePoint exactly start distance steps step := fun hdistance hstep hsteps => by
    unfold linePoint
    split
    · rfl
    · rw [interpolated_eq hdistance hstep (by omega) hsteps]
  refine List.map_congr_left fun step hstep => ?_
  rw [List.mem_range, Nat.lt_succ_iff] at hstep
  rw [hpoint (Nat.le_max_left _ _) hstep (Nat.max_le.mpr ⟨hrows, hcolumns⟩),
    hpoint (Nat.le_max_right _ _) hstep (Nat.max_le.mpr ⟨hrows, hcolumns⟩)]

-- Whether all cells of a plane are near enough to an origin for lines in doubles.
def NearOrigin (rows columns : Nat) (origin : Coord) : Prop :=
  ∀ cell, Inside rows columns cell →
    (cell.1 - origin.row).natAbs ≤ 2 ^ 26 ∧ (cell.2 - origin.column).natAbs ≤ 2 ^ 26

theorem inside_of_lt {rows columns index : Nat} (h : index < rows * columns) :
    Inside rows columns ((index / columns : Nat), (index % columns : Nat)) := by
  have hcolumns : 0 < columns := Nat.pos_of_mul_pos_left (Nat.zero_lt_of_lt h)
  have hrow := Nat.div_lt_of_lt_mul ((Nat.mul_comm rows columns) ▸ h)
  have hcolumn := Nat.mod_lt index hcolumns
  exact ⟨⟨Int.natCast_nonneg _, Int.ofNat_lt.mpr hrow⟩, Int.natCast_nonneg _, Int.ofNat_lt.mpr hcolumn⟩

theorem Has.radial_eq {grid : Grid} {dtype : DataType} {rows columns : Nat}
    (h : grid.Has ⟨dtype, [rows, columns]⟩) (op : ReductionOp) {origin : Coord}
    (hnear : NearOrigin rows columns origin) (dtype' : DataType) :
    grid.radial op origin dtype' = grid.radialBy exactly op origin dtype' := by
  have hcount : grid.size = rows * columns :=
    h.cells.trans (congrArg (rows * ·) (Nat.mul_one columns))
  unfold radial radialBy
  rw [h.shape]
  simp only [Array.mapM_eq_mapM_toList, Array.toList_range]
  rw [mapM_congr fun index hindex => ?_]
  rw [List.mem_range, hcount] at hindex
  obtain ⟨hrow, hcolumn⟩ := hnear _ (inside_of_lt hindex)
  rw [line_interpolated hrow hcolumn]

end Doubles

-- A scan reduces, for every cell of a plane, what lies on a proper line from the origin to the cell,
-- read in exact arithmetic. All of the line counts when the origin lies in the plane, and otherwise
-- the part of it that does. In doubles nothing else comes out unless the origin is far away.
theorem radial_walks_lines {grid : Grid} {dtype : DataType} {rows columns : Nat}
    (h : grid.Has ⟨dtype, [rows, columns]⟩) (op : ReductionOp) (origin : Coord) (dtype' : DataType) :
    ∃ result, grid.radialBy exactly op origin dtype' = .ok result ∧
      (NearOrigin rows columns origin → grid.radial op origin dtype' = .ok result) ∧
      result.Has ⟨dtype', [rows, columns]⟩ ∧
      ∀ cell, Inside rows columns cell →
        ∃ points, points = line exactly (origin.row, origin.column) cell ∧
          ProperLine (origin.row, origin.column) cell points ∧
          result.get [cell.1, cell.2] = .ok (some (dtype'.normalize
            ((grid.cellsAlong rows columns points).foldl op.combine op.identity))) ∧
          (Inside rows columns (origin.row, origin.column) →
            (∀ p ∈ points, Inside rows columns p) ∧
            grid.cellsAlong rows columns points = points.map (grid.cellAt columns)) := by
  obtain ⟨result, hresult, hform, hcells⟩ := h.radialBy_spec exactly op origin dtype'
  refine ⟨result, hresult, fun hnear => (h.radial_eq op hnear dtype').trans hresult, hform,
    fun cell hcell => ⟨_, rfl, properLine _ cell, hcells cell hcell, fun horigin => ?_⟩⟩
  have hinside := (properLine (origin.row, origin.column) cell).inside horigin hcell
  exact ⟨hinside, cellsAlong_inside hinside⟩

-- Two rows of three cells.
def plane : Grid := ⟨.f64, [2, 3], #[1, 2, 3, 4, 5, 6]⟩

-- From above the plane down to the middle of its second row. On the way the line comes by a half,
-- which it leaves behind.
theorem plane_below_origin : ∃ result, plane.radial .sum ⟨-1, 0⟩ .f64 = .ok result ∧
    result.get [1, 1] = .ok (some 7) := by
  have hplane : plane.Has ⟨.f64, [2, 3]⟩ := ⟨rfl, rfl, rfl⟩
  have hnear : NearOrigin 2 3 ⟨-1, 0⟩ := fun cell hcell => by
    unfold Inside at hcell
    dsimp only
    omega
  obtain ⟨result, -, hresult, -, hcells⟩ := radial_walks_lines hplane .sum ⟨-1, 0⟩ .f64
  obtain ⟨points, hpoints, -, hcell, -⟩ := hcells (1, 1) (by decide)
  have hline : line exactly (-1, 0) (1, 1) = [(-1, 0), (0, 1), (1, 1)] := by decide +kernel
  have htotal : (plane.cellsAlong 2 3 [(-1, 0), (0, 1), (1, 1)]).foldl
      ReductionOp.sum.combine ReductionOp.sum.identity = 7 := by decide +kernel
  rw [hpoints, hline, htotal] at hcell
  exact ⟨result, hresult hnear, hcell⟩

end MapAlgebra.Grid
