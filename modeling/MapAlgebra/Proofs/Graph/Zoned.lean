import MapAlgebra.Proofs.Graph.Addressed
import MapAlgebra.Proofs.Graph.Lasting
import MapAlgebra.Proofs.Graph.Hands
import MapAlgebra.Proofs.Grid.Masked

namespace MapAlgebra.Graph

variable {state : State} {tally : Tally} {raster : Raster} {node : Address}

-- What is noted about a single value of a type, and the value.
def IsTotal (dtype : DataType) (total : Float) (info : Meta) (grid : Except MapError Grid) : Prop :=
  info.dtype = dtype ∧ info.shape = [] ∧ grid = .ok (.filled dtype [] total)

section Masks

variable {mask : Raster} {marker : Address} {info markInfo : Meta} {marks grid : Grid}
  {whole : List Nat}

-- Cells of a node are kept where a mask is not zero, and replaced by a number elsewhere.
theorem hands_select {number : Scalar} {cells : Grid} (hlooped : Looped state)
    (hbacks : Backs state tally) (hnonneg : 0 ≤ tally) (hmask : mask.node = some marker)
    (hraster : raster.node = some node) (hmarks : state.valueOf marker = ⟨.ok markInfo, .ok marks⟩)
    (hgrid : state.valueOf node = ⟨.ok info, .ok grid⟩) (hdtype : number.dtype = info.dtype)
    (hconvert : number.convert number.dtype = .ok number)
    (hwhole : broadcast markInfo.shape info.shape = .ok whole)
    (hcells : Grid.tabulate info.dtype whole
      (conditionalCell marks grid (.filled number.dtype [] number.toFloat)) = .ok cells) :
    Hands state tally (simulator.select (.node mask) (.node raster) (.host number)) Operand.node
      (fun noted found => noted.dtype = info.dtype ∧ found = .ok cells) := by
  obtain ⟨-, -, hlive, -⟩ := live_of_valueOf hlooped hmarks
  obtain ⟨-, -, hlive', -⟩ := live_of_valueOf hlooped hgrid
  have hfirst := Builds.acquire state marker
  have hsecond := hfirst.trans (Builds.acquire (state.acquire marker) node)
  have hlooped₂ := hsecond.looped hlooped
  have hbacks₂ : Backs ((state.acquire marker).acquire node) (tally + mask.held + raster.held) := by
    rw [Raster.held_of_node hmask, Raster.held_of_node hraster]
    exact (hbacks.acquire hlive).acquire (contains_acquire hlive' marker)
  have hnonneg₁ := add_nonneg hnonneg mask.held_nonneg
  have hnonneg₂ := add_nonneg hnonneg₁ raster.held_nonneg
  refine .promoting hlooped hnonneg hmask (.promoting (hfirst.looped hlooped) hnonneg₁ hraster ?_)
  refine (Hands.scalar hlooped₂ hbacks₂ hconvert).bind hlooped₂ hnonneg₂ (fun _ => rfl) ?_
  intro other middle hlooped₃ hhanded
  obtain ⟨hbuilds, hbacks₃, id, _, _, hother, hvalue, rfl, rfl⟩ := hhanded
  -- both nodes are still held, so they have kept their values
  have hkept : ∀ {held : Raster} {id value}, held.node = some id → state.nodes.contains id = true →
      held.held ≤ tally + mask.held + raster.held + other.held → state.valueOf id = value →
      middle.valueOf id = value := fun hnode hthere hheld hvalue =>
    ((hsecond.trans hbuilds).valueOf_held hlooped hbacks₃ hnode hheld hthere).trans hvalue
  have hmaskHeld : mask.held ≤ tally + mask.held + raster.held + other.held :=
    le_add_of_le_of_nonneg (le_add_of_le_of_nonneg (le_add_of_nonneg_left hnonneg)
      raster.held_nonneg) other.held_nonneg
  have hrasterHeld : raster.held ≤ tally + mask.held + raster.held + other.held :=
    le_add_of_le_of_nonneg (le_add_of_nonneg_left hnonneg₁) other.held_nonneg
  have hpromote : info.dtype.promote number.dtype = info.dtype := by
    rw [hdtype, DataType.promote_self]
  have hchosen := hands_conditional hlooped₃ hbacks₃ hmask hraster hother
    (hkept hmask hlive hmaskHeld hmarks) (hkept hraster hlive' hrasterHeld hgrid) hvalue rfl hwhole
    (hpromote.symm ▸ hcells)
  exact hchosen.mono fun noted found hgood => ⟨hgood.1 ▸ hpromote, hgood.2⟩

-- All cells of a node are brought down to one value.
theorem hands_zonal (hlooped : Looped state) (hbacks : Backs state tally)
    (hraster : raster.node = some node) (hgrid : state.valueOf node = ⟨.ok info, .ok grid⟩)
    (op : ReductionOp) : Hands state tally (simulator.zonal raster op) id
      (IsTotal (op.resultType info.dtype) (grid.cells.foldl op.combine op.identity)) := by
  obtain ⟨hinfo, hcells, hlive, -⟩ := live_of_valueOf hlooped hgrid
  have hdraft : state.draft (.zonal node op) =
      .ok ⟨.zonal op, info.derived (op.resultType info.dtype) [], none⟩ :=
    bind_eq_ok.mpr ⟨info, hinfo, rfl⟩
  have hgrids : [node].mapM state.gridOf = .ok [grid] := by
    rw [List.mapM_cons, hcells]
    rfl
  rw [Engine.zonal, derive_eq (by rw [Raster.require, hraster])]
  have hmade := Hands.make hlooped hbacks hdraft (List.forall_mem_singleton.mpr hlive) rfl hgrids rfl
  refine hmade.mono fun noted found hgood => ?_
  obtain ⟨rfl, rfl⟩ := hgood
  exact ⟨rfl, rfl, rfl⟩

theorem zonalMasked_eq (hraster : raster.node = some node) (hinfo : state.info node = .ok info)
    (mask : Raster) (op : ReductionOp) : simulator.zonalMasked raster (some mask) op state =
      (do
        let neutral ← Scalar.ofFloat op.identity info.dtype
        let masked ← simulator.select (.node mask) (.node raster) (.host neutral)
        simulator.lending (← masked.toRaster) fun masked => simulator.zonal masked op :
          Run State Raster) state := by
  have hask : raster.ask simulator.dataType state = (.ok info.dtype, state) := by
    rw [ask_eq hraster]
    show ((do return (← state.info node).dtype), state) = _
    rw [hinfo]
    rfl
  rw [Engine.zonalMasked, run_bind, hask]

-- The cells under a mask are brought down to one value.
theorem hands_zonalMasked {op : ReductionOp} (hop : op.Maskable) (hlooped : Looped state)
    (hbacks : Backs state tally) (hnonneg : 0 ≤ tally) (hmask : mask.node = some marker)
    (hraster : raster.node = some node) (hmarks : state.valueOf marker = ⟨.ok markInfo, .ok marks⟩)
    (hgrid : state.valueOf node = ⟨.ok info, .ok grid⟩)
    (hmarkCells : marks.Has ⟨marks.dtype, markInfo.shape⟩)
    (hcells : grid.Has ⟨grid.dtype, info.shape⟩)
    (hwhole : broadcast markInfo.shape info.shape = .ok whole) (htyped : info.dtype ≠ .untyped) :
    Hands state tally (simulator.zonalMasked raster (some mask) op) id
      (IsTotal (op.resultType info.dtype)
        (((grid.underMask marks whole).map info.dtype.normalize).foldl op.combine op.identity)) := by
  obtain ⟨neutral, hneutral, hdtype, hconvert, hidentity⟩ := op.identity_scalar hop htyped
  obtain ⟨hmarkSpreads, hspreads, -⟩ := broadcast_eq_ok hwhole
  have hselected := hcells.select_eq hspreads hmarkCells hmarkSpreads info.dtype
    (op.normalize_identity hop info.dtype)
  rw [← hdtype] at hconvert
  rw [← Grid.foldl_select hop]
  have hselect := hands_select hlooped hbacks hnonneg hmask hraster hmarks hgrid hdtype hconvert hwhole
    (by rw [hdtype, hidentity]; exact hselected)
  have hrun := zonalMasked_eq hraster (live_of_valueOf hlooped hgrid).1 mask op
  rw [hneutral] at hrun
  refine .of_eq hrun (hselect.bind hlooped hnonneg (fun _ => rfl) ?_)
  intro masked middle hlooped' hhanded
  obtain ⟨-, hbacks', id, noted, _, hnode, hvalue, hnoted, rfl⟩ := hhanded
  have hzonal := hands_zonal hlooped' hbacks' hnode hvalue op
  rwa [hnoted] at hzonal

end Masks

-- A handle on a single value of a type.
def Totals (state : State) (raster : Raster) (dtype : DataType) (total : Float) : Prop :=
  ∃ node info, raster.node = some node ∧ state.info node = .ok info ∧ info.dtype = dtype ∧
    info.shape = [] ∧ state.grid node = .ok (.filled dtype [] total)

theorem Hands.totals {run : Run State Raster} {dtype : DataType} {total : Float}
    (hlooped : Looped state) (h : Hands state 0 run id (IsTotal dtype total)) :
    ∃ made after, run state = (.ok made, after) ∧ Totals after made dtype total := by
  obtain ⟨made, after, hrun, hbuilds, -, node, info, _, hnode, hvalue, hdtype, hshape, rfl⟩ := h
  refine ⟨made, after, hrun, node, info, hnode, congrArg Value.info hvalue, hdtype, hshape, ?_⟩
  rw [← State.gridOf_eq_grid (hbuilds.looped hlooped)]
  exact congrArg Value.grid hvalue

-- A reduction under a mask brings down to one value what the type of the raster makes of the cells
-- where the mask is not zero, in row-major order, and no other cells. These are the cells themselves
-- if they are values of the type that is noted about them. Without a mask all cells are reduced.
theorem masked_cells_reduced {state : State} (h : Reachable state) {raster mask : Raster}
    {node marker : Address} {info markInfo : Meta} {grid marks : Grid} {whole : List Nat}
    {op : ReductionOp} (hop : op.Maskable) (hnode : raster.node = some node)
    (hinfo : state.info node = .ok info) (hgrid : state.grid node = .ok grid)
    (hcells : grid.Has ⟨grid.dtype, info.shape⟩) (hmask : mask.node = some marker)
    (hmarkInfo : state.info marker = .ok markInfo) (hmarks : state.grid marker = .ok marks)
    (hmarkCells : marks.Has ⟨marks.dtype, markInfo.shape⟩)
    (hwhole : broadcast markInfo.shape info.shape = .ok whole) :
    (info.dtype ≠ .untyped →
      ∃ made after, simulator.zonalMasked raster (some mask) op state = (.ok made, after)) ∧
    (∀ made after, simulator.zonalMasked raster (some mask) op state = (.ok made, after) →
      Totals after made (op.resultType info.dtype)
        (((grid.underMask marks whole).map info.dtype.normalize).foldl op.combine op.identity) ∧
      ((∀ x ∈ grid.cells, info.dtype.normalize x = x) →
        Totals after made (op.resultType info.dtype)
          ((grid.underMask marks whole).foldl op.combine op.identity)) ∧
      (grid.underMask marks whole = [] →
        Totals after made (op.resultType info.dtype) op.identity)) ∧
    ∃ made after, simulator.zonalMasked raster none op state = (.ok made, after) ∧
      Totals after made (op.resultType info.dtype)
        (grid.cells.toList.foldl op.combine op.identity) := by
  have hlooped := h.looped
  have hbacks : Backs state 0 := fun _ => Int.natCast_nonneg _
  have hvalue : state.valueOf node = ⟨.ok info, .ok grid⟩ := by
    rw [State.valueOf, hinfo, State.gridOf_eq_grid hlooped, hgrid]
  have hmarkValue : state.valueOf marker = ⟨.ok markInfo, .ok marks⟩ := by
    rw [State.valueOf, hmarkInfo, State.gridOf_eq_grid hlooped, hmarks]
  obtain ⟨hmarkSpreads, hspreads, -⟩ := broadcast_eq_ok hwhole
  have hmasked (htyped : info.dtype ≠ .untyped) :=
    (hands_zonalMasked hop hlooped hbacks (le_refl 0) hmask hnode hmarkValue hvalue hmarkCells hcells
      hwhole htyped).totals hlooped
  refine ⟨fun htyped => ?_, fun made after hcall => ?_, ?_⟩
  · obtain ⟨made, after, hcall, -⟩ := hmasked htyped
    exact ⟨made, after, hcall⟩
  · have htyped : info.dtype ≠ .untyped := by
      intro huntyped
      rw [zonalMasked_eq hnode hinfo, huntyped] at hcall
      cases hcall
    obtain ⟨made', after', hcall', htotals⟩ := hmasked htyped
    obtain ⟨hmade, rfl⟩ := Prod.mk.inj (hcall'.symm.trans hcall)
    obtain rfl := Except.ok.inj hmade
    refine ⟨htotals, fun hsettled => ?_, fun hnone => ?_⟩
    · have hsame : (grid.underMask marks whole).map info.dtype.normalize =
          grid.underMask marks whole :=
        (List.map_congr_left fun x hx => hsettled x (hcells.mem_of_underMask hspreads hx)).trans
          (List.map_id _)
      rwa [hsame] at htotals
    · rwa [hnone] at htotals
  · rw [Array.foldl_toList]
    exact (hands_zonal hlooped hbacks hnode hvalue op).totals hlooped

-- Values, and a mask of fractions, of two cells each.
def masking : State :=
  { State.empty 5 none with
    store := ⟨[("a", ⟨.s32, [2], #[300, -100]⟩), ("m", ⟨.f64, [2], #[0, 0.5]⟩)], [], none⟩ }.afterCalls
    [.construct (.read "a"), .acquire 1, .construct (.read "m"), .acquire 2]

-- Only the second cell is under the mask.
theorem second_cell_reduced :
    ∃ made after, simulator.zonalMasked (.on 1 (by decide)) (some (.on 2 (by decide))) .sum masking =
        (.ok made, after) ∧ Totals after made .s32 (-100) := by
  have hreachable : Reachable masking := ((Reachable.empty 5 none).restock _).calls _ (by decide)
  have hnode : (Raster.on 1 (by decide)).node = some 1 := rfl
  have hmask : (Raster.on 2 (by decide)).node = some 2 := rfl
  have hinfo : masking.info 1 = .ok ⟨.s32, [2], .usual, .unset, .unset, .input⟩ := rfl
  have hmarkInfo : masking.info 2 = .ok ⟨.f64, [2], .usual, .unset, .unset, .input⟩ := rfl
  have hgrid : masking.grid 1 = .ok ⟨.s32, [2], #[300, -100]⟩ := rfl
  have hmarks : masking.grid 2 = .ok ⟨.f64, [2], #[0, 0.5]⟩ := rfl
  have hwhole : broadcast [2] [2] = .ok [2] := rfl
  have hop : ReductionOp.Maskable .sum := by decide
  obtain ⟨htyped, hmasked, -⟩ := masked_cells_reduced hreachable hop hnode hinfo hgrid ⟨rfl, rfl, rfl⟩
    hmask hmarkInfo hmarks ⟨rfl, rfl, rfl⟩ hwhole
  obtain ⟨made, after, hcall⟩ := htyped (by decide)
  have hsettled : ∀ x ∈ (#[300, -100] : Array Float), DataType.s32.normalize x = x := by
    decide +kernel
  have htotals := (hmasked made after hcall).2.1 hsettled
  have htotal : (Grid.underMask ⟨.s32, [2], #[300, -100]⟩ ⟨.f64, [2], #[0, 0.5]⟩ [2]).foldl
      ReductionOp.sum.combine ReductionOp.sum.identity = -100 := by decide +kernel
  rw [htotal] at htotals
  exact ⟨made, after, hcall, htotals⟩

-- A loop without rounds that is noted to have bytes, as its body gives them, but hands out the values
-- that it starts with. All of its cells are under the mask.
def drifting : State :=
  { State.empty 5 none with
    store := ⟨[("a", ⟨.s32, [2], #[300, -100]⟩), ("m", ⟨.b8, [2], #[1, 1]⟩)], [], none⟩ }.afterCalls
    [.construct (.read "a"), .acquire 1, .construct (.constant (.bool false) (.single .b8)),
      .acquire 2, .loopStart, .loopCondition 2, .loopReplay .first, .construct (.cast 1 .u8),
      .acquire 3, .construct (.constant (.bool false) (.single .b8)), .acquire 4, .loopCondition 4,
      .loopReplay .second, .construct (.cast 3 .u8),
      .construct (.constant (.bool false) (.single .b8)), .loopAssemble, .acquire 9,
      .construct (.read "m"), .acquire 10]

-- The cells add up to two hundred, as they do without a mask. With the mask they are cut to bytes
-- before they are added.
theorem drifting_sum_differs :
    Reachable drifting ∧
      (drifting.info 9).toOption.map (fun info => (info.dtype, info.shape)) = some (.u8, [2]) ∧
      (drifting.info 10).toOption.map (·.shape) = some [2] ∧
      ∃ grid marks, drifting.grid 9 = .ok grid ∧ drifting.grid 10 = .ok marks ∧ grid.shape = [2] ∧
        marks.shape = [2] ∧ marks.cells = #[1, 1] ∧
        (grid.underMask marks [2]).foldl ReductionOp.sum.combine ReductionOp.sum.identity = 200 ∧
        ∃ made after result, simulator.zonalMasked (.on 9 (by decide)) (some (.on 10 (by decide)))
            .sum drifting = (.ok made, after) ∧ made.node = some 13 ∧ after.grid 13 = .ok result ∧
          result.cells = #[255] ∧ (Grid.filled .u8 [] 200).cells = #[200] := by
  have hreachable : Reachable drifting := ((Reachable.empty 5 none).restock _).calls _ (by decide)
  have hgrid : (drifting.grid 9).toOption.map
      (fun grid => (grid.dtype, grid.shape, grid.cells)) = some (.s32, [2], #[300, -100]) := by
    decide +kernel
  have hcall : (simulator.zonalMasked (.on 9 (by decide)) (some (.on 10 (by decide)))
      .sum drifting).1.toOption.map Raster.node = some (some 13) := by decide +kernel
  have hresult : ((simulator.zonalMasked (.on 9 (by decide)) (some (.on 10 (by decide)))
      .sum drifting).2.grid 13).toOption.map Grid.cells = some #[255] := by decide +kernel
  obtain ⟨⟨dtype, shape, cells⟩, hgrid, hparts⟩ := Option.map_eq_some_iff.mp hgrid
  obtain ⟨rfl, rfl, rfl⟩ : dtype = .s32 ∧ shape = [2] ∧ cells = #[300, -100] := by
    simpa using hparts
  obtain ⟨made, hmade, hnode⟩ := Option.map_eq_some_iff.mp hcall
  obtain ⟨result, hresult, hcells⟩ := Option.map_eq_some_iff.mp hresult
  refine ⟨hreachable, by decide +kernel, by decide +kernel, _, ⟨.b8, [2], #[1, 1]⟩,
    toOption_eq_some.mp hgrid, rfl, rfl, rfl, rfl, by decide +kernel, made, _, result,
    Prod.ext (toOption_eq_some.mp hmade) rfl, hnode, toOption_eq_some.mp hresult, hcells,
    by decide +kernel⟩

end MapAlgebra.Graph
