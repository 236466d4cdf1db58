import MapAlgebra.Proofs.Graph.Lasting
import MapAlgebra.Proofs.Graph.Single
import MapAlgebra.Proofs.Grid.Blocks

namespace MapAlgebra.Graph

open Grid (Within inBlock)

-- The statistics of blocks succeed for every node that has a grid of its own form. There is one value
-- for each block that is counted when the node is made, every cell lies in exactly one of these blocks,
-- and a value is what the reduction makes of the cells of its block alone, in row-major order.
theorem block_stats_partition {state : State} (h : Reachable state) {raster : Raster} {node : Address}
    {info : Meta} {grid : Grid} (hnode : raster.node = some node) (hinfo : state.info node = .ok info)
    (hgrid : state.grid node = .ok grid) (hform : grid.Has ⟨info.dtype, info.shape⟩)
    (op : ReductionOp) :
    ∃ made after id noted result, simulator.blockStats raster op state = (.ok made, after) ∧
      made.node = some id ∧ after.info id = .ok noted ∧ after.grid id = .ok result ∧
      noted.dtype = op.resultType info.dtype ∧
      noted.shape = blockCounts info.shape info.block.extents ∧
      result.Has ⟨noted.dtype, noted.shape⟩ ∧
      (∀ position, Within info.shape position →
        ∃! block, Within noted.shape block ∧ inBlock info.block.extents block position = true) ∧
      ∀ block, Within noted.shape block →
        result.get block = .ok (some (noted.dtype.normalize
          ((grid.blockCells info.block.extents block).foldl op.combine op.identity))) ∧
        ((∀ position, Within info.shape position →
            inBlock info.block.extents block position = false) →
          result.get block = .ok (some (noted.dtype.normalize op.identity))) := by
  have hlooped := h.looped
  have hdraft : state.draft (.blockStats node op) = .ok ⟨.blockStats op,
      info.derived (op.resultType info.dtype) (blockCounts info.shape info.block.extents), none⟩ :=
    bind_eq_ok.mpr ⟨info, hinfo, rfl⟩
  have hbacks : Backs state 0 := fun _ => Int.natCast_nonneg _
  obtain ⟨made, after, id, hmake, hbuilds, -, hid, hvalue⟩ :=
    made hlooped hbacks hdraft (List.forall_mem_singleton.mpr (State.contains_of_info hinfo)) rfl
  have hrequire : raster.require = .ok node := by rw [Raster.require, hnode]
  obtain ⟨result, hresult, hhas, hcells⟩ :=
    hform.blocks_spec op info.block (op.resultType info.dtype)
  have hinputs : (Request.blockStats node op).nodes.mapM state.gridOf = .ok [grid] := by
    show [node].mapM state.gridOf = _
    rw [List.mapM_cons, State.gridOf_eq_grid hlooped, hgrid]
    rfl
  refine ⟨made, after, id, _, result, ?_, hid, congrArg Value.info hvalue, ?_, rfl, rfl, hhas,
    fun position hposition => Grid.existsUnique_block hposition _, fun block hblock =>
      ⟨hcells block hblock, fun hempty => ?_⟩⟩
  · rw [Engine.blockStats, derive_eq hrequire]
    exact hmake
  · rw [← State.gridOf_eq_grid (hbuilds.looped hlooped)]
    refine (congrArg Value.grid hvalue).trans ?_
    exact bind_eq_ok.mpr ⟨[grid], hinputs, hresult⟩
  · rw [hcells block hblock, hform.blockCells_eq_nil hempty]
    rfl

-- Two rows and three columns of ones and a half, in blocks of two by two.
def patches : Layout :=
  { Layout.single .f64 with size := .ofExtents [2, 3], block := .ofExtents [2, 2] }

def patched : State := (State.empty 5 none).afterCalls
  [.construct (.constant (.f64 1.5) patches), .acquire 1]

-- The second block has only one column.
theorem patched_sums :
    ∃ made after id result, simulator.blockStats (.on 1 (by decide)) .sum patched = (.ok made, after) ∧
      made.node = some id ∧ after.grid id = .ok result ∧ result.shape = [1, 2] ∧
      result.get [0, 0] = .ok (some 6) ∧ result.get [0, 1] = .ok (some 3) := by
  have hreachable : Reachable patched := (Reachable.empty 5 none).calls _ (by decide)
  have hnode : (Raster.on 1 (by decide)).node = some 1 := rfl
  have hinfo : patched.info 1 = .ok (.ofLayout patches) := rfl
  have hvalue : patched.grid 1 = .ok (.filled .f64 [2, 3] 1.5) := rfl
  obtain ⟨made, after, id, noted, result, hmake, hid, -, hgrid, hdtype, hshape, hhas, -, hcells⟩ :=
    block_stats_partition hreachable hnode hinfo hvalue (Grid.has_filled _ _ _) .sum
  have hfull : (Grid.blockCells (.filled .f64 [2, 3] 1.5) [2, 2] [0, 0]).foldl
      ReductionOp.sum.combine ReductionOp.sum.identity = 6 := by decide +kernel
  have hpart : (Grid.blockCells (.filled .f64 [2, 3] 1.5) [2, 2] [0, 1]).foldl
      ReductionOp.sum.combine ReductionOp.sum.identity = 3 := by decide +kernel
  have hcounts : noted.shape = [1, 2] := hshape
  have hreal : noted.dtype = .f64 := hdtype
  rw [hcounts, hreal] at hcells
  refine ⟨made, after, id, result, hmake, hid, hgrid, hhas.shape.trans hshape, ?_, ?_⟩
  · refine (hcells [0, 0] (by simp [Within])).1.trans ?_
    exact congrArg (fun x => Except.ok (some x)) hfull
  · refine (hcells [0, 1] (by simp [Within])).1.trans ?_
    exact congrArg (fun x => Except.ok (some x)) hpart

end MapAlgebra.Graph
