import MapAlgebra.Graph.Build
import MapAlgebra.Proofs.Grid.Places

namespace MapAlgebra

-- A fold whose steps succeed is one without failures.
theorem foldlM_eq_foldl {ε α β : Type} {items : List α} {f : β → α → Except ε β} {g : β → α → β}
    (h : ∀ item ∈ items, ∀ total, f total item = .ok (g total item)) (start : β) :
    items.foldlM f start = .ok (items.foldl g start) := by
  induction items generalizing start with
  | nil => rfl
  | cons item items ih =>
      rw [List.foldlM_cons, h item List.mem_cons_self]
      exact ih (fun other hother => h other (List.mem_cons_of_mem _ hother)) _

-- Totals that are kept side by side are those of separate folds, each over its own items.
theorem getElem?_foldl_modify {α β : Type} (target : α → Nat) (combine : β → α → β) (items : List α)
    (totals : Array β) (t : Nat) :
    (items.foldl (fun totals item => totals.modify (target item) (combine · item)) totals)[t]? =
      totals[t]?.map ((items.filter fun item => target item = t).foldl combine) := by
  induction items generalizing totals with
  | nil => exact Option.map_id_apply.symm
  | cons item items ih =>
      rw [List.foldl_cons, ih, Array.getElem?_modify]
      by_cases hitem : target item = t
      · rw [if_pos hitem, List.filter_cons_of_pos (by simpa using hitem), Option.map_map]
        rfl
      · rw [if_neg hitem, List.filter_cons_of_neg (by simpa using hitem)]

namespace Grid

open MapAlgebra.Graph (blockCounts)

-- Whether a block covers a place on an axis. Without a block size the axis is one block.
def covers (size : Nat) (block place : Int) : Bool :=
  if 0 < size then block * size ≤ place ∧ place < (block + 1) * size else block = 0

-- Whether a position lies in a block.
def inBlock : List Nat → List Int → List Int → Bool
  | _, [], [] => true
  | [], block :: blocks, place :: places => covers 0 block place && inBlock [] blocks places
  | size :: sizes, block :: blocks, place :: places =>
      covers size block place && inBlock sizes blocks places
  | _, _, _ => false

-- The cells of a block in row-major order.
def blockCells (grid : Grid) (sizes : List Nat) (block : List Int) : List Float :=
  ((List.range grid.size).filter fun index => inBlock sizes block (digits grid.shape index).1).map
    fun index => grid.cells.getD index 0

theorem covers_iff {extent : Nat} {place : Int} (size : Nat) (block : Int)
    (h : 0 ≤ place ∧ place < extent) :
    covers size block place = true ↔
      block = place / ((if 0 < size then size else max extent 1 : Nat) : Int) := by
  unfold covers
  by_cases hsize : 0 < size
  · have hpositive : (0 : Int) < size := by omega
    simp only [if_pos hsize, decide_eq_true_eq]
    rw [← Int.le_ediv_iff_mul_le hpositive, ← Int.ediv_lt_iff_lt_mul hpositive]
    omega
  · have hzero : place / ((max extent 1 : Nat) : Int) = 0 := Int.ediv_eq_zero_of_lt h.1 (by omega)
    simp only [if_neg hsize, decide_eq_true_eq, hzero]

-- A position lies in one block, which is the one that it is counted for.
theorem inBlock_iff {extents : List Nat} {position : List Int} (h : Within extents position)
    (sizes : List Nat) (block : List Int) :
    inBlock sizes block position = true ↔ block = blockOf position (blockExtents extents sizes) := by
  induction h generalizing sizes block with
  | nil => cases block <;> simp [inBlock, blockExtents, blockOf]
  | @cons extent place extents position hplace _ ih =>
      cases block with
      | nil => cases sizes <;> simp [inBlock, blockExtents, blockOf]
      | cons first block =>
          cases sizes with
          | nil =>
              have hfirst := covers_iff 0 first hplace
              simp only [inBlock, Bool.and_eq_true, hfirst, ih]
              simp [blockExtents, blockOf]
          | cons size sizes =>
              have hfirst := covers_iff size first hplace
              simp only [inBlock, Bool.and_eq_true, hfirst, ih]
              simp [blockExtents, blockOf]

-- There are as many blocks on an axis as positions are counted for.
theorem block_lt {extent size : Nat} {place : Int} (h : 0 ≤ place ∧ place < extent)
    (hsize : 0 < size) : place / (size : Int) < ((extent + size - 1) / size : Nat) := by
  have hpositive : (0 : Int) < size := by omega
  rw [Int.ediv_lt_iff_lt_mul hpositive]
  have hdiv := Nat.div_add_mod (extent + size - 1) size
  have hmod := Nat.mod_lt (extent + size - 1) hsize
  have hcount : extent ≤ (extent + size - 1) / size * size := by
    rw [Nat.mul_comm]
    omega
  have hcount' : (extent : Int) ≤ ((extent + size - 1) / size : Nat) * size := by
    exact_mod_cast hcount
  omega

-- No cell is outside of the blocks that there are.
theorem blockOf_within {extents : List Nat} {position : List Int} (h : Within extents position)
    (sizes : List Nat) :
    Within (blockCounts extents sizes) (blockOf position (blockExtents extents sizes)) := by
  induction h generalizing sizes with
  | nil => exact .nil
  | @cons extent place extents position hplace _ ih =>
      have hwhole : place / ((max extent 1 : Nat) : Int) = 0 :=
        Int.ediv_eq_zero_of_lt hplace.1 (by omega)
      cases sizes with
      | nil =>
          refine .cons ?_ (ih [])
          show 0 ≤ place / _ ∧ place / _ < _
          rw [hwhole]
          omega
      | cons size sizes =>
          refine .cons ?_ (ih sizes)
          by_cases hsize : 0 < size
          · simp only [if_pos hsize]
            exact ⟨Int.ediv_nonneg hplace.1 (by omega), block_lt hplace hsize⟩
          · simp only [if_neg hsize, hwhole]
            omega

theorem existsUnique_block {extents : List Nat} {position : List Int} (h : Within extents position)
    (sizes : List Nat) :
    ∃! block, Within (blockCounts extents sizes) block ∧ inBlock sizes block position = true := by
  refine ⟨_, ⟨blockOf_within h sizes, (inBlock_iff h sizes _).mpr rfl⟩, fun block hblock => ?_⟩
  exact (inBlock_iff h sizes block).mp hblock.2

-- The index of the block that a cell is counted for.
def blockIndex (extents sizes : List Nat) (index : Nat) : Nat :=
  (offsetFrom (blockCounts extents sizes)
    (blockOf (digits extents index).1 (blockExtents extents sizes)) 0).getD 0

theorem offsetFrom_blockOf {extents : List Nat} {index : Nat} (h : index < cellCount extents)
    (sizes : List Nat) : offsetFrom (blockCounts extents sizes)
      (blockOf (digits extents index).1 (blockExtents extents sizes)) 0 =
        some (blockIndex extents sizes index) := by
  obtain ⟨target, htarget⟩ := offsetFrom_total (blockOf_within (digits_within h) sizes) 0
  rw [blockIndex, htarget, Option.getD_some]

theorem blockIndex_eq_iff {extents sizes : List Nat} {index target : Nat} {block : List Int}
    (h : index < cellCount extents)
    (htarget : offsetFrom (blockCounts extents sizes) block 0 = some target) :
    blockIndex extents sizes index = target ↔
      inBlock sizes block (digits extents index).1 = true := by
  have hown := offsetFrom_blockOf h sizes
  rw [inBlock_iff (digits_within h)]
  constructor
  · rintro rfl
    exact offsetFrom_injective htarget hown
  · rintro rfl
    exact Option.some.inj (hown.symm.trans htarget)

theorem cells_of_ofCells {dtype : DataType} {shape : List Nat} {cells : Array Float} {grid : Grid}
    (h : ofCells dtype shape cells = .ok grid) : grid.cells = cells.map dtype.normalize := by
  unfold ofCells at h
  split at h
  · cases h
    rfl
  · cases h

namespace Has

variable {grid : Grid} {form : Form}

theorem lt_of_mem (h : grid.Has form) {index : Nat} (hindex : index ∈ List.range grid.size) :
    index < cellCount form.shape := by
  rw [← h.cells]
  exact List.mem_range.mp hindex

-- Every cell is taken into the total of its block.
theorem blocks_eq (h : grid.Has form) (op : ReductionOp) (block : Shape) (dtype : DataType) :
    grid.blocks op block (blockCounts form.shape block.extents) dtype =
      ofCells dtype (blockCounts form.shape block.extents)
        ((List.range grid.size).foldl
          (fun totals index => totals.modify (blockIndex form.shape block.extents index)
            (op.combine · (grid.cells.getD index 0)))
          (Array.replicate (cellCount (blockCounts form.shape block.extents)) op.identity)) := by
  unfold blocks
  dsimp only
  rw [← Array.foldlM_toList, Array.toList_range, h.shape, foldlM_eq_foldl]
  · rfl
  · intro index hindex totals
    have hlt := h.lt_of_mem hindex
    have hposition : grid.position index = .ok (digits form.shape index).1 := by
      rw [position, position?, h.shape, if_neg (zero_not_mem_of_lt hlt)]
    refine bind_eq_ok.mpr ⟨_, hposition, ?_⟩
    simp only [offsetFrom_blockOf hlt]
    rfl

-- Each block is reduced on its own, whatever happens to the other ones in between.
theorem blocks_spec (h : grid.Has form) (op : ReductionOp) (block : Shape) (dtype : DataType) :
    ∃ result, grid.blocks op block (blockCounts form.shape block.extents) dtype = .ok result ∧
      result.Has ⟨dtype, blockCounts form.shape block.extents⟩ ∧
      ∀ place, Within (blockCounts form.shape block.extents) place → result.get place =
        .ok (some (dtype.normalize
          ((grid.blockCells block.extents place).foldl op.combine op.identity))) := by
  obtain ⟨result, hresult, hform⟩ := h.blocks_total op block _ dtype
  refine ⟨result, hresult, hform, fun place hplace => ?_⟩
  rw [h.blocks_eq] at hresult
  obtain ⟨target, htarget⟩ := offsetFrom_total hplace 0
  have hlt : target < cellCount (blockCounts form.shape block.extents) := by
    have hbound := offsetFrom_lt htarget
    rwa [Nat.zero_add, Nat.one_mul] at hbound
  have hoffset : result.offset place = some target := by
    rw [offset, hform.shape]
    exact htarget
  -- the cells that are counted for the block are those that lie in it
  have hindices : ((List.range grid.size).filter fun index =>
        blockIndex form.shape block.extents index = target) =
      (List.range grid.size).filter fun index =>
        inBlock block.extents place (digits grid.shape index).1 := by
    refine List.filter_congr fun index hindex => ?_
    rw [h.shape, Bool.eq_iff_iff, decide_eq_true_eq]
    exact blockIndex_eq_iff (h.lt_of_mem hindex) htarget
  have hcell : result.cells[target]? = some (dtype.normalize
      ((grid.blockCells block.extents place).foldl op.combine op.identity)) := by
    rw [cells_of_ofCells hresult, Array.getElem?_map, getElem?_foldl_modify,
      Array.getElem?_replicate, if_pos hlt, hindices, blockCells, List.foldl_map]
    rfl
  simp only [get, hoffset, hcell]

-- A block without cells gives what the reduction starts from.
theorem blockCells_eq_nil (h : grid.Has form) {sizes : List Nat} {block : List Int}
    (hempty : ∀ position, Within form.shape position → inBlock sizes block position = false) :
    grid.blockCells sizes block = [] := by
  rw [blockCells, List.map_eq_nil_iff, List.filter_eq_nil_iff]
  intro index hindex
  rw [h.shape, hempty _ (digits_within (h.lt_of_mem hindex))]
  exact Bool.false_ne_true

end Has

end Grid

end MapAlgebra
