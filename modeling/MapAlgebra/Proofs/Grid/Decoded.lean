import MapAlgebra.Proofs.Graph.Stored
import MapAlgebra.Proofs.Grid.Places
import MapAlgebra.Proofs.Number.Doubles

namespace MapAlgebra

namespace Number

-- Bits below those of infinity are a finite value under either sign.
theorem decode_below_infinity {bits : Nat} (h : bits < Format.double.infinityBits)
    (negative : Bool) : ∃ negative' significand exponent,
      Format.double.decode ((if negative then Format.double.signBit else 0) + bits) =
        .finite negative' significand exponent := by
  have hbits : bits < 2047 * 2 ^ 52 := h
  have hsign : Format.double.signBit = 2 ^ 63 := rfl
  have hfield : ((if negative then Format.double.signBit else 0) + bits) / 2 ^ 52 % 2 ^ 11 ≠
      2047 := by
    rw [hsign]
    cases negative <;> simp only [Bool.false_eq_true, if_false, if_true] <;> omega
  rw [decode_eq, if_neg hfield]
  by_cases hlow : ((if negative then Format.double.signBit else 0) + bits) / 2 ^ 52 % 2 ^ 11 = 0
  · rw [if_pos hlow]
    exact ⟨_, _, _, rfl⟩
  · rw [if_neg hlow]
    exact ⟨_, _, _, rfl⟩

theorem nearest_le_infinity (numerator denominator : Nat) :
    Format.double.nearest numerator denominator ≤ Format.double.infinityBits := by
  unfold Format.nearest
  split
  · exact Nat.zero_le _
  · exact Nat.min_le_left _ _

theorem ofBits_finite {bits : Nat} (h : bits < Format.double.infinityBits) (negative : Bool) :
    IsFinite (Float.ofBits
      (UInt64.ofNat ((if negative then Format.double.signBit else 0) + bits))) := by
  have hend : bits < 2047 * 2 ^ 52 := h
  have hsign : Format.double.signBit = 2 ^ 63 := rfl
  have hword : (if negative then Format.double.signBit else 0) + bits < 2 ^ 64 := by
    rw [hsign]
    split <;> omega
  unfold IsFinite
  rw [ofFloat_ofBits, UInt64.toNat_ofNat_of_lt' hword]
  exact decode_below_infinity h negative

-- A decimal that is read has a finite value.
theorem readDecimal_finite {negative : Bool} {digits : Nat} {exponent : Int} {x : Float}
    (h : readDecimal negative digits exponent = some x) : IsFinite x := by
  unfold readDecimal at h
  simp only [Option.ite_none_left_eq_some, Option.some.injEq] at h
  obtain ⟨hfinite, rfl⟩ := h
  refine ofBits_finite (Nat.lt_of_le_of_ne ?_ hfinite) negative
  split
  · exact Nat.zero_le _
  · split
    · exact Nat.le_refl _
    · split <;> exact nearest_le_infinity _ _

end Number

namespace Json

theorem forall_of_mapM {α β : Type} {f : α → Option β} {items : List α} {results : List β}
    {property : β → Prop} (h : items.mapM f = some results)
    (hitem : ∀ item result, f item = some result → property result) :
    ∀ result ∈ results, property result := by
  induction items generalizing results with
  | nil =>
      cases h
      exact List.forall_mem_nil _
  | cons item items ih =>
      rw [List.mapM_cons] at h
      obtain ⟨first, hfirst, h⟩ := Option.bind_eq_some_iff.mp h
      obtain ⟨rest, hrest, h⟩ := Option.bind_eq_some_iff.mp h
      cases h
      exact List.forall_mem_cons.mpr ⟨hitem item first hfirst, ih hrest⟩

theorem forall_of_listOf {α : Type} {item : Json → Option α} {json : Json} {results : List α}
    {property : α → Prop} (h : listOf item json = some results)
    (hitem : ∀ json result, item json = some result → property result) :
    ∀ result ∈ results, property result := by
  cases json with
  | array items => exact forall_of_mapM h hitem
  | _ => cases h

theorem count?_lt {json : Json} {n : Nat} (h : count? json = some n) : n < Nat.pow 2 64 := by
  obtain ⟨whole, hwhole, rfl⟩ := Option.map_eq_some_iff.mp h
  cases json with
  | number numeral =>
      obtain ⟨value, -, hvalue⟩ := Option.bind_eq_some_iff.mp hwhole
      split at hvalue
      · obtain rfl := Option.some.inj hvalue
        omega
      · cases hvalue
  | _ => cases hwhole

theorem float?_finite {json : Json} {x : Float} (h : float? json = some x) : Number.IsFinite x := by
  cases json with
  | number numeral => exact Number.readDecimal_finite h
  | _ => cases h

end Json

namespace Grid

-- What a data file can hold: extents that fit the words of the memory, and cells that are numbers.
structure Legible (grid : Grid) : Prop where
  extents : ∀ extent ∈ grid.shape, extent < Nat.pow 2 64
  cells : ∀ x ∈ grid.cells, Number.IsFinite x

-- What the making of a grid ensures: as many cells as the extents span, and each of them a value
-- that the type can hold.
structure Valid (grid : Grid) : Prop where
  size : grid.cells.size = cellCount grid.shape
  normalized : ∀ x ∈ grid.cells, grid.dtype.normalize x = x

-- No question about what lies in the grid breaks off.
structure Answers (grid : Grid) : Prop where
  cell : ∀ index < cellCount grid.shape, ∃ x, grid.cell index = .ok x
  get : ∀ position, Within grid.shape position → ∃ x, grid.get position = .ok (some x)
  position : ∀ index < cellCount grid.shape, ∃ position,
    grid.position index = .ok position ∧ grid.offset position = some index
  scalar : grid.isScalar → grid.toScalar ≠ .error .brokenInvariant

-- The fields are read one by one. Whether they fit together is not looked at.
theorem ofJson?_eq_some {json : Json} {grid : Grid} (h : Grid.ofJson? json = some grid) :
    ∃ dtype shape cells, json.record? ["dtype", "shape", "data"] =
        some [some dtype, some shape, some cells] ∧
      dtype.coded? = some grid.dtype ∧ shape.listOf Json.count? = some grid.shape ∧
      cells.listOf Json.float? = some grid.cells.toList := by
  unfold Grid.ofJson? at h
  obtain ⟨fields, hfields, h⟩ := Option.bind_eq_some_iff.mp h
  split at h
  · rename_i dtype shape cells
    obtain ⟨type, htype, h⟩ := Option.bind_eq_some_iff.mp h
    obtain ⟨extents, hextents, h⟩ := Option.bind_eq_some_iff.mp h
    obtain ⟨values, hvalues, h⟩ := Option.bind_eq_some_iff.mp h
    cases h
    exact ⟨dtype, shape, cells, hfields, htype, hextents, hvalues⟩
  · cases h

theorem legible_of_ofJson? {json : Json} {grid : Grid} (h : Grid.ofJson? json = some grid) :
    grid.Legible := by
  obtain ⟨_, _, _, _, _, hextents, hcells⟩ := ofJson?_eq_some h
  refine ⟨Json.forall_of_listOf hextents fun _ _ => Json.count?_lt, fun x hx => ?_⟩
  exact Json.forall_of_listOf hcells (fun _ _ => Json.float?_finite) x (Array.mem_toList_iff.mpr hx)

-- The grids that their making leaves as they are.
theorem valid_iff_ofCells (grid : Grid) :
    grid.Valid ↔ ofCells grid.dtype grid.shape grid.cells = .ok grid := by
  unfold ofCells
  constructor
  · intro h
    have hcells : grid.cells.map grid.dtype.normalize = grid.cells :=
      (Array.map_congr_left h.normalized).trans (Array.map_id' grid.cells)
    rw [if_pos h.size, hcells]
  · intro h
    split at h
    · rename_i hsize
      have hcells : grid.cells.map grid.dtype.normalize = grid.cells :=
        congrArg Grid.cells (Except.ok.inj h)
      refine ⟨hsize, fun x hx => ?_⟩
      obtain ⟨index, hindex, rfl⟩ := Array.mem_iff_getElem.mp hx
      have hsame := congrArg (·[index]?) hcells
      simpa [hindex] using hsame
    · cases h

theorem toScalar_unbroken {grid : Grid} (h : 0 < grid.cells.size) :
    grid.toScalar ≠ .error .brokenInvariant := by
  unfold toScalar
  split
  · rw [Array.getElem?_eq_getElem h]
    dsimp only
    unfold Scalar.ofFloat Scalar.ofPayload
    split <;> exact nofun
  · exact nofun

-- Questions are answered as soon as there are enough cells.
theorem answers_iff (grid : Grid) : grid.Answers ↔ cellCount grid.shape ≤ grid.cells.size := by
  constructor
  · intro h
    by_contra hfew
    obtain ⟨x, hx⟩ := h.cell grid.cells.size (by omega)
    have hnone : grid.at? grid.cells.size = none := by
      unfold at? isScalar
      split
      · rename_i hsingle
        have hcount : cellCount grid.shape = 1 := by
          rw [List.isEmpty_iff.mp hsingle]
          rfl
        exact Array.getElem?_eq_none (by omega)
      · exact Array.getElem?_eq_none (Nat.le_refl _)
    rw [cell, hnone] at hx
    cases hx
  · intro h
    refine ⟨fun index hindex => ?_, fun position hwithin => ?_, fun index hindex => ?_,
      fun hsingle => ?_⟩
    · have hthere : ∃ x, grid.at? index = some x := by
        unfold at?
        split <;> exact ⟨_, Array.getElem?_eq_getElem (by omega)⟩
      obtain ⟨x, hx⟩ := hthere
      exact ⟨x, by rw [cell, hx]⟩
    · obtain ⟨index, hindex⟩ := offsetFrom_total hwithin 0
      have hcount := offsetFrom_lt hindex
      have hlt : index < grid.cells.size := by omega
      have hoffset : grid.offset position = some index := hindex
      refine ⟨grid.cells[index], ?_⟩
      simp only [get, hoffset, Array.getElem?_eq_getElem hlt]
    · refine ⟨(digits grid.shape index).1, ?_, offset_digits hindex⟩
      rw [position, position?, if_neg (zero_not_mem_of_lt hindex)]
    · have hcount : cellCount grid.shape = 1 := by
        rw [List.isEmpty_iff.mp hsingle]
        rfl
      exact toScalar_unbroken (by omega)

-- A text that is not a grid is an error, and what is read from any other text is legible. It is valid
-- when the making of a grid would leave it as it is, and then all questions are answered. They are
-- answered for those grids alone that do not lack a cell.
theorem decoded_grid_checked (text : String) :
    match readData Grid.ofJson? text with
    | .error problem => problem = .data
    | .ok grid =>
        grid.Legible ∧
          (grid.Valid ↔ ofCells grid.dtype grid.shape grid.cells = .ok grid) ∧
          (grid.Valid → grid.Answers) ∧
          (grid.Answers ↔ cellCount grid.shape ≤ grid.cells.size) := by
  unfold readData
  cases hread : (Json.read text).bind Grid.ofJson? with
  | none => rfl
  | some grid =>
      obtain ⟨json, -, hgrid⟩ := Option.bind_eq_some_iff.mp hread
      refine ⟨legible_of_ofJson? hgrid, grid.valid_iff_ofCells, fun hvalid => ?_, grid.answers_iff⟩
      exact grid.answers_iff.mpr (Nat.le_of_eq hvalid.size.symm)

-- One cell and a half where two whole ones have to be.
theorem mismatched_grid_decoded :
    readData Grid.ofJson? "\x7b\"dtype\":\"U8\",\"shape\":[2],\"data\":[1.5]\x7d" =
        .ok ⟨.u8, [2], #[1.5]⟩ ∧
      ¬ Valid ⟨.u8, [2], #[1.5]⟩ ∧ DataType.u8.normalize 1.5 = 1 ∧
      get ⟨.u8, [2], #[1.5]⟩ [1] = .error .brokenInvariant := by
  have hparts : (readData Grid.ofJson?
      "\x7b\"dtype\":\"U8\",\"shape\":[2],\"data\":[1.5]\x7d").toOption.map
        (fun grid => (grid.dtype, grid.shape, grid.cells)) = some (.u8, [2], #[1.5]) := by
    decide +kernel
  obtain ⟨⟨dtype, shape, cells⟩, hread, hsame⟩ := Option.map_eq_some_iff.mp hparts
  cases hsame
  refine ⟨toOption_eq_some.mp hread, fun h => ?_, by decide +kernel, rfl⟩
  have hsize : 1 = 2 := h.size
  omega

end Grid

end MapAlgebra
