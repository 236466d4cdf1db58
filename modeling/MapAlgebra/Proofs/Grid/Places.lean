import MapAlgebra.Proofs.Grid.Form
import Mathlib.Tactic.Ring

namespace MapAlgebra.Grid

theorem cellCount_cons (extent : Nat) (extents : List Nat) :
    cellCount (extent :: extents) = extent * cellCount extents := rfl

-- What has an index lies in the grid.
theorem within_of_offsetFrom {extents : List Nat} {position : List Int} {flat index : Nat}
    (h : offsetFrom extents position flat = some index) : Within extents position := by
  induction extents generalizing position flat with
  | nil =>
      cases position with
      | nil => exact .nil
      | cons c position => cases h
  | cons extent extents ih =>
      cases position with
      | nil => cases h
      | cons c position =>
          rw [offsetFrom] at h
          split at h
          · cases h
          · rename_i hinside
            exact .cons (by omega) (ih h)

-- An index gives back the position that it was made from, and the cells before it.
theorem digits_of_offsetFrom {extents : List Nat} {position : List Int} {flat index : Nat}
    (h : offsetFrom extents position flat = some index) :
    digits extents index = (position, flat) := by
  induction extents generalizing position flat with
  | nil =>
      cases position with
      | nil =>
          cases h
          rfl
      | cons c position => cases h
  | cons extent extents ih =>
      cases position with
      | nil => cases h
      | cons c position =>
          rw [offsetFrom] at h
          split at h
          · cases h
          · rename_i hinside
            have hrest := ih h
            have hlt : c.toNat < extent := by omega
            have hdigit : (flat * extent + c.toNat) % extent = c.toNat := by
              rw [Nat.add_comm, Nat.add_mul_mod_self_right, Nat.mod_eq_of_lt hlt]
            have hcarry : (flat * extent + c.toNat) / extent = flat := by
              rw [Nat.add_comm, Nat.add_mul_div_right _ _ (by omega), Nat.div_eq_of_lt hlt, Nat.zero_add]
            have hback : ((c.toNat : Nat) : Int) = c := by omega
            simp only [digits, hrest, hdigit, hcarry, hback]

-- Positions with one index are one position.
theorem offsetFrom_injective {extents : List Nat} {first second : List Int} {flat index : Nat}
    (hfirst : offsetFrom extents first flat = some index)
    (hsecond : offsetFrom extents second flat = some index) : first = second := by
  have hsame := (digits_of_offsetFrom hfirst).symm.trans (digits_of_offsetFrom hsecond)
  exact congrArg Prod.fst hsame

theorem digits_carry (extents : List Nat) (index : Nat) :
    (digits extents index).2 = index / cellCount extents := by
  induction extents with
  | nil => exact (Nat.div_one index).symm
  | cons extent extents ih =>
      rw [cellCount_cons, Nat.mul_comm, ← Nat.div_div_eq_div_mul, ← ih]
      rfl

-- The position of an index has that index, up to whole grids that lie before it.
theorem offsetFrom_digits {extents : List Nat} (h : 0 ∉ extents) (index flat : Nat) :
    offsetFrom extents (digits extents index).1 flat =
      some (flat * cellCount extents + index % cellCount extents) := by
  induction extents generalizing flat with
  | nil => simp [digits, offsetFrom, cellCount, Nat.mod_one]
  | cons extent extents ih =>
      rw [List.mem_cons, not_or] at h
      have hlt : (digits extents index).2 % extent < extent :=
        Nat.mod_lt _ (Nat.pos_of_ne_zero (Ne.symm h.1))
      have hinside : ¬ ((((digits extents index).2 % extent : Nat) : Int) < 0 ∨
          (extent : Int) ≤ ((digits extents index).2 % extent : Nat)) := by omega
      simp only [digits]
      rw [offsetFrom, if_neg hinside, ih h.2, digits_carry, Int.toNat_natCast, cellCount_cons,
        Nat.mul_comm extent, Nat.mod_mul]
      congr 1
      ring

-- Every index of a grid belongs to a position of it.
theorem offset_digits {extents : List Nat} {index : Nat} (h : index < cellCount extents) :
    offsetFrom extents (digits extents index).1 0 = some index := by
  rw [offsetFrom_digits (zero_not_mem_of_lt h), Nat.mod_eq_of_lt h, Nat.zero_mul, Nat.zero_add]

theorem digits_within {extents : List Nat} {index : Nat} (h : index < cellCount extents) :
    Within extents (digits extents index).1 := within_of_offsetFrom (offset_digits h)

-- The cells before a position are counted in its index.
theorem le_offsetFrom {extents : List Nat} {position : List Int} {flat index : Nat}
    (h : offsetFrom extents position flat = some index) : flat * cellCount extents ≤ index := by
  induction extents generalizing position flat with
  | nil =>
      cases position with
      | nil =>
          cases h
          exact Nat.le_of_eq (Nat.mul_one _)
      | cons c position => cases h
  | cons extent extents ih =>
      cases position with
      | nil => cases h
      | cons c position =>
          rw [offsetFrom] at h
          split at h
          · cases h
          · have hrest := ih h
            have hcells := Nat.mul_le_mul_right (cellCount extents)
              (Nat.le_add_right (flat * extent) c.toNat)
            rw [cellCount_cons, ← Nat.mul_assoc]
            exact hcells.trans hrest

-- No number on the way to an index is greater than the index, so that a word that has room for the
-- index has room for all of them.
theorem offsetFrom_take {extents : List Nat} {position : List Int} {flat index : Nat}
    (h : offsetFrom extents position flat = some index) (axis : Nat) :
    ∃ part ≤ index, offsetFrom (extents.take axis) (position.take axis) flat = some part := by
  induction extents generalizing position flat axis with
  | nil =>
      cases position with
      | nil =>
          rw [List.take_nil, List.take_nil]
          exact ⟨index, Nat.le_refl _, h⟩
      | cons c position => cases h
  | cons extent extents ih =>
      cases position with
      | nil => cases h
      | cons c position =>
          cases axis with
          | zero =>
              have hcount := le_offsetFrom h
              have hlt := offsetFrom_lt h
              have hpositive : 0 < cellCount (extent :: extents) := by
                rw [Nat.add_mul] at hlt
                omega
              exact ⟨flat, (Nat.le_mul_of_pos_right flat hpositive).trans hcount, rfl⟩
          | succ axis =>
              rw [offsetFrom] at h
              split at h
              · cases h
              · rename_i hinside
                obtain ⟨part, hle, hpart⟩ := ih h axis
                refine ⟨part, hle, ?_⟩
                rw [List.take_succ_cons, List.take_succ_cons, offsetFrom, if_neg hinside]
                exact hpart

-- The axis on which two positions part decides, since no later axis makes up for a step on it.
theorem offsetFrom_lt_of_lex {extents : List Nat} {first second : List Int} {flat i j : Nat}
    (hlex : List.Lex (· < ·) first second) (hfirst : offsetFrom extents first flat = some i)
    (hsecond : offsetFrom extents second flat = some j) : i < j := by
  induction hlex generalizing extents flat with
  | nil =>
      cases extents with
      | nil => cases hsecond
      | cons extent extents => cases hfirst
  | cons hrest ih =>
      cases extents with
      | nil => cases hfirst
      | cons extent extents =>
          rw [offsetFrom] at hfirst hsecond
          split at hfirst
          · cases hfirst
          · rename_i hinside
            rw [if_neg hinside] at hsecond
            exact ih hfirst hsecond
  | @rel c first d second hless =>
      cases extents with
      | nil => cases hfirst
      | cons extent extents =>
          rw [offsetFrom] at hfirst hsecond
          split at hfirst
          · cases hfirst
          · split at hsecond
            · cases hsecond
            · have hstep : flat * extent + c.toNat + 1 ≤ flat * extent + d.toNat := by omega
              have hcells := Nat.mul_le_mul_right (cellCount extents) hstep
              have hbefore := offsetFrom_lt hfirst
              have hafter := le_offsetFrom hsecond
              omega

-- The positions that lie in a grid and the indices of its cells are turned into each other, one by one.
-- Of two positions, the one that is first in the lexicographic order has the smaller index.
theorem positions_indexed {grid : Grid} (h : grid.cells.size = cellCount grid.shape) :
    (∀ position, (∃ index, grid.offset position = some index) ↔ Within grid.shape position) ∧
      (∀ position index, grid.offset position = some index →
        index < grid.size ∧ grid.position index = .ok position ∧
          ∀ axis, ∃ part ≤ index,
            offsetFrom (grid.shape.take axis) (position.take axis) 0 = some part) ∧
      (∀ index < grid.size, ∃ position,
        grid.position index = .ok position ∧ grid.offset position = some index) ∧
      ∀ first second i j, List.Lex (· < ·) first second → grid.offset first = some i →
        grid.offset second = some j → i < j := by
  have hposition : ∀ index < grid.size,
      grid.position index = .ok (digits grid.shape index).1 := by
    intro index hindex
    rw [size, h] at hindex
    rw [position, position?, if_neg (zero_not_mem_of_lt hindex)]
  refine ⟨fun place => ?_, fun place index hindex => ?_, fun index hindex => ?_,
    fun _ _ _ _ hlex hfirst hsecond => offsetFrom_lt_of_lex hlex hfirst hsecond⟩
  · constructor
    · rintro ⟨index, hindex⟩
      exact within_of_offsetFrom hindex
    · intro hwithin
      exact offsetFrom_total hwithin 0
  · have hlt : index < grid.size := by
      have hbound := offsetFrom_lt hindex
      rwa [Nat.zero_add, Nat.one_mul, ← h] at hbound
    refine ⟨hlt, ?_, offsetFrom_take hindex⟩
    rw [hposition index hlt, digits_of_offsetFrom hindex]
  · exact ⟨_, hposition index hindex, offset_digits (h ▸ hindex)⟩

-- The last cell but one of two planes, each of three rows and two columns.
theorem second_plane_indexed : ∃ index,
    (filled .s32 [2, 3, 2] 0).offset [1, 2, 0] = some index ∧ index < 12 ∧
      (filled .s32 [2, 3, 2] 0).position index = .ok [1, 2, 0] := by
  obtain ⟨hdefined, hplaced, -⟩ :=
    @positions_indexed (filled .s32 [2, 3, 2] 0) Array.size_replicate
  have hwithin : Within [2, 3, 2] [1, 2, 0] := by
    unfold Within
    simp
  obtain ⟨index, hindex⟩ := (hdefined _).mpr hwithin
  obtain ⟨hlt, hposition, -⟩ := hplaced _ _ hindex
  have hsize : (filled .s32 [2, 3, 2] 0).size = 12 := Array.size_replicate
  exact ⟨index, hindex, hsize ▸ hlt, hposition⟩

end MapAlgebra.Grid
