import MapAlgebra.Text
import Mathlib.Data.List.TakeWhile

namespace MapAlgebra.Text

variable {separator : Char} {cs : List Char} {text mark : String} {pieces : List String}

theorem splitList_eq (separator : Char) (cs : List Char) :
    splitList separator cs = cs.splitOn separator := by
  induction cs with
  | nil => rfl
  | cons c cs ih =>
      rw [splitList, ih, List.splitOn_cons_eq_if_modifyHead]
      by_cases h : c = separator
      · rw [if_pos h, if_pos (beq_iff_eq.mpr h)]
      · rw [if_neg h, if_neg fun hequal => h (beq_iff_eq.mp hequal)]
        cases hparts : cs.splitOn separator with
        | nil => exact absurd hparts (List.splitOn_ne_nil separator cs)
        | cons part parts => rfl

theorem not_mem_of_splitList {part : List Char} (h : part ∈ splitList separator cs) :
    separator ∉ part := by
  induction cs generalizing part with
  | nil =>
      obtain rfl := List.mem_singleton.mp h
      exact List.not_mem_nil
  | cons c cs ih =>
      rw [splitList] at h
      split at h
      · obtain rfl | h := List.mem_cons.mp h
        · exact List.not_mem_nil
        · exact ih h
      · rename_i hc
        split at h
        · obtain rfl := List.mem_singleton.mp h
          exact fun hmem => hc (List.mem_singleton.mp hmem).symm
        · rename_i first parts hparts
          obtain rfl | h := List.mem_cons.mp h
          · rw [List.mem_cons, not_or]
            exact ⟨Ne.symm hc, ih (hparts ▸ List.mem_cons_self)⟩
          · exact ih (hparts ▸ List.mem_cons_of_mem _ h)

-- The pieces of a text have no separators in them, and joined by separators they are the text.
theorem intercalate_split (hmark : mark.toList = [separator]) (text : String) :
    mark.intercalate (split separator text) = text := by
  rw [← String.toList_inj, String.toList_intercalate, hmark, split, List.map_map]
  have hsame : String.toList ∘ String.ofList = id := funext fun _ => String.toList_ofList
  rw [hsame, List.map_id, splitList_eq, List.intercalate_splitOn]

theorem not_mem_of_split {piece : String} (h : piece ∈ split separator text) :
    separator ∉ piece.toList := by
  obtain ⟨part, hpart, rfl⟩ := List.mem_map.mp h
  rw [String.toList_ofList]
  exact not_mem_of_splitList hpart

-- What is joined by separators comes apart again.
theorem split_intercalate (hmark : mark.toList = [separator])
    (hfree : ∀ piece ∈ pieces, separator ∉ piece.toList) (hsome : pieces ≠ []) :
    split separator (mark.intercalate pieces) = pieces := by
  have hfree' : ∀ part ∈ pieces.map String.toList, separator ∉ part := by
    intro part hpart
    obtain ⟨piece, hpiece, rfl⟩ := List.mem_map.mp hpart
    exact hfree piece hpiece
  have hsome' : pieces.map String.toList ≠ [] := fun h => hsome (List.map_eq_nil_iff.mp h)
  rw [split, String.toList_intercalate, hmark, splitList_eq,
    List.splitOn_intercalate separator hfree' hsome', List.map_map]
  have hsame : String.ofList ∘ String.toList = id := funext fun _ => String.ofList_toList
  rw [hsame, List.map_id]

theorem splitOnce_of_not_mem (h : separator ∉ text.toList) : splitOnce separator text = none := by
  have hrest : text.toList.dropWhile (· ≠ separator) = [] := by
    refine List.dropWhile_eq_nil_iff.mpr fun c hc => decide_eq_true ?_
    rintro rfl
    exact h hc
  simp only [splitOnce, hrest]

theorem splitOnce_of_eq {before after : List Char} (htext : text.toList = before ++ separator :: after)
    (hfree : separator ∉ before) :
    splitOnce separator text = some (String.ofList before, String.ofList after) := by
  have hpass : ∀ c ∈ before, decide (c ≠ separator) = true := by
    intro c hc
    refine decide_eq_true ?_
    rintro rfl
    exact hfree hc
  have hrest : text.toList.dropWhile (· ≠ separator) = separator :: after := by
    rw [htext, List.dropWhile_append_of_pos hpass]
    exact List.dropWhile_cons_of_neg (by simp)
  have hbefore : text.toList.takeWhile (· ≠ separator) = before := by
    rw [htext, List.takeWhile_append_of_pos hpass]
    exact (congrArg (before ++ ·) (List.takeWhile_cons_of_neg (by simp))).trans (List.append_nil before)
  simp only [splitOnce, hrest, hbefore]

-- The first separator divides a text.
theorem splitOnce_eq_some_iff {before after : String} : splitOnce separator text = some (before, after) ↔
    text.toList = before.toList ++ separator :: after.toList ∧ separator ∉ before.toList := by
  constructor
  · intro h
    by_cases hmem : separator ∈ text.toList
    · obtain ⟨before, after, htext, hfree⟩ := List.eq_append_cons_of_mem hmem
      rw [splitOnce_of_eq htext hfree] at h
      cases h
      rw [String.toList_ofList, String.toList_ofList]
      exact ⟨htext, hfree⟩
    · rw [splitOnce_of_not_mem hmem] at h
      cases h
  · rintro ⟨htext, hfree⟩
    rw [splitOnce_of_eq htext hfree, String.ofList_toList, String.ofList_toList]

theorem mem_dropWhile {c : Char} (h : c ∈ cs) {p : Char → Bool} (hc : p c = false) :
    c ∈ cs.dropWhile p := by
  rw [← List.takeWhile_append_dropWhile (p := p) (l := cs), List.mem_append] at h
  refine h.resolve_left fun hmem => ?_
  exact Bool.false_ne_true (hc.symm.trans (List.mem_takeWhile_imp hmem))

-- Trimming takes blanks only.
theorem mem_trim {c : Char} (h : c ∈ text.toList) (hc : isBlank c = false) : c ∈ (trim text).toList := by
  rw [trim, String.toList_ofList, trimList, List.mem_reverse]
  exact mem_dropWhile (List.mem_reverse.mpr (mem_dropWhile h hc)) hc

end MapAlgebra.Text
