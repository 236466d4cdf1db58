import MapAlgebra.Bindings

namespace MapAlgebra.Bindings

theorem lookup_filter_ne (entries : List (String × Operand)) (name other : String) :
    (entries.filter (·.1 ≠ name)).lookup other =
      if other = name then none else entries.lookup other := by
  induction entries with
  | nil => simp
  | cons entry entries ih =>
      by_cases hentry : entry.1 = name
      · rw [List.filter_cons_of_neg (by simp [hentry]), ih]
        by_cases hother : other = name
        · rw [if_pos hother, if_pos hother]
        · have hdiffers : other ≠ entry.1 := fun hsame => hother (hsame.trans hentry)
          rw [if_neg hother, if_neg hother, List.lookup_cons, beq_false_of_ne hdiffers]
      · rw [List.filter_cons_of_pos (by simp [hentry]), List.lookup_cons, List.lookup_cons]
        by_cases hsame : other = entry.1
        · rw [beq_iff_eq.mpr hsame, if_neg fun hother => hentry (hsame.symm.trans hother)]
        · rw [beq_false_of_ne hsame]
          exact ih

theorem find?_erase (bindings : Bindings) (name other : String) :
    (bindings.erase name).find? other = if other = name then none else bindings.find? other :=
  lookup_filter_ne bindings.entries name other

theorem find?_bind (bindings : Bindings) (name other : String) (operand : Operand) :
    (bindings.bind name operand).find? other =
      if other = name then some operand else bindings.find? other := by
  show ((name, operand) :: (bindings.erase name).entries).lookup other = _
  by_cases hother : other = name
  · rw [List.lookup_cons, beq_iff_eq.mpr hother, if_pos hother]
  · rw [List.lookup_cons, beq_false_of_ne hother, if_neg hother]
    exact (find?_erase bindings name other).trans (if_neg hother)

theorem find?_replace (bindings : Bindings) (name other : String) (operand : Operand) :
    (bindings.replace name operand).find? other =
      if other = name then (bindings.find? other).map fun _ => operand
      else bindings.find? other := by
  show (bindings.entries.map _).lookup other = _
  unfold find?
  induction bindings.entries with
  | nil => simp
  | cons entry entries ih =>
      rw [List.map_cons, List.lookup_cons, List.lookup_cons]
      by_cases hother : other = entry.1
      · rw [beq_iff_eq.mpr hother]
        by_cases hname : entry.1 = name
        · rw [if_pos hname, if_pos (hother.trans hname)]
          rfl
        · rw [if_neg hname, if_neg fun hsame => hname (hother.symm.trans hsame)]
      · rw [beq_false_of_ne hother]
        exact ih

theorem mem_names_iff (bindings : Bindings) (name : String) :
    name ∈ bindings.names ↔ ∃ operand, bindings.find? name = some operand := by
  unfold names find?
  induction bindings.entries with
  | nil => simp
  | cons entry entries ih =>
      rw [List.map_cons, List.mem_cons, List.lookup_cons, ih]
      by_cases hname : name = entry.1
      · simp [hname]
      · simp [hname, beq_false_of_ne hname]

theorem find?_eq_none_iff (bindings : Bindings) (name : String) :
    bindings.find? name = none ↔ name ∉ bindings.names := by
  rw [mem_names_iff]
  cases bindings.find? name <;> simp

theorem names_replace (bindings : Bindings) (name : String) (operand : Operand) :
    (bindings.replace name operand).names = bindings.names := by
  simp [names, replace]

theorem names_erase (bindings : Bindings) (name : String) :
    (bindings.erase name).names = bindings.names.filter (· ≠ name) := by
  simp only [names, erase, List.filter_map]
  rfl

-- A new name goes behind all others.
theorem names_append {bindings : Bindings} {name : String} (h : bindings.find? name = none)
    (operand : Operand) : (bindings.append name operand).names = bindings.names ++ [name] := by
  have hothers : (bindings.erase name).names = bindings.names := by
    rw [names_erase]
    apply List.filter_eq_self.mpr
    intro other hother
    rw [find?_eq_none_iff] at h
    exact decide_eq_true fun hsame => h (hsame ▸ hother)
  rw [← hothers]
  simp [names, append]

end MapAlgebra.Bindings
