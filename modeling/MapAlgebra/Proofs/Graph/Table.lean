import MapAlgebra.Graph.Table

namespace MapAlgebra.Table

variable {α : Type}

theorem ext_entries {a b : Table α} (h : a.entries = b.entries) : a = b := by
  cases a
  cases b
  obtain rfl := h
  rfl

theorem lookup_eq_some_iff {entries : List (Nat × α)} (distinct : (entries.map Prod.fst).Nodup)
    (key : Nat) (value : α) :
    entries.lookup key = some value ↔ (key, value) ∈ entries := by
  induction entries with
  | nil => simp
  | cons entry entries ih =>
      obtain ⟨k, v⟩ := entry
      simp only [List.map_cons, List.nodup_cons] at distinct
      by_cases hk : key = k
      · subst hk
        have hout : (key, value) ∉ entries := fun member =>
          distinct.1 (List.mem_map.mpr ⟨_, member, rfl⟩)
        simp only [List.lookup_cons, beq_self_eq_true, Option.some.injEq, List.mem_cons,
          Prod.mk.injEq, true_and, hout, or_false]
        exact eq_comm
      · have hne : (key == k) = false := by simpa using hk
        simp [List.lookup_cons, hne, ih distinct.2, hk]

theorem get?_eq_some_iff (table : Table α) (key : Nat) (value : α) :
    table.get? key = some value ↔ (key, value) ∈ table.entries :=
  lookup_eq_some_iff table.distinct key value

@[simp] theorem get?_empty (key : Nat) : (empty : Table α).get? key = none := rfl

@[simp] theorem get?_erase_self (table : Table α) (key : Nat) :
    (table.erase key).get? key = none := by
  rw [Option.eq_none_iff_forall_ne_some]
  intro value h
  simp [get?_eq_some_iff, erase] at h

theorem get?_erase_of_ne (table : Table α) {key other : Nat} (h : other ≠ key) :
    (table.erase key).get? other = table.get? other := by
  apply Option.ext
  intro value
  simp [get?_eq_some_iff, erase, h]

theorem get?_erase (table : Table α) (key other : Nat) :
    (table.erase key).get? other = if other = key then none else table.get? other := by
  split
  · rename_i h
    rw [h, get?_erase_self]
  · rename_i h
    exact get?_erase_of_ne table h

theorem get?_insert (table : Table α) (key other : Nat) (value : α) :
    (table.insert key value).get? other = if other = key then some value else table.get? other := by
  by_cases h : other = key
  · simp [get?, insert, h]
  · have hne : (other == key) = false := by simpa using h
    rw [if_neg h, ← get?_erase_of_ne table h]
    simp [get?, insert, List.lookup_cons, hne]

private theorem lookup_modified (entries : List (Nat × α)) (key other : Nat) (f : α → α) :
    (entries.map fun (k, value) => (k, if k = key then f value else value)).lookup other =
      if other = key then (entries.lookup other).map f else entries.lookup other := by
  induction entries with
  | nil => simp
  | cons entry entries ih =>
      obtain ⟨k, v⟩ := entry
      simp only [List.map_cons, List.lookup_cons]
      by_cases hk : other = k
      · subst hk
        by_cases h : other = key <;> simp [h]
      · have hne : (other == k) = false := by simpa using hk
        simp only [hne, ih]

theorem get?_modify (table : Table α) (key other : Nat) (f : α → α) :
    (table.modify key f).get? other =
      if other = key then (table.get? other).map f else table.get? other :=
  lookup_modified table.entries key other f

-- Whatever is inserted last for a number stays.
theorem get?_insertAll_eq_some (entries : List (Nat × α)) (table : Table α) (key : Nat) (value : α)
    (h : (table.insertAll entries).get? key = some value) :
    (key, value) ∈ entries ∨ table.get? key = some value := by
  induction entries generalizing table with
  | nil => exact Or.inr h
  | cons entry entries ih =>
      obtain hin | hin := ih _ h
      · exact Or.inl (List.mem_cons_of_mem _ hin)
      · rw [get?_insert] at hin
        split at hin
        · rename_i hk
          cases hin
          exact Or.inl (hk ▸ List.mem_cons_self)
        · exact Or.inr hin

theorem contains_insertAll (entries : List (Nat × α)) (table : Table α) (key : Nat)
    (h : key ∈ entries.map Prod.fst ∨ table.contains key = true) :
    (table.insertAll entries).contains key = true := by
  induction entries generalizing table with
  | nil => exact h.resolve_left (by simp)
  | cons entry entries ih =>
      refine ih _ ?_
      by_cases hkey : key = entry.1
      · refine Or.inr ?_
        rw [contains, get?_insert, if_pos hkey]
        rfl
      · obtain hlisted | hthere := h
        · rw [List.map_cons, List.mem_cons] at hlisted
          exact Or.inl (hlisted.resolve_left hkey)
        · refine Or.inr ?_
          rw [contains, get?_insert, if_neg hkey]
          exact hthere

theorem contains_iff (table : Table α) (key : Nat) :
    table.contains key = true ↔ ∃ value, table.get? key = some value :=
  Option.isSome_iff_exists

-- The sum of a count over all entries.
def total (table : Table α) (count : Nat × α → Nat) : Nat :=
  (table.entries.map count).foldr (· + ·) 0

@[simp] theorem total_empty (count : Nat × α → Nat) : (empty : Table α).total count = 0 := rfl

private theorem sum_filter_ne {entries : List (Nat × α)} (distinct : (entries.map Prod.fst).Nodup)
    (count : Nat × α → Nat) {key : Nat} {value : α} (h : (key, value) ∈ entries) :
    ((entries.filter (·.1 ≠ key)).map count).foldr (· + ·) 0 + count (key, value) =
      (entries.map count).foldr (· + ·) 0 := by
  induction entries with
  | nil => simp at h
  | cons entry entries ih =>
      simp only [List.map_cons, List.nodup_cons] at distinct
      by_cases hk : entry.1 = key
      · have hout : ∀ other ∈ entries, other.1 ≠ key := fun other member same =>
          distinct.1 (List.mem_map.mpr ⟨other, member, same.trans hk.symm⟩)
        have hrest : entries.filter (·.1 ≠ key) = entries :=
          List.filter_eq_self.mpr fun other member => by simpa using hout other member
        obtain rfl | hin := List.mem_cons.mp h
        · rw [List.filter_cons_of_neg (by simp), hrest, List.map_cons, List.foldr_cons]
          exact Nat.add_comm _ _
        · exact absurd rfl (hout _ hin)
      · obtain rfl | hin := List.mem_cons.mp h
        · exact absurd rfl hk
        · have hsum := ih distinct.2 hin
          rw [List.filter_cons_of_pos (by simpa using hk), List.map_cons, List.map_cons,
            List.foldr_cons, List.foldr_cons]
          omega

theorem total_erase (table : Table α) (count : Nat × α → Nat) {key : Nat} {value : α}
    (h : table.get? key = some value) :
    (table.erase key).total count + count (key, value) = table.total count :=
  sum_filter_ne table.distinct count ((get?_eq_some_iff table key value).mp h)

theorem erase_eq_self (table : Table α) {key : Nat} (h : table.get? key = none) :
    (table.erase key).entries = table.entries := by
  apply List.filter_eq_self.mpr
  intro entry member
  simp only [ne_eq, decide_eq_true_eq]
  rintro rfl
  rw [(get?_eq_some_iff table entry.1 entry.2).mpr member] at h
  cases h

-- Changing an entry that is not there changes nothing.
theorem modify_eq_self (table : Table α) {key : Nat} (h : table.get? key = none) (f : α → α) :
    table.modify key f = table := by
  have hentries : (table.modify key f).entries = table.entries := by
    refine (List.map_congr_left fun entry member => ?_).trans (List.map_id _)
    have hother : entry.1 ≠ key := by
      rintro rfl
      rw [(get?_eq_some_iff table entry.1 entry.2).mpr member] at h
      cases h
    simp only [if_neg hother, id]
  exact ext_entries hentries

theorem total_insert_fresh (table : Table α) (count : Nat × α → Nat) {key : Nat} {value : α}
    (h : table.get? key = none) :
    (table.insert key value).total count = count (key, value) + table.total count := by
  simp only [total, insert, List.map_cons, List.foldr_cons, erase_eq_self table h]

theorem total_modify (table : Table α) (count : Nat × α → Nat) (key : Nat) (f : α → α)
    (h : ∀ value, count (key, f value) = count (key, value)) :
    (table.modify key f).total count = table.total count := by
  unfold total modify
  rw [List.map_map]
  congr 1
  apply List.map_congr_left
  intro entry _
  simp only [Function.comp]
  split
  · rename_i hk
    obtain ⟨k, v⟩ := entry
    subst hk
    exact h v
  · rfl

-- One entry never counts for more than all of them.
theorem le_total (table : Table α) (count : Nat × α → Nat) {key : Nat} {value : α}
    (h : table.get? key = some value) : count (key, value) ≤ table.total count := by
  have hsum := total_erase table count h
  omega

theorem total_congr (table : Table α) {f g : Nat × α → Nat}
    (h : ∀ key value, table.get? key = some value → f (key, value) = g (key, value)) :
    table.total f = table.total g := by
  unfold total
  congr 1
  exact List.map_congr_left fun entry hentry =>
    h entry.1 entry.2 ((get?_eq_some_iff table entry.1 entry.2).mpr hentry)

theorem total_eq_zero (table : Table α) (count : Nat × α → Nat)
    (h : ∀ key value, table.get? key = some value → count (key, value) = 0) :
    table.total count = 0 := by
  refine List.sum_eq_zero_iff_forall_eq_nat.mpr fun n hn => ?_
  obtain ⟨⟨key, value⟩, hmember, rfl⟩ := List.mem_map.mp hn
  exact h key value ((get?_eq_some_iff table key value).mpr hmember)

end MapAlgebra.Table
