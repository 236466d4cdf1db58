import MapAlgebra.Json.Decode
import MapAlgebra.Proofs.Json.Printed
import MapAlgebra.Proofs.Outcome

namespace MapAlgebra

theorem readData_eq_ok {α : Type} {decode : Json → Option α} {text : String} {value : α} :
    readData decode text = .ok value ↔ (Json.read text).bind decode = some value := by
  unfold readData
  cases (Json.read text).bind decode with
  | none => simp
  | some found => simp

namespace Json

theorem whole?_ofInt {n : Int} (hlow : -2 ^ 63 ≤ n) (hhigh : n < 2 ^ 64) :
    Numeral.whole? ⟨n < 0, n.natAbs, 0, true⟩ = some n := by
  have hsigned : Nat.pow 2 63 = 2 ^ 63 := rfl
  have hunsigned : Nat.pow 2 64 = 2 ^ 64 := rfl
  by_cases hn : n < 0
  · have hfits : 0 < n.natAbs ∧ n.natAbs ≤ Nat.pow 2 63 := by omega
    have hback : -(n.natAbs : Int) = n := by omega
    simp only [Numeral.whole?, hn, decide_true, Bool.not_true, Bool.false_eq_true, if_false, if_true,
      if_pos hfits, hback]
  · have hfits : n.natAbs < Nat.pow 2 64 := by omega
    have hback : (n.natAbs : Int) = n := by omega
    simp only [Numeral.whole?, hn, decide_false, Bool.not_true, Bool.false_eq_true, if_false,
      if_pos hfits, hback]

-- A word that is written as a number is read as that number, where it is in range.
theorem intIn_toInt (low high : Int) (n : Int32) : intIn low high (ofInt n.toInt) =
    if low ≤ n.toInt ∧ n.toInt ≤ high then some n.toInt else none := by
  have hlow := n.le_toInt
  have hhigh := n.toInt_lt
  have hwhole := whole?_ofInt (by omega : -2 ^ 63 ≤ n.toInt) (by omega)
  simp only [intIn, ofInt, hwhole, Option.bind_eq_bind, Option.bind_some]

theorem int32?_toInt (n : Int32) : int32? (ofInt n.toInt) = some n.toInt := by
  have hlow := n.le_toInt
  have hhigh := n.toInt_lt
  have hword : Nat.pow 2 31 = 2 ^ 31 := rfl
  rw [int32?, intIn_toInt, if_pos (by omega)]

end Json

namespace Shape

variable {shape : Shape} {raw : Raw}

namespace Raw

-- The slots that the count says are in use, and the other ones.
def used (raw : Raw) : List Int := raw.slots.take raw.count.toNat

def unused (raw : Raw) : List Int := raw.slots.drop raw.count.toNat

-- The form of a pair of slots that stands for a shape.
structure Proper (raw : Raw) : Prop where
  count : 0 ≤ raw.count ∧ raw.count ≤ maxRank
  used : ∀ extent ∈ raw.used, 0 ≤ extent
  unused : ∀ slot ∈ raw.unused, slot = unsetExtent

-- Two slots and a count as they can come from outside: any three words.
def ofWords (first second count : Int32) : Raw := ⟨first.toInt, second.toInt, count.toInt⟩

end Raw

theorem ofExtents_eq {extents : List Nat} (h : extents.length ≤ maxRank) :
    ofExtents extents = ⟨extents, h⟩ := dif_pos h

theorem count_toRaw (shape : Shape) : shape.toRaw.count = shape.extents.length := by
  obtain ⟨_ | ⟨a, _ | ⟨b, _ | ⟨c, extents⟩⟩⟩, hrank⟩ := shape
  case cons.cons.cons => exact absurd hrank (by simp [maxRank])
  all_goals rfl

-- The slots of a shape hold its extents, and the others are unset.
theorem slots_toRaw (shape : Shape) : shape.toRaw.slots =
    shape.extents.map Int.ofNat ++
      List.replicate (maxRank - shape.extents.length) unsetExtent := by
  obtain ⟨_ | ⟨a, _ | ⟨b, _ | ⟨c, extents⟩⟩⟩, hrank⟩ := shape
  case cons.cons.cons => exact absurd hrank (by simp [maxRank])
  all_goals rfl

theorem used_toRaw (shape : Shape) : shape.toRaw.used = shape.extents.map Int.ofNat := by
  rw [Raw.used, slots_toRaw, count_toRaw]
  exact List.take_left' (List.length_map _)

theorem unused_toRaw (shape : Shape) :
    shape.toRaw.unused = List.replicate (maxRank - shape.extents.length) unsetExtent := by
  rw [Raw.unused, slots_toRaw, count_toRaw]
  exact List.drop_left' (List.length_map _)

theorem proper_toRaw (shape : Shape) : shape.toRaw.Proper := by
  refine ⟨?_, fun extent hextent => ?_, fun slot hslot => ?_⟩
  · have hrank := shape.rank_le
    rw [count_toRaw]
    omega
  · rw [used_toRaw] at hextent
    obtain ⟨n, -, rfl⟩ := List.mem_map.mp hextent
    exact Int.natCast_nonneg n
  · rw [unused_toRaw] at hslot
    exact List.eq_of_mem_replicate hslot

theorem isUnset_iff (shape : Shape) : shape.isUnset = true ↔ shape.toRaw.count = 0 := by
  rw [isUnset, List.isEmpty_iff, count_toRaw, Int.natCast_eq_zero, List.length_eq_zero_iff]

theorem slots_of_isUnset (h : shape.isUnset = true) : ∀ slot ∈ shape.toRaw.slots, slot = unsetExtent := by
  have hunused := (proper_toRaw shape).unused
  rw [Raw.unused, shape.isUnset_iff.mp h] at hunused
  exact hunused

-- A pair that has the form is the pair of the extents that it has in use.
theorem toRaw_used (h : raw.Proper) : (ofExtents (raw.used.map Int.toNat)).toRaw = raw := by
  obtain ⟨⟨hlow, hhigh⟩, hused, hunused⟩ := h
  obtain ⟨first, second, count⟩ := raw
  have hcases : count = 0 ∨ count = 1 ∨ count = 2 := by
    have hrank : count ≤ 2 := hhigh
    have hsome : 0 ≤ count := hlow
    omega
  obtain rfl | rfl | rfl := hcases
  · have hfirst : first = unsetExtent := hunused first List.mem_cons_self
    have hsecond : second = unsetExtent := hunused second (List.mem_cons_of_mem _ List.mem_cons_self)
    rw [hfirst, hsecond]
    rfl
  · have hfirst : 0 ≤ first := hused first List.mem_cons_self
    have hsecond : second = unsetExtent := hunused second List.mem_cons_self
    show (⟨(first.toNat : Int), unsetExtent, 1⟩ : Raw) = _
    rw [Int.toNat_of_nonneg hfirst, hsecond]
  · have hfirst : 0 ≤ first := hused first List.mem_cons_self
    have hsecond : 0 ≤ second := hused second (List.mem_cons_of_mem _ List.mem_cons_self)
    show (⟨(first.toNat : Int), (second.toNat : Int), 2⟩ : Raw) = _
    rw [Int.toNat_of_nonneg hfirst, Int.toNat_of_nonneg hsecond]

theorem ofRaw_of_proper (h : raw.Proper) : ofRaw raw = .ok (ofExtents (raw.used.map Int.toNat)) := by
  have hcount : ¬ (raw.count < 0 ∨ (maxRank : Int) < raw.count) := by
    have hbounds := h.count
    omega
  have hslots : ¬ (raw.used.any (· < 0) ∨ raw.unused.any (· ≠ unsetExtent)) := by
    simp only [List.any_eq_true, decide_eq_true_eq]
    rintro (⟨extent, hmem, hnegative⟩ | ⟨slot, hmem, hset⟩)
    · exact absurd (h.used extent hmem) (by omega)
    · exact hset (h.unused slot hmem)
  exact (if_neg hcount).trans (if_neg hslots)

theorem proper_of_ofRaw (h : ofRaw raw = .ok shape) : raw.Proper := by
  unfold ofRaw at h
  split at h
  · cases h
  · rename_i hcount
    dsimp only at h
    split at h
    · cases h
    · rename_i hslots
      simp only [List.any_eq_true, decide_eq_true_eq, not_or, not_exists, not_and] at hslots
      exact ⟨by omega, fun extent hmem => Int.not_lt.mp (hslots.1 extent hmem),
        fun slot hmem => not_not.mp (hslots.2 slot hmem)⟩

-- A shape is read from its own pair, and from no other one.
theorem ofRaw_eq_ok_iff : ofRaw raw = .ok shape ↔ shape.toRaw = raw := by
  constructor
  · intro h
    have hproper := proper_of_ofRaw h
    rw [ofRaw_of_proper hproper] at h
    rw [← Except.ok.inj h]
    exact toRaw_used hproper
  · rintro rfl
    have hextents : (shape.extents.map Int.ofNat).map Int.toNat = shape.extents := by
      rw [List.map_map]
      exact List.map_id _
    rw [ofRaw_of_proper (proper_toRaw shape), used_toRaw, hextents, ofExtents_eq shape.rank_le]

theorem ofRaw_total_iff : (∃ shape, ofRaw raw = .ok shape) ↔ raw.Proper :=
  ⟨fun ⟨_, h⟩ => proper_of_ofRaw h, fun h => ⟨_, ofRaw_of_proper h⟩⟩

-- The pairs of shapes are those that have the form.
theorem exists_toRaw_iff : (∃ shape : Shape, shape.toRaw = raw) ↔ raw.Proper := by
  rw [← ofRaw_total_iff]
  exact exists_congr fun _ => ofRaw_eq_ok_iff.symm

section Lists

variable {extents : List Int}

theorem withRank_eq_ok_iff : withRank extents = .ok shape ↔
    (extents.length ≤ maxRank ∧ ∀ extent ∈ extents, 0 ≤ extent) ∧
      ofExtents (extents.map Int.toNat) = shape := by
  unfold withRank
  split
  · rename_i hlong
    exact iff_of_false nofun fun h => absurd h.1.1 (by omega)
  · rename_i hshort
    split
    · rename_i extent hfound
      refine iff_of_false nofun fun h => ?_
      have hnegative : extent < 0 := by simpa using List.find?_some hfound
      exact absurd (h.1.2 extent (List.mem_of_find?_eq_some hfound)) (Int.not_le.mpr hnegative)
    · rename_i hnone
      rw [List.find?_eq_none] at hnone
      have hall : ∀ extent ∈ extents, 0 ≤ extent := fun extent hmem =>
        Int.not_lt.mp fun hnegative => hnone extent hmem (decide_eq_true hnegative)
      exact ⟨fun h => ⟨⟨Nat.le_of_not_lt hshort, hall⟩, Except.ok.inj h⟩,
        fun h => congrArg Except.ok h.2⟩

theorem withRank_total_iff : (∃ shape, withRank extents = .ok shape) ↔
    extents.length ≤ maxRank ∧ ∀ extent ∈ extents, 0 ≤ extent :=
  ⟨fun ⟨_, h⟩ => (withRank_eq_ok_iff.mp h).1, fun h => ⟨_, withRank_eq_ok_iff.mpr ⟨h, rfl⟩⟩⟩

-- The list that a shape was made from is in use in its pair.
theorem used_withRank (h : withRank extents = .ok shape) : shape.toRaw.used = extents := by
  obtain ⟨⟨hlength, hall⟩, rfl⟩ := withRank_eq_ok_iff.mp h
  have hrank : (extents.map Int.toNat).length ≤ maxRank := by rwa [List.length_map]
  rw [used_toRaw, ofExtents_eq hrank, List.map_map]
  exact (List.map_congr_left fun extent hmem => Int.toNat_of_nonneg (hall extent hmem)).trans
    (List.map_id _)

end Lists

section Text

theorem read_rawText (raw : Raw) : Json.read raw.dataText = some (.object
    [(some "dims", .array [.ofInt raw.first, .ofInt raw.second]), (some "len", .ofInt raw.count)]) := by
  have hint : ∀ n : Int, Json.Reads (toString n).toList (.ofInt n) := fun n =>
    Json.reads_number (Json.read_int n)
  refine Json.Reads.read (Json.reads_braces ?_ (List.cons_ne_nil _ _))
  refine .cons (Json.reads_member rfl ?_) (.cons (Json.reads_member rfl (hint _)) .nil)
  exact Json.reads_list (.cons (hint _) (.cons (hint _) .nil))

-- The text of a pair of words is read as that pair, unless its count is negative.
theorem readData_rawText (first second count : Int32) :
    readData Raw.ofJson? (Raw.ofWords first second count).dataText =
      if 0 ≤ count.toInt then .ok (Raw.ofWords first second count) else .error .data := by
  have hcount : Json.intIn 0 (Nat.pow 2 31 - 1) (.ofInt count.toInt) =
      if 0 ≤ count.toInt then some count.toInt else none := by
    have hhigh := count.toInt_lt
    have hword : Nat.pow 2 31 = 2 ^ 31 := rfl
    rw [Json.intIn_toInt]
    exact if_congr (by omega) rfl rfl
  have hrecord : ∀ slots count : Json, Json.record? ["dims", "len"]
      (.object [(some "dims", slots), (some "len", count)]) = some [some slots, some count] :=
    fun _ _ => rfl
  have hslots : Json.listOf Json.int32? (.array [.ofInt first.toInt, .ofInt second.toInt]) =
      some [first.toInt, second.toInt] := by
    simp only [Json.listOf, List.mapM_cons, Json.int32?_toInt]
    rfl
  unfold readData
  rw [read_rawText, Option.bind_some]
  simp only [Raw.ofJson?, Raw.ofWords, hrecord, hslots, hcount, Option.bind_eq_bind, Option.bind_some]
  by_cases hnegative : 0 ≤ count.toInt
  · rw [if_pos hnegative, if_pos hnegative]
    rfl
  · rw [if_neg hnegative, if_neg hnegative]
    rfl

-- A text is read as a shape when it is read as the pair of the shape.
theorem readData_shape_iff (text : String) :
    readData ofJson? text = .ok shape ↔ readData Raw.ofJson? text = .ok shape.toRaw := by
  rw [readData_eq_ok, readData_eq_ok, Option.bind_eq_some_iff, Option.bind_eq_some_iff]
  refine exists_congr fun json => and_congr_right fun _ => ?_
  unfold ofJson?
  rw [Option.bind_eq_bind, Option.bind_eq_some_iff]
  simp only [toOption_eq_some, ofRaw_eq_ok_iff]
  exact ⟨fun ⟨raw, hraw, hshape⟩ => hshape ▸ hraw, fun h => ⟨_, h, rfl⟩⟩

theorem readData_words_iff (first second count : Int32) :
    readData ofJson? (Raw.ofWords first second count).dataText = .ok shape ↔
      shape.toRaw = Raw.ofWords first second count := by
  rw [readData_shape_iff, readData_rawText]
  split
  · exact ⟨fun h => (Except.ok.inj h).symm, fun h => congrArg Except.ok h.symm⟩
  · rename_i hnegative
    refine iff_of_false nofun fun h => hnegative ?_
    have hcount := (proper_toRaw shape).count.1
    rwa [h] at hcount

end Text

end Shape

end MapAlgebra
