import MapAlgebra.Proofs.Graph.Drafted
import MapAlgebra.Proofs.Graph.Typed

namespace MapAlgebra

theorem exists_forall₂ {α β : Type} {relation : α → β → Prop} {items : List α}
    (h : ∀ item ∈ items, ∃ result, relation item result) :
    ∃ results, List.Forall₂ relation items results := by
  induction items with
  | nil => exact ⟨[], .nil⟩
  | cons item items ih =>
      obtain ⟨first, hfirst⟩ := h item List.mem_cons_self
      obtain ⟨rest, hrest⟩ := ih fun other hother => h other (List.mem_cons_of_mem _ hother)
      exact ⟨first :: rest, .cons hfirst hrest⟩

namespace Graph

theorem broadcast_eq_ok {left right shape : List Nat} (h : broadcast left right = .ok shape) :
    Grid.Spreads left shape ∧ Grid.Spreads right shape ∧ (shape = left ∨ shape = right) := by
  unfold broadcast at h
  split at h
  · rename_i hsame
    cases h
    exact ⟨Or.inr rfl, Or.inr hsame.symm, Or.inl rfl⟩
  · split at h
    · rename_i hleft
      cases h
      exact ⟨Or.inl hleft, Or.inr rfl, Or.inr rfl⟩
    · split at h
      · rename_i hright
        cases h
        exact ⟨Or.inr rfl, Or.inl hright, Or.inl rfl⟩
      · cases h

-- What spreads to a shape that has axes keeps that shape or is a single value.
theorem broadcast_single (shape : List Nat) : broadcast shape [] = .ok shape := by
  unfold broadcast
  split
  · rfl
  · rw [if_pos rfl]

theorem spreads_of_broadcast {whole shape result : List Nat} (hwhole : whole ≠ [])
    (h : broadcast whole shape = .ok result) : Grid.Spreads shape whole := by
  obtain ⟨hspreads, hshape, _⟩ := broadcast_eq_ok h
  obtain hempty | rfl := hspreads
  · exact absurd hempty hwhole
  · exact hshape

theorem within_take {extents : List Nat} {entries : List Int}
    (hlength : extents.length ≤ entries.length)
    (hinside : ∀ extent c, (extent, c) ∈ extents.zip entries → 0 ≤ c ∧ c < extent) :
    Grid.Within extents (entries.take extents.length) := by
  induction extents generalizing entries with
  | nil => exact .nil
  | cons extent extents ih =>
      cases entries with
      | nil => cases hlength
      | cons c entries =>
          refine .cons (hinside extent c List.mem_cons_self) (ih ?_ fun other entry hmember => ?_)
          · exact Nat.le_of_succ_le_succ hlength
          · exact hinside other entry (List.mem_cons_of_mem _ hmember)

theorem inside_of_within_take {extents : List Nat} {entries : List Int}
    (h : Grid.Within extents (entries.take extents.length)) {extent : Nat} {c : Int}
    (hmember : (extent, c) ∈ extents.zip entries) : 0 ≤ c ∧ c < extent := by
  induction extents generalizing entries with
  | nil => cases hmember
  | cons first extents ih =>
      cases entries with
      | nil => cases hmember
      | cons entry entries =>
          obtain _ | ⟨hfirst, hrest⟩ := h
          obtain hhead | htail := List.mem_cons.mp hmember
          · cases hhead
            exact hfirst
          · exact ih hrest htail

-- A coordinate that passes the check addresses a cell by its leading entries.
theorem checkCoord_eq_ok {info : Meta} {position : Coord} {done : Unit}
    (h : checkCoord info position = .ok done) :
    Grid.Within info.shape (position.values.take info.shape.length) := by
  unfold checkCoord at h
  split at h
  · cases h
  · split at h
    · cases h
    · rename_i hinside
      split at h
      · cases h
      · rename_i hrank
        refine within_take (Nat.le_of_not_lt hrank) fun extent c hmember => ?_
        have houtside : ¬ (c < 0 ∨ (extent : Int) ≤ c) := fun houtside =>
          hinside (List.any_eq_true.mpr ⟨(extent, c), hmember, decide_eq_true houtside⟩)
        omega

theorem checkCoord_of_within {info : Meta} {position : Coord} (haxes : info.shape ≠ [])
    (hrank : info.shape.length ≤ maxRank)
    (h : Grid.Within info.shape (position.values.take info.shape.length)) :
    checkCoord info position = .ok () := by
  unfold checkCoord
  rw [if_neg haxes]
  split
  · rename_i houtside
    obtain ⟨⟨extent, c⟩, hmember, hbeyond⟩ := List.any_eq_true.mp houtside
    have hbounds := inside_of_within_take h hmember
    have hcase : c < 0 ∨ (extent : Int) ≤ c := of_decide_eq_true hbeyond
    omega
  · rw [if_neg (Nat.not_lt.mpr hrank)]

theorem weightsOf_eq_ok {kernel : List Scalar} {shape : Shape} {weights : Weights}
    (h : weightsOf kernel shape = .ok weights) :
    weights.values.size = weights.rows * weights.columns := by
  unfold weightsOf at h
  split at h
  · split at h
    · rename_i hfills
      cases h
      simp [hfills.1]
    · cases h
  · cases h

theorem length_blockCounts (extents blocks : List Nat) :
    (blockCounts extents blocks).length = extents.length := by
  induction extents generalizing blocks with
  | nil => rfl
  | cons extent extents ih => cases blocks <;> simp [blockCounts, ih]

section Drafting

variable {ν : Type} {info : ν → Except MapError Meta} {isEmpty : ν → Bool} {store : Store}
  {draft : Draft} {relation : ν → Form → Prop}

-- What the branches of a conditional are read from is what was settled for them.
theorem branches_read {known : ν → Meta → Prop} {yes no standIn : ν} {yesNote noNote : Option Meta}
    {yesInfo noInfo : Meta} (hyes : branch info isEmpty yes = .ok yesNote)
    (hno : branch info isEmpty no = .ok noNote)
    (h : branches yesNote noNote = .ok (yesInfo, noInfo))
    (hknown : ∀ node note, info node = .ok note → known node note)
    (hstandIn : ∀ note,
      (if yesNote.isNone then some yesInfo else if noNote.isNone then some noInfo else none) =
        some note → known standIn note) :
    known (if isEmpty yes then standIn else yes) yesInfo ∧
      known (if isEmpty no then standIn else no) noInfo := by
  obtain ⟨hempty, rfl⟩ | ⟨hthere, found, hfound, rfl⟩ := branch_cases hyes
  · obtain ⟨_, rfl⟩ | ⟨hother, other, hfound, rfl⟩ := branch_cases hno
    · cases h
    · cases h
      rw [hempty, hother]
      exact ⟨hstandIn _ rfl, hknown _ _ hfound⟩
  · obtain ⟨hempty, rfl⟩ | ⟨hother, other, hsecond, rfl⟩ := branch_cases hno
    · cases h
      rw [hthere, hempty]
      exact ⟨hknown _ _ hfound, hstandIn _ rfl⟩
    · cases h
      rw [hthere, hother]
      exact ⟨hknown _ _ hfound, hknown _ _ hsecond⟩

-- What stands in for an empty branch is a single value.
theorem draftOf_standIn_single {request : Request ν} {note : Meta}
    (h : draftOf info isEmpty store request = .ok draft) (hsome : draft.standIn = some note) :
    note.shape = [] := by
  cases draftOf_eq_ok h with
  | conditional _ hyes hno hbranches _ _ =>
      obtain ⟨_, rfl⟩ | ⟨_, _, _, rfl⟩ := branch_cases hyes
      · obtain ⟨_, rfl⟩ | ⟨_, _, _, rfl⟩ := branch_cases hno
        · cases hbranches
        · cases hbranches
          cases hsome
          rfl
      · obtain ⟨_, rfl⟩ | ⟨_, _, _, rfl⟩ := branch_cases hno
        · cases hbranches
          cases hsome
          rfl
        · cases hbranches
          cases hsome
  | _ => cases hsome

-- Whatever is known about the nodes of a request is known about its summaries that are there.
theorem exists_summaries {α : Type} {known : ν → α → Prop} {node : ν} {summaries : List ν}
    (h : ∀ other ∈ node :: summaries, isEmpty other = true ∨ ∃ fact, known other fact) :
    ∃ facts, List.Forall₂ known (summaries.filter (!isEmpty ·)) facts := by
  refine exists_forall₂ fun summary hsummary => ?_
  obtain ⟨hlisted, hgiven⟩ := List.mem_filter.mp hsummary
  obtain hempty | hfact := h summary (List.mem_cons_of_mem _ hlisted)
  · simp [hempty] at hgiven
  · exact hfact

-- The extents of a conditional are those that its parts spread to.
theorem Typed.ofConditional {condition yes no middle shape : List Nat} {a b c : DataType}
    (hmiddle : broadcast condition yes = .ok middle) (hshape : broadcast middle no = .ok shape)
    (dtype : DataType) :
    Typed .conditional [⟨a, condition⟩, ⟨b, yes⟩, ⟨c, no⟩] ⟨dtype, shape⟩ := by
  obtain ⟨hfirst, hsecond, hmiddle⟩ := broadcast_eq_ok hmiddle
  obtain ⟨hleft, hthird, hend⟩ := broadcast_eq_ok hshape
  -- A shape that spreads to the first result goes on to the second.
  have hspreads : ∀ other : List Nat, Grid.Spreads other middle → Grid.Spreads other shape := by
    rintro other (hsingle | rfl)
    · exact Or.inl hsingle
    · exact hleft
  refine .conditional (hspreads _ hfirst) (hspreads _ hsecond) hthird ?_
  obtain rfl | hend := hend
  · exact hmiddle.imp_right Or.inl
  · exact Or.inr (Or.inr hend)

-- A request that passes all checks makes an operation that goes with the forms of its inputs.
theorem draftOf_typed {request : Request ν} (standIn : ν)
    (h : draftOf info isEmpty store request = .ok draft)
    (hknown : ∀ node note, info node = .ok note → relation node note.form)
    (hstandIn : ∀ note, draft.standIn = some note → relation standIn note.form)
    (hthere : ∀ node ∈ request.nodes, isEmpty node = true ∨ ∃ form, relation node form) :
    ∃ forms, List.Forall₂ relation (request.inputs isEmpty standIn) forms ∧
      Typed draft.kind forms draft.info.form := by
  have hone : ∀ {node : ν} {note : Meta}, info node = .ok note →
      List.Forall₂ relation [node] [note.form] := fun hnote => .cons (hknown _ _ hnote) .nil
  cases draftOf_eq_ok h with
  | @constant _ _ layout hvalue => exact ⟨[], .nil, .constant _ layout.size.rank_le⟩
  | @index layout _ _ hdimension haxis => exact ⟨[], .nil, .index haxis layout.size.rank_le⟩
  | rand hnote => exact ⟨_, hone hnote, .rand rfl⟩
  | cast hdtype hnote => exact ⟨_, hone hnote, .cast rfl⟩
  | unary hnote => exact ⟨_, hone hnote, .unary _ rfl⟩
  | binary hleft hright hshape =>
      obtain ⟨hfirst, hsecond, hshape⟩ := broadcast_eq_ok hshape
      exact ⟨_, .cons (hknown _ _ hleft) (hone hright), .binary _ hfirst hsecond hshape⟩
  | conditional hcondition hyes hno hbranches hmiddle hshape =>
      obtain ⟨hreadYes, hreadNo⟩ := branches_read hyes hno hbranches hknown hstandIn
      exact ⟨_, .cons (hknown _ _ hcondition) (.cons hreadYes (.cons hreadNo .nil)),
        .ofConditional hmiddle hshape _⟩
  | access hnote hposition =>
      exact ⟨_, hone hnote, .access (checkCoord_eq_ok hposition) rfl⟩
  | update hnote hvalue hposition hsingle =>
      exact ⟨_, .cons (hknown _ _ hnote) (hone hvalue),
        .update (checkCoord_eq_ok hposition) hsingle rfl⟩
  | neighbor hnote => exact ⟨_, hone hnote, .neighbor _ rfl⟩
  | boundedNeighbor hnote hrow hcolumn haxes _ hrows hcolumns =>
      exact ⟨_, .cons (hknown _ _ hnote) (.cons (hknown _ _ hrow) (hone hcolumn)),
        .boundedNeighbor (spreads_of_broadcast haxes hrows)
          (spreads_of_broadcast haxes hcolumns) rfl⟩
  | convolution hweights hnote hplane =>
      exact ⟨_, hone hnote, .convolution (weightsOf_eq_ok hweights) hplane rfl⟩
  | focal hweights hnote hplane =>
      exact ⟨_, hone hnote, .focal _ (weightsOf_eq_ok hweights) hplane rfl⟩
  | zonal hnote => exact ⟨_, hone hnote, .zonal _ rfl⟩
  | radial hnote hplane => exact ⟨_, hone hnote, .radial _ _ hplane rfl⟩
  | blockStats hnote => exact ⟨_, hone hnote, .blockStats _ (length_blockCounts _ _)⟩
  | stats hnote =>
      obtain ⟨forms, hforms⟩ := exists_summaries hthere
      exact ⟨_, .cons (hknown _ _ hnote) hforms, .stats forms⟩
  | barrier hnote => exact ⟨_, hone hnote, .barrier⟩
  | identity hnote => exact ⟨_, hone hnote, .identity⟩
  | read _ => exact ⟨[], .nil, .read rfl rfl⟩

end Drafting

end Graph

end MapAlgebra
