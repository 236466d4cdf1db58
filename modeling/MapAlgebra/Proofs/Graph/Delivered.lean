import MapAlgebra.Proofs.Graph.Suited

namespace MapAlgebra.Graph

namespace Meta

theorem extentWord_eq {extent : Nat} (h : extent < 2 ^ 31) : extentWord extent = extent :=
  Int32.toInt_ofNat_of_lt h

-- Extents that fit a word are reported as they are.
theorem size_eq {info : Meta} (hrank : info.shape.length ≤ maxRank)
    (hwords : ∀ extent ∈ info.shape, extent < 2 ^ 31) : info.size.extents = info.shape := by
  have hmap : info.shape.map extentWord = info.shape.map Int.ofNat :=
    List.map_congr_left fun extent hmember => extentWord_eq (hwords extent hmember)
  have hnegative : (info.shape.map Int.ofNat).find? (· < 0) = none := by
    rw [List.find?_eq_none]
    intro extent hmember
    obtain ⟨n, _, rfl⟩ := List.mem_map.mp hmember
    simp
  have hback : (info.shape.map Int.ofNat).map Int.toNat = info.shape := by
    have hsame : Int.toNat ∘ Int.ofNat = id := funext Int.toNat_natCast
    rw [List.map_map, hsame, List.map_id]
  have hlength : ¬ maxRank < (info.shape.map Int.ofNat).length := by
    rw [List.length_map]
    omega
  have hread : Shape.withRank (info.shape.map extentWord) = .ok (Shape.ofExtents info.shape) := by
    rw [hmap, Shape.withRank, if_neg hlength, hnegative, hback]
  rw [size, hread]
  exact congrArg Shape.extents (dif_pos hrank)

end Meta

namespace State

variable {state : State}

-- A node that needs neither a loop nor a tail.
def Loopless (state : State) (id : Nat) : Prop :=
  ∀ other node, state.Needs id other → state.nodes.get? other = some node →
    node.kind.isPlain = true

theorem Loopless.steady {id : Nat} (h : state.Loopless id) : state.SteadyBelow id := by
  intro loop node plan hneeds hloop hkind
  have hplain := h loop node hneeds hloop
  rw [hkind] at hplain
  cases hplain

theorem Loopless.not_givesUp {id : Nat} {problem : MapError} (h : state.Loopless id) :
    ¬ state.GivesUp id problem := by
  rintro ⟨loop, node, plan, hneeds, hloop, hkind, _⟩
  have hplain := h loop node hneeds hloop
  rw [hkind] at hplain
  cases hplain

end State

-- What the checks of a request let through can be computed. Without loops every node that is there
-- has a grid, of the type and the extents that are noted about it and with as many cells as they
-- span, and so can any number of nodes be computed together.
theorem loopless_evaluates {state : State} (h : Reachable state) (hstocked : state.Stocked) :
    (∀ id node, state.nodes.get? id = some node → node.kind.Grounded node.info) ∧
    (∀ id node, state.nodes.get? id = some node → state.Loopless id →
      ∃ grid, state.grid id = .ok grid ∧ grid.dtype = node.info.dtype ∧
        grid.shape = node.info.shape ∧ grid.cells.size = cellCount node.info.shape) ∧
    ∀ nodes : List Address,
      (∀ id ∈ nodes, state.nodes.contains id = true ∧ state.Loopless id) →
        (simulator.evaluate nodes state).1 = .ok () := by
  have hgrid : ∀ id node, state.nodes.get? id = some node → state.Loopless id →
      ∃ grid, state.grid id = .ok grid ∧ grid.Has node.info.form := by
    intro id node hnode hloopless
    have hlive := (Table.contains_iff _ _).mpr ⟨node, hnode⟩
    have hyields := State.grid_yields h.looped h.formed hstocked hlive hloopless.steady
    cases hresult : state.grid id with
    | error problem =>
        rw [hresult] at hyields
        exact absurd hyields hloopless.not_givesUp
    | ok grid =>
        rw [hresult] at hyields
        obtain ⟨form, hform, hhas⟩ := hyields
        obtain rfl := hform.unique ⟨node, hnode, rfl⟩
        exact ⟨grid, rfl, hhas⟩
  refine ⟨fun id node hnode => ?_, fun id node hnode hloopless => ?_, fun nodes hnodes => ?_⟩
  · cases h.formed.noted hnode with
    | plain _ _ htyped => exact htyped.grounded rfl
    | loop hkind _ _ _ =>
        rw [hkind]
        trivial
    | tail hkind _ _ _ _ _ _ =>
        rw [hkind]
        trivial
  · obtain ⟨grid, hresult, hhas⟩ := hgrid id node hnode hloopless
    exact ⟨grid, hresult, hhas.dtype, hhas.shape, hhas.cells⟩
  · obtain ⟨grids, hgrids⟩ : ∃ grids, nodes.mapM state.gridOf = .ok grids := by
      refine mapM_total fun id hmember => ?_
      obtain ⟨hlive, hloopless⟩ := hnodes id hmember
      obtain ⟨node, hnode⟩ := (Table.contains_iff _ _).mp hlive
      obtain ⟨grid, hresult, _⟩ := hgrid id node hnode hloopless
      exact ⟨grid, (h.grid_eq id).symm.trans hresult⟩
    rw [h.evaluate_eq fun id hmember => (hnodes id hmember).1, hgrids]
    rfl

-- An empty plane that was read, a conditional on it without a second branch, its neighbors and
-- their blocks.
def swept : State :=
  { State.empty 5 none with store := ⟨[("a", ⟨.s32, [0, 3], #[]⟩)], [], none⟩ }.afterCalls
    [.construct (.read "a"), .acquire 1, .construct (.constant (.s32 1) (.single .s32)), .acquire 2,
      .construct (.conditional 1 2 Address.null), .acquire 4, .construct (.neighbor 4 ⟨1, -1⟩),
      .acquire 5, .construct (.blockStats 5 .sum)]

-- The blocks have a cell although what they are made of has none.
theorem swept_evaluates :
    Reachable swept ∧ swept.Stocked ∧ swept.Loopless 6 ∧
      (swept.nodes.get? 6).map (·.info.shape) = some [1, 1] ∧
      ∃ grid, swept.grid 6 = .ok grid ∧ grid.cells.size = 1 := by
  have hreachable : Reachable swept := ((Reachable.empty 5 none).restock _).calls _ (by decide)
  have hstocked : swept.Stocked := State.stocked_of_entries (by decide)
  have hloopless : swept.Loopless 6 := by
    intro other node _ hnode
    have hplain : ∀ entry ∈ swept.nodes.entries, entry.2.kind.isPlain = true := by decide
    exact hplain _ ((Table.get?_eq_some_iff _ _ _).mp hnode)
  obtain ⟨grid, hgrid, _, _, hcells⟩ :=
    (loopless_evaluates hreachable hstocked).2.1 6 _ rfl hloopless
  exact ⟨hreachable, hstocked, hloopless, by decide, grid, hgrid, hcells⟩

-- A loop, a tail and whatever needs them have grids of the type and the extents that the engine
-- reports about them, after any number of rounds, as long as no carried value changes its type or
-- its extents in the first round and every condition is a truth value. No cell is looked for outside
-- a grid; only too many rounds can keep such a node from its grid.
theorem steady_loops_agree {state : State} (h : Reachable state) (hstocked : state.Stocked)
    {id : Nat} {node : Node} (hnode : state.nodes.get? id = some node)
    (hsteady : state.SteadyBelow id) :
    (∀ grid, state.grid id = .ok grid →
      (simulator.dataType id state).1 = .ok grid.dtype ∧ node.info.shape = grid.shape ∧
        ((∀ extent ∈ grid.shape, extent < 2 ^ 31) →
          ∃ shape, (simulator.size id state).1 = .ok shape ∧ shape.extents = grid.shape)) ∧
    ∀ problem, state.grid id = .error problem → state.GivesUp id problem := by
  have hlive := (Table.contains_iff _ _).mpr ⟨node, hnode⟩
  have hyields := State.grid_yields h.looped h.formed hstocked hlive hsteady
  have hinfo : state.info id = .ok node.info :=
    bind_eq_ok.mpr ⟨node, State.find_eq h.consistent.counted.numbered hnode, rfl⟩
  refine ⟨fun grid hgrid => ?_, fun problem hproblem => ?_⟩
  · rw [hgrid] at hyields
    obtain ⟨form, hform, hhas⟩ := hyields
    obtain rfl := hform.unique ⟨node, hnode, rfl⟩
    have hrank := State.rank_le h.looped h.formed hstocked hform
    refine ⟨?_, hhas.shape.symm, fun hwords => ⟨node.info.size, ?_, ?_⟩⟩
    · rw [hhas.dtype]
      exact bind_eq_ok.mpr ⟨node.info, hinfo, rfl⟩
    · exact bind_eq_ok.mpr ⟨node.info, hinfo, rfl⟩
    · rw [hhas.shape] at hwords ⊢
      exact Meta.size_eq hrank hwords
  · rw [hproblem] at hyields
    exact hyields

-- A loop over a truth value that every round negates.
def flipping : State :=
  (State.empty 5 none).afterCalls
    [.construct (.constant (.bool true) (.single .b8)), .acquire 1, .loopStart, .loopCondition 1,
      .loopReplay .first, .construct (.unary 1 .not), .acquire 2, .loopCondition 2,
      .loopReplay .second, .construct (.unary 2 .not), .loopAssemble]

-- The loop ends after one round with a truth value.
theorem flipping_agrees :
    Reachable flipping ∧ flipping.Stocked ∧ flipping.SteadyBelow 4 ∧
      (simulator.dataType 4 flipping).1 = .ok .b8 ∧
      ∃ grid, flipping.grid 4 = .ok grid ∧ grid.dtype = .b8 := by
  have hreachable : Reachable flipping := (Reachable.empty 5 none).calls _ (by decide)
  have hstocked : flipping.Stocked := State.stocked_of_entries (by decide)
  have hsteady : flipping.SteadyBelow 4 := by
    intro loop node plan _ hloop hkind
    have honly : ∀ entry ∈ flipping.nodes.entries,
        entry.2.kind.isPlain = true ∨ entry.1 = 4 ∨ entry.1 = 5 := by decide
    obtain hplain | rfl | rfl := honly _ ((Table.get?_eq_some_iff _ _ _).mp hloop)
    · rw [hkind] at hplain
      cases hplain
    · have hplan : (flipping.nodes.get? 4).map (·.kind) =
          some (.loop ⟨[2], [[.carried 0]], [⟨1, 0⟩]⟩) := rfl
      rw [hloop, Option.map_some, hkind] at hplan
      cases hplan
      exact ⟨by decide, by decide⟩
    · have htail : (flipping.nodes.get? 5).map (·.kind) = some (.loopTail 0) := rfl
      rw [hloop, Option.map_some, hkind] at htail
      cases htail
  have hevaluates : (flipping.grid 4).isOk = true := by decide +kernel
  cases hgrid : flipping.grid 4 with
  | error problem =>
      rw [hgrid] at hevaluates
      cases hevaluates
  | ok grid =>
      obtain ⟨hdtype, _⟩ := (steady_loops_agree hreachable hstocked rfl hsteady).1 grid hgrid
      exact ⟨hreachable, hstocked, hsteady, rfl, grid, rfl, (Except.ok.inj hdtype).symm⟩

-- A loop over whole numbers, whose condition is the carried value itself.
def counting : State :=
  (State.empty 5 none).afterCalls
    [.construct (.constant (.s32 0) (.single .s32)), .acquire 1, .loopStart, .loopCondition 1,
      .loopReplay .first, .construct (.identity 1), .acquire 2, .loopCondition 2,
      .loopReplay .second, .construct (.identity 2), .loopAssemble]

-- A loop that reduces the blocks of its carried value.
def shrinking : State :=
  (State.empty 5 none).afterCalls
    [.construct (.constant (.s32 1)
        { Layout.single .s32 with size := .ofExtents [1, 4], block := .ofExtents [1, 2] }),
      .acquire 1, .loopStart, .loopCondition 1, .loopReplay .first, .construct (.unary 1 .pos),
      .construct (.blockStats 2 .max), .acquire 3, .loopCondition 3, .loopReplay .second,
      .construct (.unary 3 .pos), .construct (.blockStats 4 .max), .loopAssemble]

-- The value of a loop is not brought into the type that is noted about the loop. Where the extents
-- of a carried value change, the second round looks for cells outside the grid.
theorem unsteady_loops_differ :
    (Reachable counting ∧ counting.Stocked ∧ (simulator.dataType 4 counting).1 = .ok .b8 ∧
      ∃ grid, counting.grid 4 = .ok grid ∧ grid.dtype = .s32) ∧
    Reachable shrinking ∧ shrinking.Stocked ∧
      (shrinking.nodes.get? 6).map (·.kind.label) = some "Loop" ∧
      shrinking.grid 6 = .error .brokenInvariant := by
  refine ⟨⟨(Reachable.empty 5 none).calls _ (by decide), State.stocked_of_entries (by decide), rfl,
    ?_⟩, (Reachable.empty 5 none).calls _ (by decide), State.stocked_of_entries (by decide), rfl, ?_⟩
  · have htype : (counting.grid 4).toOption.map Grid.dtype = some .s32 := by decide +kernel
    cases hgrid : counting.grid 4 with
    | error problem =>
        rw [hgrid] at htype
        cases htype
    | ok grid =>
        rw [hgrid] at htype
        exact ⟨grid, rfl, Option.some.inj htype⟩
  · have hfails : (match shrinking.grid 6 with
        | .error .brokenInvariant => true
        | _ => false) = true := by decide +kernel
    cases hgrid : shrinking.grid 6 with
    | ok grid =>
        rw [hgrid] at hfails
        cases hfails
    | error problem =>
        rw [hgrid] at hfails
        cases problem with
        | brokenInvariant => rfl
        | _ => cases hfails

end MapAlgebra.Graph
