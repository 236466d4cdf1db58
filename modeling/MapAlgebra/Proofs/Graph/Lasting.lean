import MapAlgebra.Proofs.Graph.Building

namespace MapAlgebra.Graph

-- What later calls make of a graph when every node they name is the null node or still there.
-- Named grids may change from outside at any time.
inductive Later (before : State) : State → Prop
  | now : Later before before
  | call {state : State} (call : Call) (h : Later before state)
      (hnodes : ∀ node ∈ call.nodes, node = Address.null ∨ state.nodes.contains node = true) :
      Later before (call.after simulator state)
  | restock {state : State} (store : Store) (h : Later before state) :
      Later before { state with store }

namespace Later

variable {before after : State}

theorem reachable (h : Later before after) (hbefore : Reachable before) : Reachable after := by
  induction h with
  | now => exact hbefore
  | call call _ hnodes ih => exact ih.call call hnodes
  | restock store _ ih => exact ih.restock store

theorem changes (h : Later before after) (hbefore : Looped before) : Changes before after := by
  induction h with
  | now => exact .refl
  | call call _ hnodes ih =>
      exact ih.trans (Changes.call call (hbefore.changes ih).consistent.counted.numbered hnodes)
  | @restock state store _ ih => exact ih.tail (.equip state store state.ranks state.devices)

theorem onward (h : Later before after) (hbefore : Reachable before) : Onward before after :=
  (h.changes hbefore.looped).onward

theorem calls {state : State} (h : Later before state) (calls : List Call)
    (hcalls : state.admits calls = true) : Later before (state.afterCalls calls) := by
  induction calls generalizing state with
  | nil => exact h
  | cons call calls ih =>
      rw [State.admits, Bool.and_eq_true, List.all_eq_true] at hcalls
      refine ih (h.call call fun node hnode => ?_) hcalls.2
      simpa using hcalls.1 node hnode

-- A node that is still there has the grid that its graph determined before.
theorem gridOf_eq (h : Later before after) (hbefore : Reachable before) {id : Nat}
    (hlive : before.nodes.contains id = true) (hstays : after.nodes.contains id = true) :
    after.gridOf id = before.gridOf id := by
  have hold := hbefore.consistent
  have hnew := (h.reachable hbefore).consistent
  exact hold.gridOf_eq hnew (h.onward hbefore) hstays (hold.counted.numbered.lt_next hlive)

end Later

namespace Reachable

variable {state : State}

theorem grid_eq (h : Reachable state) (id : Nat) : state.grid id = state.gridOf id :=
  State.grid_eq h.consistent.founded h.consistent.counted.numbered h.consistent.computed id

-- The value of a node is the one cell of its grid.
theorem value_eq (h : Reachable state) (id : Nat) :
    (simulator.value id state).1 = (state.gridOf id).bind Grid.toScalar := by
  rw [← h.grid_eq id]
  rfl

-- An evaluation succeeds if all its nodes have grids, and otherwise fails as the first that has
-- none.
theorem evaluate_eq (h : Reachable state) {nodes : List Address}
    (hlive : ∀ node ∈ nodes, state.nodes.contains node = true) :
    (simulator.evaluate nodes state).1 = (nodes.mapM state.gridOf).map fun _ => () := by
  have hconsistent := h.consistent
  have hnull : Address.null ∉ nodes := fun hmember => by
    obtain ⟨info, hinfo⟩ := (Table.contains_iff _ _).mp (hlive _ hmember)
    exact absurd (hconsistent.counted.numbered.range hinfo).1 (Nat.lt_irrefl 0)
  have hrun : state.evaluate nodes = (nodes.mapM state.gridOf).map fun grids =>
      { state with computed := state.computed.insertAll (nodes.zip grids) } := by
    rw [State.evaluate, if_neg hnull, State.evaluateAll_eq hconsistent.founded
      hconsistent.counted.numbered hconsistent.computed]
    rfl
  show (atomically_ (·.evaluate nodes) state).1 = _
  unfold atomically_ atomically
  simp only [hrun]
  cases nodes.mapM state.gridOf with
  | error problem => rfl
  | ok grids => rfl

end Reachable

-- However a node is asked for, it has the grid that follows from its inputs by plain recursion,
-- in which nothing is remembered and every tail runs its loop again. As long as the node is there
-- no later call changes that, and neither does a change of the named grids.
theorem grids_last {before after : State} (h : Reachable before) (hlater : Later before after) :
    (∀ id, before.gridOf id = before.gridFrom before.gridOf id) ∧
    (∀ id, before.nodes.contains id = true → after.nodes.contains id = true →
      after.gridOf id = before.gridOf id ∧ after.grid id = before.gridOf id ∧
        (simulator.value id after).1 = (before.gridOf id).bind Grid.toScalar) ∧
    ∀ nodes : List Address,
      (∀ id ∈ nodes, before.nodes.contains id = true ∧ after.nodes.contains id = true) →
        (simulator.evaluate nodes after).1 = (nodes.mapM before.gridOf).map fun _ => () := by
  have hafter := hlater.reachable h
  refine ⟨State.gridOf_eq h.consistent.founded, fun id hlive hstays => ?_, fun nodes hnodes => ?_⟩
  · have hsame := hlater.gridOf_eq h hlive hstays
    exact ⟨hsame, (hafter.grid_eq id).trans hsame, hsame ▸ hafter.value_eq id⟩
  · have hsame : nodes.mapM after.gridOf = nodes.mapM before.gridOf :=
      mapM_congr fun id hid => hlater.gridOf_eq h (hnodes id hid).1 (hnodes id hid).2
    exact hsame ▸ hafter.evaluate_eq fun id hid => (hnodes id hid).2

-- A graph with a node that reads a named grid, a node that reads that node, and a loop that runs
-- one round and adds the named grid to itself.
def reading : State :=
  { State.empty 5 none with
    store := ⟨[("go", ⟨.b8, [], #[1]⟩), ("a", ⟨.s32, [2], #[3, 4]⟩)], [], none⟩ }.afterCalls
    [.construct (.read "go"), .acquire 1, .construct (.read "a"), .acquire 2,
      .construct (.identity 2), .acquire 3, .loopStart, .loopCondition 1, .loopReplay .first,
      .construct (.unary 1 .not), .acquire 4, .construct (.binary 2 2 .add), .acquire 5,
      .loopCondition 4, .loopReplay .second, .construct (.unary 4 .not),
      .construct (.binary 5 5 .add), .loopAssemble, .acquire 10]

-- The node that reads the name and the tail of the loop keep their grids when the other node is
-- computed, written to the name and freed, and when the names are taken away.
theorem read_lasts :
    ∃ after named doubled, Reachable reading ∧ Later reading after ∧
      reading.nodes.contains 3 = true ∧ after.nodes.contains 3 = false ∧
      reading.store.grids.length = 2 ∧ after.store.grids.length = 0 ∧
      after.grid 2 = .ok named ∧ named.same ⟨.s32, [2], #[3, 4]⟩ = true ∧
      after.grid 10 = .ok doubled ∧ doubled.same ⟨.s32, [2], #[6, 8]⟩ = true := by
  have hreachable : Reachable reading :=
    ((Reachable.empty 5 none).restock _).calls _ (by decide +kernel)
  have hlater := ((@Later.now reading).calls [.evaluate [3, 10], .write 3 "a", .release 3]
    (by decide +kernel)).restock (.empty none)
  obtain ⟨-, hlasts, -⟩ := grids_last hreachable hlater
  have hgrids : ((reading.gridOf 2).toOption.any (·.same ⟨.s32, [2], #[3, 4]⟩)) = true ∧
      ((reading.gridOf 10).toOption.any (·.same ⟨.s32, [2], #[6, 8]⟩)) = true := by
    decide +kernel
  obtain ⟨named, hnamed, hsame⟩ := (Option.any_eq_true _ _).mp hgrids.1
  obtain ⟨doubled, hdoubled, htwice⟩ := (Option.any_eq_true _ _).mp hgrids.2
  exact ⟨_, named, doubled, hreachable, hlater, by decide +kernel, by decide +kernel, rfl, rfl,
    (hlasts 2 (by decide +kernel) (by decide +kernel)).2.1.trans (toOption_eq_some.mp hnamed), hsame,
    (hlasts 10 (by decide +kernel) (by decide +kernel)).2.1.trans (toOption_eq_some.mp hdoubled),
    htwice⟩

end MapAlgebra.Graph
