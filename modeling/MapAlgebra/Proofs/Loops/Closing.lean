import MapAlgebra.Proofs.Graph.Hands
import MapAlgebra.Proofs.Loops.Repeatable
import MapAlgebra.Proofs.Loops.Upkeep

namespace MapAlgebra

namespace Graph

-- The end of a loop takes no handle away.
theorem Backs.endLoop {state : State} {tally : Tally} (h : Backs state tally) :
    Backs state.endLoop tally := by
  have hidle : Backs { state with recorder := .idle } tally := h.of_refCount fun _ => Nat.le_refl _
  exact hidle.frees (State.frees_endLoop state)

theorem Placed.backs {before after : State} {plan : LoopPlan} {loop : Address} {tally : Tally}
    (h : Placed before plan loop after) (hbacks : Backs before tally) : Backs after tally :=
  hbacks.of_refCount fun id => Nat.le_of_eq (h.refs id).symm

-- While handles are taken on nodes that are held and let go again, nothing else happens to a graph.
theorem handled_lends (origin : State) :
    Lends simulator fun state handles => Handled origin state ∧ Backs state handles where
  acquire {node state handles} _ hheld hstate := by
    obtain ⟨hhandled, hbacks⟩ := hstate
    have hlive : state.nodes.contains node = true := by
      refine hbacks.live (Tally.pos_of_le hheld ?_)
      rw [Tally.one_self]
      omega
    refine ⟨hhandled.trans (.acquire state node), ?_⟩
    rw [add_comm]
    exact hbacks.acquire hlive
  release {node state handles} _ hstate := by
    obtain ⟨hhandled, hbacks⟩ := hstate
    rw [add_comm] at hbacks
    exact ⟨hhandled.trans (.release state node), hbacks.release⟩

end Graph

namespace Loop

open MapAlgebra.Graph

-- Handles are taken on the nodes after a loop, one for each pair.
theorem wrapPairs_eq_ok {pairs : List (Address × Address)} {rasters : List (Address × Raster)}
    {state after : State} {tally : Tally}
    (hrun : Lowering.wrapPairs simulator pairs state = (.ok rasters, after))
    (hlive : ∀ pair ∈ pairs, state.nodes.contains pair.2 = true) (hbacks : Backs state tally) :
    Handled state after ∧ Backs after (Carried.held ⟨rasters⟩ + tally) ∧
      List.Forall₂ (fun pair wrapped => wrapped.1 = pair.1 ∧ wrapped.2.node = some pair.2)
        pairs rasters := by
  induction pairs generalizing rasters state tally with
  | nil =>
      cases hrun
      exact ⟨.refl _, (zero_add tally).symm ▸ hbacks, .nil⟩
  | cons pair pairs ih =>
      obtain ⟨before, next⟩ := pair
      obtain ⟨hnext, hothers⟩ := List.forall_mem_cons.mp hlive
      rw [Lowering.wrapPairs] at hrun
      obtain ⟨raster, middle, hwrap, hrun⟩ := run_bind_eq_ok.mp hrun
      obtain ⟨rest, last, hrest, hrun⟩ := run_bind_eq_ok.mp hrun
      cases hrun
      obtain ⟨hnode, rfl⟩ := Engine.wrap_eq_ok hwrap
      obtain ⟨hhandled, hheld, hwrapped⟩ := ih (Engine.orLetGo_eq_ok hrest)
        (fun pair hpair => contains_acquire (hothers pair hpair) next) (hbacks.acquire hnext)
      refine ⟨(Handled.acquire state next).trans hhandled, ?_, .cons ⟨rfl, hnode⟩ hwrapped⟩
      have hsum : Carried.held ⟨(before, raster) :: rest⟩ + tally =
          Carried.held ⟨rest⟩ + (tally + Tally.one next) := by
        rw [Carried.held, List.map_cons, List.sum_cons, Raster.held_of_node hnode, Carried.held]
        abel
      exact hsum ▸ hheld

-- Moving the assigned variables on only exchanges handles.
theorem followAssigned_backs {carried : Carried} {vars : Vars} {state : State} {tally : Tally}
    (htally : 0 ≤ tally) (hbacks : Backs state (vars.held + (carried.held + tally))) :
    Handled state (simulator.followAssigned carried vars state).2 ∧
      Backs (simulator.followAssigned carried vars state).2
        ((simulator.followAssigned carried vars state).1.held + (carried.held + tally)) :=
  (handled_lends state).followAssigned (le_add_of_nonneg_right htally) ⟨.refl state, hbacks⟩

theorem letGoCarried_backs {carried : Carried} {state : State} {tally : Tally}
    (hbacks : Backs state (carried.held + tally)) :
    Handled state (simulator.letGoCarried carried state) ∧
      Backs (simulator.letGoCarried carried state) tally :=
  (handled_lends state).letGoCarried ⟨.refl state, hbacks⟩

end Loop

end MapAlgebra
