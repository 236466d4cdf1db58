import MapAlgebra.Proofs.Bindings
import MapAlgebra.Proofs.Graph.Building
import MapAlgebra.Proofs.Handles.Loops
import MapAlgebra.Proofs.Loops.Straight

namespace MapAlgebra

namespace Script

open Loop (Act Vars)

-- Assigning puts the new operand into the place of the old one, which is let go.
theorem assign_eq_ok {σ : Type} {engine : Engine σ} {name : String} {operand : Operand}
    {scope after : Loop.Scope σ Vars} (h : assign engine name operand scope = (.ok (), after)) :
    ∃ old, scope.vars.slots.find? name = some old ∧
      after = { scope with
        vars := (scope.vars.replace name operand).mark name
        engine := engine.letGoOperand old scope.engine } := by
  obtain ⟨_, _, hget, h⟩ := run_bind_eq_ok.mp h
  cases hget
  cases hset : scope.vars.set name operand with
  | error problem =>
      simp only [hset] at h
      obtain ⟨_, _, _, h⟩ := run_bind_eq_ok.mp h
      cases h
  | ok result =>
      obtain ⟨old, hold, rfl⟩ : ∃ old, scope.vars.get name = .ok old ∧
          (old, (scope.vars.replace name operand).mark name) = result := by
        simpa only [Vars.set, bind_eq_ok, pure_eq_ok] using hset
      simp only [hset] at h
      cases h
      unfold Vars.get at hold
      split at hold
      · cases hold
        exact ⟨old, by assumption, rfl⟩
      · cases hold

end Script

namespace Loop

theorem onFailure_eq_ok {σ ν α : Type} {step : Act σ ν α} {change : Scope σ ν → Scope σ ν}
    {scope after : Scope σ ν} {a : α} (h : onFailure step change scope = (.ok a, after)) :
    step scope = (.ok a, after) := by
  unfold onFailure at h
  split at h
  · cases h
    assumption
  · cases h

theorem onEngine_eq_ok {σ ν α : Type} {step : Run σ α} {scope after : Scope σ ν} {a : α}
    (h : (onEngine step : Act σ ν α) scope = (.ok a, after)) :
    ∃ state, step scope.engine = (.ok a, state) ∧ after = { scope with engine := state } := by
  unfold onEngine at h
  cases hstep : step scope.engine with
  | mk result state =>
      rw [hstep] at h
      cases h
      exact ⟨state, rfl, rfl⟩

namespace Instruction

variable {σ : Type} {engine : Engine σ} {results more : List Raster} {scope after : Scope σ Vars}

theorem run_call {request : Request Source}
    (h : (call request).run engine results scope = (.ok more, after)) :
    (∀ source ∈ request.nodes, ∃ node, source.node scope.vars results = .ok node) ∧
      ∃ raster state, more = results ++ [raster] ∧ after = { scope with engine := state } ∧
        engine.make (request.map (·.address scope.vars results)) scope.engine =
          (.ok raster, state) := by
  obtain ⟨_, _, hget, hrun⟩ := run_bind_eq_ok.mp h
  cases hget
  obtain ⟨nodes, _, hlift, hmakes⟩ := run_bind_eq_ok.mp hrun
  obtain ⟨hnodes, rfl⟩ := run_lift_eq_ok.mp hlift
  obtain ⟨raster, _, hlifted, hreturn⟩ := run_bind_eq_ok.mp hmakes
  obtain ⟨state, hmake, rfl⟩ := onEngine_eq_ok hlifted
  cases hreturn
  refine ⟨fun source hsource => ?_, raster, state, rfl, rfl, hmake⟩
  obtain ⟨node, _, hnode⟩ := related_of_mem (mapM_eq_ok.mp hnodes) hsource
  exact ⟨node, hnode⟩

theorem run_assign {name : String} {source : Source}
    (h : (assign name source).run engine results scope = (.ok more, after)) :
    more = results ∧ ∃ node raster old, source.node scope.vars results = .ok node ∧
      raster.node = some node ∧ scope.vars.slots.find? name = some old ∧
      after = { scope with
        vars := (scope.vars.replace name (.node raster)).mark name
        engine := engine.letGoOperand old (engine.acquire node scope.engine) } := by
  obtain ⟨_, _, hget, hrun⟩ := run_bind_eq_ok.mp h
  cases hget
  obtain ⟨node, _, hlift, hwraps⟩ := run_bind_eq_ok.mp hrun
  obtain ⟨hnode, rfl⟩ := run_lift_eq_ok.mp hlift
  obtain ⟨raster, _, hlifted, hassigns⟩ := run_bind_eq_ok.mp hwraps
  obtain ⟨state, hwrap, rfl⟩ := onEngine_eq_ok hlifted
  obtain ⟨hraster, rfl⟩ := Engine.wrap_eq_ok hwrap
  obtain ⟨_, _, hassign, hreturn⟩ := run_bind_eq_ok.mp hassigns
  obtain ⟨old, hold, rfl⟩ := Script.assign_eq_ok hassign
  cases hreturn
  exact ⟨rfl, node, raster, old, hnode, hraster, hold, rfl⟩

end Instruction

end Loop

end MapAlgebra
