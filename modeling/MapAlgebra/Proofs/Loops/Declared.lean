import MapAlgebra.Proofs.Loops.Steps

namespace MapAlgebra

-- Whatever else goes wrong, no loop is found to be malformed.
def Unmalformed {α : Type} (x : Except MapError α) : Prop :=
  ∀ problem, x ≠ .error (.malformedLoop problem)

namespace Unmalformed

variable {α β : Type}

theorem ok (a : α) : Unmalformed (.ok a : Except MapError α) := nofun

theorem bind {x : Except MapError α} {f : α → Except MapError β} (hx : Unmalformed x)
    (hf : ∀ a, Unmalformed (f a)) : Unmalformed (x >>= f) :=
  fun problem => bind_ne_error (hx problem) fun a _ => hf a problem

theorem map {x : Except MapError α} (hx : Unmalformed x) (f : α → β) : Unmalformed (x.map f) := by
  cases x with
  | error problem => exact fun other h => hx other (congrArg Except.error (Except.error.inj h))
  | ok a => exact .ok _

theorem mapM {items : List α} {f : α → Except MapError β} (h : ∀ item ∈ items, Unmalformed (f item)) :
    Unmalformed (items.mapM f) := by
  induction items with
  | nil => exact .ok _
  | cons item items ih =>
      rw [List.mapM_cons]
      refine .bind (h item List.mem_cons_self) fun _ => .bind (ih ?_) fun _ => .ok _
      exact fun other hother => h other (List.mem_cons_of_mem _ hother)

-- A check before a chain goes on.
theorem guard {condition : Prop} [Decidable condition] {problem : MapError} {x : Except MapError α}
    (hproblem : ∀ found, problem ≠ .malformedLoop found) (hx : Unmalformed x) :
    Unmalformed (if condition then (do throw problem; x) else x) := by
  split
  · exact fun found h => hproblem found (Except.error.inj h)
  · exact hx

end Unmalformed

theorem run_bind_unmalformed {τ α β : Type} {run : Run τ α} {next : α → Run τ β} {state : τ}
    (h : Unmalformed (run state).1)
    (hnext : ∀ a after, run state = (.ok a, after) → Unmalformed (next a after).1) :
    Unmalformed ((run >>= next) state).1 := by
  rw [run_bind]
  split
  · exact hnext _ _ (by assumption)
  · rename_i hrun
    rw [hrun] at h
    exact fun other hother => h other (congrArg Except.error (Except.error.inj hother))

theorem run_lift_unmalformed {τ α : Type} {result : Except MapError α} {state : τ}
    (h : Unmalformed result) : Unmalformed ((liftM result : Run τ α) state).1 := h

theorem wrap_unmalformed {σ : Type} (engine : Engine σ) (node : Address) (state : σ) :
    Unmalformed (engine.wrap node state).1 := by
  unfold Engine.wrap
  split
  · intro problem h
    cases h
  · exact .ok _

theorem Scalar.convert_unmalformed (value : Scalar) (dtype : DataType) :
    Unmalformed (value.convert dtype) := by
  unfold Scalar.convert Scalar.ofPayload
  split <;> exact nofun

namespace Graph

theorem axisOf_unmalformed (dimension : Dimension) : Unmalformed (axisOf dimension) := by
  unfold axisOf
  split <;> exact nofun

theorem broadcast_unmalformed (left right : List Nat) : Unmalformed (broadcast left right) := by
  unfold broadcast
  split_ifs <;> exact nofun

theorem checkCoord_unmalformed (info : Meta) (coord : Coord) : Unmalformed (checkCoord info coord) := by
  unfold checkCoord
  split_ifs <;> exact nofun

theorem requirePlane_unmalformed (info : Meta) (kind : NodeKind) :
    Unmalformed (requirePlane info kind) := by
  unfold requirePlane
  split <;> exact nofun

theorem weightsOf_unmalformed (kernel : List Scalar) (shape : Shape) :
    Unmalformed (weightsOf kernel shape) := by
  unfold weightsOf
  split
  · split <;> exact nofun
  · exact nofun

theorem load_unmalformed (store : Store) (name : String) : Unmalformed (store.load name) := by
  unfold Store.load
  split
  · exact nofun
  · split
    · unfold readData
      split <;> exact nofun
    · exact nofun

theorem info_unmalformed (state : State) (node : Address) : Unmalformed (state.info node) := by
  unfold State.info State.find
  split
  · exact nofun
  · split <;> exact nofun

section Drafting

variable {ν : Type} {info : ν → Except MapError Meta} {isEmpty : ν → Bool}

theorem draftFocal_unmalformed (hinfo : ∀ node, Unmalformed (info node)) (node : ν) (kind : NodeKind)
    (dtype : DataType) : Unmalformed (draftFocal info node kind dtype) :=
  .bind (hinfo node) fun _ => .bind (requirePlane_unmalformed _ _) fun _ => .ok _

theorem branch_unmalformed (hinfo : ∀ node, Unmalformed (info node)) (node : ν) :
    Unmalformed (branch info isEmpty node) := by
  unfold branch
  split
  · exact .ok _
  · exact (hinfo node).map _

theorem branches_unmalformed (yes no : Option Meta) : Unmalformed (branches yes no) := by
  unfold branches
  split <;> exact nofun

-- What is asked of a request before its node is made has nothing to do with loops.
theorem draftOf_unmalformed (hinfo : ∀ node, Unmalformed (info node)) (store : Store)
    (request : Request ν) : Unmalformed (draftOf info isEmpty store request) := by
  cases request with
  | constant value layout => exact .bind (value.convert_unmalformed _) fun _ => .ok _
  | index layout dimension => exact .bind (axisOf_unmalformed _) fun _ => .guard nofun (.ok _)
  | rand seed | unary seed | zonal seed | blockStats seed | neighbor seed | stats seed
  | barrier seed | identity seed => exact .bind (hinfo seed) fun _ => .ok _
  | cast node dtype => exact .guard nofun (.bind (hinfo node) fun _ => .ok _)
  | binary left right op =>
      exact .bind (hinfo left) fun _ => .bind (hinfo right) fun _ =>
        .bind (broadcast_unmalformed _ _) fun _ => .ok _
  | conditional condition yes no =>
      exact .bind (hinfo condition) fun _ => .bind (branch_unmalformed hinfo yes) fun _ =>
        .bind (branch_unmalformed hinfo no) fun _ => .bind (branches_unmalformed _ _) fun _ =>
          .bind (broadcast_unmalformed _ _) fun _ => .bind (broadcast_unmalformed _ _) fun _ => .ok _
  | access node position =>
      exact .bind (hinfo node) fun _ => .bind (checkCoord_unmalformed _ _) fun _ => .ok _
  | update node value position =>
      exact .bind (hinfo node) fun _ => .bind (hinfo value) fun _ =>
        .bind (checkCoord_unmalformed _ _) fun _ => .guard nofun (.ok _)
  | boundedNeighbor node rows columns =>
      exact .bind (hinfo node) fun _ => .bind (hinfo rows) fun _ => .bind (hinfo columns) fun _ =>
        .guard nofun <| .guard nofun <| .bind (broadcast_unmalformed _ _) fun _ =>
          .bind (broadcast_unmalformed _ _) fun _ => .ok _
  | convolution node kernel shape =>
      exact .bind (weightsOf_unmalformed _ _) fun _ => .bind (hinfo node) fun _ =>
        draftFocal_unmalformed hinfo _ _ _
  | focal node kernel shape op =>
      exact .bind (weightsOf_unmalformed _ _) fun _ => .bind (hinfo node) fun _ =>
        draftFocal_unmalformed hinfo _ _ _
  | radial node op origin => exact .bind (hinfo node) fun _ => draftFocal_unmalformed hinfo _ _ _
  | read resource => exact .bind (load_unmalformed _ _) fun _ => .ok _

end Drafting

theorem make_unmalformed (request : Construction) (state : State) :
    Unmalformed (simulator.make request state).1 := by
  refine run_bind_unmalformed ?_ fun node after _ => wrap_unmalformed simulator node after
  show Unmalformed (atomically (·.construct request) state).1
  have hconstruct : Unmalformed (state.construct request) :=
    .bind (draftOf_unmalformed (info_unmalformed state) _ _) fun _ => .ok _
  unfold atomically
  split
  · exact .ok _
  · rename_i problem hfails
    have hstep : state.construct request = .error problem := hfails
    rw [hstep] at hconstruct
    exact fun other h => hconstruct other (congrArg Except.error (Except.error.inj h))

end Graph

namespace Loop

open MapAlgebra.Graph

theorem onFailure_unmalformed {σ ν α : Type} {step : Act σ ν α} {scope : Scope σ ν}
    (h : Unmalformed (step scope).1) (change : Scope σ ν → Scope σ ν) :
    Unmalformed (onFailure step change scope).1 := by
  unfold onFailure
  cases hstep : step scope with
  | mk result after =>
      rw [hstep] at h
      cases result with
      | error problem => exact h
      | ok a => exact .ok a

-- The variables that are read.
def Source.names : Source → List String
  | named name => [name]
  | _ => []

-- The variables that are read or assigned.
def Instruction.names : Instruction → List String
  | call request => request.nodes.flatMap Source.names
  | assign name source => name :: source.names

def Code.names (code : Code) : List String :=
  code.body.flatMap Instruction.names ++
    (code.condition.flatMap (·.nodes.flatMap Source.names) ++ code.guard.names)

def Vars.Declares (vars : Vars) (names : List String) : Prop :=
  ∀ name ∈ names, ∃ operand, vars.slots.find? name = some operand

section Running

variable {results more : List Raster} {scope after : Scope State Vars}

theorem Source.node_unmalformed {source : Source} {vars : Vars} (h : vars.Declares source.names)
    (results : List Raster) : Unmalformed (source.node vars results) := by
  have hrequire : ∀ raster : Raster, Unmalformed raster.require := by
    intro raster
    unfold Raster.require
    split <;> exact nofun
  cases source with
  | named name =>
      obtain ⟨operand, hfind⟩ := h name (List.mem_singleton_self name)
      refine .bind (.bind ?_ fun operand => ?_) hrequire
      · rw [Vars.get, hfind]
        exact .ok _
      · cases operand <;> exact nofun
  | result index =>
      cases hresult : results[index]? with
      | none =>
          simp only [Source.node, hresult]
          exact nofun
      | some raster =>
          simp only [Source.node, hresult]
          exact hrequire raster
  | outside raster => exact hrequire raster
  | absent => exact .ok _

theorem Instruction.run_unmalformed {instruction : Instruction}
    (h : scope.vars.Declares instruction.names) (results : List Raster) :
    Unmalformed (instruction.run simulator results scope).1 := by
  cases instruction with
  | call request =>
      refine run_bind_unmalformed (.ok _) fun _ _ hget => ?_
      cases hget
      refine run_bind_unmalformed (run_lift_unmalformed (.mapM fun source hsource => ?_)) fun _ _ _ => ?_
      · exact Source.node_unmalformed (fun name hname =>
          h name (List.mem_flatMap.mpr ⟨source, hsource, hname⟩)) results
      · exact run_bind_unmalformed (make_unmalformed _ _) fun _ _ _ => .ok _
  | assign name source =>
      refine run_bind_unmalformed (.ok _) fun _ _ hget => ?_
      cases hget
      refine run_bind_unmalformed (run_lift_unmalformed (Source.node_unmalformed (fun other hother =>
        h other (List.mem_cons_of_mem _ hother)) results)) fun node middle hlift => ?_
      obtain ⟨_, rfl⟩ := run_lift_eq_ok.mp hlift
      refine run_bind_unmalformed (wrap_unmalformed simulator node _) fun raster _ hwrap => ?_
      obtain ⟨state, _, rfl⟩ := onEngine_eq_ok hwrap
      refine run_bind_unmalformed ?_ fun _ _ _ => .ok _
      obtain ⟨old, hfind⟩ := h name List.mem_cons_self
      refine run_bind_unmalformed (.ok _) fun _ _ hget => ?_
      cases hget
      have hset : Vars.set middle.vars name (.node raster) =
          .ok (old, (middle.vars.replace name (.node raster)).mark name) := by
        rw [Vars.set, Vars.get, hfind]
        rfl
      simp only [hset]
      exact .ok _

-- No variable goes away.
theorem Instruction.declares {instruction : Instruction} {names : List String}
    (h : scope.vars.Declares names)
    (hrun : instruction.run simulator results scope = (.ok more, after)) :
    after.vars.Declares names := by
  cases instruction with
  | call request =>
      obtain ⟨_, raster, state, _, rfl, _⟩ := Instruction.run_call hrun
      exact h
  | assign name source =>
      obtain ⟨_, node, raster, old, _, _, _, rfl⟩ := Instruction.run_assign hrun
      intro other hother
      obtain ⟨operand, hfind⟩ := h other hother
      refine ⟨if other = name then .node raster else operand, ?_⟩
      show ((scope.vars.replace name (.node raster)).mark name).slots.find? other = _
      rw [Vars.slots_mark]
      refine (Bindings.find?_replace _ _ _ _).trans ?_
      rw [hfind]
      split <;> rfl

theorem runAll_unmalformed {instructions : List Instruction}
    (h : scope.vars.Declares (instructions.flatMap Instruction.names)) (results : List Raster) :
    Unmalformed (runAll simulator instructions results scope).1 := by
  induction instructions generalizing results scope with
  | nil => exact .ok _
  | cons instruction rest ih =>
      have hhere : scope.vars.Declares instruction.names :=
        fun name hname => h name (List.mem_flatMap.mpr ⟨_, List.mem_cons_self, hname⟩)
      refine run_bind_unmalformed
        (onFailure_unmalformed (Instruction.run_unmalformed hhere results) _) fun more middle hfirst => ?_
      have hlater := Instruction.declares h (onFailure_eq_ok hfirst)
      refine ih (fun name hname => hlater name ?_) more
      rw [List.flatMap_cons]
      exact List.mem_append_right _ hname

theorem runAll_declares {instructions : List Instruction} {names : List String}
    (h : scope.vars.Declares names)
    (hrun : runAll simulator instructions results scope = (.ok more, after)) :
    after.vars.Declares names := by
  induction instructions generalizing results scope with
  | nil =>
      cases hrun
      exact h
  | cons instruction rest ih =>
      obtain ⟨_, _, hfirst, hrest⟩ := run_bind_eq_ok.mp hrun
      exact ih (Instruction.declares h (onFailure_eq_ok hfirst)) hrest

end Running

namespace Code

variable {code : Code} {scope after : Scope State Vars}

theorem runBody_unmalformed (h : scope.vars.Declares code.names) :
    Unmalformed (code.runBody simulator scope).1 := by
  refine run_bind_unmalformed (runAll_unmalformed (fun name hname => ?_) []) fun _ _ _ => .ok _
  exact h name (List.mem_append_left _ hname)

theorem runBody_declares {names : List String} (h : scope.vars.Declares names)
    (hrun : code.runBody simulator scope = (.ok (), after)) : after.vars.Declares names := by
  obtain ⟨results, middle, hall, hend⟩ := run_bind_eq_ok.mp hrun
  cases hend
  show middle.vars.Declares names
  exact runAll_declares h hall

theorem runCondition_unmalformed (h : scope.vars.Declares code.names) :
    Unmalformed (code.runCondition simulator scope).1 := by
  have hcalls : scope.vars.Declares ((code.condition.map Instruction.call).flatMap Instruction.names) := by
    rw [List.flatMap_map]
    exact fun name hname => h name (List.mem_append_right _ (List.mem_append_left _ hname))
  have hguard : scope.vars.Declares code.guard.names :=
    fun name hname => h name (List.mem_append_right _ (List.mem_append_right _ hname))
  refine run_bind_unmalformed (runAll_unmalformed hcalls []) fun results middle hall => ?_
  refine run_bind_unmalformed (onFailure_unmalformed ?_ _) fun _ _ _ => .ok _
  refine run_bind_unmalformed (.ok _) fun _ _ hget => ?_
  cases hget
  refine run_bind_unmalformed (run_lift_unmalformed ?_) fun node _ _ => wrap_unmalformed simulator node _
  exact Source.node_unmalformed (runAll_declares hguard hall) results

end Code

end Loop

end MapAlgebra
