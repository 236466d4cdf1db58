import MapAlgebra.Proofs.Handles.Reverted

namespace MapAlgebra.Script

open Loop (Act Scope Vars afterwards)
open MapAlgebra.Graph (State simulator bare)

-- An operation of a client on operands that it lends. New nodes are bound to a variable, or take the
-- place of the node that the variable held.
inductive Operation where
  | declare (name : String) (function : Function) (arguments : List (Option Operand))
  | set (name : String) (function : Function) (arguments : List (Option Operand))
  | setCell (name : String) (position : Coord) (operand : Operand)
  | setWhere (name : String) (condition : Raster) (operand : Operand)
  | write (raster : Raster) (resource : String)
  | evaluate (rasters : List Raster)
  | value (raster : Raster)

-- The bare simulator makes the same nodes.
section Bare

variable {α : Type}

theorem promoting_bare (operand : Operand) (step : Raster → Run State α) :
    bare.promoting operand step = simulator.promoting operand step := rfl

theorem lending_bare (raster : Raster) (step : Raster → Run State α) :
    bare.lending raster step = simulator.lending raster step := rfl

theorem make_bare : bare.make = simulator.make := rfl

theorem scalarNode_bare : bare.scalarNode = simulator.scalarNode := rfl

theorem binaryNodes_bare : bare.binaryNodes = simulator.binaryNodes := rfl

theorem power_bare (base exponent : Operand) :
    bare.power base exponent = simulator.power base exponent := by
  simp only [Engine.power, promoting_bare, lending_bare, scalarNode_bare, binaryNodes_bare]

theorem select_bare (condition yes no : Operand) :
    bare.select condition yes no = simulator.select condition yes no := by
  simp only [Engine.select, promoting_bare, make_bare]

theorem zonalMasked_bare (raster : Raster) (condition : Option Raster) (op : ReductionOp) :
    bare.zonalMasked raster condition op = simulator.zonalMasked raster condition op := by
  simp only [Engine.zonalMasked, select_bare]
  rfl

theorem applyOperand_bare (function : Function) (arguments : List Operand) :
    applyOperand bare function arguments = applyOperand simulator function arguments := by
  simp only [applyOperand, select_bare, power_bare, Engine.powerOf, Engine.powerTo]
  rfl

theorem applyRaster_bare (function : Function) (r : Raster) :
    applyRaster bare function r = applyRaster simulator function r := rfl

theorem applyNothing_bare (function : Function) :
    applyNothing bare function = applyNothing simulator function := rfl

theorem apply_bare (function : Function) (arguments : List (Option Operand)) :
    apply bare function arguments = apply simulator function arguments := by
  simp only [apply, applyOperand_bare, applyRaster_bare, applyNothing_bare, zonalMasked_bare]
  rfl

end Bare

namespace Operation

section

variable {σ : Type} (engine : Engine σ)

def run : Operation → Act σ Vars Unit
  | declare name function arguments => do
      let operand ← Loop.onEngine (apply engine function arguments)
      exchange engine (·.declare name operand)
  | set name function arguments => do
      let operand ← Loop.onEngine (apply engine function arguments)
      assign engine name operand
  | setCell name position operand => changeInPlace name (engine.setCell · position operand)
  | setWhere name condition operand => changeInPlace name (engine.setWhere · condition operand)
  | write raster resource => Loop.onEngine (engine.writeTo raster resource)
  | evaluate rasters => Loop.onEngine (engine.evaluateAll rasters)
  | value raster => do
      let _ ← Loop.onEngine (raster.ask engine.value)
      return ()

end

-- The operands that an operation is lent.
def operands : Operation → List Operand
  | declare _ _ arguments | set _ _ arguments => arguments.filterMap id
  | setCell _ _ operand => [operand]
  | setWhere _ condition operand => [.node condition, operand]
  | write raster _ | value raster => [.node raster]
  | evaluate rasters => rasters.map .node

-- The addresses that an operation takes handles on by name.
def wrapped : Operation → List Address
  | declare _ function _ | set _ function _ => function.wrapped
  | _ => []

-- Operations that make nodes. The others leave the nodes that there are.
def makes : Operation → Bool
  | declare _ _ _ | set _ _ _ | setCell _ _ _ | setWhere _ _ _ => true
  | write _ _ | evaluate _ | value _ => false

theorem run_bare {operation : Operation} (h : operation.makes = true) :
    operation.run bare = operation.run simulator := by
  cases operation with
  | declare name function arguments =>
      rw [run, run, apply_bare]
      rfl
  | set name function arguments =>
      rw [run, run, apply_bare]
      rfl
  | setCell name position operand => rfl
  | setWhere name condition operand => rfl
  | _ => cases h

variable {σ : Type} {engine : Engine σ} {custody : Custody σ} {frame : Tally} {lowering : Bool}
  {scope after : Scope σ Vars} {operation : Operation} {problem : MapError}

-- The operands of an operation may be those of the variables.
theorem keepsAt_run (h : Keeper engine custody frame) (hmakes : operation.makes = true)
    (hwrapped : ∀ node ∈ operation.wrapped, custody.named node)
    (hlent : Lent (scope.vars.held + frame) operation.operands) :
    KeepsAt (Scope.order custody Vars.held lowering) frame 0 (operation.run engine) (fun _ => 0)
      scope := by
  have hmore := h.more (le_add_of_nonneg_left scope.vars.held_nonneg)
  cases operation with
  | declare name function arguments =>
      exact Keeps.bind_at (Loop.keepsAt_onEngine (apply_keeps hmore hwrapped hlent scope.engine))
        fun operand after _ => exchange_keeps h.honors
          (fun vars => declare_held vars name operand) after
  | set name function arguments =>
      exact Keeps.bind_at (Loop.keepsAt_onEngine (apply_keeps hmore hwrapped hlent scope.engine))
        fun operand after _ => assign_keeps h.honors name operand after
  | setCell name position operand =>
      have hoperand := hlent operand List.mem_cons_self
      exact keepsAt_changeInPlace h.nonneg fun raster hraster =>
        hmore.setCell hraster hoperand position scope.engine
  | setWhere name condition operand =>
      have hcondition : condition.held ≤ scope.vars.held + frame := hlent.raster List.mem_cons_self
      have hoperand := hlent operand (List.mem_cons_of_mem _ List.mem_cons_self)
      exact keepsAt_changeInPlace h.nonneg fun raster hraster =>
        hmore.setWhere hraster hcondition hoperand scope.engine
  | _ => cases hmakes

-- A change in place that fails marks the variable at most.
theorem slots_changeInPlace {name : String} {change : Raster → Run σ Raster}
    (h : changeInPlace name change scope = (.error problem, after)) :
    after.vars.slots = scope.vars.slots := by
  rw [changeInPlace_eq] at h
  cases htouch : scope.vars.touch name with
  | error problem =>
      simp only [htouch] at h
      obtain ⟨-, rfl⟩ := Prod.mk.inj h
      rfl
  | ok vars =>
      obtain ⟨old, _, rfl⟩ : ∃ old, scope.vars.get name = .ok old ∧ scope.vars.mark name = vars := by
        simpa only [Vars.touch, bind_eq_ok, pure_eq_ok] using htouch
      have hslots := scope.vars.slots_mark name
      simp only [htouch] at h
      split at h
      · obtain ⟨-, rfl⟩ := Prod.mk.inj h
        exact hslots
      · split at h
        · obtain ⟨-, rfl⟩ := Prod.mk.inj h
          exact hslots
        · cases (Prod.mk.inj h).1

theorem slots_assign {name : String} {operand : Operand}
    (h : assign engine name operand scope = (.error problem, after)) :
    after.vars.slots = scope.vars.slots := by
  have hget : (get : Act σ Vars (Scope σ Vars)) scope = (.ok scope, scope) := rfl
  simp only [assign, run_bind, hget] at h
  cases hset : scope.vars.set name operand with
  | error problem =>
      rw [hset] at h
      obtain ⟨-, rfl⟩ := Prod.mk.inj h
      rfl
  | ok result =>
      rw [hset] at h
      cases (Prod.mk.inj h).1

-- The variable of an operation that fails holds what it held.
theorem slots_run (h : operation.run engine scope = (.error problem, after)) :
    after.vars.slots = scope.vars.slots := by
  cases operation with
  | declare name function arguments =>
      obtain hstep | ⟨operand, between, _, hnext⟩ := run_bind_eq_error h
      · exact congrArg Vars.slots (Loop.vars_onEngine hstep)
      · cases (Prod.mk.inj hnext).1
  | set name function arguments =>
      obtain hstep | ⟨operand, between, hstep, hnext⟩ := run_bind_eq_error h
      · exact congrArg Vars.slots (Loop.vars_onEngine hstep)
      · exact (slots_assign hnext).trans (congrArg Vars.slots (Loop.vars_onEngine hstep))
  | setCell name position operand => exact slots_changeInPlace h
  | setWhere name condition operand => exact slots_changeInPlace h
  | write raster resource =>
      have hstep : Loop.onEngine (engine.writeTo raster resource) scope = _ := h
      exact congrArg Vars.slots (Loop.vars_onEngine hstep)
  | evaluate rasters =>
      have hstep : Loop.onEngine (engine.evaluateAll rasters) scope = _ := h
      exact congrArg Vars.slots (Loop.vars_onEngine hstep)
  | value raster =>
      obtain hstep | ⟨value, between, _, hnext⟩ := run_bind_eq_error h
      · exact congrArg Vars.slots (Loop.vars_onEngine hstep)
      · cases (Prod.mk.inj hnext).1

end Operation

section Simulator

variable {scope after : Scope State Vars} {operation : Operation} {problem : MapError}

theorem ask_error {α : Type} {raster : Raster} {question : Address → Run State α}
    {state next : State} (h : raster.ask question state = (.error problem, next)) :
    next = state ∨ ∃ node, question node state = (.error problem, next) := by
  obtain hrequire | ⟨node, middle, hrequire, hquestion⟩ := run_bind_eq_error h
  · exact Or.inl (run_lift_eq_error hrequire)
  · obtain ⟨_, rfl⟩ := run_lift_eq_ok.mp hrequire
    exact Or.inr ⟨node, hquestion⟩

-- A status other than zero says that nothing was stored.
theorem write_refused {state next : State} {node : Address} {resource : String} {status : Int}
    (h : state.write node resource = .ok (status, next)) (hstatus : status ≠ 0) : next = state := by
  obtain ⟨grid, _, h⟩ := bind_eq_ok.mp h
  rcases hsave : state.store.save resource grid with ⟨found, store⟩
  simp only [hsave, pure_eq_ok, Prod.mk.injEq] at h
  obtain ⟨rfl, rfl⟩ := h
  have hsame : store = state.store := by
    unfold Graph.Store.save at hsave
    split at hsave
    · exact (Prod.mk.inj hsave).2.symm
    · split at hsave
      · obtain ⟨rfl, -⟩ := Prod.mk.inj hsave
        exact absurd rfl hstatus
      · split at hsave
        · obtain ⟨rfl, -⟩ := Prod.mk.inj hsave
          exact absurd rfl hstatus
        · exact (Prod.mk.inj hsave).2.symm
  cases found with
  | done => exact absurd rfl hstatus
  | locked => rw [hsame]
  | unwritable => rw [hsame]

-- A write that fails stores nothing and leaves the node what it was.
theorem writeTo_error {raster : Raster} {resource : String} {state next : State}
    (h : simulator.writeTo raster resource state = (.error problem, next)) : next = state := by
  obtain hask | ⟨status, middle, hask, hnext⟩ := run_bind_eq_error h
  · obtain hsame | ⟨node, hwrite⟩ := ask_error hask
    · exact hsame
    · have hkept := Graph.atomically_refused (congrArg (·.1.isOk) hwrite)
      exact (congrArg Prod.snd hwrite).symm.trans hkept
  · obtain ⟨node, between, hrequire, hwrite⟩ := run_bind_eq_ok.mp hask
    obtain ⟨_, rfl⟩ := run_lift_eq_ok.mp hrequire
    by_cases hstatus : status = 0
    · rw [if_neg (not_not.mpr hstatus)] at hnext
      cases (Prod.mk.inj hnext).1
    · rw [if_pos hstatus] at hnext
      obtain ⟨-, rfl⟩ := Prod.mk.inj hnext
      have hdone : Graph.atomically (·.write node resource) between = (.ok status, middle) := hwrite
      exact write_refused (Graph.atomically_eq_ok hdone) hstatus

theorem evaluateAll_error {rasters : List Raster} {state next : State}
    (h : simulator.evaluateAll rasters state = (.error problem, next)) : next = state := by
  have hkept : Still (fun current _ => current = state) 0 (rasters.mapM fun raster =>
      (liftM raster.require : Run State Address)) := Keeps.mapM_still (fun _ => .lift _) rasters
  have hsame := hkept state rfl
  obtain hrequire | ⟨nodes, middle, hrequire, hevaluate⟩ := run_bind_eq_error h
  · rw [hrequire] at hsame
    exact hsame
  · rw [hrequire] at hsame
    obtain rfl : middle = state := hsame
    have hrefused := Graph.atomically_refused (congrArg (·.1.isOk) hevaluate)
    exact (congrArg Prod.snd hevaluate).symm.trans hrefused

-- An operation that makes no nodes and fails does nothing.
theorem engine_of_error (hmakes : operation.makes = false)
    (h : operation.run simulator scope = (.error problem, after)) :
    after.engine = scope.engine := by
  cases operation with
  | write raster resource => exact writeTo_error (Loop.engine_onEngine h)
  | evaluate rasters => exact evaluateAll_error (Loop.engine_onEngine h)
  | value raster =>
      obtain hstep | ⟨_, between, _, hnext⟩ := run_bind_eq_error h
      · obtain hsame | ⟨node, hvalue⟩ := ask_error (Loop.engine_onEngine hstep)
        · exact hsame
        · exact (congrArg Prod.snd hvalue).symm
      · cases (Prod.mk.inj hnext).1
  | _ => cases hmakes

-- The number of the next node does not matter when a handle is let go.
theorem collectFrom_renumber (fuel : Nat) (pending : List Nat) (state : State) (nextId : Nat) :
    State.collectFrom { state with nextId } fuel pending =
      { state.collectFrom fuel pending with nextId } := by
  induction fuel generalizing state pending with
  | zero => rfl
  | succ fuel ih =>
      cases pending with
      | nil => rfl
      | cons id pending =>
          simp only [State.collectFrom]
          cases state.nodes.get? id with
          | none => exact ih pending state
          | some node =>
              simp only
              split
              · exact ih _ { state with
                  nodes := node.inputs.foldl State.dropUser (state.nodes.erase id)
                  computed := state.computed.erase id }
              · exact ih pending state

theorem collect_renumber (id : Nat) (state : State) (nextId : Nat) :
    State.collect { state with nextId } id = { state.collect id with nextId } :=
  collectFrom_renumber (state.edgeCount + 2) [id] state nextId

theorem release_renumber (node : Address) (state : State) (nextId : Nat) :
    State.release node { state with nextId } = { state.release node with nextId } := by
  simp only [State.release]
  split
  · split
    · exact collect_renumber node { state with
        nodes := state.nodes.modify node fun info => { info with refs := info.refs - 1 } } nextId
    · rfl
  · rfl

theorem letGoAll_renumber (operands : List Operand) (state : State) (nextId : Nat) :
    letGoAll simulator operands { state with nextId } =
      { letGoAll simulator operands state with nextId } := by
  induction operands generalizing state with
  | nil => rfl
  | cons operand operands ih =>
      have hfirst : simulator.letGoOperand operand { state with nextId } =
          { simulator.letGoOperand operand state with nextId } := by
        cases operand with
        | host value => rfl
        | node raster =>
            simp only [Engine.letGoOperand, Engine.letGo]
            cases raster.node with
            | none => rfl
            | some node => exact release_renumber node state nextId
      show letGoAll simulator operands (simulator.letGoOperand operand { state with nextId }) = _
      rw [hfirst]
      exact ih _

end Simulator

open MapAlgebra.Graph

-- An operation that makes nodes and fails gives back all that it made.
theorem reverted {scope after : Scope State Vars} {operation : Operation} {problem : MapError}
    (hmakes : operation.makes = true) (hbase : Consistent scope.engine)
    (hquiet : scope.engine.recorder.isRecording = false)
    (hwrapped : operation.wrapped = []) (hvars : scope.vars.held ≤ scope.engine.tally)
    (hlent : Lent scope.engine.tally operation.operands)
    (hrun : operation.run simulator scope = (.error problem, after)) :
    after.engine = { scope.engine with nextId := after.engine.nextId } := by
  have hnonneg := sub_nonneg.mpr hvars
  have hall : scope.vars.held + (scope.engine.tally - scope.vars.held) = scope.engine.tally :=
    add_sub_cancel _ _
  have hkeeper : Keeper bare (reverting scope.engine) (scope.engine.tally - scope.vars.held) :=
    ⟨honors_reverting hbase hquiet, hnonneg⟩
  have hstart : Scope.order (reverting scope.engine) Vars.held scope.lowering scope
      (0 + (scope.engine.tally - scope.vars.held)) :=
    ⟨rfl, fun _ => Or.inl ⟨.refl hbase, by rw [zero_add, hall]⟩⟩
  have hafter := Operation.keepsAt_run hkeeper hmakes (hwrapped ▸ List.forall_mem_nil _)
    (hall.symm ▸ hlent) hstart
  rw [Operation.run_bare hmakes, hrun] at hafter
  have hheld : after.vars.held = scope.vars.held := by
    rw [Vars.held, Vars.held, Operation.slots_run hrun]
  have htally : after.vars.held + (Tally.yielded (fun _ : Unit => 0) (.error problem) +
      (scope.engine.tally - scope.vars.held)) = scope.engine.tally := by
    rw [hheld, Tally.yielded, zero_add, hall]
  have horder := hafter.2
  rw [htally] at horder
  obtain ⟨hgrown, hrefs⟩ | hforsaken := horder scope.engine.tally_nonneg
  · refine hgrown.settled hbase fun id => ?_
    have hid := congrFun hrefs id
    exact Int.ofNat_inj.mp hid
  · obtain ⟨id, hid, hgone⟩ := hforsaken.node
    have hcount : (scope.engine.refsOf id : Int) ≤ 0 := hgone
    omega

-- An operation that fails while no loop is recorded leaves its variable and the graph as they were,
-- but for the number of the next node. Operands that were passed by value are let go.
theorem failed_operation_leaves_no_trace {scope : Scope State Vars} (h : Reachable scope.engine)
    (hquiet : scope.engine.recorder.isRecording = false) {operation : Operation}
    (hwrapped : operation.wrapped = []) (hvars : scope.vars.held ≤ scope.engine.tally)
    (hlent : Lent scope.engine.tally operation.operands) (given : List Operand)
    {problem : MapError} {after : Scope State Vars}
    (hrun : afterwards (operation.run simulator) (letGoAll simulator given) scope =
      (.error problem, after)) :
    after.vars.slots = scope.vars.slots ∧
      after.engine =
        { letGoAll simulator given scope.engine with nextId := after.engine.nextId } := by
  rcases hoperation : operation.run simulator scope with ⟨result, between⟩
  have hafter : (result, { between with engine := letGoAll simulator given between.engine }) =
      (.error problem, after) := by
    rw [← hrun, afterwards, hoperation]
  obtain ⟨hresult, hscope⟩ := Prod.mk.inj hafter
  subst hresult hscope
  have hslots : between.vars.slots = scope.vars.slots := Operation.slots_run hoperation
  have hsame : between.engine = { scope.engine with nextId := between.engine.nextId } := by
    cases hmakes : operation.makes with
    | false =>
        have hkept := engine_of_error hmakes hoperation
        rw [hkept]
    | true => exact reverted hmakes h.consistent hquiet hwrapped hvars hlent hoperation
  have hlast : letGoAll simulator given between.engine =
      { letGoAll simulator given scope.engine with nextId := between.engine.nextId } := by
    rw [hsame]
    exact letGoAll_renumber given scope.engine between.engine.nextId
  refine ⟨hslots, ?_⟩
  show letGoAll simulator given between.engine =
    { letGoAll simulator given scope.engine with
      nextId := (letGoAll simulator given between.engine).nextId }
  rw [hlast]

-- Cells of two sizes. The variable x holds the first raster, and so does another handle.
def unequal : Scope State Vars where
  engine := (State.empty 5 none).afterCalls
    [.construct (.constant (.s32 1) { Layout.single .s32 with size := .ofExtents [2] }), .acquire 1,
      .construct (.constant (.s32 2) { Layout.single .s32 with size := .ofExtents [3] }), .acquire 2,
      .acquire 1]
  lowering := false
  vars := ⟨Bindings.empty.bind "x" (.node (.on 1 (by decide))), []⟩

-- The first raster to the power of the second one, in the place of the first one.
def unequalPower : Operation :=
  .set "x" .power [some (.node (.on 1 (by decide))), some (.node (.on 2 (by decide)))]

theorem unequal_one_le {node : Address} (h : 0 < unequal.engine.refsOf node) :
    Tally.one node ≤ unequal.engine.tally := by
  intro id
  rw [Tally.one]
  split
  · rename_i hsame
    exact hsame ▸ Int.ofNat_lt.mpr h
  · exact unequal.engine.tally_nonneg id

-- The exponent was made a float by then. Those nodes are gone again, and so is the other handle.
theorem unequal_leaves_no_trace :
    ∃ problem after, Reachable unequal.engine ∧ unequal.vars.held ≤ unequal.engine.tally ∧
      afterwards (unequalPower.run simulator) (letGoAll simulator [.node (.on 1 (by decide))])
        unequal = (.error problem, after) ∧
      after.vars.slots = unequal.vars.slots ∧ after.engine.nextId = unequal.engine.nextId + 2 ∧
      after.engine = { unequal.engine.release 1 with nextId := after.engine.nextId } := by
  have hreachable : Reachable unequal.engine := (Reachable.empty 5 none).calls _ (by decide)
  have hvars : unequal.vars.held ≤ unequal.engine.tally := by
    have hheld : unequal.vars.held = Tally.one 1 := add_zero _
    exact hheld ▸ unequal_one_le (by decide)
  have hlent : Lent unequal.engine.tally unequalPower.operands :=
    List.forall_mem_cons.mpr ⟨unequal_one_le (by decide),
      List.forall_mem_singleton.mpr (unequal_one_le (by decide))⟩
  refine ⟨_, _, hreachable, hvars, rfl, ?_⟩
  obtain ⟨hslots, hengine⟩ := failed_operation_leaves_no_trace hreachable rfl rfl hvars hlent
    [.node (.on 1 (by decide))] rfl
  exact ⟨hslots, rfl, hengine⟩

end MapAlgebra.Script
