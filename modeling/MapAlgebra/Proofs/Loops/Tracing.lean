import MapAlgebra.Proofs.Loops.Values

namespace MapAlgebra

theorem Tally.pos_of_le {small large : Tally} (h : small ≤ large) {node : Address}
    (hpos : 0 < small node) : 0 < large node := by
  have hle : small node ≤ large node := h node
  omega

-- The recorder after so many nodes were made, one after the other.
def Graph.Recorder.recordFrom (recorder : Graph.Recorder) (base count : Nat) : Graph.Recorder :=
  (List.range' base count).foldl Graph.Recorder.record recorder

theorem Graph.Recorder.recordFrom_succ (recorder : Graph.Recorder) (base count : Nat) :
    recorder.recordFrom base (count + 1) = (recorder.recordFrom base count).record (base + count) := by
  rw [recordFrom, List.range'_1_concat, List.foldl_concat]
  rfl

namespace Loop

open MapAlgebra.Graph

def resultsHeld (results : List Raster) : Tally := (results.map Raster.held).sum

theorem resultsHeld_nonneg (results : List Raster) : 0 ≤ resultsHeld results := by
  refine List.sum_nonneg fun held hheld => ?_
  obtain ⟨raster, _, rfl⟩ := List.mem_map.mp hheld
  exact raster.held_nonneg

theorem held_le_resultsHeld {results : List Raster} {raster : Raster} (h : raster ∈ results) :
    raster.held ≤ resultsHeld results := by
  refine List.single_le_sum (fun held hheld => ?_) _ (List.mem_map.mpr ⟨raster, h, rfl⟩)
  obtain ⟨other, _, rfl⟩ := List.mem_map.mp hheld
  exact other.held_nonneg

theorem resultsHeld_concat (results : List Raster) (raster : Raster) :
    resultsHeld (results ++ [raster]) = resultsHeld results + raster.held := by
  rw [resultsHeld, List.map_append, List.sum_append]
  exact congrArg _ (add_zero _)

theorem letGo_results (results : List Raster) (state : State) :
    Handled state (results.foldl (fun state raster => simulator.letGo raster state) state) := by
  induction results generalizing state with
  | nil => exact .refl state
  | cons raster results ih => exact (Handled.letGo raster state).trans (ih _)

theorem backs_results {tally : Tally} {results : List Raster} {state : State}
    (h : Backs state (tally + resultsHeld results)) :
    Backs (results.foldl (fun state raster => simulator.letGo raster state) state) tally := by
  induction results generalizing state with
  | nil => exact (add_zero tally).subst h
  | cons raster results ih =>
      refine ih (Backs.letGo ?_)
      have hsum : tally + resultsHeld (raster :: results) =
          tally + resultsHeld results + raster.held := by
        rw [resultsHeld, List.map_cons, List.sum_cons, add_comm raster.held, ← add_assoc]
        rfl
      exact hsum ▸ h

-- The node of a raster variable.
def Vars.nodeOf (vars : Vars) (name : String) : Address :=
  match vars.slots.find? name with
  | some (.node raster) => raster.address
  | _ => Address.null

namespace Ref

variable (begun : Scope State Vars)

-- The node that a reference stands for. Steps are the nodes made since the round began.
def address : Ref → Address
  | start name => begun.vars.nodeOf name
  | step index => begun.engine.nextId + index
  | outside raster => raster.address
  | absent => Address.null

-- Whether a variable that refers to something holds it.
def Denotes (operand : Option Operand) : Ref → Prop
  | start name => operand = begun.vars.slots.find? name
  | ref => ∃ raster, operand = some (.node raster) ∧ raster.node = some (ref.address begun)

end Ref

-- What the variables of a scope are worth.
def worth (scope : Scope State Vars) (name : String) : Value :=
  scope.engine.valueOf (scope.vars.nodeOf name)

def around (scope : Scope State Vars) (raster : Raster) : Value :=
  scope.engine.valueOf raster.address

-- What the steps of an outline are worth when they begin in a scope.
def valuesFrom (begun : Scope State Vars) (steps : List (Step Ref)) : List Value :=
  stepValues begun.engine.store (worth begun) (around begun) steps

def Ref.valueFrom (begun : Scope State Vars) (steps : List (Step Ref)) (ref : Ref) : Value :=
  ref.value (worth begun) (around begun) (valuesFrom begun steps)

-- A scope in which straight-line code can begin: its variables and the rasters outside are backed
-- by handles.
structure Ready (outer : Tally) (scope : Scope State Vars) : Prop where
  looped : Looped scope.engine
  nonneg : 0 ≤ outer
  backs : Backs scope.engine (scope.vars.held + outer)

-- What became of one step of an outline.
structure Made (outer : Tally) (begun now : Scope State Vars) (steps : List (Step Ref))
    (index : Nat) (step : Step Ref) : Prop where
  required : ∀ ref ∈ step.required, ref.isAbsent = false
  known : ∀ ref ∈ step.nodes, ref.Scoped outer index
  drafted : ∃ draft, step.draft (fun ref => (ref.valueFrom begun steps).info)
      begun.engine.store = .ok draft ∧
    ∀ node, now.engine.nodes.get? (begun.engine.nextId + index) = some node →
      node.kind = draft.kind ∧ node.info = draft.info ∧
        node.inputs = step.inputs.map (Ref.address begun)

-- What a call returned holds the node of its step.
structure Kept (begun : Scope State Vars) (count step : Nat) (raster : Raster) : Prop where
  known : step < count
  node : raster.node = some (begun.engine.nextId + step)

-- How far the graph goes with an outline: each step is the next node, and each variable holds
-- what it refers to.
structure Traced (outer : Tally) (begun : Scope State Vars) (outline : Outline)
    (results : List Raster) (now : Scope State Vars) : Prop where
  builds : Builds begun.engine now.engine
  next : now.engine.nextId = begun.engine.nextId + outline.steps.length
  recorder : now.engine.recorder =
    begun.engine.recorder.recordFrom begun.engine.nextId outline.steps.length
  vars : ∀ name, (outline.vars name).Denotes begun (now.vars.slots.find? name)
  known : ∀ name, (outline.vars name).Scoped outer outline.steps.length
  kept : List.Forall₂ (Kept begun outline.steps.length) outline.results results
  made : ∀ {index step}, outline.steps[index]? = some step →
    Made outer begun now outline.steps index step
  backs : Backs now.engine (now.vars.held + resultsHeld results + outer)
  marked : ∀ name, outline.vars name = .start name ∨ name ∈ now.vars.assigned

namespace Ref

variable {begun : Scope State Vars}

theorem address_of_denotes {ref : Ref} {raster : Raster} {node : Address}
    (h : ref.Denotes begun (some (.node raster))) (hnode : raster.node = some node) :
    ref.address begun = node ∧ ref.isAbsent = false := by
  cases ref with
  | start name =>
      have hfind : some (.node raster) = begun.vars.slots.find? name := h
      refine ⟨?_, rfl⟩
      rw [address, Vars.nodeOf, ← hfind]
      show raster.node.getD Address.null = node
      rw [hnode]
      rfl
  | absent =>
      obtain ⟨other, heq, hother⟩ := h
      cases heq
      exact absurd hother raster.proper
  | _ =>
      obtain ⟨other, heq, hother⟩ := h
      cases heq
      rw [hnode] at hother
      exact ⟨(Option.some.inj hother).symm, rfl⟩

end Ref

theorem Vars.held_of_find {vars : Vars} {name : String} {raster : Raster} {node : Address}
    (h : vars.slots.find? name = some (.node raster)) (hnode : raster.node = some node) :
    0 < vars.held node := by
  refine Tally.pos_of_le (Bindings.held_of_find h) ?_
  show 0 < raster.held node
  rw [Raster.held_of_node hnode, Tally.one_self]
  omega

namespace Ready

variable {outer : Tally} {scope : Scope State Vars}

theorem live_start (h : Ready outer scope) (name : String) :
    scope.vars.nodeOf name = Address.null ∨
      scope.engine.nodes.contains (scope.vars.nodeOf name) = true := by
  unfold Vars.nodeOf
  split
  · rename_i raster hfind
    cases hnode : raster.node with
    | none => exact Or.inl (by rw [Raster.address, hnode]; rfl)
    | some node =>
        refine Or.inr (h.backs.live ?_)
        rw [Raster.address, hnode]
        have hheld := Vars.held_of_find hfind hnode
        have hnonneg := h.nonneg node
        simp only [Pi.add_apply, Pi.zero_apply, Option.getD_some] at hnonneg ⊢
        omega
  · exact Or.inl rfl

theorem live_outside (h : Ready outer scope) {node : Address} (hheld : 0 < outer node) :
    scope.engine.nodes.contains node = true := by
  refine h.backs.live ?_
  have hvars := scope.vars.slots.held_nonneg node
  simp only [Pi.add_apply, Pi.zero_apply, Vars.held] at hvars ⊢
  omega

-- Whatever is read that is not a step is there, if it is anything.
theorem live_old (h : Ready outer scope) {ref : Ref} {count : Nat} (hknown : ref.Scoped outer count)
    (hold : ∀ index, ref ≠ .step index) :
    ref.address scope = Address.null ∨ scope.engine.nodes.contains (ref.address scope) = true := by
  cases ref with
  | start name => exact h.live_start name
  | step index => exact absurd rfl (hold index)
  | outside raster =>
      cases hnode : raster.node with
      | none => exact Or.inl (by rw [Ref.address, Raster.address, hnode]; rfl)
      | some node =>
          right
          rw [Ref.address, Raster.address, hnode]
          exact h.live_outside (hknown node hnode)
  | absent => exact Or.inl rfl

-- It was there before the steps are.
theorem address_lt (h : Ready outer scope) {ref : Ref} {count : Nat} (hknown : ref.Scoped outer count)
    (hold : ∀ index, ref ≠ .step index) : ref.address scope < scope.engine.nextId := by
  have hnumbered := h.looped.consistent.counted.numbered
  obtain hnull | hthere := h.live_old hknown hold
  · exact hnull ▸ hnumbered.next
  · exact hnumbered.lt_next hthere

theorem nodeOf_lt (h : Ready outer scope) (name : String) :
    scope.vars.nodeOf name < scope.engine.nextId :=
  h.address_lt (show (Ref.start name).Scoped outer 0 from trivial) nofun

end Ready

namespace Traced

variable {outer : Tally} {begun now : Scope State Vars} {outline : Outline}
  {results : List Raster}

theorem fresh (h : Ready outer begun) : Traced outer begun .fresh [] begun where
  builds := .refl _
  next := rfl
  recorder := rfl
  vars _ := rfl
  known _ := trivial
  kept := .nil
  made h := by cases h
  backs := by
    have hsum : begun.vars.held + resultsHeld [] + outer = begun.vars.held + outer := by
      rw [resultsHeld, List.map_nil, List.sum_nil, add_zero]
    exact hsum ▸ h.backs
  marked _ := Or.inl rfl

-- What a source reads is there, and it is what the source refers to.
theorem reads (h : Traced outer begun outline results now) (hready : Ready outer begun)
    {source : Source} {node : Address} (hnode : source.node now.vars results = .ok node)
    (hthere : source.isAbsent = false)
    (houter : ∀ raster, source = .outside raster → ∀ node, raster.node = some node → 0 < outer node) :
    ∃ raster, raster.node = some node ∧
      (source.resolve outline.vars outline.results).Denotes begun (some (.node raster)) ∧
      (source.resolve outline.vars outline.results).Scoped outer outline.steps.length ∧
      now.engine.nodes.contains node = true := by
  have hvars := now.vars.slots.held_nonneg node
  have hresults := resultsHeld_nonneg results node
  have hnonneg := hready.nonneg node
  have hrequire : ∀ {raster : Raster}, raster.require = .ok node → raster.node = some node := by
    intro raster hrequire
    unfold Raster.require at hrequire
    split at hrequire
    · cases hrequire
      assumption
    · cases hrequire
  have hlive : 0 < now.vars.held node ∨ 0 < resultsHeld results node ∨ 0 < outer node →
      now.engine.nodes.contains node = true := by
    intro hheld
    refine h.backs.live ?_
    simp only [Pi.add_apply, Pi.zero_apply, Vars.held] at hvars hresults hnonneg hheld ⊢
    omega
  cases source with
  | named name =>
      obtain ⟨raster, hraster, hnode⟩ := bind_eq_ok.mp hnode
      have hnode := hrequire hnode
      obtain ⟨operand, hget, hoperand⟩ := bind_eq_ok.mp hraster
      have hfind : now.vars.slots.find? name = some operand := by
        unfold Vars.get at hget
        split at hget
        · cases hget
          assumption
        · cases hget
      cases operand with
      | host value => cases hoperand
      | node found =>
          cases hoperand
          refine ⟨raster, hnode, hfind ▸ h.vars name, h.known name, hlive (Or.inl ?_)⟩
          exact Vars.held_of_find hfind hnode
  | result index =>
      cases hraster : results[index]? with
      | none =>
          simp only [Source.node, hraster] at hnode
          cases hnode
      | some raster =>
          simp only [Source.node, hraster] at hnode
          have hnode := hrequire hnode
          obtain ⟨step, hstep, hkept⟩ := exists_related h.kept.flip hraster
          have href : (Source.result index).resolve outline.vars outline.results = .step step := by
            rw [Source.resolve, hstep]
            rfl
          rw [href]
          refine ⟨raster, hnode, ⟨raster, rfl, hkept.node⟩, hkept.known,
            hlive (Or.inr (Or.inl ?_))⟩
          refine Tally.pos_of_le (held_le_resultsHeld (List.mem_of_getElem? hraster)) ?_
          rw [Raster.held_of_node hnode, Tally.one_self]
          omega
  | outside raster =>
      have hnode := hrequire hnode
      refine ⟨raster, hnode, ⟨raster, rfl, ?_⟩, houter raster rfl,
        hlive (Or.inr (Or.inr (houter raster rfl node hnode)))⟩
      show raster.node = some raster.address
      rw [Raster.address, hnode]
      rfl
  | absent => cases hthere

-- What was there when the round began is worth what it was.
theorem value_of_old (h : Traced outer begun outline results now)
    (hready : Ready outer begun) {ref : Ref} (hknown : ref.Scoped outer outline.steps.length)
    (hlive : now.engine.nodes.contains (ref.address begun) = true)
    (hold : ∀ index, ref ≠ .step index) :
    now.engine.valueOf (ref.address begun) = ref.valueFrom begun outline.steps := by
  rw [h.builds.valueOf_eq hready.looped hlive (hready.address_lt hknown hold)]
  cases ref with
  | step index => exact absurd rfl (hold index)
  | _ => rfl

-- A step that is still there has the operation and the data it was drafted with.
theorem step_value (h : Traced outer begun outline results now) {index : Nat}
    {step : Step Ref} (hstep : outline.steps[index]? = some step) :
    ∃ draft, step.draft (fun ref => (ref.valueFrom begun outline.steps).info)
        begun.engine.store = .ok draft ∧
      (∀ node, now.engine.nodes.get? (begun.engine.nextId + index) = some node →
        node.kind = draft.kind ∧ node.info = draft.info ∧
          node.inputs = step.inputs.map (Ref.address begun)) ∧
      Ref.valueFrom begun outline.steps (.step index) = ⟨.ok draft.info, do
        let inputs ← step.inputs.mapM fun ref => (ref.valueFrom begun outline.steps).grid
        draft.kind.apply draft.info inputs⟩ := by
  obtain ⟨draft, hdraft, hnode⟩ := (h.made hstep).drafted
  refine ⟨draft, hdraft, hnode, ?_⟩
  have hvalues := getElem?_stepValues begun.engine.store (worth begun) (around begun) hstep
    (h.made hstep).known
  have hvalue : Ref.valueFrom begun outline.steps (.step index) =
      stepValue begun.engine.store (Ref.valueFrom begun outline.steps) step := by
    rw [Ref.valueFrom, valuesFrom, Ref.value, hvalues]
    rfl
  rw [hvalue, stepValue, hdraft]

theorem info_of (h : Traced outer begun outline results now) (hready : Ready outer begun)
    {ref : Ref} (hknown : ref.Scoped outer outline.steps.length)
    (hlive : now.engine.nodes.contains (ref.address begun) = true) :
    now.engine.info (ref.address begun) = (ref.valueFrom begun outline.steps).info := by
  by_cases hstep : ∃ index, ref = .step index
  · obtain ⟨index, rfl⟩ := hstep
    have hindex : index < outline.steps.length := hknown
    obtain ⟨draft, _, hnode, hvalue⟩ := h.step_value (List.getElem?_eq_getElem hindex)
    obtain ⟨node, hget⟩ := (Table.contains_iff _ _).mp hlive
    have hnumbered := (h.builds.looped hready.looped).consistent.counted.numbered
    rw [hvalue, State.info, State.find_eq hnumbered hget]
    exact congrArg Except.ok (hnode node hget).2.1
  · have hold : ∀ index, ref ≠ .step index := fun index hsame => hstep ⟨index, hsame⟩
    exact congrArg Value.info (h.value_of_old hready hknown hlive hold)

end Traced

end Loop

end MapAlgebra
