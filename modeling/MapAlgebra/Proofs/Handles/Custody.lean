import MapAlgebra.Loop.Lowering
import MapAlgebra.Proofs.Graph.Requests
import MapAlgebra.Proofs.Handles.Balance

namespace MapAlgebra

theorem Raster.require_eq_ok {raster : Raster} {node : Address} (h : raster.require = .ok node) :
    raster.node = some node := by
  unfold Raster.require at h
  split at h
  · rename_i hnode
    rw [hnode, Except.ok.inj h]
  · cases h

-- The node of a handle is held.
theorem Raster.one_le {raster : Raster} {node : Address} {handles : Tally}
    (h : raster.require = .ok node) (hheld : raster.held ≤ handles) : Tally.one node ≤ handles :=
  Raster.held_of_node (Raster.require_eq_ok h) ▸ hheld

theorem Raster.ne_null {raster : Raster} {node : Address} (h : raster.node = some node) :
    node ≠ Address.null := by
  rintro rfl
  exact raster.proper h

namespace Engine

variable {σ : Type} (engine : Engine σ)

theorem wrap_eq {node : Address} (hnull : node ≠ Address.null) (state : σ) :
    engine.wrap node state = (.ok (.on node hnull), engine.acquire node state) := by
  unfold wrap
  rw [dif_neg hnull]
  rfl

theorem rebind_eq {raster : Raster} {node : Address} (hnull : node ≠ Address.null)
    (hnode : raster.node ≠ some node) (state : σ) :
    engine.rebind raster node state =
      (.ok (.on node hnull), engine.letGo raster (engine.acquire node state)) := by
  unfold rebind
  rw [dif_neg hnull, if_neg hnode]
  rfl

variable {engine} {α : Type} {raster : Raster} {state after : σ} {a : α}

theorem lending_eq_ok {step : Raster → Run σ α}
    (h : engine.lending raster step state = (.ok a, after)) :
    ∃ middle, step raster state = (.ok a, middle) ∧ after = engine.letGo raster middle := by
  unfold lending at h
  rcases hstep : step raster state with ⟨result, middle⟩
  rw [hstep] at h
  cases h
  exact ⟨middle, rfl, rfl⟩

theorem orLetGo_eq_ok {step : Run σ α} (h : engine.orLetGo raster step state = (.ok a, after)) :
    step state = (.ok a, after) := by
  unfold orLetGo at h
  rcases hstep : step state with ⟨_ | result, middle⟩
  · rw [hstep] at h
    cases h
  · rw [hstep] at h
    exact h

end Engine

-- What is held by something that may be missing.
def heldIfAny {α : Type} (held : α → Tally) : Option α → Tally
  | some a => held a
  | none => 0

-- A request that names nodes under handles only.
def Request.Backed (request : Construction) (handles : Tally) : Prop :=
  ∀ node ∈ request.nodes, node = Address.null ∨ Tally.one node ≤ handles

-- What the handles on the nodes after a loop hold.
def heldAfter (pairs : List (Address × Raster)) : Tally := (pairs.map (·.2.held)).sum

namespace Engine

variable {σ : Type} (engine : Engine σ)

-- Has a loop put together and takes a handle on it.
def assembled : Run σ Raster := do engine.wrap (← engine.loopAssemble)

-- Takes handles on the nodes after a loop.
def gathered (loop : Raster) : Run σ (List (Address × Raster)) := do
  let pairs ← loop.ask engine.loopPairs
  Loop.Lowering.wrapPairs engine (pairs.before.zip pairs.after)

-- Has a loop put together and takes handles on it and on the nodes after it.
def concluded : Run σ (Raster × List (Address × Raster)) := do
  let loop ← engine.assembled
  return (loop, ← engine.orLetGo loop (engine.gathered loop))

end Engine

-- How an engine goes with the handles on its nodes, while a loop is being lowered and while none
-- is. Handles may be taken on named nodes at any time. By hand, a loop may be put together without
-- asking for the nodes after it, and they may be asked for more than once.
structure Custody (σ : Type) where
  order : Bool → σ → Tally → Prop
  named : Address → Prop
  byHand : Prop

-- An engine that keeps an order as long as handles are taken on nodes that are held, that were just
-- made, or that are named, new nodes are made from nodes that are held, and each handle is let go
-- once. Loops are started while none is being lowered, and all else about loops happens while one
-- is.
structure Honors {σ : Type} (engine : Engine σ) (custody : Custody σ) : Prop where
  acquire : ∀ {lowering node state handles}, node ≠ Address.null → Tally.one node ≤ handles →
    custody.order lowering state handles →
      custody.order lowering (engine.acquire node state) (Tally.one node + handles)
  release : ∀ {lowering node state handles}, node ≠ Address.null →
    custody.order lowering state (Tally.one node + handles) →
      custody.order lowering (engine.release node state) handles
  make : ∀ {lowering frame} {request : Construction}, 0 ≤ frame → request.Backed frame →
    Keeps (custody.order lowering) frame 0 (engine.make request) Raster.held
  renew : ∀ {lowering frame raster} {request : Construction},
    (∀ node, raster.node = some node → node ∈ request.required) → raster.held ≤ frame →
    request.Backed frame →
    Keeps (custody.order lowering) frame 0 (do engine.rebind raster (← engine.construct request))
      fun moved => moved.held - raster.held
  wrap : ∀ {lowering frame node}, custody.named node → 0 ≤ frame →
    Keeps (custody.order lowering) frame 0 (engine.wrap node) Raster.held
  rebind : ∀ {lowering frame raster node}, custody.named node → raster.held ≤ frame →
    Keeps (custody.order lowering) frame 0 (engine.rebind raster node)
      fun moved => moved.held - raster.held
  start : ∀ {state handles}, custody.order false state handles →
    custody.order (engine.loopStart state).1.isOk (engine.loopStart state).2 handles
  condition : ∀ {frame} node, Still (custody.order true) frame (engine.loopCondition node)
  replay : ∀ {frame} next, Still (custody.order true) frame (engine.loopReplay next)
  conclude : ∀ {frame}, 0 ≤ frame →
    Keeps (custody.order true) frame 0 engine.concluded fun ended =>
      heldAfter ended.2 + ended.1.held
  assemble : ∀ {frame}, custody.byHand → 0 ≤ frame →
    Keeps (custody.order true) frame 0 engine.assembled Raster.held
  gather : ∀ {frame} loop, custody.byHand → 0 ≤ frame →
    Keeps (custody.order true) frame 0 (engine.gathered loop) heldAfter
  finish : ∀ {state handles}, custody.order true state handles →
    custody.order false (engine.loopEnd state).2 handles
  setupDevices : ∀ {lowering frame} platform mask device,
    Still (custody.order lowering) frame (engine.setupDevices platform mask device)
  setRanks : ∀ {lowering frame} ranks, Still (custody.order lowering) frame (engine.setRanks ranks)
  write : ∀ {lowering frame} node resource,
    Still (custody.order lowering) frame (engine.write node resource)
  evaluate : ∀ {lowering frame} nodes, Still (custody.order lowering) frame (engine.evaluate nodes)
  value : ∀ {lowering frame} node, Still (custody.order lowering) frame (engine.value node)
  nodeId : ∀ {lowering frame} node, Still (custody.order lowering) frame (engine.nodeId node)
  nodeName : ∀ {lowering frame} node, Still (custody.order lowering) frame (engine.nodeName node)
  stream : ∀ {lowering frame} node, Still (custody.order lowering) frame (engine.stream node)
  dataType : ∀ {lowering frame} node, Still (custody.order lowering) frame (engine.dataType node)
  dimension : ∀ {lowering frame} node, Still (custody.order lowering) frame (engine.dimension node)
  memOrder : ∀ {lowering frame} node, Still (custody.order lowering) frame (engine.memOrder node)
  size : ∀ {lowering frame} node, Still (custody.order lowering) frame (engine.size node)
  block : ∀ {lowering frame} node, Still (custody.order lowering) frame (engine.block node)
  group : ∀ {lowering frame} node, Still (custody.order lowering) frame (engine.group node)

-- An engine that keeps an order while handles are taken on nodes that are held and let go again.
structure Lends {σ : Type} (engine : Engine σ) (order : σ → Tally → Prop) : Prop where
  acquire : ∀ {node state handles}, node ≠ Address.null → Tally.one node ≤ handles →
    order state handles → order (engine.acquire node state) (Tally.one node + handles)
  release : ∀ {node state handles}, node ≠ Address.null →
    order state (Tally.one node + handles) → order (engine.release node state) handles

theorem Lends.letGo {σ : Type} {engine : Engine σ} {order : σ → Tally → Prop}
    (h : Lends engine order) {raster : Raster} {state : σ} {handles : Tally}
    (hstate : order state (raster.held + handles)) :
    order (engine.letGo raster state) handles := by
  unfold Engine.letGo
  cases hnode : raster.node with
  | none => rwa [Raster.held, hnode, zero_add] at hstate
  | some node =>
      rw [Raster.held, hnode] at hstate
      exact h.release (Raster.ne_null hnode) hstate

namespace Honors

variable {σ : Type} {engine : Engine σ} {custody : Custody σ} {lowering : Bool}

theorem lends (h : Honors engine custody) (lowering : Bool) :
    Lends engine (custody.order lowering) := ⟨h.acquire, h.release⟩

theorem letGo (h : Honors engine custody) {raster : Raster} {state : σ} {handles : Tally}
    (hstate : custody.order lowering state (raster.held + handles)) :
    custody.order lowering (engine.letGo raster state) handles :=
  (h.lends lowering).letGo hstate

theorem letGoOperand (h : Honors engine custody) {operand : Operand} {state : σ} {handles : Tally}
    (hstate : custody.order lowering state (operand.held + handles)) :
    custody.order lowering (engine.letGoOperand operand state) handles := by
  cases operand with
  | node raster => exact h.letGo hstate
  | host value => rwa [Operand.held, zero_add] at hstate

end Honors

-- A handle that is kept when a step succeeds and ended when it fails.
theorem Keeps.orLetGo {σ α : Type} {engine : Engine σ} {order : σ → Tally → Prop} {frame : Tally}
    {raster : Raster} {step : Run σ α} {gain : α → Tally}
    (hstep : Keeps order (raster.held + frame) 0 step gain)
    (hletGo : ∀ state handles, order state (raster.held + handles) →
      order (engine.letGo raster state) handles) :
    Keeps order frame raster.held (engine.orLetGo raster step) fun a => gain a + raster.held := by
  intro state hstate
  have hafter := (hstep state).lend hstate
  unfold Engine.orLetGo
  rcases hresult : step state with ⟨result, after⟩
  rw [hresult] at hafter
  cases result with
  | ok a =>
      show order after (gain a + raster.held + frame)
      rwa [Tally.yielded, add_left_comm, ← add_assoc] at hafter
  | error problem =>
      show order (engine.letGo raster after) (0 + frame)
      exact hletGo _ _ hafter

-- An engine that honors custody beside a frame of handles that are held elsewhere.
structure Keeper {σ : Type} (engine : Engine σ) (custody : Custody σ) (frame : Tally) : Prop where
  honors : Honors engine custody
  nonneg : 0 ≤ frame

namespace Keeper

variable {σ : Type} {engine : Engine σ} {custody : Custody σ} {frame larger part : Tally}

theorem more (h : Keeper engine custody frame) (hle : frame ≤ larger) :
    Keeper engine custody larger := ⟨h.honors, h.nonneg.trans hle⟩

theorem le_beside (raster : Raster) (frame : Tally) : frame ≤ raster.held + frame :=
  le_add_of_nonneg_left raster.held_nonneg

theorem le_besideOperand (operand : Operand) (frame : Tally) : frame ≤ operand.held + frame :=
  le_add_of_nonneg_left operand.held_nonneg

-- One more handle is held elsewhere.
theorem beside (h : Keeper engine custody frame) (raster : Raster) :
    Keeper engine custody (raster.held + frame) := h.more (le_beside raster frame)

theorem lent (h : Keeper engine custody frame) (raster : Raster) :
    raster.held ≤ raster.held + frame := le_add_of_nonneg_right h.nonneg

end Keeper

end MapAlgebra
