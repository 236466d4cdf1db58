import MapAlgebra.Proofs.Handles.Custody

namespace MapAlgebra

-- An engine each of whose calls by itself keeps an order, whatever it is told and whichever handles
-- there are.
structure Abides {σ : Type} (engine : Engine σ) (order : Bool → σ → Tally → Prop) : Prop where
  acquire : ∀ {lowering node state handles}, node ≠ Address.null → order lowering state handles →
    order lowering (engine.acquire node state) (Tally.one node + handles)
  release : ∀ {lowering node state handles}, node ≠ Address.null →
    order lowering state (Tally.one node + handles) →
      order lowering (engine.release node state) handles
  construct : ∀ {lowering} request, Steady (order lowering) (engine.construct request)
  loopStart : ∀ {state handles}, order false state handles →
    order (engine.loopStart state).1.isOk (engine.loopStart state).2 handles
  loopCondition : ∀ {lowering} node, Steady (order lowering) (engine.loopCondition node)
  loopReplay : ∀ {lowering} next, Steady (order lowering) (engine.loopReplay next)
  loopAssemble : ∀ {lowering}, Steady (order lowering) engine.loopAssemble
  loopEnd : ∀ {state handles}, order true state handles →
    order false (engine.loopEnd state).2 handles
  loopPairs : ∀ {lowering} loop, Steady (order lowering) (engine.loopPairs loop)
  setupDevices : ∀ {lowering} platform mask device,
    Steady (order lowering) (engine.setupDevices platform mask device)
  setRanks : ∀ {lowering} ranks, Steady (order lowering) (engine.setRanks ranks)
  write : ∀ {lowering} node resource, Steady (order lowering) (engine.write node resource)
  evaluate : ∀ {lowering} nodes, Steady (order lowering) (engine.evaluate nodes)
  value : ∀ {lowering} node, Steady (order lowering) (engine.value node)
  nodeId : ∀ {lowering} node, Steady (order lowering) (engine.nodeId node)
  nodeName : ∀ {lowering} node, Steady (order lowering) (engine.nodeName node)
  stream : ∀ {lowering} node, Steady (order lowering) (engine.stream node)
  dataType : ∀ {lowering} node, Steady (order lowering) (engine.dataType node)
  dimension : ∀ {lowering} node, Steady (order lowering) (engine.dimension node)
  memOrder : ∀ {lowering} node, Steady (order lowering) (engine.memOrder node)
  size : ∀ {lowering} node, Steady (order lowering) (engine.size node)
  block : ∀ {lowering} node, Steady (order lowering) (engine.block node)
  group : ∀ {lowering} node, Steady (order lowering) (engine.group node)

-- Custody without conditions: handles may be taken on any node.
def Custody.free {σ : Type} (order : Bool → σ → Tally → Prop) : Custody σ :=
  ⟨order, fun _ => True, True⟩

namespace Abides

variable {σ : Type} {engine : Engine σ} {order : Bool → σ → Tally → Prop} {lowering : Bool}
  {frame : Tally}

theorem letGo (h : Abides engine order) {raster : Raster} {state : σ} {handles : Tally}
    (hstate : order lowering state (raster.held + handles)) :
    order lowering (engine.letGo raster state) handles := by
  unfold Engine.letGo
  cases hnode : raster.node with
  | none => rwa [Raster.held, hnode, zero_add] at hstate
  | some node =>
      rw [Raster.held_of_node hnode] at hstate
      exact h.release (Raster.ne_null hnode) hstate

theorem wrap (h : Abides engine order) (node : Address) :
    Keeps (order lowering) frame 0 (engine.wrap node) Raster.held := by
  unfold Engine.wrap
  split
  · exact .throw _ _
  · rename_i hnode
    intro state hstate
    rw [zero_add] at hstate
    exact h.acquire hnode hstate

theorem rebind (h : Abides engine order) (raster : Raster) (node : Address) :
    Keeps (order lowering) frame 0 (engine.rebind raster node)
      fun moved => moved.held - raster.held := by
  unfold Engine.rebind
  split
  · exact .throw _ _
  · rename_i hnode
    split
    · exact .pure (sub_self _)
    · intro state hstate
      have htaken := h.acquire hnode hstate
      have hsplit : Tally.one node + (0 + frame) =
          raster.held + (Tally.one node - raster.held + frame) := by abel
      exact h.letGo (hsplit ▸ htaken)

theorem wrapPairs (h : Abides engine order) (pairs : List (Address × Address)) :
    Keeps (order lowering) frame 0 (Loop.Lowering.wrapPairs engine pairs) heldAfter := by
  induction pairs generalizing frame with
  | nil => exact .pure rfl
  | cons pair pairs ih =>
      refine (h.wrap pair.2).bind fun raster => ?_
      refine (Keeps.orLetGo ih fun _ _ => h.letGo).bind fun rest => .pure ?_
      rw [heldAfter, List.map_cons, List.sum_cons, add_comm]
      rfl

theorem assembled (h : Abides engine order) :
    Keeps (order lowering) frame 0 engine.assembled Raster.held :=
  h.loopAssemble.still.bind h.wrap

theorem gathered (h : Abides engine order) (loop : Raster) :
    Keeps (order lowering) frame 0 (engine.gathered loop) heldAfter :=
  ((Keeps.lift _).bind fun node => (h.loopPairs node).still).bind fun _ => h.wrapPairs _

theorem honors (h : Abides engine order) : Honors engine (.free order) where
  acquire hnode _ := h.acquire hnode
  release := h.release
  make _ _ := (h.construct _).still.bind h.wrap
  renew _ _ _ := (h.construct _).still.bind (h.rebind _)
  wrap _ _ := h.wrap _
  rebind _ _ := h.rebind _ _
  start := h.loopStart
  condition node := (h.loopCondition node).still
  replay next := (h.loopReplay next).still
  conclude _ := h.assembled.bind fun loop =>
    (Keeps.orLetGo (h.gathered loop) fun _ _ => h.letGo).bind fun _ => .pure rfl
  assemble _ _ := h.assembled
  gather loop _ _ := h.gathered loop
  finish := h.loopEnd
  setupDevices platform mask device := (h.setupDevices platform mask device).still
  setRanks ranks := (h.setRanks ranks).still
  write node resource := (h.write node resource).still
  evaluate nodes := (h.evaluate nodes).still
  value node := (h.value node).still
  nodeId node := (h.nodeId node).still
  nodeName node := (h.nodeName node).still
  stream node := (h.stream node).still
  dataType node := (h.dataType node).still
  dimension node := (h.dimension node).still
  memOrder node := (h.memOrder node).still
  size node := (h.size node).still
  block node := (h.block node).still
  group node := (h.group node).still

end Abides

end MapAlgebra
