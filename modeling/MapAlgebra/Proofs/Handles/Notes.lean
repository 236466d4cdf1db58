import MapAlgebra.Proofs.Handles.Abiding
import MapAlgebra.Script.Session

namespace MapAlgebra

-- What is written down beside an engine: that a node was acquired, whether a loop could be started,
-- and that a loop was ended.
structure Notes (σ κ : Type) where
  acquired : Address → σ → κ → κ
  started : Bool → κ → κ
  ended : κ → κ

-- Runs a computation beside notes that it does not know of.
def Run.noted {σ κ α : Type} (run : Run σ α) : Run (σ × κ) α := fun state =>
  let (result, after) := run state.1
  (result, after, state.2)

namespace Engine

variable {σ κ : Type}

-- The same engine with notes on what it is told.
def noting (engine : Engine σ) (notes : Notes σ κ) : Engine (σ × κ) where
  name := engine.name
  setupDevices platform mask device := Run.noted (engine.setupDevices platform mask device)
  setRanks ranks := Run.noted (engine.setRanks ranks)
  acquire node state := (engine.acquire node state.1, notes.acquired node state.1 state.2)
  release node state := (engine.release node state.1, state.2)
  construct request := Run.noted (engine.construct request)
  loopStart state :=
    let (result, after) := engine.loopStart state.1
    (result, after, notes.started result.isOk state.2)
  loopCondition node := Run.noted (engine.loopCondition node)
  loopReplay next := Run.noted (engine.loopReplay next)
  loopAssemble := Run.noted engine.loopAssemble
  loopEnd state :=
    let (result, after) := engine.loopEnd state.1
    (result, after, notes.ended state.2)
  loopPairs loop := Run.noted (engine.loopPairs loop)
  write node resource := Run.noted (engine.write node resource)
  evaluate nodes := Run.noted (engine.evaluate nodes)
  value node := Run.noted (engine.value node)
  nodeId node := Run.noted (engine.nodeId node)
  nodeName node := Run.noted (engine.nodeName node)
  stream node := Run.noted (engine.stream node)
  dataType node := Run.noted (engine.dataType node)
  dimension node := Run.noted (engine.dimension node)
  memOrder node := Run.noted (engine.memOrder node)
  size node := Run.noted (engine.size node)
  block node := Run.noted (engine.block node)
  group node := Run.noted (engine.group node)

end Engine

-- The same console with an engine that takes notes.
def Script.Console.noting {σ κ : Type} (console : Script.Console σ) (notes : Notes σ κ) :
    Script.Console (σ × κ) where
  engine := console.engine.noting notes
  talks := console.talks
  refCount node state := console.refCount node state.1
  grid node := Run.noted (console.grid node)
  backstage command := Run.noted (console.backstage command)

end MapAlgebra
