import MapAlgebra.Config
import MapAlgebra.Graph.Simulation
import MapAlgebra.Library.Recorded
import MapAlgebra.Script.Session

namespace MapAlgebra.Script

def devicesReply (devices : Graph.Devices) : Reply :=
  .list [.text devices.platform, .int devices.mask.bits.toNat, .text devices.device]

-- A graph with the same limit and files, but nothing in it.
def renewed (state : Graph.State) : Graph.State := .empty state.limit state.store.directory

def putFile (name text : String) (state : Graph.State) : Graph.State :=
  { state with
    store := { state.store with directory := state.store.directory.map (·.put name text) } }

def graphBackstage (command : Backstage) : Run Graph.State Reply :=
  match command with
  | .insert name grid => do
      let grid ← grid
      modify fun state => { state with store := state.store.insert name grid }
      return .nothing
  | .resource name => do
      return .optional (((← get).store.get? name).map .grid)
  | .protect name => do
      modify fun state => { state with store := state.store.lock name }
      return .nothing
  | .refs nodes => do
      let state ← get
      return .list (nodes.map fun node =>
        .optional ((state.refCount node).map fun count => .int count))
  | .fresh => do
      modify renewed
      return .nothing
  | .file name => do
      return .optional (((← get).store.directory.bind (·.file? name)).map .text)
  | .putFile name text => do
      modify (putFile name text)
      return .nothing
  | .devices => do return .optional ((← get).devices.map devicesReply)
  | .ranks => do
      let state ← get
      return .list [.int state.ranks, .flag state.devices.isSome, .text Graph.simulator.name]
  | .plan _ _ => throw (.misuse "not a library")

-- A session on a graph in memory.
def graphConsole : Console Graph.State where
  engine := Graph.simulator
  talks := true
  refCount node state := state.refCount node
  grid node := Graph.asking (·.grid node)
  backstage := graphBackstage

def libraryBackstage (command : Backstage) : Run Library.Recording Reply :=
  match command with
  | .plan symbol returns => do
      modify (·.plan symbol returns)
      return .nothing
  | .devices => return .nothing
  | .ranks => return .list [.int 1, .flag false, .text "libmap"]
  | _ => throw (.misuse "not a graph in memory")

-- A session on a recording library.
def libraryConsole (features : Library.Features) : Console Library.Recording where
  engine := (Library.Recording.library features).engine
  talks := false
  refCount _ _ := none
  grid _ := throw (.misuse "not a graph in memory")
  backstage := libraryBackstage

-- Runs commands one after the other and gives each one's outcome with a view of the state.
def runCommands {σ α : Type} (console : Console σ) (prepare : σ → σ) (view : σ → α) :
    List Command → Workspace σ → List (Except MapError Reply × α)
  | [], _ => []
  | command :: commands, workspace =>
      let workspace := { workspace with
        scope := { workspace.scope with engine := prepare workspace.scope.engine } }
      let (result, workspace) := runCommand console command workspace
      (result, view workspace.scope.engine) ::
        runCommands console prepare view commands workspace

-- An expression of numbers, computed on a graph of its own.
def compute (expr : Expr) : Except MapError Scalar :=
  let engine := Graph.State.empty Config.usual.maxLoopIterations none
  match expr.eval Graph.simulator .empty ⟨engine, false, .empty⟩ with
  | (.ok operand, _) => operand.toHost
  | (.error problem, _) => .error problem

end MapAlgebra.Script
