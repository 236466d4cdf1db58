import MapAlgebra.Script.Command

namespace MapAlgebra.Script

open Loop (Act Carried Scope Vars)

-- An engine together with what can be seen of it from outside.
structure Console (σ : Type) where
  engine : Engine σ
  -- Whether descriptions ask the engine for details.
  talks : Bool
  refCount : Address → σ → Option Nat
  grid : Address → Run σ Grid
  backstage : Backstage → Run σ Reply

-- What a session keeps between its steps: variables, the engine with the loop variables, a loop
-- that is being lowered by hand, and the carried nodes of a loop.
structure Workspace (σ : Type) where
  names : Names
  scope : Scope σ Vars
  lowering : Bool
  carried : Option Carried

def Workspace.start {σ : Type} (engine : σ) : Workspace σ :=
  ⟨.empty, ⟨engine, false, .empty⟩, false, none⟩

abbrev Step (σ α : Type) := ExceptT MapError (StateM (Workspace σ)) α

variable {σ α : Type} (console : Console σ)

-- Runs a computation on the engine and the loop variables, with the variables in sight.
def inScope (act : Names → Act σ Vars α) : Step σ α := fun workspace =>
  let (result, scope) := act workspace.names workspace.scope
  (result, { workspace with scope })

def onEngine (step : Run σ α) : Step σ α := inScope fun _ => Loop.onEngine step

def changeEngine (change : σ → σ) : Step σ Unit := inScope fun _ => Loop.changeEngine change

-- Binds a variable and then lets go of what it held before.
def bindName (name : String) (operand : Operand) : Step σ Unit :=
  modify fun workspace =>
    { workspace with
      names := workspace.names.bind name operand
      scope := { workspace.scope with
        engine := letGoOptional console.engine (workspace.names.find? name)
          workspace.scope.engine } }

-- Puts back a variable whose handle was moved.
def putName (name : String) (operand : Operand) : Step σ Unit :=
  modify fun workspace =>
    { workspace with names := workspace.names.bind name operand }

def dropName (name : String) : Step σ Unit :=
  modify fun workspace =>
    { workspace with
      names := workspace.names.erase name
      scope := { workspace.scope with
        engine := letGoOptional console.engine (workspace.names.find? name)
          workspace.scope.engine } }

def dropNames : List String → Step σ Unit
  | [] => return ()
  | name :: names => do
      dropName console name
      dropNames names

def rasterNamed (name : String) : Step σ Raster := do
  (← lookUp (← get).names name).toRaster

def details (node : Address) : Run σ Description := do
  let dtype ← console.engine.dataType node
  let name ← console.engine.nodeName node
  let size ← console.engine.size node
  return .known node name dtype size

-- Says what an operand is.
def describe (operand : Operand) : Step σ Reply := do
  match operand with
  | .host value => return .description (.host value)
  | .node raster =>
      match raster.node with
      | none => return .description .empty
      | some node =>
          if console.talks then
            try pure (.description (← onEngine (details console node)))
            catch problem => pure (.description (.failed node problem))
          else return .description (.node node)

def describeRaster (raster : Raster) : Step σ Reply := describe console (.node raster)

def answer (question : Question) (node : Address) : Run σ Reply :=
  let engine := console.engine
  match question with
  | .id => do return .int (← engine.nodeId node)
  | .name => do return .text (← engine.nodeName node)
  | .stream => do return .text (Coded.label (← engine.stream node))
  | .dtype => do return .text (Coded.label (← engine.dataType node))
  | .dimension => do return .text (Coded.label (← engine.dimension node))
  | .order => do return .text (← engine.memOrder node).text
  | .size => do return .shape (← engine.size node)
  | .block => do return .shape (← engine.block node)
  | .group => do return .shape (← engine.group node)

def layoutReply (layout : Layout) : Reply :=
  .record
    [("size", .shape layout.size), ("dtype", .text (Coded.label layout.dtype)),
     ("order", .text layout.order.text), ("block", .shape layout.block),
     ("group", .shape layout.group)]

-- Everything that can be asked about a raster.
def allAbout (raster : Raster) : Run σ Reply := do
  let ask := fun (question : Question) => raster.ask (answer console question)
  let id ← ask .id
  let name ← ask .name
  let stream ← ask .stream
  let dtype ← ask .dtype
  let dimension ← ask .dimension
  let order ← ask .order
  let size ← ask .size
  let block ← ask .block
  let group ← ask .group
  let like ← console.engine.layoutOf raster
  let refs := console.refCount raster.address (← get)
  return .record
    [("id", id), ("name", name), ("stream", stream), ("dtype", dtype), ("dim", dimension),
     ("order", order), ("size", size), ("block", block), ("group", group),
     ("refs", .optional (refs.map fun count => .int count)),
     ("debug", .text (console.engine.handleText raster)), ("like", layoutReply like)]

def debugText (operand : Operand) : String :=
  match operand with
  | .node raster => console.engine.handleText raster
  | .host value => value.text

-- The loop variables with what they hold.
def varsReply : Step σ Reply := do
  let vars := (← get).scope.vars
  let slots ← vars.slots.entries.mapM fun (name, operand) => do
    return Reply.list [.text name, ← describe console operand]
  return .record [("assigned", .list (vars.assigned.map .text)), ("vars", .list slots)]

-- The handle of a loop node is kept under a name or let go.
def keepLoop (bind : Option String) (loop : Raster) : Step σ Unit :=
  match bind with
  | some name => bindName console name (.node loop)
  | none => changeEngine (console.engine.letGo loop)

def runLoopCommand (condition : Expr) (form : GuardForm) (body : List Statement)
    (bind : Option String) : Step σ Reply := do
  let loop ← inScope fun names => runLoop console.engine names condition form body
  let described ← match loop with
    | some loop => describeRaster console loop
    | none => pure .nothing
  let vars ← varsReply console
  match loop with
  | some loop => keepLoop console bind loop
  | none => pure ()
  return .record [("loop", described), ("lv", vars)]

-- Takes a variable that has to hold a raster; it is gone even if it does not.
def takeRaster (name : String) : Step σ Raster := do
  let operand ← lookUp (← get).names name
  modify fun workspace => { workspace with names := workspace.names.erase name }
  operand.toRaster

def takeRegisters : List String → Step σ Registers
  | [] => throw (.misuse "no variable")
  | [x] => do return ⟨← takeRaster x, .empty⟩
  | x :: y :: _ => do
      let first ← takeRaster x
      let second ←
        try takeRaster y
        catch problem => do
          changeEngine (console.engine.letGo first)
          throw problem
      return ⟨first, second⟩

-- Puts registers back; one that no variable is there for is let go.
def putRegisters (registers : Registers) : List String → Step σ Unit
  | [] => changeEngine fun state =>
      console.engine.letGo registers.y (console.engine.letGo registers.x state)
  | [x] => do
      putName x (.node registers.x)
      changeEngine (console.engine.letGo registers.y)
  | x :: y :: _ => do
      putName x (.node registers.x)
      putName y (.node registers.y)

-- Runs a loop on registers and puts them back, also when the loop fails.
def runRegisters (loop : InlineLoop) (registers : Registers) (names : List String) :
    Step σ (Option Raster) := do
  let scope := (← get).scope
  let (result, inner) := loop.run console.engine ⟨scope.engine, scope.lowering, registers⟩
  modify fun workspace =>
    { workspace with scope := { scope with engine := inner.engine, lowering := inner.lowering } }
  putRegisters console inner.vars names
  result

-- Runs a loop on variables. They keep what the loop left in them.
def runInline (loop : InlineLoop) (names : List String) : Step σ Reply := do
  let registers ← takeRegisters console names
  let loop ← runRegisters console loop registers names
  let described ← match loop with
    | some loop => do
        let reply ← describeRaster console loop
        changeEngine (console.engine.letGo loop)
        pure reply
    | none => pure .nothing
  let vars ← names.mapM fun name => do describeRaster console (← rasterNamed name)
  return .record [("loop", described), ("vars", .list vars)]

def resolve (names : Names) : NodeRef → Except MapError Address
  | .address node => .ok node
  | .variable name => do return (← (← lookUp names name).toRaster).address

def firstOf (nodes : List Address) : Except MapError Address :=
  match nodes with
  | node :: _ => .ok node
  | [] => .error (.misuse "missing node")

def nodeReply (node : Address) : Reply := .record [("node", .int node)]

def runCall (call : EngineCall) (nodes : List Address) : Run σ Reply :=
  let engine := console.engine
  match call with
  | .acquire => do
      modify (engine.acquire (← firstOf nodes))
      return .nothing
  | .release => do
      modify (engine.release (← firstOf nodes))
      return .nothing
  | .construct request => do return nodeReply (← engine.construct (← request nodes))
  | .loopStart => do engine.loopStart; return .nothing
  | .loopCondition => do engine.loopCondition (← firstOf nodes); return .nothing
  | .loopReplay replay => do engine.loopReplay replay; return .nothing
  | .loopAssemble => do return nodeReply (← engine.loopAssemble)
  | .loopEnd => do engine.loopEnd; return .nothing
  | .loopPairs => do
      let pairs ← engine.loopPairs (← firstOf nodes)
      return .list ((pairs.before.zip pairs.after).map fun (before, after) =>
        .ints [before, after])
  | .write resource => do return .int (← engine.write (← firstOf nodes) resource)
  | .evaluate => do engine.evaluate nodes; return .nothing
  | .value => do return .scalar (← engine.value (← firstOf nodes))
  | .grid => do return .grid (← console.grid (← firstOf nodes))
  | .ask question => do answer console question (← firstOf nodes)

-- Computes several expressions that have to be rasters and lends them all to a step.
def lendAll (names : Names) : List Expr → (List Raster → Act σ Vars α) → Act σ Vars α
  | [], step => step []
  | expr :: exprs, step =>
      expr.lendRaster console.engine names fun raster =>
        lendAll names exprs fun rasters => step (raster :: rasters)

-- Changes a raster variable in place and answers its new node.
def changeName (name : String) (change : Raster → Run σ Raster) : Step σ Reply := do
  let raster ← rasterNamed name
  let raster ← onEngine (change raster)
  putName name (.node raster)
  return .int raster.address

-- Computes an expression and lends the result to a step of the session.
def lendValue (expr : Expr) (step : Operand → Step σ α) : Step σ α := do
  let operand ← inScope fun names => expr.eval console.engine names
  fun workspace =>
    let (result, workspace) := step operand workspace
    (result, { workspace with
      scope := { workspace.scope with
        engine := console.engine.letGoOperand operand workspace.scope.engine } })

def lendRasterValue (expr : Expr) (step : Raster → Step σ α) : Step σ α :=
  lendValue console expr fun operand => do step (← operand.toRaster)

def letGoOptionalCarried (carried : Option Carried) (state : σ) : σ :=
  match carried with
  | some carried => console.engine.letGoCarried carried state
  | none => state

-- Keeps the carried nodes of a loop in place of the ones before.
def keepCarried (carried : Carried) : Step σ Unit :=
  modify fun workspace =>
    { workspace with
      carried := some carried
      scope := { workspace.scope with
        engine := letGoOptionalCarried console workspace.carried workspace.scope.engine } }

def openCarried : Step σ Carried := do
  match (← get).carried with
  | some carried => return carried
  | none => throw (.misuse "no carried variables")

def dropCarried : Step σ Unit :=
  modify fun workspace =>
    { workspace with
      carried := none
      scope := { workspace.scope with
        engine := letGoOptionalCarried console workspace.carried workspace.scope.engine } }

-- Moves a variable on to the node after the loop, and says whether the loop carries its node.
def followName (carried : Carried) (name : String) : Step σ Bool := do
  let operand ← lookUp (← get).names name
  let scope := (← get).scope
  let ((any, operand), engine) := console.engine.followCarried carried operand scope.engine
  modify fun workspace => { workspace with scope := { scope with engine } }
  putName name operand
  return any

def followNames (names : List String) (form : CarriedForm) : Step σ Reply := do
  let carried ← openCarried
  let moving := match form with
    | .all => names
    | .last => names.drop (names.length - 1)
    | .none => []
  let moved ← moving.mapM (followName console carried)
  let described ← names.mapM fun name => do describe console (← lookUp (← get).names name)
  return .record [("any", .flag (moved.any id)), ("vars", .list described)]

def needLowering : Step σ Unit := do
  if (← get).lowering then return () else throw (.misuse "no open loop")

def closeLowering (act : Act σ Vars Unit) : Step σ Reply := do
  needLowering
  modify fun workspace => { workspace with lowering := false }
  inScope fun _ => act
  return .nothing

-- Lets go of everything that the session holds.
def clear : Step σ Unit := do
  dropCarried console
  if (← get).lowering then
    let _ ← closeLowering (modify (Loop.Lowering.abandon console.engine))
  modify fun workspace =>
    { workspace with
      names := .empty
      scope := { workspace.scope with
        vars := .empty
        engine := letGoAll console.engine
          (workspace.names.operands ++ workspace.scope.vars.slots.operands)
          workspace.scope.engine } }

-- Runs one step of a session. A step that fails keeps what happened before the failure.
def runCommand : Command → Step σ Reply
  | .statement statement => do
      match ← inScope fun names => statement.run console.engine names with
      | some operand => do
          let reply ← describe console operand
          changeEngine (console.engine.letGoOperand operand)
          return reply
      | none => return .nothing
  | .bind name value => do
      let operand ← inScope fun names => value.eval console.engine names
      bindName console name operand
      describe console operand
  | .repeated count command => repeatRun count (runCommand command)
  | .setCell name position value => lendValue console value fun operand => do
      let position ← position
      changeName name (console.engine.setCell · position operand)
  | .setWhere name mask value =>
      lendRasterValue console mask fun mask => lendValue console value fun operand =>
        changeName name (console.engine.setWhere · mask operand)
  | .rebind name node => changeName name (console.engine.rebind · node)
  | .drop names => do
      dropNames console names
      return .nothing
  | .same left right =>
      lendRasterValue console left fun a => lendRasterValue console right fun b =>
        return .flag (a.sameNode b)
  | .typeOf value => lendValue console value fun operand => do
      return .text (Coded.label (← onEngine (console.engine.operandType operand)))
  | .isNode value => lendValue console value fun operand => return .flag operand.isNode
  | .debug value => lendValue console value fun operand => return .text (debugText console operand)
  | .ask value question => lendRasterValue console value fun raster =>
      onEngine (raster.ask (answer console question))
  | .describe value => lendRasterValue console value fun raster =>
      onEngine (allAbout console raster)
  | .grid value => lendRasterValue console value fun raster => do
      return .grid (← onEngine (console.grid raster.address))
  | .value value => lendRasterValue console value fun raster => do
      return .scalar (← onEngine (raster.ask console.engine.value))
  | .evaluate values => do
      inScope fun names => lendAll console names values fun rasters =>
        Loop.onEngine (console.engine.evaluateAll rasters)
      return .nothing
  | .write value resource => lendRasterValue console value fun raster => do
      onEngine (console.engine.writeTo raster resource)
      return .nothing
  | .setupDevices platform mask device => do
      let mask ← mask
      onEngine (console.engine.setupDevices platform mask device)
      onEngine (console.backstage .devices)
  | .setRanks count => do
      match count with
      | some count => onEngine (console.engine.setRanks count)
      | none => pure ()
      onEngine (console.backstage .ranks)
  | .bound => return .list [.text console.engine.name, .int 3]
  | .vars => varsReply console
  | .contains name => do return .flag ((← get).scope.vars.contains name)
  | .loop condition form body bind => runLoopCommand console condition form body bind
  | .isLowering => do return .flag (← get).scope.lowering
  | .lowerStart guard => lendRasterValue console guard fun guard => do
      inScope fun _ => Loop.Lowering.start console.engine guard
      modify fun workspace => { workspace with lowering := true }
      return .nothing
  | .lowerAgain condition => lendRasterValue console condition fun condition => do
      needLowering
      inScope fun _ => Loop.Lowering.again console.engine condition
      return .nothing
  | .lowerAssemble bind => do
      needLowering
      let loop ← inScope fun _ => Loop.Lowering.assemble console.engine
      bindName console bind (.node loop)
      describeRaster console loop
  | .lowerCarried loop => lendRasterValue console loop fun loop => do
      needLowering
      let carried ← inScope fun _ => Loop.Lowering.carried console.engine loop
      keepCarried console carried
      let pairs := carried.before.map fun before =>
        .ints [before, ((carried.afterFor before).map Raster.address).getD Address.null]
      return .record [("empty", .flag carried.isEmpty), ("len", .int carried.size),
        ("pairs", .list pairs)]
  | .followCarried names form => followNames console names form
  | .dropCarried => do
      dropCarried console
      return .nothing
  | .lowerFinish => closeLowering (Loop.Lowering.finish console.engine)
  | .lowerAbandon => closeLowering (modify (Loop.Lowering.abandon console.engine))
  | .inline loop names => runInline console loop names
  | .sum limit =>
      let (total, next) := sumBelow limit.toNat (0, 0)
      return .list [.flag false, .int total.toInt, .int next.toInt]
  | .engine call nodes => do
      let nodes ← nodes.mapM fun node => do return ← resolve (← get).names node
      onEngine (runCall console call nodes)
  | .backstage .fresh => do
      clear console
      onEngine (console.backstage .fresh)
  | .backstage command => onEngine (console.backstage command)
where
  repeatRun : Nat → Step σ Reply → Step σ Reply
    | 0, _ => return .nothing
    | 1, step => step
    | count + 2, step => do
        let _ ← step
        repeatRun (count + 1) step

end MapAlgebra.Script
