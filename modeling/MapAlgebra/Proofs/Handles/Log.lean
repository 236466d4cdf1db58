import MapAlgebra.Proofs.Handles.Commands
import MapAlgebra.Script.Consoles

namespace MapAlgebra

-- What an engine is told about handles.
inductive HandleCall where
  | acquire (node : Address)
  | release (node : Address)
deriving DecidableEq, Repr

abbrev HandleLog := List HandleCall

-- Runs a computation beside a log that it does not know of.
def Run.logged {σ α : Type} (run : Run σ α) : Run (σ × HandleLog) α := fun state =>
  let (result, after) := run state.1
  (result, after, state.2)

-- The same engine, which writes down what it is told about handles.
def Engine.logged {σ : Type} (engine : Engine σ) : Engine (σ × HandleLog) where
  name := engine.name
  setupDevices platform mask device := Run.logged (engine.setupDevices platform mask device)
  setRanks ranks := Run.logged (engine.setRanks ranks)
  acquire node state := (engine.acquire node state.1, state.2 ++ [.acquire node])
  release node state := (engine.release node state.1, state.2 ++ [.release node])
  construct request := Run.logged (engine.construct request)
  loopStart := Run.logged engine.loopStart
  loopCondition node := Run.logged (engine.loopCondition node)
  loopReplay replay := Run.logged (engine.loopReplay replay)
  loopAssemble := Run.logged engine.loopAssemble
  loopEnd := Run.logged engine.loopEnd
  loopPairs loop := Run.logged (engine.loopPairs loop)
  write node resource := Run.logged (engine.write node resource)
  evaluate nodes := Run.logged (engine.evaluate nodes)
  value node := Run.logged (engine.value node)
  nodeId node := Run.logged (engine.nodeId node)
  nodeName node := Run.logged (engine.nodeName node)
  stream node := Run.logged (engine.stream node)
  dataType node := Run.logged (engine.dataType node)
  dimension node := Run.logged (engine.dimension node)
  memOrder node := Run.logged (engine.memOrder node)
  size node := Run.logged (engine.size node)
  block node := Run.logged (engine.block node)
  group node := Run.logged (engine.group node)

namespace HandleLog

-- How often each node was acquired more than it was released.
def net (log : HandleLog) : Tally := fun node =>
  (log.count (.acquire node) : Int) - log.count (.release node)

-- How often the log has the null node.
def nulls (log : HandleLog) : Int :=
  log.count (.acquire Address.null) + log.count (.release Address.null)

-- Nodes were acquired as often as they were released and have handles, the null node never.
structure Balances (log : HandleLog) (handles : List Address) : Prop where
  counts : ∀ node,
    log.count (.acquire node) = log.count (.release node) + handles.count node
  acquires_proper : HandleCall.acquire Address.null ∉ log
  releases_proper : HandleCall.release Address.null ∉ log

-- The tally of a log, with or without the entries about the null node added to each count. It
-- makes no difference only if there are none.
def tally (counted : Bool) (log : HandleLog) : Tally :=
  net log + fun _ => if counted then nulls log else 0

theorem balances_iff {log : HandleLog} {handles : List Address} :
    log.Balances handles ↔ ∀ counted, tally counted log = fun node => (handles.count node : Int) := by
  constructor
  · intro h counted
    have hnulls : nulls log = 0 := by
      rw [nulls, List.count_eq_zero.mpr h.acquires_proper, List.count_eq_zero.mpr h.releases_proper]
      rfl
    funext node
    have hnode := h.counts node
    show net log node + (if counted then nulls log else 0) = _
    rw [hnulls, ite_self, net]
    omega
  · intro h
    have hnet : ∀ node, net log node = handles.count node := fun node => by
      have hnode : net log node + 0 = handles.count node := congrFun (h false) node
      rwa [add_zero] at hnode
    have hnulls : nulls log = 0 := by
      have hnull : net log Address.null + nulls log = handles.count Address.null :=
        congrFun (h true) Address.null
      rw [hnet] at hnull
      omega
    unfold nulls at hnulls
    refine ⟨fun node => ?_, List.count_eq_zero.mp (by omega), List.count_eq_zero.mp (by omega)⟩
    have hnode := hnet node
    unfold net at hnode
    omega

theorem net_acquire (log : HandleLog) (node : Address) :
    net (log ++ [.acquire node]) = net log + Tally.one node := by
  funext other
  have hacquired : ((log ++ [HandleCall.acquire node]).count (.acquire other) : Int) =
      log.count (.acquire other) + Tally.one node other := by
    rw [List.count_append, List.count_singleton, Tally.one]
    by_cases hsame : other = node
    · simp [hsame]
    · simp [hsame, Ne.symm hsame]
  have hreleased : (log ++ [HandleCall.acquire node]).count (.release other) =
      log.count (.release other) := by
    simp [List.count_append]
  show _ - _ = net log other + Tally.one node other
  rw [hacquired, hreleased, net]
  omega

theorem net_release (log : HandleLog) (node : Address) :
    net (log ++ [.release node]) = net log - Tally.one node := by
  funext other
  have hreleased : ((log ++ [HandleCall.release node]).count (.release other) : Int) =
      log.count (.release other) + Tally.one node other := by
    rw [List.count_append, List.count_singleton, Tally.one]
    by_cases hsame : other = node
    · simp [hsame]
    · simp [hsame, Ne.symm hsame]
  have hacquired : (log ++ [HandleCall.release node]).count (.acquire other) =
      log.count (.acquire other) := by
    simp [List.count_append]
  show _ - _ = net log other - Tally.one node other
  rw [hacquired, hreleased, net]
  omega

theorem tally_acquire (counted : Bool) (log : HandleLog) {node : Address}
    (hnode : node ≠ Address.null) :
    tally counted (log ++ [.acquire node]) = tally counted log + Tally.one node := by
  have hnulls : nulls (log ++ [.acquire node]) = nulls log := by simp [nulls, hnode]
  rw [tally, hnulls, net_acquire, tally]
  abel

theorem tally_release (counted : Bool) (log : HandleLog) {node : Address}
    (hnode : node ≠ Address.null) :
    tally counted (log ++ [.release node]) = tally counted log - Tally.one node := by
  have hnulls : nulls (log ++ [.release node]) = nulls log := by simp [nulls, hnode]
  rw [tally, hnulls, net_release, tally]
  abel

end HandleLog

-- A log that balances with the handles that there are and some others.
def HandleLog.Tallies {σ : Type} (counted : Bool) (others : Tally) :
    Bool → σ × HandleLog → Tally → Prop :=
  fun _ state handles => state.2.tally counted = handles + others

theorem steady_logged {σ α : Type} (run : Run σ α) (counted : Bool) (others : Tally)
    (lowering : Bool) : Steady (HandleLog.Tallies counted others lowering) run.logged :=
  fun _ _ hstate => hstate

theorem abides_logged {σ : Type} (engine : Engine σ) (counted : Bool) (others : Tally) :
    Abides engine.logged (HandleLog.Tallies counted others) where
  acquire := by
    intro lowering node state handles hnode (hstate : _ = _)
    show (state.2 ++ [HandleCall.acquire node]).tally counted = _
    rw [HandleLog.tally_acquire counted state.2 hnode, hstate]
    abel
  release := by
    intro lowering node state handles hnode (hstate : _ = _)
    show (state.2 ++ [HandleCall.release node]).tally counted = _
    rw [HandleLog.tally_release counted state.2 hnode, hstate]
    abel
  loopStart hstate := hstate
  loopEnd hstate := hstate
  setupDevices _ _ _ := steady_logged _ _ _ _
  setRanks _ := steady_logged _ _ _ _
  construct _ := steady_logged _ _ _ _
  loopCondition _ := steady_logged _ _ _ _
  loopReplay _ := steady_logged _ _ _ _
  loopAssemble := steady_logged _ _ _ _
  loopPairs _ := steady_logged _ _ _ _
  write _ _ := steady_logged _ _ _ _
  evaluate _ := steady_logged _ _ _ _
  value _ := steady_logged _ _ _ _
  nodeId _ := steady_logged _ _ _ _
  nodeName _ := steady_logged _ _ _ _
  stream _ := steady_logged _ _ _ _
  dataType _ := steady_logged _ _ _ _
  dimension _ := steady_logged _ _ _ _
  memOrder _ := steady_logged _ _ _ _
  size _ := steady_logged _ _ _ _
  block _ := steady_logged _ _ _ _
  group _ := steady_logged _ _ _ _

namespace Script

-- The same console with an engine that writes down what it is told about handles.
def Console.logged {σ : Type} (console : Console σ) : Console (σ × HandleLog) where
  engine := console.engine.logged
  talks := console.talks
  refCount node state := console.refCount node state.1
  grid node := Run.logged (console.grid node)
  backstage command := Run.logged (console.backstage command)

-- Commands that leave it to handles to acquire and release nodes.
def EngineCall.isClient : EngineCall → Bool
  | .acquire | .release => false
  | _ => true

def Command.isClient : Command → Bool
  | .repeated _ command => command.isClient
  | .engine call _ => call.isClient
  | _ => true

-- The node of a handle, if it has one.
def operandHandles : Operand → List Address
  | .node raster => raster.node.toList
  | .host _ => []

-- The nodes of the handles that a session holds, once for each handle.
def Workspace.handles {σ : Type} (workspace : Workspace σ) : List Address :=
  (workspace.names.operands ++ workspace.scope.vars.slots.operands).flatMap operandHandles ++
    (workspace.carried.map fun carried => carried.pairs.flatMap (·.2.node.toList)).getD []

theorem raster_held_apply (raster : Raster) (node : Address) :
    raster.held node = raster.node.toList.count node := by
  unfold Raster.held
  cases raster.node with
  | none => rfl
  | some other =>
      show Tally.one other node = (([other] : List Address).count node : Int)
      rw [Tally.one, List.count_singleton]
      by_cases hsame : node = other
      · simp [hsame]
      · simp [hsame, Ne.symm hsame]

theorem operand_held_apply (operand : Operand) (node : Address) :
    operand.held node = (operandHandles operand).count node := by
  cases operand with
  | node raster => exact raster_held_apply raster node
  | host value => rfl

theorem heldByAll_apply (operands : List Operand) (node : Address) :
    heldByAll operands node = (operands.flatMap operandHandles).count node := by
  induction operands with
  | nil => rfl
  | cons operand operands ih =>
      show operand.held node + heldByAll operands node = _
      rw [operand_held_apply, ih, List.flatMap_cons, List.count_append, Nat.cast_add]

theorem carried_held_apply (carried : Loop.Carried) (node : Address) :
    carried.held node = (carried.pairs.flatMap (·.2.node.toList)).count node := by
  unfold Loop.Carried.held
  induction carried.pairs with
  | nil => rfl
  | cons pair pairs ih =>
      rw [List.map_cons, List.sum_cons, List.flatMap_cons, List.count_append, Nat.cast_add, ← ih,
        ← raster_held_apply]
      rfl

theorem Workspace.held_apply {σ : Type} (workspace : Workspace σ) (node : Address) :
    workspace.held node = workspace.handles.count node := by
  have hcarried : heldIfAny Loop.Carried.held workspace.carried node =
      ((workspace.carried.map fun carried =>
        carried.pairs.flatMap (·.2.node.toList)).getD []).count node := by
    cases workspace.carried with
    | none => rfl
    | some carried => exact carried_held_apply carried node
  show heldByAll workspace.names.operands node + heldByAll workspace.scope.vars.slots.operands node
    + heldIfAny Loop.Carried.held workspace.carried node = _
  rw [hcarried, heldByAll_apply, heldByAll_apply, Workspace.handles, List.flatMap_append,
    List.count_append, List.count_append]
  push_cast
  rfl

variable {σ : Type}

theorem accords_logged (console : Console σ) (counted : Bool) (others : Tally) :
    Accords console.logged (HandleLog.Tallies counted others) where
  engine := abides_logged console.engine counted others
  grid _ := steady_logged _ _ _ _
  backstage _ := steady_logged _ _ _ _

theorem Command.spares_logged (console : Console σ) (counted : Bool) (others : Tally)
    {command : Command} {call : EngineCall} (hclient : command.isClient)
    (hcall : command.call? = some call) :
    call.Spares console.logged.engine (HandleLog.Tallies counted others) := by
  induction command with
  | repeated count command ih => exact ih hclient hcall
  | engine found nodes =>
      obtain rfl : found = call := Option.some.inj hcall
      cases found with
      | acquire => cases hclient
      | release => cases hclient
      | loopStart => exact fun {lowering} => steady_logged _ _ _ lowering
      | loopEnd => exact fun {lowering} => steady_logged _ _ _ lowering
      | _ => trivial
  | _ => cases hcall

-- After any number of commands the log of a session balances with what the session holds.
theorem afterCommands_tallies (console : Console σ) (counted : Bool) {commands : List Command}
    (hclient : ∀ command ∈ commands, command.isClient) (state : σ) :
    let workspace := afterCommands console.logged commands (.start (state, []))
    workspace.scope.engine.2.tally counted = workspace.held := by
  intro workspace
  have hempty : Workspace.order (.free (HandleLog.Tallies counted 0))
      (.start (state, []) : Workspace (σ × HandleLog)) 0 := by
    refine ⟨rfl, funext fun node => ?_⟩
    cases counted <;> rfl
  have hafter := (accords_logged console counted 0).afterCommands
    (fun command hcommand _ => command.spares_logged console counted 0 (hclient command hcommand))
    hempty
  have htally : workspace.scope.engine.2.tally counted = workspace.held + 0 + 0 := hafter.2
  rwa [add_zero, add_zero] at htally

-- A statement changes the log by as much as it changes the variables and takes out of them.
theorem statement_tallies (console : Console σ) (counted : Bool) (names : Names)
    (statement : Statement) (scope : Loop.Scope (σ × HandleLog) Loop.Vars) :
    let ran := statement.run console.engine.logged names scope
    ran.2.engine.2.tally counted - ran.2.vars.held =
      scope.engine.2.tally counted - scope.vars.held +
        Tally.yielded (heldIfAny Operand.held) ran.1 := by
  intro ran
  obtain ⟨others, hbefore⟩ : ∃ others : Tally,
      scope.engine.2.tally counted = scope.vars.held + (0 + names.held) + others :=
    ⟨scope.engine.2.tally counted - scope.vars.held - names.held, by abel⟩
  have hafter : ran.2.engine.2.tally counted = ran.2.vars.held +
      (Tally.yielded (heldIfAny Operand.held) ran.1 + names.held) + others :=
    (statement_abides (abides_logged console.engine counted others) le_rfl statement hbefore).2
  rw [hafter, hbefore]
  abel

-- What a step of a loop takes out of the loop variables.
def takenHandles : Except MapError (Option Operand) → List Address
  | .ok (some operand) => operandHandles operand
  | _ => []

theorem taken_apply (result : Except MapError (Option Operand)) (node : Address) :
    Tally.yielded (heldIfAny Operand.held) result node = (takenHandles result).count node := by
  cases result with
  | error problem => rfl
  | ok taken =>
      cases taken with
      | none => rfl
      | some operand => exact operand_held_apply operand node

-- After every command, the log of any engine balances with the handles of the session. Within a
-- loop it does so after every statement, beside whatever other handles there are.
theorem log_balances (console : Console σ) :
    (∀ (state : σ) (commands : List Command), (∀ command ∈ commands, command.isClient) →
      let workspace := afterCommands console.logged commands (.start (state, []))
      workspace.scope.engine.2.Balances workspace.handles) ∧
    ∀ (names : Names) (statement : Statement) (scope : Loop.Scope (σ × HandleLog) Loop.Vars)
      (others : List Address),
      scope.engine.2.Balances (scope.vars.slots.operands.flatMap operandHandles ++ others) →
      let ran := statement.run console.engine.logged names scope
      ran.2.engine.2.Balances
        (ran.2.vars.slots.operands.flatMap operandHandles ++ takenHandles ran.1 ++ others) := by
  refine ⟨fun state commands hclient => ?_, fun names statement scope others hbefore => ?_⟩
  · refine HandleLog.balances_iff.mpr fun counted => ?_
    exact (afterCommands_tallies console counted hclient state).trans
      (funext fun node => Workspace.held_apply _ node)
  · refine HandleLog.balances_iff.mpr fun counted => ?_
    have hstart := HandleLog.balances_iff.mp hbefore counted
    have hstep := statement_tallies console counted names statement scope
    rcases hrun : statement.run console.engine.logged names scope with ⟨result, after⟩
    rw [hrun] at hstep
    have hafter : after.engine.2.tally counted - heldByAll after.vars.slots.operands =
        scope.engine.2.tally counted - heldByAll scope.vars.slots.operands +
          Tally.yielded (heldIfAny Operand.held) result := hstep
    funext node
    rw [sub_eq_iff_eq_add.mp hafter, hstart]
    show ((_ ++ others).count node : Int) - heldByAll scope.vars.slots.operands node +
      Tally.yielded (heldIfAny Operand.held) result node +
        heldByAll after.vars.slots.operands node = ((_ ++ _ ++ others).count node : Int)
    rw [taken_apply, heldByAll_apply, heldByAll_apply, List.count_append, List.count_append,
      List.count_append]
    push_cast
    omega

-- A loop that counts up, whose node is dropped. Of fourteen nodes only the one that the variable
-- has after the loop keeps a handle.
theorem log_balances_after_loop :
    let one := Expr.call (.constant (.ok (.s32 1)) (.ok (.single .s32))) []
    let workspace := afterCommands graphConsole.logged
      [.statement (.declare "x" one),
        .loop (.call (.compare .lt) [.loopVariable "x", .literal (.int 3)]) .operand
          [.set "x" (.call (.binary (.ok .add)) [.loopVariable "x", .literal (.int 1)])]
          (some "loop"),
        .drop ["loop"]]
      (.start (.empty 5 none, []))
    let ran := (Statement.declare "y" one).run graphConsole.engine.logged .empty
      ⟨(.empty 5 none, []), false, .empty⟩
    workspace.handles = [14] ∧ workspace.scope.engine.2.Balances workspace.handles ∧
      ran.2.engine.2.Balances
        (ran.2.vars.slots.operands.flatMap operandHandles ++ takenHandles ran.1 ++ []) := by
  intro one workspace ran
  refine ⟨by decide +kernel, (log_balances graphConsole).1 _ _ (by decide), ?_⟩
  exact (log_balances graphConsole).2 .empty (.declare "y" one)
    ⟨(.empty 5 none, []), false, .empty⟩ []
    ⟨fun _ => rfl, List.not_mem_nil, List.not_mem_nil⟩

end Script

end MapAlgebra
