import MapAlgebra.Proofs.Graph.Idle
import MapAlgebra.Proofs.Handles.Commands
import MapAlgebra.Proofs.Handles.Notes
import MapAlgebra.Script.Consoles

namespace MapAlgebra

-- What an engine is told about where loops begin and end.
inductive LoopCall where
  | start (succeeded : Bool)
  | finish
deriving DecidableEq, Repr

-- Logs in which loops are started and ended by turns. The flag says whether one is open. The
-- engine may refuse to start a loop, which opens none.
inductive Bracketed : Bool → List LoopCall → Prop
  | empty : Bracketed false []
  | refused {log : List LoopCall} (h : Bracketed false log) :
      Bracketed false (log ++ [.start false])
  | started {log : List LoopCall} (h : Bracketed false log) :
      Bracketed true (log ++ [.start true])
  | finished {log : List LoopCall} (h : Bracketed true log) : Bracketed false (log ++ [.finish])

-- Writes down where loops begin and end.
def loopNotes (σ : Type) : Notes σ (List LoopCall) where
  acquired _ _ log := log
  started succeeded log := log ++ [.start succeeded]
  ended log := log ++ [.finish]

theorem Bracketed.start {log : List LoopCall} (h : Bracketed false log) (succeeded : Bool) :
    Bracketed succeeded (log ++ [.start succeeded]) := by
  cases succeeded with
  | true => exact .started h
  | false => exact .refused h

-- As long as a loop is open its log is so, whatever handles there are.
def Bracketed.order {σ : Type} (lowering : Bool) (state : σ × List LoopCall) (_ : Tally) : Prop :=
  Bracketed lowering state.2

theorem Bracketed.steady {σ α : Type} (run : Run σ α) (lowering : Bool) :
    Steady (Bracketed.order lowering) run.noted := fun _ _ hstate => hstate

theorem abides_brackets {σ : Type} (engine : Engine σ) :
    Abides (engine.noting (loopNotes σ)) Bracketed.order where
  acquire _ hstate := hstate
  release _ hstate := hstate
  loopStart hstate := hstate.start _
  loopEnd hstate := hstate.finished
  construct _ := Bracketed.steady _ _
  loopCondition _ := Bracketed.steady _ _
  loopReplay _ := Bracketed.steady _ _
  loopAssemble := Bracketed.steady _ _
  loopPairs _ := Bracketed.steady _ _
  setupDevices _ _ _ := Bracketed.steady _ _
  setRanks _ := Bracketed.steady _ _
  write _ _ := Bracketed.steady _ _
  evaluate _ := Bracketed.steady _ _
  value _ := Bracketed.steady _ _
  nodeId _ := Bracketed.steady _ _
  nodeName _ := Bracketed.steady _ _
  stream _ := Bracketed.steady _ _
  dataType _ := Bracketed.steady _ _
  dimension _ := Bracketed.steady _ _
  memOrder _ := Bracketed.steady _ _
  size _ := Bracketed.steady _ _
  block _ := Bracketed.steady _ _
  group _ := Bracketed.steady _ _

namespace Graph

-- While no loop is being lowered the recorder is idle, whatever handles there are.
def idleOrder (lowering : Bool) (state : State) (_ : Tally) : Prop :=
  lowering = false → state.recorder = .idle

theorem steady_of_idle {α : Type} {run : Run State α} {lowering : Bool}
    (h : ∀ state, state.recorder = .idle → (run state).2.recorder = .idle) :
    Steady (idleOrder lowering) run := fun state _ hstate hclosed => h state (hstate hclosed)

theorem abides_idle : Abides simulator idleOrder where
  acquire _ hstate := hstate
  release _ hstate hclosed := (recorder_release _ _).trans (hstate hclosed)
  construct request := steady_of_idle fun _ h => idle_construct h request
  loopStart hstate hrefused := (congrArg State.recorder (atomically_refused hrefused)).trans (hstate rfl)
  loopEnd := fun {state _} _ _ => (State.frees_endLoop state).recorder
  loopCondition node := steady_of_idle fun _ h => idle_condition h node
  loopReplay next := steady_of_idle fun _ h => idle_replay h next
  loopAssemble := steady_of_idle fun _ h => idle_assemble h
  loopPairs _ := steady_of_idle fun _ h => h
  setupDevices _ _ _ := steady_of_idle fun _ h => h
  setRanks ranks := steady_of_idle fun _ h => by
    refine idle_atomically_ h fun next hnext => ?_
    unfold State.setRanks at hnext
    split at hnext
    · cases hnext
    · cases hnext
      exact h
  write node resource := steady_of_idle fun _ h => idle_write h node resource
  evaluate nodes := steady_of_idle fun _ h => idle_evaluate h nodes
  value _ := steady_of_idle fun _ h => h
  nodeId _ := steady_of_idle fun _ h => h
  nodeName _ := steady_of_idle fun _ h => h
  stream _ := steady_of_idle fun _ h => h
  dataType _ := steady_of_idle fun _ h => h
  dimension _ := steady_of_idle fun _ h => h
  memOrder _ := steady_of_idle fun _ h => h
  size _ := steady_of_idle fun _ h => h
  block _ := steady_of_idle fun _ h => h
  group _ := steady_of_idle fun _ h => h

end Graph

namespace Script

open Loop (Scope Vars)

-- Commands that leave it to the lowering of loops to start and to end them.
def EngineCall.leavesLoops : EngineCall → Bool
  | .loopStart | .loopEnd => false
  | _ => true

def Command.leavesLoops (command : Command) : Bool := command.call?.all EngineCall.leavesLoops

theorem Command.call_leavesLoops {command : Command} (h : command.leavesLoops) {call : EngineCall}
    (hcall : command.call? = some call) : call.leavesLoops := by
  rwa [Command.leavesLoops, hcall] at h

theorem accords_brackets {σ : Type} (console : Console σ) :
    Accords (console.noting (loopNotes σ)) Bracketed.order where
  engine := abides_brackets console.engine
  grid _ := Bracketed.steady _ _
  backstage _ := Bracketed.steady _ _

theorem spares_brackets {σ : Type} (engine : Engine σ) {call : EngineCall}
    (h : call.leavesLoops) : call.Spares (engine.noting (loopNotes σ)) Bracketed.order := by
  cases call with
  | loopStart => cases h
  | loopEnd => cases h
  | acquire => exact id
  | release => exact id
  | _ => trivial

theorem accords_idle : Accords graphConsole Graph.idleOrder where
  engine := Graph.abides_idle
  grid _ := Graph.steady_of_idle fun _ h => h
  backstage command := Graph.steady_of_idle fun state h => by
    cases command with
    | insert name grid =>
        cases grid with
        | error problem => exact h
        | ok grid => exact h
    | fresh => rfl
    | _ => exact h

theorem spares_idle {call : EngineCall} (h : call.leavesLoops) :
    call.Spares Graph.simulator Graph.idleOrder := by
  cases call with
  | loopStart => cases h
  | loopEnd => cases h
  | acquire => exact id
  | release => exact fun hstate hclosed => (Graph.recorder_release _ _).trans (hstate hclosed)
  | _ => trivial

-- Whatever fails on the way, loops are started and ended by turns, and a loop is open exactly while
-- a session is lowering one. Within a loop this holds around every statement. A loop cannot be
-- started inside another one, and the engine is not asked to. A graph in memory is idle again
-- once its loop is closed.
theorem lowering_brackets :
    (∀ {σ : Type} (console : Console σ) (state : σ) (commands : List Command),
      (∀ command ∈ commands, command.leavesLoops) →
      let workspace := afterCommands (console.noting (loopNotes σ)) commands (.start (state, []))
      Bracketed workspace.lowering workspace.scope.engine.2 ∧
        workspace.scope.lowering = workspace.lowering) ∧
    (∀ {σ : Type} (engine : Engine σ) (names : Names) (statement : Statement)
      (scope : Scope (σ × List LoopCall) Vars), Bracketed scope.lowering scope.engine.2 →
      let ran := statement.run (engine.noting (loopNotes σ)) names scope
      Bracketed ran.2.lowering ran.2.engine.2 ∧ ran.2.lowering = scope.lowering) ∧
    (∀ {σ ν : Type} (engine : Engine σ) (guard : Raster) (scope : Scope σ ν),
      scope.lowering = true →
      Loop.Lowering.start engine guard scope = (.error .nestedLowering, scope)) ∧
    (∀ (state : Graph.State) (commands : List Command), state.recorder = .idle →
      (∀ command ∈ commands, command.leavesLoops) →
      let workspace := afterCommands graphConsole commands (.start state)
      workspace.lowering = false → workspace.scope.engine.recorder = .idle) ∧
    ∀ (names : Names) (statement : Statement) (scope : Scope Graph.State Vars),
      scope.lowering = false → scope.engine.recorder = .idle →
      (statement.run Graph.simulator names scope).2.engine.recorder = .idle := by
  refine ⟨fun {σ} console state commands hleaves => ?_, fun engine names statement scope hscope => ?_,
    fun engine guard scope hopen => Loop.Lowering.start_nested guard hopen,
    fun state commands hidle hleaves => ?_, fun names statement scope hclosed hidle => ?_⟩
  · have hstart : Workspace.order (.free Bracketed.order)
        (.start (state, []) : Workspace (σ × List LoopCall)) 0 := ⟨rfl, .empty⟩
    have hafter := (accords_brackets console).afterCommands (fun command hcommand _ hcall =>
      spares_brackets _ (Command.call_leavesLoops (hleaves command hcommand) hcall)) hstart
    exact ⟨hafter.1 ▸ hafter.2, hafter.1.symm⟩
  · have hafter := statement_abides (abides_brackets engine) (le_refl names.held) statement hscope
    exact ⟨hafter.1 ▸ hafter.2, hafter.1⟩
  · have hstart : Workspace.order (.free Graph.idleOrder) (.start state) 0 :=
      ⟨rfl, fun _ => hidle⟩
    have hafter := accords_idle.afterCommands (fun command hcommand _ hcall =>
      spares_idle (Command.call_leavesLoops (hleaves command hcommand) hcall)) hstart
    exact fun hclosed => hafter.2 (hafter.1.symm.trans hclosed)
  · have hstart : Graph.idleOrder scope.lowering scope.engine (scope.vars.held + (0 + names.held)) :=
      fun _ => hidle
    exact (statement_abides Graph.abides_idle le_rfl statement hstart).2 hclosed

-- Loops that count x up to three.
def belowThree : Expr := .call (.compare .lt) [.loopVariable "x", .literal (.int 3)]

def countUp : Statement := .set "x" (.call (.binary (.ok .add)) [.loopVariable "x", .literal (.int 1)])

-- Opens a loop by hand and tries to run another one.
def nestedAttempt : List Command :=
  [.statement (.declare "x" (.call (.constant (.ok (.s32 0)) (.ok (.single .s32))) [])),
    .lowerStart belowThree, .loop belowThree .operand [countUp] none]

-- Gives that loop up, then runs one whose body fails and one that ends well.
def laterAttempts : List Command :=
  nestedAttempt ++
    [.lowerAbandon, .loop belowThree .operand [countUp, .fail "no"] none,
      .loop belowThree .operand [countUp] none]

def noted (commands : List Command) : Workspace (Graph.State × List LoopCall) :=
  afterCommands (graphConsole.noting (loopNotes Graph.State)) commands (.start (.empty 5 none, []))

-- The first loop is not disturbed, and every loop is ended once.
theorem brackets_of_attempts :
    ((noted laterAttempts).scope.engine.2 =
        [.start true, .finish, .start true, .finish, .start true, .finish] ∧
      Bracketed (noted laterAttempts).lowering (noted laterAttempts).scope.engine.2) ∧
    ((noted nestedAttempt).scope.engine.2 = [.start true] ∧
      (noted nestedAttempt).scope.lowering = true ∧
      (countUp.run (Graph.simulator.noting (loopNotes Graph.State)) .empty
        (noted nestedAttempt).scope).2.lowering = (noted nestedAttempt).scope.lowering ∧
      Loop.Lowering.start (Graph.simulator.noting (loopNotes Graph.State)) .empty
        (noted nestedAttempt).scope = (.error .nestedLowering, (noted nestedAttempt).scope)) ∧
    ((afterCommands graphConsole laterAttempts (.start (.empty 5 none))).scope.engine.recorder =
        .idle ∧
      ((Statement.loop belowThree .operand [countUp, .fail "no"]).run Graph.simulator .empty
        ⟨.empty 5 none, false, .empty⟩).2.engine.recorder = .idle) := by
  have hnested := lowering_brackets.1 graphConsole (.empty 5 none) nestedAttempt (by decide)
  have hopen : (noted nestedAttempt).scope.lowering = true := by decide +kernel
  refine ⟨⟨by decide +kernel, ?_⟩, ⟨by decide +kernel, hopen, ?_, ?_⟩, ?_, ?_⟩
  · unfold noted
    exact (lowering_brackets.1 graphConsole (.empty 5 none) laterAttempts (by decide)).1
  · exact (lowering_brackets.2.1 Graph.simulator .empty countUp (noted nestedAttempt).scope
      (hnested.2 ▸ hnested.1)).2
  · exact lowering_brackets.2.2.1 _ .empty _ hopen
  · exact lowering_brackets.2.2.2.1 (.empty 5 none) laterAttempts rfl (by decide)
      (by decide +kernel)
  · exact lowering_brackets.2.2.2.2 .empty _ _ rfl rfl

end Script

end MapAlgebra
