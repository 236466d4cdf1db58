import MapAlgebra.Proofs.Handles.Abiding
import MapAlgebra.Proofs.Handles.Sessions

namespace MapAlgebra.Script

open Loop (Scope Vars)

variable {σ : Type} {console : Console σ} {custody : Custody σ} {frame : Tally}

-- The addresses that a command takes handles on by name.
def Command.named : Command → List Address
  | .statement step => step.wrapped
  | .repeated _ step => step.named
  | .rebind _ node => [node]
  | .bind _ expr | .setCell _ _ expr | .typeOf expr | .isNode expr | .debug expr | .ask expr _
  | .describe expr | .grid expr | .value expr | .write expr _ | .lowerStart expr
  | .lowerAgain expr | .lowerCarried expr => expr.wrapped
  | .setWhere _ first second | .same first second => first.wrapped ++ second.wrapped
  | .evaluate exprs => Expr.wrappedByAll exprs
  | .loop condition _ body _ => condition.wrapped ++ Statement.wrappedByAll body
  | _ => []

-- Whether a command has a loop put together by hand, or asks by hand for the nodes after one.
def Command.byHand : Command → Bool
  | .repeated _ command => command.byHand
  | .lowerAssemble _ | .lowerCarried _ => true
  | _ => false

-- What a command does to an engine past all handles keeps the order.
def Command.Bears (console : Console σ) (custody : Custody σ) : Command → Prop
  | .repeated _ command => command.Bears console custody
  | .engine call _ => ∀ {lowering frame} nodes,
      Still (custody.order lowering) frame (runCall console call nodes)
  | .backstage command => ∀ {lowering frame},
      Still (custody.order lowering) frame (console.backstage command)
  | _ => True

-- The call of an engine past all handles that a command makes, if it makes one.
def Command.call? : Command → Option EngineCall
  | .repeated _ step => step.call?
  | .engine call _ => some call
  | _ => none

theorem Command.bears {command : Command}
    (hcall : ∀ call, command.call? = some call → ∀ {lowering frame} nodes,
      Still (custody.order lowering) frame (runCall console call nodes))
    (hbackstage : ∀ {lowering frame} step,
      Still (custody.order lowering) frame (console.backstage step)) :
    command.Bears console custody := by
  induction command with
  | repeated count command ih => exact ih hcall
  | engine call nodes => exact hcall call rfl
  | backstage step => exact hbackstage step
  | _ => trivial

-- Calls past all handles that could upset an order, and what it takes that they do not.
def EngineCall.Spares (engine : Engine σ) (order : Bool → σ → Tally → Prop) : EngineCall → Prop
  | .acquire => ∀ {lowering node state handles}, order lowering state handles →
      order lowering (engine.acquire node state) handles
  | .release => ∀ {lowering node state handles}, order lowering state handles →
      order lowering (engine.release node state) handles
  | .loopStart => ∀ {lowering}, Steady (order lowering) engine.loopStart
  | .loopEnd => ∀ {lowering}, Steady (order lowering) engine.loopEnd
  | _ => True

theorem runCall_still {order : Bool → σ → Tally → Prop} {lowering : Bool}
    (h : Abides console.engine order)
    (hgrid : ∀ node, Still (order lowering) frame (console.grid node)) {call : EngineCall}
    (hcall : call.Spares console.engine order) (nodes : List Address) :
    Still (order lowering) frame (runCall console call nodes) := by
  cases call with
  | acquire =>
      exact (Keeps.lift _).bind fun _ => (Still.change fun _ _ => hcall).bind fun _ => .pure rfl
  | release =>
      exact (Keeps.lift _).bind fun _ => (Still.change fun _ _ => hcall).bind fun _ => .pure rfl
  | construct request =>
      exact (Keeps.lift _).bind fun request => (h.construct request).still.bind fun _ => .pure rfl
  | loopStart => exact hcall.still.bind fun _ => .pure rfl
  | loopCondition =>
      exact (Keeps.lift _).bind fun node => (h.loopCondition node).still.bind fun _ => .pure rfl
  | loopReplay next => exact (h.loopReplay next).still.bind fun _ => .pure rfl
  | loopAssemble => exact h.loopAssemble.still.bind fun _ => .pure rfl
  | loopEnd => exact hcall.still.bind fun _ => .pure rfl
  | loopPairs =>
      exact (Keeps.lift _).bind fun node => (h.loopPairs node).still.bind fun _ => .pure rfl
  | write resource =>
      exact (Keeps.lift _).bind fun node => (h.write node resource).still.bind fun _ => .pure rfl
  | evaluate => exact (h.evaluate nodes).still.bind fun _ => .pure rfl
  | value => exact (Keeps.lift _).bind fun node => (h.value node).still.bind fun _ => .pure rfl
  | grid => exact (Keeps.lift _).bind fun node => (hgrid node).bind fun _ => .pure rfl
  | ask question => exact (Keeps.lift _).bind fun node => answer_still h.honors question node

theorem repeatRun_still {step : Step σ Reply} (hstep : Still (Workspace.order custody) frame step)
    (count : Nat) : Still (Workspace.order custody) frame (runCommand.repeatRun count step) := by
  match count with
  | 0 => exact .pure rfl
  | 1 => exact hstep
  | count + 2 => exact hstep.bind fun _ => repeatRun_still hstep (count + 1)

-- After a command a session accounts for all handles, whether or not the command failed.
theorem runCommand_still (h : Oversees console custody) (hframe : 0 ≤ frame) {command : Command}
    (hnamed : ∀ node ∈ command.named, custody.named node)
    (hbyHand : command.byHand = true → custody.byHand) (hbears : command.Bears console custody) :
    Still (Workspace.order custody) frame (runCommand console command) := by
  induction command with
  | statement statement =>
      have hrun : Keeps (Workspace.order custody) frame 0
          (inScope fun names => statement.run console.engine names) (heldIfAny Operand.held) :=
        keeps_inScope hframe fun hmore hnames =>
          statement.run_keeps ⟨h.engine, hframe.trans hmore⟩ hnames hnamed
      refine hrun.bind fun taken => ?_
      cases taken with
      | none => exact .pure rfl
      | some operand =>
          refine (describe_keep h operand operand.held).bind fun reply => ?_
          exact (keeps_changeEngine fun _ _ => h.engine.letGoOperand).bind fun _ => .pure rfl
  | bind name value =>
      have heval : Keeps (Workspace.order custody) frame 0
          (inScope fun names => value.eval console.engine names) Operand.held :=
        keeps_inScope hframe fun hmore hnames =>
          value.eval_keeps ⟨h.engine, hframe.trans hmore⟩ hnames hnamed
      exact heval.bind fun operand => (bindName_keeps h name operand).bind fun _ =>
        describe_still h operand
  | repeated count command ih => exact repeatRun_still (ih hnamed hbyHand hbears) count
  | setCell name position value =>
      refine lendValue_keeps h hframe hnamed fun operand hmore hheld =>
        (Keeps.lift _).bind fun position => ?_
      exact changeName_still (hframe.trans hmore) fun raster hle hraster =>
        Keeper.setCell ⟨h.engine, (hframe.trans hmore).trans hle⟩ hraster (hheld.trans hle) position
  | setWhere name mask value =>
      have hall := List.forall_mem_append.mp hnamed
      refine lendRasterValue_keeps h hframe hall.1 fun mask hmore hmask => ?_
      refine lendValue_keeps h (hframe.trans hmore) hall.2 fun operand hnext hheld => ?_
      have hpositive := (hframe.trans hmore).trans hnext
      exact changeName_still hpositive fun raster hle hraster =>
        Keeper.setWhere ⟨h.engine, hpositive.trans hle⟩ hraster ((hmask.trans hnext).trans hle)
          (hheld.trans hle)
  | rebind name node =>
      exact changeName_still hframe fun raster _ hraster =>
        h.engine.rebind (hnamed node (List.mem_singleton_self node)) hraster
  | drop names => exact (dropNames_still h names).bind fun _ => .pure rfl
  | same left right =>
      have hall := List.forall_mem_append.mp hnamed
      exact lendRasterValue_keeps h hframe hall.1 fun a hmore _ =>
        lendRasterValue_keeps h (hframe.trans hmore) hall.2 fun b _ _ => .pure rfl
  | typeOf value =>
      refine lendValue_keeps h hframe hnamed fun operand hmore _ => ?_
      exact (keeps_onEngine (hframe.trans hmore) fun hle =>
        Keeper.operandType ⟨h.engine, (hframe.trans hmore).trans hle⟩ operand).bind fun _ =>
          .pure rfl
  | isNode value => exact lendValue_keeps h hframe hnamed fun operand _ _ => .pure rfl
  | debug value => exact lendValue_keeps h hframe hnamed fun operand _ _ => .pure rfl
  | ask value question =>
      exact lendRasterValue_keeps h hframe hnamed fun raster _ _ =>
        still_onEngine (Keeper.ask raster fun node => answer_still h.engine question node)
  | describe value =>
      exact lendRasterValue_keeps h hframe hnamed fun raster hmore _ =>
        keeps_onEngine (hframe.trans hmore) fun hle =>
          allAbout_still ⟨h.engine, (hframe.trans hmore).trans hle⟩ raster
  | grid value =>
      exact lendRasterValue_keeps h hframe hnamed fun raster _ _ =>
        (still_onEngine (h.grid raster.address)).bind fun _ => .pure rfl
  | value value =>
      exact lendRasterValue_keeps h hframe hnamed fun raster _ _ =>
        (still_onEngine (Keeper.ask raster h.engine.value)).bind fun _ => .pure rfl
  | evaluate values =>
      have hall : Still (Workspace.order custody) frame (inScope fun names =>
          lendAll console names values fun rasters =>
            Loop.onEngine (console.engine.evaluateAll rasters)) :=
        keeps_inScope hframe fun hmore hnames =>
          lendAll_keeps ⟨h.engine, hframe.trans hmore⟩ hnames hnamed fun rasters hle =>
            Loop.keeps_onEngine Vars.held_nonneg fun hlast =>
              Keeper.evaluateAll ⟨h.engine, ((hframe.trans hmore).trans hle).trans hlast⟩ rasters
      exact hall.bind fun _ => .pure rfl
  | write value resource =>
      refine lendRasterValue_keeps h hframe hnamed fun raster hmore _ => ?_
      exact (keeps_onEngine (hframe.trans hmore) fun hle =>
        Keeper.writeTo ⟨h.engine, (hframe.trans hmore).trans hle⟩ raster resource).bind fun _ =>
          .pure rfl
  | setupDevices platform mask device =>
      refine (Keeps.lift _).bind fun mask => ?_
      exact (still_onEngine (h.engine.setupDevices platform mask device)).bind fun _ =>
        still_onEngine (h.backstage nofun)
  | setRanks count =>
      cases count with
      | none => exact still_onEngine (h.backstage nofun)
      | some count =>
          exact (still_onEngine (h.engine.setRanks count)).bind fun _ =>
            still_onEngine (h.backstage nofun)
  | bound => exact .pure rfl
  | vars => exact varsReply_still h
  | contains name => exact .get_bind fun _ => .pure rfl
  | loop condition form body bind =>
      have hall := List.forall_mem_append.mp hnamed
      exact runLoopCommand_still h hframe form bind hall.1 hall.2
  | isLowering => exact .get_bind fun _ => .pure rfl
  | lowerStart guard =>
      exact lendRasterValue_keeps h hframe hnamed fun guard _ _ => lowerStart_still h.engine guard
  | lowerAgain condition =>
      refine lendRasterValue_keeps h hframe hnamed fun condition _ _ =>
        needLowering_bind fun workspace hopen => ?_
      exact Keeps.bind_at (keepsAt_lowering hopen fun _ =>
        Loop.Lowering.again_still h.engine Vars.held_nonneg condition) fun _ after _ =>
          Keeps.pure rfl after
  | lowerAssemble bind =>
      refine needLowering_bind fun workspace hopen => ?_
      refine Keeps.bind_at (keepsAt_lowering hopen fun hmore => Loop.Lowering.assemble_keeps
        ⟨h.engine, hframe.trans hmore⟩ Vars.held_nonneg (hbyHand rfl)) fun loop after _ => ?_
      exact (bindName_keeps h bind (.node loop)).bind (fun _ => describe_still h (.node loop)) after
  | lowerCarried loop =>
      refine lendRasterValue_keeps h hframe hnamed fun loop hle _ =>
        needLowering_bind fun workspace hopen => ?_
      refine Keeps.bind_at (keepsAt_lowering hopen fun hmore => Loop.Lowering.carried_keeps
        ⟨h.engine, (hframe.trans hle).trans hmore⟩ Vars.held_nonneg (hbyHand rfl) loop)
          fun carried after _ => ?_
      exact (keepCarried_keeps h carried).bind (fun _ => .pure rfl) after
  | followCarried names form => exact followNames_still h hframe names form
  | dropCarried => exact (dropCarried_still h).bind fun _ => .pure rfl
  | lowerFinish =>
      exact closeLowering_still fun hscope => Loop.Lowering.finish_order h.engine hscope
  | lowerAbandon => exact closeLowering_still fun hscope => abandon_order h.engine hscope
  | inline loop names => exact runInline_still h hframe loop names
  | sum limit => exact .pure rfl
  | engine call nodes =>
      refine Keeps.bind (Keeps.mapM_still (fun node => ?_) nodes) fun nodes =>
        still_onEngine (hbears nodes)
      exact .get_bind fun _ => .lift _
  | backstage command =>
      cases command with
      | fresh => exact (clear_still h).bind fun _ => still_onEngine hbears
      | _ => exact still_onEngine hbears

-- A session after some commands.
def afterCommands (console : Console σ) (commands : List Command) (workspace : Workspace σ) :
    Workspace σ :=
  commands.foldl (fun workspace command => (runCommand console command workspace).2) workspace

-- After any number of commands a session accounts for all handles.
theorem afterCommands_order (h : Oversees console custody) {commands : List Command}
    (hnamed : ∀ command ∈ commands, ∀ node ∈ command.named, custody.named node)
    (hbyHand : ∀ command ∈ commands, command.byHand = true → custody.byHand)
    (hbears : ∀ command ∈ commands, command.Bears console custody) {workspace : Workspace σ}
    (hstart : workspace.order custody 0) :
    (afterCommands console commands workspace).order custody 0 := by
  induction commands generalizing workspace with
  | nil => exact hstart
  | cons command commands ih =>
      rw [List.forall_mem_cons] at hnamed hbyHand hbears
      refine ih hnamed.2 hbyHand.2 hbears.2 ?_
      have hafter := runCommand_still h le_rfl hnamed.1 hbyHand.1 hbears.1 workspace
        (by rwa [add_zero])
      rwa [Tally.yielded_zero, add_zero] at hafter

-- A statement keeps an order that all calls keep, also within a loop.
theorem statement_abides {engine : Engine σ} {order : Bool → σ → Tally → Prop}
    (h : Abides engine order) {names : Names} (hframe : names.held ≤ frame)
    (statement : Statement) {scope : Scope σ Vars}
    (hscope : order scope.lowering scope.engine (scope.vars.held + (0 + frame))) :
    let ran := statement.run engine names scope
    ran.2.lowering = scope.lowering ∧ order scope.lowering ran.2.engine
      (ran.2.vars.held + (Tally.yielded (heldIfAny Operand.held) ran.1 + frame)) := by
  have hkeeper : Keeper engine (.free order) frame :=
    ⟨h.honors, names.held_nonneg.trans hframe⟩
  exact Statement.run_keeps hkeeper hframe statement (fun _ _ => trivial) scope ⟨rfl, hscope⟩

-- A console that by itself keeps an order, whichever handles there are.
structure Accords (console : Console σ) (order : Bool → σ → Tally → Prop) : Prop where
  engine : Abides console.engine order
  grid : ∀ {lowering} node, Steady (order lowering) (console.grid node)
  backstage : ∀ {lowering} command, Steady (order lowering) (console.backstage command)

namespace Accords

variable {order : Bool → σ → Tally → Prop}

theorem oversees (h : Accords console order) : Oversees console (.free order) where
  engine := h.engine.honors
  grid node := (h.grid node).still
  backstage _ := (h.backstage _).still

theorem bears (h : Accords console order) {command : Command}
    (hcall : ∀ call, command.call? = some call → call.Spares console.engine order) :
    command.Bears console (.free order) :=
  Command.bears (fun call hfound {_ _} => runCall_still h.engine (fun node => (h.grid node).still)
    (hcall call hfound)) fun step => (h.backstage step).still

theorem afterCommands (h : Accords console order) {commands : List Command}
    (hcall : ∀ command ∈ commands, ∀ call, command.call? = some call →
      call.Spares console.engine order)
    {workspace : Workspace σ} (hstart : workspace.order (.free order) 0) :
    (afterCommands console commands workspace).order (.free order) 0 :=
  afterCommands_order h.oversees (fun _ _ _ _ => trivial) (fun _ _ _ => trivial)
    (fun command hcommand => h.bears (hcall command hcommand)) hstart

end Accords

end MapAlgebra.Script
