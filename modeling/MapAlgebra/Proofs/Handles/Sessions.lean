import MapAlgebra.Proofs.Bindings
import MapAlgebra.Proofs.Handles.Inline
import MapAlgebra.Proofs.Handles.Scripts
import MapAlgebra.Script.Session

namespace MapAlgebra.Script

open Loop (Act Carried Scope Vars)

namespace Workspace

variable {σ : Type}

-- What a session holds: its variables, the loop variables, and the carried nodes.
def held (workspace : Workspace σ) : Tally :=
  workspace.names.held + workspace.scope.vars.held + heldIfAny Carried.held workspace.carried

-- The handles of a session are there beside all others. A loop that is being lowered is one that
-- was opened by hand.
def order (custody : Custody σ) (workspace : Workspace σ) (handles : Tally) : Prop :=
  workspace.lowering = workspace.scope.lowering ∧
    custody.order workspace.scope.lowering workspace.scope.engine (workspace.held + handles)

end Workspace

-- An engine that honors custody also when it is looked at from outside.
structure Oversees {σ : Type} (console : Console σ) (custody : Custody σ) : Prop where
  engine : Honors console.engine custody
  grid : ∀ {lowering frame} node, Still (custody.order lowering) frame (console.grid node)
  backstage : ∀ {lowering frame command}, command ≠ .fresh →
    Still (custody.order lowering) frame (console.backstage command)

variable {σ α : Type} {console : Console σ} {custody : Custody σ} {frame cost : Tally}
  {lowering : Bool} {gain : α → Tally}

-- The handles that the loop variables are beside.
def Workspace.besides (workspace : Workspace σ) (frame : Tally) : Tally :=
  workspace.names.held + heldIfAny Carried.held workspace.carried + frame

theorem heldIfAny_nonneg {carried : Option Carried} : 0 ≤ heldIfAny Carried.held carried := by
  cases carried with
  | none => exact le_rfl
  | some carried => exact carried.held_nonneg

theorem Workspace.held_nonneg (workspace : Workspace σ) : 0 ≤ workspace.held :=
  add_nonneg (add_nonneg workspace.names.held_nonneg workspace.scope.vars.held_nonneg)
    heldIfAny_nonneg

theorem Workspace.le_besides (workspace : Workspace σ) (frame : Tally) :
    frame ≤ workspace.besides frame :=
  le_add_of_nonneg_left (add_nonneg workspace.names.held_nonneg heldIfAny_nonneg)

theorem Workspace.names_le_besides (workspace : Workspace σ) (hframe : 0 ≤ frame) :
    workspace.names.held ≤ workspace.besides frame := by
  rw [Workspace.besides, add_assoc]
  exact le_add_of_nonneg_right (add_nonneg heldIfAny_nonneg hframe)

-- All that is held, told from the loop variables.
theorem Workspace.around (workspace : Workspace σ) (vars : Vars) (part frame : Tally) :
    workspace.names.held + vars.held + heldIfAny Carried.held workspace.carried + (part + frame) =
      vars.held + (part + workspace.besides frame) := by
  rw [besides]
  abel

theorem keepsAt_inScope {act : Names → Act σ Vars α} {workspace : Workspace σ}
    (h : KeepsAt (Scope.order custody Vars.held workspace.scope.lowering) (workspace.besides frame)
      cost (act workspace.names) gain workspace.scope) :
    KeepsAt (Workspace.order custody) frame cost (inScope act) gain workspace := by
  rintro ⟨hlink, hstate⟩
  obtain ⟨hflag, hafter⟩ := h ⟨rfl, workspace.around _ cost frame ▸ hstate⟩
  refine ⟨hlink.trans hflag.symm, ?_⟩
  show custody.order (act workspace.names workspace.scope).2.lowering _
    (workspace.names.held + (act workspace.names workspace.scope).2.vars.held +
      heldIfAny Carried.held workspace.carried + _)
  rw [hflag, workspace.around]
  exact hafter

-- A computation on the loop variables runs beside all that the session holds.
theorem keeps_inScope (hframe : 0 ≤ frame) {act : Names → Act σ Vars α}
    (h : ∀ {names larger lowering}, frame ≤ larger → names.held ≤ larger →
      Keeps (Scope.order custody Vars.held lowering) larger cost (act names) gain) :
    Keeps (Workspace.order custody) frame cost (inScope act) gain :=
  fun workspace => keepsAt_inScope
    (h (workspace.le_besides frame) (workspace.names_le_besides hframe) workspace.scope)

theorem keeps_onEngine (hframe : 0 ≤ frame) {step : Run σ α}
    (h : ∀ {larger lowering}, frame ≤ larger →
      Keeps (custody.order lowering) larger cost step gain) :
    Keeps (Workspace.order custody) frame cost (onEngine step) gain :=
  keeps_inScope hframe fun hmore _ => Loop.keeps_onEngine Vars.held_nonneg fun hle =>
    h (hmore.trans hle)

theorem still_onEngine {step : Run σ α}
    (h : ∀ {larger lowering}, Still (custody.order lowering) larger step) :
    Still (Workspace.order custody) frame (onEngine step) :=
  fun workspace => keepsAt_inScope (Loop.keeps_onEngine Vars.held_nonneg (fun _ => h) workspace.scope)

theorem keeps_changeEngine {change : σ → σ}
    (h : ∀ {lowering} state handles, custody.order lowering state (cost + handles) →
      custody.order lowering (change state) handles) :
    Keeps (Workspace.order custody) frame cost (changeEngine change) fun _ => 0 :=
  fun workspace => keepsAt_inScope (Loop.keeps_changeEngine h workspace.scope)

theorem bindName_keeps (h : Oversees console custody) (name : String) (operand : Operand) :
    Keeps (Workspace.order custody) frame operand.held (bindName console name operand)
      fun _ => 0 := by
  refine .modify fun workspace hstate => ⟨hstate.1, letGoOptional_order h.engine ?_⟩
  have hsum : heldIfAny Operand.held (workspace.names.find? name) +
      ((workspace.names.bind name operand).held + workspace.scope.vars.held +
        heldIfAny Carried.held workspace.carried + frame) =
      workspace.held + (operand.held + frame) := by
    rw [Bindings.held_bind, Workspace.held]
    abel
  exact hsum ▸ hstate.2

theorem dropName_still (h : Oversees console custody) (name : String) :
    Still (Workspace.order custody) frame (dropName console name) := by
  refine .modify fun workspace hstate => ⟨hstate.1, letGoOptional_order h.engine ?_⟩
  have hsum : heldIfAny Operand.held (workspace.names.find? name) +
      ((workspace.names.erase name).held + workspace.scope.vars.held +
        heldIfAny Carried.held workspace.carried + frame) =
      workspace.held + (0 + frame) := by
    rw [Bindings.held_erase, Workspace.held]
    abel
  exact hsum ▸ hstate.2

theorem dropNames_still (h : Oversees console custody) (names : List String) :
    Still (Workspace.order custody) frame (dropNames console names) := by
  induction names with
  | nil => exact .pure rfl
  | cons name names ih => exact (dropName_still h name).bind fun _ => ih

section Answers

theorem describe_still (h : Oversees console custody) (operand : Operand) :
    Still (Workspace.order custody) frame (describe console operand) := by
  unfold describe
  cases operand with
  | host value => exact .pure rfl
  | node raster =>
      simp only
      cases raster.node with
      | none => exact .pure rfl
      | some node =>
        simp only
        split
        · have hdetails : ∀ {larger lowering},
              Still (custody.order lowering) larger (details console node) :=
            (h.engine.dataType node).bind fun _ => (h.engine.nodeName node).bind fun _ =>
              (h.engine.size node).bind fun _ => .pure rfl
          have hknown : Still (Workspace.order custody) frame (do
              pure (Reply.description (← onEngine (details console node)))) :=
            (still_onEngine hdetails).bind fun _ => .pure rfl
          exact hknown.catching_still fun problem => .pure rfl
        · exact .pure rfl

-- A description never fails, so that handles pass through it.
theorem describe_succeeds (console : Console σ) (operand : Operand) :
    Succeeds (describe console operand) := by
  unfold describe
  cases operand with
  | host value => exact .pure _
  | node raster =>
      simp only
      cases raster.node with
      | none => exact .pure _
      | some node =>
        simp only
        split
        · exact .catching fun problem => .pure _
        · exact .pure _

theorem varsReply_still (h : Oversees console custody) :
    Still (Workspace.order custody) frame (varsReply console) := by
  refine .get_bind fun workspace => ?_
  have hslot : ∀ entry : String × Operand, Still (Workspace.order custody) frame (do
      return Reply.list [.text entry.1, ← describe console entry.2]) :=
    fun entry => (describe_still h entry.2).bind fun _ => .pure rfl
  exact (Keeps.mapM_still hslot _).bind fun _ => .pure rfl

theorem varsReply_succeeds (console : Console σ) : Succeeds (varsReply console) := by
  have hslot : ∀ entry : String × Operand, Succeeds (do
      return Reply.list [.text entry.1, ← describe console entry.2] : Step σ Reply) :=
    fun entry => (describe_succeeds console entry.2).bind fun _ => .pure _
  intro workspace
  exact ((Succeeds.mapM hslot _).bind fun _ => .pure _) workspace

theorem answer_still (h : Honors console.engine custody) (question : Question) (node : Address) :
    Still (custody.order lowering) frame (answer console question node) := by
  cases question with
  | id => exact (h.nodeId node).bind fun _ => .pure rfl
  | name => exact (h.nodeName node).bind fun _ => .pure rfl
  | stream => exact (h.stream node).bind fun _ => .pure rfl
  | dtype => exact (h.dataType node).bind fun _ => .pure rfl
  | dimension => exact (h.dimension node).bind fun _ => .pure rfl
  | order => exact (h.memOrder node).bind fun _ => .pure rfl
  | size => exact (h.size node).bind fun _ => .pure rfl
  | block => exact (h.block node).bind fun _ => .pure rfl
  | group => exact (h.group node).bind fun _ => .pure rfl

theorem allAbout_still (h : Keeper console.engine custody frame) (raster : Raster) :
    Still (custody.order lowering) frame (allAbout console raster) := by
  have hask : ∀ question, Still (custody.order lowering) frame
      (raster.ask (answer console question)) :=
    fun question => Keeper.ask raster fun node => answer_still h.honors question node
  refine (hask .id).bind fun _ => (hask .name).bind fun _ => (hask .stream).bind fun _ => ?_
  refine (hask .dtype).bind fun _ => (hask .dimension).bind fun _ => ?_
  refine (hask .order).bind fun _ => (hask .size).bind fun _ => (hask .block).bind fun _ => ?_
  refine (hask .group).bind fun _ => (h.layoutOf raster).bind fun _ => ?_
  exact .get_bind fun _ => .pure rfl

end Answers

theorem keepLoop_keeps (h : Oversees console custody) (bind : Option String) (loop : Raster) :
    Keeps (Workspace.order custody) frame loop.held (keepLoop console bind loop) fun _ => 0 := by
  cases bind with
  | some name => exact bindName_keeps h name (.node loop)
  | none => exact keeps_changeEngine fun _ _ => h.engine.letGo

-- A handle stays while something is described.
theorem describe_keep (h : Oversees console custody) (operand : Operand) (kept : Tally) :
    Keeps (Workspace.order custody) frame kept (describe console operand) fun _ => kept :=
  (describe_still h operand).keep (describe_succeeds console operand)

theorem runLoopCommand_still (h : Oversees console custody) (hframe : 0 ≤ frame)
    {condition : Expr} (form : GuardForm) {body : List Statement} (bind : Option String)
    (hcondition : ∀ node ∈ condition.wrapped, custody.named node)
    (hbody : ∀ node ∈ Statement.wrappedByAll body, custody.named node) :
    Still (Workspace.order custody) frame (runLoopCommand console condition form body bind) := by
  have hloop : Keeps (Workspace.order custody) frame 0
      (inScope fun names => runLoop console.engine names condition form body)
      (heldIfAny Raster.held) :=
    keeps_inScope hframe fun hmore hnames =>
      runLoop_keeps ⟨h.engine, hframe.trans hmore⟩ hnames form hcondition hbody
  refine hloop.bind fun loop => ?_
  cases loop with
  | none => exact (varsReply_still h).bind fun _ => .pure rfl
  | some loop =>
      have hvars : Keeps (Workspace.order custody) frame loop.held (varsReply console)
          fun _ => loop.held := (varsReply_still h).keep (varsReply_succeeds console)
      refine (describe_keep h (.node loop) loop.held).bind fun _ => hvars.bind fun _ => ?_
      exact (keepLoop_keeps h bind loop).bind fun _ => .pure rfl

theorem rasterNamed_eq (name : String) (workspace : Workspace σ) :
    rasterNamed name workspace = (lookUp workspace.names name >>= Operand.toRaster, workspace) := by
  show (do (← lookUp workspace.names name).toRaster : Step σ Raster) workspace = _
  cases lookUp workspace.names name with
  | error problem => rfl
  | ok operand => cases operand <;> rfl

theorem rasterNamed_still (name : String) :
    Still (Workspace.order custody) frame (rasterNamed name : Step σ Raster) :=
  .get_bind fun _ => (Keeps.lift _).bind fun _ => .lift _

section Registers

-- Taking a variable, step by step.
theorem takeRaster_eq (name : String) (workspace : Workspace σ) :
    takeRaster name workspace =
      match lookUp workspace.names name with
      | .error problem => (.error problem, workspace)
      | .ok operand =>
          (operand.toRaster, { workspace with names := workspace.names.erase name }) := by
  show (do
    let operand ← lookUp workspace.names name
    modify fun workspace => { workspace with names := workspace.names.erase name }
    operand.toRaster : Step σ Raster) workspace = _
  cases lookUp workspace.names name with
  | error problem => rfl
  | ok operand =>
      cases operand with
      | node raster => rfl
      | host value => rfl

theorem takeRaster_keeps (name : String) :
    Keeps (Workspace.order custody) frame 0 (takeRaster name : Step σ Raster) Raster.held := by
  intro workspace hstate
  rw [takeRaster_eq]
  cases hfound : lookUp workspace.names name with
  | error problem => exact hstate
  | ok operand =>
      have hyielded : Tally.yielded Raster.held operand.toRaster = operand.held := by
        cases operand with
        | node raster => rfl
        | host value => rfl
      refine ⟨hstate.1, ?_⟩
      have hsum : (workspace.names.erase name).held + workspace.scope.vars.held +
          heldIfAny Carried.held workspace.carried + (operand.held + frame) =
            workspace.held + (0 + frame) := by
        rw [Bindings.held_erase, lookUp_eq_ok hfound, Workspace.held]
        show _ - operand.held + _ + _ + _ = _
        abel
      rw [hyielded]
      exact hsum ▸ hstate.2

theorem takeRaster_eq_ok {name : String} {workspace after : Workspace σ} {raster : Raster}
    (h : takeRaster name workspace = (.ok raster, after)) :
    workspace.names.find? name = some (.node raster) ∧
      after = { workspace with names := workspace.names.erase name } := by
  rw [takeRaster_eq] at h
  cases hfound : lookUp workspace.names name with
  | error problem =>
      rw [hfound] at h
      cases h
  | ok operand =>
      rw [hfound] at h
      obtain ⟨hraster, rfl⟩ := Prod.mk.inj h
      cases operand with
      | node found =>
          rw [lookUp_eq_ok hfound, Except.ok.inj hraster]
          exact ⟨rfl, rfl⟩
      | host value => cases hraster

theorem takeRegisters_keeps (h : Oversees console custody) (names : List String) :
    Keeps (Workspace.order custody) frame 0 (takeRegisters console names) Registers.held := by
  match names with
  | [] => exact .throw _ _
  | [x] => exact (takeRaster_keeps x).bind fun first => .pure (add_zero _)
  | x :: y :: _ =>
      refine (takeRaster_keeps x).bind fun first => ?_
      have hsecond : Keeps (Workspace.order custody) frame first.held
          (tryCatch (takeRaster y) fun problem => do
            changeEngine (console.engine.letGo first)
            throw problem) fun second => second.held + first.held :=
        (takeRaster_keeps y).catching fun problem =>
          (keeps_changeEngine fun _ _ => h.engine.letGo).bind fun _ => .throw _ _
      exact hsecond.bind fun second => .pure (add_comm _ _)

-- The variables of registers that were taken are gone.
def Vacant (names : Names) : List String → Prop
  | [] => True
  | [x] => names.find? x = none
  | x :: y :: _ => x ≠ y ∧ names.find? x = none ∧ names.find? y = none

theorem takeRegisters_vacant {names : List String} {workspace after : Workspace σ}
    {registers : Registers}
    (h : takeRegisters console names workspace = (.ok registers, after)) :
    Vacant after.names names := by
  match names with
  | [] => trivial
  | [x] =>
      rw [takeRegisters, run_bind] at h
      rcases hx : takeRaster x workspace with ⟨result, between⟩
      rw [hx] at h
      cases result with
      | error problem => cases h
      | ok first =>
          obtain ⟨-, rfl⟩ := Prod.mk.inj h
          obtain ⟨-, rfl⟩ := takeRaster_eq_ok hx
          exact (Bindings.find?_erase _ x x).trans (if_pos rfl)
  | x :: y :: _ =>
      rw [takeRegisters, run_bind] at h
      rcases hx : takeRaster x workspace with ⟨result, between⟩
      rw [hx] at h
      cases result with
      | error problem => cases h
      | ok first =>
          simp only [run_bind, run_tryCatch] at h
          rcases hy : takeRaster y between with ⟨result, last⟩
          rw [hy] at h
          cases result with
          | error problem => cases h
          | ok second =>
              obtain ⟨-, rfl⟩ := Prod.mk.inj h
              obtain ⟨-, rfl⟩ := takeRaster_eq_ok hx
              obtain ⟨hfound, rfl⟩ := takeRaster_eq_ok hy
              rw [Bindings.find?_erase] at hfound
              have hdiffers : y ≠ x := fun hsame => by
                rw [if_pos hsame] at hfound
                cases hfound
              refine ⟨hdiffers.symm, ?_, ?_⟩
              · rw [Bindings.find?_erase, Bindings.find?_erase, if_neg hdiffers.symm, if_pos rfl]
              · rw [Bindings.find?_erase, if_pos rfl]

theorem putName_order {name : String} {workspace : Workspace σ} {handles : Tally}
    (hvacant : workspace.names.find? name = none) (operand : Operand)
    (hstate : workspace.order custody (operand.held + handles)) :
    (putName name operand workspace).2.order custody handles := by
  refine ⟨hstate.1, ?_⟩
  have hsum : (workspace.names.bind name operand).held + workspace.scope.vars.held +
      heldIfAny Carried.held workspace.carried + handles =
        workspace.held + (operand.held + handles) := by
    rw [Bindings.held_bind, hvacant, Workspace.held]
    show _ - 0 + _ + _ + _ + _ = _
    abel
  exact hsum ▸ hstate.2

-- Registers go back into variables that hold nothing.
theorem putRegisters_order (h : Oversees console custody) {registers : Registers}
    {names : List String} {workspace : Workspace σ} {handles : Tally}
    (hvacant : Vacant workspace.names names)
    (hstate : workspace.order custody (registers.held + handles)) :
    (putRegisters console registers names workspace).2.order custody handles := by
  rw [Registers.held, add_assoc] at hstate
  rcases names with _ | ⟨x, _ | ⟨y, _⟩⟩
  · have hgone := keeps_changeEngine (fun _ _ => h.engine.letGo) workspace hstate
    rw [Tally.yielded_zero, zero_add] at hgone
    have hlast := keeps_changeEngine (fun _ _ => h.engine.letGo) _ hgone
    rwa [Tally.yielded_zero, zero_add] at hlast
  · have hput := putName_order hvacant (.node registers.x) hstate
    have hgone := keeps_changeEngine (fun _ _ => h.engine.letGo) _ hput
    rwa [Tally.yielded_zero, zero_add] at hgone
  · obtain ⟨hdiffers, hx, hy⟩ := hvacant
    have hput := putName_order hx (.node registers.x) hstate
    have hstill : (workspace.names.bind x (.node registers.x)).find? y = none := by
      rw [Bindings.find?_bind, if_neg hdiffers.symm, hy]
    exact putName_order hstill (.node registers.y) hput

theorem runRegisters_eq (loop : InlineLoop) (registers : Registers) (names : List String)
    (workspace : Workspace σ) :
    runRegisters console loop registers names workspace =
      let (result, inner) :=
        loop.run console.engine ⟨workspace.scope.engine, workspace.scope.lowering, registers⟩
      (result, (putRegisters console inner.vars names { workspace with scope :=
        { workspace.scope with engine := inner.engine, lowering := inner.lowering } }).2) := by
  match names with
  | [] => rfl
  | [x] => rfl
  | x :: y :: _ => rfl

theorem runRegisters_keepsAt (h : Oversees console custody) (hframe : 0 ≤ frame)
    (loop : InlineLoop) (registers : Registers) {names : List String} {workspace : Workspace σ}
    (hvacant : Vacant workspace.names names) :
    KeepsAt (Workspace.order custody) frame registers.held
      (runRegisters console loop registers names) (heldIfAny Raster.held) workspace := by
  rintro ⟨hlink, hstate⟩
  have hheld : 0 ≤ workspace.held + frame := add_nonneg workspace.held_nonneg hframe
  rw [add_left_comm, ← zero_add (workspace.held + frame)] at hstate
  have hloop := InlineLoop.run_keeps ⟨h.engine, hheld⟩ loop
    ⟨workspace.scope.engine, workspace.scope.lowering, registers⟩ ⟨rfl, hstate⟩
  rw [runRegisters_eq]
  rcases hrun : loop.run console.engine
    ⟨workspace.scope.engine, workspace.scope.lowering, registers⟩ with ⟨result, inner⟩
  rw [hrun] at hloop
  obtain ⟨hflag, hafter⟩ := hloop
  refine putRegisters_order h hvacant ⟨hlink.trans hflag.symm, ?_⟩
  have hsum : workspace.held + (inner.vars.held +
      (Tally.yielded (heldIfAny Raster.held) result + frame)) =
      inner.vars.held + (Tally.yielded (heldIfAny Raster.held) result + (workspace.held + frame)) := by
    abel
  show custody.order inner.lowering inner.engine _
  rw [hflag]
  exact hsum ▸ hafter

theorem runInline_still (h : Oversees console custody) (hframe : 0 ≤ frame) (loop : InlineLoop)
    (names : List String) :
    Still (Workspace.order custody) frame (runInline console loop names) := by
  intro start
  refine Keeps.bind_at (takeRegisters_keeps h names start) fun registers workspace htaken => ?_
  refine Keeps.bind_at (runRegisters_keepsAt h hframe loop registers (takeRegisters_vacant htaken))
    fun result after _ => ?_
  have hrest : ∀ described, Still (Workspace.order custody) frame (do
      let vars ← names.mapM fun name => do describeRaster console (← rasterNamed name)
      return Reply.record [("loop", described), ("vars", .list vars)]) := by
    intro described
    refine Keeps.bind (Keeps.mapM_still (fun name => ?_) names) fun _ => .pure rfl
    exact (rasterNamed_still name).bind fun raster => describe_still h (.node raster)
  have hnothing : Still (Workspace.order custody) frame (pure Reply.nothing) := .pure rfl
  cases result with
  | none => exact (hnothing.bind hrest) after
  | some loop =>
      have hgone : Keeps (Workspace.order custody) frame loop.held
          (changeEngine (console.engine.letGo loop)) fun _ => 0 :=
        keeps_changeEngine fun _ _ => h.engine.letGo
      refine ((describe_keep h (.node loop) loop.held).bind fun reply => hgone.bind fun _ => ?_) after
      have hdescribed : Still (Workspace.order custody) frame (pure reply) := .pure rfl
      exact hdescribed.bind hrest

end Registers

-- Changing a variable in place, step by step.
theorem changeName_eq (name : String) (change : Raster → Run σ Raster) (workspace : Workspace σ) :
    changeName name change workspace =
      match lookUp workspace.names name >>= Operand.toRaster with
      | .error problem => (.error problem, workspace)
      | .ok raster =>
          match change raster workspace.scope.engine with
          | (.error problem, engine) =>
              (.error problem, { workspace with scope := { workspace.scope with engine } })
          | (.ok moved, engine) =>
              (.ok (.int moved.address),
                { workspace with
                  names := workspace.names.bind name (.node moved)
                  scope := { workspace.scope with engine } }) := by
  rw [changeName, run_bind, rasterNamed_eq]
  cases lookUp workspace.names name >>= Operand.toRaster with
  | error problem => rfl
  | ok raster =>
      simp only [run_bind, onEngine, inScope, Loop.onEngine]
      rcases change raster workspace.scope.engine with ⟨result, state⟩
      cases result with
      | error problem => rfl
      | ok moved => rfl

theorem changeName_still {name : String} {change : Raster → Run σ Raster} (hframe : 0 ≤ frame)
    (hchange : ∀ {larger lowering} raster, frame ≤ larger → raster.held ≤ larger →
      Keeps (custody.order lowering) larger 0 (change raster)
        fun moved => moved.held - raster.held) :
    Still (Workspace.order custody) frame (changeName name change) := by
  intro workspace hstate
  rw [changeName_eq]
  cases hraster : lookUp workspace.names name >>= Operand.toRaster with
  | error problem => exact hstate
  | ok raster =>
      have hfound : workspace.names.find? name = some (.node raster) := by
        obtain ⟨operand, hoperand, htaken⟩ := bind_eq_ok.mp hraster
        rw [lookUp_eq_ok hoperand, toRaster_eq_ok htaken]
      have hheld : raster.held ≤ workspace.held := by
        rw [Workspace.held, add_assoc]
        exact le_add_of_le_of_nonneg (Bindings.held_of_find hfound)
          (add_nonneg workspace.scope.vars.held_nonneg heldIfAny_nonneg)
      obtain ⟨hlink, hstate⟩ := hstate
      have hafter := hchange raster (le_add_of_nonneg_left workspace.held_nonneg)
        (le_add_of_le_of_nonneg hheld hframe) workspace.scope.engine (by rwa [add_left_comm] at hstate)
      rcases hresult : change raster workspace.scope.engine with ⟨result, state⟩
      rw [hresult] at hafter
      simp only [hresult]
      cases result with
      | error problem =>
          refine ⟨hlink, ?_⟩
          rwa [Tally.yielded, add_left_comm] at hafter
      | ok moved =>
          refine ⟨hlink, ?_⟩
          have hsum : (workspace.names.bind name (.node moved)).held + workspace.scope.vars.held +
              heldIfAny Carried.held workspace.carried + (0 + frame) =
                moved.held - raster.held + (workspace.held + frame) := by
            rw [Bindings.held_bind, hfound, Workspace.held]
            show _ - raster.held + moved.held + _ + _ + _ = _
            abel
          exact hsum ▸ hafter

section Carrying

theorem letGoOptionalCarried_order (h : Oversees console custody) {carried : Option Carried}
    {state : σ} {handles : Tally}
    (hstate : custody.order lowering state (heldIfAny Carried.held carried + handles)) :
    custody.order lowering (letGoOptionalCarried console carried state) handles := by
  cases carried with
  | none => rwa [heldIfAny, zero_add] at hstate
  | some carried => exact h.engine.letGoCarried hstate

theorem keepCarried_keeps (h : Oversees console custody) (carried : Carried) :
    Keeps (Workspace.order custody) frame carried.held (keepCarried console carried)
      fun _ => 0 := by
  refine .modify fun workspace hstate => ⟨hstate.1, letGoOptionalCarried_order h ?_⟩
  have hsum : heldIfAny Carried.held workspace.carried + (workspace.names.held +
      workspace.scope.vars.held + carried.held + frame) =
        workspace.held + (carried.held + frame) := by
    rw [Workspace.held]
    abel
  exact hsum ▸ hstate.2

theorem dropCarried_still (h : Oversees console custody) :
    Still (Workspace.order custody) frame (dropCarried console) := by
  refine .modify fun workspace hstate => ⟨hstate.1, letGoOptionalCarried_order h ?_⟩
  have hsum : heldIfAny Carried.held workspace.carried + (workspace.names.held +
      workspace.scope.vars.held + 0 + frame) = workspace.held + (0 + frame) := by
    rw [Workspace.held]
    abel
  exact hsum ▸ hstate.2

theorem followName_eq (carried : Carried) (name : String) (workspace : Workspace σ) :
    followName console carried name workspace =
      match lookUp workspace.names name with
      | .error problem => (.error problem, workspace)
      | .ok operand =>
          let ((any, moved), engine) :=
            console.engine.followCarried carried operand workspace.scope.engine
          (.ok any,
            { workspace with
              names := workspace.names.bind name moved
              scope := { workspace.scope with engine } }) := by
  show (do
    let operand ← lookUp workspace.names name
    let scope := (← get).scope
    let ((any, operand), engine) := console.engine.followCarried carried operand scope.engine
    modify fun workspace => { workspace with scope := { scope with engine } }
    putName name operand
    return any : Step σ Bool) workspace = _
  cases lookUp workspace.names name with
  | error problem => rfl
  | ok operand => rfl

-- The node that a variable moves on to is held with the other carried nodes.
theorem followName_still (h : Oversees console custody) (hframe : 0 ≤ frame) (carried : Carried)
    (name : String) :
    Still (fun workspace handles => Workspace.order custody workspace handles ∧
      workspace.carried = some carried) frame (followName console carried name) := by
  rintro workspace ⟨hstate, hcarried⟩
  rw [followName_eq]
  cases hfound : lookUp workspace.names name with
  | error problem => exact ⟨hstate, hcarried⟩
  | ok operand =>
      have hsplit : workspace.held + (0 + frame) = operand.held + (workspace.names.held -
          operand.held + workspace.scope.vars.held + carried.held + frame) := by
        rw [Workspace.held, hcarried]
        show _ + _ + carried.held + _ = _
        abel
      have hothers : 0 ≤ workspace.names.held - operand.held + workspace.scope.vars.held :=
        add_nonneg (sub_nonneg.mpr (Bindings.held_of_find (lookUp_eq_ok hfound)))
          workspace.scope.vars.held_nonneg
      obtain ⟨hlink, hstate⟩ := hstate
      have hmoved := h.engine.followCarried
        (le_add_of_le_of_nonneg (le_add_of_nonneg_left hothers) hframe) (hsplit ▸ hstate)
      rcases hresult : console.engine.followCarried carried operand workspace.scope.engine with
        ⟨⟨any, moved⟩, state⟩
      rw [hresult] at hmoved
      simp only [hresult]
      refine ⟨⟨hlink, ?_⟩, hcarried⟩
      have hsum : (workspace.names.bind name moved).held + workspace.scope.vars.held +
          heldIfAny Carried.held workspace.carried + (0 + frame) =
            moved.held + (workspace.names.held - operand.held + workspace.scope.vars.held +
              carried.held + frame) := by
        rw [Bindings.held_bind, lookUp_eq_ok hfound, hcarried]
        show _ - operand.held + moved.held + _ + carried.held + _ = _
        abel
      exact hsum ▸ hmoved

theorem openCarried_eq (workspace : Workspace σ) : openCarried workspace =
    match workspace.carried with
    | some carried => (.ok carried, workspace)
    | none => (.error (.misuse "no carried variables"), workspace) := by
  show (match workspace.carried with
    | some carried => pure carried
    | none => throw (.misuse "no carried variables") : Step σ Carried) workspace = _
  cases workspace.carried with
  | some carried => rfl
  | none => rfl

theorem followNames_still (h : Oversees console custody) (hframe : 0 ≤ frame)
    (names : List String) (form : CarriedForm) :
    Still (Workspace.order custody) frame (followNames console names form) := by
  have hrest : ∀ any, Still (Workspace.order custody) frame (do
      let described ← names.mapM fun name => do describe console (← lookUp (← get).names name)
      return Reply.record [("any", any), ("vars", .list described)]) := by
    intro any
    refine (Keeps.mapM_still (fun name => ?_) names).bind fun described => .pure rfl
    exact .get_bind fun _ => (Keeps.lift _).bind fun operand => describe_still h operand
  intro workspace hstate
  have hopen : KeepsAt (Workspace.order custody) frame 0 openCarried (fun _ => 0) workspace := by
    intro hstate
    rw [openCarried_eq]
    cases workspace.carried with
    | some carried => exact hstate
    | none => exact hstate
  refine Keeps.bind_at hopen (fun carried after hopened => ?_) hstate
  obtain ⟨hcarried, rfl⟩ : workspace.carried = some carried ∧ workspace = after := by
    rw [openCarried_eq] at hopened
    cases hfound : workspace.carried with
    | none =>
        rw [hfound] at hopened
        cases hopened
    | some found =>
        rw [hfound] at hopened
        cases hopened
        exact ⟨rfl, rfl⟩
  -- while variables move on, the carried nodes stay the same
  have hmoved : ∀ moving : List String, KeepsAt (Workspace.order custody) frame 0
      (moving.mapM (followName console carried)) (fun _ => 0) workspace := fun moving hstate =>
    (Keeps.mapM_still (followName_still h hframe carried) moving workspace ⟨hstate, hcarried⟩).1
  exact Keeps.bind_at (hmoved _) fun moved after _ => hrest _ after

theorem needLowering_eq (workspace : Workspace σ) : needLowering workspace =
    if workspace.lowering then (.ok (), workspace)
    else (.error (.misuse "no open loop"), workspace) := by
  show (if workspace.lowering then pure () else throw (.misuse "no open loop") : Step σ Unit)
    workspace = _
  split <;> rfl

-- What needs an open loop runs only while one is being lowered.
theorem needLowering_bind {next : Step σ α}
    (h : ∀ workspace, workspace.lowering = true →
      KeepsAt (Workspace.order custody) frame 0 next gain workspace) :
    Keeps (Workspace.order custody) frame 0 (do needLowering; next) gain := by
  intro workspace
  have hneed : KeepsAt (Workspace.order custody) frame 0 needLowering (fun _ => 0) workspace := by
    intro hstate
    rw [needLowering_eq]
    split <;> exact hstate
  refine Keeps.bind_at hneed fun _ after hafter => ?_
  rw [needLowering_eq] at hafter
  split at hafter
  · rename_i hopen
    obtain ⟨-, rfl⟩ := Prod.mk.inj hafter
    exact h workspace hopen
  · cases hafter

-- A step in the loop that is being lowered.
theorem keepsAt_lowering {act : Act σ Vars α} {workspace : Workspace σ}
    (hopen : workspace.lowering = true)
    (h : ∀ {larger}, frame ≤ larger →
      Keeps (Scope.order custody Vars.held true) larger cost act gain) :
    KeepsAt (Workspace.order custody) frame cost (inScope fun _ => act) gain workspace := by
  intro hstate
  have hflag : workspace.scope.lowering = true := hstate.1.symm.trans hopen
  refine keepsAt_inScope ?_ hstate
  rw [hflag]
  exact h (workspace.le_besides frame) workspace.scope

theorem lowerStart_still (h : Honors console.engine custody) (guard : Raster) :
    Still (Workspace.order custody) frame (do
      inScope fun _ => Loop.Lowering.start console.engine guard
      modify fun workspace => { workspace with lowering := true }
      return Reply.nothing) := by
  rintro workspace ⟨hlink, hstate⟩
  have hopened := Loop.Lowering.start_opens h Vars.held_nonneg guard workspace.scope
    ⟨rfl, workspace.around _ 0 frame ▸ hstate⟩
  simp only [run_bind, inScope]
  rcases hresult : Loop.Lowering.start console.engine guard workspace.scope with ⟨result, after⟩
  rw [hresult] at hopened
  cases result with
  | ok _ =>
      obtain ⟨-, hflag, hafter⟩ := hopened
      refine ⟨hflag.symm, ?_⟩
      show custody.order after.lowering after.engine (workspace.names.held + after.vars.held +
        heldIfAny Carried.held workspace.carried + (0 + frame))
      rw [hflag, workspace.around, zero_add]
      exact hafter
  | error problem =>
      obtain ⟨hflag, hafter⟩ := hopened
      refine ⟨hlink.trans hflag.symm, ?_⟩
      show custody.order after.lowering after.engine (workspace.names.held + after.vars.held +
        heldIfAny Carried.held workspace.carried + (0 + frame))
      rw [hflag, workspace.around, zero_add]
      exact hafter

theorem closeLowering_still {act : Act σ Vars Unit}
    (hact : ∀ {scope handles}, Scope.order custody Vars.held true scope handles →
      Scope.order custody Vars.held false (act scope).2 handles) :
    Still (Workspace.order custody) frame (closeLowering act) := by
  refine needLowering_bind fun workspace hopen => ?_
  rintro ⟨hlink, hstate⟩
  rw [← hlink, hopen] at hstate
  obtain ⟨hflag, hafter⟩ :=
    hact ⟨hlink.symm.trans hopen, workspace.around _ 0 frame ▸ hstate⟩
  have hclosed : Workspace.order custody
      { workspace with lowering := false, scope := (act workspace.scope).2 } (0 + frame) := by
    refine ⟨hflag.symm, ?_⟩
    show custody.order (act workspace.scope).2.lowering _ (workspace.names.held +
      (act workspace.scope).2.vars.held + heldIfAny Carried.held workspace.carried + _)
    rw [hflag, workspace.around]
    exact hafter
  rw [Tally.yielded_zero]
  show Workspace.order custody ((do
    inScope fun _ => act
    return Reply.nothing : Step σ Reply) { workspace with lowering := false }).2 (0 + frame)
  simp only [run_bind, inScope]
  rcases hresult : act workspace.scope with ⟨result, after⟩
  rw [hresult] at hclosed
  cases result with
  | ok _ => exact hclosed
  | error problem => exact hclosed

theorem abandon_order (h : Honors console.engine custody) {scope : Scope σ Vars} {handles : Tally}
    (hscope : scope.order custody Vars.held true handles) :
    (((modify (Loop.Lowering.abandon console.engine) : Act σ Vars Unit) scope).2).order custody
      Vars.held false handles := Loop.Lowering.order_abandon h hscope

theorem heldByAll_append (first second : List Operand) :
    heldByAll (first ++ second) = heldByAll first + heldByAll second := by
  rw [heldByAll, List.map_append, List.sum_append]
  rfl

theorem clear_still (h : Oversees console custody) :
    Still (Workspace.order custody) frame (clear console) := by
  have hempty : Still (Workspace.order custody) frame (modify fun workspace =>
      { workspace with
        names := .empty
        scope := { workspace.scope with
          vars := .empty
          engine := letGoAll console.engine
            (workspace.names.operands ++ workspace.scope.vars.slots.operands)
            workspace.scope.engine } }) := by
    refine .modify fun workspace hstate => ⟨hstate.1, letGoAll_order h.engine ?_⟩
    have hsum : heldByAll (workspace.names.operands ++ workspace.scope.vars.slots.operands) +
        (0 + 0 + heldIfAny Carried.held workspace.carried + frame) =
          workspace.held + (0 + frame) := by
      rw [heldByAll_append, Workspace.held]
      show workspace.names.held + workspace.scope.vars.held + _ = _
      abel
    exact hsum ▸ hstate.2
  refine (dropCarried_still h).bind fun _ => .get_bind fun workspace => ?_
  split
  · exact (closeLowering_still fun hscope => abandon_order h.engine hscope).bind fun _ => hempty
  · exact hempty

end Carrying

section Lending

theorem lendValue_keeps (h : Oversees console custody) (hframe : 0 ≤ frame) {expr : Expr}
    (hwrapped : ∀ node ∈ expr.wrapped, custody.named node) {step : Operand → Step σ α}
    (hstep : ∀ {larger} (operand : Operand), frame ≤ larger → operand.held ≤ larger →
      Keeps (Workspace.order custody) larger 0 (step operand) gain) :
    Keeps (Workspace.order custody) frame 0 (lendValue console expr step) gain := by
  have heval : Keeps (Workspace.order custody) frame 0
      (inScope fun names => expr.eval console.engine names) Operand.held :=
    keeps_inScope hframe fun hmore hnames =>
      expr.eval_keeps ⟨h.engine, hframe.trans hmore⟩ hnames hwrapped
  refine heval.bind fun operand workspace hstate => ?_
  have hafter := (hstep operand (Keeper.le_besideOperand operand frame)
    (le_add_of_nonneg_right hframe) workspace).lend hstate
  have hgone := keeps_changeEngine (fun _ _ => h.engine.letGoOperand) _ hafter
  rwa [Tally.yielded_zero, zero_add] at hgone

theorem lendRasterValue_keeps (h : Oversees console custody) (hframe : 0 ≤ frame) {expr : Expr}
    (hwrapped : ∀ node ∈ expr.wrapped, custody.named node) {step : Raster → Step σ α}
    (hstep : ∀ {larger} (raster : Raster), frame ≤ larger → raster.held ≤ larger →
      Keeps (Workspace.order custody) larger 0 (step raster) gain) :
    Keeps (Workspace.order custody) frame 0 (lendRasterValue console expr step) gain :=
  lendValue_keeps h hframe hwrapped fun _ hmore hheld => Keeps.lift_bind fun raster hraster =>
    hstep raster hmore (held_of_toRaster hraster ▸ hheld)

theorem lendAll_keeps {names : Names} {exprs : List Expr} (h : Keeper console.engine custody frame)
    (hnames : names.held ≤ frame) (hwrapped : ∀ node ∈ Expr.wrappedByAll exprs, custody.named node)
    {step : List Raster → Act σ Vars α}
    (hstep : ∀ {larger} rasters, frame ≤ larger →
      Keeps (Scope.order custody Vars.held lowering) larger 0 (step rasters) gain) :
    Keeps (Scope.order custody Vars.held lowering) frame 0 (lendAll console names exprs step)
      gain := by
  induction exprs generalizing frame step with
  | nil => exact hstep [] le_rfl
  | cons expr exprs ih =>
      have hall := List.forall_mem_append.mp hwrapped
      exact Expr.lendRaster_keeps h hnames hall.1 fun raster hmore _ =>
        ih (h.more hmore) (hnames.trans hmore) hall.2 fun rasters hle =>
          hstep (raster :: rasters) (hmore.trans hle)

end Lending

end MapAlgebra.Script
