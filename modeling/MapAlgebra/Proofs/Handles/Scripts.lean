import MapAlgebra.Proofs.Handles.Loops
import MapAlgebra.Proofs.Outcome
import MapAlgebra.Script.Statement

namespace MapAlgebra.Script

open Loop (Act Carried Guard Scope Vars afterwards changeEngine onEngine keeps_afterwards
  keeps_changeEngine keeps_onEngine)

-- The addresses that a function takes handles on by name.
def Function.wrapped : Function → List Address
  | .wrap node => [node]
  | _ => []

mutual

def Expr.wrapped : Expr → List Address
  | .call function arguments => function.wrapped ++ Expr.wrappedByAll arguments
  | _ => []

def Expr.wrappedByAll : List Expr → List Address
  | [] => []
  | expr :: exprs => expr.wrapped ++ Expr.wrappedByAll exprs

end

mutual

def Statement.wrapped : Statement → List Address
  | .declare _ value | .set _ value | .cell _ _ value => value.wrapped
  | .setWhere _ mask value => mask.wrapped ++ value.wrapped
  | .loop condition _ body => condition.wrapped ++ Statement.wrappedByAll body
  | _ => []

def Statement.wrappedByAll : List Statement → List Address
  | [] => []
  | statement :: statements => statement.wrapped ++ Statement.wrappedByAll statements

end

variable {σ α : Type} {engine : Engine σ} {custody : Custody σ} {frame cost : Tally}
  {lowering : Bool} {gain : α → Tally}

theorem nodeOf_keeps {make : Run σ Raster}
    (hmake : Keeps (custody.order lowering) frame 0 make Raster.held) :
    Keeps (custody.order lowering) frame 0 (nodeOf make) Operand.held :=
  hmake.bind fun _ => .pure rfl

-- Operands that are held while they are borrowed.
def Lent (frame : Tally) (operands : List Operand) : Prop :=
  ∀ operand ∈ operands, operand.held ≤ frame

theorem lent_cons {operand : Operand} {rest : List (Option Operand)} (h : operand.held ≤ frame)
    (hrest : Lent frame (rest.filterMap id)) : Lent frame ((some operand :: rest).filterMap id) :=
  List.forall_mem_cons.mpr ⟨h, hrest⟩

theorem Lent.raster {raster : Raster} {operands : List Operand} (h : Lent frame operands)
    (hmember : .node raster ∈ operands) : raster.held ≤ frame := h _ hmember

theorem toRaster_eq_ok {operand : Operand} {raster : Raster}
    (h : operand.toRaster = .ok raster) : operand = .node raster := by
  cases operand with
  | node found => rw [Except.ok.inj h]
  | host value => cases h

theorem held_of_toRaster {operand : Operand} {raster : Raster}
    (h : operand.toRaster = .ok raster) : operand.held = raster.held := by
  rw [toRaster_eq_ok h]
  rfl

theorem applyOperand_keeps (h : Keeper engine custody frame) (function : Function)
    {arguments : List Operand} (hlent : Lent frame arguments) :
    Keeps (custody.order lowering) frame 0 (applyOperand engine function arguments)
      Operand.held := by
  unfold applyOperand
  split
  · exact (Keeps.lift _).bind fun op => h.unary (hlent _ (by simp)) op
  · exact (Keeps.lift _).bind fun op => h.binary (hlent _ (by simp)) (hlent _ (by simp)) op
  · exact h.power (hlent _ (by simp)) (hlent _ (by simp))
  · exact h.select (hlent _ (by simp)) (hlent _ (by simp)) (hlent _ (by simp))
  · exact (Keeps.lift _).bind fun dtype => h.castOperand (hlent _ (by simp)) dtype
  · exact (Keeps.lift _).bind fun _ => .pure rfl
  · refine Keeps.lift_bind fun raster hraster => h.copyOperand ?_
    rw [← toRaster_eq_ok hraster]
    exact hlent _ (by simp)
  · exact nodeOf_keeps (h.promote (hlent _ (by simp)))
  · exact nodeOf_keeps ((Keeps.lift _).bind fun layout => h.random (hlent _ (by simp)) layout)
  · exact nodeOf_keeps (h.combine (hlent.raster (by simp)) (hlent _ (by simp)) _)
  · exact nodeOf_keeps (h.powerOf (hlent.raster (by simp)) (hlent _ (by simp)))
  · exact nodeOf_keeps (h.powerTo (hlent.raster (by simp)) (hlent _ (by simp)))
  · exact nodeOf_keeps (h.binaryNodes (hlent.raster (by simp)) (hlent.raster (by simp)) _)
  · exact nodeOf_keeps (h.combine (hlent.raster (by simp)) (hlent _ (by simp)) _)
  · exact nodeOf_keeps (h.combineBefore (hlent _ (by simp)) (hlent.raster (by simp)) _)
  · exact .throw _ _

theorem applyRaster_keeps (h : Keeper engine custody frame) (function : Function) {r : Raster}
    (hheld : r.held ≤ frame) :
    Keeps (custody.order lowering) frame 0 (applyRaster engine function r) Raster.held := by
  unfold applyRaster
  split
  · exact h.unaryNode hheld .neg
  · exact h.invert hheld
  · exact (Keeps.lift _).bind fun dtype => h.cast hheld dtype
  · exact (Keeps.lift _).bind fun value => h.scalarNode value
  · exact (Keeps.lift _).bind fun position => h.cellAt hheld position
  · exact (Keeps.lift _).bind fun offset => h.derive hheld fun _ => rfl
  · exact h.unaryNode hheld .not
  · exact h.derive hheld fun _ => rfl
  · exact h.derive hheld fun _ => rfl
  · exact (Keeps.lift _).bind fun kernel => h.convolve hheld kernel
  · exact (Keeps.lift _).bind fun kernel => (Keeps.lift _).bind fun op => h.focal hheld kernel op
  · exact h.focalSum hheld
  · exact (Keeps.lift _).bind fun op => h.zonal hheld op
  · exact (Keeps.lift _).bind fun op => (Keeps.lift _).bind fun origin => h.radial hheld op origin
  · exact (Keeps.lift _).bind fun op => h.blockStats hheld op
  · exact (Keeps.lift _).bind fun dtype => h.zerosLike r dtype
  · exact (Keeps.lift _).bind fun dtype => h.onesLike r dtype
  · exact (Keeps.lift _).bind fun value => (Keeps.lift _).bind fun dtype =>
      h.constantLike value r dtype
  · exact (Keeps.lift _).bind fun dimension => h.index r dimension
  · exact .throw _ _

theorem applyNothing_keeps (h : Keeper engine custody frame) {function : Function}
    (hwrapped : ∀ node ∈ function.wrapped, custody.named node) :
    Keeps (custody.order lowering) frame 0 (applyNothing engine function) Raster.held := by
  unfold applyNothing
  split
  · exact (Keeps.lift _).bind fun value => (Keeps.lift _).bind fun layout => h.constant value layout
  · exact (Keeps.lift _).bind fun layout => h.zeros layout
  · exact (Keeps.lift _).bind fun layout => h.ones layout
  · exact (Keeps.lift _).bind fun layout => h.truths _ layout
  · exact h.read _
  · exact .pure rfl
  · exact h.honors.wrap (hwrapped _ (by simp [Function.wrapped])) h.nonneg
  · exact .throw _ _

theorem held_rasterIn {arguments : List (Option Operand)} (h : Keeper engine custody frame)
    (hlent : Lent frame (arguments.filterMap id)) {argument : Option Operand}
    (hmember : argument ∈ arguments) : heldIfAny Raster.held (rasterIn argument) ≤ frame := by
  match argument with
  | none => exact h.nonneg
  | some (.host value) => exact h.nonneg
  | some (.node raster) => exact hlent.raster (by simpa using hmember)

-- A function borrows its arguments and yields one new handle.
theorem apply_keeps (h : Keeper engine custody frame) {function : Function}
    (hwrapped : ∀ node ∈ function.wrapped, custody.named node)
    {arguments : List (Option Operand)} (hlent : Lent frame (arguments.filterMap id)) :
    Keeps (custody.order lowering) frame 0 (apply engine function arguments) Operand.held := by
  unfold apply
  split
  · exact nodeOf_keeps (h.mask (hlent.raster (by simp)) (hlent.raster (by simp)))
  · exact nodeOf_keeps (h.boundedNeighbor (hlent.raster (by simp)) (hlent.raster (by simp))
      (hlent.raster (by simp)))
  · exact nodeOf_keeps (h.zonalMasked (hlent.raster (by simp)) (held_rasterIn h hlent (by simp)) _)
  · exact nodeOf_keeps (h.stats (hlent.raster (by simp))
      ⟨held_rasterIn h hlent (by simp), held_rasterIn h hlent (by simp),
        held_rasterIn h hlent (by simp), held_rasterIn h hlent (by simp)⟩)
  · exact nodeOf_keeps (applyNothing_keeps h hwrapped)
  · split
    · exact nodeOf_keeps (applyRaster_keeps h _ (hlent.raster (by simp)))
    · exact applyOperand_keeps h _ hlent

theorem letGoOptional_order (h : Honors engine custody) {operand : Option Operand} {state : σ}
    {handles : Tally}
    (hstate : custody.order lowering state (heldIfAny Operand.held operand + handles)) :
    custody.order lowering (letGoOptional engine operand state) handles := by
  cases operand with
  | none => rwa [heldIfAny, zero_add] at hstate
  | some operand => exact h.letGoOperand hstate

theorem letGoAll_order (h : Honors engine custody) {operands : List Operand} {state : σ}
    {handles : Tally} (hstate : custody.order lowering state (heldByAll operands + handles)) :
    custody.order lowering (letGoAll engine operands state) handles := by
  induction operands generalizing state with
  | nil => rwa [heldByAll, List.map_nil, List.sum_nil, zero_add] at hstate
  | cons operand operands ih =>
      rw [heldByAll, List.map_cons, List.sum_cons, add_assoc] at hstate
      exact ih (h.letGoOperand hstate)

theorem fit_keeps (place : Place) (operand : Operand) {τ : Type} {order : τ → Tally → Prop} :
    Keeps order frame operand.held (liftM (fit place operand) : Run τ Operand) Operand.held := by
  unfold fit
  split
  · exact .pure rfl
  · cases operand with
    | node raster => exact .pure rfl
    | host value => exact .throw _ _

theorem withoutRest_keeps (places : List Place)
    {next : List (Option Operand) → Act σ Vars Operand}
    (hnext : ∀ count, Keeps (Scope.order custody Vars.held lowering) frame 0
      (next (List.replicate count none)) Operand.held) :
    Keeps (Scope.order custody Vars.held lowering) frame 0 (withoutRest places next)
      Operand.held := by
  induction places generalizing next with
  | nil => exact hnext 0
  | cons place places ih =>
      cases place with
      | optional => exact ih fun count => hnext (count + 1)
      | operand => exact .throw _ _
      | raster => exact .throw _ _
      | factor => exact .throw _ _

theorem get_eq_ok {vars : Vars} {name : String} {operand : Operand}
    (h : vars.get name = .ok operand) : vars.slots.find? name = some operand := by
  unfold Vars.get at h
  split at h
  · rename_i hfound
    rw [hfound, Except.ok.inj h]
  · cases h

theorem declare_held (vars : Vars) (name : String) (operand : Operand) :
    (vars.declare name operand).2.held =
      vars.held + operand.held - heldIfAny Operand.held (vars.declare name operand).1 := by
  unfold Vars.declare
  cases hfound : vars.slots.find? name with
  | some old =>
      show (vars.slots.replace name operand).held = vars.held + operand.held - old.held
      rw [Bindings.held_replace hfound, Vars.held]
      abel
  | none =>
      show (vars.slots.append name operand).held = vars.held + operand.held - 0
      rw [Bindings.held_append, hfound]
      show vars.held - 0 + operand.held = _
      abel

theorem lookUp_eq_ok {names : Names} {name : String} {operand : Operand}
    (h : lookUp names name = .ok operand) : names.find? name = some operand := by
  unfold lookUp at h
  split at h
  · rename_i hfound
    rw [hfound, Except.ok.inj h]
  · cases h

theorem raster_eq_ok {vars : Vars} {name : String} {raster : Raster}
    (h : vars.raster name = .ok raster) : vars.slots.find? name = some (.node raster) := by
  obtain ⟨operand, hoperand, hraster⟩ := bind_eq_ok.mp h
  cases operand with
  | node found => rw [get_eq_ok hoperand, Except.ok.inj hraster]
  | host value => cases hraster

-- A variable is copied while the variables hold it.
theorem copy_keepsAt (h : Keeper engine custody frame) {scope : Scope σ Vars} {operand : Operand}
    {name : String} (hfound : scope.vars.slots.find? name = some operand) :
    KeepsAt (Scope.order custody Vars.held lowering) frame 0
      (onEngine (engine.copyOperand operand)) Operand.held scope := by
  have hheld : operand.held ≤ scope.vars.held + frame :=
    le_add_of_le_of_nonneg (Bindings.held_of_find hfound) h.nonneg
  have hmore := h.more (le_add_of_nonneg_left scope.vars.held_nonneg)
  exact Loop.keepsAt_onEngine (hmore.copyOperand hheld scope.engine)

mutual

theorem Expr.eval_keeps {frame : Tally} (h : Keeper engine custody frame) {names : Names}
    (hnames : names.held ≤ frame) (expr : Expr)
    (hwrapped : ∀ node ∈ expr.wrapped, custody.named node) :
    Keeps (Scope.order custody Vars.held lowering) frame 0 (expr.eval engine names)
      Operand.held := by
  match expr with
  | .absent =>
      unfold Expr.eval
      exact .throw _ _
  | .variable name =>
      unfold Expr.eval
      refine Keeps.lift_bind fun operand hoperand => ?_
      have hheld := (Bindings.held_of_find (lookUp_eq_ok hoperand)).trans hnames
      exact keeps_onEngine Vars.held_nonneg fun hle => (h.more hle).copyOperand (hheld.trans hle)
  | .loopVariable name =>
      unfold Expr.eval
      exact .get_bind_at fun scope => Keeps.lift_bind_at fun operand hoperand =>
        copy_keepsAt h (get_eq_ok hoperand)
  | .loopRaster name =>
      unfold Expr.eval
      exact .get_bind_at fun scope => Keeps.lift_bind_at fun raster hraster =>
        copy_keepsAt h (raster_eq_ok hraster)
  | .loopHost name =>
      unfold Expr.eval
      exact .get_bind fun scope => (Keeps.lift _).bind fun value => .pure rfl
  | .host value =>
      unfold Expr.eval
      exact (Keeps.lift _).bind fun value => .pure rfl
  | .literal value =>
      unfold Expr.eval
      exact .pure rfl
  | .call function arguments =>
      unfold Expr.eval
      have hall := List.forall_mem_append.mp hwrapped
      exact Expr.evalArguments_keeps h hnames arguments hall.2 function.places
        fun operands hmore hlent => keeps_onEngine Vars.held_nonneg fun hle =>
          apply_keeps (h.more (hmore.trans hle)) hall.1 fun operand hoperand =>
            (hlent operand hoperand).trans hle

-- What follows runs while the arguments are lent.
theorem Expr.evalArguments_keeps {frame : Tally} (h : Keeper engine custody frame) {names : Names}
    (hnames : names.held ≤ frame) (arguments : List Expr)
    (hwrapped : ∀ node ∈ Expr.wrappedByAll arguments, custody.named node) (places : List Place)
    {next : List (Option Operand) → Act σ Vars Operand}
    (hnext : ∀ {larger} operands, frame ≤ larger → Lent larger (operands.filterMap id) →
      Keeps (Scope.order custody Vars.held lowering) larger 0 (next operands) Operand.held) :
    Keeps (Scope.order custody Vars.held lowering) frame 0
      (Expr.evalArguments engine names arguments places next) Operand.held := by
  match arguments, places with
  | [], places =>
      unfold Expr.evalArguments
      exact withoutRest_keeps places fun count => hnext _ le_rfl (by simp [Lent])
  | _ :: _, [] =>
      unfold Expr.evalArguments
      exact hnext [] le_rfl (by simp [Lent])
  | argument :: arguments, place :: places =>
      have hall := List.forall_mem_append.mp hwrapped
      have hargument := Expr.eval_keeps h hnames argument hall.1
      have hothers := fun (next : List (Option Operand) → Act σ Vars Operand) frame h hnames hnext =>
        @Expr.evalArguments_keeps frame h names hnames arguments hall.2 places next hnext
      unfold Expr.evalArguments
      split
      case h_1 => contradiction
      case h_2 => contradiction
      case h_3 hfirst hplaces =>
        cases hfirst
        cases hplaces
        exact hothers _ _ h hnames fun rest => hnext (none :: rest)
      case h_4 value _ _ hfirst hplaces =>
        cases hfirst
        cases hplaces
        refine hothers _ _ h hnames fun rest hmore hlent => hnext (some _ :: rest) hmore ?_
        exact lent_cons (h.nonneg.trans hmore) hlent
      case h_5 hfirst hplaces =>
        cases hfirst
        cases hplaces
        refine hargument.bind fun operand => (fit_keeps place operand).bind fun operand => ?_
        have hbeside := Keeper.le_besideOperand operand frame
        refine keeps_afterwards ?_ fun _ _ => h.honors.letGoOperand
        refine hothers _ _ (h.more hbeside) (hnames.trans hbeside) fun rest hmore hlent =>
          hnext (some operand :: rest) (hbeside.trans hmore) ?_
        exact lent_cons ((le_add_of_nonneg_right h.nonneg).trans hmore) hlent

end

theorem Expr.lend_keeps (h : Keeper engine custody frame) {names : Names}
    (hnames : names.held ≤ frame) {expr : Expr}
    (hwrapped : ∀ node ∈ expr.wrapped, custody.named node) {step : Operand → Act σ Vars α}
    (hstep : ∀ {larger} (operand : Operand), frame ≤ larger → operand.held ≤ larger →
      Keeps (Scope.order custody Vars.held lowering) larger 0 (step operand) gain) :
    Keeps (Scope.order custody Vars.held lowering) frame 0 (expr.lend engine names step) gain :=
  (expr.eval_keeps h hnames hwrapped).bind fun operand =>
    keeps_afterwards (hstep operand (Keeper.le_besideOperand operand frame)
      (le_add_of_nonneg_right h.nonneg)) fun _ _ => h.honors.letGoOperand

theorem Expr.lendRaster_keeps (h : Keeper engine custody frame) {names : Names}
    (hnames : names.held ≤ frame) {expr : Expr}
    (hwrapped : ∀ node ∈ expr.wrapped, custody.named node) {step : Raster → Act σ Vars α}
    (hstep : ∀ {larger} (raster : Raster), frame ≤ larger → raster.held ≤ larger →
      Keeps (Scope.order custody Vars.held lowering) larger 0 (step raster) gain) :
    Keeps (Scope.order custody Vars.held lowering) frame 0 (expr.lendRaster engine names step)
      gain :=
  Expr.lend_keeps h hnames hwrapped fun _ hmore hheld => Keeps.lift_bind fun raster hraster =>
    hstep raster hmore (held_of_toRaster hraster ▸ hheld)

theorem Expr.guard_keeps (h : Keeper engine custody frame) {names : Names}
    (hnames : names.held ≤ frame) (form : GuardForm) {condition : Expr}
    (hwrapped : ∀ node ∈ condition.wrapped, custody.named node) :
    Keeps (Scope.order custody Vars.held lowering) frame 0 (condition.guard engine names form)
      Guard.held := by
  refine (condition.eval_keeps h hnames hwrapped).bind fun operand => ?_
  cases form with
  | operand =>
      refine .pure ?_
      cases operand with
      | node raster => rfl
      | host value => rfl
  | raster =>
      cases operand with
      | node raster => exact .pure rfl
      | host value => exact .throw _ _
  | truth =>
      refine keeps_afterwards ?_ fun _ _ => h.honors.letGoOperand
      exact (Keeps.lift _).bind fun value => .pure rfl

theorem exchange_keeps (h : Honors engine custody) {change : Vars → Option Operand × Vars}
    (hchange : ∀ vars, (change vars).2.held =
      vars.held + cost - heldIfAny Operand.held (change vars).1) :
    Keeps (Scope.order custody Vars.held lowering) frame cost (exchange engine change)
      fun _ => 0 := by
  refine .modify fun scope hscope => ⟨hscope.1, letGoOptional_order h ?_⟩
  have hsum : heldIfAny Operand.held (change scope.vars).1 + ((change scope.vars).2.held + frame) =
      scope.vars.held + (cost + frame) := by
    rw [hchange]
    abel
  exact hsum ▸ hscope.2

theorem assign_keeps (h : Honors engine custody) (name : String) (operand : Operand) :
    Keeps (Scope.order custody Vars.held lowering) frame operand.held (assign engine name operand)
      fun _ => 0 := by
  intro scope
  have hget : (get : Act σ Vars (Scope σ Vars)) scope = (.ok scope, scope) := rfl
  intro hscope
  simp only [assign, run_bind, hget]
  cases hset : scope.vars.set name operand with
  | error problem =>
      have hgone : Keeps (Scope.order custody Vars.held lowering) frame operand.held
          (changeEngine (engine.letGoOperand operand)) fun _ => 0 :=
        keeps_changeEngine fun _ _ => h.letGoOperand
      exact (hgone.bind fun _ => .throw problem _) scope hscope
  | ok result =>
      obtain ⟨old, hold, rfl⟩ : ∃ old, scope.vars.get name = .ok old ∧
          (old, (scope.vars.replace name operand).mark name) = result := by
        simpa only [Vars.set, bind_eq_ok, pure_eq_ok] using hset
      refine ⟨hscope.1, h.letGoOperand ?_⟩
      have hslots : (scope.vars.replace name operand).held =
          scope.vars.held - old.held + operand.held :=
        Bindings.held_replace (get_eq_ok hold) operand
      have hsum : old.held + (((scope.vars.replace name operand).mark name).held + (0 + frame)) =
          scope.vars.held + (operand.held + frame) := by
        rw [Vars.held_mark, hslots]
        abel
      exact hsum ▸ hscope.2

-- How a change in place goes, step by step.
theorem changeInPlace_eq (name : String) (change : Raster → Run σ Raster)
    (scope : Scope σ Vars) :
    changeInPlace name change scope =
      match scope.vars.touch name with
      | .error problem => (.error problem, scope)
      | .ok vars =>
          match vars.raster name with
          | .error problem => (.error problem, { scope with vars })
          | .ok raster =>
              match change raster scope.engine with
              | (.error problem, engine) => (.error problem, { scope with engine, vars })
              | (.ok moved, engine) =>
                  (.ok (), { scope with engine, vars := vars.replace name (.node moved) }) := by
  show (do
    let vars ← scope.vars.touch name
    modify fun scope => { scope with vars }
    let raster ← vars.raster name
    let raster ← onEngine (change raster)
    modify fun scope => { scope with vars := scope.vars.replace name (.node raster) } :
      Act σ Vars Unit) scope = _
  cases scope.vars.touch name with
  | error problem => rfl
  | ok vars =>
      show (do
        let raster ← vars.raster name
        let raster ← onEngine (change raster)
        modify fun scope => { scope with vars := scope.vars.replace name (.node raster) } :
          Act σ Vars Unit) { scope with vars } = _
      simp only
      cases vars.raster name with
      | error problem => rfl
      | ok raster =>
          show (do
            let raster ← onEngine (change raster)
            modify fun scope => { scope with vars := scope.vars.replace name (.node raster) } :
              Act σ Vars Unit) { scope with vars } = _
          simp only [run_bind, onEngine]
          rcases change raster scope.engine with ⟨result, state⟩
          cases result <;> rfl

-- The variable holds its node until the change has succeeded.
theorem keepsAt_changeInPlace {name : String} {change : Raster → Run σ Raster}
    {scope : Scope σ Vars} (hframe : 0 ≤ frame)
    (hchange : ∀ raster, raster.held ≤ scope.vars.held + frame →
      KeepsAt (custody.order lowering) (scope.vars.held + frame) 0 (change raster)
        (fun moved => moved.held - raster.held) scope.engine) :
    KeepsAt (Scope.order custody Vars.held lowering) frame 0 (changeInPlace name change)
      (fun _ => 0) scope := by
  intro hscope
  rw [changeInPlace_eq]
  cases htouch : scope.vars.touch name with
  | error problem => exact hscope
  | ok vars =>
      have hmarked : vars.held = scope.vars.held := by
        obtain ⟨old, hold, rfl⟩ : ∃ old, scope.vars.get name = .ok old ∧
            scope.vars.mark name = vars := by
          simpa only [Vars.touch, bind_eq_ok, pure_eq_ok] using htouch
        exact scope.vars.held_mark name
      obtain ⟨hflag, hstate⟩ := hscope
      rw [← hmarked] at hstate hchange
      cases hraster : vars.raster name with
      | error problem =>
          simp only [hraster]
          exact ⟨hflag, hstate⟩
      | ok raster =>
          have hheld := Bindings.held_of_find (raster_eq_ok hraster)
          have hafter := hchange raster (le_add_of_le_of_nonneg hheld hframe)
            (by rwa [add_left_comm] at hstate)
          rcases hresult : change raster scope.engine with ⟨result, state⟩
          rw [hresult] at hafter
          simp only [hraster, hresult]
          cases result with
          | error problem =>
              refine ⟨hflag, ?_⟩
              rwa [Tally.yielded, add_left_comm] at hafter
          | ok moved =>
              refine ⟨hflag, ?_⟩
              have hslots : (vars.replace name (.node moved)).held =
                  vars.held - raster.held + moved.held :=
                Bindings.held_replace (raster_eq_ok hraster) (.node moved)
              have hsum : (vars.replace name (.node moved)).held + (0 + frame) =
                  moved.held - raster.held + (vars.held + frame) := by
                rw [hslots]
                abel
              exact hsum ▸ hafter

theorem changeInPlace_still {name : String} {change : Raster → Run σ Raster} (hframe : 0 ≤ frame)
    (hchange : ∀ {larger} raster, frame ≤ larger → raster.held ≤ larger →
      Keeps (custody.order lowering) larger 0 (change raster)
        fun moved => moved.held - raster.held) :
    Still (Scope.order custody Vars.held lowering) frame (changeInPlace name change) :=
  fun scope => keepsAt_changeInPlace hframe fun raster hraster =>
    hchange raster (le_add_of_nonneg_left scope.vars.held_nonneg) hraster scope.engine

theorem takeOut_keeps (name : String) :
    Keeps (Scope.order custody Vars.held lowering) frame 0 (takeOut name) Operand.held := by
  intro scope
  have hget : (get : Act σ Vars (Scope σ Vars)) scope = (.ok scope, scope) := rfl
  simp only [KeepsAt, takeOut, run_bind, hget]
  cases htake : scope.vars.take name with
  | error problem => exact Keeps.throw problem Operand.held scope
  | ok result =>
      obtain ⟨operand, hoperand, rfl⟩ : ∃ operand, scope.vars.get name = .ok operand ∧
          (operand, (⟨scope.vars.slots.erase name, scope.vars.assigned.filter (· ≠ name)⟩ : Vars)) =
            result := by
        simpa only [Vars.take, bind_eq_ok, pure_eq_ok] using htake
      rintro ⟨hflag, hstate⟩
      refine ⟨hflag, ?_⟩
      have hsum : (scope.vars.slots.erase name).held + (operand.held + frame) =
          scope.vars.held + (0 + frame) := by
        rw [Bindings.held_erase, get_eq_ok hoperand, Vars.held]
        show _ - operand.held + _ = _
        abel
      exact hsum ▸ hstate

mutual

-- What a statement takes out of the variables is handed on.
theorem Statement.run_keeps {frame : Tally} {lowering : Bool} (h : Keeper engine custody frame)
    {names : Names} (hnames : names.held ≤ frame) (statement : Statement)
    (hwrapped : ∀ node ∈ statement.wrapped, custody.named node) :
    Keeps (Scope.order custody Vars.held lowering) frame 0 (statement.run engine names)
      (heldIfAny Operand.held) := by
  match statement with
  | .declare name value =>
      unfold Statement.run
      refine (value.eval_keeps h hnames hwrapped).bind fun operand => ?_
      exact (exchange_keeps h.honors fun vars => declare_held vars name operand).bind
        fun _ => .pure rfl
  | .set name value =>
      unfold Statement.run
      refine (value.eval_keeps h hnames hwrapped).bind fun operand => ?_
      exact (assign_keeps h.honors name operand).bind fun _ => .pure rfl
  | .cell name position value =>
      unfold Statement.run
      refine Expr.lend_keeps h hnames hwrapped fun operand hmore hheld => ?_
      refine (Keeps.lift _).bind fun position => ?_
      refine (changeInPlace_still (h.nonneg.trans hmore) fun raster hle hraster => ?_).bind
        fun _ => .pure rfl
      exact (h.more (hmore.trans hle)).setCell hraster (hheld.trans hle) position
  | .setWhere name mask value =>
      unfold Statement.run
      have hall := List.forall_mem_append.mp hwrapped
      refine Expr.lendRaster_keeps h hnames hall.1 fun mask hmore hmask => ?_
      refine Expr.lend_keeps (h.more hmore) (hnames.trans hmore) hall.2 fun operand hle hheld => ?_
      refine (changeInPlace_still ((h.nonneg.trans hmore).trans hle)
        fun raster hlast hraster => ?_).bind fun _ => .pure rfl
      exact (h.more ((hmore.trans hle).trans hlast)).setWhere hraster
        ((hmask.trans hle).trans hlast) (hheld.trans hlast)
  | .take name =>
      unfold Statement.run
      exact (takeOut_keeps name).bind fun _ => .pure rfl
  | .takeRaster name =>
      unfold Statement.run
      refine (takeOut_keeps name).bind fun operand => ?_
      cases operand with
      | node raster => exact .pure rfl
      | host value => exact .throw _ _
  | .clear =>
      unfold Statement.run
      have hclear : Still (Scope.order custody Vars.held lowering) frame
          (modify fun scope => { scope with vars := scope.vars.clearAssigned }) :=
        .change fun _ _ hscope => hscope
      exact hclear.bind fun _ => .pure rfl
  | .fail text =>
      unfold Statement.run
      exact .throw _ _
  | .loop condition form body =>
      unfold Statement.run
      have hall := List.forall_mem_append.mp hwrapped
      have hloop : Keeps (Scope.order custody Vars.held lowering) frame 0
          (Loop.whileLoop engine (condition.guard engine names form)
            (Statement.runAll engine names body)) (heldIfAny Raster.held) :=
        Loop.whileLoop_keeps h
          (fun _ hmore => condition.guard_keeps (h.more hmore) (hnames.trans hmore) form hall.1)
          fun _ hmore => Statement.runAll_still (h.more hmore) (hnames.trans hmore) body hall.2
      refine hloop.bind fun loop => ?_
      cases loop with
      | none => exact .pure rfl
      | some node =>
          exact (keeps_changeEngine fun _ _ => h.honors.letGo).bind fun _ => .pure rfl

theorem Statement.runAll_still {frame : Tally} {lowering : Bool} (h : Keeper engine custody frame)
    {names : Names} (hnames : names.held ≤ frame) (statements : List Statement)
    (hwrapped : ∀ node ∈ Statement.wrappedByAll statements, custody.named node) :
    Still (Scope.order custody Vars.held lowering) frame
      (Statement.runAll engine names statements) := by
  match statements with
  | [] =>
      unfold Statement.runAll
      exact .pure rfl
  | statement :: statements =>
      unfold Statement.runAll
      have hall := List.forall_mem_append.mp hwrapped
      refine (Statement.run_keeps h hnames statement hall.1).bind fun taken => ?_
      refine (keeps_changeEngine fun _ _ => letGoOptional_order h.honors).bind fun _ => ?_
      exact Statement.runAll_still h hnames statements hall.2

end

theorem runLoop_keeps (h : Keeper engine custody frame) {names : Names}
    (hnames : names.held ≤ frame) {condition : Expr} (form : GuardForm) {body : List Statement}
    (hcondition : ∀ node ∈ condition.wrapped, custody.named node)
    (hbody : ∀ node ∈ Statement.wrappedByAll body, custody.named node) :
    Keeps (Scope.order custody Vars.held lowering) frame 0
      (runLoop engine names condition form body) (heldIfAny Raster.held) :=
  Loop.whileLoop_keeps h
    (fun _ hmore => condition.guard_keeps (h.more hmore) (hnames.trans hmore) form hcondition)
    fun _ hmore => Statement.runAll_still (h.more hmore) (hnames.trans hmore) body hbody

end MapAlgebra.Script
