import MapAlgebra.Proofs.Handles.Loops
import MapAlgebra.Script.Inline

namespace MapAlgebra.Script

open Loop (Act Carried Guard Moves Scope afterwards keepsAt_onEngine keeps_afterwards keeps_onEngine
  onEngine)

def Registers.held (registers : Registers) : Tally := registers.x.held + registers.y.held

theorem Registers.held_nonneg (registers : Registers) : 0 ≤ registers.held :=
  add_nonneg registers.x.held_nonneg registers.y.held_nonneg

theorem Registers.x_held (registers : Registers) : registers.x.held ≤ registers.held :=
  le_add_of_nonneg_right registers.y.held_nonneg

theorem Registers.y_held (registers : Registers) : registers.y.held ≤ registers.held :=
  le_add_of_nonneg_left registers.x.held_nonneg

namespace InlineLoop

variable {σ : Type} {engine : Engine σ} {custody : Custody σ} {lowering : Bool}
  {frame cost : Tally}

theorem putX_keeps (h : Honors engine custody) (raster : Raster) :
    Keeps (Scope.order custody Registers.held lowering) frame raster.held (putX engine raster)
      fun _ => 0 := by
  refine .modify fun scope hscope => ⟨hscope.1, h.letGo ?_⟩
  have hsum : scope.vars.x.held + (raster.held + scope.vars.y.held + frame) =
      scope.vars.held + (raster.held + frame) := by
    rw [Registers.held]
    abel
  exact hsum ▸ hscope.2

theorem putY_keeps (h : Honors engine custody) (raster : Raster) :
    Keeps (Scope.order custody Registers.held lowering) frame raster.held (putY engine raster)
      fun _ => 0 := by
  refine .modify fun scope hscope => ⟨hscope.1, h.letGo ?_⟩
  have hsum : scope.vars.y.held + (scope.vars.x.held + raster.held + frame) =
      scope.vars.held + (raster.held + frame) := by
    rw [Registers.held]
    abel
  exact hsum ▸ hscope.2

-- The register keeps its handle until the change has succeeded.
theorem keepsAt_changeX {change : Raster → Run σ Raster} {scope : Scope σ Registers}
    (hchange : KeepsAt (custody.order lowering) (scope.vars.held + frame) cost
      (change scope.vars.x) (fun moved => moved.held - scope.vars.x.held) scope.engine) :
    KeepsAt (Scope.order custody Registers.held lowering) frame cost (changeX change)
      (fun _ => 0) scope := by
  intro hscope
  show Scope.order custody Registers.held lowering ((do
      let raster ← onEngine (change scope.vars.x)
      modify fun scope => { scope with vars := { scope.vars with x := raster } } :
        Act σ Registers Unit) scope).2 (Tally.yielded (fun _ => 0) ((do
      let raster ← onEngine (change scope.vars.x)
      modify fun scope => { scope with vars := { scope.vars with x := raster } } :
        Act σ Registers Unit) scope).1 + frame)
  refine Keeps.bind_at (keepsAt_onEngine hchange) (fun moved after hmoved => ?_) hscope
  obtain ⟨-, rfl⟩ := Prod.mk.inj hmoved
  intro hafter
  refine ⟨hafter.1, ?_⟩
  have hsum : scope.vars.held + (moved.held - scope.vars.x.held + frame) =
      moved.held + scope.vars.y.held + (0 + frame) := by
    rw [Registers.held]
    abel
  exact hsum ▸ hafter.2

theorem changeX_y {change : Raster → Run σ Raster} {scope after : Scope σ Registers}
    {result : Except MapError Unit} (h : changeX change scope = (result, after)) :
    after.vars.y = scope.vars.y := by
  have hrun : changeX change scope = (do
      let raster ← onEngine (change scope.vars.x)
      modify fun scope => { scope with vars := { scope.vars with x := raster } } :
        Act σ Registers Unit) scope := rfl
  rw [hrun, run_bind] at h
  rcases hstep : (onEngine (change scope.vars.x) : Act σ Registers Raster) scope with ⟨ran, between⟩
  rw [hstep] at h
  have hvars := Loop.vars_onEngine hstep
  cases ran with
  | error problem =>
      obtain ⟨-, rfl⟩ := Prod.mk.inj h
      rw [hvars]
  | ok moved =>
      obtain ⟨-, rfl⟩ := Prod.mk.inj h
      show between.vars.y = _
      rw [hvars]

theorem number_held (h : Keeper engine custody frame) (n : Int) : (number n).held ≤ frame :=
  h.nonneg

-- A register is combined with a number while it is held.
theorem combine_keepsAt (h : Keeper engine custody frame) {scope : Scope σ Registers}
    {raster : Raster} (hraster : raster.held ≤ scope.vars.held) (n : Int) (op : BinaryOp) :
    KeepsAt (Scope.order custody Registers.held lowering) frame 0
      (onEngine (engine.combine raster (number n) op)) Raster.held scope := by
  have hmore := h.more (le_add_of_nonneg_left scope.vars.held_nonneg)
  exact keepsAt_onEngine (hmore.combine (le_add_of_le_of_nonneg hraster h.nonneg)
    (number_held hmore n) op scope.engine)

theorem condition_keeps (h : Keeper engine custody frame) (loop : InlineLoop) :
    Keeps (Scope.order custody Registers.held lowering) frame 0 (condition engine loop)
      Guard.held := by
  refine .get_bind_at fun scope => ?_
  cases loop with
  | counter limit step =>
      exact Keeps.bind_at (combine_keepsAt h scope.vars.x_held limit .lt) fun _ after _ =>
        Keeps.pure rfl after
  | two limit =>
      exact Keeps.bind_at (combine_keepsAt h scope.vars.x_held limit .lt) fun _ after _ =>
        Keeps.pure rfl after
  | cells limit =>
      exact Keeps.bind_at (combine_keepsAt h scope.vars.y_held limit .lt) fun _ after _ =>
        Keeps.pure rfl after
  | doubling limit =>
      refine Keeps.bind_at (combine_keepsAt h scope.vars.x_held limit .lt) fun low after _ => ?_
      have hany : Keeps (Scope.order custody Registers.held lowering) frame low.held
          (onEngine (engine.lending low fun low => engine.zonalMasked low none .or)) Raster.held :=
        keeps_onEngine Registers.held_nonneg fun hle =>
          (h.more hle).lending (((h.more hle).beside low).zonal ((h.more hle).lent low) .or)
      exact Keeps.bind_at (hany after) fun _ last _ => Keeps.pure rfl last

theorem body_still (h : Keeper engine custody frame) (loop : InlineLoop) :
    Still (Scope.order custody Registers.held lowering) frame (body engine loop) := by
  refine .get_bind_at fun scope => ?_
  cases loop with
  | counter limit step =>
      exact Keeps.bind_at (combine_keepsAt h scope.vars.x_held step .add) fun next after _ =>
        putX_keeps h.honors next after
  | two limit =>
      refine Keeps.bind_at (combine_keepsAt h scope.vars.x_held 1 .add) fun next after hnext => ?_
      have hproduct : KeepsAt (Scope.order custody Registers.held lowering) frame next.held
          (onEngine (engine.orLetGo next
            (engine.binaryNodes scope.vars.y scope.vars.x .mul)))
          (fun product => product.held + next.held) after := by
        rw [← Loop.vars_onEngine hnext]
        have hmore := h.more (le_add_of_nonneg_left after.vars.held_nonneg)
        have hheld : after.vars.held ≤ next.held + (after.vars.held + frame) :=
          le_add_of_nonneg_of_le next.held_nonneg (le_add_of_nonneg_right h.nonneg)
        exact keepsAt_onEngine (hmore.orLetGo ((hmore.beside next).binaryNodes
          (after.vars.y_held.trans hheld) (after.vars.x_held.trans hheld) .mul) after.engine)
      refine Keeps.bind_at hproduct fun product last _ => ?_
      have hput : Keeps (Scope.order custody Registers.held lowering) frame
          (product.held + next.held) (putY engine product) fun _ => 0 + next.held :=
        (putY_keeps h.honors product).keep fun _ => ⟨(), rfl⟩
      simp only [zero_add] at hput
      exact hput.bind (fun _ => putX_keeps h.honors next) last
  | cells limit =>
      have hchange : KeepsAt (Scope.order custody Registers.held lowering) frame 0
          (changeX fun x => engine.setCell x ⟨0, 0⟩ (.node scope.vars.y)) (fun _ => 0) scope := by
        have hmore := h.more (le_add_of_nonneg_left scope.vars.held_nonneg)
        have hy : (Operand.node scope.vars.y).held ≤ scope.vars.held + frame :=
          le_add_of_le_of_nonneg scope.vars.y_held h.nonneg
        exact keepsAt_changeX (hmore.setCell (le_add_of_le_of_nonneg scope.vars.x_held h.nonneg)
          hy _ scope.engine)
      refine Keeps.bind_at hchange fun _ after hafter => ?_
      rw [← changeX_y hafter]
      exact Keeps.bind_at (combine_keepsAt h after.vars.y_held 1 .add) fun next last _ =>
        putY_keeps h.honors next last
  | doubling limit =>
      refine Keeps.bind_at (combine_keepsAt h scope.vars.x_held limit .lt) fun low after hlow =>
        Loop.keepsAt_afterwards ?_ fun _ _ => h.honors.letGo
      rw [← Loop.vars_onEngine hlow]
      refine Keeps.bind_at (combine_keepsAt (h.beside low) after.vars.x_held 2 .mul)
        fun twice last _ => keepsAt_changeX ?_
      have hmore := (h.beside low).more (le_add_of_nonneg_left last.vars.held_nonneg)
      have hx : last.vars.x.held ≤ last.vars.held + (low.held + frame) :=
        le_add_of_le_of_nonneg last.vars.x_held (h.beside low).nonneg
      have hlow : low.held ≤ last.vars.held + (low.held + frame) :=
        le_add_of_nonneg_of_le last.vars.held_nonneg (h.lent low)
      have htwice : (Operand.node twice).held ≤
          twice.held + (last.vars.held + (low.held + frame)) := hmore.lent twice
      have hbeside := Keeper.le_beside twice (last.vars.held + (low.held + frame))
      exact hmore.lending ((hmore.beside twice).setWhere (hx.trans hbeside) (hlow.trans hbeside)
        htwice) last.engine

theorem moved_order (h : Honors engine custody) {carried : Carried} {raster : Raster} {state : σ}
    {handles : Tally} (hcarried : carried.held ≤ handles)
    (hstate : custody.order lowering state (raster.held + handles)) :
    custody.order lowering (moved engine carried raster state).2
      ((moved engine carried raster state).1.held + handles) := by
  unfold moved
  split
  · rename_i target htarget
    obtain ⟨node, _, hafter⟩ := Option.bind_eq_some_iff.mp htarget
    exact h.follow ((Carried.held_of_afterFor hafter).trans hcarried) hstate
  · exact hstate

theorem move_moves (h : Honors engine custody) (loop : InlineLoop) :
    Moves custody Registers.held (move engine loop) := by
  intro carried registers state handles hcarried hstate
  rw [Registers.held, add_assoc] at hstate
  have hx := moved_order h (le_add_of_nonneg_of_le registers.y.held_nonneg hcarried) hstate
  rcases hfirst : moved engine carried registers.x state with ⟨x, between⟩
  rw [hfirst] at hx
  unfold move
  simp only [hfirst]
  split
  · rw [add_left_comm] at hx
    have hy := moved_order h (le_add_of_nonneg_of_le x.held_nonneg hcarried) hx
    show custody.order true (moved engine carried registers.y between).2
      (x.held + (moved engine carried registers.y between).1.held + handles)
    rwa [add_left_comm, ← add_assoc] at hy
  · show custody.order true between (x.held + registers.y.held + handles)
    rwa [add_assoc]

theorem run_keeps (h : Keeper engine custody frame) (loop : InlineLoop) :
    Keeps (Scope.order custody Registers.held lowering) frame 0 (loop.run engine)
      (heldIfAny Raster.held) :=
  Loop.inlineLoop_keeps h Registers.held_nonneg (fun _ => condition_keeps h loop)
    (fun _ => body_still h loop) (move_moves h.honors loop)

end InlineLoop

end MapAlgebra.Script
