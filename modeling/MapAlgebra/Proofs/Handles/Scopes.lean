import MapAlgebra.Loop.Scope
import MapAlgebra.Proofs.Handles.Custody
import Mathlib.Algebra.Order.BigOperators.Group.List

namespace MapAlgebra

-- What several operands hold together.
def heldByAll (operands : List Operand) : Tally := (operands.map Operand.held).sum

namespace Bindings

def held (bindings : Bindings) : Tally := heldByAll bindings.operands

-- As names are distinct, at most one operand goes with a name.
theorem held_of_filter {entries : List (String × Operand)}
    (hdistinct : (entries.map Prod.fst).Nodup) (name : String) :
    heldByAll ((entries.filter (·.1 ≠ name)).map Prod.snd) =
      heldByAll (entries.map Prod.snd) - heldIfAny Operand.held (entries.lookup name) := by
  induction entries with
  | nil => exact (sub_zero _).symm
  | cons entry entries ih =>
      obtain ⟨hnew, hrest⟩ := List.nodup_cons.mp hdistinct
      by_cases hname : entry.1 = name
      · -- the name does not occur again
        have hothers : entries.filter (·.1 ≠ name) = entries := by
          refine List.filter_eq_self.mpr fun other hother => ?_
          have hdiffers : other.1 ≠ name := fun hsame =>
            hnew (List.mem_map.mpr ⟨other, hother, hsame.trans hname.symm⟩)
          exact decide_eq_true hdiffers
        have hfound : (entry :: entries).lookup name = some entry.2 := by
          rw [List.lookup_cons, beq_iff_eq.mpr hname.symm]
        rw [List.filter_cons_of_neg (by simp [hname]), hothers, hfound]
        show _ = entry.2.held + heldByAll (entries.map Prod.snd) - entry.2.held
        abel
      · have hlater : (entry :: entries).lookup name = entries.lookup name := by
          rw [List.lookup_cons, beq_false_of_ne (Ne.symm hname)]
        rw [List.filter_cons_of_pos (by simp [hname]), hlater]
        show entry.2.held + heldByAll _ = entry.2.held + heldByAll _ - _
        rw [ih hrest]
        abel

theorem held_erase (bindings : Bindings) (name : String) :
    (bindings.erase name).held =
      bindings.held - heldIfAny Operand.held (bindings.find? name) :=
  held_of_filter bindings.distinct name

theorem held_bind (bindings : Bindings) (name : String) (operand : Operand) :
    (bindings.bind name operand).held =
      bindings.held - heldIfAny Operand.held (bindings.find? name) + operand.held := by
  rw [← held_erase, add_comm]
  rfl

theorem held_append (bindings : Bindings) (name : String) (operand : Operand) :
    (bindings.append name operand).held =
      bindings.held - heldIfAny Operand.held (bindings.find? name) + operand.held := by
  rw [← held_erase]
  show heldByAll (((bindings.erase name).entries ++ [(name, operand)]).map Prod.snd) = _
  rw [List.map_append, heldByAll, List.map_append, List.sum_append]
  exact congrArg _ (add_zero _)

theorem held_of_map {entries : List (String × Operand)}
    (hdistinct : (entries.map Prod.fst).Nodup) {name : String} {old : Operand}
    (hold : entries.lookup name = some old) (operand : Operand) :
    heldByAll ((entries.map fun entry =>
        (entry.1, if entry.1 = name then operand else entry.2)).map Prod.snd) =
      heldByAll (entries.map Prod.snd) - old.held + operand.held := by
  induction entries with
  | nil => cases hold
  | cons entry entries ih =>
      obtain ⟨hnew, hrest⟩ := List.nodup_cons.mp hdistinct
      by_cases hname : entry.1 = name
      · have hothers : (entries.map fun entry =>
            (entry.1, if entry.1 = name then operand else entry.2)) = entries := by
          refine (List.map_congr_left fun other hother => ?_).trans (List.map_id _)
          have hdiffers : other.1 ≠ name := fun hsame =>
            hnew (List.mem_map.mpr ⟨other, hother, hsame.trans hname.symm⟩)
          rw [if_neg hdiffers]
          rfl
        rw [List.lookup_cons, beq_iff_eq.mpr hname.symm] at hold
        obtain rfl : entry.2 = old := Option.some.inj hold
        rw [List.map_cons, hothers, if_pos hname]
        show operand.held + heldByAll (entries.map Prod.snd) =
          entry.2.held + heldByAll (entries.map Prod.snd) - entry.2.held + operand.held
        abel
      · rw [List.lookup_cons, beq_false_of_ne (Ne.symm hname)] at hold
        rw [List.map_cons, if_neg hname]
        show entry.2.held + heldByAll _ = entry.2.held + heldByAll _ - _ + _
        rw [ih hrest hold]
        abel

theorem held_replace {bindings : Bindings} {name : String} {old : Operand}
    (hold : bindings.find? name = some old) (operand : Operand) :
    (bindings.replace name operand).held = bindings.held - old.held + operand.held :=
  held_of_map bindings.distinct hold operand

theorem held_nonneg (bindings : Bindings) : 0 ≤ bindings.held := by
  refine List.sum_nonneg fun held hheld => ?_
  obtain ⟨operand, _, rfl⟩ := List.mem_map.mp hheld
  exact operand.held_nonneg

-- A variable is one of the holders of its node.
theorem held_of_find {bindings : Bindings} {name : String} {operand : Operand}
    (h : bindings.find? name = some operand) : operand.held ≤ bindings.held := by
  have hothers := (bindings.erase name).held_nonneg
  rw [bindings.held_erase, h] at hothers
  exact sub_nonneg.mp hothers

end Bindings

namespace Loop

variable {σ ν α : Type} {custody : Custody σ} {owned : ν → Tally} {lowering : Bool}
  {frame cost : Tally} {gain : α → Tally}

-- The handles of the variables are there beside all others, and the engine knows whether a loop
-- is being lowered.
def Scope.order (custody : Custody σ) (owned : ν → Tally) (lowering : Bool) (scope : Scope σ ν)
    (handles : Tally) : Prop :=
  scope.lowering = lowering ∧
    custody.order lowering scope.engine (owned scope.vars + handles)

theorem Scope.order_of_engine {change : σ → σ} {handles : Tally}
    (h : ∀ state handles, custody.order lowering state (cost + handles) →
      custody.order lowering (change state) handles)
    {scope : Scope σ ν} (hscope : scope.order custody owned lowering (cost + handles)) :
    Scope.order custody owned lowering { scope with engine := change scope.engine } handles := by
  refine ⟨hscope.1, h scope.engine _ ?_⟩
  rw [add_left_comm]
  exact hscope.2

theorem keepsAt_onEngine {step : Run σ α} {scope : Scope σ ν}
    (h : KeepsAt (custody.order lowering) (owned scope.vars + frame) cost step gain scope.engine) :
    KeepsAt (Scope.order custody owned lowering) frame cost (onEngine step) gain scope := by
  rintro ⟨hflag, hstate⟩
  rw [add_left_comm] at hstate
  refine ⟨hflag, ?_⟩
  show custody.order lowering (step scope.engine).2
    (owned scope.vars + (Tally.yielded gain (step scope.engine).1 + frame))
  rw [add_left_comm]
  exact h hstate

-- A step on the engine runs beside the handles of the variables.
theorem keeps_onEngine {step : Run σ α} (howned : ∀ vars, 0 ≤ owned vars)
    (h : ∀ {larger}, frame ≤ larger → Keeps (custody.order lowering) larger cost step gain) :
    Keeps (Scope.order custody owned lowering) frame cost (onEngine step) gain :=
  fun scope => keepsAt_onEngine (h (le_add_of_nonneg_left (howned scope.vars)) scope.engine)

theorem keeps_changeEngine {change : σ → σ}
    (h : ∀ state handles, custody.order lowering state (cost + handles) →
      custody.order lowering (change state) handles) :
    Keeps (Scope.order custody owned lowering) frame cost (changeEngine change) fun _ => 0 :=
  .modify fun _ hscope => Scope.order_of_engine h hscope

-- A step on the engine leaves the variables alone.
theorem vars_onEngine {step : Run σ α} {scope after : Scope σ ν} {result : Except MapError α}
    (h : onEngine step scope = (result, after)) : after.vars = scope.vars := by
  obtain ⟨-, rfl⟩ := Prod.mk.inj h
  rfl

theorem engine_onEngine {step : Run σ α} {scope after : Scope σ ν} {result : Except MapError α}
    (h : onEngine step scope = (result, after)) : step scope.engine = (result, after.engine) := by
  obtain ⟨hresult, rfl⟩ := Prod.mk.inj h
  exact Prod.ext hresult rfl

-- What is used up by the change is lent to the step.
theorem keepsAt_afterwards {step : Act σ ν α} {scope : Scope σ ν}
    (hstep : KeepsAt (Scope.order custody owned lowering) (cost + frame) 0 step gain scope)
    {change : σ → σ}
    (hchange : ∀ state handles, custody.order lowering state (cost + handles) →
      custody.order lowering (change state) handles) :
    KeepsAt (Scope.order custody owned lowering) frame cost (afterwards step change) gain scope :=
  fun hscope => Scope.order_of_engine hchange (hstep.lend hscope)

theorem keeps_afterwards {step : Act σ ν α}
    (hstep : Keeps (Scope.order custody owned lowering) (cost + frame) 0 step gain)
    {change : σ → σ}
    (hchange : ∀ state handles, custody.order lowering state (cost + handles) →
      custody.order lowering (change state) handles) :
    Keeps (Scope.order custody owned lowering) frame cost (afterwards step change) gain :=
  fun scope => keepsAt_afterwards (hstep scope) hchange

end Loop

end MapAlgebra
