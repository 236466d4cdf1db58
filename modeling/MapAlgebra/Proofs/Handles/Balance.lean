import MapAlgebra.Operand
import MapAlgebra.Proofs.Outcome
import Mathlib.Algebra.Group.Pi.Basic
import Mathlib.Algebra.Order.Group.Int
import Mathlib.Algebra.Order.Pi
import Mathlib.Tactic.Abel

namespace MapAlgebra

-- How often each node is held, or by how much that changes.
abbrev Tally := Address → Int

namespace Tally

def one (node : Address) : Tally := fun other => if other = node then 1 else 0

-- What a computation yields when it succeeds.
def yielded {α : Type} (gain : α → Tally) : Except MapError α → Tally
  | .ok a => gain a
  | .error _ => 0

theorem yielded_zero {α : Type} (result : Except MapError α) :
    yielded (fun _ => 0) result = 0 := by
  cases result <;> rfl

theorem one_nonneg (node : Address) : 0 ≤ one node := by
  intro other
  simp only [one, Pi.zero_apply]
  split <;> omega

theorem one_self (node : Address) : one node node = 1 := if_pos rfl

end Tally

-- What a handle holds.
def Raster.held (raster : Raster) : Tally :=
  match raster.node with
  | some node => Tally.one node
  | none => 0

def Operand.held : Operand → Tally
  | .node raster => raster.held
  | .host _ => 0

theorem Raster.held_of_node {raster : Raster} {node : Address} (h : raster.node = some node) :
    raster.held = Tally.one node := by
  rw [Raster.held, h]

theorem Raster.held_nonneg (raster : Raster) : 0 ≤ raster.held := by
  unfold Raster.held
  split
  · exact Tally.one_nonneg _
  · exact le_refl 0

theorem Operand.held_nonneg (operand : Operand) : 0 ≤ operand.held := by
  cases operand with
  | node raster => exact raster.held_nonneg
  | host value => exact le_refl 0

-- A computation that uses up some handles and yields others, while the frame is held elsewhere.
-- What it uses up is gone also when it fails. An order says how a state goes with the handles that
-- there are.
def KeepsAt {τ α : Type} (order : τ → Tally → Prop) (frame cost : Tally) (run : Run τ α)
    (gain : α → Tally) (state : τ) : Prop :=
  order state (cost + frame) →
    order (run state).2 (Tally.yielded gain (run state).1 + frame)

def Keeps {τ α : Type} (order : τ → Tally → Prop) (frame cost : Tally) (run : Run τ α)
    (gain : α → Tally) : Prop :=
  ∀ state, KeepsAt order frame cost run gain state

-- A computation that leaves all handles as they are.
abbrev Still {τ α : Type} (order : τ → Tally → Prop) (frame : Tally) (run : Run τ α) : Prop :=
  Keeps order frame 0 run fun _ => 0

-- The same from any state, whatever is held.
def Steady {τ α : Type} (order : τ → Tally → Prop) (run : Run τ α) : Prop :=
  ∀ state handles, order state handles → order (run state).2 handles

theorem Steady.still {τ α : Type} {order : τ → Tally → Prop} {run : Run τ α}
    (h : Steady order run) {frame : Tally} : Still order frame run := by
  intro state hstate
  rw [Tally.yielded_zero]
  exact h state _ hstate

-- A computation that does not fail.
def Succeeds {τ α : Type} (run : Run τ α) : Prop := ∀ state, ∃ a, (run state).1 = .ok a

namespace Succeeds

variable {τ α β : Type}

theorem pure (a : α) : Succeeds (pure a : Run τ α) := fun _ => ⟨a, rfl⟩

theorem bind {run : Run τ α} {next : α → Run τ β} (hrun : Succeeds run)
    (hnext : ∀ a, Succeeds (next a)) : Succeeds (run >>= next) := by
  intro state
  obtain ⟨a, ha⟩ := hrun state
  rw [run_bind]
  rcases hresult : run state with ⟨result, after⟩
  rw [hresult] at ha
  obtain rfl : result = .ok a := ha
  exact hnext a after

theorem mapM {step : α → Run τ β} (h : ∀ item, Succeeds (step item)) (items : List α) :
    Succeeds (items.mapM step) := by
  induction items with
  | nil => exact pure []
  | cons item items ih =>
      rw [List.mapM_cons]
      exact (h item).bind fun _ => ih.bind fun _ => pure _

theorem catching {run : Run τ α} {handle : MapError → Run τ α}
    (hhandle : ∀ problem, Succeeds (handle problem)) : Succeeds (tryCatch run handle) := by
  intro state
  rw [run_tryCatch]
  rcases run state with ⟨result, after⟩
  cases result with
  | ok a => exact ⟨a, rfl⟩
  | error problem => exact hhandle problem after

end Succeeds

-- What runs while handles are lent may fail or succeed. They are still there afterwards.
theorem KeepsAt.lend {τ α : Type} {order : τ → Tally → Prop} {frame kept : Tally} {run : Run τ α}
    {gain : α → Tally} {state : τ} (h : KeepsAt order (kept + frame) 0 run gain state)
    (hstate : order state (kept + frame)) :
    order (run state).2 (kept + (Tally.yielded gain (run state).1 + frame)) := by
  have hafter := h (by rwa [zero_add])
  rwa [add_left_comm] at hafter

namespace Keeps

variable {τ α β : Type} {order : τ → Tally → Prop} {frame cost kept : Tally}

-- From one state. What follows may rely on how its own state came about.
theorem bind_at {run : Run τ α} {next : α → Run τ β} {gain : α → Tally} {final : β → Tally}
    {state : τ} (hrun : KeepsAt order frame cost run gain state)
    (hnext : ∀ a after, run state = (.ok a, after) →
      KeepsAt order frame (gain a) (next a) final after) :
    KeepsAt order frame cost (run >>= next) final state := by
  intro hstate
  have hafter := hrun hstate
  rw [run_bind]
  rcases hresult : run state with ⟨result, after⟩
  rw [hresult] at hafter
  cases result with
  | error problem => exact hafter
  | ok a => exact hnext a after hresult hafter

theorem bind {run : Run τ α} {next : α → Run τ β} {gain : α → Tally} {final : β → Tally}
    (hrun : Keeps order frame cost run gain)
    (hnext : ∀ a, Keeps order frame (gain a) (next a) final) :
    Keeps order frame cost (run >>= next) final :=
  fun state => bind_at (hrun state) fun a after _ => hnext a after

theorem pure {a : α} {gain : α → Tally} (h : gain a = cost) :
    Keeps order frame cost (pure a) gain := by
  intro state hstate
  show order state (gain a + frame)
  rwa [h]

theorem throw (problem : MapError) (gain : α → Tally) :
    Keeps order frame 0 (throw problem) gain := fun _ hstate => hstate

theorem lift (result : Except MapError α) : Still order frame (liftM result : Run τ α) := by
  intro state hstate
  cases result with
  | error problem => exact hstate
  | ok a => exact hstate

-- What follows may rely on what was computed.
theorem lift_bind_at {result : Except MapError α} {next : α → Run τ β} {gain : β → Tally} {state : τ}
    (h : ∀ a, result = .ok a → KeepsAt order frame 0 (next a) gain state) :
    KeepsAt order frame 0 (liftM result >>= next) gain state := by
  cases result with
  | error problem => exact fun hstate => hstate
  | ok a => exact h a rfl

theorem lift_bind {result : Except MapError α} {next : α → Run τ β} {gain : β → Tally}
    (h : ∀ a, result = .ok a → Keeps order frame 0 (next a) gain) :
    Keeps order frame 0 (liftM result >>= next) gain :=
  fun state => lift_bind_at fun a ha => h a ha state

theorem modify {change : τ → τ}
    (h : ∀ state, order state (cost + frame) → order (change state) frame) :
    Keeps order frame cost (modify change : Run τ Unit) fun _ => 0 := by
  intro state hstate
  show order (change state) (0 + frame)
  rw [zero_add]
  exact h state hstate

theorem get_bind {next : τ → Run τ α} {gain : α → Tally}
    (h : ∀ state, Keeps order frame cost (next state) gain) :
    Keeps order frame cost (do next (← get)) gain := fun state => h state state

-- What follows may rely on the state that it has read.
theorem get_bind_at {next : τ → Run τ α} {gain : α → Tally}
    (h : ∀ state, KeepsAt order frame cost (next state) gain state) :
    Keeps order frame cost (do next (← get)) gain := fun state => h state

-- Handles pass through a computation that does not fail.
theorem keep {run : Run τ α} {gain : α → Tally} (hrun : Keeps order (kept + frame) cost run gain)
    (hsucceeds : Succeeds run) : Keeps order frame (cost + kept) run fun a => gain a + kept := by
  intro state hstate
  rw [add_assoc] at hstate
  have hafter := hrun state hstate
  obtain ⟨a, ha⟩ := hsucceeds state
  rw [ha] at hafter ⊢
  rwa [Tally.yielded, ← add_assoc] at hafter

-- What is kept for later is used up when a step fails and its failure is handled.
theorem catching {run : Run τ α} {handle : MapError → Run τ α} {gain : α → Tally}
    (hrun : Keeps order (kept + frame) 0 run gain)
    (hhandle : ∀ problem, Keeps order frame kept (handle problem) fun a => gain a + kept) :
    Keeps order frame kept (tryCatch run handle) fun a => gain a + kept := by
  intro state hstate
  have hafter := (hrun state).lend hstate
  rw [run_tryCatch]
  rcases hresult : run state with ⟨result, after⟩
  rw [hresult] at hafter
  cases result with
  | ok a =>
      show order after (gain a + kept + frame)
      rwa [Tally.yielded, add_left_comm, ← add_assoc] at hafter
  | error problem =>
      rw [Tally.yielded, zero_add] at hafter
      exact hhandle problem after hafter

theorem catching_still {run : Run τ α} {handle : MapError → Run τ α} (hrun : Still order frame run)
    (hhandle : ∀ problem, Still order frame (handle problem)) :
    Still order frame (tryCatch run handle) := by
  have hlent : Keeps order (0 + frame) 0 run fun _ => 0 := by rwa [zero_add]
  have hhandled : ∀ problem, Keeps order frame 0 (handle problem) fun _ => 0 + 0 := fun problem => by
    simpa only [add_zero] using hhandle problem
  simpa only [add_zero] using hlent.catching hhandled

theorem mapM_still {step : α → Run τ β} (h : ∀ item, Still order frame (step item))
    (items : List α) : Still order frame (items.mapM step) := by
  induction items with
  | nil => exact Keeps.pure rfl
  | cons item items ih =>
      rw [List.mapM_cons]
      exact (h item).bind fun _ => ih.bind fun _ => Keeps.pure rfl

end Keeps

theorem Still.keep {τ α : Type} {order : τ → Tally → Prop} {frame kept : Tally} {run : Run τ α}
    (hrun : Still order (kept + frame) run) (hsucceeds : Succeeds run) :
    Keeps order frame kept run fun _ => kept := by
  simpa only [zero_add] using Keeps.keep hrun hsucceeds

-- A change of something that the order does not look at.
theorem Still.change {τ : Type} {order : τ → Tally → Prop} {frame : Tally} {change : τ → τ}
    (h : ∀ state handles, order state handles → order (change state) handles) :
    Still order frame (modify change : Run τ Unit) := fun state hstate => h state _ hstate

end MapAlgebra
