import MapAlgebra.Proofs.Loops.Steps
import Mathlib.Data.List.Induction

namespace MapAlgebra

namespace Loop

open MapAlgebra.Graph

-- Whether what is read is there when so many steps have been made. The tally counts the handles on
-- rasters from outside.
def Ref.Scoped (outer : Tally) (count : Nat) : Ref → Prop
  | start _ | absent => True
  | step index => index < count
  | outside raster => ∀ node, raster.node = some node → 0 < outer node

theorem Ref.Scoped.mono {outer : Tally} {count more : Nat} {ref : Ref} (h : ref.Scoped outer count)
    (hle : count ≤ more) : ref.Scoped outer more := by
  cases ref with
  | step index =>
      have hlt : index < count := h
      exact Nat.lt_of_lt_of_le hlt hle
  | outside raster => exact h
  | _ => trivial

-- What the null node is worth.
def missing : Value := ⟨.error (.nullNode .received), .error (.nullNode .received)⟩

namespace Step

-- What is settled about the node of a step before it is made. A zero is a single cell.
def draft (info : Ref → Except MapError Meta) (store : Store) : Step Ref → Except MapError Draft
  | node request => draftOf info Ref.isAbsent store request
  | zero like => do
      let info ← info like
      let zero := (Scalar.zero info.dtype).toOption.getD (.f32 (Number.narrow 0))
      return ⟨.constant zero, info.derived info.dtype [], none⟩

theorem mem_inputs {step : Step Ref} {ref : Ref} (h : ref ∈ step.inputs) :
    ref ∈ step.nodes ∨ ref = .absent := by
  cases step with
  | node request => exact Request.mem_inputs h
  | zero like => cases h

-- Everything that the node of a step reads is there.
theorem inputs_present {step : Step Ref} (h : ∀ ref ∈ step.required, ref.isAbsent = false)
    {ref : Ref} (href : ref ∈ step.inputs) : ref ∈ step.nodes ∧ ref.isAbsent = false := by
  cases step with
  | node request =>
      have hread : ref ∈ request.inputs Ref.isAbsent .absent := href
      exact Request.inputs_present .absent h hread
  | zero like => cases href

theorem draft_congr {info other : Ref → Except MapError Meta} {store : Store} {step : Step Ref}
    (h : ∀ ref ∈ step.nodes, info ref = other ref) :
    step.draft info store = step.draft other store := by
  cases step with
  | node request => exact draftOf_congr fun ref href => ⟨h ref href, rfl⟩
  | zero like => rw [draft, draft, h like (List.mem_singleton_self like)]

theorem draft_plain {info : Ref → Except MapError Meta} {store : Store} {step : Step Ref}
    {draft : Draft} (h : step.draft info store = .ok draft) : draft.kind.isPlain = true := by
  cases step with
  | node request => exact draftOf_plain h
  | zero like =>
      obtain ⟨_, _, h⟩ := bind_eq_ok.mp h
      cases h
      rfl

end Step

section Meaning

variable (store : Store) (vars : String → Value) (around : Raster → Value)

-- What a reference is worth when the values of variables, of outer rasters and of steps are known.
def Ref.value (steps : List Value) : Ref → Value
  | .start name => vars name
  | .step index => (steps[index]?).getD missing
  | .outside raster => around raster
  | .absent => missing

-- What a step is worth.
def stepValue (value : Ref → Value) (step : Step Ref) : Value :=
  match step.draft (fun ref => (value ref).info) store with
  | .error problem => ⟨.error problem, .error problem⟩
  | .ok draft =>
      { info := .ok draft.info
        grid := do
          let inputs ← step.inputs.mapM fun ref => (value ref).grid
          draft.kind.apply draft.info inputs }

-- The values of all steps, each of which may read those before it.
def stepValues (steps : List (Step Ref)) : List Value :=
  steps.foldl (fun values step =>
    values ++ [stepValue store (Ref.value vars around values) step]) []

theorem stepValues_concat (steps : List (Step Ref)) (step : Step Ref) :
    stepValues store vars around (steps ++ [step]) =
      stepValues store vars around steps ++
        [stepValue store (Ref.value vars around (stepValues store vars around steps)) step] :=
  List.foldl_concat _ _ _ _

theorem length_stepValues (steps : List (Step Ref)) :
    (stepValues store vars around steps).length = steps.length := by
  induction steps using List.reverseRecOn with
  | nil => rfl
  | append_singleton steps step ih =>
      rw [stepValues_concat, List.length_append, List.length_append, ih]
      rfl

theorem stepValue_congr {value other : Ref → Value} {step : Step Ref}
    (h : ∀ ref, ref ∈ step.nodes ∨ ref = .absent → value ref = other ref) :
    stepValue store value step = stepValue store other step := by
  have hdraft : step.draft (fun ref => (value ref).info) store =
      step.draft (fun ref => (other ref).info) store :=
    Step.draft_congr fun ref hmember => congrArg Value.info (h ref (Or.inl hmember))
  have hinputs : (step.inputs.mapM fun ref => (value ref).grid) =
      step.inputs.mapM fun ref => (other ref).grid :=
    mapM_congr fun ref hmember => congrArg Value.grid (h ref (Step.mem_inputs hmember))
  rw [stepValue, stepValue, hdraft, hinputs]

-- Later steps do not change what an earlier one could read.
theorem Ref.value_append {outer : Tally} {values : List Value} {ref : Ref}
    (h : ref.Scoped outer values.length) (more : List Value) :
    ref.value vars around (values ++ more) = ref.value vars around values := by
  cases ref with
  | step index =>
      have hlt : index < values.length := h
      rw [Ref.value, Ref.value, List.getElem?_append_left hlt]
  | _ => rfl

theorem stepValue_append {outer : Tally} {values : List Value} {step : Step Ref}
    (h : ∀ ref ∈ step.nodes, ref.Scoped outer values.length) (more : List Value) :
    stepValue store (Ref.value vars around (values ++ more)) step =
      stepValue store (Ref.value vars around values) step := by
  refine stepValue_congr store fun ref href => ?_
  obtain hmember | rfl := href
  · exact Ref.value_append vars around (h ref hmember) more
  · rfl

-- A step that reads only earlier ones is worth what all values together make it.
theorem getElem?_stepValues {outer : Tally} {steps : List (Step Ref)} {index : Nat}
    {step : Step Ref} (hstep : steps[index]? = some step)
    (hscoped : ∀ ref ∈ step.nodes, ref.Scoped outer index) :
    (stepValues store vars around steps)[index]? =
      some (stepValue store (Ref.value vars around (stepValues store vars around steps)) step) := by
  induction steps using List.reverseRecOn with
  | nil => cases hstep
  | append_singleton steps last ih =>
      have hlength := length_stepValues store vars around steps
      have hindex := (List.getElem?_eq_some_iff.mp hstep).1
      rw [List.length_append, List.length_singleton] at hindex
      have hwithin : ∀ ref ∈ step.nodes,
          ref.Scoped outer (stepValues store vars around steps).length :=
        fun ref hmember => (hscoped ref hmember).mono (by omega)
      rw [stepValues_concat, stepValue_append store vars around hwithin]
      by_cases hlast : index < steps.length
      · rw [List.getElem?_append_left hlast] at hstep
        rw [List.getElem?_append_left (by omega)]
        exact ih hstep
      · obtain rfl : index = steps.length := by omega
        rw [List.getElem?_concat_length] at hstep
        cases hstep
        rw [← hlength, List.getElem?_concat_length]

theorem stepValues_append (steps more : List (Step Ref)) :
    ∃ values, stepValues store vars around (steps ++ more) =
      stepValues store vars around steps ++ values := by
  induction more using List.reverseRecOn with
  | nil => exact ⟨[], by rw [List.append_nil, List.append_nil]⟩
  | append_singleton more step ih =>
      obtain ⟨values, hvalues⟩ := ih
      rw [← List.append_assoc, stepValues_concat, hvalues, List.append_assoc]
      exact ⟨_, rfl⟩

-- Only the rasters that are read matter.
theorem stepValues_congr {other : Raster → Value} {steps : List (Step Ref)}
    (h : ∀ step ∈ steps, ∀ raster, Ref.outside raster ∈ step.nodes →
      around raster = other raster) :
    stepValues store vars around steps = stepValues store vars other steps := by
  induction steps using List.reverseRecOn with
  | nil => rfl
  | append_singleton steps step ih =>
      have hsteps := ih fun step hstep => h step (List.mem_append_left _ hstep)
      rw [stepValues_concat, stepValues_concat, hsteps]
      congr 2
      refine stepValue_congr store fun ref href => ?_
      obtain hmember | rfl := href
      · cases ref with
        | outside raster =>
            exact h step (List.mem_append_right _ (List.mem_singleton_self _)) raster hmember
        | _ => rfl
      · rfl

end Meaning

end Loop

end MapAlgebra
