import MapAlgebra.Proofs.Graph.Invariant

namespace MapAlgebra.Graph

theorem idle_atomically {α : Type} {step : State → Except MapError (α × State)} {state : State}
    (h : state.recorder = .idle)
    (hstep : ∀ result next, step state = .ok (result, next) → next.recorder = .idle) :
    (atomically step state).2.recorder = .idle :=
  atomically_induction (motive := (·.recorder = .idle)) h hstep

theorem idle_atomically_ {step : State → Except MapError State} {state : State}
    (h : state.recorder = .idle)
    (hstep : ∀ next, step state = .ok next → next.recorder = .idle) :
    (atomically_ step state).2.recorder = .idle :=
  atomically_induction_ (motive := (·.recorder = .idle)) h hstep

-- A step that fails changes nothing.
theorem atomically_refused {α : Type} {step : State → Except MapError (α × State)} {state : State}
    (h : (atomically step state).1.isOk = false) : (atomically step state).2 = state := by
  unfold atomically at h ⊢
  split at h
  · cases h
  · rfl

-- Making a node does to the recorder what recording nodes does.
theorem recorder_construct {motive : Recorder → Prop}
    (hrecord : ∀ recorder id, motive recorder → motive (recorder.record id)) {state next : State}
    {request : Construction} {node : Address} (h : motive state.recorder)
    (hnext : state.construct request = .ok (node, next)) : motive next.recorder := by
  obtain ⟨draft, _, hplaced⟩ := bind_eq_ok.mp hnext
  rw [pure_eq_ok, State.place] at hplaced
  cases hplaced
  refine hrecord _ _ ?_
  cases draft.standIn with
  | none => exact h
  | some info => exact hrecord _ _ h

theorem idle_construct {state : State} (h : state.recorder = .idle) (request : Construction) :
    (simulator.construct request state).2.recorder = .idle :=
  idle_atomically h fun _ _ => recorder_construct (motive := (· = .idle)) (by rintro _ _ rfl; rfl) h

-- Nothing is put together unless both replays were recorded.
theorem idle_assemble {state : State} (h : state.recorder = .idle) :
    (simulator.loopAssemble state).2.recorder = .idle := by
  rw [Changes.assemble_eq]
  cases hplan : state.recorder.plan state.nodes with
  | error problem => exact h
  | ok plan =>
      have hphase := (Recorder.plan_eq_ok hplan).phase
      rw [h] at hphase
      cases hphase

theorem idle_condition {state : State} (h : state.recorder = .idle) (node : Address) :
    (simulator.loopCondition node state).2.recorder = .idle := by
  refine idle_atomically_ h fun next hnext => ?_
  obtain ⟨_, recorder, _, hrecorder, _⟩ := State.addCondition_eq_ok hnext
  rw [h] at hrecorder
  cases hrecorder

theorem idle_replay {state : State} (h : state.recorder = .idle) (next : Loop.Replay) :
    (simulator.loopReplay next state).2.recorder = .idle := by
  refine idle_atomically_ h fun after hafter => ?_
  obtain ⟨recorder, hrecorder, _⟩ := bind_eq_ok.mp hafter
  obtain ⟨hphase, _⟩ | ⟨hphase, _⟩ := Recorder.replay_eq_ok hrecorder
  · rw [h] at hphase
    cases hphase
  · rw [h] at hphase
    cases hphase

theorem idle_evaluate {state : State} (h : state.recorder = .idle) (nodes : List Address) :
    (simulator.evaluate nodes state).2.recorder = .idle := by
  refine idle_atomically_ h fun next hnext => ?_
  obtain ⟨_, hnext⟩ := unless_eq_ok.mp hnext
  obtain ⟨grids, _, hnext⟩ := bind_eq_ok.mp hnext
  cases hnext
  exact h

theorem idle_write {state : State} (h : state.recorder = .idle) (node : Address)
    (resource : String) : (simulator.write node resource state).2.recorder = .idle := by
  refine idle_atomically h fun status next hnext => ?_
  obtain ⟨grid, _, hnext⟩ := bind_eq_ok.mp hnext
  rcases hsaved : state.store.save resource grid with ⟨status, store⟩
  rw [hsaved] at hnext
  cases status <;> (cases hnext; exact h)

theorem recorder_release (state : State) (node : Address) :
    (state.release node).recorder = state.recorder := by
  obtain hsame | ⟨_, _, _, hrelease⟩ := state.release_cases node
  · rw [hsame]
  · rw [hrelease, (State.frees_collect _ node).recorder]

theorem nextId_release (state : State) (node : Address) :
    (state.release node).nextId = state.nextId := by
  obtain hsame | ⟨_, _, _, hrelease⟩ := state.release_cases node
  · rw [hsame]
  · rw [hrelease, (State.frees_collect _ node).frame]

end MapAlgebra.Graph
