import MapAlgebra.Proofs.Graph.Aligned
import MapAlgebra.Proofs.Loops.ByHand
import MapAlgebra.Proofs.Loops.Declared

namespace MapAlgebra

-- Whether what a request holds compares equal to itself, so that asking once more gives the same
-- operation. A not-a-number does not.
def Request.Comparable {ν : Type} (store : Graph.Store) : Request ν → Prop
  | .constant value layout => ∀ held, value.convert layout.dtype = .ok held → held.same held = true
  | .convolution _ kernel _ | .focal _ kernel _ _ =>
      ∀ weight ∈ kernel, (weight.toFloat == weight.toFloat) = true
  | .read resource =>
      ∀ grid, store.load resource = .ok grid → ∀ cell ∈ grid.cells, (cell == cell) = true
  | _ => True

namespace Graph

theorem cells_same {cells : Array Float} (h : ∀ cell ∈ cells, (cell == cell) = true) :
    (cells == cells) = true := by
  rw [Array.beq_eq_decide]
  simp only [dite_true, decide_eq_true_eq]
  exact fun index hindex => h _ (Array.getElem_mem hindex)

theorem weights_same {kernel : List Scalar} {shape : Shape} {weights : Weights}
    (hkernel : ∀ weight ∈ kernel, (weight.toFloat == weight.toFloat) = true)
    (h : weightsOf kernel shape = .ok weights) : weights.same weights = true := by
  unfold weightsOf at h
  split at h
  · split at h
    · cases h
      have hvalues : ∀ cell ∈ (kernel.map Scalar.toFloat).toArray, (cell == cell) = true := by
        intro cell hcell
        obtain ⟨weight, hweight, rfl⟩ := List.mem_map.mp (List.mem_toArray.mp hcell)
        exact hkernel weight hweight
      simp only [Weights.same, cells_same hvalues, decide_true, Bool.and_self]
    · cases h
  · cases h

theorem atomically_of_ok_ {step : State → Except MapError State} {state after : State}
    (h : step state = .ok after) : atomically_ step state = (.ok (), after) := by
  simp only [atomically_, atomically, h, Except.map]

-- A comparable request gives an operation that is the same as itself.
theorem draftOf_same {ν : Type} {info : ν → Except MapError Meta} {isEmpty : ν → Bool}
    {store : Store} {request : Request ν} {draft : Draft} (hcomparable : request.Comparable store)
    (h : draftOf info isEmpty store request = .ok draft) : draft.kind.same draft.kind = true := by
  cases draftOf_eq_ok h with
  | constant hvalue => exact hcomparable _ hvalue
  | convolution hweights => exact weights_same hcomparable hweights
  | focal hweights =>
      simp only [NodeKind.same, weights_same hcomparable hweights, decide_true, Bool.and_self]
  | read hgrid =>
      simp only [NodeKind.same, Grid.same, cells_same (hcomparable _ hgrid), decide_true,
        Bool.and_self]
  | _ => grind [NodeKind.same]

-- The type that is known of a node.
def Value.type? (value : Value) : Option DataType := value.info.toOption.map Meta.dtype

namespace Builds

variable {state after : State}

theorem start (hphase : state.recorder.phase = .idle) :
    Builds state { state with recorder := { state.recorder with phase := .started } } :=
  .of_change (.start hphase) rfl rfl fun h => ⟨_, h, .refl _, rfl⟩

theorem replay {next : Loop.Replay} {recorder : Recorder}
    (h : state.recorder.replay next = .ok recorder) : Builds state { state with recorder } :=
  .of_change (.replay h) rfl rfl fun h => ⟨_, h, .refl _, rfl⟩

theorem condition {node : Address} (h : state.addCondition node = .ok after) :
    Builds state after := by
  have hchange := Change.condition h
  obtain ⟨_, _, h⟩ := bind_eq_ok.mp h
  obtain ⟨recorder, _, h⟩ := bind_eq_ok.mp h
  cases h
  refine .of_change hchange rfl rfl fun {id info} h => ?_
  rw [State.addUser, Table.get?_modify] at h
  split at h
  · obtain ⟨old, hold, rfl⟩ := Option.map_eq_some_iff.mp h
    exact ⟨old, hold, .users old _, rfl⟩
  · exact ⟨info, h, .refl info, rfl⟩

end Builds

-- Holding a node takes no handle away.
theorem Backs.addUser {state : State} {tally : Tally} (h : Backs state tally) (node : Nat)
    (recorder : Recorder) :
    Backs { state with recorder, nodes := State.addUser state.nodes node } tally := by
  refine h.of_refCount fun id => ?_
  simp only [State.refCount, State.addUser, Table.get?_modify]
  split
  · rw [Option.map_map]
    exact Nat.le_refl _
  · exact Nat.le_refl _

end Graph

namespace Loop

open MapAlgebra.Graph

-- Whether two replays make the same of a step: what it holds compares equal to itself, or it is a
-- zero of one and the same type.
def Step.Repeats (store : Store) (first second : Ref → Value) : Step Ref → Prop
  | node request => request.Comparable store
  | zero like => (first like).type? = (second like).type?

theorem zero_same (dtype : DataType) :
    (NodeKind.constant ((Scalar.zero dtype).toOption.getD (.f32 (Number.narrow 0)))).same
      (.constant ((Scalar.zero dtype).toOption.getD (.f32 (Number.narrow 0)))) = true := by
  cases dtype <;> decide +kernel

theorem Step.same {store : Store} {first second : Ref → Value} {step : Step Ref}
    {draft redraft : Draft} (h : step.Repeats store first second)
    (hdraft : step.draft (fun ref => (first ref).info) store = .ok draft)
    (hredraft : step.draft (fun ref => (second ref).info) store = .ok redraft) :
    draft.kind.same redraft.kind = true := by
  cases step with
  | node request =>
      rw [← draftOf_kind hdraft hredraft]
      exact draftOf_same h hdraft
  | zero like =>
      obtain ⟨note, hnote, hdraft⟩ := bind_eq_ok.mp hdraft
      obtain ⟨renote, hrenote, hredraft⟩ := bind_eq_ok.mp hredraft
      cases hdraft
      cases hredraft
      have htype : (first like).type? = (second like).type? := h
      simp only [Value.type?, hnote, hrenote] at htype
      rw [Option.some.inj htype]
      exact zero_same _

-- The recorder while a replay is going on.
def recording (phase : Phase) (conditions first second : List Nat) : Recorder :=
  ⟨phase, conditions, first, second, []⟩

-- The steps of a replay are numbered one after the other.
theorem getElem?_replayed {base count step id : Nat} :
    (List.range' base count)[step]? = some id ↔ step < count ∧ base + step = id := by
  rw [List.getElem?_eq_some_iff]
  simp only [List.length_range', List.getElem_range', Nat.one_mul, exists_prop]

theorem recordFrom_idle (base count : Nat) : Recorder.idle.recordFrom base count = .idle := by
  induction count with
  | zero => rfl
  | succ count ih =>
      rw [Recorder.recordFrom_succ, ih]
      rfl

theorem recordFrom_first (conditions first : List Nat) (base count : Nat) :
    (recording .firstReplay conditions first []).recordFrom base count =
      recording .firstReplay conditions (first ++ List.range' base count) [] := by
  induction count with
  | zero => simp only [Recorder.recordFrom, List.range'_zero, List.foldl_nil, List.append_nil]
  | succ count ih =>
      rw [Recorder.recordFrom_succ, ih, List.range'_1_concat, ← List.append_assoc]
      rfl

theorem recordFrom_second (conditions first second : List Nat) (base count : Nat) :
    (recording .secondReplay conditions first second).recordFrom base count =
      recording .secondReplay conditions first (second ++ List.range' base count) := by
  induction count with
  | zero => simp only [Recorder.recordFrom, List.range'_zero, List.foldl_nil, List.append_nil]
  | succ count ih =>
      rw [Recorder.recordFrom_succ, ih, List.range'_1_concat, ← List.append_assoc]
      rfl

theorem onEngine_of_ok {σ ν α : Type} {step : Run σ α} {scope : Scope σ ν} {a : α} {state : σ}
    (h : step scope.engine = (.ok a, state)) :
    (onEngine step : Act σ ν α) scope = (.ok a, { scope with engine := state }) := by
  simp only [onEngine, h]

theorem afterwards_unmalformed {σ ν α : Type} {step : Act σ ν α} {scope : Scope σ ν}
    (h : Unmalformed (step scope).1) (change : σ → σ) :
    Unmalformed (afterwards step change scope).1 := h

section Opening

-- A node that is there becomes a condition of the loop that is open.
theorem condition_eq {state : State} {node : Nat} (hlooped : Looped state)
    (hlive : state.nodes.contains node = true) {phase : Phase} {conditions first second : List Nat}
    (hrecorder : state.recorder = recording phase conditions first second)
    (hopen : (recording phase conditions first second).addCondition node =
      .ok (recording phase (conditions ++ [node]) first second)) :
    ∃ held, simulator.loopCondition node state = (.ok (), held) ∧ Builds state held ∧
      held.recorder = recording phase (conditions ++ [node]) first second ∧
      held.nextId = state.nextId ∧ ∀ tally, Backs state tally → Backs held tally := by
  obtain ⟨info, hinfo⟩ := (Table.contains_iff _ _).mp hlive
  have hcondition : state.addCondition node = .ok { state with
      recorder := recording phase (conditions ++ [node]) first second
      nodes := State.addUser state.nodes node } := by
    refine bind_eq_ok.mpr ⟨info, State.find_eq hlooped.consistent.counted.numbered hinfo,
      bind_eq_ok.mpr ⟨_, ?_, rfl⟩⟩
    rw [hrecorder]
    exact hopen
  refine ⟨_, ?_, .condition hcondition, rfl, rfl, fun tally h => h.addUser node _⟩
  show atomically_ (·.addCondition node) state = _
  exact atomically_of_ok_ hcondition

variable {scope : Scope State Vars} {guard : Raster} {node : Nat}

theorem replay_eq {state : State} {next : Replay} {recorder : Recorder}
    (h : state.recorder.replay next = .ok recorder) :
    simulator.loopReplay next state = (.ok (), { state with recorder }) := by
  show atomically_ (fun state => do return { state with recorder := ← state.recorder.replay next })
    state = _
  exact atomically_of_ok_ (bind_eq_ok.mpr ⟨recorder, h, rfl⟩)

theorem start_eq (hlooped : Looped scope.engine) (hguard : guard.node = some node)
    (hlive : scope.engine.nodes.contains node = true) (hlowering : scope.lowering = false)
    (hidle : scope.engine.recorder = .idle) :
    ∃ state, Lowering.start simulator guard scope =
        (.ok (), { scope with lowering := true, engine := state }) ∧
      Builds scope.engine state ∧ state.recorder = recording .firstReplay [node] [] [] ∧
      ∀ tally, Backs scope.engine tally → Backs state tally := by
  let started := { scope.engine with recorder := recording .started [] [] [] }
  have hstarted : Builds scope.engine started := by
    have hbuilds := Builds.start (congrArg Recorder.phase hidle)
    rw [hidle] at hbuilds
    exact hbuilds
  have hstart : simulator.loopStart scope.engine = (.ok (), started) := by
    show atomically_ (fun state => do return { state with recorder := ← state.recorder.start })
      scope.engine = _
    refine atomically_of_ok_ ?_
    rw [hidle]
    rfl
  obtain ⟨held, hcondition, hheld, hrecorder, _, hbacks⟩ :=
    condition_eq (hstarted.looped hlooped) hlive rfl rfl
  have hreplay : held.recorder.replay .first = .ok (recording .firstReplay [node] [] []) := by
    rw [hrecorder]
    rfl
  refine ⟨{ held with recorder := recording .firstReplay [node] [] [] }, ?_,
    (hstarted.trans hheld).trans (.replay hreplay), rfl, fun tally h => hbacks tally h⟩
  refine run_bind_eq_ok.mpr ⟨scope, scope, rfl, ?_⟩
  simp only [hlowering, Bool.false_eq_true, if_false]
  refine run_bind_eq_ok.mpr ⟨node, scope, run_lift_eq_ok.mpr ⟨?_, rfl⟩, ?_⟩
  · rw [Raster.require, hguard]
  refine run_bind_eq_ok.mpr ⟨(), _, rfl, ?_⟩
  refine run_bind_eq_ok.mpr ⟨(), { scope with lowering := true, engine := started }, ?_, ?_⟩
  · simp only [onFailure, onEngine, hstart]
  · have hsecond : (do
        onEngine (simulator.loopCondition node)
        onEngine (simulator.loopReplay .first) : Act State Vars Unit)
          { scope with lowering := true, engine := started } = (.ok (), { scope with
            lowering := true
            engine := { held with recorder := recording .firstReplay [node] [] [] } }) := by
      exact run_bind_eq_ok.mpr
        ⟨(), _, onEngine_of_ok hcondition, onEngine_of_ok (replay_eq hreplay)⟩
    simp only [onFailure, hsecond]

-- What the second replay begins with: the condition of the first one is held and has been let go.
structure Reopened (conditions first : List Nat) (guard : Raster) (now rebegun : Scope State Vars) :
    Prop where
  vars : rebegun.vars = now.vars
  builds : Builds now.engine rebegun.engine
  nextId : rebegun.engine.nextId = now.engine.nextId
  recorder : rebegun.engine.recorder = recording .secondReplay conditions first []
  backs : ∀ tally, Backs now.engine (tally + guard.held) → Backs rebegun.engine tally

theorem again_eq (hlooped : Looped scope.engine) (hguard : guard.node = some node)
    (hlive : scope.engine.nodes.contains node = true) {initial : Nat} {first : List Nat}
    (hrecorder : scope.engine.recorder = recording .firstReplay [initial] first []) :
    ∃ state, Lowering.again simulator guard scope = (.ok (), { scope with engine := state }) ∧
      Reopened [initial, node] first guard scope
        { scope with engine := simulator.letGo guard state } := by
  have hreplay : scope.engine.recorder.replay .second =
      .ok (recording .secondReplay [initial] first []) := by
    rw [hrecorder]
    rfl
  have hreplayed := Builds.replay hreplay
  obtain ⟨held, hcondition, hheld, hrecorder, hnext, hbacks⟩ :=
    condition_eq (hreplayed.looped hlooped) hlive rfl rfl
  have hhandled := Handled.letGo guard held
  refine ⟨held, ?_, rfl, (hreplayed.trans hheld).trans hhandled.toBuilds,
    hhandled.nextId.trans hnext, hhandled.recorder.trans hrecorder,
    fun tally h => (hbacks _ h).letGo⟩
  refine run_bind_eq_ok.mpr ⟨node, scope, run_lift_eq_ok.mpr ⟨?_, rfl⟩, ?_⟩
  · rw [Raster.require, hguard]
  exact run_bind_eq_ok.mpr ⟨(), _, onEngine_of_ok (replay_eq hreplay), onEngine_of_ok hcondition⟩

end Opening

-- Two replays of the same code, each of which the condition ends, and what became of the graph
-- after them.
structure Replayed (code : Code) (outer : Tally) (begun now rebegun ended : Scope State Vars)
    (after : State) : Prop where
  ready : Ready outer begun
  again : Ready outer rebegun
  first : Traced outer begun code.round [] now
  second : Traced outer rebegun code.round [] ended
  between : Builds now.engine rebegun.engine
  next : rebegun.engine.nextId = now.engine.nextId
  vars : rebegun.vars.slots = now.vars.slots
  builds : Builds ended.engine after

namespace Replayed

variable {code : Code} {outer : Tally} {start begun now rebegun ended : Scope State Vars}
  {after : State}

theorem next_eq (h : Replayed code outer begun now rebegun ended after) :
    rebegun.engine.nextId = begun.engine.nextId + code.round.steps.length :=
  h.next.trans h.first.next

-- What became of a step in each of the replays.
theorem made (h : Replayed code outer begun now rebegun ended after) {index : Nat}
    {step : Step Ref} (hstep : code.round.steps[index]? = some step) :
    Made outer begun { ended with engine := after } code.round.steps index step ∧
      Made outer rebegun { ended with engine := after } code.round.steps index step := by
  have hindex := (List.getElem?_eq_some_iff.mp hstep).1
  have hnow : now.engine.nextId = begun.engine.nextId + code.round.steps.length := h.first.next
  have hend : ended.engine.nextId = rebegun.engine.nextId + code.round.steps.length := h.second.next
  have hfrom : Builds now.engine after := (h.between.trans h.second.builds).trans h.builds
  exact ⟨(h.first.made hstep).later hfrom (by omega),
    (h.second.made hstep).later h.builds (by omega)⟩

-- What both replays recorded as one step.
theorem steps (h : Replayed code outer begun now rebegun ended after) {index : Nat}
    {step : Step Ref} (hstep : code.round.steps[index]? = some step) {a b : Node}
    (hrepeats : step.Repeats begun.engine.store (Ref.valueFrom begun code.round.steps)
      (Ref.valueFrom rebegun code.round.steps))
    (ha : after.nodes.get? (begun.engine.nextId + index) = some a)
    (hb : after.nodes.get? (rebegun.engine.nextId + index) = some b) :
    a.kind.same b.kind = true ∧ a.inputs = step.inputs.map (Ref.address begun) ∧
      b.inputs = step.inputs.map (Ref.address rebegun) := by
  obtain ⟨hmadeFirst, hmadeSecond⟩ := h.made hstep
  obtain ⟨draft, hdraft, hfirst⟩ := hmadeFirst.drafted
  obtain ⟨redraft, hredraft, hsecond⟩ := hmadeSecond.drafted
  obtain ⟨hkindA, _, hinputsA⟩ := hfirst a ha
  obtain ⟨hkindB, _, hinputsB⟩ := hsecond b hb
  have hstore : rebegun.engine.store = begun.engine.store :=
    h.between.store.trans h.first.builds.store
  rw [hstore] at hredraft
  refine ⟨?_, hinputsA, hinputsB⟩
  rw [hkindA, hkindB]
  exact Step.same hrepeats hdraft hredraft

theorem ends_eq (h : Replayed code outer begun now rebegun ended after) (name : String) :
    (code.ends name).Denotes begun (rebegun.vars.slots.find? name) ∧
      (code.ends name).Denotes rebegun (ended.vars.slots.find? name) ∧
      (code.ends name).Scoped outer code.round.steps.length := by
  have hround : code.round.vars name = code.ends name :=
    congrFun (code.asking_vars code.inner) name
  rw [h.vars, ← hround]
  exact ⟨h.first.vars name, h.second.vars name, h.first.known name⟩

-- A variable begins the second replay as what the first one left it as.
theorem nodeOf_again (h : Replayed code outer begun now rebegun ended after) (name : String) :
    rebegun.vars.nodeOf name = (code.ends name).address begun :=
  nodeOf_of_denotes (h.ends_eq name).1

section Recording

variable {recorder : Recorder}
  (hfirst : recorder.first = List.range' begun.engine.nextId code.round.steps.length)
  (hsecond : recorder.second = List.range' rebegun.engine.nextId code.round.steps.length)

include hfirst hsecond

-- The replays made none of the nodes that were there before.
theorem not_made (h : Replayed code outer begun now rebegun ended after) {node : Nat}
    (hold : node < begun.engine.nextId) : node ∉ recorder.first ++ recorder.second := by
  have hnext := h.next_eq
  rw [hfirst, hsecond, List.mem_append, List.mem_range'_1, List.mem_range'_1]
  omega

-- A step reads what an earlier one made, what a variable was given by the replay before, or what
-- was there before the loop.
theorem readable (h : Replayed code outer begun now rebegun ended after)
    (hends : ∀ name, code.ends name = .start name ∨ ∃ index, code.ends name = .step index)
    {number : Nat} {step : Step Ref} (hstep : code.round.steps[number]? = some step)
    {ref : Ref} (href : ref ∈ step.inputs) :
    recorder.Readable number (ref.address begun, ref.address rebegun) := by
  have hnumber := (List.getElem?_eq_some_iff.mp hstep).1
  have hmade := h.first.made hstep
  obtain ⟨hmember, hthere⟩ := Step.inputs_present hmade.required href
  have hknown := hmade.known ref hmember
  have hold : (∀ index, ref ≠ .step index) → ref.address begun ∉ recorder.first ++ recorder.second :=
    fun hnone => h.not_made hfirst hsecond (h.ready.address_lt hknown hnone)
  cases ref with
  | start name =>
      have hbound := (h.ends_eq name).2.2
      have hagain : Ref.address rebegun (.start name) = (code.ends name).address begun :=
        h.nodeOf_again name
      rw [hagain]
      obtain hsame | ⟨index, hindex⟩ := hends name
      · rw [hsame]
        exact .outer (hold nofun)
      · rw [hindex] at hbound
        have hlt : index < code.round.steps.length := hbound
        rw [hindex]
        refine .carried (hold nofun) ?_
        rw [hfirst, List.mem_range'_1]
        exact ⟨Nat.le_add_right _ _, Nat.add_lt_add_left hlt _⟩
  | step index =>
      have hlt : index < number := hknown
      refine .step hlt ?_ ?_
      · rw [hfirst]
        exact getElem?_replayed.mpr ⟨hlt.trans hnumber, rfl⟩
      · rw [hsecond]
        exact getElem?_replayed.mpr ⟨hlt.trans hnumber, rfl⟩
  | outside raster => exact .outer (hold nofun)
  | absent => cases hthere

-- Two replays of the same code can be aligned when they make the same of each step.
theorem alignable (h : Replayed code outer begun now rebegun ended after)
    (hends : ∀ name, code.ends name = .start name ∨ ∃ index, code.ends name = .step index)
    (hrepeats : ∀ step ∈ code.round.steps, step.Repeats begun.engine.store
      (Ref.valueFrom begun code.round.steps) (Ref.valueFrom rebegun code.round.steps))
    {initial next : Nat} (hconditions : recorder.conditions = [initial, next])
    (hnext : next ∈ recorder.first) : recorder.Alignable after.nodes := by
  refine ⟨⟨initial, next, hconditions, hnext⟩, ?_, fun {index first second a b} hone htwo ha hb => ?_⟩
  · rw [hfirst, hsecond, List.length_range', List.length_range']
  · rw [hfirst] at hone
    rw [hsecond] at htwo
    obtain ⟨hindex, rfl⟩ := getElem?_replayed.mp hone
    obtain ⟨_, rfl⟩ := getElem?_replayed.mp htwo
    have hstep := List.getElem?_eq_getElem hindex
    obtain ⟨hsame, hinputsA, hinputsB⟩ := h.steps hstep
      (hrepeats _ (List.getElem_mem hindex)) ha hb
    refine ⟨hsame, ?_, fun input hinput => ?_⟩
    · rw [hinputsA, hinputsB, List.length_map, List.length_map]
    · rw [hinputsA, hinputsB, List.zip_map', List.mem_map] at hinput
      obtain ⟨ref, href, rfl⟩ := hinput
      exact h.readable hfirst hsecond hends hstep href

end Recording

-- What the steps are worth in the replays is what they are worth in the first two rounds.
theorem repeats (h : Replayed code outer begun now rebegun ended after)
    (hfirst : Stage code outer start 0 begun) (hsecond : Stage code outer start 1 rebegun)
    (hrepeats : ∀ step ∈ code.round.steps, step.Repeats start.engine.store (code.refAfter start 0)
      (code.refAfter start 1)) :
    ∀ step ∈ code.round.steps, step.Repeats begun.engine.store
      (Ref.valueFrom begun code.round.steps) (Ref.valueFrom rebegun code.round.steps) := by
  intro step hstep
  have hsame := hrepeats step hstep
  cases step with
  | node request => exact hfirst.store.symm ▸ hsame
  | zero like =>
      obtain ⟨index, hindex⟩ := List.getElem?_of_mem hstep
      have hknown := ((h.first.made hindex).known like (List.mem_singleton_self like)).mono
        (Nat.le_of_lt (List.getElem?_eq_some_iff.mp hindex).1)
      show (Ref.valueFrom begun code.round.steps like).type? = _
      rw [hfirst.value_eq h.first hknown, hsecond.value_eq h.second hknown]
      exact hsame

end Replayed

section Turning

variable {code : Code} {outer : Tally} {begun worked now rebegun ended : Scope State Vars}
  {next last : Raster} {conditions first : List Nat}

-- One replay: the body and then the condition.
theorem Ready.replay (h : Ready outer begun) (hholds : Holds outer code.sources)
    (hbody : code.runBody simulator begun = (.ok (), worked))
    (hcondition : code.runCondition simulator worked = (.ok next, now)) :
    Asked code outer begun code.inner next now :=
  ((Traced.body h hholds hbody).condition h hholds hcondition).2

theorem Asked.recorded (h : Asked code outer begun code.inner next now)
    (hrecorder : begun.engine.recorder = recording .firstReplay conditions [] []) :
    now.engine.recorder = recording .firstReplay conditions
      (List.range' begun.engine.nextId code.round.steps.length) [] := by
  rw [h.traced.recorder, hrecorder, recordFrom_first, List.nil_append]
  rfl

namespace Reopened

variable (h : Reopened conditions first next now rebegun)

include h

theorem ready (hready : Ready outer begun) (hfirst : Asked code outer begun code.inner next now) :
    Ready outer rebegun :=
  ⟨h.builds.looped (hfirst.traced.builds.looped hready.looped), hready.nonneg,
    h.vars ▸ h.backs _ hfirst.backs⟩

theorem replayed (hready : Ready outer begun) (hfirst : Asked code outer begun code.inner next now)
    (hsecond : Asked code outer rebegun code.inner last ended) :
    Replayed code outer begun now rebegun ended (simulator.letGo last ended.engine) :=
  ⟨hready, h.ready hready hfirst, hfirst.traced, hsecond.traced, h.builds, h.nextId, by rw [h.vars],
    (Handled.letGo last ended.engine).toBuilds⟩

theorem recorded (hsecond : Asked code outer rebegun code.inner last ended) :
    (simulator.letGo last ended.engine).recorder = recording .secondReplay conditions first
      (List.range' rebegun.engine.nextId code.round.steps.length) := by
  rw [(Handled.letGo last ended.engine).recorder, hsecond.traced.recorder, h.recorder,
    recordFrom_second, List.nil_append]
  rfl

end Reopened

end Turning

section Accepting

variable {code : Code} {outer : Tally} {scope begun : Scope State Vars}

-- A condition that is asked as a node is a node.
theorem guardNode_ask {σ : Type} (engine : Engine σ) (code : Code) (scope : Scope σ Vars) :
    guardNode (code.ask engine) scope = code.runCondition engine scope := by
  rw [guardNode, run_bind, Code.ask, run_bind]
  rcases code.runCondition engine scope with ⟨_ | raster, after⟩ <;> rfl

theorem wrapPairs_unmalformed (pairs : List (Address × Address)) (state : State) :
    Unmalformed (Lowering.wrapPairs simulator pairs state).1 := by
  induction pairs generalizing state with
  | nil => exact .ok _
  | cons pair pairs ih =>
      obtain ⟨before, after⟩ := pair
      refine run_bind_unmalformed (wrap_unmalformed simulator after state) fun raster middle _ => ?_
      refine run_bind_unmalformed ?_ fun _ _ _ => .ok _
      have hrest := ih middle
      unfold Engine.orLetGo
      split
      · exact .ok _
      · rename_i hfails
        rw [hfails] at hrest
        exact fun other h => hrest other (congrArg Except.error (Except.error.inj h))

-- Replays that are planned are put together, and the pairs of the loop are known.
theorem assemble_unmalformed {plan : LoopPlan} (hlooped : Looped scope.engine)
    (hplan : scope.engine.recorder.plan scope.engine.nodes = .ok plan) :
    Unmalformed (Lowering.assemble simulator scope).1 ∧
      ∀ loop after, Lowering.assemble simulator scope = (.ok loop, after) →
        Unmalformed (Lowering.carried simulator loop after).1 := by
  obtain ⟨loop, state, hassemble⟩ := State.assemble_total hlooped hplan
  obtain ⟨_, _, hplaced⟩ := State.assemble_eq_ok hlooped.consistent.counted.numbered hassemble
  obtain ⟨pairs, hpairs, _⟩ := hplaced.pairs
  refine ⟨?_, fun raster after hrun => ?_⟩
  · refine run_bind_unmalformed ?_ fun node middle _ => wrap_unmalformed simulator node middle.engine
    show Unmalformed (simulator.loopAssemble scope.engine).1
    rw [hassemble]
    exact .ok _
  · obtain ⟨node, middle, hmade, hwraps⟩ := run_bind_eq_ok.mp hrun
    obtain ⟨_, hagain, rfl⟩ := onEngine_eq_ok hmade
    rw [hassemble] at hagain
    cases hagain
    obtain ⟨_, hwrap, rfl⟩ := onEngine_eq_ok hwraps
    obtain ⟨hraster, rfl⟩ := Engine.wrap_eq_ok hwrap
    refine run_bind_unmalformed ?_ fun pairs between _ => ?_
    · show Unmalformed (raster.ask simulator.loopPairs (simulator.acquire loop state)).1
      rw [Raster.ask, Raster.require, hraster]
      show Unmalformed (State.pairsOf state loop)
      rw [hpairs]
      exact .ok _
    · exact run_bind_unmalformed (wrapPairs_unmalformed _ _) fun _ _ _ => .ok _

-- What two replays of the code need to be accepted: what they look at is there, they make the same
-- of each step, and the condition and every variable that changes are made in the replay.
structure Repeatable (code : Code) (outer : Tally) (scope : Scope State Vars) : Prop where
  ready : Ready outer scope
  holds : Holds outer code.sources
  declared : scope.vars.Declares code.names
  repeats : ∀ step ∈ code.round.steps, step.Repeats scope.engine.store (code.refAfter scope 0)
    (code.refAfter scope 1)
  guard : ∃ index, code.guardRef = .step index
  ends : ∀ name, code.ends name = .start name ∨ ∃ index, code.ends name = .step index

-- The condition comes out of each replay.
theorem Repeatable.asked {now : Scope State Vars} {next : Raster}
    (h : Repeatable code outer scope) (hasked : Asked code outer begun code.inner next now) :
    ∃ index < code.round.steps.length, next.node = some (begun.engine.nextId + index) := by
  obtain ⟨index, hindex⟩ := h.guard
  have hdenotes := hasked.denotes
  have hknown := hasked.known
  rw [show code.guardIn code.inner = .step index from hindex] at hdenotes hknown
  obtain ⟨raster, hraster, hnode⟩ := hdenotes
  cases hraster
  exact ⟨index, hknown, hnode⟩

-- One replay does not find the loop malformed.
theorem replay_unmalformed {α : Type} {rest : Raster → Act State Vars α} (hready : Ready outer begun)
    (hholds : Holds outer code.sources) (hdeclared : begun.vars.Declares code.names)
    (hrest : ∀ worked next now, code.runBody simulator begun = (.ok (), worked) →
      code.runCondition simulator worked = (.ok next, now) → now.vars.Declares code.names →
      Unmalformed (rest next now).1) :
    Unmalformed ((do
      code.runBody simulator
      rest (← guardNode (code.ask simulator)) : Act State Vars α) begun).1 := by
  refine run_bind_unmalformed (Code.runBody_unmalformed hdeclared) fun _ worked hbody => ?_
  have hdeclared := Code.runBody_declares hdeclared hbody
  refine run_bind_unmalformed ?_ fun next now hnext => ?_
  · rw [guardNode_ask]
    exact Code.runCondition_unmalformed hdeclared
  · rw [guardNode_ask] at hnext
    obtain ⟨⟨state, hsame⟩, -⟩ :=
      (Traced.body hready hholds hbody).condition hready hholds hnext
    exact hrest worked next now hbody hnext (by rw [hsame]; exact hdeclared)

theorem Repeatable.recorded (h : Repeatable code outer scope) (hstage : Stage code outer scope 0 begun)
    (hdeclared : begun.vars.Declares code.names) {initial : Nat}
    (hrecorder : begun.engine.recorder = recording .firstReplay [initial] [] []) :
    Unmalformed (record simulator (code.ask simulator) (code.runBody simulator)
      simulator.followAssigned begun).1 := by
  refine replay_unmalformed hstage.ready h.holds hdeclared fun worked next now hbody hnext hdeclared => ?_
  have hfirst := hstage.ready.replay h.holds hbody hnext
  obtain ⟨index, hindex, hnode⟩ := h.asked hfirst
  have hlooped := hfirst.traced.builds.looped hstage.ready.looped
  obtain ⟨state, hagain, hreopened⟩ :=
    again_eq hlooped hnode (hfirst.live_node hstage.ready hnode) (hfirst.recorded hrecorder)
  have hletGo : afterwards (Lowering.again simulator next) (simulator.letGo next) now =
      (.ok (), { now with engine := simulator.letGo next state }) := by
    simp only [afterwards, hagain]
  generalize ({ now with engine := simulator.letGo next state } : Scope State Vars) = rebegun
    at hreopened hletGo
  -- the second replay
  have hready := hreopened.ready hstage.ready hfirst
  have hworked := hstage.next (Traced.body hstage.ready h.holds hbody)
  obtain ⟨hasks, hkept⟩ := hworked.ready.asks h.holds hnext
  have hrestage : Stage code outer scope 1 rebegun :=
    hworked.builds (hasks.trans hreopened.builds) (by rw [hreopened.vars, hkept]) hready.backs
  refine run_bind_unmalformed (by rw [hletGo]; exact .ok _) fun _ _ hsame => ?_
  cases hletGo.symm.trans hsame
  refine replay_unmalformed hready h.holds (hreopened.vars ▸ hdeclared)
    fun reworked last ended hrebody hlast _ => ?_
  have hsecond := hready.replay h.holds hrebody hlast
  refine run_bind_unmalformed (.ok _) fun _ _ hchange => ?_
  cases hchange
  have hreplayed := hreopened.replayed hstage.ready hfirst hsecond
  have hfinal := hreopened.recorded hsecond
  have hlooped : Looped
      ({ ended with engine := simulator.letGo last ended.engine } : Scope State Vars).engine :=
    hreplayed.builds.looped (hsecond.traced.builds.looped hready.looped)
  obtain ⟨plan, hplan⟩ := hlooped.planned (by rw [hfinal]; rfl) <| by
    refine hreplayed.alignable (by rw [hfinal]; rfl) (by rw [hfinal]; rfl) h.ends
      (hreplayed.repeats hstage hrestage h.repeats) (by rw [hfinal]; rfl) ?_
    rw [hfinal, recording, List.mem_range'_1]
    exact ⟨Nat.le_add_right _ _, Nat.add_lt_add_left hindex _⟩
  obtain ⟨hassembled, hcarried⟩ := assemble_unmalformed hlooped hplan
  refine run_bind_unmalformed hassembled fun loop after hloop => ?_
  exact onFailure_unmalformed
    (run_bind_unmalformed (hcarried loop after hloop) fun _ _ _ => Unmalformed.ok loop) _

-- Loops whose replays ask for the same, with arguments that compare equal to themselves and masks of
-- rasters that keep their type, are never found to be malformed.
theorem repeatable_loop_accepted (h : Repeatable code outer scope)
    (hphase : scope.engine.recorder.phase = .idle) (hlowering : scope.lowering = false) :
    ∀ problem, (whileLoop simulator (code.ask simulator) (code.runBody simulator) scope).1 ≠
      .error (.malformedLoop problem) := by
  have hidle := h.ready.looped.consistent.idle hphase
  refine run_bind_unmalformed ?_ fun found asked hfound => ?_
  · exact run_bind_unmalformed (Code.runCondition_unmalformed h.declared) fun _ _ _ => .ok _
  obtain ⟨guard, _, hcondition, hreturn⟩ := run_bind_eq_ok.mp hfound
  cases hreturn
  have hfresh : Traced outer scope .fresh [] scope := Traced.fresh h.ready
  obtain ⟨⟨state, hsame⟩, hasked⟩ := hfresh.condition h.ready h.holds hcondition
  obtain ⟨node, hnode⟩ := Option.ne_none_iff_exists'.mp hasked.proper
  have hlooped := hasked.traced.builds.looped h.ready.looped
  have hlive : asked.engine.nodes.contains node = true := by
    have hthere := hasked.live h.ready
    rw [Raster.address, hnode] at hthere
    exact hthere
  have hstill : asked.engine.recorder = .idle := by
    rw [hasked.traced.recorder, hidle, recordFrom_idle]
  refine afterwards_unmalformed (run_bind_unmalformed (.ok _) fun _ _ hget => ?_) _
  cases hget
  refine run_bind_unmalformed ?_ fun _ _ _ => .ok _
  have hcleared : Looped
      ({ asked with vars := asked.vars.clearAssigned } : Scope State Vars).engine := hlooped
  obtain ⟨opened, hstart, hbuilds, hrecorder, hbacks⟩ :=
    start_eq hcleared hnode hlive (by rw [hsame]; exact hlowering) hstill
  have hslots : asked.vars.clearAssigned.slots = scope.vars.slots := by rw [hsame]; rfl
  have hbegin : Stage code outer scope 0 scope := .begin h.ready
  have hstage : Stage code outer scope 0
      { engine := opened, lowering := true, vars := asked.vars.clearAssigned } :=
    hbegin.builds (hasked.traced.builds.trans hbuilds) hslots
      (hbacks _ (hasked.backs.mono (le_add_of_nonneg_right guard.held_nonneg)))
  have hdeclared : asked.vars.clearAssigned.Declares code.names := by
    rw [hsame]
    exact h.declared
  refine run_bind_unmalformed (by rw [hstart]; exact .ok _) fun _ _ hopen => ?_
  cases hstart.symm.trans hopen
  refine run_bind_unmalformed
    (onFailure_unmalformed (h.recorded hstage hdeclared hrecorder) _) fun loop ended _ => ?_
  exact run_bind_unmalformed (onFailure_unmalformed (Unmalformed.ok ()) _) fun _ _ _ => .ok _

end Accepting

-- Counting by a fixed step up to three.
def counting (step : Scalar) : Code where
  condition := [.constant (.s32 3) (.single .s32), .binary (.named "x") (.result 0) .lt]
  guard := .result 1
  body := [.call (.constant step (.single step.dtype)),
    .call (.binary (.named "x") (.result 0) .add), .assign "x" (.result 1)]

-- The same with what a mask leaves of the variable.
def masking (step : Scalar) : Code where
  condition := (counting step).condition
  guard := .result 1
  body := [.call (.constant (.bool true) (.single .b8)),
    .call (.conditional (.result 0) (.named "x") .absent),
    .call (.constant step (.single step.dtype)),
    .call (.binary (.result 1) (.result 2) .add), .assign "x" (.result 3)]

-- A variable that is zero.
def zeroed : Scope State Vars where
  engine := (State.empty 5 none).afterCalls
    [.construct (.constant (.s32 0) (.single .s32)), .acquire 1]
  lowering := false
  vars := ⟨.append .empty "x" (.node (.on 1 nofun)), []⟩

theorem zeroed_ready : Ready 0 zeroed where
  looped := ((Reachable.empty 5 none).calls
    [.construct (.constant (.s32 0) (.single .s32)), .acquire 1] (by decide)).looped
  nonneg := le_refl 0
  backs := by
    have hnone : ∀ state, Backs state 0 := fun _ _ => Int.natCast_nonneg _
    have hheld : zeroed.vars.held + 0 = 0 + Tally.one 1 := by
      show Tally.one 1 + 0 + 0 = _
      abel
    rw [hheld]
    exact (hnone _).acquire rfl

theorem zeroed_declares {names : List String} (h : ∀ name ∈ names, name = "x") :
    zeroed.vars.Declares names := by
  intro name hname
  rw [h name hname]
  exact ⟨_, rfl⟩

theorem counting_declared (step : Scalar) : zeroed.vars.Declares (counting step).names := by
  refine zeroed_declares fun name hname => ?_
  simpa [Code.names, counting, Instruction.names, Source.names, Request.nodes] using hname

theorem masking_declared (step : Scalar) : zeroed.vars.Declares (masking step).names := by
  refine zeroed_declares fun name hname => ?_
  simpa [Code.names, masking, counting, Instruction.names, Source.names, Request.nodes] using hname

theorem counting_holds (step : Scalar) : Holds 0 (counting step).sources := by
  intro raster hraster
  simp [Code.sources, counting, Instruction.sources, Request.nodes] at hraster

theorem masking_holds (step : Scalar) : Holds 0 (masking step).sources := by
  intro raster hraster
  simp [Code.sources, masking, counting, Instruction.sources, Request.nodes] at hraster

theorem counting_ends (step : Scalar) (name : String) :
    (counting step).ends name = .start name ∨ ∃ index, (counting step).ends name = .step index := by
  by_cases hname : name = "x"
  · exact Or.inr ⟨1, if_pos hname⟩
  · exact Or.inl (if_neg hname)

theorem masking_ends (step : Scalar) (name : String) :
    (masking step).ends name = .start name ∨ ∃ index, (masking step).ends name = .step index := by
  by_cases hname : name = "x"
  · exact Or.inr ⟨4, if_pos hname⟩
  · exact Or.inl (if_neg hname)

theorem counting_repeatable : Repeatable (counting (.s32 1)) 0 zeroed := by
  refine ⟨zeroed_ready, counting_holds _, counting_declared _, fun step hstep => ?_, ⟨3, rfl⟩,
    counting_ends _⟩
  have hsteps : (counting (.s32 1)).round.steps =
    [.node (.constant (.s32 1) (.single .s32)), .node (.binary (.start "x") (.step 0) .add),
      .node (.constant (.s32 3) (.single .s32)), .node (.binary (.step 1) (.step 2) .lt)] := rfl
  simp only [hsteps, List.mem_cons, List.not_mem_nil, or_false] at hstep
  obtain rfl | rfl | rfl | rfl := hstep
  · rintro held ⟨⟩
    rfl
  · trivial
  · rintro held ⟨⟩
    rfl
  · trivial

-- The mask takes two steps: first there is a zero of the variable's type.
theorem masking_repeatable : Repeatable (masking (.s32 1)) 0 zeroed := by
  refine ⟨zeroed_ready, masking_holds _, masking_declared _, fun step hstep => ?_, ⟨6, rfl⟩,
    masking_ends _⟩
  have hsteps : (masking (.s32 1)).round.steps =
    [.node (.constant (.bool true) (.single .b8)), .zero (.start "x"),
      .node (.conditional (.step 0) (.start "x") (.step 1)),
      .node (.constant (.s32 1) (.single .s32)), .node (.binary (.step 2) (.step 3) .add),
      .node (.constant (.s32 3) (.single .s32)), .node (.binary (.step 4) (.step 5) .lt)] := rfl
  simp only [hsteps, List.mem_cons, List.not_mem_nil, or_false] at hstep
  obtain rfl | rfl | rfl | rfl | rfl | rfl | rfl := hstep
  · rintro held ⟨⟩
    rfl
  · show (_ : Option DataType) = _
    decide +kernel
  · trivial
  · rintro held ⟨⟩
    rfl
  · trivial
  · rintro held ⟨⟩
    rfl
  · trivial

-- Counting by one is accepted, with a mask and without one.
theorem counting_accepted :
    (Repeatable (counting (.s32 1)) 0 zeroed ∧
      ∀ problem, (whileLoop simulator ((counting (.s32 1)).ask simulator)
        ((counting (.s32 1)).runBody simulator) zeroed).1 ≠ .error (.malformedLoop problem)) ∧
    Repeatable (masking (.s32 1)) 0 zeroed ∧
      ∀ problem, (whileLoop simulator ((masking (.s32 1)).ask simulator)
        ((masking (.s32 1)).runBody simulator) zeroed).1 ≠ .error (.malformedLoop problem) :=
  ⟨⟨counting_repeatable, repeatable_loop_accepted counting_repeatable rfl rfl⟩, masking_repeatable,
    repeatable_loop_accepted masking_repeatable rfl rfl⟩

-- Whether two replays were found to differ in a step.
def divergesAt (step : Nat) (result : Except MapError (Option Raster)) : Bool :=
  match result with
  | .error (.malformedLoop (.divergence found _ _)) => found == step
  | _ => false

theorem eq_of_divergesAt {step : Nat} {result : Except MapError (Option Raster)}
    (h : divergesAt step result = true) :
    ∃ first second, result = .error (.malformedLoop (.divergence step first second)) := by
  unfold divergesAt at h
  split at h
  · rw [beq_iff_eq.mp h]
    exact ⟨_, _, rfl⟩
  · cases h

-- Counting by what is not a number is found to be malformed, though both replays ask for the same.
-- So is a mask of a variable that becomes another type in the first replay.
theorem undefined_step_rejected :
    (let code := counting (.f32 (Number.narrow Number.notANumber))
    Ready 0 zeroed ∧ Holds 0 code.sources ∧ zeroed.vars.Declares code.names ∧
      (∃ index, code.guardRef = .step index) ∧
      (∀ name, code.ends name = .start name ∨ ∃ index, code.ends name = .step index) ∧
      ∃ first second, (whileLoop simulator (code.ask simulator) (code.runBody simulator) zeroed).1 =
        .error (.malformedLoop (.divergence 0 first second))) ∧
    let code := masking (.f32 1)
    Ready 0 zeroed ∧ Holds 0 code.sources ∧ zeroed.vars.Declares code.names ∧
      (∃ index, code.guardRef = .step index) ∧
      (∀ name, code.ends name = .start name ∨ ∃ index, code.ends name = .step index) ∧
      ∃ first second, (whileLoop simulator (code.ask simulator) (code.runBody simulator) zeroed).1 =
        .error (.malformedLoop (.divergence 1 first second)) :=
  ⟨⟨zeroed_ready, counting_holds _, counting_declared _, ⟨3, rfl⟩, counting_ends _,
      eq_of_divergesAt (by decide +kernel)⟩,
    zeroed_ready, masking_holds _, masking_declared _, ⟨6, rfl⟩, masking_ends _,
      eq_of_divergesAt (by decide +kernel)⟩

end Loop

end MapAlgebra
