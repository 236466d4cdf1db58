import MapAlgebra.Proofs.Graph.Calls
import MapAlgebra.Proofs.Graph.Collect

namespace MapAlgebra.Graph

-- A node keeps its operation, its inputs and what is known about its data, but for the stream.
structure Node.Keeps (old new : Node) : Prop where
  kind : new.kind = old.kind
  inputs : new.inputs = old.inputs
  info : new.info = { old.info with stream := new.info.stream }

namespace Node.Keeps

theorem refl (node : Node) : node.Keeps node := ⟨rfl, rfl, rfl⟩

theorem trans {a b c : Node} (hab : a.Keeps b) (hbc : b.Keeps c) : a.Keeps c :=
  ⟨hbc.kind.trans hab.kind, hbc.inputs.trans hab.inputs, by rw [hbc.info, hab.info]⟩

theorem users (node : Node) (users : Nat) : node.Keeps { node with users } := ⟨rfl, rfl, rfl⟩

theorem refs (node : Node) (refs : Nat) : node.Keeps { node with refs } := ⟨rfl, rfl, rfl⟩

theorem stream (node : Node) (stream : Stream) :
    node.Keeps { node with info := { node.info with stream } } := ⟨rfl, rfl, rfl⟩

end Node.Keeps

-- The nodes that changes can add to a graph.
inductive Born (state : State) : Node → Prop
  | plain {node : Node} (hplain : node.kind.isPlain = true)
      (hinputs : ∀ input ∈ node.inputs, state.nodes.contains input = true) : Born state node
  | loop {node : Node} {plan : LoopPlan} (hplan : state.recorder.plan state.nodes = .ok plan)
      (hkind : node.kind = .loop plan) (hinputs : node.inputs = plan.body ++ plan.externals) :
      Born state node
  | tail {node loop : Node} {plan : LoopPlan} {index : Nat} {id : Nat}
      (hphase : state.recorder.phase = .assembled) (hloop : state.nodes.get? id = some loop)
      (hplan : loop.kind = .loop plan) (hindex : index < plan.carried.length)
      (hkind : node.kind = .loopTail index) (hinputs : node.inputs = [id]) : Born state node

-- Where the nodes and the computed grids of a graph come from.
structure Follows (before after : State) : Prop where
  node : ∀ {id node}, after.nodes.get? id = some node →
    (∃ old, before.nodes.get? id = some old ∧ old.Keeps node) ∨
      (id = before.nextId ∧ before.nextId < after.nextId ∧ Born before node)
  computed : ∀ {id grid}, after.computed.get? id = some grid →
    before.computed.get? id = some grid ∨ ∃ nodes grids,
      before.evaluateAll nodes = .ok grids ∧ (id, grid) ∈ nodes.zip grids
  next : before.nextId ≤ after.nextId
  limit : after.limit = before.limit

namespace State

theorem frees_endHold (state : State) (node : Nat) : Frees state (state.endHold node) := by
  have hdrop : Frees state { state with nodes := dropUser state.nodes node } := by
    have hget := fun id => get?_dropUsers [node] state.nodes id
    simp only [List.foldl_cons, List.foldl_nil] at hget
    refine ⟨rfl, fun hinfo => ?_, fun hold _ => ?_, fun hgrid => hgrid⟩
    · rw [hget] at hinfo
      obtain ⟨old, hold, rfl⟩ := Option.map_eq_some_iff.mp hinfo
      exact ⟨old, hold, rfl⟩
    · rw [hget, hold]
      exact ⟨_, rfl⟩
  exact hdrop.trans (frees_collect _ node)

theorem frees_endLoop (state : State) :
    Frees { state with recorder := .idle } state.endLoop := by
  have hfold : ∀ (holds : List Nat) (state : State),
      Frees state (holds.foldl State.endHold state) := by
    intro holds
    induction holds with
    | nil => exact Frees.refl
    | cons node holds ih => exact fun state => (frees_endHold state node).trans (ih _)
  exact hfold _ _

theorem Frees.keeps {before after : State} (h : Frees before after) {id : Nat} {node : Node}
    (hnode : after.nodes.get? id = some node) :
    ∃ old, before.nodes.get? id = some old ∧ old.Keeps node := by
  obtain ⟨old, hold, hinfo⟩ := h.kept hnode
  rw [hinfo]
  exact ⟨old, hold, .users old _⟩

theorem Frees.recorder {before after : State} (h : Frees before after) :
    after.recorder = before.recorder := by rw [h.frame]

theorem Frees.follows {before middle after : State} (h : Frees middle after)
    (hnode : ∀ {id node}, middle.nodes.get? id = some node →
      ∃ old, before.nodes.get? id = some old ∧ old.Keeps node)
    (hcomputed : middle.computed = before.computed) (hnext : middle.nextId = before.nextId)
    (hlimit : middle.limit = before.limit) : Follows before after where
  node hafter := by
    obtain ⟨old, hold, hkeeps⟩ := h.keeps hafter
    obtain ⟨oldest, holdest, hfirst⟩ := hnode hold
    exact Or.inl ⟨oldest, holdest, hfirst.trans hkeeps⟩
  computed hgrid := Or.inl (hcomputed ▸ h.computed hgrid)
  next := by rw [h.frame]; exact Nat.le_of_eq hnext.symm
  limit := by rw [h.frame]; exact hlimit

-- Changing nodes without changing what they are.
theorem keeps_modify {state : State} {node : Nat} {f : Node → Node}
    (hf : ∀ info : Node, info.Keeps (f info)) {id : Nat} {info : Node}
    (h : (state.nodes.modify node f).get? id = some info) :
    ∃ old, state.nodes.get? id = some old ∧ old.Keeps info := by
  rw [Table.get?_modify] at h
  split at h
  · obtain ⟨old, hold, rfl⟩ := Option.map_eq_some_iff.mp h
    exact ⟨old, hold, hf old⟩
  · exact ⟨info, h, .refl info⟩

-- Letting go of a handle does nothing or takes the handle away and collects what is dead.
theorem release_cases (state : State) (node : Address) : state.release node = state ∨
    ∃ info, state.nodes.get? node = some info ∧ 0 < info.refs ∧
      state.release node = State.collect { state with
        nodes := state.nodes.modify node fun info => { info with refs := info.refs - 1 } } node := by
  unfold release
  split
  · rename_i info hinfo
    split
    · rename_i hrefs
      exact Or.inr ⟨info, hinfo, hrefs, rfl⟩
    · exact Or.inl rfl
  · exact Or.inl rfl

theorem addCondition_eq_ok {state after : State} {node : Address}
    (h : state.addCondition node = .ok after) : ∃ info recorder,
      state.nodes.get? node = some info ∧ state.recorder.addCondition node = .ok recorder ∧
        after = { state with recorder, nodes := addUser state.nodes node } := by
  obtain ⟨info, hinfo, h⟩ := bind_eq_ok.mp h
  obtain ⟨recorder, hrecorder, h⟩ := bind_eq_ok.mp h
  exact ⟨info, recorder, (find_eq_ok hinfo).2, hrecorder, (pure_eq_ok.mp h).symm⟩

theorem follows_create {state : State} {kind : NodeKind} {inputs : List Nat} {info : Meta}
    (recorder : Recorder) (hborn : ∀ refs users, Born state ⟨kind, inputs, info, refs, users⟩) :
    Follows state ({ state with recorder }.create kind inputs info).2 where
  node h := by
    rw [get?_create] at h
    split at h
    · rename_i hid
      cases h
      exact Or.inr ⟨hid, Nat.lt_succ_self _, hborn _ _⟩
    · obtain ⟨old, hold, rfl⟩ := Option.map_eq_some_iff.mp h
      exact Or.inl ⟨old, hold, .users old _⟩
  computed := Or.inl
  next := Nat.le_succ _
  limit := rfl

end State

open State in
-- Nothing that a change leaves is made up.
theorem Change.follows {before after : State} (h : Change before after) :
    Follows before after := by
  have hkept : ∀ {after : State}, (∀ {id node}, after.nodes.get? id = some node →
      ∃ old, before.nodes.get? id = some old ∧ old.Keeps node) → after.computed = before.computed →
      after.nextId = before.nextId → after.limit = before.limit → Follows before after :=
    fun hnode hcomputed hnext hlimit => (Frees.refl _).follows hnode hcomputed hnext hlimit
  cases h with
  | equip store ranks devices => exact hkept (fun h => ⟨_, h, .refl _⟩) rfl rfl rfl
  | mark node stream => exact hkept (keeps_modify fun info => .stream info stream) rfl rfl rfl
  | compute hnull hgrids =>
      refine ⟨fun h => Or.inl ⟨_, h, .refl _⟩, fun h => ?_, Nat.le_refl _, rfl⟩
      exact (Table.get?_insertAll_eq_some _ _ _ _ h).symm.imp_right fun h => ⟨_, _, hgrids, h⟩
  | acquire node => exact hkept (keeps_modify fun info => .refs info _) rfl rfl rfl
  | release node =>
      obtain h | ⟨info, hinfo, hrefs, h⟩ := before.release_cases node
      · rw [h]
        exact hkept (fun h => ⟨_, h, .refl _⟩) rfl rfl rfl
      · rw [h]
        exact (frees_collect _ node).follows (keeps_modify fun info => .refs info _) rfl rfl rfl
  | create info hplain hinputs =>
      exact follows_create before.recorder fun _ _ => .plain hplain hinputs
  | start hphase => exact hkept (fun h => ⟨_, h, .refl _⟩) rfl rfl rfl
  | condition h =>
      obtain ⟨info, recorder, hinfo, hrecorder, rfl⟩ := addCondition_eq_ok h
      exact hkept (keeps_modify fun info => .users info _) rfl rfl rfl
  | replay h => exact hkept (fun h => ⟨_, h, .refl _⟩) rfl rfl rfl
  | close hphase => exact hkept (fun h => ⟨_, h, .refl _⟩) rfl rfl rfl
  | loop info hplan =>
      exact follows_create before.recorder.close fun _ _ => .loop hplan rfl rfl
  | tail info hphase hloop hkind hindex =>
      exact follows_create before.recorder fun _ _ =>
        .tail hphase hloop hkind hindex rfl rfl
  | pair loop pairs hphase => exact hkept (fun h => ⟨_, h, .refl _⟩) rfl rfl rfl
  | finish => exact (frees_endLoop before).follows (fun h => ⟨_, h, .refl _⟩) rfl rfl rfl

end MapAlgebra.Graph
