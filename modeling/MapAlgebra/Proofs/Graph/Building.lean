import MapAlgebra.Proofs.Graph.Recording
import MapAlgebra.Proofs.Graph.Requests
import MapAlgebra.Proofs.Handles.Rasters

namespace MapAlgebra

-- Rasters with the same node are the same.
theorem Raster.eq_of_node {a b : Raster} (h : a.node = b.node) : a = b := by
  cases a
  cases b
  cases h
  rfl

theorem Engine.wrap_eq_ok {σ : Type} {engine : Engine σ} {node : Address} {raster : Raster}
    {state after : σ} (h : engine.wrap node state = (.ok raster, after)) :
    raster.node = some node ∧ after = engine.acquire node state := by
  unfold Engine.wrap at h
  split at h
  · cases h
  · cases h
    exact ⟨rfl, rfl⟩

namespace Graph

-- A successful request places a node as it was drafted.
theorem construct_placed {request : Construction} {node : Address} {state after : State}
    (h : simulator.construct request state = (.ok node, after)) :
    ∃ draft, state.draft request = .ok draft ∧ (node, after) = state.place request draft := by
  have hrun : atomically (·.construct request) state = (.ok node, after) := h
  obtain ⟨draft, hdraft, hplaced⟩ := bind_eq_ok.mp (atomically_eq_ok hrun)
  exact ⟨draft, hdraft, (pure_eq_ok.mp hplaced).symm⟩

-- The same with a handle on the node.
theorem make_placed {request : Construction} {raster : Raster} {state after : State}
    (h : simulator.make request state = (.ok raster, after)) :
    ∃ draft node made, state.draft request = .ok draft ∧ (node, made) = state.place request draft ∧
      raster.node = some node ∧ after = made.acquire node := by
  obtain ⟨node, made, hconstruct, hwrap⟩ := run_bind_eq_ok.mp h
  obtain ⟨hnode, rfl⟩ := Engine.wrap_eq_ok hwrap
  obtain ⟨draft, hdraft, hplaced⟩ := construct_placed hconstruct
  exact ⟨draft, node, made, hdraft, hplaced, hnode, rfl⟩

-- When nothing that it needs is missing, it is the next node.
theorem construct_eq_ok {request : Construction} {node : Address} {state after : State}
    (h : simulator.construct request state = (.ok node, after))
    (hthere : ∀ node ∈ request.required, node ≠ Address.null) :
    ∃ draft, state.draft request = .ok draft ∧ node = state.nextId ∧
      after = (state.create draft.kind (request.inputs (· = Address.null) Address.null)
        draft.info).2 := by
  obtain ⟨draft, hdraft, hplaced⟩ := construct_placed h
  have hstandIn : draft.standIn = none :=
    draftOf_standIn hdraft fun node hnode => decide_eq_false (hthere node hnode)
  rw [State.place, hstandIn, State.createZero] at hplaced
  cases hplaced
  exact ⟨draft, hdraft, rfl, rfl⟩

theorem make_eq_ok {request : Construction} {raster : Raster} {state after : State}
    (h : simulator.make request state = (.ok raster, after))
    (hthere : ∀ node ∈ request.required, node ≠ Address.null) :
    ∃ draft, state.draft request = .ok draft ∧ raster.node = some state.nextId ∧
      after = (state.create draft.kind (request.inputs (· = Address.null) Address.null)
        draft.info).2.acquire state.nextId := by
  obtain ⟨node, middle, hconstruct, hwrap⟩ := run_bind_eq_ok.mp h
  obtain ⟨hnode, rfl⟩ := Engine.wrap_eq_ok hwrap
  obtain ⟨draft, hdraft, rfl, rfl⟩ := construct_eq_ok hconstruct hthere
  exact ⟨draft, hdraft, hnode, rfl⟩

-- A graph that grows by building. What is known about a node never changes, and neither does the
-- store.
structure Builds (before after : State) : Prop where
  changes : Changes before after
  node : ∀ {id node}, after.nodes.get? id = some node → id < before.nextId →
    ∃ old, before.nodes.get? id = some old ∧ old.Keeps node ∧ node.info = old.info
  store : after.store = before.store
  next : before.nextId ≤ after.nextId

theorem Changes.onward {before after : State} (h : Changes before after) : Onward before after := by
  induction h with
  | refl => exact .refl _
  | tail _ hchange ih => exact ih.trans hchange.follows.onward

namespace Builds

variable {before after : State}

theorem refl (state : State) : Builds state state :=
  ⟨.refl, fun h _ => ⟨_, h, .refl _, rfl⟩, rfl, Nat.le_refl _⟩

theorem trans {a b c : State} (hab : Builds a b) (hbc : Builds b c) : Builds a c where
  changes := hab.changes.trans hbc.changes
  node hnode hold := by
    have hnext := hab.next
    obtain ⟨middle, hmiddle, hlast, hinfo⟩ := hbc.node hnode (by omega)
    obtain ⟨old, hold, hfirst, hsame⟩ := hab.node hmiddle hold
    exact ⟨old, hold, hfirst.trans hlast, hinfo.trans hsame⟩
  store := hbc.store.trans hab.store
  next := Nat.le_trans hab.next hbc.next

-- A change of the recorder or of counts.
theorem of_change (hchange : Change before after) (hstore : after.store = before.store)
    (hnext : after.nextId = before.nextId)
    (hnode : ∀ {id node}, after.nodes.get? id = some node →
      ∃ old, before.nodes.get? id = some old ∧ old.Keeps node ∧ node.info = old.info) :
    Builds before after :=
  ⟨.single hchange, fun h _ => hnode h, hstore, Nat.le_of_eq hnext.symm⟩

theorem acquire (state : State) (node : Address) : Builds state (state.acquire node) := by
  refine .of_change (.acquire state node) rfl rfl fun {id info} h => ?_
  rw [State.acquire, Table.get?_modify] at h
  split at h
  · obtain ⟨old, hold, rfl⟩ := Option.map_eq_some_iff.mp h
    exact ⟨old, hold, .refs old _, rfl⟩
  · exact ⟨info, h, .refl info, rfl⟩

theorem release (state : State) (node : Address) : Builds state (state.release node) := by
  obtain hsame | ⟨info, hinfo, hrefs, hrelease⟩ := state.release_cases node
  · rw [hsame]
    exact .refl state
  · have hfrees := State.frees_collect
      { state with nodes := state.nodes.modify node fun info => { info with refs := info.refs - 1 } }
      node
    have hframe := hfrees.frame
    rw [← hrelease] at hfrees hframe
    refine .of_change (.release state node) (by rw [hframe]) (by rw [hframe]) fun {id info} h => ?_
    obtain ⟨middle, hmiddle, hkept⟩ := hfrees.kept h
    rw [hkept]
    rw [Table.get?_modify] at hmiddle
    split at hmiddle
    · obtain ⟨old, hold, rfl⟩ := Option.map_eq_some_iff.mp hmiddle
      exact ⟨old, hold, ⟨rfl, rfl, rfl⟩, rfl⟩
    · exact ⟨middle, hmiddle, .users middle _, rfl⟩

theorem create {kind : NodeKind} {inputs : List Nat} (info : Meta) (hplain : kind.isPlain = true)
    (hinputs : ∀ input ∈ inputs, before.nodes.contains input = true) :
    Builds before (before.create kind inputs info).2 where
  changes := .single (.create info hplain hinputs)
  node {id node} h hlt := by
    rw [State.get?_create, if_neg (by omega)] at h
    obtain ⟨old, hold, rfl⟩ := Option.map_eq_some_iff.mp h
    exact ⟨old, hold, .users old _, rfl⟩
  store := rfl
  next := Nat.le_succ _

theorem looped (h : Builds before after) (hbefore : Looped before) : Looped after :=
  hbefore.changes h.changes

end Builds

-- Handles were taken or let go, and nothing else happened.
structure Handled (before after : State) : Prop extends Builds before after where
  nextId : after.nextId = before.nextId
  recorder : after.recorder = before.recorder

namespace Handled

theorem refl (state : State) : Handled state state := ⟨.refl state, rfl, rfl⟩

theorem trans {a b c : State} (hab : Handled a b) (hbc : Handled b c) : Handled a c :=
  ⟨hab.toBuilds.trans hbc.toBuilds, hbc.nextId.trans hab.nextId, hbc.recorder.trans hab.recorder⟩

theorem acquire (state : State) (node : Address) : Handled state (state.acquire node) :=
  ⟨.acquire state node, rfl, rfl⟩

theorem release (state : State) (node : Address) : Handled state (state.release node) := by
  refine ⟨.release state node, ?_, ?_⟩
  all_goals
    obtain hsame | ⟨_, _, _, hrelease⟩ := state.release_cases node
    · rw [hsame]
    · rw [hrelease, (State.frees_collect _ node).frame]

theorem letGo (raster : Raster) (state : State) :
    Handled state (simulator.letGo raster state) := by
  unfold Engine.letGo
  split
  · exact .release state _
  · exact .refl state

theorem letGoOperand (operand : Operand) (state : State) :
    Handled state (simulator.letGoOperand operand state) := by
  cases operand with
  | node raster => exact .letGo raster state
  | host value => exact .refl state

end Handled

-- What is known about a node, and its grid.
structure Value where
  info : Except MapError Meta
  grid : Except MapError Grid

namespace State

def valueOf (state : State) (node : Address) : Value := ⟨state.info node, state.gridOf node⟩

end State

-- A node that is still there has the value that it had.
theorem Builds.valueOf_eq {before after : State} (h : Builds before after) (hbefore : Looped before)
    {node : Address} (hlive : after.nodes.contains node = true) (hold : node < before.nextId) :
    after.valueOf node = before.valueOf node := by
  have hafter := h.looped hbefore
  have hnumbered := hbefore.consistent.counted.numbered
  have hnumberedAfter := hafter.consistent.counted.numbered
  obtain ⟨info, hinfo⟩ := (Table.contains_iff _ _).mp hlive
  obtain ⟨old, hthere, _, hsame⟩ := h.node hinfo hold
  have hgrid : after.gridOf node = before.gridOf node :=
    hbefore.consistent.gridOf_eq hafter.consistent h.changes.onward hlive hold
  have hknown : after.info node = before.info node := by
    rw [State.info, State.info, State.find_eq hnumberedAfter hinfo, State.find_eq hnumbered hthere]
    exact congrArg Except.ok hsame
  rw [State.valueOf, State.valueOf, hknown, hgrid]

-- A node that is there before and after has the value that it had.
theorem Builds.valueOf_live {before after : State} (h : Builds before after) (hbefore : Looped before)
    {node : Address} (hthere : before.nodes.contains node = true)
    (hstays : after.nodes.contains node = true) : after.valueOf node = before.valueOf node :=
  h.valueOf_eq hbefore hstays (hbefore.consistent.counted.numbered.lt_next hthere)

theorem ne_null_of_contains {state : State} (h : Looped state) {node : Address}
    (hlive : state.nodes.contains node = true) : node ≠ Address.null := by
  obtain ⟨info, hinfo⟩ := (Table.contains_iff _ _).mp hlive
  exact (h.consistent.counted.numbered.range hinfo).1.ne'

-- Every handle of a tally is one that the graph knows of.
def Backs (state : State) (tally : Tally) : Prop :=
  ∀ node, tally node ≤ ((state.refCount node).getD 0 : Nat)

namespace Backs

variable {state after : State} {tally : Tally}

theorem live (h : Backs state tally) {node : Address} (hheld : 0 < tally node) :
    state.nodes.contains node = true := by
  have hle := h node
  cases hnode : state.nodes.get? node with
  | none =>
      simp only [State.refCount, hnode, Option.map_none, Option.getD_none] at hle
      omega
  | some info => exact (Table.contains_iff _ _).mpr ⟨info, hnode⟩

theorem of_refCount (h : Backs state tally)
    (hsame : ∀ node, (state.refCount node).getD 0 ≤ (after.refCount node).getD 0) :
    Backs after tally := by
  intro node
  have hle := h node
  have hcount := hsame node
  omega

theorem mono {small : Tally} (h : Backs state tally) (hle : small ≤ tally) : Backs state small := by
  intro node
  have hsmall : small node ≤ tally node := hle node
  have hlarge := h node
  omega

theorem acquire (h : Backs state tally) {node : Address}
    (hlive : state.nodes.contains node = true) :
    Backs (state.acquire node) (tally + Tally.one node) := by
  intro other
  have hle := h other
  simp only [State.refCount, State.acquire, Table.get?_modify, Pi.add_apply, Tally.one] at hle ⊢
  by_cases hsame : other = node
  · subst hsame
    obtain ⟨info, hinfo⟩ := (Table.contains_iff _ _).mp hlive
    simp only [hinfo, Option.map_some, Option.getD_some] at hle
    simp only [if_true, hinfo, Option.map_some, Option.getD_some]
    omega
  · simp only [if_neg hsame, add_zero]
    exact hle

-- Only nodes without handles are freed.
theorem frees (h : Backs state tally) (hfrees : State.Frees state after) : Backs after tally := by
  refine h.of_refCount fun node => ?_
  cases hold : state.nodes.get? node with
  | none => simp [State.refCount, hold]
  | some old =>
      cases hnew : after.nodes.get? node with
      | none =>
          have hzero : old.refs = 0 := by
            by_contra hrefs
            obtain ⟨info, hinfo⟩ := hfrees.stays hold (Nat.pos_of_ne_zero hrefs)
            rw [hnew] at hinfo
            cases hinfo
          simp [State.refCount, hold, hzero]
      | some info =>
          obtain ⟨found, hfound, hinfo⟩ := hfrees.kept hnew
          rw [hold] at hfound
          cases hfound
          have hrefs : info.refs = old.refs := by rw [hinfo]
          simp [State.refCount, hold, hnew, hrefs]

theorem release {node : Address} (h : Backs state (tally + Tally.one node)) :
    Backs (state.release node) tally := by
  have hcount : ∀ other, tally other + (if other = node then 1 else 0) ≤
      ((state.refCount other).getD 0 : Nat) := h
  obtain hsame | ⟨info, hinfo, hrefs, hrelease⟩ := state.release_cases node
  · rw [hsame]
    intro other
    have hle := hcount other
    split at hle <;> omega
  · have hdropped : Backs { state with
        nodes := state.nodes.modify node fun info => { info with refs := info.refs - 1 } } tally := by
      intro other
      have hle := hcount other
      simp only [State.refCount, Table.get?_modify] at hle ⊢
      by_cases hsame : other = node
      · subst hsame
        simp only [if_true, hinfo, Option.map_some, Option.getD_some] at hle ⊢
        omega
      · simp only [if_neg hsame, add_zero] at hle ⊢
        exact hle
    rw [hrelease]
    exact hdropped.frees (State.frees_collect _ node)

theorem letGo {raster : Raster} (h : Backs state (tally + raster.held)) :
    Backs (simulator.letGo raster state) tally := by
  unfold Engine.letGo
  cases hnode : raster.node with
  | none =>
      rw [Raster.held, hnode] at h
      exact (add_zero tally).subst h
  | some node =>
      rw [Raster.held, hnode] at h
      exact h.release

theorem letGoOperand {operand : Operand} (h : Backs state (tally + operand.held)) :
    Backs (simulator.letGoOperand operand state) tally := by
  cases operand with
  | node raster => exact Backs.letGo h
  | host value => exact (add_zero tally).subst h

theorem create (h : Backs state tally) (hnumbered : State.Numbered state) (kind : NodeKind)
    (inputs : List Nat) (info : Meta) : Backs (state.create kind inputs info).2 tally := by
  refine h.of_refCount fun node => ?_
  simp only [State.refCount, State.get?_create]
  by_cases hnew : node = state.nextId
  · subst hnew
    simp [hnumbered.fresh]
  · rw [if_neg hnew]
    cases state.nodes.get? node with
    | none => exact Nat.le_refl _
    | some old => exact Nat.le_refl _

end Backs

end Graph

end MapAlgebra
