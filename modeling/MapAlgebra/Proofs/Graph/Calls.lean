import MapAlgebra.Graph.Simulation
import MapAlgebra.Proofs.Graph.Plan
import MapAlgebra.Proofs.Graph.Counts
import MapAlgebra.Proofs.Graph.Draft
import Mathlib.Logic.Relation

namespace MapAlgebra

-- What an engine can be asked about a node.
inductive Query where
  | loopPairs | value | nodeId | nodeName | stream | dataType | dimension | memOrder | size | block
  | group
deriving DecidableEq

-- A call of an engine with its arguments.
inductive Call where
  | setupDevices (platform : String) (mask : DeviceMask) (device : String)
  | setRanks (ranks : Int)
  | acquire (node : Address)
  | release (node : Address)
  | construct (request : Construction)
  | loopStart
  | loopCondition (node : Address)
  | loopReplay (next : Loop.Replay)
  | loopAssemble
  | loopEnd
  | write (node : Address) (resource : String)
  | evaluate (nodes : List Address)
  | ask (query : Query) (node : Address)

namespace Query

-- What a question does to an engine.
def after {σ : Type} (engine : Engine σ) (node : Address) (state : σ) : Query → σ
  | loopPairs => (engine.loopPairs node state).2
  | value => (engine.value node state).2
  | nodeId => (engine.nodeId node state).2
  | nodeName => (engine.nodeName node state).2
  | stream => (engine.stream node state).2
  | dataType => (engine.dataType node state).2
  | dimension => (engine.dimension node state).2
  | memOrder => (engine.memOrder node state).2
  | size => (engine.size node state).2
  | block => (engine.block node state).2
  | group => (engine.group node state).2

end Query

namespace Call

-- The nodes that a call names.
def nodes : Call → List Address
  | acquire node | release node | loopCondition node | write node _ | ask _ node => [node]
  | construct request => request.nodes
  | evaluate nodes => nodes
  | setupDevices _ _ _ | setRanks _ | loopStart | loopReplay _ | loopAssemble | loopEnd => []

-- What a call leaves of an engine, whether it succeeds or fails.
def after {σ : Type} (engine : Engine σ) (state : σ) : Call → σ
  | setupDevices platform mask device => (engine.setupDevices platform mask device state).2
  | setRanks ranks => (engine.setRanks ranks state).2
  | acquire node => engine.acquire node state
  | release node => engine.release node state
  | construct request => (engine.construct request state).2
  | loopStart => (engine.loopStart state).2
  | loopCondition node => (engine.loopCondition node state).2
  | loopReplay next => (engine.loopReplay next state).2
  | loopAssemble => (engine.loopAssemble state).2
  | loopEnd => (engine.loopEnd state).2
  | write node resource => (engine.write node resource state).2
  | evaluate nodes => (engine.evaluate nodes state).2
  | ask query node => query.after engine node state

end Call

namespace Graph

-- The graphs that calls can lead to when every node they name is the null node or still there.
-- Named grids may change from outside at any time.
inductive Reachable : State → Prop
  | empty (limit : Nat) (directory : Option Directory) : Reachable (.empty limit directory)
  | call {state : State} (call : Call) (h : Reachable state)
      (hnodes : ∀ node ∈ call.nodes, node = Address.null ∨ state.nodes.contains node = true) :
      Reachable (call.after simulator state)
  | restock {state : State} (store : Store) (h : Reachable state) : Reachable { state with store }

namespace State

-- The graph after some calls.
def afterCalls (state : State) (calls : List Call) : State :=
  calls.foldl (Call.after simulator) state

-- Whether every node that a row of calls names is the null node or there when it is named.
def admits (state : State) : List Call → Bool
  | [] => true
  | call :: calls =>
      call.nodes.all (fun node => node = Address.null || state.nodes.contains node) &&
        (call.after simulator state).admits calls

end State

theorem Reachable.calls {state : State} (h : Reachable state) (calls : List Call)
    (hcalls : state.admits calls = true) : Reachable (state.afterCalls calls) := by
  induction calls generalizing state with
  | nil => exact h
  | cons call calls ih =>
      rw [State.admits, Bool.and_eq_true, List.all_eq_true] at hcalls
      refine ih (h.call call fun node hnode => ?_) hcalls.2
      simpa using hcalls.1 node hnode

-- The changes that calls are made of.
inductive Change : State → State → Prop
  | equip (state : State) (store : Store) (ranks : Int) (devices : Option Devices) :
      Change state { state with store, ranks, devices }
  | mark (state : State) (node : Address) (stream : Stream) :
      Change state { state with
        nodes := state.nodes.modify node fun node => { node with info := { node.info with stream } } }
  | compute {state : State} {nodes : List Address} {grids : List Grid}
      (hnull : Address.null ∉ nodes) (hgrids : state.evaluateAll nodes = .ok grids) :
      Change state { state with computed := state.computed.insertAll (nodes.zip grids) }
  | acquire (state : State) (node : Address) : Change state (state.acquire node)
  | release (state : State) (node : Address) : Change state (state.release node)
  | create {state : State} {kind : NodeKind} {inputs : List Nat} (info : Meta)
      (hplain : kind.isPlain = true)
      (hinputs : ∀ input ∈ inputs, state.nodes.contains input = true) :
      Change state (state.create kind inputs info).2
  | start {state : State} (hphase : state.recorder.phase = .idle) :
      Change state { state with recorder := { state.recorder with phase := .started } }
  | condition {state after : State} {node : Address}
      (h : state.addCondition node = .ok after) : Change state after
  | replay {state : State} {next : Loop.Replay} {recorder : Recorder}
      (h : state.recorder.replay next = .ok recorder) : Change state { state with recorder }
  | close {state : State} (hphase : state.recorder.phase = .secondReplay) :
      Change state { state with recorder := state.recorder.close }
  | loop {state : State} {plan : LoopPlan} (info : Meta)
      (hplan : state.recorder.plan state.nodes = .ok plan) :
      Change state ({ state with recorder := state.recorder.close }.create (.loop plan)
        (plan.body ++ plan.externals) info).2
  | tail {state : State} {loop : Address} {node : Node} {plan : LoopPlan} {index : Nat}
      (info : Meta) (hphase : state.recorder.phase = .assembled)
      (hloop : state.nodes.get? loop = some node) (hkind : node.kind = .loop plan)
      (hindex : index < plan.carried.length) :
      Change state (state.create (.loopTail index) [loop] info).2
  | pair {state : State} (loop : Address) (pairs : List (Nat × Nat))
      (hphase : state.recorder.phase = .assembled) :
      Change state { state with recorder := state.recorder.setPairs loop pairs }
  | finish (state : State) : Change state state.endLoop

-- Any number of changes.
abbrev Changes : State → State → Prop := Relation.ReflTransGen Change

theorem atomically_induction {α : Type} {motive : State → Prop}
    {step : State → Except MapError (α × State)} {state : State} (hsame : motive state)
    (hstep : ∀ result next, step state = .ok (result, next) → motive next) :
    motive (atomically step state).2 := by
  unfold atomically
  split
  · exact hstep _ _ (by assumption)
  · exact hsame

theorem atomically_induction_ {motive : State → Prop} {step : State → Except MapError State}
    {state : State} (hsame : motive state) (hstep : ∀ next, step state = .ok next → motive next) :
    motive (atomically_ step state).2 := by
  refine atomically_induction hsame fun result next h => ?_
  obtain ⟨after, hafter, heq⟩ := map_eq_ok.mp h
  cases heq
  exact hstep _ hafter

theorem atomically_eq_ok {α : Type} {step : State → Except MapError (α × State)}
    {state after : State} {result : α} (h : atomically step state = (.ok result, after)) :
    step state = .ok (result, after) := by
  unfold atomically at h
  split at h
  · cases h
    assumption
  · cases h

theorem atomically_eq_ok_ {step : State → Except MapError State} {state after : State}
    (h : atomically_ step state = (.ok (), after)) : step state = .ok after := by
  obtain ⟨next, hnext, heq⟩ := map_eq_ok.mp (atomically_eq_ok h)
  cases heq
  exact hnext

namespace State

theorem recorder_create (state : State) (kind : NodeKind) (inputs : List Nat) (info : Meta) :
    (state.create kind inputs info).2.recorder = state.recorder.record state.nextId := rfl

end State

namespace Changes

open State

theorem construct {state next : State} {request : Construction} {node : Address}
    (h : state.construct request = .ok (node, next))
    (hnodes : ∀ node ∈ request.nodes, node = Address.null ∨ state.nodes.contains node = true) :
    Changes state next := by
  obtain ⟨draft, hdraft, h⟩ := bind_eq_ok.mp h
  have hplain := draft_plain hdraft
  have hinputs := draft_inputs hdraft hnodes
  rw [pure_eq_ok, place] at h
  cases hstandIn : draft.standIn with
  | none =>
      rw [hstandIn, createZero] at h
      obtain rfl : _ = next := congrArg Prod.snd h
      refine .single (.create draft.info hplain fun input hinput => ?_)
      obtain hlive | ⟨_, hsome⟩ := hinputs _ input hinput
      · exact hlive
      · rw [hstandIn] at hsome
        cases hsome
  | some info =>
      rw [hstandIn, createZero] at h
      obtain rfl : _ = next := congrArg Prod.snd h
      refine .tail (.single (.create info rfl (by simp))) (.create draft.info hplain ?_)
      intro input hinput
      obtain hlive | ⟨rfl, _⟩ := hinputs _ input hinput
      · exact contains_create (Or.inr hlive)
      · exact contains_create (Or.inl rfl)

theorem createTails {loop : Address} {plan : LoopPlan} {tails pairs : List (Nat × Nat)}
    {state next : State} {node : Node} (h : state.createTails loop plan tails = .ok (pairs, next))
    (hnumbered : Numbered state)
    (htails : ∀ tail ∈ tails, tail.1 < plan.carried.length)
    (hphase : state.recorder.phase = .assembled) (hloop : state.nodes.get? loop = some node)
    (hkind : node.kind = .loop plan) :
    Changes state next ∧ next.recorder.phase = .assembled := by
  induction tails generalizing state node pairs with
  | nil =>
      cases h
      exact ⟨.refl, hphase⟩
  | cons tail tails ih =>
      obtain ⟨index, feed⟩ := tail
      rw [State.createTails] at h
      obtain ⟨_, _, h⟩ := bind_eq_ok.mp h
      obtain ⟨info, _, h⟩ := bind_eq_ok.mp h
      obtain ⟨_, _, h⟩ := bind_eq_ok.mp h
      obtain ⟨⟨rest, last⟩, hrest, h⟩ := bind_eq_ok.mp h
      cases h
      have hindex : index < plan.carried.length := htails (index, feed) List.mem_cons_self
      have hcreate := Change.tail info hphase hloop hkind hindex
      have hclosed : (state.create (.loopTail index) [loop] info).2.recorder.phase =
          .assembled := by
        simp only [recorder_create, Recorder.record, hphase]
      have hkept := hnumbered.kept_create hloop (.loopTail index) [loop] info
      obtain ⟨hchanges, hlast⟩ := ih hrest (hnumbered.create _ _ _)
        (fun tail htail => htails tail (List.mem_cons_of_mem _ htail)) hclosed hkept hkind
      exact ⟨.head hcreate hchanges, hlast⟩

theorem placeLoop {plan : LoopPlan} {loop : Address} {state next : State}
    (hplan : state.recorder.plan state.nodes = .ok plan)
    (h : { state with recorder := state.recorder.close }.placeLoop plan = .ok (loop, next))
    (hnumbered : Numbered state) : Changes state next := by
  obtain ⟨_, _, h⟩ := bind_eq_ok.mp h
  obtain ⟨guard, _, h⟩ := bind_eq_ok.mp h
  obtain ⟨⟨pairs, last⟩, htails, h⟩ := bind_eq_ok.mp h
  cases h
  have hclosed : Numbered { state with recorder := state.recorder.close } := ⟨hnumbered.range, hnumbered.next⟩
  have hloop := get?_create { state with recorder := state.recorder.close } (.loop plan)
    (plan.body ++ plan.externals) (guard.derived .b8 guard.shape) state.nextId
  rw [if_pos rfl] at hloop
  have hindices : ∀ tail ∈ plan.tails, tail.1 < plan.carried.length := by
    intro tail htail
    obtain ⟨value, hvalue, _⟩ := (plan.mem_tails tail.1 tail.2).mp htail
    exact (List.getElem?_eq_some_iff.mp hvalue).1
  obtain ⟨hchanges, hphase⟩ := createTails htails (hclosed.create _ _ _)
    hindices rfl hloop rfl
  exact .head (.loop _ hplan) (.tail hchanges (.pair _ pairs hphase))

-- The recording is closed only when the replays match.
theorem assemble_eq (state : State) :
    simulator.loopAssemble state = match state.recorder.plan state.nodes with
      | .error problem => (.error problem, state)
      | .ok plan =>
          atomically (·.placeLoop plan) { state with recorder := state.recorder.close } := by
  show Graph.assemble state = _
  unfold Graph.assemble
  rw [run_bind]
  cases hplan : state.recorder.plan state.nodes <;> simp only [asking, hplan]
  rfl

theorem assemble (state : State) (hnumbered : Numbered state) :
    Changes state (simulator.loopAssemble state).2 := by
  rw [assemble_eq]
  cases hplan : state.recorder.plan state.nodes with
  | error problem => exact .refl
  | ok plan =>
      refine atomically_induction (.single (.close (Recorder.plan_eq_ok hplan).phase)) ?_
      exact fun loop next h => placeLoop hplan h hnumbered

-- A call makes only these changes.
theorem call {state : State} (call : Call) (hnumbered : Numbered state)
    (hnodes : ∀ node ∈ call.nodes, node = Address.null ∨ state.nodes.contains node = true) :
    Changes state (call.after simulator state) := by
  cases call with
  | setupDevices platform mask device => exact .single (.equip state state.store state.ranks _)
  | setRanks ranks =>
      refine atomically_induction_ .refl fun next h => ?_
      unfold State.setRanks at h
      split at h
      · cases h
      · cases h
        exact .single (.equip state state.store ranks state.devices)
  | acquire node => exact .single (.acquire state node)
  | release node => exact .single (.release state node)
  | construct request =>
      exact atomically_induction .refl fun node next h => construct h hnodes
  | loopStart =>
      refine atomically_induction_ .refl fun next h => ?_
      obtain ⟨recorder, hrecorder, h⟩ := bind_eq_ok.mp h
      cases h
      unfold Recorder.start at hrecorder
      split at hrecorder
      · cases hrecorder
      · rename_i hidle
        cases hrecorder
        refine .single (.start ?_)
        simpa [Recorder.isActive] using hidle
  | loopCondition node =>
      exact atomically_induction_ .refl fun next h => .single (.condition h)
  | loopReplay next =>
      refine atomically_induction_ .refl fun after h => ?_
      obtain ⟨recorder, hrecorder, h⟩ := bind_eq_ok.mp h
      cases h
      exact .single (.replay hrecorder)
  | loopAssemble => exact assemble state hnumbered
  | loopEnd => exact .single (.finish state)
  | write node resource =>
      refine atomically_induction .refl fun code next h => ?_
      obtain ⟨grid, _, h⟩ := bind_eq_ok.mp h
      rcases hsave : state.store.save resource grid with ⟨status, store⟩
      simp only [hsave, pure_eq_ok, Prod.mk.injEq] at h
      obtain ⟨_, rfl⟩ := h
      have hstore := Change.equip state store state.ranks state.devices
      cases status with
      | done => exact .tail (.single hstore) (.mark _ node .output)
      | locked => exact .single hstore
      | unwritable => exact .single hstore
  | evaluate nodes =>
      refine atomically_induction_ .refl fun next h => ?_
      obtain ⟨hnull, h⟩ := unless_eq_ok.mp h
      obtain ⟨grids, hgrids, h⟩ := bind_eq_ok.mp h
      cases h
      exact .single (.compute hnull hgrids)
  | ask query node => cases query <;> exact .refl

end Changes

end Graph

end MapAlgebra
