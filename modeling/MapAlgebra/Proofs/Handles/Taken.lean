import MapAlgebra.Proofs.Graph.Idle
import MapAlgebra.Proofs.Graph.Tended
import MapAlgebra.Proofs.Handles.Notes

namespace MapAlgebra

namespace Graph

-- A handle that was taken: whether its node was there, and whether the node was one of those after
-- a loop that was being lowered.
structure Taken where
  node : Address
  present : Bool
  paired : Bool
deriving DecidableEq, Repr

-- Writes down every handle that is taken.
def takenNotes : Notes State (List Taken) where
  acquired node state log :=
    log ++ [⟨node, state.nodes.contains node, state.recorder.afterLoops.contains node⟩]
  started _ log := log
  ended log := log

abbrev Watched := State × List Taken

def watched : Engine Watched := simulator.noting takenNotes

section Custody

variable (named : Address → Prop) (byHand : Prop)

-- A handle was taken on a node that was not there, under its name or by hand after a loop.
def Stray (log : List Taken) : Prop :=
  ∃ taken ∈ log, taken.present = false ∧ (named taken.node ∨ byHand ∧ taken.paired = true)

-- Nodes on which a handle can be taken without surprise.
def Takes (state : Watched) (node : Address) : Prop :=
  state.1.nodes.contains node = true ∨ Stray named byHand state.2 ∨ named node ∨
    byHand ∧ node ∈ state.1.recorder.afterLoops

-- The tail of a loop that was put together by hand, on which no handle was ever taken.
def Untaken (log : List Taken) (id : Nat) (kind : NodeKind) : Prop :=
  byHand ∧ (∃ index, kind = .loopTail index) ∧
    ∀ taken ∈ log, taken.node = id → taken.present = false

-- How a graph goes with the handles that there are. A node has no more handles than that, and no
-- fewer either unless one was taken on a node that was not there. What is dead is an untaken tail,
-- or a new node that is about to be taken.
structure Kept (fresh : Nat → Prop) (lowering : Bool) (state : Watched) (handles : Tally) :
    Prop where
  tended : Tended state.1 state.1.recorder.held fun id kind =>
    Untaken byHand state.2 id kind ∨ fresh id
  logged : ∀ taken ∈ state.2, taken.present = true → taken.node < state.1.nextId
  idle : lowering = false → state.1.recorder = .idle
  paired : ∀ id ∈ state.1.recorder.afterLoops, id ≠ Address.null
  refs_le : ∀ node, (state.1.refsOf node : Int) ≤ handles node
  refs_ge : Stray named byHand state.2 ∨ ∀ node, handles node ≤ state.1.refsOf node

-- Graphs that go with the handles that there are.
def keeping : Custody Watched where
  order lowering state handles :=
    0 ≤ handles → Kept named byHand (fun _ => False) lowering state handles
  named := named
  byHand := byHand

end Custody

variable {named : Address → Prop} {byHand : Prop}

theorem Takes.acquire {state : Watched} {node : Address} (h : Takes named byHand state node)
    (other : Address) : Takes named byHand (watched.acquire other state) node := by
  obtain hthere | ⟨taken, htaken, hbad⟩ | hrest := h
  · refine Or.inl ?_
    show ((state.1.acquire other).nodes.contains node) = true
    rwa [State.acquire, State.contains_modify]
  · exact Or.inr (Or.inl ⟨taken, List.mem_append_left _ htaken, hbad⟩)
  · exact Or.inr (Or.inr hrest)

namespace Kept

variable {fresh : Nat → Prop} {lowering : Bool} {state : Watched} {graph : State}
  {log : List Taken} {handles frame : Tally} {node : Address}

theorem start (limit : Nat) (directory : Option Directory) :
    Kept named byHand (fun _ => False) false (.empty limit directory, []) 0 := by
  have hrefs : ∀ node, (State.empty limit directory).refsOf node = 0 := fun _ =>
    State.refsOf_of_none rfl
  refine ⟨(Tended.empty limit directory).mono nofun, nofun, fun _ => rfl, nofun, fun node => ?_,
    Or.inr fun node => ?_⟩
  · rw [hrefs, Pi.zero_apply, Nat.cast_zero]
  · rw [hrefs, Pi.zero_apply, Nat.cast_zero]

theorem mono {more : Nat → Prop} (h : Kept named byHand fresh lowering state handles)
    (hmore : ∀ id, fresh id → more id) : Kept named byHand more lowering state handles :=
  { h with tended := h.tended.mono fun id _ => Or.imp_right (hmore id) }

-- A change of the graph that leaves the number of handles on each node alone.
theorem follow {next : State} {more : Nat → Prop} {now : Bool}
    (h : Kept named byHand fresh lowering (graph, log) handles)
    (htended : Tended next next.recorder.held fun id kind => Untaken byHand log id kind ∨ more id)
    (hidle : now = false → next.recorder = .idle)
    (hpaired : ∀ id ∈ next.recorder.afterLoops, id ≠ Address.null)
    (hnext : graph.nextId ≤ next.nextId) (hrefs : ∀ id, next.refsOf id = graph.refsOf id) :
    Kept named byHand more now (next, log) handles where
  tended := htended
  logged taken htaken hpresent := (h.logged taken htaken hpresent).trans_le hnext
  idle := hidle
  paired := hpaired
  refs_le node := hrefs node ▸ h.refs_le node
  refs_ge := h.refs_ge.imp_right fun hge node => hrefs node ▸ hge node

-- A change that touches neither the nodes nor the recorder.
theorem beside (h : Kept named byHand fresh lowering (graph, log) handles) {next : State}
    (hnodes : next.nodes = graph.nodes) (hnext : next.nextId = graph.nextId)
    (hrecorder : next.recorder = graph.recorder) :
    Kept named byHand fresh lowering (next, log) handles := by
  refine h.follow ?_ (hrecorder ▸ h.idle) (hrecorder ▸ h.paired) hnext.ge fun id => ?_
  · rw [hrecorder]
    exact h.tended.congr hnodes hnext
  · rw [State.refsOf, State.refCount, hnodes]
    rfl

-- The phase of the recorder is of no concern while a loop is being lowered.
theorem rephase (h : Kept named byHand fresh lowering (graph, log) handles)
    (phase : Loop.Phase) :
    Kept named byHand fresh true
      ({ graph with recorder := { graph.recorder with phase } }, log) handles :=
  h.follow (h.tended.congr rfl rfl) nofun h.paired le_rfl fun _ => rfl

theorem acquire (h : Kept named byHand fresh lowering state handles)
    (htakes : Takes named byHand state node) :
    Kept named byHand (fun id => fresh id ∧ id ≠ node) lowering (watched.acquire node state)
      (Tally.one node + handles) := by
  obtain ⟨graph, log⟩ := state
  let taken : Taken := ⟨node, graph.nodes.contains node, graph.recorder.afterLoops.contains node⟩
  show Kept _ _ _ _ (graph.acquire node, log ++ [taken]) _
  have hstray : Stray named byHand log → Stray named byHand (log ++ [taken]) :=
    fun ⟨entry, hentry, hbad⟩ => ⟨entry, List.mem_append_left _ hentry, hbad⟩
  refine ⟨(h.tended.acquire node).mono ?_, fun entry hentry hpresent => ?_, h.idle, h.paired,
    fun id => ?_, ?_⟩
  · rintro id kind ⟨⟨hhand, hkind, huntaken⟩ | hfresh, hid⟩
    · refine Or.inl ⟨hhand, hkind, fun entry hentry hnode => ?_⟩
      obtain hentry | hentry := List.mem_append.mp hentry
      · exact huntaken entry hentry hnode
      · rw [List.mem_singleton.mp hentry] at hnode
        exact absurd hnode.symm hid
    · exact Or.inr ⟨hfresh, hid⟩
  · obtain hentry | hentry := List.mem_append.mp hentry
    · exact h.logged entry hentry hpresent
    · rw [List.mem_singleton.mp hentry] at hpresent ⊢
      exact h.tended.numbered.lt_next hpresent
  · refine (State.refsOf_acquire_le graph node id).trans ?_
    rw [add_comm]
    exact add_le_add_right (h.refs_le id) _
  · cases hpresent : graph.nodes.contains node with
    | true =>
        refine h.refs_ge.imp hstray fun hge id => ?_
        rw [State.refsOf_acquire id hpresent, add_comm]
        exact add_le_add_left (hge id) _
    | false =>
        -- whatever it was, the new entry tells
        have hentry : taken ∈ log ++ [taken] :=
          List.mem_append_right _ (List.mem_singleton_self _)
        obtain hthere | hbad | hnamed | ⟨hhand, hpaired⟩ := htakes
        · rw [hpresent] at hthere
          cases hthere
        · exact Or.inl (hstray hbad)
        · exact Or.inl ⟨taken, hentry, hpresent, Or.inl hnamed⟩
        · exact Or.inl ⟨taken, hentry, hpresent,
            Or.inr ⟨hhand, List.contains_iff_mem.mpr hpaired⟩⟩

-- What was about to be taken is taken.
theorem take (h : Kept named byHand fresh lowering state handles)
    (htakes : Takes named byHand state node) (hfresh : ∀ id, fresh id → id = node) :
    Kept named byHand (fun _ => False) lowering (watched.acquire node state)
      (Tally.one node + handles) :=
  (h.acquire htakes).mono fun id hid => hid.2 (hfresh id hid.1)

theorem release (h : Kept named byHand fresh lowering state (Tally.one node + handles))
    (hhandles : 0 ≤ handles) :
    Kept named byHand fresh lowering (watched.release node state) handles := by
  obtain ⟨graph, log⟩ := state
  show Kept _ _ _ _ (graph.release node, log) _
  have hrecorder := recorder_release graph node
  have hcount : ∀ id, ((graph.release node).refsOf id : Int) =
      max 0 (graph.refsOf id - Tally.one node id) := fun id => by
    rw [State.refsOf_release, Tally.one]
    split <;> omega
  refine ⟨?_, ?_, hrecorder ▸ h.idle, hrecorder ▸ h.paired, fun id => ?_,
    h.refs_ge.imp_right fun hge id => ?_⟩
  · rw [hrecorder]
    exact h.tended.release node
  · rw [nextId_release]
    exact h.logged
  · have hle : (graph.refsOf id : Int) ≤ Tally.one node id + handles id := h.refs_le id
    have hpos : 0 ≤ handles id := hhandles id
    rw [hcount]
    omega
  · have hle : Tally.one node id + handles id ≤ (graph.refsOf id : Int) := hge id
    rw [hcount]
    omega

theorem letGo {raster : Raster}
    (h : Kept named byHand fresh lowering state (raster.held + handles)) (hhandles : 0 ≤ handles) :
    Kept named byHand fresh lowering (watched.letGo raster state) handles := by
  unfold Engine.letGo
  cases hnode : raster.node with
  | none => rwa [Raster.held, hnode, zero_add] at h
  | some node =>
      rw [Raster.held_of_node hnode] at h
      exact h.release hhandles

-- A handle moves to a node on which one can be taken.
theorem rebind {raster : Raster} (h : Kept named byHand fresh lowering state frame)
    (htakes : Takes named byHand state node) (hfresh : ∀ id, fresh id → id = node)
    (hheld : raster.held ≤ frame) :
    Kept named byHand (fun _ => False) lowering (watched.letGo raster (watched.acquire node state))
      (Tally.one node - raster.held + frame) := by
  have hsplit : Tally.one node + frame =
      raster.held + (Tally.one node - raster.held + frame) := by abel
  refine (hsplit ▸ h.take htakes hfresh).letGo ?_
  rw [sub_add_eq_add_sub, add_sub_assoc]
  exact add_nonneg (Tally.one_nonneg node) (sub_nonneg.mpr hheld)

-- A node that is held is there, unless a handle went astray.
theorem takes_held (h : Kept named byHand fresh lowering state handles)
    (hnode : Tally.one node ≤ handles) : Takes named byHand state node := by
  obtain hstray | hge := h.refs_ge
  · exact Or.inr (Or.inl hstray)
  · refine Or.inl (State.contains_of_refsOf ?_)
    have hone : Tally.one node node ≤ handles node := hnode node
    rw [Tally.one_self] at hone
    have hrefs := hge node
    omega

theorem construct {request : Construction} {next : State}
    (h : Kept named byHand (fun _ => False) lowering (graph, log) handles)
    (hnext : graph.construct request = .ok (node, next)) :
    Kept named byHand (· = node) lowering (next, log) handles ∧
      Takes named byHand (next, log) node ∧ graph.nextId ≤ node := by
  obtain ⟨htended, hthere, hle, hlt, hrefs⟩ := h.tended.construct hnext
  refine ⟨h.follow (htended.mono ?_) (fun hclosed => ?_) ?_ (hle.trans hlt.le) hrefs,
    Or.inl hthere, hle⟩
  · rintro id kind ((huntaken | hnone) | hnew)
    · exact Or.inl huntaken
    · exact hnone.elim
    · exact Or.inr hnew
  · exact recorder_construct (motive := (· = .idle)) (by rintro _ _ rfl; rfl) (h.idle hclosed) hnext
  · refine recorder_construct (motive := fun recorder => ∀ id ∈ recorder.afterLoops,
      id ≠ Address.null) (fun recorder id hpaired => ?_) h.paired hnext
    rwa [Recorder.afterLoops_record]

theorem ne_null_of_le (h : Kept named byHand fresh lowering (graph, log) handles)
    (hle : graph.nextId ≤ node) : node ≠ Address.null :=
  (h.tended.numbered.next.trans_le hle).ne'

theorem startLoop (h : Kept named byHand fresh false (graph, log) handles) :
    Kept named byHand fresh (simulator.loopStart graph).1.isOk
      ((simulator.loopStart graph).2, log) handles := by
  rcases hresult : simulator.loopStart graph with ⟨result, next⟩
  cases result with
  | error problem =>
      have hsame := atomically_refused (congrArg (·.1.isOk) hresult)
      obtain rfl : graph = next := hsame.symm.trans (congrArg Prod.snd hresult)
      exact h
  | ok done =>
      have hstarted : atomically_ (fun graph => do
          return { graph with recorder := ← graph.recorder.start }) graph = (.ok (), next) := hresult
      obtain ⟨recorder, hrecorder, hnext⟩ := bind_eq_ok.mp (atomically_eq_ok_ hstarted)
      unfold Recorder.start at hrecorder
      split at hrecorder
      · cases hrecorder
      · cases hrecorder
        cases hnext
        exact h.rephase .started

theorem condition (h : Kept named byHand fresh true (graph, log) handles) {next : State}
    (hnext : graph.addCondition node = .ok next) :
    Kept named byHand fresh true (next, log) handles := by
  obtain ⟨_, recorder, _, hrecorder, rfl⟩ := State.addCondition_eq_ok hnext
  refine h.follow ?_ nofun ?_ le_rfl fun id => ?_
  · exact ((h.tended.takeHold node).perm (Recorder.held_addCondition hrecorder)).congr rfl rfl
  · obtain ⟨rfl, _⟩ := Recorder.addCondition_eq_ok hrecorder
    exact h.paired
  · exact graph.refsOf_modify_of_refs node (f := fun info => { info with users := info.users + 1 })
      (fun _ => rfl) id

theorem replay (h : Kept named byHand fresh true (graph, log) handles) {which : Loop.Replay}
    {recorder : Recorder} (hnext : graph.recorder.replay which = .ok recorder) :
    Kept named byHand fresh true ({ graph with recorder }, log) handles := by
  obtain ⟨_, rfl⟩ | ⟨_, rfl⟩ := Recorder.replay_eq_ok hnext
  · exact h.rephase .firstReplay
  · exact h.rephase .secondReplay

theorem endLoop (h : Kept named byHand fresh true (graph, log) handles) :
    Kept named byHand fresh false (graph.endLoop, log) handles := by
  have hfrees := State.frees_endLoop graph
  refine h.follow ?_ (fun _ => hfrees.recorder) ?_ ?_ fun id => ?_
  · rw [hfrees.recorder]
    exact h.tended.endLoop
  · rw [hfrees.recorder]
    exact nofun
  · rw [hfrees.frame]
  · exact (State.refsOf_frees hfrees id).trans rfl

theorem mark (h : Kept named byHand fresh lowering (graph, log) handles) (node : Address)
    (stream : Stream) :
    Kept named byHand fresh lowering
      ({ graph with
        nodes := graph.nodes.modify node fun node =>
          { node with info := { node.info with stream } } }, log) handles := by
  refine h.follow ?_ h.idle h.paired le_rfl (graph.refsOf_modify_of_refs node fun _ => rfl)
  refine h.tended.modify (fun _ => rfl) (fun _ _ => id) (fun _ _ => le_rfl) (fun _ _ _ => id)
    fun info hinfo hdead => ?_
  have hspared := h.tended.swept hinfo hdead
  exact hspared

theorem write {resource : String} {status : Int} {next : State}
    (h : Kept named byHand fresh lowering (graph, log) handles)
    (hnext : graph.write node resource = .ok (status, next)) :
    Kept named byHand fresh lowering (next, log) handles := by
  obtain ⟨grid, _, hnext⟩ := bind_eq_ok.mp hnext
  rcases hsaved : graph.store.save resource grid with ⟨status, store⟩
  rw [hsaved] at hnext
  cases status with
  | done =>
      cases hnext
      exact (h.mark node .output).beside rfl rfl rfl
  | locked =>
      cases hnext
      exact h.beside rfl rfl rfl
  | unwritable =>
      cases hnext
      exact h.beside rfl rfl rfl

theorem evaluate {nodes : List Address} {next : State}
    (h : Kept named byHand fresh lowering (graph, log) handles)
    (hnext : graph.evaluate nodes = .ok next) :
    Kept named byHand fresh lowering (next, log) handles := by
  obtain ⟨_, hnext⟩ := unless_eq_ok.mp hnext
  obtain ⟨grids, _, hnext⟩ := bind_eq_ok.mp hnext
  cases hnext
  exact h.beside rfl rfl rfl

theorem setRanks {ranks : Int} {next : State}
    (h : Kept named byHand fresh lowering (graph, log) handles)
    (hnext : graph.setRanks ranks = .ok next) :
    Kept named byHand fresh lowering (next, log) handles := by
  unfold State.setRanks at hnext
  split at hnext
  · cases hnext
  · cases hnext
    exact h.beside rfl rfl rfl

end Kept

end Graph

end MapAlgebra
