import MapAlgebra.Proofs.Graph.Grown
import MapAlgebra.Proofs.Handles.Scripts
import MapAlgebra.Proofs.Handles.Taken

namespace MapAlgebra

namespace Graph

-- The simulator as it serves those who make nodes and ask about them. It lowers no loops, computes
-- and stores nothing, and keeps its settings.
def bare : Engine State := { simulator with
  setupDevices _ _ _ := throw .brokenInvariant
  setRanks _ := throw .brokenInvariant
  loopStart := throw .brokenInvariant
  loopCondition _ := throw .brokenInvariant
  loopReplay _ := throw .brokenInvariant
  loopAssemble := throw .brokenInvariant
  loopEnd := throw .brokenInvariant
  write _ _ := throw .brokenInvariant
  evaluate _ := throw .brokenInvariant }

-- The handles on the nodes of a graph.
def State.tally (state : State) : Tally := fun id => state.refsOf id

theorem State.tally_apply (state : State) (id : Nat) : state.tally id = state.refsOf id := rfl

theorem State.tally_nonneg (state : State) : 0 ≤ state.tally := fun id =>
  Int.natCast_nonneg (state.refsOf id)

open State

-- A graph that has grown, with the handles that there are on its nodes now.
structure Tallied (base : State) (fresh : Nat → Prop) (state : State) (handles : Tally) : Prop where
  grown : Grown base fresh state
  tally : state.tally = handles

-- The last handle on an earlier node was given up.
structure Forsaken (base state : State) (handles : Tally) : Prop where
  next : base.nextId ≤ state.nextId
  node : ∃ id, 0 < base.refsOf id ∧ handles id ≤ 0

-- Graphs that go back to an earlier one when the handles are those of that time again.
def reverting (base : State) : Custody State where
  order _ state handles :=
    0 ≤ handles → Tallied base (fun _ => False) state handles ∨ Forsaken base state handles
  named _ := False
  byHand := False

theorem construct_nextId {state next : State} {request : Construction} {node : Address}
    (h : state.construct request = .ok (node, next)) :
    state.nextId ≤ node ∧ node < next.nextId := by
  obtain ⟨draft, _, hplaced⟩ := bind_eq_ok.mp h
  rw [pure_eq_ok, place] at hplaced
  obtain ⟨rfl, rfl⟩ := Prod.mk.inj hplaced
  refine ⟨?_, Nat.lt_succ_self _⟩
  cases draft.standIn with
  | none => exact le_rfl
  | some info => exact Nat.le_succ _

section

variable {base state next : State} {handles frame : Tally} {node : Address} {lowering : Bool}

theorem Forsaken.acquire (h : Forsaken base state handles) (hheld : Tally.one node ≤ handles) :
    Forsaken base (state.acquire node) (Tally.one node + handles) where
  next := h.next
  node := by
    obtain ⟨id, hid, hgone⟩ := h.node
    refine ⟨id, hid, ?_⟩
    have hle : Tally.one node id ≤ handles id := hheld id
    by_cases hsame : id = node
    · subst hsame
      rw [Tally.one_self] at hle
      omega
    · simpa [Tally.one, hsame] using hgone

theorem Tallied.refs_pos (h : Tallied base (fun _ => False) state handles)
    (hheld : Tally.one node ≤ handles) : 0 < state.refsOf node := by
  have hle : Tally.one node node ≤ handles node := hheld node
  rw [Tally.one_self, ← h.tally, tally_apply] at hle
  omega

theorem Tallied.acquire (h : Tallied base (fun _ => False) state handles)
    (hheld : Tally.one node ≤ handles) :
    Tallied base (fun _ => False) (state.acquire node) (Tally.one node + handles) := by
  have hrefs := h.refs_pos hheld
  obtain ⟨hgrown, rfl⟩ := h
  refine ⟨?_, funext fun id => ?_⟩
  · have htaken := hgrown.acquire (Or.inr hrefs)
    exact ⟨htaken.spans, htaken.consistent, htaken.swept.mono fun _ _ => Or.imp_right And.left⟩
  · rw [tally_apply, refsOf_acquire id (contains_of_refsOf hrefs), add_comm]
    rfl

theorem order_acquire (hheld : Tally.one node ≤ handles)
    (h : (reverting base).order lowering state handles) :
    (reverting base).order lowering (state.acquire node) (Tally.one node + handles) :=
  fun _ => (h ((Tally.one_nonneg node).trans hheld)).imp (·.acquire hheld) (·.acquire hheld)

theorem tally_release (hnonneg : 0 ≤ handles) (h : state.tally = Tally.one node + handles) :
    (state.release node).tally = handles := by
  funext id
  have hid : (state.refsOf id : Int) = Tally.one node id + handles id := congrFun h id
  have hleft : 0 ≤ handles id := hnonneg id
  rw [tally_apply, refsOf_release]
  by_cases hsame : id = node
  · rw [Tally.one, if_pos hsame] at hid
    rw [if_pos hsame]
    omega
  · rw [Tally.one, if_neg hsame] at hid
    rw [if_neg hsame]
    omega

theorem order_release (hbase : Consistent base)
    (h : (reverting base).order lowering state (Tally.one node + handles)) :
    (reverting base).order lowering (state.release node) handles := by
  intro hnonneg
  have hnext := nextId_release state node
  obtain ⟨hgrown, htally⟩ | hforsaken := h (add_nonneg (Tally.one_nonneg node) hnonneg)
  · have hafter := tally_release hnonneg htally
    obtain hnew | hold := le_or_gt base.nextId node
    · exact Or.inl ⟨hgrown.release hbase (Or.inl hnew), hafter⟩
    · obtain hlast | hmore := Nat.eq_zero_or_pos ((state.release node).refsOf node)
      · -- that was the last handle on an earlier node
        have hcount : (state.refsOf node : Int) = Tally.one node node + handles node :=
          congrFun htally node
        have hgone : ((state.release node).refsOf node : Int) = handles node := congrFun hafter node
        rw [Tally.one_self] at hcount
        refine Or.inr ⟨hnext.symm ▸ hgrown.spans.next, node, ?_, by omega⟩
        exact (hgrown.spans.handles node hold).mp (by omega)
      · exact Or.inl ⟨hgrown.release hbase (Or.inr (Or.inl hmore)), hafter⟩
  · obtain ⟨id, hid, hgone⟩ := hforsaken.node
    have hone : 0 ≤ Tally.one node id := Tally.one_nonneg node id
    rw [Pi.add_apply] at hgone
    exact Or.inr ⟨hnext.symm ▸ hforsaken.next, id, hid, by omega⟩

theorem order_letGo (hbase : Consistent base) {raster : Raster}
    (h : (reverting base).order lowering state (raster.held + handles)) :
    (reverting base).order lowering (bare.letGo raster state) handles := by
  unfold Engine.letGo
  cases hnode : raster.node with
  | none => rwa [Raster.held, hnode, zero_add] at h
  | some node =>
      rw [Raster.held_of_node hnode] at h
      exact order_release hbase h

theorem next_of_order (hframe : 0 ≤ frame) (h : (reverting base).order lowering state frame) :
    base.nextId ≤ state.nextId := by
  obtain hkept | hforsaken := h hframe
  · exact hkept.grown.spans.next
  · exact hforsaken.next

theorem ne_null_of_order (hbase : Consistent base) {request : Construction} (hframe : 0 ≤ frame)
    (h : (reverting base).order lowering state frame)
    (hnext : state.construct request = .ok (node, next)) : node ≠ Address.null := by
  have hpositive := hbase.counted.numbered.next
  have hle := (next_of_order hframe h).trans (construct_nextId hnext).1
  exact (hpositive.trans_le hle).ne'

-- A new node that is taken at once.
theorem order_taken (hbase : Consistent base) (hquiet : base.recorder.isRecording = false)
    {request : Construction} (hframe : 0 ≤ frame) (hbacked : request.Backed frame)
    (h : (reverting base).order lowering state frame)
    (hnext : state.construct request = .ok (node, next)) :
    (reverting base).order lowering (next.acquire node) (Tally.one node + frame) := by
  intro _
  obtain ⟨hle, hlt⟩ := construct_nextId hnext
  obtain hkept | hforsaken := h hframe
  · have hrefs : ∀ node ∈ request.nodes, node = Address.null ∨ 0 < state.refsOf node :=
      fun node hnode => (hbacked node hnode).imp_right hkept.refs_pos
    obtain ⟨hgrown, rfl⟩ := hkept
    have hmade := hgrown.construct hbase hquiet hrefs hnext
    obtain ⟨_, hthere, _, _, hsame⟩ := hgrown.tended.construct hnext
    have htaken := hmade.acquire (Or.inl (hgrown.spans.next.trans hle))
    refine Or.inl ⟨⟨htaken.spans, htaken.consistent, htaken.swept.mono fun id _ => ?_⟩, ?_⟩
    · rintro (hspent | ⟨hnew, hold⟩)
      · exact Or.inl hspent
      · exact absurd hnew hold
    · funext id
      rw [tally_apply, refsOf_acquire id hthere, hsame, add_comm]
      rfl
  · obtain ⟨id, hid, hgone⟩ := hforsaken.node
    refine Or.inr ⟨?_, id, hid, ?_⟩
    · exact (hforsaken.next.trans hle).trans hlt.le
    · have hold := hbase.counted.numbered.lt_next (contains_of_refsOf hid)
      have hnext := hforsaken.next
      have hother : id ≠ node := Nat.ne_of_lt (by omega)
      simpa [Tally.one, hother] using hgone

end

variable {base : State}

-- A request makes a node or leaves the graph alone.
theorem construct_cases (request : Construction) (state : State) :
    (∃ problem, bare.construct request state = (.error problem, state)) ∨
      ∃ node next, state.construct request = .ok (node, next) ∧
        bare.construct request state = (.ok node, next) := by
  show (∃ problem, atomically (·.construct request) state = (.error problem, state)) ∨
    ∃ node next, state.construct request = .ok (node, next) ∧
      atomically (·.construct request) state = (.ok node, next)
  rw [atomically]
  cases hresult : state.construct request with
  | error problem => exact Or.inl ⟨problem, rfl⟩
  | ok made => exact Or.inr ⟨made.1, made.2, rfl, rfl⟩

theorem honors_reverting (hbase : Consistent base) (hquiet : base.recorder.isRecording = false) :
    Honors bare (reverting base) where
  acquire _ hheld hstate := order_acquire hheld hstate
  release _ hstate := order_release hbase hstate
  make {lowering frame request} hframe hbacked := by
    intro state hstate
    rw [zero_add] at hstate
    rw [Engine.make, run_bind]
    obtain ⟨problem, hrun⟩ | ⟨node, next, hnext, hrun⟩ := construct_cases request state
    · rw [hrun]
      exact (zero_add frame).symm ▸ hstate
    · rw [hrun]
      have hnull := ne_null_of_order hbase hframe hstate hnext
      show (reverting base).order lowering (bare.wrap node next).2
        (Tally.yielded Raster.held (bare.wrap node next).1 + frame)
      rw [bare.wrap_eq hnull]
      exact order_taken hbase hquiet hframe hbacked hstate hnext
  renew {lowering frame raster request} hread hheld hbacked := by
    intro state hstate
    rw [zero_add] at hstate
    have hframe : 0 ≤ frame := raster.held_nonneg.trans hheld
    rw [run_bind]
    obtain ⟨problem, hrun⟩ | ⟨node, next, hnext, hrun⟩ := construct_cases request state
    · rw [hrun]
      exact (zero_add frame).symm ▸ hstate
    · have hnull := ne_null_of_order hbase hframe hstate hnext
      rw [hrun]
      show (reverting base).order lowering (bare.rebind raster node next).2
        (Tally.yielded (fun moved => moved.held - raster.held) (bare.rebind raster node next).1 +
          frame)
      by_cases hsame : raster.node = some node
      · -- no node that has handles is made anew
        obtain ⟨hle, hlt⟩ := construct_nextId hnext
        obtain hkept | hforsaken := hstate hframe
        · have hthere := contains_of_refsOf (hkept.refs_pos (Raster.held_of_node hsame ▸ hheld))
          exact absurd (hkept.grown.tended.numbered.lt_next hthere) (Nat.not_lt.mpr hle)
        · have hafter : (bare.rebind raster node next) = (.ok raster, next) := by
            rw [Engine.rebind, dif_neg hnull, if_pos hsame]
            rfl
          rw [hafter, Tally.yielded, sub_self, zero_add]
          exact fun _ => Or.inr ⟨(hforsaken.next.trans hle).trans hlt.le, hforsaken.node⟩
      · rw [bare.rebind_eq hnull hsame]
        have htaken := order_taken hbase hquiet hframe hbacked hstate hnext
        have hsplit : Tally.one node + frame = raster.held + (Tally.one node - raster.held + frame) := by
          abel
        exact order_letGo hbase (hsplit ▸ htaken)
  wrap hnamed := hnamed.elim
  rebind hnamed := hnamed.elim
  start hstate := hstate
  condition _ := .throw _ _
  replay _ := .throw _ _
  conclude _ := .throw _ _
  assemble hhand := hhand.elim
  gather _ hhand := hhand.elim
  finish hstate := hstate
  setupDevices _ _ _ := .throw _ _
  setRanks _ := .throw _ _
  write _ _ := .throw _ _
  evaluate _ := .throw _ _
  value _ := Steady.still fun _ _ hstate => hstate
  nodeId _ := Steady.still fun _ _ hstate => hstate
  nodeName _ := Steady.still fun _ _ hstate => hstate
  stream _ := Steady.still fun _ _ hstate => hstate
  dataType _ := Steady.still fun _ _ hstate => hstate
  dimension _ := Steady.still fun _ _ hstate => hstate
  memOrder _ := Steady.still fun _ _ hstate => hstate
  size _ := Steady.still fun _ _ hstate => hstate
  block _ := Steady.still fun _ _ hstate => hstate
  group _ := Steady.still fun _ _ hstate => hstate

end Graph

end MapAlgebra
