import MapAlgebra.Proofs.Graph.Refused
import MapAlgebra.Proofs.Graph.Tended

namespace MapAlgebra.Graph

-- A pair of a loop: the tail of a carried value, under the node that the second replay recorded for
-- the step that feeds it.
structure PairOf (second : List Nat) (nodes : Table Node) (loop : Nat) (tail pair : Nat × Nat) :
    Prop where
  before : second[tail.2]? = some pair.1
  after : ∃ node, nodes.get? pair.2 = some node ∧ node.kind = .loopTail tail.1 ∧
    node.inputs = [loop]

-- What there is after a loop was put together: its node, and the pairs of all its tails. The tails
-- are the newest nodes. Nothing is taken or let go.
structure Placed (before : State) (plan : LoopPlan) (loop : Nat) (after : State) : Prop where
  node : ∃ node, after.nodes.get? loop = some node ∧ node.kind = .loop plan
  pairs : ∃ pairs, after.pairsOf loop = .ok ⟨pairs.map Prod.fst, pairs.map Prod.snd⟩ ∧
    List.Forall₂ (PairOf before.recorder.second after.nodes loop) plan.tails pairs ∧
    pairs.map Prod.snd = List.range' (before.nextId + 1) plan.tails.length
  refs : ∀ id, after.refsOf id = before.refsOf id

namespace State

theorem createTails_eq_ok {loop : Address} {plan : LoopPlan} {tails pairs : List (Nat × Nat)}
    {state next : State} (hphase : state.recorder.phase = .assembled) (hnumbered : Numbered state)
    (h : state.createTails loop plan tails = .ok (pairs, next)) :
    List.Forall₂ (PairOf state.recorder.second next.nodes loop) tails pairs ∧
      pairs.map Prod.snd = List.range' state.nextId tails.length ∧
      (∀ {id node}, state.nodes.get? id = some node →
        ∃ new, next.nodes.get? id = some new ∧ node.Keeps new) ∧
      ∀ id, next.refsOf id = state.refsOf id := by
  induction tails generalizing state pairs with
  | nil =>
      cases h
      exact ⟨.nil, rfl, fun hnode => ⟨_, hnode, .refl _⟩, fun _ => rfl⟩
  | cons tail tails ih =>
      obtain ⟨index, feed⟩ := tail
      rw [createTails] at h
      obtain ⟨_, _, h⟩ := bind_eq_ok.mp h
      obtain ⟨info, _, h⟩ := bind_eq_ok.mp h
      obtain ⟨before, hbefore, h⟩ := bind_eq_ok.mp h
      obtain ⟨⟨rest, last⟩, hrest, h⟩ := bind_eq_ok.mp h
      cases h
      have hrecorder := recorder_create_closed hphase (.loopTail index) [loop] info
      have hmade := get?_create state (.loopTail index) [loop] info state.nextId
      rw [if_pos rfl] at hmade
      obtain ⟨hpairs, hnew, hkept, hrefs⟩ := ih (hrecorder ▸ hphase) (hnumbered.create _ _ _) hrest
      obtain ⟨node, hnode, hkeeps⟩ := hkept hmade
      rw [hrecorder] at hpairs
      refine ⟨.cons ⟨entry_eq_ok.mp hbefore, node, hnode, hkeeps.kind, hkeeps.inputs⟩ hpairs, ?_, ?_,
        fun id => (hrefs id).trans (refsOf_create hnumbered _ _ _ id)⟩
      · exact congrArg (state.nextId :: ·) hnew
      · intro id old hold
        obtain ⟨new, hlast, hsame⟩ := hkept (hnumbered.kept_create hold _ _ _)
        exact ⟨new, hlast, (Node.Keeps.users old _).trans hsame⟩

theorem placeLoop_eq_ok {plan : LoopPlan} {loop : Address} {state next : State}
    (hphase : state.recorder.phase = .assembled) (hnumbered : Numbered state)
    (h : state.placeLoop plan = .ok (loop, next)) : Placed state plan loop next := by
  obtain ⟨_, _, h⟩ := bind_eq_ok.mp h
  obtain ⟨guard, _, h⟩ := bind_eq_ok.mp h
  obtain ⟨⟨pairs, last⟩, htails, h⟩ := bind_eq_ok.mp h
  cases h
  have hrecorder := recorder_create_closed hphase (.loop plan) (plan.body ++ plan.externals)
    (guard.derived .b8 guard.shape)
  have hmade := get?_create state (.loop plan) (plan.body ++ plan.externals)
    (guard.derived .b8 guard.shape) state.nextId
  rw [if_pos rfl] at hmade
  obtain ⟨hpairs, hnew, hkept, hrefs⟩ :=
    createTails_eq_ok (hrecorder ▸ hphase) (hnumbered.create _ _ _) htails
  obtain ⟨node, hnode, hkeeps⟩ := hkept hmade
  rw [hrecorder] at hpairs
  have hnull : state.nextId ≠ Address.null := Nat.ne_of_gt hnumbered.next
  refine ⟨⟨node, hnode, hkeeps.kind⟩, ⟨pairs, ?_, hpairs, hnew⟩,
    fun id => (hrefs id).trans (refsOf_create hnumbered _ _ _ id)⟩
  simp only [pairsOf, if_neg hnull, Recorder.pairsOf, Recorder.setPairs, List.lookup_cons_self]

-- A loop that was put together is placed as its replays match.
theorem assemble_eq_ok {loop : Address} {state after : State} (hnumbered : Numbered state)
    (h : simulator.loopAssemble state = (.ok loop, after)) :
    ∃ plan, state.recorder.plan state.nodes = .ok plan ∧ Placed state plan loop after := by
  rw [Changes.assemble_eq] at h
  cases hplan : state.recorder.plan state.nodes with
  | error problem =>
      rw [hplan] at h
      cases h
  | ok plan =>
      rw [hplan] at h
      have hclosed : Numbered { state with recorder := state.recorder.close } :=
        ⟨hnumbered.range, hnumbered.next⟩
      obtain ⟨hnode, hpairs, hrefs⟩ := placeLoop_eq_ok rfl hclosed (atomically_eq_ok h)
      exact ⟨plan, rfl, hnode, hpairs, hrefs⟩

-- Replays that match are put together.
theorem assemble_total {plan : LoopPlan} {state : State} (hlooped : Looped state)
    (hplan : state.recorder.plan state.nodes = .ok plan) :
    ∃ loop after, simulator.loopAssemble state = (.ok loop, after) := by
  obtain ⟨⟨loop, after⟩, hplaced⟩ := placeLoop_total hlooped hplan
  refine ⟨loop, after, ?_⟩
  rw [Changes.assemble_eq, hplan]
  simp only [atomically, hplaced]

end State

end MapAlgebra.Graph
