import MapAlgebra.Proofs.Graph.Counts

namespace MapAlgebra.Graph.State

-- What freeing nodes may do: nodes and grids may go, and nodes that stay may lose users. A node
-- with handles stays.
structure Frees (before after : State) : Prop where
  frame : after = { before with nodes := after.nodes, computed := after.computed }
  kept : ∀ {id info}, after.nodes.get? id = some info →
    ∃ old, before.nodes.get? id = some old ∧ info = { old with users := info.users }
  stays : ∀ {id old}, before.nodes.get? id = some old → 0 < old.refs →
    ∃ info, after.nodes.get? id = some info
  computed : ∀ {id grid}, after.computed.get? id = some grid → before.computed.get? id = some grid

namespace Frees

theorem refl (state : State) : Frees state state :=
  ⟨rfl, fun h => ⟨_, h, rfl⟩, fun h _ => ⟨_, h⟩, fun h => h⟩

theorem trans {a b c : State} (hab : Frees a b) (hbc : Frees b c) : Frees a c where
  frame := by rw [hbc.frame, hab.frame]
  kept h := by
    obtain ⟨mid, hmid, hinfo⟩ := hbc.kept h
    obtain ⟨old, hold, heq⟩ := hab.kept hmid
    exact ⟨old, hold, by rw [hinfo, heq]⟩
  stays h hrefs := by
    obtain ⟨mid, hmid⟩ := hab.stays h hrefs
    obtain ⟨old, hold, heq⟩ := hab.kept hmid
    rw [h] at hold
    cases hold
    exact hbc.stays hmid (by rw [heq]; exact hrefs)
  computed h := hab.computed (hbc.computed h)

theorem contains {before after : State} (h : Frees before after) {id : Nat}
    (hlive : after.nodes.contains id = true) : before.nodes.contains id = true := by
  obtain ⟨info, hinfo⟩ := (Table.contains_iff _ _).mp hlive
  obtain ⟨old, hold, _⟩ := h.kept hinfo
  exact (Table.contains_iff _ _).mpr ⟨old, hold⟩

end Frees

-- Takes away one dead node. Its inputs lose a user.
def freed (state : State) (id : Nat) (node : Node) : State :=
  { state with
    nodes := node.inputs.foldl dropUser (state.nodes.erase id)
    computed := state.computed.erase id }

theorem get?_freed (state : State) (id : Nat) (node : Node) (other : Nat) :
    (state.freed id node).nodes.get? other =
      if other = id then none else (state.nodes.get? other).map fun info =>
        { info with users := info.users - node.inputs.count other } := by
  simp only [freed, get?_dropUsers, Table.get?_erase]
  split <;> rfl

theorem frees_freed {state : State} {id : Nat} {node : Node}
    (hnode : state.nodes.get? id = some node) (hdead : node.isDead = true) :
    Frees state (state.freed id node) where
  frame := rfl
  kept h := by
    rw [get?_freed] at h
    split at h
    · cases h
    · obtain ⟨old, hold, rfl⟩ := Option.map_eq_some_iff.mp h
      exact ⟨old, hold, rfl⟩
  stays h hrefs := by
    rw [get?_freed]
    split
    · rename_i hid
      subst hid
      rw [hnode] at h
      cases h
      simp only [Node.isDead, Bool.and_eq_true, decide_eq_true_eq] at hdead
      omega
    · rw [h]
      exact ⟨_, rfl⟩
  computed h := by
    simp only [freed, Table.get?_erase] at h
    split at h
    · cases h
    · exact h

theorem Counted.freed {state : State} {holds : List Nat} (h : Counted state holds) {id : Nat}
    {node : Node} (hnode : state.nodes.get? id = some node) (hdead : node.isDead = true) :
    Counted (state.freed id node) holds := by
  obtain ⟨hnohold, hnoedge⟩ := h.unused hnode hdead
  have hfrees := frees_freed hnode hdead
  have hstays : ∀ other, other ≠ id → state.nodes.contains other = true →
      (state.freed id node).nodes.contains other = true := by
    intro other hne hlive
    obtain ⟨info, hinfo⟩ := (Table.contains_iff _ _).mp hlive
    rw [Table.contains_iff, get?_freed, if_neg hne, hinfo]
    exact ⟨_, rfl⟩
  have hback : ∀ {other info}, (state.freed id node).nodes.get? other = some info →
      other ≠ id ∧ ∃ old, state.nodes.get? other = some old ∧
        info = { old with users := old.users - node.inputs.count other } := by
    intro other info hinfo
    rw [get?_freed] at hinfo
    split at hinfo
    · cases hinfo
    · rename_i hne
      obtain ⟨old, hold, rfl⟩ := Option.map_eq_some_iff.mp hinfo
      exact ⟨hne, old, hold, rfl⟩
  constructor
  · refine ⟨fun hinfo => ?_, h.numbered.next⟩
    obtain ⟨_, old, hold, _⟩ := hback hinfo
    exact h.numbered.range hold
  · intro other info hinfo input hinput
    obtain ⟨_, old, hold, rfl⟩ := hback hinfo
    obtain ⟨hlive, hlt⟩ := h.input_live hold input hinput
    exact ⟨hstays input (fun same => hnoedge hold (same ▸ hinput)) hlive, hlt⟩
  · intro other info hinfo
    obtain ⟨_, old, hold, rfl⟩ := hback hinfo
    have husers := h.users_eq hold
    have hedges : edgesIn (state.freed id node).nodes other = edgesIn (state.nodes.erase id) other :=
      edgesIn_dropUsers _ _ _
    have hsum := edgesIn_erase state.nodes hnode other
    simp only
    omega
  · intro other hother
    exact hstays other (fun same => hnohold (same ▸ hother)) (h.hold_live other hother)
  · intro other hother
    simp only [State.freed, Table.contains, Table.get?_erase] at hother
    split at hother
    · cases hother
    · rename_i hne
      exact hstays other hne (h.computed_live other hother)

-- Each round of the worklist frees one node or none.
theorem collectFrom_cons (state : State) (fuel id : Nat) (pending : List Nat) :
    (state.collectFrom (fuel + 1) (id :: pending) = state.collectFrom fuel pending) ∨
      ∃ node, state.nodes.get? id = some node ∧ node.isDead = true ∧
        state.collectFrom (fuel + 1) (id :: pending) =
          (state.freed id node).collectFrom fuel (node.inputs ++ pending) := by
  rw [collectFrom]
  split
  · exact Or.inl rfl
  · rename_i node hnode
    split
    · rename_i hdead
      exact Or.inr ⟨node, hnode, hdead, rfl⟩
    · exact Or.inl rfl

-- Collecting keeps whatever freeing one dead node keeps, where only nodes of some kind become
-- pending.
theorem collectFrom_induction_among {motive : State → Prop} {among : Nat → Prop} (fuel : Nat)
    (pending : List Nat) (state : State) (hpending : ∀ id ∈ pending, among id)
    (hinit : motive state)
    (hfree : ∀ state id node, motive state → among id → state.nodes.get? id = some node →
      node.isDead = true → motive (state.freed id node) ∧ ∀ input ∈ node.inputs, among input) :
    motive (state.collectFrom fuel pending) := by
  induction fuel generalizing state pending with
  | zero => rw [collectFrom]; exact hinit
  | succ fuel ih =>
      cases pending with
      | nil => rw [collectFrom]; exact hinit
      | cons id pending =>
          obtain ⟨hid, hrest⟩ := List.forall_mem_cons.mp hpending
          obtain h | ⟨node, hnode, hdead, h⟩ := state.collectFrom_cons fuel id pending
          · rw [h]
            exact ih _ _ hrest hinit
          · rw [h]
            obtain ⟨hfreed, hinputs⟩ := hfree state id node hinit hid hnode hdead
            exact ih _ _ (List.forall_mem_append.mpr ⟨hinputs, hrest⟩) hfreed

theorem collectFrom_induction {motive : State → Prop} (fuel : Nat) (pending : List Nat)
    (state : State) (hinit : motive state)
    (hfree : ∀ state id node, motive state → state.nodes.get? id = some node →
      node.isDead = true → motive (state.freed id node)) :
    motive (state.collectFrom fuel pending) :=
  @collectFrom_induction_among motive (fun _ => True) fuel pending state (fun _ _ => trivial)
    hinit fun state id node hmotive _ hnode hdead =>
      ⟨hfree state id node hmotive hnode hdead, fun _ _ => trivial⟩

theorem Counted.collect {state : State} {holds : List Nat} (h : Counted state holds) (id : Nat) :
    Counted (state.collect id) holds :=
  collectFrom_induction (motive := (Counted · holds)) _ _ state h
    fun _ _ _ hcounted hnode hdead => hcounted.freed hnode hdead

theorem frees_collect (state : State) (id : Nat) : Frees state (state.collect id) :=
  collectFrom_induction (motive := Frees state) _ _ state (Frees.refl state)
    fun _ _ _ hfrees hnode hdead => hfrees.trans (frees_freed hnode hdead)

end MapAlgebra.Graph.State
