import MapAlgebra.Graph.State
import MapAlgebra.Proofs.Graph.Table

namespace MapAlgebra.Graph.State

-- Changing the users of a node once for each input changes them by the number of times that the
-- node is an input.
private theorem get?_changeUsers (change : Nat → Nat → Nat) (hzero : ∀ users, change users 0 = users)
    (hadd : ∀ users a b, change (change users a) b = change users (a + b))
    (inputs : List Nat) (nodes : Table Node) (id : Nat) :
    (inputs.foldl (fun nodes node => nodes.modify node fun info =>
        { info with users := change info.users 1 }) nodes).get? id =
      (nodes.get? id).map fun info => { info with users := change info.users (inputs.count id) } := by
  induction inputs generalizing nodes with
  | nil => simp [hzero]
  | cons input inputs ih =>
      rw [List.foldl_cons, ih, Table.get?_modify]
      by_cases h : id = input
      · subst h
        rw [if_pos rfl, Option.map_map, List.count_cons_self]
        congr 1
        funext info
        simp only [Function.comp, hadd, Nat.add_comm]
      · rw [if_neg h, List.count_cons_of_ne (Ne.symm h)]

theorem get?_addUsers (inputs : List Nat) (nodes : Table Node) (id : Nat) :
    (inputs.foldl addUser nodes).get? id =
      (nodes.get? id).map fun info => { info with users := info.users + inputs.count id } :=
  get?_changeUsers (· + ·) Nat.add_zero Nat.add_assoc inputs nodes id

theorem get?_dropUsers (inputs : List Nat) (nodes : Table Node) (id : Nat) :
    (inputs.foldl dropUser nodes).get? id =
      (nodes.get? id).map fun info => { info with users := info.users - inputs.count id } :=
  get?_changeUsers (· - ·) Nat.sub_zero Nat.sub_sub inputs nodes id

theorem get?_create (state : State) (kind : NodeKind) (inputs : List Nat) (info : Meta)
    (id : Nat) :
    (state.create kind inputs info).2.nodes.get? id =
      if id = state.nextId then
        some ⟨kind, inputs, info, 0, if state.recorder.isRecording then 1 else 0⟩
      else (state.nodes.get? id).map fun old =>
        { old with users := old.users + inputs.count id } := by
  simp only [create, Table.get?_insert, get?_addUsers]

theorem contains_create {state : State} {kind : NodeKind} {inputs : List Nat} {info : Meta}
    {id : Nat} (h : id = state.nextId ∨ state.nodes.contains id = true) :
    (state.create kind inputs info).2.nodes.contains id = true := by
  rw [Table.contains, get?_create]
  split
  · rfl
  · rename_i hne
    rw [Option.isSome_map]
    exact h.resolve_left hne

-- Nodes have numbers that were given out.
structure Numbered (state : State) : Prop where
  range : ∀ {id node}, state.nodes.get? id = some node → 0 < id ∧ id < state.nextId
  next : 0 < state.nextId

namespace Numbered

variable {state : State}

theorem lt_next (h : Numbered state) {id : Nat} (hlive : state.nodes.contains id = true) :
    id < state.nextId := by
  obtain ⟨node, hnode⟩ := (Table.contains_iff _ _).mp hlive
  exact (h.range hnode).2

theorem fresh (h : Numbered state) : state.nodes.get? state.nextId = none := by
  rw [Option.eq_none_iff_forall_ne_some]
  intro node hnode
  exact Nat.lt_irrefl _ (h.range hnode).2

theorem create (h : Numbered state) (kind : NodeKind) (inputs : List Nat) (info : Meta) :
    Numbered (state.create kind inputs info).2 := by
  refine ⟨fun {id node} hnode => ?_, Nat.succ_pos _⟩
  rw [get?_create] at hnode
  have hafter : (state.create kind inputs info).2.nextId = state.nextId + 1 := rfl
  rw [hafter]
  have hnext := h.next
  split at hnode
  · omega
  · obtain ⟨old, hold, _⟩ := Option.map_eq_some_iff.mp hnode
    have hlt := h.range hold
    omega

-- Making a node leaves the others what they are.
theorem kept_create (h : Numbered state) {id : Nat} {node : Node}
    (hnode : state.nodes.get? id = some node) (kind : NodeKind) (inputs : List Nat) (info : Meta) :
    (state.create kind inputs info).2.nodes.get? id =
      some { node with users := node.users + inputs.count id } := by
  have hlt := (h.range hnode).2
  rw [get?_create, if_neg (by omega), hnode]
  rfl

end Numbered

-- How often the inputs of all nodes name a node.
def edgesIn (nodes : Table Node) (id : Nat) : Nat :=
  nodes.total fun entry => entry.2.inputs.count id

theorem edgesIn_modify (nodes : Table Node) (node id : Nat) (f : Node → Node)
    (hinputs : ∀ info, (f info).inputs = info.inputs) :
    edgesIn (nodes.modify node f) id = edgesIn nodes id :=
  Table.total_modify _ _ _ _ fun info => by simp only [hinputs]

private theorem edgesIn_changeAll (inputs : List Nat) (nodes : Table Node) (id : Nat)
    (f : Node → Node) (hinputs : ∀ info, (f info).inputs = info.inputs) :
    edgesIn (inputs.foldl (fun nodes node => nodes.modify node f) nodes) id =
      edgesIn nodes id := by
  induction inputs generalizing nodes with
  | nil => rfl
  | cons input inputs ih => rw [List.foldl_cons, ih, edgesIn_modify _ _ _ _ hinputs]

theorem edgesIn_addUsers (inputs : List Nat) (nodes : Table Node) (id : Nat) :
    edgesIn (inputs.foldl addUser nodes) id = edgesIn nodes id :=
  edgesIn_changeAll inputs nodes id _ fun _ => rfl

theorem edgesIn_dropUsers (inputs : List Nat) (nodes : Table Node) (id : Nat) :
    edgesIn (inputs.foldl dropUser nodes) id = edgesIn nodes id :=
  edgesIn_changeAll inputs nodes id _ fun _ => rfl

theorem edgesIn_erase (nodes : Table Node) {node : Nat} {info : Node}
    (h : nodes.get? node = some info) (id : Nat) :
    edgesIn (nodes.erase node) id + info.inputs.count id = edgesIn nodes id :=
  Table.total_erase nodes (fun entry => entry.2.inputs.count id) h

theorem edgesIn_insert (nodes : Table Node) {node : Nat} (info : Node)
    (h : nodes.get? node = none) (id : Nat) :
    edgesIn (nodes.insert node info) id = info.inputs.count id + edgesIn nodes id :=
  Table.total_insert_fresh nodes (fun entry => entry.2.inputs.count id) h

theorem count_le_edgesIn (nodes : Table Node) {node : Nat} {info : Node}
    (h : nodes.get? node = some info) (id : Nat) : info.inputs.count id ≤ edgesIn nodes id :=
  Table.le_total nodes (fun entry => entry.2.inputs.count id) h

-- The counts of a graph are in order when some holds beside its edges are known. Every input is
-- there and older than the node that reads it, every user is an edge or a hold, and grids are kept
-- for nodes that are there.
structure Counted (state : State) (holds : List Nat) : Prop where
  numbered : Numbered state
  input_live : ∀ {id node}, state.nodes.get? id = some node →
    ∀ input ∈ node.inputs, state.nodes.contains input = true ∧ input < id
  users_eq : ∀ {id node}, state.nodes.get? id = some node →
    node.users = edgesIn state.nodes id + holds.count id
  hold_live : ∀ id ∈ holds, state.nodes.contains id = true
  computed_live : ∀ id, state.computed.contains id = true → state.nodes.contains id = true

namespace Counted

variable {state : State} {holds : List Nat}

-- A node without users is neither an input nor held.
theorem unused (h : Counted state holds) {id : Nat} {node : Node}
    (hnode : state.nodes.get? id = some node) (hdead : node.isDead = true) :
    id ∉ holds ∧ ∀ {other info}, state.nodes.get? other = some info → id ∉ info.inputs := by
  have husers : node.users = 0 := by
    simp only [Node.isDead, Bool.and_eq_true, decide_eq_true_eq] at hdead
    exact hdead.2
  have hsum := h.users_eq hnode
  refine ⟨List.count_eq_zero.mp (by omega), fun hother => List.count_eq_zero.mp ?_⟩
  have hle := count_le_edgesIn state.nodes hother id
  omega

theorem congr {other : State} (h : Counted state holds) (hnodes : other.nodes = state.nodes)
    (hnext : other.nextId = state.nextId) (hcomputed : other.computed = state.computed) :
    Counted other holds := by
  constructor
  · exact ⟨by rw [hnodes, hnext]; exact h.numbered.range, hnext ▸ h.numbered.next⟩
  · rw [hnodes]; exact h.input_live
  · rw [hnodes]; exact h.users_eq
  · rw [hnodes]; exact h.hold_live
  · rw [hnodes, hcomputed]; exact h.computed_live

end Counted

end MapAlgebra.Graph.State
