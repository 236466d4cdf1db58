import MapAlgebra.Proofs.Graph.Reclaim

namespace MapAlgebra.Graph

-- A node without its counts.
def Node.plain (node : Node) : Node := { node with refs := 0, users := 0 }

theorem Node.eq_of_plain {a b : Node} (hplain : a.plain = b.plain) (hrefs : a.refs = b.refs)
    (husers : a.users = b.users) : a = b := by
  cases a
  cases b
  obtain ⟨rfl, rfl, rfl, -, -⟩ := Node.mk.inj hplain
  obtain rfl := hrefs
  obtain rfl := husers
  rfl

-- What a graph says of its nodes apart from the counts, in the order in which it lists them.
def outline (nodes : Table Node) : List (Nat × Node) :=
  nodes.entries.map fun entry => (entry.1, entry.2.plain)

theorem mem_outline {nodes : Table Node} {id : Nat} {plain : Node} :
    (id, plain) ∈ outline nodes ↔ ∃ node, nodes.get? id = some node ∧ node.plain = plain := by
  constructor
  · intro h
    obtain ⟨entry, hentry, hsame⟩ := List.mem_map.mp h
    obtain ⟨rfl, rfl⟩ := Prod.mk.inj hsame
    exact ⟨entry.2, (Table.get?_eq_some_iff nodes entry.1 entry.2).mpr hentry, rfl⟩
  · rintro ⟨node, hnode, rfl⟩
    exact List.mem_map.mpr ⟨(id, node), (Table.get?_eq_some_iff nodes id node).mp hnode, rfl⟩

-- Counts change without a trace in the outline.
theorem outline_modify (nodes : Table Node) (id : Nat) {f : Node → Node}
    (hf : ∀ node, (f node).plain = node.plain) : outline (nodes.modify id f) = outline nodes := by
  unfold outline Table.modify
  rw [List.map_map]
  refine List.map_congr_left fun entry _ => ?_
  simp only [Function.comp]
  split
  · rw [hf]
  · rfl

theorem outline_changeAll (inputs : List Nat) (nodes : Table Node) {f : Node → Node}
    (hf : ∀ node, (f node).plain = node.plain) :
    outline (inputs.foldl (fun nodes node => nodes.modify node f) nodes) = outline nodes := by
  induction inputs generalizing nodes with
  | nil => rfl
  | cons input inputs ih => rw [List.foldl_cons, ih, outline_modify nodes input hf]

theorem outline_erase (nodes : Table Node) (id : Nat) :
    outline (nodes.erase id) = (outline nodes).filter (·.1 ≠ id) := by
  unfold outline Table.erase
  rw [List.filter_map]
  rfl

theorem outline_create {state : State} (hfresh : state.nodes.get? state.nextId = none)
    (kind : NodeKind) (inputs : List Nat) (info : Meta) :
    outline (state.create kind inputs info).2.nodes =
      (state.nextId, ⟨kind, inputs, info, 0, 0⟩) :: outline state.nodes := by
  have hnone : (inputs.foldl State.addUser state.nodes).get? state.nextId = none := by
    rw [State.get?_addUsers, hfresh]
    rfl
  have hentries := Table.erase_eq_self _ hnone
  have hkept : outline (inputs.foldl State.addUser state.nodes) = outline state.nodes :=
    outline_changeAll inputs state.nodes fun _ => rfl
  simp only [State.create, outline, Table.insert, List.map_cons, hentries]
  exact congrArg _ hkept

theorem edgesIn_eq_outline (nodes : Table Node) (id : Nat) :
    State.edgesIn nodes id =
      ((outline nodes).map fun entry => entry.2.inputs.count id).foldr (· + ·) 0 := by
  rw [State.edgesIn, Table.total, outline, List.map_map]
  rfl

-- Entries of one outline with the same counts are the same.
private theorem entries_eq_of_outline {left right : List (Nat × Node)}
    (houtline : (left.map fun entry => (entry.1, entry.2.plain)) =
      right.map fun entry => (entry.1, entry.2.plain))
    (hcounts : ∀ id a b, (id, a) ∈ left → (id, b) ∈ right → a.refs = b.refs ∧ a.users = b.users) :
    left = right := by
  induction left generalizing right with
  | nil => exact (List.map_eq_nil_iff.mp houtline.symm).symm
  | cons entry left ih =>
      obtain ⟨id, a⟩ := entry
      obtain ⟨⟨other, b⟩, rest, rfl, hentry, hrest⟩ := List.map_eq_cons_iff.mp houtline.symm
      obtain ⟨rfl, hplain⟩ : other = id ∧ b.plain = a.plain := Prod.mk.inj hentry
      obtain ⟨hrefs, husers⟩ := hcounts _ a b List.mem_cons_self List.mem_cons_self
      rw [Node.eq_of_plain hplain.symm hrefs husers, ih hrest.symm fun id a b ha hb =>
        hcounts id a b (List.mem_cons_of_mem _ ha) (List.mem_cons_of_mem _ hb)]

-- A table of nodes is given by its outline and its counts.
theorem eq_of_outline {a b : Table Node} (houtline : outline a = outline b)
    (hcounts : ∀ id left right, a.get? id = some left → b.get? id = some right →
      left.refs = right.refs ∧ left.users = right.users) : a = b := by
  have hentries : a.entries = b.entries := entries_eq_of_outline houtline
    fun id left right hleft hright => hcounts id left right
      ((Table.get?_eq_some_iff a id left).mpr hleft) ((Table.get?_eq_some_iff b id right).mpr hright)
  exact Table.ext_entries hentries

namespace State

-- As inputs are older than what reads them, every edge is an edge from a later node.
theorem Counted.edgesAbove_eq {state : State} {holds : List Nat} (h : Counted state holds)
    (id : Nat) : edgesAbove state.nodes id = edgesIn state.nodes id := by
  refine Table.total_congr _ fun other node hnode => ?_
  by_cases hlt : id < other
  · exact if_pos hlt
  · rw [if_neg hlt, eq_comm, List.count_eq_zero]
    exact fun hinput => hlt (h.input_live hnode id hinput).2

theorem Counted.capped {state : State} {holds : List Nat} (h : Counted state holds) :
    Capped state holds := by
  intro id node hnode
  have hedges := h.edgesAbove_eq id
  have husers := h.users_eq hnode
  omega

end State

end MapAlgebra.Graph
