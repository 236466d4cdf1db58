import MapAlgebra.Proofs.Graph.Collect

namespace MapAlgebra.Graph.State

-- Nothing is dead but what is spared.
def Swept (spare : Nat → NodeKind → Prop) (state : State) : Prop :=
  ∀ ⦃id node⦄, state.nodes.get? id = some node → node.isDead = true → spare id node.kind

theorem Swept.mono {spare more : Nat → NodeKind → Prop} {state : State} (h : Swept spare state)
    (hmore : ∀ id kind, spare id kind → more id kind) : Swept more state :=
  fun _ _ hnode hdead => hmore _ _ (h hnode hdead)

theorem Swept.modify {spare less : Nat → NodeKind → Prop} {state : State} {node : Nat}
    {f : Node → Node} (h : Swept spare state)
    (hother : ∀ id kind, id ≠ node → spare id kind → less id kind)
    (hnode : ∀ info, state.nodes.get? node = some info → (f info).isDead = true →
      less node (f info).kind) :
    Swept less { state with nodes := state.nodes.modify node f } := by
  intro id info hinfo hdead
  rw [Table.get?_modify] at hinfo
  split at hinfo
  · rename_i hid
    subst hid
    obtain ⟨old, hold, rfl⟩ := Option.map_eq_some_iff.mp hinfo
    exact hnode old hold hdead
  · rename_i hid
    exact hother _ _ hid (h hinfo hdead)

theorem edgeCount_eq (state : State) :
    state.edgeCount = state.nodes.total fun entry => entry.2.inputs.length := by
  rw [edgeCount, Table.total, List.foldr_map]

private theorem total_changeAll (inputs : List Nat) (nodes : Table Node) (f : Node → Node)
    (count : Nat × Node → Nat) (hcount : ∀ id info, count (id, f info) = count (id, info)) :
    (inputs.foldl (fun nodes node => nodes.modify node f) nodes).total count =
      nodes.total count := by
  induction inputs generalizing nodes with
  | nil => rfl
  | cons input inputs ih =>
      rw [List.foldl_cons, ih]
      exact Table.total_modify _ _ _ _ fun info => hcount _ _

theorem total_dropUsers (inputs : List Nat) (nodes : Table Node) (count : Nat × Node → Nat)
    (hcount : ∀ id info users, count (id, { info with users }) = count (id, info)) :
    (inputs.foldl dropUser nodes).total count = nodes.total count :=
  total_changeAll inputs nodes _ count fun _ _ => hcount _ _ _

theorem total_addUsers (inputs : List Nat) (nodes : Table Node) (count : Nat × Node → Nat)
    (hcount : ∀ id info users, count (id, { info with users }) = count (id, info)) :
    (inputs.foldl addUser nodes).total count = nodes.total count :=
  total_changeAll inputs nodes _ count fun _ _ => hcount _ _ _

theorem edgeCount_freed {state : State} {id : Nat} {node : Node}
    (hnode : state.nodes.get? id = some node) :
    (state.freed id node).edgeCount + node.inputs.length = state.edgeCount := by
  rw [edgeCount_eq, edgeCount_eq, freed]
  simp only
  rw [total_dropUsers _ _ _ fun _ _ _ => rfl]
  exact Table.total_erase state.nodes (fun entry => entry.2.inputs.length) hnode

-- A node that dies with another one is one of its inputs.
theorem Swept.freed {spare : Nat → NodeKind → Prop} {state : State} {id : Nat} {node : Node}
    {pending : List Nat}
    (h : Swept (fun other kind => spare other kind ∨ other ∈ id :: pending) state) :
    Swept (fun other kind => spare other kind ∨ other ∈ node.inputs ++ pending)
      (state.freed id node) := by
  intro other info hinfo hdead
  rw [get?_freed] at hinfo
  split at hinfo
  · cases hinfo
  · rename_i hne
    obtain ⟨old, hold, rfl⟩ := Option.map_eq_some_iff.mp hinfo
    by_cases hinput : other ∈ node.inputs
    · exact Or.inr (List.mem_append_left _ hinput)
    · rw [List.count_eq_zero.mpr hinput] at hdead
      refine (h hold hdead).imp_right fun hpending => ?_
      exact List.mem_append_right _ ((List.mem_cons.mp hpending).resolve_left hne)

-- The fuel is never used up: each round takes a node or an edge away.
theorem swept_collectFrom {spare : Nat → NodeKind → Prop} {fuel : Nat} {pending : List Nat}
    {state : State} (hfuel : pending.length + state.edgeCount < fuel)
    (h : Swept (fun id kind => spare id kind ∨ id ∈ pending) state) :
    Swept spare (state.collectFrom fuel pending) := by
  induction fuel generalizing state pending with
  | zero => omega
  | succ fuel ih =>
      cases pending with
      | nil =>
          rw [collectFrom]
          exact h.mono fun id kind hspare => hspare.resolve_right List.not_mem_nil
      | cons id pending =>
          rw [List.length_cons] at hfuel
          -- a pending node that is not dead is not among the dead ones
          have hrest : (∀ node, state.nodes.get? id = some node → node.isDead = false) →
              Swept (fun other kind => spare other kind ∨ other ∈ pending) state := by
            intro halive other info hinfo hdead
            refine (h hinfo hdead).imp_right fun hpending => ?_
            refine (List.mem_cons.mp hpending).resolve_left fun hsame => ?_
            rw [halive info (hsame ▸ hinfo)] at hdead
            cases hdead
          rw [collectFrom]
          split
          · rename_i hnone
            refine ih (by omega) (hrest fun node hnode => ?_)
            rw [hnone] at hnode
            cases hnode
          · rename_i node hnode
            split
            · have hedges := edgeCount_freed hnode
              refine ih ?_ h.freed
              rw [List.length_append]
              show _ + (state.freed id node).edgeCount < fuel
              omega
            · rename_i halive
              refine ih (by omega) (hrest fun info hinfo => ?_)
              rw [hnode] at hinfo
              cases hinfo
              exact Bool.eq_false_iff.mpr halive

theorem swept_collect {spare : Nat → NodeKind → Prop} {state : State} {id : Nat}
    (h : Swept (fun other kind => spare other kind ∨ other = id) state) :
    Swept spare (state.collect id) := by
  refine swept_collectFrom ?_ (h.mono fun other kind hspare => ?_)
  · rw [List.length_singleton]
    omega
  · exact hspare.imp_right List.mem_singleton.mpr

-- How often the inputs of later nodes name a node.
def edgesAbove (nodes : Table Node) (id : Nat) : Nat :=
  nodes.total fun entry => if id < entry.1 then entry.2.inputs.count id else 0

-- Every user of a node is a later node or a hold. A node may have fewer users than that.
def Capped (state : State) (holds : List Nat) : Prop :=
  ∀ ⦃id node⦄, state.nodes.get? id = some node →
    node.users ≤ edgesAbove state.nodes id + holds.count id

namespace Capped

variable {state : State} {holds : List Nat}

theorem modify {node : Nat} {f : Node → Node} {more : List Nat} (h : Capped state holds)
    (hinputs : ∀ info, (f info).inputs = info.inputs)
    (hnode : ∀ info edges, info.users ≤ edges + holds.count node →
      (f info).users ≤ edges + more.count node)
    (hother : ∀ id, id ≠ node → holds.count id ≤ more.count id) :
    Capped { state with nodes := state.nodes.modify node f } more := by
  intro id info hinfo
  have hedges : edgesAbove (state.nodes.modify node f) id = edgesAbove state.nodes id :=
    Table.total_modify _ _ _ _ fun info => by simp only [hinputs]
  rw [hedges]
  rw [Table.get?_modify] at hinfo
  split at hinfo
  · rename_i hid
    subst hid
    obtain ⟨old, hold, rfl⟩ := Option.map_eq_some_iff.mp hinfo
    exact hnode old _ (h hold)
  · rename_i hid
    have hcount := hother id hid
    have hcap := h hinfo
    omega

theorem freed (h : Capped state holds) {id : Nat} {node : Node}
    (hnode : state.nodes.get? id = some node) : Capped (state.freed id node) holds := by
  intro other info hinfo
  rw [get?_freed] at hinfo
  split at hinfo
  · cases hinfo
  · obtain ⟨old, hold, rfl⟩ := Option.map_eq_some_iff.mp hinfo
    have hcap := h hold
    have hedges : edgesAbove (state.freed id node).nodes other =
        edgesAbove (state.nodes.erase id) other := total_dropUsers _ _ _ fun _ _ _ => rfl
    have hsum : edgesAbove (state.nodes.erase id) other +
        (if other < id then node.inputs.count other else 0) = edgesAbove state.nodes other :=
      Table.total_erase state.nodes _ hnode
    rw [hedges]
    show old.users - node.inputs.count other ≤ _
    split at hsum <;> omega

theorem collect (h : Capped state holds) (id : Nat) : Capped (state.collect id) holds :=
  collectFrom_induction (motive := (Capped · holds)) _ _ state h
    fun _ _ _ hcapped hnode _ => hcapped.freed hnode

theorem create (h : Capped state holds) (hnumbered : Numbered state) (kind : NodeKind)
    (inputs : List Nat) (info : Meta) :
    Capped (state.create kind inputs info).2
      (List.replicate (if state.recorder.isRecording then 1 else 0) state.nextId ++ holds) := by
  intro id node hnode
  have hfresh : (inputs.foldl addUser state.nodes).get? state.nextId = none := by
    rw [get?_addUsers, hnumbered.fresh]
    rfl
  have hedges : edgesAbove (state.create kind inputs info).2.nodes id =
      (if id < state.nextId then inputs.count id else 0) + edgesAbove state.nodes id := by
    refine (Table.total_insert_fresh _ _ hfresh).trans ?_
    rw [total_addUsers _ _ _ fun _ _ _ => rfl]
    rfl
  rw [hedges, List.count_append, List.count_replicate]
  rw [get?_create] at hnode
  split at hnode
  · rename_i hid
    cases hnode
    rw [if_pos (beq_iff_eq.mpr hid.symm)]
    show (if state.recorder.isRecording then 1 else 0) ≤ _
    omega
  · obtain ⟨old, hold, rfl⟩ := Option.map_eq_some_iff.mp hnode
    have hcap := h hold
    rw [if_pos (hnumbered.range hold).2]
    show old.users + inputs.count id ≤ _
    omega

end Capped

end MapAlgebra.Graph.State
