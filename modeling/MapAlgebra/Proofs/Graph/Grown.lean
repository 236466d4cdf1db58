import MapAlgebra.Proofs.Graph.Outline
import MapAlgebra.Proofs.Graph.Tended
import Mathlib.Algebra.Order.BigOperators.Group.List
import Mathlib.Algebra.Order.Group.Nat

namespace MapAlgebra.Graph

-- A node that nobody holds or reads.
def State.Spent (state : State) (id : Nat) : Prop :=
  ∃ node, state.nodes.get? id = some node ∧ node.isDead = true

open State

-- A graph that still has all nodes of an earlier one. It may have more of them, of which none reads
-- a node that was spent, and nothing else has changed but the counts.
structure Extends (base state : State) : Prop where
  beside : { state with nodes := base.nodes, nextId := base.nextId } = base
  next : base.nextId ≤ state.nextId
  outline : (outline state.nodes).filter (·.1 < base.nextId) = outline base.nodes
  counted : state.Counted state.recorder.held
  unread : ∀ {id}, base.Spent id → ∀ {other node}, state.nodes.get? other = some node →
    id ∉ node.inputs
  handles : ∀ id < base.nextId, 0 < state.refsOf id ↔ 0 < base.refsOf id

namespace Extends

variable {base state : State}

theorem refl (hbase : Consistent base) : Extends base base where
  beside := rfl
  next := le_rfl
  outline := by
    refine List.filter_eq_self.mpr fun entry hentry => ?_
    obtain ⟨node, hnode, _⟩ := mem_outline.mp hentry
    exact decide_eq_true (hbase.counted.numbered.range hnode).2
  counted := hbase.counted
  unread := fun ⟨_, hnode, hdead⟩ => (hbase.counted.unused hnode hdead).2
  handles _ _ := Iff.rfl

theorem recorder (h : Extends base state) : state.recorder = base.recorder := by
  have hsame := congrArg State.recorder h.beside
  exact hsame

-- A node with an earlier number is an earlier node.
theorem earlier (h : Extends base state) {id : Nat} {node : Node} (hlt : id < base.nextId)
    (hnode : state.nodes.get? id = some node) :
    ∃ old, base.nodes.get? id = some old ∧ old.plain = node.plain := by
  refine mem_outline.mp (h.outline ▸ List.mem_filter.mpr ⟨?_, decide_eq_true hlt⟩)
  exact mem_outline.mpr ⟨node, hnode, rfl⟩

-- Earlier nodes are read as often as before, and perhaps by newer nodes too.
theorem edgesIn_le (h : Extends base state) (id : Nat) :
    edgesIn base.nodes id ≤ edgesIn state.nodes id := by
  rw [edgesIn_eq_outline, edgesIn_eq_outline, ← h.outline]
  exact (List.filter_sublist.map _).sum_le_sum fun _ _ => Nat.zero_le _

-- What is dead now was spent before, or is new.
theorem spent_of_dead (h : Extends base state) (hbase : Consistent base) {id : Nat} {node : Node}
    (hnode : state.nodes.get? id = some node) (hdead : node.isDead = true) (hlt : id < base.nextId) :
    base.Spent id := by
  obtain ⟨old, hold, _⟩ := h.earlier hlt hnode
  simp only [Node.isDead, Bool.and_eq_true, decide_eq_true_eq] at hdead
  have hrefs : ¬0 < base.refsOf id := by
    rw [← h.handles id hlt, refsOf_of_get? hnode]
    omega
  have husers := h.counted.users_eq hnode
  have holds := hbase.counted.users_eq hold
  have hedges := h.edgesIn_le id
  rw [h.recorder] at husers
  rw [refsOf_of_get? hold] at hrefs
  refine ⟨old, hold, ?_⟩
  simp only [Node.isDead, Bool.and_eq_true, decide_eq_true_eq]
  omega

-- A change of the counts alone.
theorem recount (h : Extends base state) {next : State}
    (hcounted : next.Counted next.recorder.held)
    (hbeside : { next with nodes := state.nodes } = state)
    (houtline : Graph.outline next.nodes = Graph.outline state.nodes)
    (hhandles : ∀ id < base.nextId, 0 < next.refsOf id ↔ 0 < state.refsOf id) :
    Extends base next where
  beside := by
    rw [← hbeside] at h
    exact h.beside
  next := h.next.trans (congrArg State.nextId hbeside).ge
  outline := houtline ▸ h.outline
  counted := hcounted
  unread hspent other node hnode := by
    obtain ⟨old, hold, hplain⟩ :=
      mem_outline.mp (houtline ▸ mem_outline.mpr ⟨node, hnode, rfl⟩)
    have hinputs : old.plain.inputs = node.plain.inputs := congrArg Node.inputs hplain
    have hunread := h.unread hspent hold
    exact fun hinput => hunread (hinputs.symm ▸ hinput)
  handles id hlt := (hhandles id hlt).trans (h.handles id hlt)

theorem create (h : Extends base state) (hquiet : base.recorder.isRecording = false)
    (kind : NodeKind) {inputs : List Nat} (info : Meta)
    (hlive : ∀ input ∈ inputs, state.nodes.contains input = true)
    (hunspent : ∀ input ∈ inputs, ¬base.Spent input) :
    Extends base (state.create kind inputs info).2 := by
  have hidle : (state.recorder.record state.nextId) = state.recorder := by
    rw [← h.recorder] at hquiet
    unfold Recorder.isRecording at hquiet
    unfold Recorder.record
    split at hquiet
    · cases hquiet
    · cases hquiet
    · rfl
  have hcreated := h.counted.create kind info hlive
  constructor
  · show { state with
      nodes := base.nodes
      nextId := base.nextId
      recorder := state.recorder.record state.nextId } = base
    rw [hidle]
    exact h.beside
  · exact h.next.trans (Nat.le_succ _)
  · rw [outline_create h.counted.numbered.fresh, List.filter_cons_of_neg (by simpa using h.next)]
    exact h.outline
  · exact hcreated.perm (Recorder.held_record _ _)
  · intro id hspent other node hnode
    rw [get?_create] at hnode
    split at hnode
    · cases hnode
      exact fun hinput => hunspent id hinput hspent
    · obtain ⟨old, hold, rfl⟩ := Option.map_eq_some_iff.mp hnode
      have hunread := h.unread hspent hold
      exact hunread
  · intro id hlt
    rw [refsOf_create h.counted.numbered]
    exact h.handles id hlt

-- Freeing a dead node takes none of the earlier ones away.
theorem freed (h : Extends base state) (hbase : Consistent base) {id : Nat} {node : Node}
    (hunspent : ¬base.Spent id) (hnode : state.nodes.get? id = some node)
    (hdead : node.isDead = true) : Extends base (state.freed id node) := by
  have hnew : base.nextId ≤ id :=
    Nat.not_lt.mp fun hlt => hunspent (h.spent_of_dead hbase hnode hdead hlt)
  have houtline : Graph.outline (state.freed id node).nodes =
      (Graph.outline state.nodes).filter (·.1 ≠ id) := by
    rw [← outline_erase]
    exact outline_changeAll node.inputs (state.nodes.erase id) fun _ => rfl
  have hcomputed : state.computed.erase id = state.computed := by
    refine Table.ext_entries (Table.erase_eq_self _ (Option.eq_none_iff_forall_ne_some.mpr ?_))
    intro grid hgrid
    have hkept := congrArg State.computed h.beside
    rw [show state.computed = base.computed from hkept] at hgrid
    have hlive := hbase.counted.computed_live id ((Table.contains_iff _ _).mpr ⟨grid, hgrid⟩)
    exact absurd (hbase.counted.numbered.lt_next hlive) (Nat.not_lt.mpr hnew)
  constructor
  · rw [State.freed, hcomputed]
    exact h.beside
  · exact h.next
  · rw [houtline, List.filter_filter, ← h.outline]
    refine List.filter_congr fun entry _ => ?_
    rw [Bool.and_eq_left_iff_imp]
    intro hlt
    have hentry := of_decide_eq_true hlt
    exact decide_eq_true (by omega)
  · exact h.counted.freed hnode hdead
  · intro other hspent reader info hinfo
    rw [get?_freed] at hinfo
    split at hinfo
    · cases hinfo
    · obtain ⟨old, hold, rfl⟩ := Option.map_eq_some_iff.mp hinfo
      have hunread := h.unread hspent hold
      exact hunread
  · intro other hlt
    rw [refsOf_frees (frees_freed hnode hdead)]
    exact h.handles other hlt

theorem collect (h : Extends base state) (hbase : Consistent base) {id : Nat}
    (hunspent : ¬base.Spent id) : Extends base (state.collect id) := by
  refine @collectFrom_induction_among (Extends base) (¬base.Spent ·) _ _ state
    (List.forall_mem_singleton.mpr hunspent) h fun after id node hafter hid hnode hdead => ?_
  exact ⟨hafter.freed hbase hid hnode hdead, fun input hinput hspent =>
    hafter.unread hspent hnode hinput⟩

end Extends

-- The same where nothing new is dead, unless it is about to be taken.
structure Grown (base : State) (fresh : Nat → Prop) (state : State) : Prop where
  spans : Extends base state
  consistent : Consistent state
  swept : Swept (fun id _ => base.Spent id ∨ fresh id) state

namespace Grown

variable {base state : State} {fresh : Nat → Prop} {node : Address}

theorem refl (hbase : Consistent base) : Grown base (fun _ => False) base where
  spans := .refl hbase
  consistent := hbase
  swept _ info hnode hdead := Or.inl ⟨info, hnode, hdead⟩

theorem tended (h : Grown base fresh state) :
    Tended state state.recorder.held fun id _ => base.Spent id ∨ fresh id :=
  ⟨h.consistent.counted.numbered, h.consistent.counted.capped, h.swept⟩

-- A node with handles was not spent.
theorem unspent (h : Grown base fresh state) (hbase : Consistent base) {id : Nat}
    (hrefs : 0 < state.refsOf id) : ¬base.Spent id := by
  rintro ⟨old, hold, hdead⟩
  have hheld := (h.spans.handles id (hbase.counted.numbered.range hold).2).mp hrefs
  rw [refsOf_of_get? hold] at hheld
  simp only [Node.isDead, Bool.and_eq_true, decide_eq_true_eq] at hdead
  omega

theorem acquire (h : Grown base fresh state) (hnode : base.nextId ≤ node ∨ 0 < state.refsOf node) :
    Grown base (fun id => fresh id ∧ id ≠ node) (state.acquire node) where
  spans := by
    have hconsistent := h.consistent.change (.acquire state node)
    refine h.spans.recount hconsistent.counted rfl (outline_modify _ _ fun _ => rfl)
      fun id hlt => ?_
    rw [State.acquire, refsOf_modify state node (· + 1)]
    split
    · rename_i hid
      have hheld := hnode.resolve_left (hid.1 ▸ Nat.not_le.mpr hlt)
      rw [hid.1]
      omega
    · rfl
  consistent := h.consistent.change (.acquire state node)
  swept := (h.tended.acquire node).swept.mono fun id _ ⟨hspare, hid⟩ =>
    hspare.imp_right fun hfresh => ⟨hfresh, hid⟩

-- The last handle on an earlier node is not given up.
theorem release (h : Grown base (fun _ => False) state) (hbase : Consistent base)
    (hnode : base.nextId ≤ node ∨ 0 < (state.release node).refsOf node ∨ state.refsOf node = 0) :
    Grown base (fun _ => False) (state.release node) := by
  obtain hsame | ⟨info, hinfo, hrefs, hrelease⟩ := state.release_cases node
  · rwa [hsame]
  · have hheld : 0 < state.refsOf node := refsOf_of_get? hinfo ▸ hrefs
    refine ⟨?_, h.consistent.change (.release state node), (h.tended.release node).swept⟩
    rw [hrelease]
    have hcounted := h.consistent.counted.modify_same node
      (f := fun info => { info with refs := info.refs - 1 }) fun _ => ⟨rfl, rfl⟩
    refine Extends.collect (h.spans.recount hcounted rfl (outline_modify _ _ fun _ => rfl)
      fun id hlt => ?_) hbase (h.unspent hbase hheld)
    rw [refsOf_modify state node (· - 1)]
    split
    · rename_i hid
      rw [hid.1] at hlt ⊢
      have hleft := (hnode.resolve_left (Nat.not_le.mpr hlt)).resolve_right hheld.ne'
      rw [refsOf_release, if_pos rfl] at hleft
      omega
    · rfl

-- What a new node reads has handles, or is a new node that stands in for an empty branch.
theorem inputs (h : Grown base (fun _ => False) state) (hbase : Consistent base)
    {request : Construction} {draft : Draft} (hdraft : state.draft request = .ok draft)
    (hbacked : ∀ node ∈ request.nodes, node = Address.null ∨ 0 < state.refsOf node)
    {standIn : Address} (hstandIn : state.nodes.get? standIn = none) :
    ∀ input ∈ request.inputs (· = Address.null) standIn,
      (state.nodes.contains input = true ∧ ¬base.Spent input) ∨
        (input = standIn ∧ draft.standIn.isSome = true) := by
  intro input hinput
  have hnodes : ∀ node ∈ request.nodes, node = Address.null ∨ state.nodes.contains node = true :=
    fun node hnode => (hbacked node hnode).imp_right contains_of_refsOf
  refine (draft_inputs hdraft hnodes standIn input hinput).imp_left fun hlive => ⟨hlive, ?_⟩
  obtain ⟨info, hinfo⟩ := (Table.contains_iff _ _).mp hlive
  obtain hnamed | rfl := Request.mem_inputs hinput
  · obtain rfl | hheld := hbacked input hnamed
    · exact absurd (h.tended.numbered.range hinfo).1 (lt_irrefl 0)
    · exact h.unspent hbase hheld
  · rw [hstandIn] at hinfo
    cases hinfo

-- A new node is made from nodes that have handles.
theorem construct (h : Grown base (fun _ => False) state) (hbase : Consistent base)
    (hquiet : base.recorder.isRecording = false) {next : State} {request : Construction}
    (hbacked : ∀ node ∈ request.nodes, node = Address.null ∨ 0 < state.refsOf node)
    (hnext : state.construct request = .ok (node, next)) : Grown base (· = node) next := by
  have hnodes : ∀ node ∈ request.nodes, node = Address.null ∨ state.nodes.contains node = true :=
    fun node hnode => (hbacked node hnode).imp_right contains_of_refsOf
  refine ⟨?_, h.consistent.changes (Changes.construct hnext hnodes),
    (h.tended.construct hnext).1.swept.mono fun id _ => ?_⟩
  · obtain ⟨draft, hdraft, hplaced⟩ := bind_eq_ok.mp hnext
    rw [pure_eq_ok, place] at hplaced
    cases hstandIn : draft.standIn with
    | none =>
        rw [hstandIn, createZero] at hplaced
        obtain rfl : _ = next := congrArg Prod.snd hplaced
        have hnull : state.nodes.get? Address.null = none :=
          Option.eq_none_iff_forall_ne_some.mpr fun _ hnode =>
            absurd (h.tended.numbered.range hnode).1 (lt_irrefl 0)
        have hinputs := h.inputs hbase hdraft hbacked hnull
        simp only [hstandIn, Option.isSome_none, Bool.false_eq_true, and_false, or_false] at hinputs
        exact h.spans.create hquiet _ _ (fun input hinput => (hinputs input hinput).1)
          fun input hinput => (hinputs input hinput).2
    | some info =>
        rw [hstandIn, createZero] at hplaced
        obtain rfl : _ = next := congrArg Prod.snd hplaced
        have hinputs := h.inputs hbase hdraft hbacked h.tended.numbered.fresh
        refine (h.spans.create hquiet _ info (by simp) (by simp)).create hquiet _ _ (fun input hinput => ?_)
          fun input hinput => ?_
        · obtain ⟨hlive, _⟩ | ⟨rfl, _⟩ := hinputs input hinput
          · exact contains_create (Or.inr hlive)
          · exact contains_create (Or.inl rfl)
        · obtain ⟨_, hunspent⟩ | ⟨rfl, _⟩ := hinputs input hinput
          · exact hunspent
          · rintro ⟨old, hold, _⟩
            exact absurd (hbase.counted.numbered.range hold).2 (Nat.not_lt.mpr h.spans.next)
  · rintro ((hspent | hnone) | hnew)
    · exact Or.inl hspent
    · exact hnone.elim
    · exact Or.inr hnew

-- When all handles are those that were there before, nothing has been added.
theorem settled (h : Grown base (fun _ => False) state) (hbase : Consistent base)
    (hrefs : ∀ id, state.refsOf id = base.refsOf id) :
    state = { base with nextId := state.nextId } := by
  have hunknown : ∀ id, base.nextId ≤ id → base.nodes.get? id = none := fun id hid =>
    Option.eq_none_iff_forall_ne_some.mpr fun _ hnode =>
      absurd (hbase.counted.numbered.range hnode).2 (Nat.not_lt.mpr hid)
  have hnone : ∀ {id}, base.nextId ≤ id → state.nodes.get? id = none := by
    refine h.tended.none_above (fun id hid => ?_)
      (fun id hid => (hrefs id).trans (refsOf_of_none (hunknown id hid))) ?_
    · rw [h.spans.recorder] at hid
      exact hbase.counted.numbered.lt_next (hbase.counted.hold_live id hid)
    · rintro id node hid - (⟨old, hold, _⟩ | hfresh)
      · rw [hunknown id hid] at hold
        cases hold
      · exact hfresh
  have houtline : outline state.nodes = outline base.nodes := by
    refine Eq.trans (Eq.symm (List.filter_eq_self.mpr fun entry hentry => ?_)) h.spans.outline
    obtain ⟨node, hnode, _⟩ := mem_outline.mp hentry
    refine decide_eq_true (Nat.not_le.mp fun hle => ?_)
    rw [hnone hle] at hnode
    cases hnode
  have hnodes : state.nodes = base.nodes := by
    refine eq_of_outline houtline fun id now old hnow hold => ⟨?_, ?_⟩
    · rw [← refsOf_of_get? hnow, ← refsOf_of_get? hold, hrefs]
    · rw [h.consistent.counted.users_eq hnow, hbase.counted.users_eq hold, h.spans.recorder,
        edgesIn_eq_outline, edgesIn_eq_outline, houtline]
  calc state = { { state with nodes := base.nodes, nextId := base.nextId } with
          nodes := state.nodes, nextId := state.nextId } := rfl
    _ = { base with nodes := state.nodes, nextId := state.nextId } := by rw [h.spans.beside]
    _ = { base with nextId := state.nextId } := by rw [hnodes]

end Grown

end MapAlgebra.Graph
