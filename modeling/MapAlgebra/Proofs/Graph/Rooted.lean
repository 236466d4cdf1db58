import MapAlgebra.Proofs.Graph.Idle
import MapAlgebra.Proofs.Graph.Outline
import MapAlgebra.Proofs.Graph.Tended
import Mathlib.Order.WellFounded

namespace MapAlgebra.Graph

namespace State

-- A node that is there uses one of its inputs.
def Uses (state : State) (reader input : Nat) : Prop :=
  ∃ node, state.nodes.get? reader = some node ∧ input ∈ node.inputs

-- A node that has neither handles nor users: nobody has taken it yet.
def Untaken (state : State) (id : Nat) : Prop :=
  ∃ node, state.nodes.get? id = some node ∧ node.isDead = true

theorem Untaken.there {state : State} {id : Nat} (h : Untaken state id) :
    state.nodes.contains id = true := by
  obtain ⟨node, hnode, _⟩ := h
  exact (Table.contains_iff _ _).mpr ⟨node, hnode⟩

-- Why a node stays when others are freed.
inductive Root (before after : State) (id : Nat) : Prop
  | handled (h : 0 < after.refsOf id)
  | held (h : id ∈ after.recorder.held)
  | untaken (h : Untaken before id)

-- What can be reached from a root along inputs.
def Rooted (before after : State) (id : Nat) : Prop :=
  ∃ root, Root before after root ∧ Relation.ReflTransGen after.Uses root id

-- Exactly what roots reach is left, and it is what it was.
structure Reclaims (before after : State) : Prop where
  left_iff : ∀ id, after.nodes.contains id = true ↔ Rooted before after id
  same : ∀ {id node}, after.nodes.get? id = some node → ∃ old, before.nodes.get? id = some old ∧
    node.kind = old.kind ∧ node.inputs = old.inputs ∧ node.info = old.info

-- One step of the worklist, whichever pending node it takes.
inductive WorkStep : State × List Nat → State × List Nat → Prop
  | pass {state : State} (id : Nat) (earlier later : List Nat)
      (halive : ∀ node, state.nodes.get? id = some node → node.isDead = false) :
      WorkStep (state, earlier ++ id :: later) (state, earlier ++ later)
  | free {state : State} {id : Nat} {node : Node} (earlier later : List Nat)
      (hnode : state.nodes.get? id = some node) (hdead : node.isDead = true) :
      WorkStep (state, earlier ++ id :: later)
        (state.freed id node, earlier ++ node.inputs ++ later)

-- Every step takes a pending node away, and each that it adds is an edge less.
theorem WorkStep.work_lt {before after : State × List Nat} (h : WorkStep before after) :
    after.2.length + after.1.edgeCount < before.2.length + before.1.edgeCount := by
  cases h with
  | pass id earlier later =>
      simp only [List.length_append, List.length_cons]
      omega
  | free earlier later hnode hdead =>
      have hedges := edgeCount_freed hnode
      simp only [List.length_append, List.length_cons]
      omega

-- The worklist comes to its end in whatever order it is worked off.
theorem workSteps_end : WellFounded (Function.swap WorkStep) :=
  Subrelation.wf WorkStep.work_lt
    (measure fun work : State × List Nat => work.2.length + work.1.edgeCount).wf

-- The fuel lasts until nothing is pending.
theorem workSteps_collectFrom {fuel : Nat} {pending : List Nat} {state : State}
    (hfuel : pending.length + state.edgeCount < fuel) :
    Relation.ReflTransGen WorkStep (state, pending) (state.collectFrom fuel pending, []) := by
  induction fuel generalizing state pending with
  | zero => omega
  | succ fuel ih =>
      cases pending with
      | nil => rw [collectFrom]
      | cons id pending =>
          rw [List.length_cons] at hfuel
          -- whatever is not dead is passed over
          have hpass : (∀ node, state.nodes.get? id = some node → node.isDead = false) →
              Relation.ReflTransGen WorkStep (state, id :: pending)
                (state.collectFrom fuel pending, []) :=
            fun halive => .head (.pass id [] pending halive) (ih (by rw [List.nil_append]; omega))
          rw [collectFrom]
          split
          · rename_i hnone
            exact hpass fun node hnode => by rw [hnone] at hnode; cases hnode
          · rename_i node hnode
            split
            · rename_i hdead
              have hedges := edgeCount_freed hnode
              refine .head (.free [] pending hnode hdead) (ih ?_)
              rw [List.nil_append, List.length_append]
              omega
            · rename_i halive
              refine hpass fun info hinfo => ?_
              rw [hnode] at hinfo
              cases hinfo
              exact Bool.eq_false_iff.mpr halive

theorem workSteps_collect (state : State) (id : Nat) :
    Relation.ReflTransGen WorkStep (state, [id]) (state.collect id, []) :=
  workSteps_collectFrom (by simp only [List.length_singleton]; omega)

-- A node that is an input has a reader.
theorem exists_reader {nodes : Table Node} {id : Nat} (h : 0 < edgesIn nodes id) :
    ∃ reader node, nodes.get? reader = some node ∧ id ∈ node.inputs := by
  by_contra hnone
  simp only [not_exists, not_and] at hnone
  have hzero : edgesIn nodes id = 0 := Table.total_eq_zero _ _ fun reader node hnode =>
    List.count_eq_zero.mpr (hnone reader node hnode)
  omega

section Left

variable {before after : State}

-- A node that is left is a root or read by a newer one that is left.
theorem rooted_of_left (hcounted : Counted after after.recorder.held)
    (hswept : Swept (fun id _ => Untaken before id) after)
    {id : Nat} {node : Node} (hnode : after.nodes.get? id = some node) :
    Rooted before after id := by
  induction hgap : after.nextId - id using Nat.strongRecOn generalizing id node with
  | ind gap ih =>
      by_cases hdead : node.isDead = true
      · exact ⟨id, .untaken (hswept hnode hdead), .refl⟩
      by_cases hrefs : 0 < node.refs
      · exact ⟨id, .handled (refsOf_of_get? hnode ▸ hrefs), .refl⟩
      by_cases hheld : id ∈ after.recorder.held
      · exact ⟨id, .held hheld, .refl⟩
      have husers := hcounted.users_eq hnode
      rw [List.count_eq_zero.mpr hheld] at husers
      have hused : 0 < edgesIn after.nodes id := by
        simp only [Node.isDead, Bool.and_eq_true, decide_eq_true_eq] at hdead
        omega
      obtain ⟨reader, info, hreader, hinput⟩ := exists_reader hused
      have hlt := (hcounted.input_live hreader id hinput).2
      have hrange := (hcounted.numbered.range hreader).2
      obtain ⟨root, hroot, hpath⟩ := ih (after.nextId - reader) (by omega) hreader rfl
      exact ⟨root, hroot, hpath.tail ⟨info, hreader, hinput⟩⟩

theorem left_of_rooted (hcounted : Counted after after.recorder.held)
    (huntaken : ∀ {id}, Untaken before id → after.nodes.contains id = true)
    {id : Nat} (h : Rooted before after id) : after.nodes.contains id = true := by
  obtain ⟨root, hroot, hpath⟩ := h
  induction hpath with
  | refl =>
      cases hroot with
      | handled hrefs => exact contains_of_refsOf hrefs
      | held hheld => exact hcounted.hold_live root hheld
      | untaken hdead => exact huntaken hdead
  | tail _ hread _ =>
      obtain ⟨node, hnode, hinput⟩ := hread
      exact (hcounted.input_live hnode _ hinput).1

-- What is left after freeing exactly what is not wanted any more.
theorem reclaims_of (hcounted : Counted after after.recorder.held)
    (hswept : Swept (fun id _ => Untaken before id) after)
    (huntaken : ∀ {id}, Untaken before id → after.nodes.contains id = true)
    (houtline : outline after.nodes ⊆ outline before.nodes) : Reclaims before after where
  left_iff id := by
    refine ⟨fun hleft => ?_, left_of_rooted hcounted huntaken⟩
    obtain ⟨node, hnode⟩ := (Table.contains_iff _ _).mp hleft
    exact rooted_of_left hcounted hswept hnode
  same {id node} hnode := by
    obtain ⟨old, hold, hplain⟩ := mem_outline.mp (houtline (mem_outline.mpr ⟨node, hnode, rfl⟩))
    obtain ⟨hkind, hinputs, hinfo, -, -⟩ := Node.mk.inj hplain
    exact ⟨old, hold, hkind.symm, hinputs.symm, hinfo.symm⟩

end Left

theorem Frees.outline {before after : State} (h : Frees before after) :
    Graph.outline after.nodes ⊆ Graph.outline before.nodes := by
  rintro ⟨id, plain⟩ hentry
  obtain ⟨node, hnode, rfl⟩ := mem_outline.mp hentry
  obtain ⟨old, hold, hsame⟩ := h.kept hnode
  exact mem_outline.mpr ⟨old, hold, by rw [hsame]; rfl⟩

theorem outline_dropUser (nodes : Table Node) (id : Nat) :
    outline (dropUser nodes id) = outline nodes := outline_modify nodes id fun _ => rfl

-- A node that nobody used before is no input of what is left and never becomes pending.
theorem untaken_collect {base state : State} {holds : List Nat} (hbase : Counted base holds)
    (hleft : outline state.nodes ⊆ outline base.nodes) {fresh id : Nat}
    (huntaken : Untaken base fresh) (hne : id ≠ fresh)
    (hthere : state.nodes.contains fresh = true) :
    (state.collect id).nodes.contains fresh = true := by
  obtain ⟨node, hnode, hdead⟩ := huntaken
  refine (@collectFrom_induction_among
    (fun state => outline state.nodes ⊆ outline base.nodes ∧ state.nodes.contains fresh = true)
    (· ≠ fresh) _ _ state ?_ ⟨hleft, hthere⟩ ?_).2
  · exact fun other hother => List.mem_singleton.mp hother ▸ hne
  · rintro state other info ⟨hleft, hthere⟩ hother hinfo hdeadInfo
    refine ⟨⟨List.Subset.trans (frees_freed hinfo hdeadInfo).outline hleft, ?_⟩,
      fun input hinput hsame => ?_⟩
    · rw [Table.contains, get?_freed, if_neg hother.symm, Option.isSome_map]
      exact hthere
    · obtain ⟨old, hold, hplain⟩ := mem_outline.mp (hleft (mem_outline.mpr ⟨info, hinfo, rfl⟩))
      have hinputs : old.inputs = info.inputs := congrArg (·.inputs) hplain
      exact (hbase.unused hnode hdead).2 hold (hinputs ▸ hsame ▸ hinput)

theorem untaken_endHolds {base state : State} {holds held : List Nat}
    (hbase : Counted base holds) (hleft : outline state.nodes ⊆ outline base.nodes) {fresh : Nat}
    (huntaken : Untaken base fresh) (hfresh : fresh ∉ held)
    (hthere : state.nodes.contains fresh = true) :
    (held.foldl endHold state).nodes.contains fresh = true := by
  induction held generalizing state with
  | nil => exact hthere
  | cons id held ih =>
      obtain ⟨hne, hrest⟩ := List.ne_and_not_mem_of_not_mem_cons hfresh
      refine ih (List.Subset.trans (frees_endHold state id).outline hleft) hrest ?_
      refine untaken_collect hbase ?_ huntaken (Ne.symm hne) ?_
      · exact outline_dropUser state.nodes id ▸ hleft
      · exact (contains_modify ..).trans hthere

-- Nothing is dead but what is dead now.
theorem tended_here {state : State} {holds : List Nat} (h : Counted state holds) :
    Tended state holds fun id _ => Untaken state id :=
  ⟨h.numbered, h.capped, fun _ node hnode hdead => ⟨node, hnode, hdead⟩⟩

end State

namespace Consistent

open State

variable {state : State}

theorem reclaims_release (h : Consistent state) (node : Address) :
    Reclaims state (state.release node) := by
  have hcounted := h.counted_change (.release state node)
  have hswept := ((tended_here h.counted).release node).swept
  obtain hsame | ⟨info, hinfo, hrefs, hrelease⟩ := state.release_cases node
  · rw [hsame] at hcounted hswept ⊢
    exact reclaims_of hcounted hswept Untaken.there (List.Subset.refl _)
  · rw [hrelease] at hcounted hswept ⊢
    -- taking a handle away shows in the counts alone
    have hmodified : outline (state.nodes.modify node fun info =>
        { info with refs := info.refs - 1 }) = outline state.nodes :=
      outline_modify _ _ fun _ => rfl
    refine reclaims_of hcounted hswept (fun {id} huntaken => ?_) ?_
    · have hne : node ≠ id := by
        rintro rfl
        obtain ⟨fresh, hfresh, hdead⟩ := huntaken
        rw [hinfo] at hfresh
        cases hfresh
        simp only [Node.isDead, Bool.and_eq_true, decide_eq_true_eq] at hdead
        omega
      exact untaken_collect h.counted (hmodified ▸ List.Subset.refl _) huntaken hne
        ((contains_modify ..).trans huntaken.there)
    · exact List.Subset.trans (frees_collect _ node).outline (hmodified ▸ List.Subset.refl _)

theorem reclaims_endLoop (h : Consistent state) : Reclaims state state.endLoop := by
  have hswept := (tended_here h.counted).endLoop.swept
  refine reclaims_of (h.counted_change (.finish state)) hswept (fun {id} huntaken => ?_)
    (frees_endLoop state).outline
  have hunheld : id ∉ state.recorder.held := by
    obtain ⟨fresh, hfresh, hdead⟩ := huntaken
    exact (h.counted.unused hfresh hdead).1
  exact @untaken_endHolds state { state with recorder := .idle } _ _ h.counted
    (List.Subset.refl _) _ huntaken hunheld huntaken.there

end Consistent

open State in
-- Letting go of a handle and ending a loop free exactly what becomes unreachable, and the worklist
-- comes to its end whichever pending node it takes next.
theorem unreachable_reclaimed {state : State} (h : Reachable state) :
    (∀ node, 0 < state.refsOf node → Reclaims state (simulator.release node state)) ∧
      ((simulator.loopEnd state).1 = .ok () ∧ Reclaims state (simulator.loopEnd state).2) ∧
      WellFounded (Function.swap State.WorkStep) ∧
      ∀ (graph : State) (id : Nat),
        Relation.ReflTransGen State.WorkStep (graph, [id]) (graph.collect id, []) :=
  ⟨fun node _ => h.consistent.reclaims_release node, ⟨rfl, h.consistent.reclaims_endLoop⟩,
    workSteps_end, workSteps_collect⟩

-- A node with a handle reads two others, which share an input. Nobody has taken the node after
-- them, and a recording holds the last one twice, as a step and as a condition.
def sharing : State :=
  (State.empty 5 none).afterCalls
    [.construct (.constant (.s32 1) (.single .s32)), .construct (.binary 1 1 .add),
      .construct (.unary 1 .neg), .construct (.binary 2 3 .mul), .acquire 4,
      .construct (.constant (.s32 2) (.single .s32)),
      .construct (.constant (.s32 3) (.single .s32)), .acquire 6, .loopStart, .loopCondition 6,
      .loopReplay .first, .construct (.unary 6 .neg), .loopCondition 7, .release 6]

open State in
-- Letting go of the handle frees four nodes, and ending the loop frees what only it holds.
theorem shared_reclaimed :
    Reachable sharing ∧ sharing.recorder.held = [6, 7, 7] ∧
      Untaken sharing 5 ∧ Rooted sharing (simulator.release 4 sharing) 5 ∧
      (∀ id ∈ [1, 2, 3, 4], sharing.nodes.contains id = true ∧
        ¬Rooted sharing (simulator.release 4 sharing) id) ∧
      (∀ id ∈ [1, 2, 3, 4, 5], Rooted sharing (simulator.loopEnd sharing).2 id) ∧
      ∀ id ∈ [6, 7], sharing.nodes.contains id = true ∧
        ¬Rooted sharing (simulator.loopEnd sharing).2 id := by
  have hreachable : Reachable sharing := (Reachable.empty 5 none).calls _ (by decide)
  obtain ⟨hrelease, ⟨_, hend⟩, _⟩ := unreachable_reclaimed hreachable
  have hleft := (hrelease 4 (by decide)).left_iff
  have hended := hend.left_iff
  refine ⟨hreachable, by decide, ⟨_, rfl, rfl⟩, ?_⟩
  simp only [← hleft, ← hended]
  decide

end MapAlgebra.Graph
