import MapAlgebra.Proofs.Graph.Persist

namespace MapAlgebra.Graph

namespace State

namespace Counted

variable {state : State} {holds : List Nat}

theorem perm {more : List Nat} (h : Counted state holds) (hperm : holds.Perm more) :
    Counted state more where
  numbered := h.numbered
  input_live := h.input_live
  users_eq hnode := by rw [← hperm.count_eq]; exact h.users_eq hnode
  hold_live id hid := h.hold_live id (hperm.mem_iff.mpr hid)
  computed_live := h.computed_live

-- Counts stay in order when a node changes, unless its inputs do. Its users change with the holds.
private theorem modify {node : Nat} {f : Node → Node} {more : List Nat} (h : Counted state holds)
    (change : Nat → Nat)
    (hf : ∀ info, (f info).inputs = info.inputs ∧ (f info).users = change info.users)
    (hother : ∀ id, id ≠ node → more.count id = holds.count id)
    (hnode : change (edgesIn state.nodes node + holds.count node) =
      edgesIn state.nodes node + more.count node)
    (hmore : ∀ id ∈ more, state.nodes.contains id = true) :
    Counted { state with nodes := state.nodes.modify node f } more := by
  have hback : ∀ {id info}, (state.nodes.modify node f).get? id = some info →
      ∃ old, state.nodes.get? id = some old ∧ info.inputs = old.inputs ∧
        info.users = if id = node then change old.users else old.users := by
    intro id info hinfo
    rw [Table.get?_modify] at hinfo
    split at hinfo
    · rename_i hid
      obtain ⟨old, hold, rfl⟩ := Option.map_eq_some_iff.mp hinfo
      exact ⟨old, hold, (hf old).1, (hf old).2.trans (if_pos hid).symm⟩
    · rename_i hid
      exact ⟨info, hinfo, rfl, (if_neg hid).symm⟩
  have hstays : ∀ id, state.nodes.contains id = true →
      (state.nodes.modify node f).contains id = true := by
    intro id hlive
    rw [Table.contains, Table.get?_modify]
    split
    · rw [Option.isSome_map]
      exact hlive
    · exact hlive
  constructor
  · refine ⟨fun hinfo => ?_, h.numbered.next⟩
    obtain ⟨old, hold, _⟩ := hback hinfo
    exact h.numbered.range hold
  · intro id info hinfo input hinput
    obtain ⟨old, hold, hinputs, _⟩ := hback hinfo
    obtain ⟨hlive, hlt⟩ := h.input_live hold input (hinputs ▸ hinput)
    exact ⟨hstays input hlive, hlt⟩
  · intro id info hinfo
    obtain ⟨old, hold, _, husers⟩ := hback hinfo
    rw [husers, edgesIn_modify _ _ _ _ fun info => (hf info).1, h.users_eq hold]
    split
    · rename_i hid
      rw [hid]
      exact hnode
    · rename_i hid
      rw [hother id hid]
  · exact fun id hid => hstays id (hmore id hid)
  · exact fun id hid => hstays id (h.computed_live id hid)

theorem modify_same (h : Counted state holds) (node : Nat) {f : Node → Node}
    (hf : ∀ info, (f info).inputs = info.inputs ∧ (f info).users = info.users) :
    Counted { state with nodes := state.nodes.modify node f } holds :=
  h.modify id hf (fun _ _ => rfl) rfl h.hold_live

theorem takeHold (h : Counted state holds) {node : Nat} (hlive : state.nodes.contains node = true) :
    Counted { state with nodes := addUser state.nodes node } (node :: holds) := by
  refine h.modify (· + 1) (fun _ => ⟨rfl, rfl⟩)
    (fun id hid => List.count_cons_of_ne (Ne.symm hid)) ?_ fun id hid => ?_
  · rw [List.count_cons_self]
    omega
  · obtain rfl | hid := List.mem_cons.mp hid
    · exact hlive
    · exact h.hold_live id hid

-- A node that is held has a user, so that the subtraction is exact.
theorem endHold {node : Nat} (h : Counted state (node :: holds)) :
    Counted (state.endHold node) holds := by
  have hdrop : Counted { state with nodes := State.dropUser state.nodes node } holds := by
    refine h.modify (· - 1) (fun _ => ⟨rfl, rfl⟩)
      (fun id hid => (List.count_cons_of_ne (Ne.symm hid)).symm) ?_
      fun id hid => h.hold_live id (List.mem_cons_of_mem _ hid)
    rw [List.count_cons_self]
    omega
  exact hdrop.collect node

theorem endHolds (h : Counted state holds) : Counted (holds.foldl State.endHold state) [] := by
  induction holds generalizing state with
  | nil => exact h
  | cons node holds ih => exact ih h.endHold

theorem edgesIn_fresh (h : Counted state holds) : edgesIn state.nodes state.nextId = 0 := by
  refine Table.total_eq_zero _ _ fun id node hnode => List.count_eq_zero.mpr fun hinput => ?_
  have hlive := (h.input_live hnode _ hinput).1
  rw [Table.contains, h.numbered.fresh] at hlive
  cases hlive

-- A new node is an edge to each of its inputs. It has users when a recording holds it.
theorem create (h : Counted state holds) (kind : NodeKind) {inputs : List Nat} (info : Meta)
    (hinputs : ∀ input ∈ inputs, state.nodes.contains input = true) :
    Counted (state.create kind inputs info).2
      (List.replicate (if state.recorder.isRecording then 1 else 0) state.nextId ++ holds) := by
  have hlt : ∀ id, state.nodes.contains id = true → id < state.nextId :=
    fun _ => h.numbered.lt_next
  have hedges : ∀ id, edgesIn (state.create kind inputs info).2.nodes id =
      inputs.count id + edgesIn state.nodes id := by
    intro id
    have hfresh : (inputs.foldl addUser state.nodes).get? state.nextId = none := by
      rw [get?_addUsers, h.numbered.fresh]
      rfl
    exact (edgesIn_insert _ _ hfresh id).trans (by rw [edgesIn_addUsers])
  constructor
  · exact h.numbered.create _ _ _
  · intro id node hnode input hinput
    rw [get?_create] at hnode
    split at hnode
    · rename_i hid
      cases hnode
      exact ⟨contains_create (Or.inr (hinputs input hinput)), hid ▸ hlt _ (hinputs input hinput)⟩
    · obtain ⟨old, hold, rfl⟩ := Option.map_eq_some_iff.mp hnode
      obtain ⟨hlive, holder⟩ := h.input_live hold input hinput
      exact ⟨contains_create (Or.inr hlive), holder⟩
  · intro id node hnode
    rw [hedges, List.count_append, List.count_replicate]
    rw [get?_create] at hnode
    split at hnode
    · rename_i hid
      subst hid
      cases hnode
      have hnotInput : inputs.count state.nextId = 0 :=
        List.count_eq_zero.mpr fun hinput => Nat.lt_irrefl _ (hlt _ (hinputs _ hinput))
      have hnotHeld : holds.count state.nextId = 0 :=
        List.count_eq_zero.mpr fun hheld => Nat.lt_irrefl _ (hlt _ (h.hold_live _ hheld))
      rw [hnotInput, hnotHeld, h.edgesIn_fresh, if_pos (beq_self_eq_true _)]
      simp only [Nat.zero_add, Nat.add_zero]
    · rename_i hid
      obtain ⟨old, hold, rfl⟩ := Option.map_eq_some_iff.mp hnode
      have husers := h.users_eq hold
      have hne : (state.nextId == id) = false := by simpa using Ne.symm hid
      rw [hne]
      simp only [Bool.false_eq_true, if_false]
      omega
  · intro id hid
    obtain hnew | hheld := List.mem_append.mp hid
    · exact contains_create (Or.inl (List.eq_of_mem_replicate hnew))
    · exact contains_create (Or.inr (h.hold_live id hheld))
  · exact fun id hid => contains_create (Or.inr (h.computed_live id hid))

end Counted

end State

namespace Recorder

theorem addCondition_eq_ok {recorder after : Recorder} {node : Nat}
    (h : recorder.addCondition node = .ok after) :
    after = { recorder with conditions := recorder.conditions ++ [node] } ∧
      recorder.phase ≠ .idle ∧ recorder.phase ≠ .assembled := by
  unfold addCondition at h
  cases hphase : recorder.phase with
  | idle => simp [hphase] at h
  | assembled => simp [hphase] at h
  | _ =>
      simp only [hphase] at h
      split at h
      · cases h
        exact ⟨rfl, by simp⟩
      · cases h

theorem held_addCondition {recorder after : Recorder} {node : Nat}
    (h : recorder.addCondition node = .ok after) : (node :: recorder.held).Perm after.held := by
  obtain ⟨rfl, _⟩ := addCondition_eq_ok h
  rw [List.perm_iff_count]
  intro id
  simp only [held, List.append_assoc, List.count_append, List.count_cons, List.count_nil]
  omega

theorem replay_eq_ok {recorder after : Recorder} {next : Loop.Replay}
    (h : recorder.replay next = .ok after) :
    (recorder.phase = .started ∧ after = { recorder with phase := .firstReplay }) ∨
      (recorder.phase = .firstReplay ∧ after = { recorder with phase := .secondReplay }) := by
  unfold replay at h
  split at h
  · rename_i hphase
    cases h
    exact Or.inl ⟨hphase, rfl⟩
  · rename_i hphase
    cases h
    exact Or.inr ⟨hphase, rfl⟩
  · cases h

theorem held_record (recorder : Recorder) (node : Nat) :
    (List.replicate (if recorder.isRecording then 1 else 0) node ++ recorder.held).Perm
      (recorder.record node).held := by
  unfold isRecording record held
  cases recorder.phase with
  | firstReplay =>
      rw [List.perm_iff_count]
      intro id
      simp only [if_true, List.replicate_one, List.count_append]
      omega
  | secondReplay =>
      rw [List.perm_iff_count]
      intro id
      simp only [if_true, List.replicate_one, List.count_append]
      omega
  | _ => exact .refl _

end Recorder

-- What holds of a graph between any two calls.
structure Consistent (state : State) : Prop where
  counted : state.Counted state.recorder.held
  idle : state.recorder.phase = .idle → state.recorder = .idle
  loop_inputs : ∀ {id node plan}, state.nodes.get? id = some node → node.kind = .loop plan →
    node.inputs = plan.body ++ plan.externals
  tail_loop : ∀ {id node index}, state.nodes.get? id = some node → node.kind = .loopTail index →
    ∃ loop info plan, node.inputs = [loop] ∧ state.nodes.get? loop = some info ∧
      info.kind = .loop plan ∧ index < plan.carried.length
  computed : state.ComputedRight

namespace Consistent

variable {before after : State}

theorem founded (h : Consistent before) : before.Founded := ⟨h.counted.input_live, h.loop_inputs⟩

-- A node that is still there keeps its grid.
theorem gridOf_eq (hbefore : Consistent before) (hafter : Consistent after)
    (honward : Onward before after) {id : Nat} (hlive : after.nodes.contains id = true)
    (hold : id < before.nextId) : after.gridOf id = before.gridOf id :=
  State.gridOf_eq_of_onward honward hbefore.counted.numbered hafter.counted.numbered
    hbefore.founded hafter.founded hlive hold

theorem gridOf_of_evaluated (h : Consistent before) {nodes : List Address} {grids : List Grid}
    (hgrids : before.evaluateAll nodes = .ok grids) {id : Nat} {grid : Grid}
    (hmember : (id, grid) ∈ nodes.zip grids) : before.gridOf id = .ok grid := by
  rw [State.evaluateAll_eq h.founded h.counted.numbered h.computed] at hgrids
  exact (List.forall₂_iff_zip.mp (mapM_eq_ok.mp hgrids)).2 hmember

-- Everything that a planned loop reads is held by the recording or read by what it holds.
theorem loop_inputs_live (h : Consistent before) {plan : LoopPlan}
    (hplan : before.recorder.plan before.nodes = .ok plan) :
    ∀ input ∈ plan.body ++ plan.externals, before.nodes.contains input = true := by
  have hplanned := Recorder.plan_eq_ok hplan
  have hread : ∀ node, (∃ id ∈ before.recorder.first, ∃ info,
      before.nodes.get? id = some info ∧ node ∈ info.inputs) →
      before.nodes.contains node = true := by
    rintro node ⟨reader, _, info, hinfo, hinput⟩
    exact (h.counted.input_live hinfo node hinput).1
  have hheld : ∀ node, node ∈ before.recorder.conditions ∨ node ∈ before.recorder.first →
      before.nodes.contains node = true := by
    intro node hnode
    refine h.counted.hold_live node ?_
    simp only [Recorder.held, List.mem_append]
    exact Or.inl hnode
  intro input hinput
  obtain hbody | hexternal := List.mem_append.mp hinput
  · exact hheld input (Or.inr (hplanned.body ▸ hbody))
  · obtain ⟨value, hvalue, rfl⟩ | ⟨slots, hslots, hslot⟩ :=
      (plan.mem_externals input).mp hexternal
    · obtain hcondition | hinput := hplanned.init_mem hvalue
      · exact hheld _ (Or.inl hcondition)
      · exact hread _ hinput
    · exact hread input (hplanned.outer_mem hslots hslot).1

-- The counts after a change.
theorem counted_change (h : Consistent before) (hchange : Change before after) :
    after.Counted after.recorder.held := by
  have hcounted := h.counted
  cases hchange with
  | equip store ranks devices => exact hcounted.congr rfl rfl rfl
  | mark node stream => exact hcounted.modify_same node fun _ => ⟨rfl, rfl⟩
  | compute hnull hgrids =>
      refine ⟨⟨hcounted.numbered.range, hcounted.numbered.next⟩, hcounted.input_live,
        hcounted.users_eq, hcounted.hold_live, fun id hid => ?_⟩
      obtain ⟨grid, hgrid⟩ := (Table.contains_iff _ _).mp hid
      obtain hnew | hold := Table.get?_insertAll_eq_some _ _ _ _ hgrid
      · have hknown := h.gridOf_of_evaluated hgrids hnew
        have hlive : before.nodes.contains id = true := State.contains_of_gridOf hknown
        exact hlive
      · exact hcounted.computed_live id ((Table.contains_iff _ _).mpr ⟨grid, hold⟩)
  | acquire node => exact hcounted.modify_same node fun _ => ⟨rfl, rfl⟩
  | release node =>
      obtain hsame | ⟨info, _, _, hrelease⟩ := before.release_cases node
      · rw [hsame]
        exact hcounted
      · rw [hrelease, (State.frees_collect _ node).recorder]
        have hmodified := hcounted.modify_same node
          (f := fun info => { info with refs := info.refs - 1 }) fun _ => ⟨rfl, rfl⟩
        exact hmodified.collect node
  | create info hplain hinputs =>
      exact (hcounted.create _ info hinputs).perm (Recorder.held_record _ _)
  | start hphase => exact hcounted.congr rfl rfl rfl
  | @condition after node hadd =>
      obtain ⟨info, recorder, hinfo, hrecorder, rfl⟩ := State.addCondition_eq_ok hadd
      have hheld := Recorder.held_addCondition hrecorder
      have hlive := (Table.contains_iff _ _).mpr ⟨info, hinfo⟩
      exact ((hcounted.takeHold hlive).perm hheld).congr rfl rfl rfl
  | @replay next recorder hreplay =>
      have hheld : recorder.held = before.recorder.held := by
        obtain ⟨_, rfl⟩ | ⟨_, rfl⟩ := Recorder.replay_eq_ok hreplay
        · rfl
        · rfl
      rw [hheld]
      exact hcounted.congr rfl rfl rfl
  | close hphase => exact hcounted.congr rfl rfl rfl
  | loop info hplan =>
      have hclosed : State.Counted { before with recorder := before.recorder.close }
          before.recorder.held := hcounted.congr rfl rfl rfl
      exact hclosed.create _ info (h.loop_inputs_live hplan)
  | @tail loop node plan index info hphase hloop hkind hindex =>
      have hinputs : ∀ input ∈ [loop], before.nodes.contains input = true := by
        intro input hinput
        rw [List.mem_singleton.mp hinput]
        exact (Table.contains_iff _ _).mpr ⟨node, hloop⟩
      exact (hcounted.create _ info hinputs).perm (Recorder.held_record _ _)
  | pair loop pairs hphase => exact hcounted.congr rfl rfl rfl
  | finish =>
      rw [(State.frees_endLoop before).recorder]
      have hidle : State.Counted { before with recorder := .idle } before.recorder.held :=
        hcounted.congr rfl rfl rfl
      exact hidle.endHolds

theorem idle_change (h : Consistent before) (hchange : Change before after)
    (hphase : after.recorder.phase = .idle) : after.recorder = .idle := by
  have hrecord : ∀ {recorder : Recorder} {id : Nat}, (recorder.record id).phase = .idle →
      recorder.record id = recorder := by
    intro recorder id hphase
    unfold Recorder.record at hphase ⊢
    split at hphase
    · rename_i hfirst
      rw [hfirst] at hphase
      cases hphase
    · rename_i hsecond
      rw [hsecond] at hphase
      cases hphase
    · rfl
  cases hchange with
  | release node =>
      obtain hsame | ⟨_, _, _, hrelease⟩ := before.release_cases node
      · rw [hsame] at hphase ⊢
        exact h.idle hphase
      · rw [hrelease, (State.frees_collect _ node).recorder] at hphase ⊢
        exact h.idle hphase
  | create info hplain hinputs =>
      rw [State.recorder_create] at hphase ⊢
      have hsame := hrecord hphase
      rw [hsame] at hphase ⊢
      exact h.idle hphase
  | start hidle => cases hphase
  | condition hadd =>
      obtain ⟨_, recorder, _, hrecorder, rfl⟩ := State.addCondition_eq_ok hadd
      obtain ⟨rfl, hbusy, _⟩ := Recorder.addCondition_eq_ok hrecorder
      exact absurd hphase hbusy
  | replay hreplay =>
      obtain ⟨_, rfl⟩ | ⟨_, rfl⟩ := Recorder.replay_eq_ok hreplay
      · cases hphase
      · cases hphase
  | close hsecond => cases hphase
  | loop info hplan => cases hphase
  | tail info hassembled hloop hkind hindex =>
      rw [State.recorder_create] at hphase
      have hsame := hrecord hphase
      rw [hsame, hassembled] at hphase
      cases hphase
  | pair loop pairs hassembled => exact absurd (hassembled.symm.trans hphase) (by simp)
  | finish => exact (State.frees_endLoop before).recorder
  | _ => exact h.idle hphase

-- A node that is read was there before the change.
theorem old_of_input (h : Consistent before) (hchange : Change before after) {id loop : Nat}
    {node : Node} (hnode : after.nodes.get? id = some node) (hinput : loop ∈ node.inputs) :
    ∃ old new, before.nodes.get? loop = some old ∧ after.nodes.get? loop = some new ∧
      old.Keeps new := by
  have hafter := h.counted_change hchange
  have hfollows := hchange.follows
  obtain ⟨hlive, hlt⟩ := hafter.input_live hnode loop hinput
  obtain ⟨new, hnew⟩ := (Table.contains_iff _ _).mp hlive
  have hid : id ≤ before.nextId := by
    obtain ⟨old, hold, _⟩ | ⟨hid, _, _⟩ := hfollows.node hnode
    · exact Nat.le_of_lt (h.counted.numbered.range hold).2
    · exact Nat.le_of_eq hid
  obtain ⟨old, hold, hkeeps⟩ := hfollows.onward.node hnew (by omega)
  exact ⟨old, new, hold, hnew, hkeeps⟩

theorem change (h : Consistent before) (hchange : Change before after) : Consistent after := by
  have hfollows := hchange.follows
  have hcounted := h.counted_change hchange
  have hloops : ∀ {id node plan}, after.nodes.get? id = some node → node.kind = .loop plan →
      node.inputs = plan.body ++ plan.externals := by
    intro id node plan hnode hkind
    obtain ⟨old, hold, hkeeps⟩ | ⟨_, _, hborn⟩ := hfollows.node hnode
    · rw [hkeeps.inputs]
      exact h.loop_inputs hold (hkeeps.kind ▸ hkind)
    · cases hborn with
      | plain hplain _ =>
          rw [hkind] at hplain
          cases hplain
      | loop hplan hsame hinputs =>
          rw [hkind] at hsame
          cases hsame
          exact hinputs
      | tail _ _ _ _ hsame _ =>
          rw [hkind] at hsame
          cases hsame
  refine ⟨hcounted, h.idle_change hchange, hloops, ?_, ?_⟩
  · intro id node index hnode hkind
    have hearlier : ∃ loop info plan, node.inputs = [loop] ∧
        before.nodes.get? loop = some info ∧ info.kind = .loop plan ∧
        index < plan.carried.length := by
      obtain ⟨old, hold, hkeeps⟩ | ⟨_, _, hborn⟩ := hfollows.node hnode
      · rw [hkeeps.inputs]
        exact h.tail_loop hold (hkeeps.kind ▸ hkind)
      · cases hborn with
        | plain hplain _ =>
            rw [hkind] at hplain
            cases hplain
        | loop _ hsame _ =>
            rw [hkind] at hsame
            cases hsame
        | tail _ hloop hplan hindex hsame hinputs =>
            rw [hkind] at hsame
            cases hsame
            exact ⟨_, _, _, hinputs, hloop, hplan, hindex⟩
    obtain ⟨loop, info, plan, hinputs, hinfo, hplan, hindex⟩ := hearlier
    have hread : loop ∈ node.inputs := by
      rw [hinputs]
      exact List.mem_singleton_self loop
    obtain ⟨old, new, hold, hnew, hkeeps⟩ := h.old_of_input hchange hnode hread
    rw [hinfo] at hold
    cases hold
    exact ⟨loop, new, plan, hinputs, hnew, hkeeps.kind.trans hplan, hindex⟩
  · intro id grid hgrid
    have hlive := hcounted.computed_live id ((Table.contains_iff _ _).mpr ⟨grid, hgrid⟩)
    have hearlier : before.gridOf id = .ok grid := by
      obtain hold | ⟨nodes, grids, hgrids, hmember⟩ := hfollows.computed hgrid
      · exact h.computed hold
      · exact h.gridOf_of_evaluated hgrids hmember
    obtain ⟨node, hnode⟩ := (Table.contains_iff _ _).mp (State.contains_of_gridOf hearlier)
    rw [State.gridOf_eq_of_onward hfollows.onward h.counted.numbered hcounted.numbered h.founded
      ⟨hcounted.input_live, hloops⟩ hlive (h.counted.numbered.range hnode).2]
    exact hearlier

theorem changes (h : Consistent before) (hchanges : Changes before after) : Consistent after := by
  induction hchanges with
  | refl => exact h
  | tail _ hchange ih => exact ih.change hchange

theorem empty (limit : Nat) (directory : Option Directory) :
    Consistent (.empty limit directory) where
  counted := ⟨⟨nofun, Nat.one_pos⟩, nofun, nofun, nofun, nofun⟩
  idle _ := rfl
  loop_inputs := nofun
  tail_loop := nofun
  computed := nofun

end Consistent

theorem Reachable.consistent {state : State} (h : Reachable state) : Consistent state := by
  induction h with
  | empty limit directory => exact .empty limit directory
  | call call _ hnodes ih => exact ih.changes (Changes.call call ih.counted.numbered hnodes)
  | @restock state store _ ih =>
      exact ih.change (.equip state store state.ranks state.devices)

-- Between any two calls, inputs are there and older than what reads them, the users of a node are
-- its edges and its holds, a recording that is over has left nothing, and grids are kept for nodes
-- that are there.
theorem reachable_counts {state : State} (h : Reachable state) :
    (∀ id node, state.nodes.get? id = some node →
      (∀ input ∈ node.inputs, state.nodes.contains input = true ∧ input < id) ∧
        node.users = State.edgesIn state.nodes id + state.recorder.conditions.count id +
          state.recorder.first.count id + state.recorder.second.count id) ∧
      (state.recorder.phase = .idle → state.recorder.conditions = [] ∧
        state.recorder.first = [] ∧ state.recorder.second = [] ∧ state.recorder.pairs = []) ∧
      ∀ id, state.computed.contains id = true → state.nodes.contains id = true := by
  have hconsistent := h.consistent
  refine ⟨fun id node hnode => ⟨hconsistent.counted.input_live hnode, ?_⟩, fun hphase => ?_,
    hconsistent.counted.computed_live⟩
  · have husers := hconsistent.counted.users_eq hnode
    rw [Recorder.held, List.count_append, List.count_append] at husers
    omega
  · rw [hconsistent.idle hphase]
    exact ⟨rfl, rfl, rfl, rfl⟩

-- A condition that a step of the body reads has two users, its edge and its hold.
theorem counts_while_recording :
    ∃ state, Reachable state ∧
      (state.nodes.get? 1).map (fun node => (node.refs, node.users)) = some (1, 2) ∧
      ∀ node, state.nodes.get? 1 = some node →
        node.users = State.edgesIn state.nodes 1 + state.recorder.conditions.count 1 +
          state.recorder.first.count 1 + state.recorder.second.count 1 := by
  have hreachable := (Reachable.empty 5 none).calls
    [.construct (.constant (.s32 1) (.single .s32)), .acquire 1, .loopStart,
      .loopCondition 1, .loopReplay .first, .construct (.identity 1)] (by decide)
  exact ⟨_, hreachable, by decide, fun node hnode => ((reachable_counts hreachable).1 1 node hnode).2⟩

end MapAlgebra.Graph
