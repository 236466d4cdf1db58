import MapAlgebra.Proofs.Graph.Invariant

namespace MapAlgebra.Graph

-- Nodes are recorded in the order in which they are made, and none of them belongs to a loop.
structure Recorded (state : State) : Prop where
  sorted : (state.recorder.first ++ state.recorder.second).Pairwise (· < ·)
  plain : ∀ {id node}, id ∈ state.recorder.first ++ state.recorder.second →
    state.nodes.get? id = some node → node.kind.isPlain = true
  first_empty : state.recorder.phase = .idle ∨ state.recorder.phase = .started →
    state.recorder.first = []
  second_empty : state.recorder.phase ≠ .secondReplay → state.recorder.phase ≠ .assembled →
    state.recorder.second = []

-- What a slot of a step stands for in the first round.
inductive Reads (plan : LoopPlan) (step : Nat) : Slot → Nat → Prop
  | step {index input : Nat} (hindex : index < step) (hinput : plan.body[index]? = some input) :
      Reads plan step (.step index) input
  | carried {index : Nat} {value : CarriedValue} (hvalue : plan.carried[index]? = some value) :
      Reads plan step (.carried index) value.init
  | outer (node : Nat) : Reads plan step (.outer node) node

-- A plan that goes with the nodes of the first replay.
structure Fits (state : State) (plan : LoopPlan) : Prop where
  lengths : plan.slots.length = plan.body.length
  guarded : 0 < plan.carried.length
  feed_lt : ∀ value ∈ plan.carried, value.feed < plan.body.length
  reads : ∀ {step id slots}, plan.body[step]? = some id → plan.slots[step]? = some slots →
    ∃ node, state.nodes.get? id = some node ∧ node.kind.isPlain = true ∧
      List.Forall₂ (Reads plan step) slots node.inputs

theorem Recorder.record_cases (recorder : Recorder) (node : Nat) :
    (recorder.phase = .firstReplay ∧
        recorder.record node = { recorder with first := recorder.first ++ [node] }) ∨
      (recorder.phase = .secondReplay ∧
        recorder.record node = { recorder with second := recorder.second ++ [node] }) ∨
      recorder.record node = recorder := by
  cases hphase : recorder.phase with
  | firstReplay => exact Or.inl ⟨rfl, by simp only [record, hphase]⟩
  | secondReplay => exact Or.inr (Or.inl ⟨rfl, by simp only [record, hphase]⟩)
  | _ => exact Or.inr (Or.inr (by simp only [record, hphase]))

namespace Recorded

variable {before after : State}

theorem empty (limit : Nat) (directory : Option Directory) : Recorded (.empty limit directory) :=
  ⟨.nil, nofun, fun _ => rfl, fun _ _ => rfl⟩

theorem live (h : Consistent before) {id : Nat}
    (hid : id ∈ before.recorder.first ++ before.recorder.second) :
    ∃ node, before.nodes.get? id = some node ∧ id < before.nextId := by
  have hheld : id ∈ before.recorder.held := by
    rw [Recorder.held, List.append_assoc]
    exact List.mem_append_right _ hid
  obtain ⟨node, hnode⟩ := (Table.contains_iff _ _).mp (h.counted.hold_live id hheld)
  exact ⟨node, hnode, (h.counted.numbered.range hnode).2⟩

-- Nodes that are recorded already stay as they are.
theorem plain_after (h : Recorded before) (hconsistent : Consistent before)
    (hfollows : Follows before after) {id : Nat} {node : Node}
    (hid : id ∈ before.recorder.first ++ before.recorder.second)
    (hnode : after.nodes.get? id = some node) : node.kind.isPlain = true := by
  obtain ⟨_, _, hlt⟩ := live hconsistent hid
  obtain ⟨old, hold, hkeeps⟩ := hfollows.onward.node hnode hlt
  rw [hkeeps.kind]
  exact h.plain hid hold

-- A change that records nothing.
theorem same (h : Recorded before) (hconsistent : Consistent before)
    (hfollows : Follows before after) (hfirst : after.recorder.first = before.recorder.first)
    (hsecond : after.recorder.second = before.recorder.second)
    (hstart : after.recorder.phase = .idle ∨ after.recorder.phase = .started →
      before.recorder.phase = .idle ∨ before.recorder.phase = .started)
    (hend : after.recorder.phase ≠ .secondReplay → after.recorder.phase ≠ .assembled →
      before.recorder.phase ≠ .secondReplay ∧ before.recorder.phase ≠ .assembled) :
    Recorded after where
  sorted := by rw [hfirst, hsecond]; exact h.sorted
  plain hid hnode := by
    rw [hfirst, hsecond] at hid
    exact h.plain_after hconsistent hfollows hid hnode
  first_empty hphase := hfirst.trans (h.first_empty (hstart hphase))
  second_empty hsecondReplay hassembled := by
    obtain ⟨hnotSecond, hnotAssembled⟩ := hend hsecondReplay hassembled
    exact hsecond.trans (h.second_empty hnotSecond hnotAssembled)

theorem same_recorder (h : Recorded before) (hconsistent : Consistent before)
    (hfollows : Follows before after) (hrecorder : after.recorder = before.recorder) :
    Recorded after :=
  h.same hconsistent hfollows (by rw [hrecorder]) (by rw [hrecorder]) (by rw [hrecorder]; exact id)
    (by rw [hrecorder]; exact And.intro)

-- The newest node goes behind all the others.
theorem extended (h : Recorded before) (hconsistent : Consistent before)
    (hfollows : Follows before after)
    (hnew : ∀ {node}, after.nodes.get? before.nextId = some node → node.kind.isPlain = true)
    (hlists : after.recorder.first ++ after.recorder.second =
      before.recorder.first ++ before.recorder.second ++ [before.nextId])
    (hfirst : after.recorder.phase = .idle ∨ after.recorder.phase = .started →
      after.recorder.first = [])
    (hsecond : after.recorder.phase ≠ .secondReplay → after.recorder.phase ≠ .assembled →
      after.recorder.second = []) : Recorded after where
  sorted := by
    rw [hlists, List.pairwise_append]
    refine ⟨h.sorted, List.pairwise_singleton _ _, fun id hid other hother => ?_⟩
    obtain ⟨_, _, hlt⟩ := live hconsistent hid
    rw [List.mem_singleton.mp hother]
    exact hlt
  plain hid hnode := by
    rw [hlists] at hid
    obtain hold | hlast := List.mem_append.mp hid
    · exact h.plain_after hconsistent hfollows hold hnode
    · rw [List.mem_singleton.mp hlast] at hnode
      exact hnew hnode
  first_empty := hfirst
  second_empty := hsecond

theorem create (h : Recorded before) (hconsistent : Consistent before) {kind : NodeKind}
    {inputs : List Nat} {info : Meta} (hplain : kind.isPlain = true)
    (hfollows : Follows before (before.create kind inputs info).2) :
    Recorded (before.create kind inputs info).2 := by
  have hnew : ∀ {node}, (before.create kind inputs info).2.nodes.get? before.nextId = some node →
      node.kind.isPlain = true := by
    intro node hnode
    rw [State.get?_create, if_pos rfl] at hnode
    cases hnode
    exact hplain
  have hrecorder := State.recorder_create before kind inputs info
  obtain ⟨hphase, hrecord⟩ | ⟨hphase, hrecord⟩ | hrecord :=
    before.recorder.record_cases before.nextId
  · have hsecond : before.recorder.second = [] := h.second_empty (by simp [hphase]) (by simp [hphase])
    rw [hrecord] at hrecorder
    refine h.extended hconsistent hfollows hnew ?_ ?_ ?_
    · rw [hrecorder, hsecond]
      simp
    · rw [hrecorder]
      simp [hphase]
    · rw [hrecorder]
      exact fun _ _ => hsecond
  · rw [hrecord] at hrecorder
    refine h.extended hconsistent hfollows hnew ?_ ?_ ?_
    · rw [hrecorder, List.append_assoc]
    · rw [hrecorder]
      simp [hphase]
    · rw [hrecorder]
      exact fun hnot _ => absurd hphase hnot
  · exact h.same_recorder hconsistent hfollows (hrecorder.trans hrecord)

theorem change (h : Recorded before) (hconsistent : Consistent before)
    (hchange : Change before after) : Recorded after := by
  have hfollows := hchange.follows
  cases hchange with
  | release node =>
      refine h.same_recorder hconsistent hfollows ?_
      obtain hsame | ⟨_, _, _, hrelease⟩ := before.release_cases node
      · rw [hsame]
      · rw [hrelease, (State.frees_collect _ node).recorder]
  | create info hplain hinputs => exact h.create hconsistent hplain hfollows
  | start hphase =>
      exact h.same hconsistent hfollows rfl rfl (fun _ => Or.inl hphase) (by simp [hphase])
  | condition hadd =>
      obtain ⟨_, recorder, _, hrecorder, rfl⟩ := State.addCondition_eq_ok hadd
      obtain ⟨rfl, _⟩ := Recorder.addCondition_eq_ok hrecorder
      exact h.same hconsistent hfollows rfl rfl id And.intro
  | replay hreplay =>
      obtain ⟨hphase, rfl⟩ | ⟨hphase, rfl⟩ := Recorder.replay_eq_ok hreplay
      · exact h.same hconsistent hfollows rfl rfl (by simp) (by simp [hphase])
      · exact h.same hconsistent hfollows rfl rfl (by simp) (by simp)
  | close hphase =>
      refine h.same hconsistent hfollows rfl rfl (fun hopen => ?_) fun _ hnot => absurd rfl hnot
      obtain hidle | hstarted := hopen
      · cases hidle
      · cases hstarted
  | loop info hplan =>
      refine h.same hconsistent hfollows rfl rfl (fun hopen => ?_) fun _ hnot => absurd rfl hnot
      obtain hidle | hstarted := hopen
      · cases hidle
      · cases hstarted
  | tail info hphase hloop hkind hindex =>
      refine h.same_recorder hconsistent hfollows ?_
      rw [State.recorder_create, Recorder.record, hphase]
  | pair loop pairs hphase => exact h.same hconsistent hfollows rfl rfl id And.intro
  | finish =>
      have hrecorder := (State.frees_endLoop before).recorder
      refine ⟨?_, ?_, ?_, ?_⟩
      · rw [hrecorder]; exact .nil
      · rw [hrecorder]; exact fun hin => absurd hin List.not_mem_nil
      · rw [hrecorder]; exact fun _ => rfl
      · rw [hrecorder]; exact fun _ _ => rfl
  | _ => exact h.same_recorder hconsistent hfollows rfl

end Recorded

theorem forall₂_of_zip {α β γ : Type} {relation : α → β × γ → Prop} {result : α → β → Prop}
    {items : List α} {xs : List β} {ys : List γ} (hlengths : xs.length = ys.length)
    (h : List.Forall₂ relation items (xs.zip ys))
    (himp : ∀ item x y, x ∈ xs → relation item (x, y) → result item x) :
    List.Forall₂ result items xs := by
  induction xs generalizing items ys with
  | nil =>
      cases h
      exact .nil
  | cons x xs ih =>
      cases ys with
      | nil => cases hlengths
      | cons y ys =>
          cases h with
          | cons hfirst hrest =>
              refine .cons (himp _ x y List.mem_cons_self hfirst) ?_
              refine ih (Nat.succ.inj hlengths) hrest fun item other z hmember => ?_
              exact himp item other z (List.mem_cons_of_mem _ hmember)

theorem index_lt_of_lt {items : List Nat} (hsorted : items.Pairwise (· < ·)) {i j a b : Nat}
    (ha : items[i]? = some a) (hb : items[j]? = some b) (hlt : a < b) : i < j := by
  obtain ⟨hi, rfl⟩ := List.getElem?_eq_some_iff.mp ha
  obtain ⟨hj, rfl⟩ := List.getElem?_eq_some_iff.mp hb
  by_contra hle
  obtain hsame | hgt := Nat.eq_or_lt_of_le (Nat.le_of_not_lt hle)
  · subst hsame
    exact Nat.lt_irrefl _ hlt
  · have horder := List.pairwise_iff_getElem.mp hsorted j i hj hi hgt
    omega

namespace Fits

-- A recording is planned as it was made: what a step reads in the first round is what it read in
-- the first replay.
theorem of_plan {state : State} (hconsistent : Consistent state) (hrecorded : Recorded state)
    {plan : LoopPlan} (hplan : state.recorder.plan state.nodes = .ok plan) : Fits state plan := by
  have hplanned := Recorder.plan_eq_ok hplan
  have hzip : (state.recorder.first.zip state.recorder.second).length =
      state.recorder.first.length := by
    rw [List.length_zip, ← hplanned.lengths, Nat.min_self]
  have hbody : plan.body = state.recorder.first := hplanned.body
  refine ⟨?_, ?_, fun value hvalue => ?_, fun {step id slots} hid hslots => ?_⟩
  · rw [hplanned.steps.length_eq, hzip, hbody]
  · obtain ⟨_, _, _, _, _, hguard⟩ := hplanned.guard
    exact (List.getElem?_eq_some_iff.mp hguard).1
  · rw [hbody]
    exact hplanned.feed_lt hvalue
  · obtain ⟨⟨first, second⟩, hpair, a, b, ha, hb, hmatches⟩ :=
      exists_related hplanned.steps hslots
    obtain ⟨hfirst, _⟩ := List.getElem?_zip_eq_some.mp hpair
    rw [hbody, hfirst] at hid
    cases hid
    have hmember : first ∈ state.recorder.first := List.mem_of_getElem? hfirst
    refine ⟨a, ha, hrecorded.plain (List.mem_append_left _ hmember) ha, ?_⟩
    refine forall₂_of_zip hmatches.lengths hmatches.explained fun slot input other hinput h => ?_
    cases h with
    | @step index _ _ hstep _ =>
        have hlt := (hconsistent.counted.input_live ha input hinput).2
        have hsorted := (List.pairwise_append.mp hrecorded.sorted).1
        exact .step (index_lt_of_lt hsorted hstep hfirst hlt) (hbody ▸ hstep)
    | @carried index feed _ _ hcarried _ _ _ =>
        have hread : Reads plan step (.carried index) (CarriedValue.mk input feed).init :=
          .carried hcarried
        exact hread
    | outer _ _ => exact .outer _

theorem mono {before after : State} {plan : LoopPlan} (h : Fits before plan)
    (hbody : ∀ id ∈ plan.body, ∃ old new, before.nodes.get? id = some old ∧
      after.nodes.get? id = some new ∧ old.Keeps new) : Fits after plan where
  lengths := h.lengths
  guarded := h.guarded
  feed_lt := h.feed_lt
  reads hid hslots := by
    obtain ⟨node, hnode, hplain, hreads⟩ := h.reads hid hslots
    obtain ⟨old, new, hold, hnew, hkeeps⟩ := hbody _ (List.mem_of_getElem? hid)
    rw [hnode] at hold
    cases hold
    exact ⟨new, hnew, by rw [hkeeps.kind]; exact hplain, by rw [hkeeps.inputs]; exact hreads⟩

end Fits

-- Graphs whose loops all have plans that go with their nodes.
structure Looped (state : State) : Prop where
  consistent : Consistent state
  recorded : Recorded state
  fits : ∀ {id node plan}, state.nodes.get? id = some node → node.kind = .loop plan →
    Fits state plan

namespace Looped

theorem change {before after : State} (h : Looped before) (hchange : Change before after) :
    Looped after := by
  have hconsistent := h.consistent.change hchange
  refine ⟨hconsistent, h.recorded.change h.consistent hchange, fun {id node plan} hnode hkind => ?_⟩
  have hearlier : Fits before plan := by
    obtain ⟨old, hold, hkeeps⟩ | ⟨_, _, hborn⟩ := hchange.follows.node hnode
    · exact h.fits hold (hkeeps.kind ▸ hkind)
    · cases hborn with
      | plain hplain _ =>
          rw [hkind] at hplain
          cases hplain
      | loop hplan hsame _ =>
          rw [hkind] at hsame
          cases hsame
          exact .of_plan h.consistent h.recorded hplan
      | tail _ _ _ _ hsame _ =>
          rw [hkind] at hsame
          cases hsame
  refine hearlier.mono fun input hinput => h.consistent.old_of_input hchange hnode ?_
  rw [hconsistent.loop_inputs hnode hkind]
  exact List.mem_append_left _ hinput

theorem changes {before after : State} (h : Looped before) (hchanges : Changes before after) :
    Looped after := by
  induction hchanges with
  | refl => exact h
  | tail _ hchange ih => exact ih.change hchange

end Looped

-- Grids that are computed are those that the graph determines.
theorem State.gridOf_eq_grid {state : State} (h : Looped state) : state.gridOf = state.grid :=
  funext fun id => (State.grid_eq h.consistent.founded h.consistent.counted.numbered
    h.consistent.computed id).symm

theorem Reachable.looped {state : State} (h : Reachable state) : Looped state := by
  induction h with
  | empty limit directory => exact ⟨.empty limit directory, .empty limit directory, nofun⟩
  | call call _ hnodes ih =>
      exact ih.changes (Changes.call call ih.consistent.counted.numbered hnodes)
  | @restock state store _ ih =>
      exact ih.change (.equip state store state.ranks state.devices)

end MapAlgebra.Graph
