import MapAlgebra.Proofs.Graph.Paired
import Mathlib.Data.List.Nodup

namespace MapAlgebra.Graph

-- What a slot stands for in a round whose steps are given nodes, with given nodes for the carried
-- values.
def LoopPlan.resolve (plan : LoopPlan) (steps : List Nat) (carried : CarriedValue → Option Nat) :
    Slot → Option Nat
  | .step index => steps[index]?
  | .carried index => plan.carried[index]?.bind carried
  | .outer node => some node

namespace Recorder

-- How a loop can read an input of a step, of which the two replays recorded one node each: as an
-- earlier step of both, as a node that the second replay has from the first one in the place of a
-- node from before the loop, or as a node that neither of them made.
inductive Readable (recorder : Recorder) (step : Nat) : Nat × Nat → Prop
  | step {index first second : Nat} (hindex : index < step)
      (hfirst : recorder.first[index]? = some first)
      (hsecond : recorder.second[index]? = some second) : Readable recorder step (first, second)
  | carried {first second : Nat} (hfirst : first ∉ recorder.first ++ recorder.second)
      (hsecond : second ∈ recorder.first) : Readable recorder step (first, second)
  | outer {node : Nat} (hnode : node ∉ recorder.first ++ recorder.second) :
      Readable recorder step (node, node)

-- Two replays of one body. The second condition comes out of the first replay, and both have the
-- same operations in the same order, with inputs that a loop can read.
structure Alignable (recorder : Recorder) (nodes : Table Node) : Prop where
  conditions : ∃ initial next, recorder.conditions = [initial, next] ∧ next ∈ recorder.first
  lengths : recorder.first.length = recorder.second.length
  steps : ∀ {step first second a b}, recorder.first[step]? = some first →
    recorder.second[step]? = some second → nodes.get? first = some a → nodes.get? second = some b →
      a.kind.same b.kind = true ∧ a.inputs.length = b.inputs.length ∧
        ∀ input ∈ a.inputs.zip b.inputs, recorder.Readable step input

-- A plan that gives both replays back: the first one when the carried values are the initial ones,
-- and the second one when they are the steps that feed them.
structure Rebuilds (recorder : Recorder) (nodes : Table Node) (plan : LoopPlan) : Prop where
  body : plan.body = recorder.first
  steps : ∀ {step first second}, recorder.first[step]? = some first →
    recorder.second[step]? = some second →
      ∃ slots a b, plan.slots[step]? = some slots ∧
        nodes.get? first = some a ∧ nodes.get? second = some b ∧
        slots.map (plan.resolve plan.body fun value => some value.init) = a.inputs.map some ∧
        slots.map (plan.resolve recorder.second fun value => plan.body[value.feed]?) =
          b.inputs.map some ∧
        ∀ index, Slot.step index ∈ slots → index < step
  guard : ∃ initial next feed, recorder.conditions = [initial, next] ∧
    plan.body[feed]? = some next ∧ plan.carried[0]? = some ⟨initial, feed⟩
  feeds : ∀ value ∈ plan.carried, value.feed < plan.body.length
  distinct : plan.carried.Nodup

variable {recorder : Recorder} {nodes : Table Node} {step : Nat}

theorem require_of {condition : Bool} {problem : LoopProblem} (h : condition = true) :
    require condition problem = .ok () := by
  rw [require, if_pos h]

private theorem idxOf?_of_getElem? {items : List Nat} (h : items.Nodup) {index node : Nat}
    (hnode : items[index]? = some node) : items.idxOf? node = some index := by
  obtain ⟨hlt, rfl⟩ := List.getElem?_eq_some_iff.mp hnode
  refine List.idxOf?_eq_some_iff.mpr ⟨hlt, by simp, fun earlier hearlier hsame => ?_⟩
  have heq := (List.Nodup.getElem_inj_iff h).mp hsame
  omega

-- Whatever can be read is given a slot.
theorem slot_total (hdistinct : (recorder.first ++ recorder.second).Nodup)
    (carried : List CarriedValue) {first second : Nat} (h : recorder.Readable step (first, second)) :
    ∃ result, recorder.slot step carried first second = .ok result := by
  obtain ⟨hfirsts, hseconds, hdisjoint⟩ := List.nodup_append'.mp hdistinct
  cases h with
  | @step index _ _ hindex hfirst hsecond =>
      have hfound := idxOf?_of_getElem? hseconds hsecond
      refine ⟨(.step index, carried), ?_⟩
      simp only [slot, hfound, require_of (decide_eq_true hfirst)]
      rfl
  | carried hfirst hsecond =>
      have hnone := List.idxOf?_eq_none_iff.mpr fun hmember => hdisjoint hsecond hmember
      have hinit : first ∉ recorder.first := fun hmember =>
        hfirst (List.mem_append_left _ hmember)
      obtain ⟨feed, hfeed⟩ := List.getElem?_of_mem hsecond
      let found := carriedIndex carried ⟨first, feed⟩
      refine ⟨(.carried found.1, found.2), ?_⟩
      simp only [slot, hnone, idxOf?_of_getElem? hfirsts hfeed, require_of (decide_eq_true hinit)]
      rfl
  | outer hnode =>
      rw [List.mem_append, not_or] at hnode
      refine ⟨(.outer first, carried), ?_⟩
      simp only [slot, List.idxOf?_eq_none_iff.mpr hnode.1, List.idxOf?_eq_none_iff.mpr hnode.2]
      rfl

theorem slotsFrom_total (hdistinct : (recorder.first ++ recorder.second).Nodup)
    (carried : List CarriedValue) {inputs : List (Nat × Nat)}
    (h : ∀ input ∈ inputs, recorder.Readable step input) :
    ∃ result, recorder.slotsFrom step carried inputs = .ok result := by
  induction inputs generalizing carried with
  | nil => exact ⟨_, rfl⟩
  | cons input inputs ih =>
      obtain ⟨first, second⟩ := input
      obtain ⟨⟨slot, middle⟩, hslot⟩ := slot_total hdistinct carried (h _ List.mem_cons_self)
      obtain ⟨⟨slots, last⟩, hslots⟩ := ih middle fun other hother =>
        h other (List.mem_cons_of_mem _ hother)
      exact ⟨(slot :: slots, last),
        bind_eq_ok.mpr ⟨_, hslot, bind_eq_ok.mpr ⟨_, hslots, rfl⟩⟩⟩

-- Both replays recorded the same operation as a step, with inputs that a loop can read.
def AlignsAt (recorder : Recorder) (nodes : Table Node) (step : Nat) (pair : Nat × Nat) : Prop :=
  ∃ a b, nodes.get? pair.1 = some a ∧ nodes.get? pair.2 = some b ∧ a.kind.same b.kind = true ∧
    a.inputs.length = b.inputs.length ∧ ∀ input ∈ a.inputs.zip b.inputs, recorder.Readable step input

theorem stepSlots_total (hdistinct : (recorder.first ++ recorder.second).Nodup)
    (carried : List CarriedValue) {first second : Nat}
    (h : recorder.AlignsAt nodes step (first, second)) :
    ∃ result, recorder.stepSlots nodes step carried first second = .ok result := by
  obtain ⟨a, b, ha, hb, hsame, hlengths, hreadable⟩ := h
  obtain ⟨result, hresult⟩ := slotsFrom_total hdistinct carried hreadable
  have hboth : (a.kind.same b.kind && a.inputs.length = b.inputs.length) = true := by
    rw [hsame, Bool.true_and]
    exact decide_eq_true hlengths
  refine ⟨result, ?_⟩
  simp only [stepSlots, ha, hb]
  exact bind_eq_ok.mpr ⟨(), require_of hboth, hresult⟩

theorem stepsFrom_total (hdistinct : (recorder.first ++ recorder.second).Nodup)
    (carried : List CarriedValue) (start : Nat) {steps : List (Nat × Nat)}
    (h : ∀ index pair, steps[index]? = some pair → recorder.AlignsAt nodes (start + index) pair) :
    ∃ result, recorder.stepsFrom nodes start carried steps = .ok result := by
  induction steps generalizing carried start with
  | nil => exact ⟨_, rfl⟩
  | cons pair steps ih =>
      obtain ⟨first, second⟩ := pair
      obtain ⟨⟨slots, middle⟩, hslots⟩ := stepSlots_total hdistinct carried (h 0 _ rfl)
      obtain ⟨⟨rest, last⟩, hrest⟩ := ih middle (start + 1) fun index pair hpair => by
        rw [Nat.add_assoc, Nat.add_comm 1]
        exact h (index + 1) pair hpair
      exact ⟨(slots :: rest, last),
        bind_eq_ok.mpr ⟨_, hslots, bind_eq_ok.mpr ⟨_, hrest, rfl⟩⟩⟩

-- Replays that can be aligned are planned.
theorem plan_total (hphase : recorder.phase = .secondReplay)
    (hdistinct : (recorder.first ++ recorder.second).Nodup)
    (hlive : ∀ id ∈ recorder.first ++ recorder.second, nodes.contains id = true)
    (h : recorder.Alignable nodes) : ∃ plan, recorder.plan nodes = .ok plan := by
  obtain ⟨initial, next, hconditions, hnext⟩ := h.conditions
  obtain ⟨feed, hfeed⟩ := List.getElem?_of_mem hnext
  have hfound := idxOf?_of_getElem? (List.nodup_append'.mp hdistinct).1 hfeed
  have haligns : ∀ step pair, (recorder.first.zip recorder.second)[step]? = some pair →
      recorder.AlignsAt nodes (0 + step) pair := by
    rintro step ⟨first, second⟩ hpair
    obtain ⟨hfirst, hsecond⟩ := List.getElem?_zip_eq_some.mp hpair
    obtain ⟨a, ha⟩ := (Table.contains_iff _ _).mp
      (hlive first (List.mem_append_left _ (List.mem_of_getElem? hfirst)))
    obtain ⟨b, hb⟩ := (Table.contains_iff _ _).mp
      (hlive second (List.mem_append_right _ (List.mem_of_getElem? hsecond)))
    rw [Nat.zero_add]
    exact ⟨a, b, ha, hb, h.steps hfirst hsecond ha hb⟩
  obtain ⟨⟨slots, carried⟩, hsteps⟩ := stepsFrom_total hdistinct [⟨initial, feed⟩] 0 haligns
  refine ⟨⟨recorder.first, slots, carried⟩, ?_⟩
  simp only [plan, hphase, hconditions, h.lengths, hfound, hsteps, decide_true, require_of]
  rfl

-- Finding a carried value keeps what adding one keeps.
theorem carriedIndex_nodup {carried : List CarriedValue} (h : carried.Nodup)
    (value : CarriedValue) : (carriedIndex carried value).2.Nodup := by
  unfold carriedIndex
  split
  · exact h
  · rename_i hnone
    exact List.nodup_append'.mpr ⟨h, List.nodup_singleton value,
      List.disjoint_singleton.mpr (List.idxOf?_eq_none_iff.mp hnone)⟩

theorem slot_nodup {carried more : List CarriedValue} (hnodup : carried.Nodup)
    {first second : Nat} {slot : Slot}
    (h : recorder.slot step carried first second = .ok (slot, more)) : more.Nodup := by
  unfold Recorder.slot at h
  split at h
  · obtain ⟨_, _, h⟩ := bind_eq_ok.mp h
    cases h
    exact hnodup
  · split at h
    · obtain ⟨_, _, h⟩ := bind_eq_ok.mp h
      cases h
      exact carriedIndex_nodup hnodup _
    · obtain ⟨_, _, h⟩ := bind_eq_ok.mp h
      cases h
      exact hnodup

theorem slotsFrom_nodup {carried more : List CarriedValue} (hnodup : carried.Nodup)
    {inputs : List (Nat × Nat)} {slots : List Slot}
    (h : recorder.slotsFrom step carried inputs = .ok (slots, more)) : more.Nodup := by
  induction inputs generalizing carried slots with
  | nil =>
      cases h
      exact hnodup
  | cons input inputs ih =>
      obtain ⟨first, second⟩ := input
      rw [slotsFrom] at h
      obtain ⟨⟨slot, middle⟩, hslot, h⟩ := bind_eq_ok.mp h
      obtain ⟨⟨rest, last⟩, hrest, h⟩ := bind_eq_ok.mp h
      cases h
      exact ih (slot_nodup hnodup hslot) hrest

theorem stepsFrom_nodup {carried more : List CarriedValue} (hnodup : carried.Nodup)
    {steps : List (Nat × Nat)} {slots : List (List Slot)}
    (h : recorder.stepsFrom nodes step carried steps = .ok (slots, more)) : more.Nodup := by
  induction steps generalizing step carried slots with
  | nil =>
      cases h
      exact hnodup
  | cons pair steps ih =>
      obtain ⟨first, second⟩ := pair
      rw [stepsFrom] at h
      obtain ⟨⟨slots, middle⟩, hslots, h⟩ := bind_eq_ok.mp h
      obtain ⟨⟨rest, last⟩, hrest, h⟩ := bind_eq_ok.mp h
      cases h
      refine ih ?_ hrest
      unfold stepSlots at hslots
      split at hslots
      · obtain ⟨_, _, hslots⟩ := bind_eq_ok.mp hslots
        exact slotsFrom_nodup hnodup hslots
      · cases hslots

theorem plan_nodup {plan : LoopPlan} (h : recorder.plan nodes = .ok plan) :
    plan.carried.Nodup := by
  unfold Recorder.plan at h
  obtain ⟨_, _, h⟩ := bind_eq_ok.mp h
  split at h
  · obtain ⟨_, _, h⟩ := bind_eq_ok.mp h
    split at h
    · cases h
    · obtain ⟨⟨slots, carried⟩, hsteps, h⟩ := bind_eq_ok.mp h
      cases h
      exact stepsFrom_nodup (List.nodup_singleton _) hsteps
  · cases h

theorem getElem?_of_idxOf? {items : List Nat} {node index : Nat}
    (h : items.idxOf? node = some index) : items[index]? = some node := by
  obtain ⟨hlt, hnode, _⟩ := List.idxOf?_eq_some_iff.mp h
  exact List.getElem?_eq_some_iff.mpr ⟨hlt, hnode⟩

namespace Explains

variable {carried : List CarriedValue} {slot : Slot} {input : Nat × Nat}

-- An input is older than the node that reads it, so that a step only reads earlier ones.
theorem index_lt (hsorted : recorder.first.Pairwise (· < ·)) {id : Nat}
    (hid : recorder.first[step]? = some id) (hlt : input.1 < id)
    (h : Explains recorder carried slot input) {index : Nat} (hslot : slot = .step index) :
    index < step := by
  cases h with
  | step hfirst _ =>
      cases hslot
      exact index_lt_of_lt hsorted hfirst hid hlt
  | carried hcarried hinit hfeed hsecond => cases hslot
  | outer hfirst hsecond => cases hslot

theorem readable (hsorted : (recorder.first ++ recorder.second).Pairwise (· < ·)) {id : Nat}
    (hid : recorder.first[step]? = some id) (hlt : input.1 < id)
    (h : Explains recorder carried slot input) : recorder.Readable step input := by
  have hfirsts := (List.pairwise_append.mp hsorted).1
  have hindex : ∀ index, slot = .step index → index < step := fun _ => h.index_lt hfirsts hid hlt
  cases h with
  | @step index _ _ hfirst hsecond =>
      exact .step (hindex index rfl) hfirst (getElem?_of_idxOf? hsecond)
  | @carried index feed first second hcarried hinit hfeed hsecond =>
      refine .carried (fun hmember => ?_) (List.mem_of_getElem? (getElem?_of_idxOf? hfeed))
      obtain hmember | hmember := List.mem_append.mp hmember
      · exact hinit hmember
      · exact absurd ((List.pairwise_append.mp hsorted).2.2 id (List.mem_of_getElem? hid) first
          hmember) (Nat.lt_asymm hlt)
  | outer hfirst hsecond => exact .outer (by simp [hfirst, hsecond])

-- In the first round, a slot stands for what the first replay read.
theorem resolve_first {plan : LoopPlan} (hbody : plan.body = recorder.first)
    (h : Explains recorder plan.carried slot input) :
    plan.resolve plan.body (fun value => some value.init) slot = some input.1 := by
  cases h with
  | step hfirst _ => exact hbody ▸ hfirst
  | carried hcarried _ _ _ => simp only [LoopPlan.resolve, hcarried, Option.bind_some]
  | outer _ _ => rfl

-- In the second round, it stands for what the second replay read.
theorem resolve_second {plan : LoopPlan} (hbody : plan.body = recorder.first)
    (h : Explains recorder plan.carried slot input) :
    plan.resolve recorder.second (fun value => plan.body[value.feed]?) slot = some input.2 := by
  cases h with
  | step _ hsecond => exact getElem?_of_idxOf? hsecond
  | carried hcarried _ hfeed _ =>
      simp only [LoopPlan.resolve, hcarried, Option.bind_some, hbody, getElem?_of_idxOf? hfeed]
  | outer _ _ => rfl

end Explains

end Recorder

namespace Looped

variable {state : State} {plan : LoopPlan}

open Recorder

-- A step of the plan, with the nodes that both replays recorded for it.
theorem matches_step (h : Looped state) (hplan : state.recorder.plan state.nodes = .ok plan)
    {step first second : Nat} (hfirst : state.recorder.first[step]? = some first)
    (hsecond : state.recorder.second[step]? = some second) :
    ∃ slots a b, plan.slots[step]? = some slots ∧ state.nodes.get? first = some a ∧
      state.nodes.get? second = some b ∧ Matches state.recorder plan.carried slots a b ∧
      ∀ input ∈ a.inputs.zip b.inputs, input.1 < first := by
  have hpair : (state.recorder.first.zip state.recorder.second)[step]? = some (first, second) :=
    List.getElem?_zip_eq_some.mpr ⟨hfirst, hsecond⟩
  obtain ⟨slots, hslots, a, b, ha, hb, hmatches⟩ := exists_related (plan_eq_ok hplan).steps.flip hpair
  refine ⟨slots, a, b, hslots, ha, hb, hmatches, fun input hinput => ?_⟩
  exact (h.consistent.counted.input_live ha input.1 (List.of_mem_zip hinput).1).2

-- Replays that are planned could be aligned.
theorem alignable (h : Looped state) (hplan : state.recorder.plan state.nodes = .ok plan) :
    state.recorder.Alignable state.nodes := by
  have hplanned := plan_eq_ok hplan
  obtain ⟨initial, next, feed, hconditions, hfeed, _⟩ := hplanned.guard
  refine ⟨⟨initial, next, hconditions, List.mem_of_getElem? (getElem?_of_idxOf? hfeed)⟩,
    hplanned.lengths, fun hfirst hsecond ha hb => ?_⟩
  obtain ⟨slots, a, b, _, hnodeA, hnodeB, hmatches, holder⟩ := h.matches_step hplan hfirst hsecond
  rw [ha] at hnodeA
  rw [hb] at hnodeB
  cases hnodeA
  cases hnodeB
  refine ⟨hmatches.same, hmatches.lengths, fun input hinput => ?_⟩
  obtain ⟨slot, _, hexplains⟩ := related_of_mem hmatches.explained.flip hinput
  exact hexplains.readable h.recorded.sorted hfirst (holder input hinput)

-- Replays that can be aligned are planned.
theorem planned (h : Looped state) (hphase : state.recorder.phase = .secondReplay)
    (halignable : state.recorder.Alignable state.nodes) :
    ∃ plan, state.recorder.plan state.nodes = .ok plan := by
  refine plan_total hphase (h.recorded.sorted.imp Nat.ne_of_lt) (fun id hid => ?_) halignable
  obtain ⟨node, hnode, _⟩ := Recorded.live h.consistent hid
  exact (Table.contains_iff _ _).mpr ⟨node, hnode⟩

theorem rebuilds (h : Looped state) (hplan : state.recorder.plan state.nodes = .ok plan) :
    state.recorder.Rebuilds state.nodes plan := by
  have hplanned := plan_eq_ok hplan
  have hbody := hplanned.body
  have hsorted := (List.pairwise_append.mp h.recorded.sorted).1
  refine ⟨hbody, fun {step first second} hfirst hsecond => ?_, ?_, fun value hvalue => ?_,
    plan_nodup hplan⟩
  · obtain ⟨slots, a, b, hslots, ha, hb, hmatches, holder⟩ := h.matches_step hplan hfirst hsecond
    refine ⟨slots, a, b, hslots, ha, hb, ?_, ?_, fun index hindex => ?_⟩
    · have hresolved := map_eq_of_related <|
        hmatches.explained.imp fun _ _ hslot => hslot.resolve_first hbody
      refine (hresolved.trans List.map_map.symm).trans ?_
      rw [List.map_fst_zip (Nat.le_of_eq hmatches.lengths)]
    · have hresolved := map_eq_of_related <|
        hmatches.explained.imp fun _ _ hslot => hslot.resolve_second hbody
      refine (hresolved.trans List.map_map.symm).trans ?_
      rw [List.map_snd_zip (Nat.le_of_eq hmatches.lengths.symm)]
    · obtain ⟨input, hinput, hexplains⟩ := related_of_mem hmatches.explained hindex
      exact hexplains.index_lt hsorted hfirst (holder input hinput) rfl
  · obtain ⟨initial, next, feed, hconditions, hfeed, hguard⟩ := hplanned.guard
    exact ⟨initial, next, feed, hconditions, hbody ▸ getElem?_of_idxOf? hfeed, hguard⟩
  · rw [hbody]
    exact hplanned.feed_lt hvalue

end Looped

namespace Placed

variable {before after : State} {plan : LoopPlan} {loop : Nat}

-- Steps that feed carried values are paired once each, and the tails are newer than all of them.
theorem pairs_distinct (h : Placed before plan loop after)
    (hdistinct : before.recorder.second.Nodup)
    (hold : ∀ id ∈ before.recorder.second, id < before.nextId) :
    ∃ pairs, after.pairsOf loop = .ok pairs ∧ (pairs.before ++ pairs.after).Nodup := by
  obtain ⟨pairs, hpairs, hrelated, hafter⟩ := h.pairs
  have hbefore : ∀ id ∈ pairs.map Prod.fst, id < before.nextId := by
    intro id hid
    obtain ⟨pair, hpair, rfl⟩ := List.mem_map.mp hid
    obtain ⟨tail, _, hpairOf⟩ := related_of_mem hrelated.flip hpair
    exact hold _ (List.mem_of_getElem? hpairOf.before)
  refine ⟨_, hpairs, List.nodup_append.mpr ⟨?_, ?_, fun id hid other hother => ?_⟩⟩
  · have hfeeds : ((plan.tails.map Prod.snd).map (before.recorder.second[·]?)) =
        (pairs.map Prod.fst).map some := by
      rw [List.map_map, List.map_map]
      exact map_eq_of_related (hrelated.imp fun _ _ hpair => hpair.before)
    refine List.Nodup.of_map some (hfeeds ▸ ?_)
    refine plan.nodup_tails.map_on fun feed hfeed other _ hsame => ?_
    obtain ⟨tail, htail, rfl⟩ := List.mem_map.mp hfeed
    obtain ⟨pair, _, hpairOf⟩ := related_of_mem hrelated htail
    exact (List.getElem?_inj (List.getElem?_eq_some_iff.mp hpairOf.before).1 hdistinct).mp hsame
  · exact hafter ▸ List.nodup_range'
  · rw [hafter, List.mem_range'_1] at hother
    exact Nat.ne_of_lt ((hbefore id hid).trans hother.1)

end Placed

-- Two replays are planned exactly when they can be aligned. The plan gives both of them back, and
-- the loop is put together with pairs that are all distinct.
theorem alignable_replays_planned {state : State} (h : Reachable state)
    (hphase : state.recorder.phase = .secondReplay) :
    ((∃ plan, state.recorder.plan state.nodes = .ok plan) ↔
      state.recorder.Alignable state.nodes) ∧
    ∀ plan, state.recorder.plan state.nodes = .ok plan →
      state.recorder.Rebuilds state.nodes plan ∧
      ∃ loop after pairs, simulator.loopAssemble state = (.ok loop, after) ∧
        after.pairsOf loop = .ok pairs ∧ (pairs.before ++ pairs.after).Nodup := by
  have hlooped := h.looped
  have hnumbered := hlooped.consistent.counted.numbered
  have hdistinct := hlooped.recorded.sorted.imp Nat.ne_of_lt
  refine ⟨⟨fun ⟨plan, hplan⟩ => hlooped.alignable hplan, hlooped.planned hphase⟩,
    fun plan hplan => ⟨hlooped.rebuilds hplan, ?_⟩⟩
  obtain ⟨loop, after, hassemble⟩ := State.assemble_total hlooped hplan
  obtain ⟨other, _, hplaced⟩ := State.assemble_eq_ok hnumbered hassemble
  obtain ⟨pairs, hpairs, hnodup⟩ := hplaced.pairs_distinct (List.nodup_append'.mp hdistinct).2.1
    fun id hid => by
      obtain ⟨_, _, hlt⟩ := Recorded.live hlooped.consistent (List.mem_append_right _ hid)
      exact hlt
  exact ⟨loop, after, pairs, hassemble, hpairs, hnodup⟩

-- A body that swaps two values. Each of them is carried, and starts as the node of the other one.
theorem swapped_values_planned :
    ∃ state, Reachable state ∧ state.recorder.phase = .secondReplay ∧
      state.recorder.Alignable state.nodes ∧
      state.recorder.Rebuilds state.nodes
        ⟨[3, 4], [[.carried 1], [.carried 0]], [⟨1, 0⟩, ⟨2, 1⟩]⟩ := by
  have hreachable := (Reachable.empty 5 none).calls
    [.construct (.constant (.s32 1) (.single .s32)), .acquire 1,
      .construct (.constant (.s32 2) (.single .s32)), .acquire 2, .loopStart, .loopCondition 1,
      .loopReplay .first, .construct (.identity 2), .acquire 3, .construct (.identity 1), .acquire 4,
      .loopCondition 3, .loopReplay .second, .construct (.identity 4), .construct (.identity 3)]
    (by decide)
  obtain ⟨hiff, hrebuilds⟩ := alignable_replays_planned hreachable rfl
  exact ⟨_, hreachable, rfl, hiff.mp ⟨_, rfl⟩, (hrebuilds _ rfl).1⟩

end MapAlgebra.Graph
