import MapAlgebra.Proofs.Graph.Merged
import MapAlgebra.Proofs.Loops.Lowered
import MapAlgebra.Proofs.Loops.Steady

namespace MapAlgebra.Loop

open MapAlgebra.Graph

namespace Replayed

variable {code : Code} {outer : Tally} {begun now rebegun ended : Scope State Vars} {after : State}
  {ref : Ref} {count index : Nat}

-- A step that the second replay has from itself is read as that step.
theorem step_of_second (h : Replayed code outer begun now rebegun ended after)
    (hknown : ref.Scoped outer count) (haddress : ref.address rebegun = rebegun.engine.nextId + index) :
    ref = .step index := h.again.step_of_address hknown haddress

-- A step that the second replay has from the first one was left in the variable that is read.
theorem start_of_first (h : Replayed code outer begun now rebegun ended after)
    (hknown : ref.Scoped outer count) (hindex : index < code.round.steps.length)
    (haddress : ref.address rebegun = begun.engine.nextId + index) :
    ∃ name, ref = .start name ∧ code.ends name = .step index := by
  have hnext := h.next_eq
  have hold : ∀ {other : Ref}, other.Scoped outer count → (∀ step, other ≠ .step step) →
      other.address begun ≠ begun.engine.nextId + index := by
    intro other hother hnone hsame
    have hlt := h.ready.address_lt hother hnone
    rw [hsame] at hlt
    exact absurd hlt (Nat.not_lt.mpr (Nat.le_add_right _ _))
  cases ref with
  | start name =>
      rw [Ref.address, h.nodeOf_again] at haddress
      exact ⟨name, rfl, h.ready.step_of_address (h.ends_eq name).2.2 haddress⟩
  | step other =>
      have hsame : rebegun.engine.nextId + other = begun.engine.nextId + index := haddress
      omega
  | outside raster => exact absurd haddress (hold hknown fun _ hsame => Ref.noConfusion hsame)
  | absent => exact absurd haddress (hold hknown fun _ hsame => Ref.noConfusion hsame)

end Replayed

namespace Lowered

variable {code : Code} {outer : Tally} {start after : Scope State Vars}

theorem grounded (h : Lowered code outer start after) : Grounded outer code.round.steps :=
  h.replayed.first.grounded

theorem first_eq (h : Lowered code outer start after) :
    h.before.recorder.first = List.range' h.begun.engine.nextId code.round.steps.length := by
  rw [h.recorder, recording]

theorem second_eq (h : Lowered code outer start after) :
    h.before.recorder.second = List.range' h.rebegun.engine.nextId code.round.steps.length := by
  rw [h.recorder, recording]

theorem rebuilds (h : Lowered code outer start after) :
    h.before.recorder.Rebuilds h.before.nodes h.plan := h.reached.ready.looped.rebuilds h.planned

theorem body_eq (h : Lowered code outer start after) :
    h.plan.body = List.range' h.begun.engine.nextId code.round.steps.length :=
  h.rebuilds.body.trans h.first_eq

-- Where the steps of the two replays are, and those of the loop.
theorem first_step (h : Lowered code outer start after) {step id : Nat} :
    h.before.recorder.first[step]? = some id ↔
      step < code.round.steps.length ∧ h.begun.engine.nextId + step = id :=
  h.first_eq ▸ getElem?_replayed

theorem second_step (h : Lowered code outer start after) {step id : Nat} :
    h.before.recorder.second[step]? = some id ↔
      step < code.round.steps.length ∧ h.rebegun.engine.nextId + step = id :=
  h.second_eq ▸ getElem?_replayed

theorem body_step (h : Lowered code outer start after) {step id : Nat} :
    h.plan.body[step]? = some id ↔
      step < code.round.steps.length ∧ h.begun.engine.nextId + step = id :=
  h.body_eq ▸ getElem?_replayed

-- What the slots of a loop read, in terms of its code.
inductive Stands (h : Lowered code outer start after) : Slot → Ref → Prop
  | step (index : Nat) : Stands h (.step index) (.step index)
  | carried {index feed : Nat} {name : String}
      (hcarried : h.plan.carried[index]? = some ⟨h.begun.vars.nodeOf name, feed⟩)
      (hends : code.ends name = .step feed) : Stands h (.carried index) (.start name)
  | kept {name : String} (hends : ∀ step, code.ends name ≠ .step step)
      (hsame : (code.ends name).address h.begun = h.begun.vars.nodeOf name) :
      Stands h (.outer (h.begun.vars.nodeOf name)) (.start name)
  | outside {raster : Raster} (hheld : ∀ node, raster.node = some node → 0 < outer node) :
      Stands h (.outer raster.address) (.outside raster)

variable {index : Nat} {step : Step Ref} {slot : Slot} {ref : Ref}

-- A slot that gives both replays back stands for what the code reads.
theorem stands_of_resolves (h : Lowered code outer start after)
    (hindex : index < code.round.steps.length) (hknown : ref.Scoped outer index)
    (hthere : ref.isAbsent = false)
    (hfirst : h.plan.resolve h.plan.body (fun value => some value.init) slot =
      some (ref.address h.begun))
    (hsecond : h.plan.resolve h.before.recorder.second (fun value => h.plan.body[value.feed]?) slot =
      some (ref.address h.rebegun)) : h.Stands slot ref := by
  cases slot with
  | step index =>
      obtain ⟨_, hsame⟩ := h.second_step.mp hsecond
      obtain rfl := h.replayed.step_of_second hknown hsame.symm
      exact .step index
  | carried index =>
      simp only [LoopPlan.resolve, Option.bind_eq_some_iff] at hfirst hsecond
      obtain ⟨value, hvalue, hinit⟩ := hfirst
      obtain ⟨_, hsame, hfeed⟩ := hsecond
      cases hvalue.symm.trans hsame
      obtain ⟨hlt, hfeed⟩ := h.body_step.mp hfeed
      obtain ⟨name, rfl, hends⟩ := h.replayed.start_of_first hknown hlt hfeed.symm
      refine .carried ?_ hends
      rw [hvalue, ← show value.init = h.begun.vars.nodeOf name from Option.some.inj hinit]
  | outer node =>
      obtain rfl := Option.some.inj hfirst
      have hsame := Option.some.inj hsecond
      cases ref with
      | start name =>
          rw [Ref.address, Ref.address, h.replayed.nodeOf_again] at hsame
          refine .kept (fun other hends => ?_) hsame.symm
          have hlt := h.replayed.ready.nodeOf_lt name
          rw [hsame, hends] at hlt
          exact absurd hlt (Nat.not_lt.mpr (Nat.le_add_right _ _))
      | step index =>
          have hnext := h.replayed.next_eq
          have hboth : h.begun.engine.nextId + index = h.rebegun.engine.nextId + index := hsame
          omega
      | outside raster => exact .outside hknown
      | absent => cases hthere

-- The slots of a step stand for its inputs.
theorem slots_stand (h : Lowered code outer start after)
    (hstep : code.round.steps[index]? = some step) :
    ∃ slots, h.plan.slots[index]? = some slots ∧ List.Forall₂ h.Stands slots step.inputs := by
  have hindex := (List.getElem?_eq_some_iff.mp hstep).1
  obtain ⟨slots, a, b, hslots, ha, hb, hfirst, hsecond, -⟩ :=
    h.rebuilds.steps (h.first_step.mpr ⟨hindex, rfl⟩) (h.second_step.mpr ⟨hindex, rfl⟩)
  obtain ⟨hmadeFirst, hmadeSecond⟩ := h.replayed.made hstep
  obtain ⟨_, _, hnode⟩ := hmadeFirst.drafted
  obtain ⟨_, _, hrenode⟩ := hmadeSecond.drafted
  rw [(hnode a ha).2.2, List.map_map, ← List.forall₂_eq_eq_eq, List.forall₂_map_left_iff,
    List.forall₂_map_right_iff] at hfirst
  rw [(hrenode b hb).2.2, List.map_map, ← List.forall₂_eq_eq_eq, List.forall₂_map_left_iff,
    List.forall₂_map_right_iff] at hsecond
  refine ⟨slots, hslots, List.forall₂_iff_zip.mpr ⟨hfirst.length_eq, fun {slot ref} hpair => ?_⟩⟩
  obtain ⟨hmember, hthere⟩ := Step.inputs_present hmadeFirst.required (List.of_mem_zip hpair).2
  exact h.stands_of_resolves hindex (hmadeFirst.known ref hmember) hthere
    (List.forall₂_zip hfirst hpair) (List.forall₂_zip hsecond hpair)

-- A variable that is looked at is the condition, or a slot stands for it.
theorem stands_of_reads (h : Lowered code outer start after) {name : String}
    (hreads : code.Reads name) :
    code.ends name = .step h.feed ∨ ∃ slot, h.Stands slot (.start name) := by
  obtain hguard | ⟨step, hstep, href⟩ := hreads.cases
  · have hfeed := h.guard
    rw [Code.guardRef, Code.guardIn, hguard, code.asking_vars] at hfeed
    exact Or.inl hfeed
  · obtain ⟨index, hindex⟩ := List.getElem?_of_mem hstep
    obtain ⟨slots, _, hstands⟩ := h.slots_stand hindex
    obtain ⟨slot, _, hslot⟩ := related_of_mem hstands.flip href
    exact Or.inr ⟨slot, hslot⟩

-- Where a carried value comes from: it is the condition, or the variable that is looked at while
-- the step that feeds it is what a round leaves in the variable.
theorem carried_cases (h : Lowered code outer start after) {value : CarriedValue}
    (hvalue : value ∈ h.plan.carried) :
    value = ⟨h.initial, h.feed⟩ ∨ ∃ name, code.Reads name ∧ code.ends name = .step value.feed ∧
      value.init = h.begun.vars.nodeOf name := by
  have hplanned := Recorder.plan_eq_ok h.planned
  have hfeed : ∀ {node}, h.before.recorder.first.idxOf? node = some value.feed →
      value.feed < code.round.steps.length ∧ node = h.begun.engine.nextId + value.feed := by
    intro node hnode
    obtain ⟨hlt, hsame⟩ := h.first_step.mp (Recorder.getElem?_of_idxOf? hnode)
    exact ⟨hlt, hsame.symm⟩
  obtain ⟨next, hconditions, hnext⟩ | ⟨_, second, ⟨pair, hpair, a, b, ha, hb, hread⟩, hsecond⟩ :=
    hplanned.carried value hvalue
  · left
    rw [h.recorder] at hconditions
    obtain ⟨hinitial, hcondition⟩ := List.cons.inj hconditions
    obtain ⟨_, hsame⟩ := hfeed hnext
    have heq := (List.cons.inj hcondition).1.trans hsame
    rw [← show value.feed = h.feed from (Nat.add_left_cancel heq).symm, hinitial]
  · right
    obtain ⟨step, hstep⟩ := List.getElem?_of_mem hpair
    obtain ⟨hfirst, hother⟩ := List.getElem?_zip_eq_some.mp hstep
    obtain ⟨hlt, hfirst⟩ := h.first_step.mp hfirst
    obtain ⟨_, hother⟩ := h.second_step.mp hother
    rw [← hfirst] at ha
    rw [← hother] at hb
    obtain ⟨hmadeFirst, hmadeSecond⟩ := h.replayed.made (List.getElem?_eq_getElem hlt)
    obtain ⟨_, _, hnode⟩ := hmadeFirst.drafted
    obtain ⟨_, _, hrenode⟩ := hmadeSecond.drafted
    rw [(hnode a ha).2.2, (hrenode b hb).2.2, List.zip_map', List.mem_map] at hread
    obtain ⟨ref, href, heq⟩ := hread
    obtain ⟨hinit, hsame⟩ := Prod.mk.inj heq
    obtain ⟨hmember, -⟩ := Step.inputs_present hmadeFirst.required href
    obtain ⟨hbound, hstart⟩ := hfeed hsecond
    obtain ⟨name, rfl, hends⟩ :=
      h.replayed.start_of_first (hmadeFirst.known ref hmember) hbound (hsame.trans hstart)
    exact ⟨name, Or.inr ⟨_, List.getElem_mem hlt, hmember⟩, hends, hinit.symm⟩

theorem guard_carried (h : Lowered code outer start after) :
    h.plan.carried[0]? = some ⟨h.initial, h.feed⟩ := by
  obtain ⟨initial, next, feed, hconditions, hnext, hcarried⟩ := h.rebuilds.guard
  rw [h.recorder] at hconditions
  cases hconditions
  obtain ⟨_, hsame⟩ := h.body_step.mp hnext
  rw [hcarried, Nat.add_left_cancel hsame]

-- A carried value that the body feeds starts as a variable that is looked at and that the step is
-- left in.
theorem carried_source (h : Lowered code outer start after) {value : CarriedValue}
    (hvalue : value ∈ h.plan.carried) (hinner : value.feed < code.inner.steps.length) :
    ∃ name, code.Reads name ∧ code.ends name = .step value.feed ∧
      h.begun.engine.valueOf value.init = worth start name := by
  obtain rfl | ⟨name, hreads, hends, hinit⟩ := h.carried_cases hvalue
  · have hguard := h.guard
    rw [Code.guardRef, Code.guardIn, code.asking_vars] at hguard
    cases hsource : code.guard with
    | named name =>
        rw [hsource] at hguard
        refine ⟨name, Or.inl hsource, hguard, ?_⟩
        rw [h.asked, Code.guardAfter, Code.guardIn, code.asking_vars, hsource]
        rfl
    | result index =>
        rw [hsource, Source.resolve] at hguard
        have hlt : h.feed < code.inner.steps.length := hinner
        cases hresult : (code.asking code.inner).results[index]? with
        | none =>
            rw [hresult] at hguard
            cases hguard
        | some step =>
            rw [hresult] at hguard
            have hfeed : step = h.feed := Ref.step.inj hguard
            obtain hnone | hle := code.asking_results code.inner step (List.mem_of_getElem? hresult)
            · cases hnone
            · omega
    | outside raster =>
        rw [hsource] at hguard
        cases hguard
    | absent =>
        rw [hsource] at hguard
        cases hguard
  · refine ⟨name, hreads, hends, ?_⟩
    rw [hinit]
    exact h.opened.worth name

-- The variables that the loop hands on are those whose step has a tail.
theorem carries_iff (h : Lowered code outer start after) {name : String} {step : Nat}
    (hends : code.ends name = .step step) :
    code.Carries name ↔ ∃ index, (index, step) ∈ h.plan.tails := by
  constructor
  · rintro ⟨found, other, hfound, hreads, hother⟩
    obtain rfl : step = found := Ref.step.inj (hends.symm.trans hfound)
    have hcarried : ∃ (index : Nat) (value : CarriedValue),
        h.plan.carried[index]? = some value ∧ value.feed = step := by
      obtain hfeed | ⟨slot, hslot⟩ := h.stands_of_reads hreads
      · exact ⟨0, _, h.guard_carried, (Ref.step.inj (hother.symm.trans hfeed)).symm⟩
      · cases hslot with
        | carried hcarried hfeed => exact ⟨_, _, hcarried, Ref.step.inj (hfeed.symm.trans hother)⟩
        | kept hnone _ => exact absurd hother (hnone step)
    obtain ⟨index, value, hvalue, rfl⟩ := hcarried
    obtain ⟨first, _, htail⟩ := h.plan.exists_tail hvalue
    exact ⟨first, htail⟩
  · rintro ⟨index, htail⟩
    obtain ⟨value, hvalue, rfl, _⟩ := (h.plan.mem_tails _ _).mp htail
    have hinner := h.inner name
    rw [hends] at hinner
    obtain ⟨other, hreads, hother, _⟩ := h.carried_source (List.mem_of_getElem? hvalue) hinner
    exact ⟨_, other, hends, hreads, hother⟩

-- What stands under a step of the second replay holds a tail of that step.
theorem pair_tail (h : Lowered code outer start after) {pair : Address × Raster}
    (hpair : pair ∈ h.carried.pairs) :
    ∃ index step, (index, step) ∈ h.plan.tails ∧ pair.1 = h.rebegun.engine.nextId + step ∧
      ∃ goal node, pair.2.node = some goal ∧ h.made.nodes.get? goal = some node ∧
        node.kind = .loopTail index ∧ node.inputs = [h.loop] := by
  obtain ⟨⟨index, step⟩, htail, goal, hgoal, hpairOf⟩ := related_of_mem h.pairs.flip hpair
  obtain ⟨node, hnode, hkind, hinputs⟩ := hpairOf.after
  obtain ⟨_, hbefore⟩ := h.second_step.mp hpairOf.before
  exact ⟨index, step, htail, hbefore.symm, goal, node, hgoal, hnode, hkind, hinputs⟩

-- A variable whose step has a tail moves on to one.
theorem after_moved (h : Lowered code outer start after) {name : String} {step index : Nat}
    (hends : code.ends name = .step step) (htail : (index, step) ∈ h.plan.tails) :
    ∃ index node, (index, step) ∈ h.plan.tails ∧
      h.made.nodes.get? (after.vars.nodeOf name) = some node ∧ node.kind = .loopTail index ∧
      node.inputs = [h.loop] := by
  obtain ⟨_, hdenotes, -⟩ := h.replayed.ends_eq name
  rw [hends] at hdenotes
  obtain ⟨raster, hfind, hraster⟩ := hdenotes
  have hassigned : name ∈ h.ended.vars.assigned := by
    have hround : code.round.vars name = .step step :=
      (congrFun (code.asking_vars code.inner) name).trans hends
    obtain hstart | hmarked := h.replayed.second.marked name
    · rw [hround] at hstart
      cases hstart
    · exact hmarked
  obtain ⟨⟨key, target⟩, hpair, _, _, hpairOf⟩ := related_of_mem h.pairs htail
  obtain ⟨_, rfl⟩ := h.second_step.mp hpairOf.before
  cases hlookup : h.carried.afterFor (h.rebegun.engine.nextId + step) with
  | none =>
      have hnone := List.lookup_eq_none_iff.mp hlookup _ hpair
      simp at hnone
  | some target =>
      obtain ⟨pairs, rest, hpairs, -⟩ := List.lookup_eq_some_iff.mp hlookup
      have hmember : (h.rebegun.engine.nextId + step, target) ∈ h.carried.pairs := by
        rw [hpairs]
        simp
      obtain ⟨index, other, htail, hsame, goal, node, hgoal, hnode, hkind, hinputs⟩ :=
        h.pair_tail hmember
      obtain rfl : step = other := Nat.add_left_cancel hsame
      refine ⟨index, node, htail, ?_, hkind, hinputs⟩
      have hmoved : after.vars.slots.find? name = some (.node target) := by
        rw [h.moved.find, hfind, Option.map_some, if_pos hassigned, Carried.moved, Carried.goal?,
          hraster, Option.bind_some]
        simp only [Ref.address, hlookup, Option.map_some, Option.getD_some]
      rw [Vars.nodeOf, hmoved]
      show h.made.nodes.get? (target.node.getD Address.null) = _
      rw [hgoal]
      exact hnode

-- All other variables keep what the second replay left in them.
theorem after_kept (h : Lowered code outer start after) {name : String}
    (hstays : ∀ step, code.ends name = .step step → ∀ index, (index, step) ∉ h.plan.tails) :
    after.vars.slots.find? name = h.ended.vars.slots.find? name := by
  obtain ⟨_, hdenotes, hknown⟩ := h.replayed.ends_eq name
  rw [h.moved.find]
  cases hfind : h.ended.vars.slots.find? name with
  | none => rfl
  | some operand =>
      have hstuck : h.carried.goal? operand = none := by
        by_contra hgoal
        obtain ⟨target, hgoal⟩ := Option.ne_none_iff_exists'.mp hgoal
        cases operand with
        | host value => cases hgoal
        | node raster =>
            obtain ⟨node, hnode, hlookup⟩ := Option.bind_eq_some_iff.mp hgoal
            obtain ⟨pairs, rest, hpairs, -⟩ := List.lookup_eq_some_iff.mp hlookup
            have hmember : (node, target) ∈ h.carried.pairs := by
              rw [hpairs]
              simp
            obtain ⟨index, step, htail, hsame, -⟩ := h.pair_tail hmember
            rw [hfind] at hdenotes
            obtain ⟨haddress, -⟩ := Ref.address_of_denotes hdenotes hnode
            exact hstays step (h.replayed.again.step_of_address hknown (haddress.trans hsame)) index
              htail
      rw [Option.map_some, Carried.moved, hstuck]
      simp

end Lowered

end MapAlgebra.Loop
