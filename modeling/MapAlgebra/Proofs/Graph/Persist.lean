import MapAlgebra.Proofs.Graph.Origin
import MapAlgebra.Proofs.Graph.Value

namespace MapAlgebra.Graph

-- A later graph. Nodes that were there before are what they were, if they are still there.
structure Onward (before after : State) : Prop where
  node : ∀ {id node}, after.nodes.get? id = some node → id < before.nextId →
    ∃ old, before.nodes.get? id = some old ∧ old.Keeps node
  next : before.nextId ≤ after.nextId
  limit : after.limit = before.limit

theorem Follows.onward {before after : State} (h : Follows before after) : Onward before after where
  node hnode hold := by
    obtain hkept | ⟨hid, _, _⟩ := h.node hnode
    · exact hkept
    · omega
  next := h.next
  limit := h.limit

namespace Onward

theorem refl (state : State) : Onward state state :=
  ⟨fun h _ => ⟨_, h, .refl _⟩, Nat.le_refl _, rfl⟩

theorem trans {a b c : State} (hab : Onward a b) (hbc : Onward b c) : Onward a c where
  node hnode hold := by
    have hnext := hab.next
    obtain ⟨middle, hmiddle, hlast⟩ := hbc.node hnode (by omega)
    obtain ⟨old, hold, hfirst⟩ := hab.node hmiddle hold
    exact ⟨old, hold, hfirst.trans hlast⟩
  next := Nat.le_trans hab.next hbc.next
  limit := hbc.limit.trans hab.limit

end Onward

-- Where data comes from does not matter for what a node makes of its inputs.
theorem Node.Keeps.apply_eq {old new : Node} (h : old.Keeps new) (inputs : List Grid) :
    new.kind.apply new.info inputs = old.kind.apply old.info inputs := by
  rw [h.kind, h.info]
  cases old.kind <;> rfl

namespace State

variable {before after : State}

-- What two graphs agree on about a node.
def SameAt (before after : State) (id : Nat) : Prop :=
  ∃ old new, before.find id = .ok old ∧ after.find id = .ok new ∧ old.Keeps new

theorem runRound_eq {plan : LoopPlan} (hbody : ∀ node ∈ plan.body, SameAt before after node)
    (externals : Table Grid) (carried : List Grid) :
    after.runRound plan externals carried = before.runRound plan externals carried := by
  have hstep : ∀ step ∈ plan.body.zip plan.slots, ∀ round,
      after.runStep round step = before.runStep round step := by
    intro step hmember round
    obtain ⟨old, new, hold, hnew, hkeeps⟩ := hbody step.1 (List.of_mem_zip hmember).1
    simp only [runStep, hold, hnew, hkeeps.apply_eq, bind, Except.bind]
  have hfold : ∀ (steps : List (Nat × List Slot)) (round : Round),
      (∀ step ∈ steps, ∀ round, after.runStep round step = before.runStep round step) →
      steps.foldlM after.runStep round = steps.foldlM before.runStep round := by
    intro steps
    induction steps with
    | nil => exact fun _ _ => rfl
    | cons step steps ih =>
        intro round h
        rw [List.foldlM_cons, List.foldlM_cons, h step List.mem_cons_self]
        congr 1
        funext next
        exact ih next fun other hother => h other (List.mem_cons_of_mem _ hother)
  unfold runRound
  rw [hfold _ _ hstep]

theorem runRounds_eq {plan : LoopPlan} (hbody : ∀ node ∈ plan.body, SameAt before after node)
    (hlimit : after.limit = before.limit) (loop : Nat) (externals : Table Grid) (remaining : Nat)
    (carried : List Grid) : after.runRounds loop plan externals remaining carried =
      before.runRounds loop plan externals remaining carried := by
  induction remaining generalizing carried with
  | zero => simp only [runRounds, hlimit]
  | succ remaining ih => simp only [runRounds, runRound_eq hbody, ih]

theorem finalValues_eq {plan : LoopPlan} (hbody : ∀ node ∈ plan.body, SameAt before after node)
    (hlimit : after.limit = before.limit) {f g : Nat → Except MapError Grid} (loop : Nat)
    (h : ∀ node ∈ plan.externals, f node = g node) :
    after.finalValues f loop plan = before.finalValues g loop plan := by
  rw [finalValues_congr loop h]
  unfold finalValues
  simp only [runRounds_eq hbody hlimit, hlimit]

theorem sameAt_of_live (honward : Onward before after) (hbefore : Numbered before)
    (hafter : Numbered after) {id : Nat} (hlive : after.nodes.contains id = true)
    (hold : id < before.nextId) : SameAt before after id := by
  obtain ⟨new, hnew⟩ := (Table.contains_iff _ _).mp hlive
  obtain ⟨old, hold, hkeeps⟩ := honward.node hnew hold
  exact ⟨old, new, find_eq hbefore hold, find_eq hafter hnew, hkeeps⟩

-- A node that is still there keeps its grid.
theorem gridOf_eq_of_onward (honward : Onward before after) (hbefore : Numbered before)
    (hafter : Numbered after) (hfoundedBefore : Founded before) (hfounded : Founded after)
    {id : Nat} (hlive : after.nodes.contains id = true) (hold : id < before.nextId) :
    after.gridOf id = before.gridOf id := by
  induction id using Nat.strongRecOn with
  | ind id ih =>
      obtain ⟨old, new, hfindOld, hfindNew, hkeeps⟩ :=
        sameAt_of_live honward hbefore hafter hlive hold
      have hnew := (find_eq_ok hfindNew).2
      have hloop : ∀ {loop : Nat} {info : Node} {plan : LoopPlan}, loop ≤ id →
          after.nodes.get? loop = some info → info.kind = .loop plan →
          after.finalValues after.gridOf loop plan = before.finalValues before.gridOf loop plan := by
        intro loop info plan hle hinfo hkind
        have hinputs := hfounded.loop_inputs hinfo hkind
        refine finalValues_eq (fun node hnode => ?_) honward.limit loop fun node hnode => ?_
        · obtain ⟨hthere, hlt⟩ := hfounded.input_live hinfo node
            (hinputs ▸ List.mem_append_left _ hnode)
          exact sameAt_of_live honward hbefore hafter hthere (by omega)
        · obtain ⟨hthere, hlt⟩ := hfounded.input_live hinfo node
            (hinputs ▸ List.mem_append_right _ hnode)
          exact ih node (by omega) hthere (by omega)
      have hinputs : new.inputs.mapM after.gridOf = old.inputs.mapM before.gridOf := by
        rw [← hkeeps.inputs]
        refine mapM_congr fun input hinput => ?_
        obtain ⟨hthere, hlt⟩ := hfounded.input_live hnew input hinput
        exact ih input hlt hthere (by omega)
      rw [gridOf_eq hfounded, gridOf_eq hfoundedBefore, gridFrom, gridFrom, hfindOld, hfindNew]
      show after.nodeGrid after.gridOf id new = before.nodeGrid before.gridOf id old
      unfold nodeGrid
      rw [hkeeps.kind]
      cases hkind : old.kind with
      | loop plan => simp only [hloop (Nat.le_refl id) hnew (hkeeps.kind.trans hkind)]
      | loopTail index =>
          rw [hkeeps.inputs]
          cases hentry : entry old.inputs 0 with
          | error problem => rfl
          | ok loop =>
              have hmember := List.mem_of_getElem? (entry_eq_ok.mp hentry)
              obtain ⟨hthere, hlt⟩ := hfounded.input_live hnew loop (hkeeps.inputs ▸ hmember)
              obtain ⟨oldLoop, newLoop, hfirst, hsecond, hsame⟩ :=
                sameAt_of_live honward hbefore hafter hthere (by omega)
              simp only [bind, Except.bind, hfirst, hsecond, hsame.kind]
              cases hplan : oldLoop.kind with
              | loop plan =>
                  simp only [hloop (Nat.le_of_lt hlt) (find_eq_ok hsecond).2
                    (hsame.kind.trans hplan)]
              | _ => rfl
      | _ =>
          have happly := hkeeps.apply_eq
          rw [hkeeps.kind, hkind] at happly
          simp only [hinputs, happly]

end State

end MapAlgebra.Graph
