import MapAlgebra.Proofs.Graph.Checked
import MapAlgebra.Proofs.Graph.Idle
import MapAlgebra.Proofs.Graph.Lasting

namespace MapAlgebra.Graph

-- The form that is noted about a node.
def FormAt (nodes : Table Node) (id : Nat) (form : Form) : Prop :=
  ∃ node, nodes.get? id = some node ∧ node.info.form = form

-- What is noted about a node comes from what is noted about others. The value of a loop is noted as
-- a truth value with the extents of the condition, and the value of a tail as that of the step of
-- the first replay that feeds it.
inductive Noted (nodes : Table Node) (node : Node) : Prop
  | plain {forms : List Form} (hplain : node.kind.isPlain = true)
      (hinputs : List.Forall₂ (FormAt nodes) node.inputs forms)
      (htyped : Typed node.kind forms node.info.form) : Noted nodes node
  | loop {plan : LoopPlan} {value : CarriedValue} {guard : Form} (hkind : node.kind = .loop plan)
      (hvalue : plan.carried[0]? = some value) (hguard : FormAt nodes value.init guard)
      (hform : node.info.form = ⟨.b8, guard.shape⟩) : Noted nodes node
  | tail {loop : Node} {plan : LoopPlan} {value : CarriedValue} {index id step : Nat}
      (hkind : node.kind = .loopTail index) (hinputs : node.inputs = [id])
      (hloop : nodes.get? id = some loop) (hplan : loop.kind = .loop plan)
      (hvalue : plan.carried[index]? = some value) (hstep : plan.body[value.feed]? = some step)
      (hform : FormAt nodes step node.info.form) : Noted nodes node

structure Formed (state : State) : Prop where
  noted : ∀ {id node}, state.nodes.get? id = some node → Noted state.nodes node

theorem Node.Keeps.form {old new : Node} (h : old.Keeps new) : new.info.form = old.info.form := by
  rw [h.info]
  rfl

theorem formAt_of_info {state : State} {id : Nat} {info : Meta} (h : state.info id = .ok info) :
    FormAt state.nodes id info.form := by
  obtain ⟨node, hnode, rfl⟩ := State.info_eq_ok h
  exact ⟨node, hnode, rfl⟩

theorem related_imp {α β : Type} {relation other : α → β → Prop} {xs : List α} {ys : List β}
    (h : List.Forall₂ relation xs ys) (himp : ∀ x ∈ xs, ∀ y, relation x y → other x y) :
    List.Forall₂ other xs ys := by
  induction h with
  | nil => exact .nil
  | @cons x y xs ys hfirst _ ih =>
      refine .cons (himp x List.mem_cons_self y hfirst) (ih fun x hx => ?_)
      exact himp x (List.mem_cons_of_mem _ hx)

-- A node that stays is noted as before if everything it needs stays too.
theorem Noted.mono {before after : Table Node} {old new : Node} (h : Noted before old)
    (hkeeps : old.Keeps new)
    (hinput : ∀ input ∈ new.inputs, ∀ node, before.get? input = some node →
      ∃ kept, after.get? input = some kept ∧ node.Keeps kept)
    (hloop : ∀ plan, old.kind = .loop plan → old.inputs = plan.body ++ plan.externals)
    (hbody : ∀ loop ∈ new.inputs, ∀ node plan, before.get? loop = some node →
      node.kind = .loop plan → ∀ step ∈ plan.body, ∀ info, before.get? step = some info →
        ∃ kept, after.get? step = some kept ∧ info.Keeps kept) : Noted after new := by
  have hform : ∀ input ∈ new.inputs, ∀ form, FormAt before input form →
      FormAt after input form := by
    rintro input hmember form ⟨node, hnode, rfl⟩
    obtain ⟨kept, hkept, hsame⟩ := hinput input hmember node hnode
    exact ⟨kept, hkept, hsame.form⟩
  cases h with
  | plain hplain hinputs htyped =>
      rw [← hkeeps.inputs] at hinputs
      rw [← hkeeps.kind] at hplain htyped
      exact .plain hplain (related_imp hinputs hform) (hkeeps.form ▸ htyped)
  | @loop plan value guard hkind hvalue hguard hnoted =>
      have hmember : value.init ∈ new.inputs := by
        rw [hkeeps.inputs, hloop plan hkind]
        refine List.mem_append_right _ ((plan.mem_externals _).mpr (Or.inl ⟨value, ?_, rfl⟩))
        exact List.mem_of_getElem? hvalue
      exact .loop (hkeeps.kind.trans hkind) hvalue (hform _ hmember _ hguard)
        (hkeeps.form.trans hnoted)
  | @tail loop plan value index id step hkind hinputs hfound hplan hvalue hstep hnoted =>
      have hmember : id ∈ new.inputs := by
        rw [hkeeps.inputs, hinputs]
        exact List.mem_singleton_self id
      obtain ⟨kept, hkept, hsame⟩ := hinput id hmember loop hfound
      obtain ⟨info, hinfo, hbodyForm⟩ := hnoted
      obtain ⟨after, hafter, hstays⟩ := hbody id hmember loop plan hfound hplan step
        (List.mem_of_getElem? hstep) info hinfo
      refine .tail (hkeeps.kind.trans hkind) (hkeeps.inputs.trans hinputs) hkept
        (hsame.kind.trans hplan) hvalue hstep ⟨after, hafter, ?_⟩
      rw [hstays.form, hkeeps.form]
      exact hbodyForm

-- A call makes nodes only if it builds something.
theorem nextId_call (state : State) (call : Call)
    (hbuilds : ∀ request, call ≠ .construct request) (hassembles : call ≠ .loopAssemble) :
    (call.after simulator state).nextId = state.nextId := by
  cases call with
  | construct request => exact absurd rfl (hbuilds request)
  | loopAssemble => exact absurd rfl hassembles
  | setupDevices platform mask device => rfl
  | setRanks ranks =>
      refine atomically_induction_ (motive := (·.nextId = state.nextId)) rfl fun next h => ?_
      unfold State.setRanks at h
      split at h
      · cases h
      · cases h
        rfl
  | acquire node => rfl
  | release node => exact nextId_release state node
  | loopStart =>
      refine atomically_induction_ (motive := (·.nextId = state.nextId)) rfl fun next h => ?_
      obtain ⟨_, _, h⟩ := bind_eq_ok.mp h
      cases h
      rfl
  | loopCondition node =>
      refine atomically_induction_ (motive := (·.nextId = state.nextId)) rfl fun next h => ?_
      obtain ⟨_, _, _, _, rfl⟩ := State.addCondition_eq_ok h
      rfl
  | loopReplay next =>
      refine atomically_induction_ (motive := (·.nextId = state.nextId)) rfl fun after h => ?_
      obtain ⟨_, _, h⟩ := bind_eq_ok.mp h
      cases h
      rfl
  | loopEnd =>
      show state.endLoop.nextId = state.nextId
      rw [(State.frees_endLoop state).frame]
  | write node resource =>
      refine atomically_induction (motive := (·.nextId = state.nextId)) rfl fun code next h => ?_
      obtain ⟨grid, _, h⟩ := bind_eq_ok.mp h
      rcases hsave : state.store.save resource grid with ⟨status, store⟩
      rw [hsave] at h
      cases status <;> (cases h; rfl)
  | evaluate nodes =>
      refine atomically_induction_ (motive := (·.nextId = state.nextId)) rfl fun next h => ?_
      obtain ⟨_, h⟩ := unless_eq_ok.mp h
      obtain ⟨_, _, h⟩ := bind_eq_ok.mp h
      cases h
      rfl
  | ask query node => cases query <;> rfl

namespace Formed

variable {before after : State}

theorem empty (limit : Nat) (directory : Option Directory) : Formed (.empty limit directory) :=
  ⟨nofun⟩

-- Only new nodes have to be looked at.
theorem onward (h : Formed before) (honward : Onward before after) (hbefore : Consistent before)
    (hafter : Consistent after)
    (hnew : ∀ {id node}, after.nodes.get? id = some node → before.nextId ≤ id →
      Noted after.nodes node) : Formed after := by
  refine ⟨fun {id node} hnode => ?_⟩
  by_cases hlt : id < before.nextId
  · obtain ⟨old, hold, hkeeps⟩ := honward.node hnode hlt
    -- What is read is older than what reads it, and is there as long as that.
    have hstays : ∀ {reader info input}, after.nodes.get? reader = some info →
        reader ≤ id → input ∈ info.inputs → ∀ node, before.nodes.get? input = some node →
          input < id ∧ ∃ kept, after.nodes.get? input = some kept ∧ node.Keeps kept := by
      intro reader info input hinfo hle hmember node hfound
      obtain ⟨hlive, holder⟩ := hafter.counted.input_live hinfo input hmember
      obtain ⟨kept, hkept⟩ := (Table.contains_iff _ _).mp hlive
      obtain ⟨found, hsame, hkeeps⟩ := honward.node hkept (by omega)
      rw [hfound] at hsame
      cases hsame
      exact ⟨by omega, kept, hkept, hkeeps⟩
    refine (h.noted hold).mono hkeeps (fun input hmember info hinfo => ?_)
      (fun plan hkind => hbefore.loop_inputs hold hkind)
      fun loop hmember info plan hinfo hplan step hstep body hbody => ?_
    · exact (hstays hnode (Nat.le_refl _) hmember info hinfo).2
    · obtain ⟨holder, kept, hkept, hsame⟩ := hstays hnode (Nat.le_refl _) hmember info hinfo
      have hread : step ∈ kept.inputs := by
        rw [hafter.loop_inputs hkept (hsame.kind.trans hplan)]
        exact List.mem_append_left _ hstep
      exact (hstays hkept (Nat.le_of_lt holder) hread body hbody).2
  · exact hnew hnode (Nat.le_of_not_lt hlt)

-- Changes that make no node.
theorem same (h : Formed before) (hbefore : Consistent before) (hchanges : Changes before after)
    (hnext : after.nextId = before.nextId) : Formed after := by
  have hafter := hbefore.changes hchanges
  refine h.onward hchanges.onward hbefore hafter fun {id node} hnode hle => ?_
  have hlt := (hafter.counted.numbered.range hnode).2
  omega

-- A change that makes one node.
theorem extended (h : Formed before) (hbefore : Consistent before) (hchange : Change before after)
    (hnext : after.nextId = before.nextId + 1)
    (hnew : ∀ {node}, after.nodes.get? before.nextId = some node → Noted after.nodes node) :
    Formed after := by
  have hafter := hbefore.change hchange
  refine h.onward hchange.follows.onward hbefore hafter fun {id node} hnode hle => ?_
  have hlt := (hafter.counted.numbered.range hnode).2
  obtain rfl : id = before.nextId := by omega
  exact hnew hnode

theorem formAt_created (state : State) (kind : NodeKind) (inputs : List Nat) (info : Meta) :
    FormAt (state.create kind inputs info).2.nodes state.nextId info.form := by
  have hnode := State.get?_create state kind inputs info state.nextId
  rw [if_pos rfl] at hnode
  exact ⟨_, hnode, rfl⟩

theorem formAt_create {state : State} (hnumbered : State.Numbered state) (kind : NodeKind)
    (inputs : List Nat) (info : Meta) {id : Nat} {form : Form} (h : FormAt state.nodes id form) :
    FormAt (state.create kind inputs info).2.nodes id form := by
  obtain ⟨node, hnode, rfl⟩ := h
  exact ⟨_, hnumbered.kept_create hnode kind inputs info, rfl⟩

-- The node that is made by a request is noted as it was drafted.
theorem create {state : State} (h : Formed state) (hconsistent : Consistent state)
    {kind : NodeKind} {inputs : List Nat} {info : Meta} {forms : List Form}
    (hplain : kind.isPlain = true) (hinputs : List.Forall₂ (FormAt state.nodes) inputs forms)
    (htyped : Typed kind forms info.form) : Formed (state.create kind inputs info).2 := by
  have hlive : ∀ input ∈ inputs, state.nodes.contains input = true := by
    intro input hinput
    obtain ⟨_, _, node, hnode, _⟩ := related_of_mem hinputs hinput
    exact (Table.contains_iff _ _).mpr ⟨node, hnode⟩
  refine h.extended hconsistent (.create info hplain hlive) rfl fun {node} hnode => ?_
  rw [State.get?_create, if_pos rfl] at hnode
  cases hnode
  have hkept := hinputs.imp fun _ _ hform =>
    formAt_create hconsistent.counted.numbered kind inputs info hform
  exact .plain hplain hkept htyped

theorem construct {state next : State} {request : Construction} {id : Address}
    (h : Formed state) (hconsistent : Consistent state)
    (hnext : state.construct request = .ok (id, next))
    (hnodes : ∀ node ∈ request.nodes, node = Address.null ∨ state.nodes.contains node = true) :
    Formed next := by
  obtain ⟨draft, hdraft, hplaced⟩ := bind_eq_ok.mp hnext
  have hplain := State.draft_plain hdraft
  have hthere : ∀ node ∈ request.nodes, decide (node = Address.null) = true ∨
      ∃ form, FormAt state.nodes node form := by
    intro node hnode
    refine (hnodes node hnode).imp decide_eq_true fun hlive => ?_
    obtain ⟨info, hinfo⟩ := (Table.contains_iff _ _).mp hlive
    exact ⟨info.info.form, info, hinfo, rfl⟩
  rw [pure_eq_ok, State.place] at hplaced
  cases hstandIn : draft.standIn with
  | none =>
      rw [hstandIn, State.createZero] at hplaced
      obtain rfl : _ = next := congrArg Prod.snd hplaced
      obtain ⟨forms, hinputs, htyped⟩ := draftOf_typed Address.null hdraft
        (fun _ _ hinfo => formAt_of_info hinfo) (by simp [hstandIn]) hthere
      exact h.create hconsistent hplain hinputs htyped
  | some info =>
      rw [hstandIn, State.createZero] at hplaced
      obtain rfl : _ = next := congrArg Prod.snd hplaced
      let zero := (Scalar.zero info.dtype).toOption.getD (.f32 (Number.narrow 0))
      have hnumbered := hconsistent.counted.numbered
      have hkept : ∀ {node form}, FormAt state.nodes node form →
          FormAt (state.create (.constant zero) [] info).2.nodes node form :=
        fun hform => formAt_create hnumbered _ _ _ hform
      have hzero := formAt_created state (.constant zero) [] info
      have hrank : info.form.shape.length ≤ maxRank := by
        rw [show info.form.shape = [] from draftOf_standIn_single hdraft hstandIn]
        exact Nat.zero_le _
      have hmade : Formed (state.create (.constant zero) [] info).2 :=
        h.create hconsistent rfl .nil (.constant zero hrank)
      obtain ⟨forms, hinputs, htyped⟩ := draftOf_typed state.nextId hdraft
        (fun _ _ hinfo => hkept (formAt_of_info hinfo))
        (fun note hnote => by
          rw [hstandIn] at hnote
          cases hnote
          exact hzero)
        fun node hnode => (hthere node hnode).imp_right (Exists.imp fun form hform => hkept hform)
      have hchange : Change state (state.create (.constant zero) [] info).2 :=
        .create info rfl (by simp)
      exact hmade.create (hconsistent.change hchange) hplain hinputs htyped

-- A tail is noted as the step that feeds its carried value.
theorem createTails {loop : Address} {plan : LoopPlan} {tails pairs : List (Nat × Nat)}
    {state next : State} {node : Node} (h : Formed state) (hconsistent : Consistent state)
    (hnext : state.createTails loop plan tails = .ok (pairs, next))
    (htails : ∀ tail ∈ tails, ∃ value, plan.carried[tail.1]? = some value ∧ value.feed = tail.2)
    (hphase : state.recorder.phase = .assembled) (hloop : state.nodes.get? loop = some node)
    (hkind : node.kind = .loop plan) : Formed next := by
  induction tails generalizing state node pairs with
  | nil =>
      cases hnext
      exact h
  | cons tail tails ih =>
      obtain ⟨index, feed⟩ := tail
      rw [State.createTails] at hnext
      obtain ⟨step, hstep, hnext⟩ := bind_eq_ok.mp hnext
      obtain ⟨info, hinfo, hnext⟩ := bind_eq_ok.mp hnext
      obtain ⟨_, _, hnext⟩ := bind_eq_ok.mp hnext
      obtain ⟨⟨rest, last⟩, hrest, hnext⟩ := bind_eq_ok.mp hnext
      cases hnext
      have hnumbered := hconsistent.counted.numbered
      obtain ⟨value, hvalue, hfeed⟩ := htails _ List.mem_cons_self
      have hindex := (List.getElem?_eq_some_iff.mp hvalue).1
      have hchange := Change.tail info hphase hloop hkind hindex
      have hkept := hnumbered.kept_create hloop (.loopTail index) [loop] info
      have hmade : Formed (state.create (.loopTail index) [loop] info).2 := by
        refine h.extended hconsistent hchange rfl fun {node} hnode => ?_
        rw [State.get?_create, if_pos rfl] at hnode
        cases hnode
        have hbody : plan.body[value.feed]? = some step := by
          rw [hfeed]
          exact State.entry_eq_ok.mp hstep
        exact .tail rfl rfl hkept hkind hvalue hbody
          (formAt_create hnumbered _ _ _ (formAt_of_info hinfo))
      refine ih hmade (hconsistent.change hchange) hrest
        (fun tail htail => htails tail (List.mem_cons_of_mem _ htail)) ?_ hkept hkind
      simp only [State.recorder_create, Recorder.record, hphase]

theorem placeLoop {plan : LoopPlan} {loop : Address} {state next : State} (h : Formed state)
    (hconsistent : Consistent state) (hplan : state.recorder.plan state.nodes = .ok plan)
    (hnext : { state with recorder := state.recorder.close }.placeLoop plan = .ok (loop, next)) :
    Formed next := by
  obtain ⟨value, hvalue, hnext⟩ := bind_eq_ok.mp hnext
  obtain ⟨guard, hguard, hnext⟩ := bind_eq_ok.mp hnext
  obtain ⟨⟨pairs, last⟩, htails, hnext⟩ := bind_eq_ok.mp hnext
  cases hnext
  have hnumbered : State.Numbered { state with recorder := state.recorder.close } :=
    ⟨hconsistent.counted.numbered.range, hconsistent.counted.numbered.next⟩
  have hchange := Change.loop (guard.derived .b8 guard.shape) hplan
  have hloop := State.get?_create { state with recorder := state.recorder.close } (.loop plan)
    (plan.body ++ plan.externals) (guard.derived .b8 guard.shape) state.nextId
  rw [if_pos rfl] at hloop
  have hmade : Formed ({ state with recorder := state.recorder.close }.create (.loop plan)
      (plan.body ++ plan.externals) (guard.derived .b8 guard.shape)).2 := by
    refine h.extended hconsistent hchange rfl fun {node} hnode => ?_
    rw [hloop] at hnode
    cases hnode
    exact .loop rfl (State.entry_eq_ok.mp hvalue)
      (formAt_create hnumbered _ _ _ (formAt_of_info hguard)) rfl
  have hlast := hmade.createTails (hconsistent.change hchange) htails (fun tail htail => ?_) rfl
    hloop rfl
  · exact ⟨hlast.noted⟩
  · obtain ⟨value, hvalue, hfeed, _⟩ := (plan.mem_tails tail.1 tail.2).mp htail
    exact ⟨value, hvalue, hfeed⟩

theorem call {state : State} (h : Formed state) (hconsistent : Consistent state) (call : Call)
    (hnodes : ∀ node ∈ call.nodes, node = Address.null ∨ state.nodes.contains node = true) :
    Formed (call.after simulator state) := by
  by_cases hassembles : call = .loopAssemble
  · subst hassembles
    show Formed (simulator.loopAssemble state).2
    rw [Changes.assemble_eq]
    cases hplan : state.recorder.plan state.nodes with
    | error problem => exact h
    | ok plan =>
        exact atomically_induction ⟨h.noted⟩ fun _ _ hnext => h.placeLoop hconsistent hplan hnext
  · by_cases hbuilds : ∃ request, call = .construct request
    · obtain ⟨request, rfl⟩ := hbuilds
      exact atomically_induction h fun _ _ hnext => h.construct hconsistent hnext hnodes
    · have hsame := nextId_call state call (fun request heq => hbuilds ⟨request, heq⟩) hassembles
      exact h.same hconsistent (Changes.call call hconsistent.counted.numbered hnodes) hsame

end Formed

theorem Reachable.formed {state : State} (h : Reachable state) : Formed state := by
  induction h with
  | empty limit directory => exact .empty limit directory
  | call call hreachable hnodes ih => exact ih.call hreachable.consistent call hnodes
  | restock store _ ih => exact ⟨ih.noted⟩

end MapAlgebra.Graph
