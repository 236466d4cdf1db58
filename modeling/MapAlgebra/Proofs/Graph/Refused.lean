import MapAlgebra.Proofs.Graph.Formed
import MapAlgebra.Proofs.Graph.Requests

namespace MapAlgebra

namespace Request

variable {ν : Type}

-- The nodes that may not be left out. A branch of a conditional may, unless the other one is.
def pinned : Request ν → List ν
  | conditional condition _ _ => [condition]
  | request => request.required

-- The nodes that summaries are to be left in.
def summaries : Request ν → List ν
  | stats _ lowest highest mean deviation => [lowest, highest, mean, deviation]
  | _ => []

-- Whether something is left out that may not be.
def Misses (isEmpty : ν → Bool) (request : Request ν) : Prop :=
  (∃ node ∈ request.pinned, isEmpty node = true) ∨
    ∃ condition yes no, request = conditional condition yes no ∧ isEmpty yes = true ∧
      isEmpty no = true

theorem nodes_cases (request : Request ν) {node : ν} (hnode : node ∈ request.nodes) :
    node ∈ request.required ∨ node ∈ request.summaries := by
  cases request with
  | stats first lowest highest mean deviation =>
      obtain rfl | hsummary := List.mem_cons.mp hnode
      · exact Or.inl List.mem_cons_self
      · exact Or.inr hsummary
  | _ => exact Or.inl hnode

end Request

namespace Query

-- Whether a question is answered.
def outcome {σ : Type} (engine : Engine σ) (node : Address) (state : σ) :
    Query → Except MapError Unit
  | loopPairs => (engine.loopPairs node state).1.map fun _ => ()
  | value => (engine.value node state).1.map fun _ => ()
  | nodeId => (engine.nodeId node state).1.map fun _ => ()
  | nodeName => (engine.nodeName node state).1.map fun _ => ()
  | stream => (engine.stream node state).1.map fun _ => ()
  | dataType => (engine.dataType node state).1.map fun _ => ()
  | dimension => (engine.dimension node state).1.map fun _ => ()
  | memOrder => (engine.memOrder node state).1.map fun _ => ()
  | size => (engine.size node state).1.map fun _ => ()
  | block => (engine.block node state).1.map fun _ => ()
  | group => (engine.group node state).1.map fun _ => ()

end Query

namespace Call

-- Whether a call succeeds. Handles are taken and let go of without a result.
def outcome {σ : Type} (engine : Engine σ) (state : σ) : Call → Except MapError Unit
  | setupDevices platform mask device => (engine.setupDevices platform mask device state).1
  | setRanks ranks => (engine.setRanks ranks state).1
  | acquire _ | release _ => .ok ()
  | construct request => (engine.construct request state).1.map fun _ => ()
  | loopStart => (engine.loopStart state).1
  | loopCondition node => (engine.loopCondition node state).1
  | loopReplay next => (engine.loopReplay next state).1
  | loopAssemble => (engine.loopAssemble state).1.map fun _ => ()
  | loopEnd => (engine.loopEnd state).1
  | write node resource => (engine.write node resource state).1.map fun _ => ()
  | evaluate nodes => (engine.evaluate nodes state).1
  | ask query node => query.outcome engine node state

-- The nodes that a call with a result cannot do without. The pairs of a loop are kept under its
-- number, whether it is still there or not.
def required : Call → List Address
  | construct request => request.required
  | loopCondition node | write node _ => [node]
  | evaluate nodes => nodes
  | ask query node => if query = .loopPairs then [] else [node]
  | _ => []

def summaries : Call → List Address
  | construct request => request.summaries
  | _ => []

-- Whether a call leaves something out that may not be.
def Misses : Call → Prop
  | construct request => request.Misses (· = Address.null)
  | loopCondition node | write node _ | ask _ node => node = Address.null
  | evaluate nodes => Address.null ∈ nodes
  | _ => False

end Call

namespace Graph

theorem draftOf_pinned {ν : Type} {info : ν → Except MapError Meta} {isEmpty : ν → Bool}
    {store : Store} {request : Request ν} {draft : Draft}
    (h : draftOf info isEmpty store request = .ok draft) {node : ν}
    (hnode : node ∈ request.pinned) : ∃ found, info node = .ok found := by
  cases draftOf_eq_ok h <;> grind [Request.pinned, Request.required, Request.nodes]

-- One of the branches has to be there.
theorem draftOf_branches {ν : Type} {info : ν → Except MapError Meta} {isEmpty : ν → Bool}
    {store : Store} {condition yes no : ν} {draft : Draft}
    (h : draftOf info isEmpty store (.conditional condition yes no) = .ok draft)
    (hyes : isEmpty yes = true) : isEmpty no = false := by
  cases draftOf_eq_ok h with
  | conditional _ hyesNote hnoNote hbranches =>
      obtain ⟨_, rfl⟩ | ⟨hthere, _⟩ := branch_cases hyesNote
      · obtain ⟨_, rfl⟩ | ⟨hother, _⟩ := branch_cases hnoNote
        · cases hbranches
        · exact hother
      · rw [hyes] at hthere
        cases hthere

namespace State

variable {state : State}

theorem info_total (hnumbered : Numbered state) {id : Nat}
    (hlive : state.nodes.contains id = true) : ∃ info, state.info id = .ok info := by
  obtain ⟨node, hnode⟩ := (Table.contains_iff _ _).mp hlive
  exact ⟨node.info, bind_eq_ok.mpr ⟨node, find_eq hnumbered hnode, rfl⟩⟩

theorem createTails_total (loop : Address) {plan : LoopPlan} {tails : List (Nat × Nat)}
    (hnumbered : Numbered state) (hphase : state.recorder.phase = .assembled)
    (hbody : ∀ id ∈ plan.body, state.nodes.contains id = true)
    (hfeeds : ∀ tail ∈ tails, tail.2 < plan.body.length ∧ tail.2 < state.recorder.second.length) :
    ∃ result, state.createTails loop plan tails = .ok result := by
  induction tails generalizing state with
  | nil => exact ⟨_, rfl⟩
  | cons tail tails ih =>
      obtain ⟨index, feed⟩ := tail
      obtain ⟨hfeed, hsecond⟩ := hfeeds _ List.mem_cons_self
      obtain ⟨info, hinfo⟩ := info_total hnumbered (hbody _ (List.getElem_mem hfeed))
      have hstep := entry_eq_ok.mpr (List.getElem?_eq_getElem hfeed)
      have hbefore := entry_eq_ok.mpr (List.getElem?_eq_getElem hsecond)
      have hrecorder : (state.create (.loopTail index) [loop] info).2.recorder = state.recorder := by
        rw [recorder_create, Recorder.record, hphase]
      obtain ⟨⟨pairs, last⟩, hrest⟩ := ih (hnumbered.create (.loopTail index) [loop] info)
        (by rw [hrecorder]; exact hphase)
        (fun id hid => contains_create (Or.inr (hbody id hid))) fun tail htail => by
          rw [hrecorder]
          exact hfeeds tail (List.mem_cons_of_mem _ htail)
      refine ⟨((state.recorder.second[feed], state.nextId) :: pairs, last), ?_⟩
      rw [createTails]
      exact bind_eq_ok.mpr ⟨_, hstep, bind_eq_ok.mpr ⟨info, hinfo, bind_eq_ok.mpr ⟨_, hbefore,
        bind_eq_ok.mpr ⟨(pairs, last), hrest, rfl⟩⟩⟩⟩

-- Whatever was planned can be placed.
theorem placeLoop_total {plan : LoopPlan} (hlooped : Looped state)
    (hplan : state.recorder.plan state.nodes = .ok plan) :
    ∃ result, { state with recorder := state.recorder.close }.placeLoop plan = .ok result := by
  have hconsistent := hlooped.consistent
  have hfits := Fits.of_plan hconsistent hlooped.recorded hplan
  have hplanned := Recorder.plan_eq_ok hplan
  have hinputs := hconsistent.loop_inputs_live hplan
  have hnumbered : Numbered { state with recorder := state.recorder.close } :=
    ⟨hconsistent.counted.numbered.range, hconsistent.counted.numbered.next⟩
  have hguarded := hfits.guarded
  have hfirst := List.getElem?_eq_getElem hguarded
  have hinit : state.nodes.contains plan.carried[0].init = true := by
    refine hinputs _ (List.mem_append_right _ ((plan.mem_externals _).mpr (Or.inl ?_)))
    exact ⟨plan.carried[0], List.getElem_mem _, rfl⟩
  obtain ⟨guard, hguard⟩ :=
    info_total hnumbered hinit
  have hplaced := hnumbered.create (.loop plan) (plan.body ++ plan.externals)
    (guard.derived .b8 guard.shape)
  have hfeeds : ∀ tail ∈ plan.tails,
      tail.2 < plan.body.length ∧ tail.2 < state.recorder.second.length := by
    intro tail htail
    obtain ⟨value, hvalue, hfeed, _⟩ := (plan.mem_tails tail.1 tail.2).mp htail
    have hlt := hfits.feed_lt value (List.mem_of_getElem? hvalue)
    have hsecond : state.recorder.second.length = plan.body.length := by
      rw [hplanned.body, hplanned.lengths]
    rw [hfeed] at hlt
    exact ⟨hlt, Nat.lt_of_lt_of_le hlt (Nat.le_of_eq hsecond.symm)⟩
  obtain ⟨⟨pairs, last⟩, htails⟩ := createTails_total state.nextId hplaced rfl
    (fun id hid => contains_create (Or.inr (hinputs id (List.mem_append_left _ hid)))) hfeeds
  exact ⟨_, bind_eq_ok.mpr ⟨_, entry_eq_ok.mpr hfirst, bind_eq_ok.mpr ⟨guard, hguard,
    bind_eq_ok.mpr ⟨(pairs, last), htails, rfl⟩⟩⟩⟩

end State

theorem atomically_answered {α : Type} {step : State → Except MapError (α × State)} {state : State}
    {result : α} (h : (atomically step state).1 = .ok result) :
    ∃ next, step state = .ok (result, next) :=
  ⟨(atomically step state).2, atomically_eq_ok (Prod.ext h rfl)⟩

theorem atomically_kept {α : Type} {step : State → Except MapError (α × State)} {state : State}
    {problem : MapError} (h : (atomically step state).1 = .error problem) :
    (atomically step state).2 = state :=
  atomically_refused (by rw [h]; rfl)

namespace Reachable

variable {state : State}

theorem ne_null (h : Reachable state) {node : Address}
    (hlive : state.nodes.contains node = true) : node ≠ Address.null := by
  rintro rfl
  obtain ⟨info, hinfo⟩ := (Table.contains_iff _ _).mp hlive
  exact Nat.lt_irrefl 0 (h.consistent.counted.numbered.range hinfo).1

theorem known_of_grid (h : Reachable state) {node : Address} {grid : Grid}
    (hgrid : state.grid node = .ok grid) : state.nodes.contains node = true :=
  State.contains_of_gridOf ((h.grid_eq node).symm.trans hgrid)

-- Every question looks the node up, but for the one about pairs.
theorem known_of_answer (h : Reachable state) {query : Query} {node : Address}
    (hquery : query ≠ .loopPairs) (hok : query.outcome simulator node state = .ok ()) :
    state.nodes.contains node = true := by
  cases query with
  | loopPairs => exact absurd rfl hquery
  | value =>
      obtain ⟨_, hvalue, _⟩ := map_eq_ok.mp hok
      obtain ⟨_, hgrid, _⟩ := bind_eq_ok.mp hvalue
      exact h.known_of_grid hgrid
  | nodeId | nodeName =>
      obtain ⟨_, hfound, _⟩ := map_eq_ok.mp hok
      obtain ⟨found, hfind, _⟩ := bind_eq_ok.mp hfound
      exact (Table.contains_iff _ _).mpr ⟨found, (State.find_eq_ok hfind).2⟩
  | _ =>
      obtain ⟨_, hasked, _⟩ := map_eq_ok.mp hok
      obtain ⟨_, hinfo, _⟩ := bind_eq_ok.mp hasked
      exact State.contains_of_info hinfo

theorem pairs_of_answer {loop : Address}
    (hok : Query.loopPairs.outcome simulator loop state = .ok ()) :
    loop ≠ Address.null ∧ ∃ pairs, state.recorder.pairsOf loop = some pairs := by
  obtain ⟨_, hpairs, _⟩ := map_eq_ok.mp hok
  replace hpairs : state.pairsOf loop = .ok _ := hpairs
  unfold State.pairsOf at hpairs
  split at hpairs
  · cases hpairs
  · rename_i hnull
    split at hpairs
    · exact ⟨hnull, _, by assumption⟩
    · cases hpairs

-- A request that is granted names nothing that is unknown, but for summaries.
theorem known_of_construct (h : Reachable state) {request : Construction} {node : Address}
    (hok : (simulator.construct request state).1 = .ok node) :
    (∀ node ∈ request.required, node = Address.null ∨ state.nodes.contains node = true) ∧
      ¬ request.Misses (· = Address.null) := by
  obtain ⟨_, hconstruct⟩ := atomically_answered hok
  obtain ⟨draft, hdraft, _⟩ := bind_eq_ok.mp hconstruct
  refine ⟨fun node hnode => ?_, ?_⟩
  · obtain hnull | ⟨_, hinfo⟩ := draftOf_required hdraft _ hnode
    · exact Or.inl (of_decide_eq_true hnull)
    · exact Or.inr (State.contains_of_info hinfo)
  · rintro (⟨node, hpinned, hnull⟩ | ⟨condition, yes, no, rfl, hyes, hno⟩)
    · obtain ⟨_, hinfo⟩ := draftOf_pinned hdraft hpinned
      exact h.ne_null (State.contains_of_info hinfo) (of_decide_eq_true hnull)
    · have hother := draftOf_branches hdraft hyes
      exact absurd (of_decide_eq_true hno) (of_decide_eq_false hother)

theorem known_of_evaluate (h : Reachable state) {nodes : List Address}
    (hok : (simulator.evaluate nodes state).1 = .ok ()) :
    Address.null ∉ nodes ∧ ∀ node ∈ nodes, state.nodes.contains node = true := by
  obtain ⟨_, hevaluate⟩ := atomically_answered hok
  obtain ⟨_, hevaluate, _⟩ := map_eq_ok.mp hevaluate
  obtain ⟨hnull, hevaluate⟩ := unless_eq_ok.mp hevaluate
  obtain ⟨grids, hgrids, _⟩ := bind_eq_ok.mp hevaluate
  rw [State.evaluateAll_eq h.consistent.founded h.consistent.counted.numbered
    h.consistent.computed] at hgrids
  refine ⟨hnull, fun node hnode => ?_⟩
  obtain ⟨_, _, hgrid⟩ := related_of_mem (mapM_eq_ok.mp hgrids) hnode
  exact State.contains_of_gridOf hgrid

-- A call that succeeds names nothing that is unknown, but for summaries and loops with pairs.
theorem known_of_outcome (h : Reachable state) {call : Call}
    (hok : call.outcome simulator state = .ok ()) :
    (∀ node ∈ call.required, node = Address.null ∨ state.nodes.contains node = true) ∧
      ¬ call.Misses := by
  have hlone : ∀ {node : Address}, state.nodes.contains node = true →
      (∀ other ∈ [node], other = Address.null ∨ state.nodes.contains other = true) ∧
        node ≠ Address.null :=
    fun hlive => ⟨List.forall_mem_singleton.mpr (Or.inr hlive), h.ne_null hlive⟩
  cases call with
  | construct request =>
      obtain ⟨_, hconstruct, _⟩ := map_eq_ok.mp hok
      exact h.known_of_construct hconstruct
  | loopCondition node =>
      obtain ⟨_, hcondition⟩ := atomically_answered hok
      obtain ⟨_, hcondition, _⟩ := map_eq_ok.mp hcondition
      obtain ⟨info, _, hinfo, _⟩ := State.addCondition_eq_ok hcondition
      exact hlone ((Table.contains_iff _ _).mpr ⟨info, hinfo⟩)
  | write node resource =>
      obtain ⟨_, hwrite, _⟩ := map_eq_ok.mp hok
      obtain ⟨_, hwrite⟩ := atomically_answered hwrite
      obtain ⟨_, hgrid, _⟩ := bind_eq_ok.mp hwrite
      exact hlone (h.known_of_grid hgrid)
  | evaluate nodes =>
      obtain ⟨hnull, hlive⟩ := h.known_of_evaluate hok
      exact ⟨fun node hnode => Or.inr (hlive node hnode), hnull⟩
  | ask query node =>
      by_cases hquery : query = .loopPairs
      · subst hquery
        exact ⟨nofun, (pairs_of_answer hok).1⟩
      · rw [Call.required, if_neg hquery]
        exact hlone (h.known_of_answer hquery hok)
  | _ => exact ⟨nofun, nofun⟩

-- Putting a loop together fails before anything is changed or not at all.
theorem assemble_kept (h : Reachable state) {problem : MapError}
    (hfails : (simulator.loopAssemble state).1 = .error problem) :
    (simulator.loopAssemble state).2 = state := by
  rw [Changes.assemble_eq] at hfails ⊢
  cases hplan : state.recorder.plan state.nodes with
  | error problem => rfl
  | ok plan =>
      obtain ⟨result, hplaced⟩ := State.placeLoop_total h.looped hplan
      simp only [hplan, atomically, hplaced] at hfails
      cases hfails

-- A call that fails changes nothing.
theorem kept (h : Reachable state) {call : Call} {problem : MapError}
    (hfails : call.outcome simulator state = .error problem) :
    call.after simulator state = state := by
  have hmapped : ∀ {α : Type} {result : Except MapError α},
      (result.map fun _ => ()) = .error problem → result = .error problem := by
    intro α result hresult
    cases result with
    | ok _ => cases hresult
    | error _ => exact congrArg _ (Except.error.inj hresult)
  cases call with
  | acquire node | release node => cases hfails
  | construct request | write node resource => exact atomically_kept (hmapped hfails)
  | loopAssemble => exact h.assemble_kept (hmapped hfails)
  | ask query node => cases query <;> rfl
  | _ => exact atomically_kept hfails

-- Handles on what is not there are neither taken nor let go of.
theorem acquire (h : Reachable state) (node : Address) : Reachable (state.acquire node) := by
  by_cases hlive : state.nodes.contains node = true
  · exact h.call (.acquire node) (List.forall_mem_singleton.mpr (Or.inr hlive))
  · have hnone := Option.not_isSome_iff_eq_none.mp hlive
    rw [State.acquire, Table.modify_eq_self _ hnone]
    exact h

theorem release (h : Reachable state) (node : Address) : Reachable (state.release node) := by
  by_cases hlive : state.nodes.contains node = true
  · exact h.call (.release node) (List.forall_mem_singleton.mpr (Or.inr hlive))
  · have hnone := Option.not_isSome_iff_eq_none.mp hlive
    rw [State.release, hnone]
    exact h

-- However the nodes of a call are named, calls with known nodes lead to the same graph.
theorem after_any (h : Reachable state) (call : Call)
    (hsummaries : ∀ node ∈ call.summaries, node = Address.null ∨ state.nodes.contains node = true) :
    Reachable (call.after simulator state) := by
  cases houtcome : call.outcome simulator state with
  | error problem =>
      rw [h.kept houtcome]
      exact h
  | ok =>
      have hknown := (h.known_of_outcome houtcome).1
      cases call with
      | acquire node => exact h.acquire node
      | release node => exact h.release node
      | construct request =>
          exact h.call (.construct request) fun node hnode =>
            (request.nodes_cases hnode).elim (hknown node) (hsummaries node)
      | ask query node =>
          have hsame : (Call.ask query node).after simulator state = state := by
            cases query <;> rfl
          rw [hsame]
          exact h
      | _ => exact h.call _ hknown

end Reachable

-- A call is refused when a node that it needs is not there, when the null node is named where
-- nothing may be left out, and when it asks for the pairs of a loop that none are kept for. What is
-- refused changes nothing at all. Unless summaries are left in nodes that are not there, a call
-- with any nodes leads to a graph that calls with known nodes lead to as well.
theorem unknown_refused {state : State} (h : Reachable state) (call : Call) :
    (((∃ node ∈ call.required, node ≠ Address.null ∧ state.nodes.contains node = false) ∨
        call.Misses ∨ ∃ loop, call = .ask .loopPairs loop ∧ state.recorder.pairsOf loop = none) →
      ∃ problem, call.outcome simulator state = .error problem) ∧
    (∀ problem, call.outcome simulator state = .error problem →
      call.after simulator state = state) ∧
    ((∀ node ∈ call.summaries, node = Address.null ∨ state.nodes.contains node = true) →
      Reachable (call.after simulator state)) := by
  refine ⟨fun hastray => ?_, fun problem hfails => h.kept hfails, h.after_any call⟩
  cases houtcome : call.outcome simulator state with
  | error problem => exact ⟨problem, rfl⟩
  | ok =>
      obtain ⟨hknown, hcomplete⟩ := h.known_of_outcome houtcome
      obtain ⟨node, hnode, hnull, hunknown⟩ | hmisses | ⟨loop, rfl, hnone⟩ := hastray
      · obtain hsame | hlive := hknown node hnode
        · exact absurd hsame hnull
        · rw [hunknown] at hlive
          cases hlive
      · exact absurd hmisses hcomplete
      · obtain ⟨_, pairs, hpairs⟩ := Reachable.pairs_of_answer houtcome
        rw [hnone] at hpairs
        cases hpairs

-- A graph whose loop was freed with its only tail, while the lowering still goes on.
def discarded : State :=
  (State.empty 5 none).afterCalls
    [.construct (.constant (.s32 0) (.single .s32)), .acquire 1, .loopStart, .loopCondition 1,
      .loopReplay .first, .construct (.identity 1), .acquire 2, .loopCondition 2,
      .loopReplay .second, .construct (.identity 2), .loopAssemble, .acquire 5, .release 5]

-- The freed loop cannot be read any more, and trying to changes nothing.
theorem discarded_refused :
    Reachable discarded ∧ discarded.nodes.contains 4 = false ∧
      (∃ problem, (Call.construct (.binary 1 4 .add)).outcome simulator discarded =
        .error problem) ∧
      (Call.construct (.binary 1 4 .add)).after simulator discarded = discarded := by
  have hreachable : Reachable discarded := (Reachable.empty 5 none).calls _ (by decide)
  obtain ⟨hrefused, hkept, _⟩ :=
    unknown_refused hreachable (.construct (.binary 1 4 .add))
  obtain ⟨problem, hfails⟩ := hrefused (Or.inl ⟨4, by decide, by decide, by decide⟩)
  exact ⟨hreachable, by decide, ⟨problem, hfails⟩, hkept problem hfails⟩

-- Summaries are not looked up: a node is made that reads one that never was. The pairs of a loop
-- are kept after the loop was freed.
theorem unknown_accepted :
    Reachable discarded ∧ discarded.nodes.contains 99 = false ∧
      (Call.construct (.stats 1 99 0 0 0)).outcome simulator discarded = .ok () ∧
      (((Call.construct (.stats 1 99 0 0 0)).after simulator discarded).nodes.get? 6).map
        (·.inputs) = some [1, 99] ∧
      discarded.nodes.contains 4 = false ∧
      (Call.ask .loopPairs 4).outcome simulator discarded = .ok () :=
  ⟨(Reachable.empty 5 none).calls _ (by decide), by decide, rfl, by decide, by decide, rfl⟩

end Graph

end MapAlgebra
