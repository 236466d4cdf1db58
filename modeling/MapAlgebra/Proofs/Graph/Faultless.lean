import MapAlgebra.Proofs.Graph.Lasting
import MapAlgebra.Proofs.Graph.Watched

namespace MapAlgebra.Graph

variable {α β : Type}

-- A result that is good, or a failure that is no fault.
abbrev Clean (good : α → Prop) (x : Except Trouble α) : Prop := Yields good (·.fault = false) x

theorem clean_faulty {x : Except MapError α} {a : α} (h : x = .ok a) :
    Clean (· = a) (faulty x) := by
  rw [h]
  rfl

theorem clean_honest (x : Except MapError α) : Clean (fun _ => True) (honest x) := by
  cases x with
  | error problem => rfl
  | ok a => trivial

-- What typed operations look at is there.
theorem Typed.arity_le {kind : NodeKind} {forms : List Form} {form : Form}
    (h : Typed kind forms form) : kind.arity ≤ forms.length := by
  cases h <;> simp [NodeKind.arity]

namespace State

variable {state : State} {plan : LoopPlan}

theorem clean_apply (hformed : Formed state) {id : Nat} {node : Node}
    (hnode : state.nodes.get? id = some node) (hplain : node.kind.isPlain = true)
    {inputs : List Grid} (hlength : inputs.length = node.inputs.length) :
    Clean (fun _ => True) (watchedApply node inputs) := by
  have harity : node.kind.arity ≤ inputs.length := by
    cases hformed.noted hnode with
    | plain _ hinputs htyped =>
        rw [hlength, hinputs.length_eq]
        exact htyped.arity_le
    | loop hkind _ _ _ =>
        rw [hkind]
        exact Nat.zero_le _
    | tail hkind _ _ _ _ _ _ =>
        rw [hkind]
        exact Nat.zero_le _
  unfold watchedApply
  rw [if_pos (by simp [hplain, harity])]
  exact clean_honest _

-- What the slots of a step read is there when the earlier steps are.
theorem read_total {round : Round} {step : Nat} {slot : Slot} {input : Nat}
    (h : Reads plan step slot input) (hcarried : round.carried.length = plan.carried.length)
    (hsteps : round.steps.length = step)
    (houter : ∀ node, slot = .outer node → round.externals.contains node = true) :
    ∃ grid, round.read slot = .ok grid := by
  cases h with
  | @step index _ hindex _ =>
      have hlt : index < round.steps.length := by omega
      exact ⟨round.steps[index], entry_eq_ok.mpr (List.getElem?_eq_getElem hlt)⟩
  | @carried index value hvalue =>
      have hlt := (List.getElem?_eq_some_iff.mp hvalue).1
      rw [← hcarried] at hlt
      exact ⟨round.carried[index], entry_eq_ok.mpr (List.getElem?_eq_getElem hlt)⟩
  | outer =>
      obtain ⟨grid, hgrid⟩ := (Table.contains_iff _ _).mp (houter input rfl)
      exact ⟨grid, by rw [Round.read, hgrid]⟩

-- The remaining steps of a round are computed without a fault, given those that are done.
theorem clean_steps (hlooped : Looped state) (hformed : Formed state) (hfits : Fits state plan)
    {carried steps : List Grid} {externals : Table Grid} {finished rest : List Nat}
    (hcarried : carried.length = plan.carried.length)
    (hexternals : ∀ node ∈ plan.externals, externals.contains node = true)
    (hbody : plan.body = finished ++ rest) (hsteps : steps.length = finished.length) :
    Clean (fun round => round.steps.length = plan.body.length)
      ((rest.zip (plan.slots.drop finished.length)).foldlM state.watchedStep
        ⟨carried, externals, steps⟩) := by
  induction rest generalizing finished steps with
  | nil =>
      rw [List.append_nil] at hbody
      show steps.length = plan.body.length
      rw [hsteps, hbody]
  | cons id rest ih =>
      obtain ⟨slots, node, hslots, hmember, hnode, hplain, hreads⟩ := hfits.next hbody
      obtain ⟨inputs, hinputs⟩ :
          ∃ inputs, slots.mapM (Round.read ⟨carried, externals, steps⟩) = .ok inputs := by
        refine mapM_total fun slot hslot => ?_
        obtain ⟨input, _, hread⟩ := related_of_mem hreads hslot
        exact read_total hread hcarried hsteps fun other houter => hexternals other <|
          (plan.mem_externals other).mpr <| Or.inr ⟨slots, hmember, houter ▸ hslot⟩
      have hlength := (length_of_mapM hinputs).trans hreads.length_eq
      have hfind := find_eq hlooped.consistent.counted.numbered hnode
      have hstep : Clean (fun round => ∃ grid, round = ⟨carried, externals, steps ++ [grid]⟩)
          (state.watchedStep ⟨carried, externals, steps⟩ (id, slots)) := by
        refine (clean_faulty hfind).bind fun found _ heq => ?_
        subst heq
        refine (clean_faulty hinputs).bind fun given _ heq => ?_
        subst heq
        exact (clean_apply hformed hnode hplain hlength).bind fun grid _ _ => ⟨grid, rfl⟩
      rw [hslots, List.zip_cons_cons, List.foldlM_cons]
      refine hstep.bind fun round _ hround => ?_
      obtain ⟨grid, rfl⟩ := hround
      exact ih (by rw [hbody, List.append_assoc]; rfl)
        (by rw [List.length_append, List.length_append, hsteps]; rfl)

theorem clean_round (hlooped : Looped state) (hformed : Formed state) (hfits : Fits state plan)
    {carried : List Grid} {externals : Table Grid}
    (hcarried : carried.length = plan.carried.length)
    (hexternals : ∀ node ∈ plan.externals, externals.contains node = true) :
    Clean (fun next => next.length = plan.carried.length)
      (state.watchedRound plan externals carried) := by
  have hbegin : plan.body = [] ++ plan.body := rfl
  have hnone : ([] : List Grid).length = ([] : List Nat).length := rfl
  refine (clean_steps hlooped hformed hfits hcarried hexternals hbegin hnone).bind
    fun round _ hsteps => ?_
  obtain ⟨next, hnext⟩ :
      ∃ next, (plan.carried.mapM fun value => entry round.steps value.feed) = .ok next := by
    refine mapM_total fun value hvalue => ?_
    have hlt := hfits.feed_lt value hvalue
    rw [← hsteps] at hlt
    exact ⟨round.steps[value.feed], entry_eq_ok.mpr (List.getElem?_eq_getElem hlt)⟩
  exact (clean_faulty hnext).mono (fun _ heq => heq ▸ length_of_mapM hnext) fun _ h => h

theorem clean_rounds (hlooped : Looped state) (hformed : Formed state) (hfits : Fits state plan)
    {externals : Table Grid} (hexternals : ∀ node ∈ plan.externals, externals.contains node = true)
    (loop remaining : Nat) {carried : List Grid} (hcarried : carried.length = plan.carried.length) :
    Clean (fun final => final.length = plan.carried.length)
      (state.watchedRounds loop plan externals remaining carried) := by
  induction remaining generalizing carried with
  | zero =>
      have hlt : 0 < carried.length := hcarried ▸ hfits.guarded
      unfold watchedRounds
      have hguard := entry_eq_ok.mpr (List.getElem?_eq_getElem hlt)
      refine (clean_faulty hguard).bind fun guard _ _ => ?_
      split
      · rfl
      · exact hcarried
  | succ remaining ih =>
      have hlt : 0 < carried.length := hcarried ▸ hfits.guarded
      unfold watchedRounds
      have hguard := entry_eq_ok.mpr (List.getElem?_eq_getElem hlt)
      refine (clean_faulty hguard).bind fun guard _ _ => ?_
      split
      · exact (clean_round hlooped hformed hfits hcarried hexternals).bind fun next _ hnext =>
          ih hnext
      · exact hcarried

-- Whatever is remembered about a loop has as many values as its plan.
def Fitting (state : State) (memo : Memo) : Prop :=
  ∀ loop carried node plan, memo.loops.get? loop = some carried →
    state.nodes.get? loop = some node → node.kind = .loop plan →
    carried.length = plan.carried.length

theorem Fitting.empty (state : State) : state.Fitting .empty := by
  intro loop carried node plan hcarried
  cases hcarried

-- An evaluation without faults, whatever fitting values are remembered already.
def Faultless (state : State) (good : α → Prop) (run : WatchedEvaluation α) : Prop :=
  ∀ memo, state.Fitting memo →
    Clean (fun result => good result.1 ∧ state.Fitting result.2) (run memo)

namespace Faultless

variable {good : α → Prop}

theorem lift {x : Except Trouble α} (h : Clean good x) : state.Faultless good (monadLift x) := by
  intro memo hmemo
  cases x with
  | error trouble => exact h
  | ok a => exact ⟨h, hmemo⟩

theorem bind {after : β → Prop} {run : WatchedEvaluation α} {next : α → WatchedEvaluation β}
    (h : state.Faultless good run) (hnext : ∀ a, good a → state.Faultless after (next a)) :
    state.Faultless after (run >>= next) := by
  intro memo hmemo
  have hrun := h memo hmemo
  show Clean _ (run memo >>= fun result => next result.1 result.2)
  exact hrun.bind fun result _ hresult => hnext result.1 hresult.1 result.2 hresult.2

theorem mapM {relation : β → α → Prop} {items : List β} {run : β → WatchedEvaluation α}
    (h : ∀ item ∈ items, state.Faultless (relation item) (run item)) :
    state.Faultless (List.Forall₂ relation items) (items.mapM run) := by
  induction items with
  | nil => exact lift (x := .ok []) List.Forall₂.nil
  | cons item items ih =>
      rw [List.mapM_cons]
      refine (h item List.mem_cons_self).bind fun first hfirst => ?_
      have hrest := ih fun other hother => h other (List.mem_cons_of_mem _ hother)
      exact hrest.bind fun rest hrest => lift (x := .ok _) (.cons hfirst hrest)

theorem get_bind {next : Memo → WatchedEvaluation α}
    (h : ∀ memo, state.Fitting memo → state.Faultless good (next memo)) :
    state.Faultless good (do next (← get)) := fun memo hmemo => h memo hmemo memo hmemo

theorem remembering {run : WatchedEvaluation α} {change : α → Memo → Memo}
    (h : state.Faultless good run)
    (hchange : ∀ a memo, good a → state.Fitting memo → state.Fitting (change a memo)) :
    state.Faultless good (do let a ← run; modify (change a); return a) :=
  h.bind fun a ha _ hmemo => ⟨ha, hchange a _ ha hmemo⟩

theorem run' {run : WatchedEvaluation α} (h : state.Faultless good run) {trouble : Trouble}
    (hfails : run.run' .empty = .error trouble) : trouble.fault = false := by
  have hrun := h .empty (.empty state)
  have heq : (Prod.fst <$> run .empty) = .error trouble := hfails
  cases hresult : run .empty with
  | error problem =>
      rw [hresult] at hrun heq
      cases heq
      exact hrun
  | ok result =>
      rw [hresult] at heq
      cases heq

end Faultless

theorem faultless_loop (hlooped : Looped state) (hformed : Formed state)
    {watched : Nat → WatchedEvaluation Grid} {loop : Nat} {node : Node}
    (hloop : state.nodes.get? loop = some node) (hkind : node.kind = .loop plan)
    (h : ∀ external ∈ plan.externals, state.Faultless (fun _ => True) (watched external)) :
    state.Faultless (fun carried => carried.length = plan.carried.length)
      (state.watchedLoop watched loop plan) := by
  refine Faultless.get_bind fun known hknown => ?_
  cases hfound : known.loops.get? loop with
  | some carried =>
      exact Faultless.lift (x := .ok carried) (hknown loop carried node plan hfound hloop hkind)
  | none =>
      have hinitial : state.Faultless (List.Forall₂ (fun _ _ => True) plan.carried)
          (plan.carried.mapM fun value => watched value.init) :=
        Faultless.mapM fun value hvalue =>
          h _ ((plan.mem_externals _).mpr (Or.inl ⟨value, hvalue, rfl⟩))
      have houter : state.Faultless
          (List.Forall₂ (fun external (entry : Nat × Grid) => entry.1 = external) plan.externals)
          (plan.externals.mapM fun node => do return (node, ← watched node)) :=
        Faultless.mapM fun external hexternal => (h external hexternal).bind fun grid _ =>
          Faultless.lift (x := .ok (external, grid)) (Eq.refl external)
      refine hinitial.bind fun inits hinits => houter.bind fun entries hentries => ?_
      have hthere : ∀ external ∈ plan.externals,
          (Table.ofList entries).contains external = true := by
        intro external hexternal
        obtain ⟨entry, hentry, heq⟩ := related_of_mem hentries hexternal
        exact Table.contains_insertAll _ _ _ (Or.inl (List.mem_map.mpr ⟨entry, hentry, heq⟩))
      have hrounds := clean_rounds hlooped hformed (hlooped.fits hloop hkind) hthere loop
        state.limit hinits.length_eq.symm
      refine (Faultless.lift hrounds).remembering fun carried memo hlength hmemo => ?_
      intro other final info otherPlan hfinal hinfo hother
      have hinserted := Table.get?_insert memo.loops loop other carried
      rw [hinserted] at hfinal
      split at hfinal
      · rename_i hsame
        subst hsame
        rw [hloop] at hinfo
        cases hinfo
        rw [hkind] at hother
        cases hother
        cases hfinal
        exact hlength
      · exact hmemo other final info otherPlan hfinal hinfo hother

theorem faultless_compute (hlooped : Looped state) (hformed : Formed state)
    {watched : Nat → WatchedEvaluation Grid} {id : Nat} {node : Node}
    (hnode : state.nodes.get? id = some node)
    (h : ∀ input < id, state.nodes.contains input = true →
      state.Faultless (fun _ => True) (watched input)) :
    state.Faultless (fun _ => True) (state.watchedCompute watched id node) := by
  have hconsistent := hlooped.consistent
  have hinput : ∀ input ∈ node.inputs, state.Faultless (fun _ => True) (watched input) := by
    intro input hmember
    obtain ⟨hthere, hlt⟩ := hconsistent.founded.input_live hnode input hmember
    exact h input hlt hthere
  have hloops : ∀ {loop info plan}, loop ≤ id → state.nodes.get? loop = some info →
      info.kind = .loop plan → state.Faultless (fun carried => carried.length = plan.carried.length)
        (state.watchedLoop watched loop plan) := by
    intro loop info plan hle hinfo hkind
    refine faultless_loop hlooped hformed hinfo hkind fun external hexternal => ?_
    have hmember : external ∈ info.inputs := by
      rw [hconsistent.loop_inputs hinfo hkind]
      exact List.mem_append_right _ hexternal
    obtain ⟨hthere, hlt⟩ := hconsistent.founded.input_live hinfo external hmember
    exact h external (by omega) hthere
  have hentry : ∀ {items : List Grid} {index : Nat}, index < items.length →
      state.Faultless (fun _ => True) (monadLift (faulty (entry items index))) := fun hlt =>
    Faultless.lift ((clean_faulty (entry_eq_ok.mpr (List.getElem?_eq_getElem hlt))).mono
      (fun _ _ => trivial) fun _ h => h)
  unfold watchedCompute
  cases hkind : node.kind with
  | loop plan =>
      refine (hloops (Nat.le_refl id) hnode hkind).bind fun carried hlength => hentry ?_
      rw [hlength]
      exact (hlooped.fits hnode hkind).guarded
  | loopTail index =>
      obtain ⟨loop, info, plan, hinputs, hinfo, hplan, hindex⟩ :=
        hconsistent.tail_loop hnode hkind
      have hfirst : entry node.inputs 0 = .ok loop := by
        rw [hinputs]
        rfl
      have hlt := hconsistent.founded.input_lt hnode loop (by rw [hinputs]; exact List.mem_cons_self)
      refine (Faultless.lift (clean_faulty hfirst)).bind
        fun found heq => ?_
      subst heq
      have hfind := find_eq hconsistent.counted.numbered hinfo
      refine (Faultless.lift (clean_faulty hfind)).bind
        fun found heq => ?_
      subst heq
      rw [hplan]
      refine (hloops (Nat.le_of_lt hlt) hinfo hplan).bind fun carried hlength => hentry ?_
      rw [hlength]
      exact hindex
  | _ =>
      refine (Faultless.mapM hinput).bind fun inputs hinputs => Faultless.lift ?_
      exact clean_apply hformed hnode (by rw [hkind]; rfl) hinputs.length_eq.symm

theorem faultless_within (hlooped : Looped state) (hformed : Formed state) {fuel id : Nat}
    (hlive : state.nodes.contains id = true) (hfuel : id < fuel) :
    state.Faultless (fun _ => True) (state.watchedWithin fuel id) := by
  induction fuel generalizing id with
  | zero => omega
  | succ fuel ih =>
      refine Faultless.get_bind fun known _ => ?_
      cases (known.grids.get? id <|> state.computed.get? id) with
      | some grid => exact Faultless.lift (x := .ok grid) trivial
      | none =>
          obtain ⟨node, hnode⟩ := (Table.contains_iff _ _).mp hlive
          have hfind := find_eq hlooped.consistent.counted.numbered hnode
          refine (Faultless.lift (clean_faulty hfind)).bind
            fun found heq => ?_
          subst heq
          refine (faultless_compute hlooped hformed hnode fun input hlt hthere =>
            ih hthere (by omega)).remembering fun grid memo _ hmemo => ?_
          exact hmemo

theorem faultless_node (hlooped : Looped state) (hformed : Formed state) {id : Nat}
    (hlive : state.nodes.contains id = true) :
    state.Faultless (fun _ => True) (state.watchedNode id) := by
  have hlt := hlooped.consistent.counted.numbered.lt_next hlive
  exact faultless_within hlooped hformed hlive (by omega)

theorem faultless_grid (hlooped : Looped state) (hformed : Formed state) {id : Nat}
    (hlive : state.nodes.contains id = true) {trouble : Trouble}
    (hfails : state.watchedGrid id = .error trouble) : trouble.fault = false := by
  obtain ⟨node, hnode⟩ := (Table.contains_iff _ _).mp hlive
  have hnull : id ≠ Address.null :=
    Nat.ne_of_gt (hlooped.consistent.counted.numbered.range hnode).1
  rw [watchedGrid, if_neg hnull] at hfails
  exact (faultless_node hlooped hformed hlive).run' hfails

end State

-- The calls that let go of other nodes than one, and the end of a lowering.
inductive LetsGo (id : Address) : Call → Prop
  | finish : LetsGo id .loopEnd
  | release {other : Address} (hother : other ≠ id) : LetsGo id (.release other)

-- A node with a handle stays when others are let go of.
theorem LetsGo.stays {state : State} {id : Address} {node : Node} {call : Call}
    (h : LetsGo id call) (hnode : state.nodes.get? id = some node) (hrefs : 0 < node.refs) :
    ∃ kept, (call.after simulator state).nodes.get? id = some kept ∧ 0 < kept.refs := by
  have hfrees : ∀ {middle after : State}, State.Frees middle after →
      middle.nodes.get? id = some node →
      ∃ kept, after.nodes.get? id = some kept ∧ 0 < kept.refs := by
    intro middle after hfrees hmiddle
    obtain ⟨kept, hkept⟩ := hfrees.stays hmiddle hrefs
    obtain ⟨old, hold, hsame⟩ := hfrees.kept hkept
    rw [hmiddle] at hold
    cases hold
    refine ⟨kept, hkept, ?_⟩
    rw [hsame]
    exact hrefs
  cases h with
  | finish => exact hfrees (State.frees_endLoop state) hnode
  | @release other hother =>
      show ∃ kept, (state.release other).nodes.get? id = some kept ∧ 0 < kept.refs
      obtain hsame | ⟨info, hinfo, _, hrelease⟩ := state.release_cases other
      · rw [hsame]
        exact ⟨node, hnode, hrefs⟩
      · rw [hrelease]
        refine hfrees (State.frees_collect _ other) ?_
        rw [Table.get?_modify, if_neg (Ne.symm hother)]
        exact hnode

theorem held_stays {state : State} {id : Address} {node : Node} {calls : List Call}
    (hnode : state.nodes.get? id = some node) (hrefs : 0 < node.refs)
    (hcalls : ∀ call ∈ calls, LetsGo id call) :
    (state.afterCalls calls).nodes.contains id = true := by
  induction calls generalizing state node with
  | nil => exact (Table.contains_iff _ _).mpr ⟨node, hnode⟩
  | cons call calls ih =>
      obtain ⟨kept, hkept, hrefs⟩ := (hcalls call List.mem_cons_self).stays hnode hrefs
      exact ih hkept hrefs fun other hother => hcalls other (List.mem_cons_of_mem _ hother)

-- Evaluating nodes that are there comes to no fault: watched, the evaluator gives the same results,
-- and whatever fails is an operation on values or the limit of rounds. A node with a handle can be
-- evaluated like that when all others are let go of and the lowering is over, and keeps its grid.
theorem evaluation_faultless {state : State} (h : Reachable state) :
    (∀ loop node plan, state.nodes.get? loop = some node → node.kind = .loop plan →
      plan.slots.length = plan.body.length) ∧
    (∀ id, state.nodes.contains id = true →
      forget (state.watchedGrid id) = state.grid id ∧
        ∀ trouble, state.watchedGrid id = .error trouble → trouble.fault = false) ∧
    (∀ nodes : List Address, (∀ id ∈ nodes, state.nodes.contains id = true) →
      forget (state.watchedAll nodes) = state.evaluateAll nodes ∧
        ∀ trouble, state.watchedAll nodes = .error trouble → trouble.fault = false) ∧
    ∀ id node calls, state.nodes.get? id = some node → 0 < node.refs →
      state.admits calls = true → (∀ call ∈ calls, LetsGo id call) →
        (state.afterCalls calls).nodes.contains id = true ∧
          forget ((state.afterCalls calls).watchedGrid id) = state.grid id ∧
            ∀ trouble, (state.afterCalls calls).watchedGrid id = .error trouble →
              trouble.fault = false := by
  refine ⟨fun loop node plan hloop hkind => (h.looped.fits hloop hkind).lengths,
    fun id hlive => ⟨State.forget_grid state id, fun trouble hfails => ?_⟩,
    fun nodes hnodes => ⟨State.forget_all state nodes, fun trouble hfails => ?_⟩,
    fun id node calls hnode hrefs hadmits hcalls => ?_⟩
  · exact State.faultless_grid h.looped h.formed hlive hfails
  · exact (State.Faultless.mapM fun id hmember =>
      State.faultless_node h.looped h.formed (hnodes id hmember)).run' hfails
  · have hlive := (Table.contains_iff _ _).mpr ⟨node, hnode⟩
    have hstays := held_stays hnode hrefs hcalls
    have hafter := h.calls calls hadmits
    refine ⟨hstays, ?_, fun trouble hfails => ?_⟩
    · rw [State.forget_grid, hafter.grid_eq, h.grid_eq]
      exact (Later.now.calls calls hadmits).gridOf_eq h hlive hstays
    · exact State.faultless_grid hafter.looped hafter.formed hstays hfails

-- A loop that runs one round on two cells. Its tail is held, while the lowering still goes on.
def lowering : State :=
  (State.empty 5 none).afterCalls
    [.construct (.constant (.bool true) { Layout.single .b8 with size := .ofExtents [2] }),
      .acquire 1, .loopStart, .loopCondition 1, .loopReplay .first, .construct (.unary 1 .not),
      .acquire 2, .loopCondition 2, .loopReplay .second, .construct (.unary 2 .not), .acquire 3,
      .loopAssemble, .acquire 4, .acquire 5]

-- The tail is all that is held in the end. The loop and its body are there as long as it is, and
-- the tail has what the round made of the cells.
theorem lowering_faultless :
    ∃ (after : State) (negated : Grid), Reachable lowering ∧
      (after.nodes.get? 1).map (·.refs) = some 0 ∧ (after.nodes.get? 4).map (·.refs) = some 0 ∧
      after.nodes.contains 3 = false ∧ after.recorder.phase = .idle ∧
      after.nodes.contains 5 = true ∧ forget (after.watchedGrid 5) = .ok negated ∧
      negated.same ⟨.b8, [2], #[0, 0]⟩ = true ∧
        ∀ trouble, after.watchedGrid 5 = .error trouble → trouble.fault = false := by
  have hreachable : Reachable lowering := (Reachable.empty 5 none).calls _ (by decide +kernel)
  obtain ⟨hlive, hsame, hfaultless⟩ := (evaluation_faultless hreachable).2.2.2 5 _
    [.release 4, .release 1, .loopEnd, .release 3, .release 2] rfl (by decide +kernel)
    (by decide +kernel)
    (by
      intro call hcall
      simp only [List.mem_cons, List.not_mem_nil, or_false] at hcall
      obtain rfl | rfl | rfl | rfl | rfl := hcall
      · exact .release (by decide)
      · exact .release (by decide)
      · exact .finish
      · exact .release (by decide)
      · exact .release (by decide))
  have hround : ((lowering.grid 5).toOption.any (·.same ⟨.b8, [2], #[0, 0]⟩)) = true := by
    decide +kernel
  obtain ⟨negated, hgrid, hzeros⟩ := (Option.any_eq_true _ _).mp hround
  exact ⟨_, negated, hreachable, by decide +kernel, by decide +kernel, by decide +kernel,
    by decide +kernel, hlive, hsame.trans (toOption_eq_some.mp hgrid), hzeros, hfaultless⟩

end MapAlgebra.Graph
