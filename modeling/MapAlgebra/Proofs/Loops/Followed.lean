import MapAlgebra.Proofs.Loops.Matched

namespace MapAlgebra.Loop

open MapAlgebra.Graph

-- What a round that can be computed reads can be computed.
theorem Code.Evaluates.read {code : Code} {start : Scope State Vars} {outer : Tally}
    {rounds index : Nat} {step : Step Ref} (h : code.Evaluates start rounds)
    (hgrounded : Grounded outer code.round.steps)
    (hstep : code.round.steps[index]? = some step) {ref : Ref} (href : ref ∈ step.inputs) :
    ∃ cells, (code.refAfter start rounds ref).grid = .ok cells := by
  obtain ⟨cells, hcells⟩ := h _ (Code.mem_valuesAfter hstep)
  obtain ⟨draft, _, hvalue⟩ := h.drafted hgrounded hstep
  rw [hvalue] at hcells
  obtain ⟨inputs, hinputs, _⟩ := bind_eq_ok.mp hcells
  obtain ⟨grid, _, hgrid⟩ := related_of_mem (mapM_eq_ok.mp hinputs) href
  exact ⟨grid, hgrid⟩

namespace Lowered

variable {code : Code} {outer : Tally} {start after : Scope State Vars}

theorem onward_made (h : Lowered code outer start after) : Onward h.made after.engine :=
  h.later.onward

theorem onward_before (h : Lowered code outer start after) : Onward h.before after.engine :=
  h.changes.onward.trans h.onward_made

theorem onward_now (h : Lowered code outer start after) : Onward h.now.engine after.engine :=
  ((h.replayed.between.trans h.replayed.second.builds).trans h.replayed.builds).changes.onward.trans
    h.onward_before

theorem onward_begun (h : Lowered code outer start after) : Onward h.begun.engine after.engine :=
  h.replayed.first.builds.changes.onward.trans h.onward_now

-- A tail that is there still belongs to the loop.
theorem loop_of_tail (h : Lowered code outer start after) {tail : Address} {node : Node}
    (htail : h.made.nodes.get? tail = some node) (hinputs : node.inputs = [h.loop])
    (hthere : after.engine.nodes.contains tail = true) :
    ∃ loop new, after.engine.nodes.get? h.loop = some loop ∧ loop.kind = .loop h.plan ∧
      after.engine.nodes.get? tail = some new ∧ node.Keeps new := by
  have hlooped := h.reached.ready.looped.changes h.changes
  have hfounded := h.ready.looped.consistent.founded
  have hold : ∀ {id info}, h.made.nodes.get? id = some info →
      ∀ {new}, after.engine.nodes.get? id = some new → info.Keeps new := by
    intro id info hinfo new hnew
    obtain ⟨old, hfound, hkeeps⟩ := h.onward_made.node hnew
      (hlooped.consistent.counted.numbered.range hinfo).2
    rw [hinfo] at hfound
    cases hfound
    exact hkeeps
  obtain ⟨new, hnew⟩ := (Table.contains_iff _ _).mp hthere
  have hkeeps := hold htail hnew
  have hread : h.loop ∈ new.inputs := by
    rw [hkeeps.inputs, hinputs]
    exact List.mem_singleton_self _
  obtain ⟨loop, hloop⟩ := (Table.contains_iff _ _).mp (hfounded.input_live hnew _ hread).1
  obtain ⟨placed, hplaced, hkind⟩ := h.placed.node
  exact ⟨loop, new, hloop, (hold hplaced hloop).kind.trans hkind, hnew, hkeeps⟩

-- What was there before the loop has its grid after it.
theorem grid_old (h : Lowered code outer start after) {id : Address}
    (hthere : after.engine.nodes.contains id = true) (hold : id < h.begun.engine.nextId) :
    after.engine.grid id = (h.begun.engine.valueOf id).grid := by
  rw [← State.gridOf_eq_grid h.ready.looped]
  exact h.opened.ready.looped.consistent.gridOf_eq h.ready.looped.consistent h.onward_begun hthere
    hold

-- What is read from before the first round is worth what its node is.
theorem refAfter_old (h : Lowered code outer start after) {ref : Ref} {count : Nat}
    (hknown : ref.Scoped outer count) (hold : ∀ step, ref ≠ .step step) :
    code.refAfter start 0 ref = h.begun.engine.valueOf (ref.address h.begun) := by
  cases ref with
  | start name => exact (h.opened.worth name).symm
  | step step => exact absurd rfl (hold step)
  | outside raster => exact (h.opened.around raster hknown).symm
  | absent => exact valueOf_null _ |>.symm

-- The nodes of the loop and those around it are there as long as it is.
theorem input_there (h : Lowered code outer start after) {node : Node}
    (hloop : after.engine.nodes.get? h.loop = some node) (hkind : node.kind = .loop h.plan)
    {id : Nat} (hid : id ∈ h.plan.body ++ h.plan.externals) :
    after.engine.nodes.contains id = true := by
  have hfounded := h.ready.looped.consistent.founded
  rw [← hfounded.loop_inputs hloop hkind] at hid
  exact (hfounded.input_live hloop id hid).1

-- What a carried value is worth after so many rounds.
def carriedAfter (_ : Lowered code outer start after) : Nat → CarriedValue → Except MapError Grid
  | 0, value => after.engine.grid value.init
  | rounds + 1, value => (code.refAfter start rounds (.step value.feed)).grid

section Rounds

variable (h : Lowered code outer start after) {node : Node}
  (hloop : after.engine.nodes.get? h.loop = some node) (hkind : node.kind = .loop h.plan)
  {rounds : Nat}

include hloop hkind

-- Initial values are what they were when the loop was begun.
theorem grid_init {value : CarriedValue} (hvalue : value ∈ h.plan.carried) :
    after.engine.grid value.init = (h.begun.engine.valueOf value.init).grid := by
  refine h.grid_old (h.input_there hloop hkind (List.mem_append_right _
    ((h.plan.mem_externals _).mpr (Or.inl ⟨value, hvalue, rfl⟩)))) ?_
  obtain rfl | ⟨name, _, _, hinit⟩ := h.carried_cases hvalue
  · exact h.older
  · rw [hinit]
    exact h.opened.ready.nodeOf_lt name

-- The first carried value is the condition.
theorem carriedAfter_guard : h.carriedAfter rounds ⟨h.initial, h.feed⟩ =
    (code.guardAfter start rounds).grid := by
  have hmember : (⟨h.initial, h.feed⟩ : CarriedValue) ∈ h.plan.carried :=
    List.mem_of_getElem? h.guard_carried
  cases rounds with
  | zero =>
      rw [← h.asked]
      exact h.grid_init hloop hkind hmember
  | succ rounds =>
      show _ = (code.refAfter start rounds code.guardRef).grid
      rw [h.guard]
      rfl

-- All others are variables.
theorem carriedAfter_start {value : CarriedValue} (hvalue : value ∈ h.plan.carried) {name : String}
    (hinit : value.init = h.begun.vars.nodeOf name) (hends : code.ends name = .step value.feed) :
    h.carriedAfter rounds value = (code.worthAfter start rounds name).grid := by
  cases rounds with
  | zero =>
      show after.engine.grid value.init = (worth start name).grid
      rw [h.grid_init hloop hkind hvalue, hinit]
      exact congrArg Value.grid (h.opened.worth name)
  | succ rounds =>
      rw [Code.worthAfter_succ, hends]
      rfl

omit hloop hkind in
-- A variable that is looked at and is left with the node that it started with is what it was.
theorem worthAfter_same {last : Nat} (heven : code.Even start last) (hle : rounds ≤ last)
    {name : String} (hreads : code.Reads name) (hends : ∀ step, code.ends name ≠ .step step)
    (hsame : (code.ends name).address h.begun = h.begun.vars.nodeOf name) :
    code.worthAfter start rounds name = h.begun.engine.valueOf (h.begun.vars.nodeOf name) := by
  have hold := h.refAfter_old (h.inner name) hends
  rw [hsame] at hold
  cases rounds with
  | zero => exact (h.opened.worth name).symm
  | succ rounds =>
      cases hleft : code.ends name with
      | start other =>
          rw [heven.settled name other hreads hleft _ hle]
          exact (h.opened.worth name).symm
      | step step => exact absurd hleft (hends step)
      | _ =>
          rw [Code.worthAfter_succ, ← hold, hleft]
          rfl

-- What a slot reads in a round is what the code reads there.
theorem slotValue_eq {last : Nat} (heven : code.Even start last) (hle : rounds ≤ last)
    {carried steps : List Grid} {step : Nat} {slot : Slot} {ref : Ref}
    (hcarried : h.plan.carried.mapM (h.carriedAfter rounds) = .ok carried)
    (hsteps : ∀ index < step, ∃ grid, steps[index]? = some grid ∧
      (code.refAfter start rounds (.step index)).grid = .ok grid)
    (hslot : ∀ id, slot = .outer id → id ∈ h.plan.externals)
    (hknown : ref.Scoped outer step) (hreads : ∀ name, ref = .start name → code.Reads name)
    (hstands : h.Stands slot ref) :
    after.engine.slotValue carried steps slot = (code.refAfter start rounds ref).grid := by
  have hthere : ∀ {id}, slot = .outer id → after.engine.nodes.contains id = true := fun hid =>
    h.input_there hloop hkind (List.mem_append_right _ (hslot _ hid))
  cases hstands with
  | step index =>
      obtain ⟨grid, hgrid, hvalue⟩ := hsteps index hknown
      rw [hvalue]
      exact State.entry_eq_ok.mpr hgrid
  | @carried index feed name hvalue hends =>
      obtain ⟨grid, hgrid, heq⟩ := exists_related (mapM_eq_ok.mp hcarried) hvalue
      rw [h.carriedAfter_start hloop hkind (List.mem_of_getElem? hvalue) rfl hends] at heq
      show entry carried index = (code.worthAfter start rounds name).grid
      rw [heq]
      exact State.entry_eq_ok.mpr hgrid
  | @kept name hends hsame =>
      show after.engine.grid (h.begun.vars.nodeOf name) = (code.worthAfter start rounds name).grid
      rw [h.grid_old (hthere rfl) (h.opened.ready.nodeOf_lt name)]
      exact congrArg Value.grid (h.worthAfter_same heven hle (hreads name rfl) hends hsame).symm
  | @outside raster hheld =>
      show after.engine.grid raster.address = (around start raster).grid
      have hold := h.opened.ready.address_lt hknown nofun
      rw [h.grid_old (hthere rfl) hold]
      exact congrArg Value.grid (h.opened.around raster hheld)

omit hloop hkind in
-- The step that the first replay drafted, in terms of where the first round began.
theorem step_drafted {index : Nat} {step : Step Ref}
    (hstep : code.round.steps[index]? = some step) :
    ∃ draft, step.draft (fun ref => (code.refAfter start 0 ref).info) start.engine.store =
        .ok draft ∧
      ∀ {new}, after.engine.nodes.get? (h.begun.engine.nextId + index) = some new →
        ∀ inputs, new.kind.apply new.info inputs = draft.kind.apply draft.info inputs := by
  have hindex := (List.getElem?_eq_some_iff.mp hstep).1
  have hmade := h.replayed.first.made hstep
  obtain ⟨draft, hdraft, hnode⟩ := hmade.drafted
  refine ⟨draft, ?_, fun {new} hnew inputs => ?_⟩
  · rw [← hdraft, h.opened.store]
    refine Step.draft_congr fun ref href => congrArg Value.info ?_
    exact (h.opened.value_eq h.replayed.first ((hmade.known ref href).mono (Nat.le_of_lt hindex))).symm
  · have hnext : h.now.engine.nextId = h.begun.engine.nextId + code.round.steps.length :=
      h.replayed.first.next
    obtain ⟨old, hold, hkeeps⟩ := h.onward_now.node hnew (by omega)
    obtain ⟨hsame, hinfo, -⟩ := hnode old hold
    rw [hkeeps.apply_eq, hsame, hinfo]

-- In every round, the recurrence of the plan computes what the code computes.
theorem stepValues_eq {last : Nat} (heven : code.Even start last) (hle : rounds ≤ last)
    {carried steps : List Grid} (hcarried : h.plan.carried.mapM (h.carriedAfter rounds) = .ok carried)
    (hsteps : (code.valuesAfter start rounds).mapM Value.grid = .ok steps) :
    after.engine.stepValues h.plan carried = .ok steps := by
  have hgrounded := h.grounded
  have hcount : steps.length = code.round.steps.length :=
    (mapM_eq_ok.mp hsteps).length_eq.symm.trans (length_stepValues _ _ _ _)
  have hbody : h.plan.body.length = code.round.steps.length := by
    rw [h.body_eq, List.length_range']
  refine State.stepValues_eq_ok (h.ready.looped.fits hloop hkind).lengths (hcount.trans hbody.symm)
    fun {index id slots} hid hslots => ?_
  obtain ⟨new, hnew⟩ := (Table.contains_iff _ _).mp
    (h.input_there hloop hkind (List.mem_append_left _ (List.mem_of_getElem? hid)))
  obtain ⟨hindex, rfl⟩ := h.body_step.mp hid
  have hstep := List.getElem?_eq_getElem hindex
  obtain ⟨draft, hdraft, happly⟩ := h.step_drafted hstep
  obtain ⟨found, hfound, hstands⟩ := h.slots_stand hstep
  obtain rfl := Option.some.inj (hslots.symm.trans hfound)
  obtain ⟨grid, hget, hvalue⟩ := Code.grid_of_steps hsteps hindex
  have hcomputed := hvalue
  rw [heven.grid_of_step hgrounded hle hstep hdraft] at hcomputed
  obtain ⟨inputs, hinputs, hgiven⟩ := bind_eq_ok.mp hcomputed
  refine ⟨new, inputs, grid, State.find_eq h.ready.looped.consistent.counted.numbered hnew, ?_,
    (happly hnew inputs).trans hgiven, hget⟩
  rw [← hinputs]
  refine mapM_eq_of_related (List.forall₂_iff_zip.mpr ⟨hstands.length_eq, fun {slot ref} hpair => ?_⟩)
  obtain ⟨hmember, -⟩ :=
    Step.inputs_present (hgrounded.required hstep) (List.of_mem_zip hpair).2
  refine h.slotValue_eq hloop hkind heven hle hcarried (fun other hother => ?_) (fun id hslot => ?_)
    (hgrounded.known hstep ref hmember) (fun name hname => ?_) (List.forall₂_zip hstands hpair)
  · obtain ⟨grid, hget, hvalue⟩ := Code.grid_of_steps hsteps (hother.trans hindex)
    exact ⟨grid, by rw [List.getElem?_take_of_lt hother, hget], hvalue⟩
  · exact (h.plan.mem_externals id).mpr
      (Or.inr ⟨slots, List.mem_of_getElem? hslots, hslot ▸ (List.of_mem_zip hpair).1⟩)
  · exact Or.inr ⟨_, List.mem_of_getElem? hstep, hname ▸ hmember⟩

-- The carried values can be computed after every round that is run, and before the first one.
theorem carried_total {goes : Bool} (hgoes : code.goesAfter start 0 = .ok goes) {last : Nat}
    (heven : code.Even start last) (hle : rounds ≤ last + 1) :
    ∃ carried, h.plan.carried.mapM (h.carriedAfter rounds) = .ok carried := by
  refine mapM_total fun value hvalue => ?_
  cases rounds with
  | zero =>
      obtain ⟨cells, hcells, -⟩ := map_eq_ok.mp hgoes
      obtain rfl | ⟨name, hreads, hends, hinit⟩ := h.carried_cases hvalue
      · exact ⟨cells, (h.carriedAfter_guard hloop hkind).trans hcells⟩
      · rw [h.carriedAfter_start hloop hkind hvalue hinit hends]
        obtain hguard | ⟨step, hstep, href⟩ := hreads.cases
        · refine ⟨cells, ?_⟩
          rw [Code.guardAfter, Code.guardIn, code.asking_vars, hguard] at hcells
          exact hcells
        · obtain ⟨index, hindex⟩ := List.getElem?_of_mem hstep
          exact (heven.evaluates 0 (Nat.zero_le _)).read h.grounded hindex href
  | succ rounds =>
      have hfeed := h.rebuilds.feeds value hvalue
      rw [h.body_eq, List.length_range'] at hfeed
      exact heven.evaluates rounds (Nat.le_of_succ_le_succ hle) _
        (Code.mem_valuesAfter (List.getElem?_eq_getElem hfeed))

-- A round of the recurrence is a round of the code.
theorem nextValues_eq {last : Nat} (heven : code.Even start last) (hle : rounds ≤ last)
    {carried next : List Grid} (hcarried : h.plan.carried.mapM (h.carriedAfter rounds) = .ok carried)
    (hnext : h.plan.carried.mapM (h.carriedAfter (rounds + 1)) = .ok next) :
    after.engine.nextValues h.plan carried = .ok next := by
  obtain ⟨steps, hsteps⟩ := mapM_total (heven.evaluates rounds hle)
  refine bind_eq_ok.mpr ⟨steps, h.stepValues_eq hloop hkind heven hle hcarried hsteps,
    mapM_eq_ok.mpr (related_imp (mapM_eq_ok.mp hnext) fun value hvalue grid hgrid => ?_)⟩
  have hfeed := h.rebuilds.feeds value hvalue
  rw [h.body_eq, List.length_range'] at hfeed
  obtain ⟨found, hget, hfound⟩ := Code.grid_of_steps hsteps hfeed
  obtain rfl : grid = found := Except.ok.inj (hgrid.symm.trans hfound)
  exact State.entry_eq_ok.mpr hget

-- The recurrence goes on as long as the code does.
theorem goesOn_eq {carried : List Grid}
    (hcarried : h.plan.carried.mapM (h.carriedAfter rounds) = .ok carried) {goes : Bool}
    (hgoes : code.goesAfter start rounds = .ok goes) : goesOn carried = goes := by
  obtain ⟨cells, hcells, rfl⟩ := map_eq_ok.mp hgoes
  obtain ⟨guard, hguard, hvalue⟩ := exists_related (mapM_eq_ok.mp hcarried) h.guard_carried
  rw [h.carriedAfter_guard hloop hkind, hcells] at hvalue
  rw [goesOn, List.head?_eq_getElem?, hguard, Except.ok.inj hvalue]
  rfl

-- A tail has what its carried value is worth after the last round.
theorem grid_tail {n : Nat} (heven : code.Even start (n - 1))
    (hgoes : ∀ round < n, code.goesAfter start round = .ok true)
    (hends : code.goesAfter start n = .ok false) (hlimit : n ≤ start.engine.limit)
    {tail : Address} {new : Node} {index step : Nat} (htail : (index, step) ∈ h.plan.tails)
    (hnew : after.engine.nodes.get? tail = some new) (hindex : new.kind = .loopTail index)
    (hinputs : new.inputs = [h.loop]) :
    ∃ value ∈ h.plan.carried, value.feed = step ∧
      after.engine.grid tail = h.carriedAfter n value := by
  let values := fun rounds => (h.plan.carried.mapM (h.carriedAfter rounds)).toOption.getD []
  have hfirst : ∃ goes, code.goesAfter start 0 = .ok goes := by
    cases n with
    | zero => exact ⟨false, hends⟩
    | succ n => exact ⟨true, hgoes 0 (Nat.succ_pos n)⟩
  have hvalues : ∀ rounds ≤ n - 1 + 1,
      h.plan.carried.mapM (h.carriedAfter rounds) = .ok (values rounds) := by
    intro rounds hle
    obtain ⟨goes, hgoes⟩ := hfirst
    obtain ⟨carried, hcarried⟩ := h.carried_total hloop hkind hgoes heven hle
    simp only [values, hcarried, Except.toOption, Option.getD_some]
  have hgrown : after.engine.limit = start.engine.limit :=
    (h.built.changes.onward.trans h.onward_begun).limit
  have hnext : ∀ round ≤ n - 1,
      after.engine.nextValues h.plan (values round) = .ok (values (round + 1)) := fun round hround =>
    h.nextValues_eq hloop hkind heven hround (hvalues round (by omega)) (hvalues _ (by omega))
  have hmore : ∀ round < n, goesOn (values round) = true := fun round hround =>
    h.goesOn_eq hloop hkind (hvalues round (by omega)) (hgoes round hround)
  have hover : goesOn (values n) = false := h.goesOn_eq hloop hkind (hvalues n (by omega)) hends
  have hfits := h.ready.looped.fits hloop hkind
  have haround :=
    State.externals_evaluate hfits (hvalues 0 (Nat.zero_le _)) (hnext 0 (Nat.zero_le _))
  obtain ⟨hfinal, -⟩ := State.finalValues_eq_last h.ready.looped hfits h.loop
    (hvalues 0 (Nat.zero_le _)) haround (hgrown.symm ▸ hlimit)
    (fun round hround => hnext round (by omega)) hmore hover
  have hgrid := (State.grids_of_finalValues h.ready.looped hloop hkind hfinal).2 tail new index hnew
    hindex hinputs
  obtain ⟨value, hvalue, hfeed, -⟩ := (h.plan.mem_tails _ _).mp htail
  obtain ⟨grid, hget, hworth⟩ := exists_related (mapM_eq_ok.mp (hvalues n (by omega))) hvalue
  refine ⟨value, List.mem_of_getElem? hvalue, hfeed, ?_⟩
  rw [hgrid, hworth]
  exact State.entry_eq_ok.mpr hget

end Rounds

end Lowered

-- What a variable evaluates to.
def Scope.grid (scope : Scope State Vars) (name : String) : Except MapError Grid :=
  scope.engine.grid (scope.vars.nodeOf name)

-- Code whose rounds are those of a recurrence. A variable that is looked at and takes over another one
-- that starts with the same node is as it was at first in every round; what is looked at is noted in
-- the second round as in the first; and everything in a round can be computed, in the first one also
-- when no round is run.
structure Code.Recurs (code : Code) (start : Scope State Vars) (n : Nat) : Prop where
  apart : ∀ name other, code.Reads name → code.ends name = .start other →
    start.vars.nodeOf other = start.vars.nodeOf name →
    ∀ round ≤ n - 1, code.worthAfter start round name = worth start name
  steady : 1 < n → code.Steady start
  evaluates : ∀ round ≤ n - 1, code.Evaluates start round

section Following

variable {code : Code} {outer : Tally} {start after last : Scope State Vars} {name : String}

theorem Ready.grid_eq {scope : Scope State Vars} (h : Ready outer scope) :
    scope.grid name = (worth scope name).grid :=
  (congrFun (State.gridOf_eq_grid h.looped) _).symm

namespace Lowered

-- Variables with different nodes do not take over one another, or the loop is not accepted.
theorem even (h : Lowered code outer start after) {n : Nat} (hrecurs : code.Recurs start n) :
    code.Even start (n - 1) := by
  refine ⟨fun name other hreads hends => hrecurs.apart name other hreads hends ?_,
    fun hmore => hrecurs.steady (by omega), hrecurs.evaluates⟩
  have hsame : h.begun.vars.nodeOf other = h.begun.vars.nodeOf name := by
    obtain hfeed | ⟨slot, hslot⟩ := h.stands_of_reads hreads
    · cases hends.symm.trans hfeed
    · cases hslot with
      | carried _ hfeed => cases hends.symm.trans hfeed
      | kept _ hsame =>
          rw [hends] at hsame
          exact hsame
  rwa [Vars.nodeOf, Vars.nodeOf, h.slots] at hsame

-- What every round leaves alone is left alone.
theorem find_untouched (h : Lowered code outer start after) (hends : code.ends name = .start name) :
    after.vars.slots.find? name = start.vars.slots.find? name := by
  obtain ⟨hfirst, hsecond, -⟩ := h.replayed.ends_eq name
  rw [hends] at hfirst hsecond
  have hkept : after.vars.slots.find? name = h.ended.vars.slots.find? name := by
    refine h.after_kept fun step hstep => ?_
    rw [hends] at hstep
    cases hstep
  rw [hkept, hsecond, hfirst, h.slots]

-- What the loop does not hand on is what the second replay made it.
theorem grid_left (h : Lowered code outer start after) (hleft : ¬ code.Carries name) :
    after.grid name = (code.worthAfter start 2 name).grid := by
  have hkept : after.vars.slots.find? name = h.ended.vars.slots.find? name :=
    h.after_kept fun step hends index htail => hleft ((h.carries_iff hends).mpr ⟨index, htail⟩)
  have hnode : after.vars.nodeOf name = h.ended.vars.nodeOf name := by
    rw [Vars.nodeOf, Vars.nodeOf, hkept]
  rw [h.ready.grid_eq, ← h.reached.worth name]
  show (after.engine.valueOf (after.vars.nodeOf name)).grid =
    (h.before.valueOf (h.ended.vars.nodeOf name)).grid
  obtain hnull | hthere := h.ready.live_start name
  · rw [← hnode, hnull]
    rfl
  · rw [hnode] at hthere ⊢
    refine h.reached.ready.looped.consistent.gridOf_eq h.ready.looped.consistent h.onward_before
      hthere ?_
    exact h.reached.ready.nodeOf_lt name

-- What the loop hands on is what the last round makes it. When no round is run it is what one of
-- the variables was that end a round with the same step.
theorem grid_carried (h : Lowered code outer start after) (hcarries : code.Carries name) {n : Nat}
    (hrecurs : code.Recurs start n) (hgoes : ∀ round < n, code.goesAfter start round = .ok true)
    (hends : code.goesAfter start n = .ok false) (hlimit : n ≤ start.engine.limit) :
    (0 < n → after.grid name = (code.worthAfter start n name).grid) ∧
      (n = 0 → ∃ other, code.Reads other ∧ code.ends other = code.ends name ∧
        after.grid name = (worth start other).grid) := by
  obtain ⟨step, hstep⟩ : ∃ step, code.ends name = .step step := by
    obtain ⟨step, _, hstep, -⟩ := hcarries
    exact ⟨step, hstep⟩
  obtain ⟨_, htail⟩ := (h.carries_iff hstep).mp hcarries
  obtain ⟨index, tail, htail, hget, hindex, hinputs⟩ := h.after_moved hstep htail
  have hthere : after.engine.nodes.contains (after.vars.nodeOf name) = true := by
    refine (h.ready.live_start name).resolve_left fun hnull => ?_
    have hlooped := h.reached.ready.looped.changes h.changes
    have hrange := (hlooped.consistent.counted.numbered.range hget).1
    rw [hnull] at hrange
    exact absurd hrange (Nat.lt_irrefl _)
  obtain ⟨node, new, hloop, hkind, hnew, hkeeps⟩ := h.loop_of_tail hget hinputs hthere
  obtain ⟨value, hvalue, rfl, hgrid⟩ := h.grid_tail hloop hkind (h.even hrecurs)
    hgoes hends hlimit htail hnew (hkeeps.kind.trans hindex)
    (hkeeps.inputs.trans hinputs)
  refine ⟨fun hrounds => ?_, fun hnone => ?_⟩
  · obtain ⟨rounds, rfl⟩ := Nat.exists_eq_succ_of_ne_zero hrounds.ne'
    rw [Scope.grid, hgrid, Code.worthAfter_succ, hstep]
    rfl
  · subst hnone
    have hinner := h.inner name
    rw [hstep] at hinner
    obtain ⟨other, hreads, hother, hworth⟩ := h.carried_source hvalue hinner
    refine ⟨other, hreads, hother.trans hstep.symm, ?_⟩
    rw [Scope.grid, hgrid, ← hworth]
    exact h.grid_init hloop hkind hvalue

end Lowered

-- A lowered loop leaves in a variable what running the loop by hand leaves in it, when a later round
-- looks at what becomes of the variable, or when no round changes it: then it still has its node.
-- When no round is run, a variable of the first kind has the value of one that ends a round as it
-- does. All other variables have what they are after two rounds, however many there are.
theorem loop_follows_rounds {loop : Raster} {n : Nat} (hready : Ready outer start)
    (hholds : Holds outer code.sources)
    (hrun : whileLoop simulator (code.ask simulator) (code.runBody simulator) start =
      (.ok (some loop), after)) (hhand : ByHand code start n last) (hlimit : n ≤ start.engine.limit)
    (hrecurs : code.Recurs start n) (name : String) :
    last.grid name = (code.worthAfter start n name).grid ∧
      (code.ends name = .start name →
        after.vars.slots.find? name = start.vars.slots.find? name ∧
          after.grid name = last.grid name) ∧
      (code.Carries name →
        (0 < n → after.grid name = last.grid name) ∧
        (n = 0 → ∃ other, code.Reads other ∧ code.ends other = code.ends name ∧
          after.grid name = start.grid other)) ∧
      (¬ code.Carries name → after.grid name = (code.worthAfter start 2 name).grid) := by
  obtain ⟨h⟩ := whileLoop_lowered hready hholds hrun
  obtain ⟨hstage, hgoes, hends⟩ := hhand.rounds_eq hready hholds
  have hlast : last.grid name = (code.worthAfter start n name).grid := by
    rw [hstage.ready.grid_eq, hstage.worth]
  refine ⟨hlast, fun hkept => ⟨h.find_untouched hkept, ?_⟩, fun hcarries => ?_, h.grid_left⟩
  · have hleft : ¬ code.Carries name := by
      rintro ⟨step, _, hstep, -⟩
      rw [hkept] at hstep
      cases hstep
    rw [h.grid_left hleft, hlast, Code.worthAfter_kept hkept, Code.worthAfter_kept hkept]
  · obtain ⟨hrounds, hnone⟩ := h.grid_carried hcarries hrecurs hgoes hends hlimit
    refine ⟨fun hpositive => (hrounds hpositive).trans hlast.symm, fun hzero => ?_⟩
    obtain ⟨other, hreads, hother, hgrid⟩ := hnone hzero
    exact ⟨other, hreads, hother, hgrid.trans hready.grid_eq.symm⟩

end Following

-- Runs a loop, and by hand as well, and compares what they leave. The loop has to be accepted and to
-- take so many rounds.
def Code.compared (code : Code) (start : Scope State Vars) (n : Nat)
    (test : Scope State Vars → Scope State Vars → Bool) : Bool :=
  match whileLoop simulator (code.ask simulator) (code.runBody simulator) start,
      code.byHand (n + 1) start with
  | (.ok (some _), after), some (rounds, last) => rounds == n && test after last
  | _, _ => false

theorem Code.compared_eq_true {code : Code} {start : Scope State Vars} {n : Nat}
    {test : Scope State Vars → Scope State Vars → Bool} (h : code.compared start n test = true) :
    ∃ loop after last, whileLoop simulator (code.ask simulator) (code.runBody simulator) start =
      (.ok (some loop), after) ∧ ByHand code start n last ∧ test after last = true := by
  rw [Code.compared] at h
  split at h
  · rename_i loop after rounds last hrun hhand
    rw [Bool.and_eq_true, beq_iff_eq] at h
    obtain ⟨rfl, htest⟩ := h
    exact ⟨loop, after, last, hrun, (Code.byHand_eq_some.mp hhand).2, htest⟩
  · cases h

-- Rounds that change one variable, keep what is noted about it and can be computed.
theorem recurs_of_computed {code : Code} {n : Nat}
    (hkept : ∀ name, name ≠ "x" → code.ends name = .start name)
    (hchanged : ∃ index, code.ends "x" = .step index)
    (hsteady : (code.worthAfter zeroed 1 "x").note? = (worth zeroed "x").note?)
    (hcomputed : (List.range (n + 1)).all (fun round =>
      (code.valuesAfter zeroed round).all fun value => value.grid.toOption.isSome) = true) :
    code.Recurs zeroed (n + 1) where
  apart name other _ hends _ round _ := by
    by_cases hname : name = "x"
    · obtain ⟨index, hindex⟩ := hchanged
      cases hindex.symm.trans (hname ▸ hends)
    · exact Code.worthAfter_kept (hkept name hname) round
  steady _ name _ := by
    by_cases hname : name = "x"
    · exact hname ▸ hsteady
    · rw [Code.worthAfter_kept (hkept name hname)]
  evaluates round hround := by
    intro value hvalue
    have hround := List.all_eq_true.mp hcomputed round (List.mem_range.mpr (by omega))
    obtain ⟨cells, hcells⟩ := Option.isSome_iff_exists.mp (List.all_eq_true.mp hround value hvalue)
    exact ⟨cells, toOption_eq_some.mp hcells⟩

theorem counting_recurs : (counting (.s32 1)).Recurs zeroed 3 :=
  recurs_of_computed (fun _ hname => if_neg hname) ⟨1, rfl⟩ (by decide +kernel) (by decide +kernel)

theorem masking_recurs : (masking (.s32 1)).Recurs zeroed 3 :=
  recurs_of_computed (fun _ hname => if_neg hname) ⟨4, rfl⟩ (by decide +kernel) (by decide +kernel)

-- Counting to three gives what three rounds by hand give, with a mask and without one.
theorem counting_follows_rounds :
    (let code := counting (.s32 1)
    Ready 0 zeroed ∧ Holds 0 code.sources ∧ code.Recurs zeroed 3 ∧ code.Carries "x" ∧
      3 ≤ zeroed.engine.limit ∧ ∃ loop after last,
        whileLoop simulator (code.ask simulator) (code.runBody simulator) zeroed =
          (.ok (some loop), after) ∧ ByHand code zeroed 3 last ∧ after.grid "x" = last.grid "x") ∧
    let code := masking (.s32 1)
    Ready 0 zeroed ∧ Holds 0 code.sources ∧ code.Recurs zeroed 3 ∧ code.Carries "x" ∧
      3 ≤ zeroed.engine.limit ∧ ∃ loop after last,
        whileLoop simulator (code.ask simulator) (code.runBody simulator) zeroed =
          (.ok (some loop), after) ∧ ByHand code zeroed 3 last ∧ after.grid "x" = last.grid "x" := by
  have hcarries : (counting (.s32 1)).Carries "x" :=
    ⟨1, "x", rfl, Or.inr ⟨.node (.binary (.start "x") (.step 0) .add), .tail _ (.head _), .head _⟩, rfl⟩
  have hmasked : (masking (.s32 1)).Carries "x" :=
    ⟨4, "x", rfl, Or.inr ⟨.zero (.start "x"), .tail _ (.head _), .head _⟩, rfl⟩
  have hcompared : (counting (.s32 1)).compared zeroed 3 (fun _ _ => true) = true := by
    decide +kernel
  have hrecompared : (masking (.s32 1)).compared zeroed 3 (fun _ _ => true) = true := by
    decide +kernel
  refine ⟨?_, ?_⟩
  · obtain ⟨loop, after, last, hrun, hhand, -⟩ := Code.compared_eq_true hcompared
    refine ⟨zeroed_ready, counting_holds _, counting_recurs, hcarries, by decide, loop, after, last,
      hrun, hhand, ?_⟩
    exact ((loop_follows_rounds zeroed_ready (counting_holds _) hrun hhand (by decide)
      counting_recurs "x").2.2.1 hcarries).1 (by decide)
  · obtain ⟨loop, after, last, hrun, hhand, -⟩ := Code.compared_eq_true hrecompared
    refine ⟨zeroed_ready, masking_holds _, masking_recurs, hmasked, by decide, loop, after, last,
      hrun, hhand, ?_⟩
    exact ((loop_follows_rounds zeroed_ready (masking_holds _) hrun hhand (by decide)
      masking_recurs "x").2.2.1 hmasked).1 (by decide)

-- Counting to three, with twice the count in a variable that no round looks at.
def doubling : Code where
  condition := [.constant (.s32 3) (.single .s32), .binary (.named "x") (.result 0) .lt]
  guard := .result 1
  body := [.call (.constant (.s32 1) (.single .s32)),
    .call (.binary (.named "x") (.result 0) .add), .assign "x" (.result 1),
    .call (.constant (.s32 2) (.single .s32)),
    .call (.binary (.named "x") (.result 2) .mul), .assign "y" (.result 3)]

-- Two variables that are zero.
def zeroedTwice : Scope State Vars where
  engine := (State.empty 5 none).afterCalls
    [.construct (.constant (.s32 0) (.single .s32)), .construct (.constant (.s32 0) (.single .s32)),
      .acquire 1, .acquire 2]
  lowering := false
  vars := ⟨zeroed.vars.slots.append "y" (.node (.on 2 (Nat.succ_ne_zero _))), []⟩

theorem zeroedTwice_ready : Ready 0 zeroedTwice where
  looped := ((Reachable.empty 5 none).calls
    [.construct (.constant (.s32 0) (.single .s32)), .construct (.constant (.s32 0) (.single .s32)),
      .acquire 1, .acquire 2] (by decide)).looped
  nonneg := le_refl 0
  backs := by
    have hnone : ∀ state, Backs state 0 := fun _ _ => Int.natCast_nonneg _
    have hheld : zeroedTwice.vars.held + 0 = 0 + Tally.one 1 + Tally.one 2 := by
      show Tally.one 1 + (Tally.one 2 + 0) + 0 = _
      abel
    rw [hheld]
    let made := (State.empty 5 none).afterCalls
      [.construct (.constant (.s32 0) (.single .s32)), .construct (.constant (.s32 0) (.single .s32))]
    have hfirst : Backs (made.acquire 1) (0 + Tally.one 1) := (hnone made).acquire rfl
    exact hfirst.acquire rfl

-- A variable that no round looks at is left behind: after three rounds it is as it was after two.
theorem written_variable_left_behind :
    Ready 0 zeroedTwice ∧ Holds 0 doubling.sources ∧ 3 ≤ zeroedTwice.engine.limit ∧
      ∃ loop after last, whileLoop simulator (doubling.ask simulator) (doubling.runBody simulator)
          zeroedTwice = (.ok (some loop), after) ∧ ByHand doubling zeroedTwice 3 last ∧
        after.grid "y" ≠ last.grid "y" := by
  have hholds : Holds 0 doubling.sources := by
    intro raster hraster
    simp [Code.sources, doubling, Instruction.sources, Request.nodes] at hraster
  have hcompared : doubling.compared zeroedTwice 3 (fun after last =>
      (after.grid "y").toOption.any fun left =>
        (last.grid "y").toOption.any fun right => left.same left && !left.same right) = true := by
    decide +kernel
  obtain ⟨loop, after, last, hrun, hhand, hdiffers⟩ := Code.compared_eq_true hcompared
  refine ⟨zeroedTwice_ready, hholds, by decide, loop, after, last, hrun, hhand, fun hequal => ?_⟩
  obtain ⟨left, hleft, hdiffers⟩ := (Option.any_eq_true _ _).mp hdiffers
  rw [← hequal] at hdiffers
  obtain ⟨right, hright, hdiffers⟩ := (Option.any_eq_true _ _).mp hdiffers
  obtain rfl := Option.some.inj (hleft.symm.trans hright)
  rw [Bool.and_not_self] at hdiffers
  cases hdiffers

end MapAlgebra.Loop
