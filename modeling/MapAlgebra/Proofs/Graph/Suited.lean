import MapAlgebra.Proofs.Graph.Formed
import MapAlgebra.Proofs.Graph.Recurrence

namespace MapAlgebra

-- A computation that comes to a good result or fails in one of the ways that are expected.
def Yields {ε α : Type} (good : α → Prop) (expected : ε → Prop) : Except ε α → Prop
  | .ok a => good a
  | .error problem => expected problem

namespace Yields

variable {ε α β : Type} {good : α → Prop} {expected : ε → Prop}

theorem mono {better : α → Prop} {allowed : ε → Prop} {x : Except ε α}
    (h : Yields good expected x) (hgood : ∀ a, good a → better a)
    (hexpected : ∀ problem, expected problem → allowed problem) : Yields better allowed x := by
  cases x with
  | error problem => exact hexpected problem h
  | ok a => exact hgood a h

theorem bind {after : β → Prop} {x : Except ε α} {f : α → Except ε β}
    (h : Yields good expected x)
    (hnext : ∀ a, x = .ok a → good a → Yields after expected (f a)) :
    Yields after expected (x >>= f) := by
  cases x with
  | error problem => exact h
  | ok a => exact hnext a rfl h

theorem mapM {relation : α → β → Prop} {items : List α} {f : α → Except ε β}
    (h : ∀ item ∈ items, Yields (relation item) expected (f item)) :
    Yields (List.Forall₂ relation items) expected (items.mapM f) := by
  induction items with
  | nil => exact .nil
  | cons item items ih =>
      rw [List.mapM_cons]
      refine (h item List.mem_cons_self).bind fun first _ hfirst => ?_
      have hrest := ih fun other hother => h other (List.mem_cons_of_mem _ hother)
      exact hrest.bind fun rest _ hrest => List.Forall₂.cons hfirst hrest

end Yields

theorem mapM_related {ε α β γ : Type} {xs : List α} {zs : List γ} {f : α → Except ε β}
    {relation : α → γ → Prop} {result : γ → β → Prop} (h : List.Forall₂ relation xs zs)
    (hf : ∀ x ∈ xs, ∀ z, relation x z → ∃ b, f x = .ok b ∧ result z b) :
    ∃ bs, xs.mapM f = .ok bs ∧ List.Forall₂ result zs bs := by
  induction h with
  | nil => exact ⟨[], rfl, .nil⟩
  | @cons x z xs zs hfirst _ ih =>
      obtain ⟨b, hb, hresult⟩ := hf x List.mem_cons_self z hfirst
      obtain ⟨bs, hbs, hrest⟩ := ih fun other hother => hf other (List.mem_cons_of_mem _ hother)
      refine ⟨b :: bs, ?_, .cons hresult hrest⟩
      rw [List.mapM_cons]
      exact bind_eq_ok.mpr ⟨b, hb, bind_eq_ok.mpr ⟨bs, hbs, rfl⟩⟩

namespace Graph

theorem FormAt.unique {nodes : Table Node} {id : Nat} {form other : Form}
    (h : FormAt nodes id form) (hother : FormAt nodes id other) : form = other := by
  obtain ⟨node, hnode, rfl⟩ := h
  obtain ⟨found, hfound, rfl⟩ := hother
  rw [hnode] at hfound
  cases hfound
  rfl

-- The next step of a round, when the first ones are done.
theorem Fits.next {state : State} {plan : LoopPlan} (h : Fits state plan) {finished rest : List Nat}
    {id : Nat} (hbody : plan.body = finished ++ id :: rest) :
    ∃ slots node,
      plan.slots.drop finished.length = slots :: plan.slots.drop (finished ++ [id]).length ∧
      slots ∈ plan.slots ∧ state.nodes.get? id = some node ∧ node.kind.isPlain = true ∧
      List.Forall₂ (Reads plan finished.length) slots node.inputs := by
  have hid : plan.body[finished.length]? = some id := by rw [hbody]; simp
  have hlt : finished.length < plan.slots.length := by
    rw [h.lengths]
    exact (List.getElem?_eq_some_iff.mp hid).1
  obtain ⟨node, hnode, hplain, hreads⟩ := h.reads hid (List.getElem?_eq_getElem hlt)
  refine ⟨_, node, ?_, List.getElem_mem hlt, hnode, hplain, hreads⟩
  rw [List.drop_eq_getElem_cons hlt, List.length_append]
  rfl

namespace State

variable {state : State} {plan : LoopPlan}

-- The form that is noted about a node, if it is there.
def noted? (state : State) (id : Nat) : Option Form :=
  (state.nodes.get? id).map (·.info.form)

theorem noted?_eq_some {id : Nat} {form : Form} :
    state.noted? id = some form ↔ FormAt state.nodes id form := Option.map_eq_some_iff

-- A grid as it is noted about a node.
def Suits (state : State) (id : Nat) (grid : Grid) : Prop :=
  ∃ form, FormAt state.nodes id form ∧ grid.Has form

-- Every grid that was read is whole.
def Stocked (state : State) : Prop :=
  ∀ id node resource grid, state.nodes.get? id = some node → node.kind = .read resource grid →
    grid.Whole

-- The same for one node, to be computed.
def isStocked (node : Node) : Bool :=
  match node.kind with
  | .read _ grid => grid.cells.size = cellCount grid.shape ∧ grid.shape.length ≤ maxRank
  | _ => true

theorem stocked_of_entries (h : ∀ entry ∈ state.nodes.entries, isStocked entry.2 = true) :
    state.Stocked := by
  intro id node resource grid hnode hkind
  have hstocked := h _ ((Table.get?_eq_some_iff _ _ _).mp hnode)
  simp only [isStocked, hkind, decide_eq_true_eq] at hstocked
  exact ⟨hstocked.1, hstocked.2⟩

theorem has_of_suits {ids : List Nat} {grids : List Grid} {forms : List Form}
    (hgrids : List.Forall₂ state.Suits ids grids)
    (hforms : List.Forall₂ (FormAt state.nodes) ids forms) : List.Forall₂ Grid.Has grids forms := by
  induction hgrids generalizing forms with
  | nil =>
      cases hforms
      exact .nil
  | cons hgrid _ ih =>
      obtain _ | ⟨hform, hrest⟩ := hforms
      obtain ⟨other, hother, hhas⟩ := hgrid
      exact .cons (hother.unique hform ▸ hhas) (ih hrest)

-- No node has more axes than there may be.
theorem rank_le (hlooped : Looped state) (hformed : Formed state) (hstocked : state.Stocked)
    {id : Nat} {form : Form} (h : FormAt state.nodes id form) : form.shape.length ≤ maxRank := by
  induction id using Nat.strongRecOn generalizing form with
  | ind id ih =>
      obtain ⟨node, hnode, rfl⟩ := h
      have hlt := fun input hinput => (hlooped.consistent.founded.input_live hnode input hinput).2
      cases hformed.noted hnode with
      | plain hplain hinputs htyped =>
          refine htyped.rank (fun form hform => ?_) fun resource grid hkind =>
            hstocked id node resource grid hnode hkind
          obtain ⟨input, hinput, hnoted⟩ := related_of_mem hinputs.flip hform
          exact ih input (hlt input hinput) hnoted
      | @loop plan value guard hkind hvalue hguard hform =>
          have hshape : node.info.form.shape = guard.shape := by rw [hform]
          rw [hshape]
          refine ih value.init (hlt _ ?_) hguard
          rw [hlooped.consistent.loop_inputs hnode hkind]
          refine List.mem_append_right _ ((plan.mem_externals _).mpr (Or.inl ⟨value, ?_, rfl⟩))
          exact List.mem_of_getElem? hvalue
      | @tail loop plan value index loopId step hkind hinputs hloop hplan hvalue hstep hform =>
          have hloopLt := hlt loopId (by rw [hinputs]; exact List.mem_singleton_self _)
          have hread : step ∈ loop.inputs := by
            rw [hlooped.consistent.loop_inputs hloop hplan]
            exact List.mem_append_left _ (List.mem_of_getElem? hstep)
          have hstepLt := (hlooped.consistent.founded.input_live hloop step hread).2
          exact ih step (by omega) hform

-- A node that computes its grid from its inputs does so when they are as noted.
theorem apply_suits (hlooped : Looped state) (hformed : Formed state) (hstocked : state.Stocked)
    {id : Nat} {node : Node} (hnode : state.nodes.get? id = some node)
    (hplain : node.kind.isPlain = true) {grids : List Grid}
    (hgrids : List.Forall₂ state.Suits node.inputs grids) :
    ∃ grid, node.kind.apply node.info grids = .ok grid ∧ state.Suits id grid := by
  cases hformed.noted hnode with
  | @plain forms _ hinputs htyped =>
      have hranks : ∀ form ∈ forms, form.shape.length ≤ maxRank := by
        intro form hform
        obtain ⟨input, _, hnoted⟩ := related_of_mem hinputs.flip hform
        exact rank_le hlooped hformed hstocked hnoted
      obtain ⟨grid, hgrid, hhas⟩ := htyped.apply_total rfl (has_of_suits hgrids hinputs) hranks
        fun resource grid hkind => hstocked id node resource grid hnode hkind
      exact ⟨grid, hgrid, node.info.form, ⟨node, hnode, rfl⟩, hhas⟩
  | loop hkind _ _ _ =>
      rw [hkind] at hplain
      cases hplain
  | tail hkind _ _ _ _ _ _ =>
      rw [hkind] at hplain
      cases hplain

-- The carried values of a loop, each as noted about the node that it starts as.
def Carries (state : State) (plan : LoopPlan) (carried : List Grid) : Prop :=
  List.Forall₂ (fun value grid => state.Suits value.init grid) plan.carried carried

-- What a slot reads is as noted about what was read there in the first replay.
theorem slotValue_suits {carried steps : List Grid} {finished rest : List Nat}
    (hcarried : state.Carries plan carried) (hbody : plan.body = finished ++ rest)
    (hsteps : List.Forall₂ state.Suits finished steps) {slot : Slot} {input : Nat}
    (h : Reads plan finished.length slot input)
    (houter : ∀ node, slot = .outer node →
      ∃ grid, state.grid node = .ok grid ∧ state.Suits node grid) :
    ∃ grid, state.slotValue carried steps slot = .ok grid ∧ state.Suits input grid := by
  cases h with
  | @step index _ hindex hinput =>
      rw [hbody, List.getElem?_append_left hindex] at hinput
      obtain ⟨grid, hgrid, hsuits⟩ := exists_related hsteps hinput
      exact ⟨grid, entry_eq_ok.mpr hgrid, hsuits⟩
  | @carried index value hvalue =>
      obtain ⟨grid, hgrid, hsuits⟩ := exists_related hcarried hvalue
      exact ⟨grid, entry_eq_ok.mpr hgrid, hsuits⟩
  | outer => exact houter input rfl

-- The nodes around a loop have their grids.
def Surrounded (state : State) (plan : LoopPlan) : Prop :=
  ∀ node ∈ plan.externals, ∃ grid, state.grid node = .ok grid ∧ state.Suits node grid

-- The remaining steps of a round come out as noted, given those that are done.
theorem stepValuesFrom_suits (hlooped : Looped state) (hformed : Formed state)
    (hstocked : state.Stocked) (hfits : Fits state plan) (hsurrounded : state.Surrounded plan)
    {carried steps : List Grid} {finished rest : List Nat}
    (hcarried : state.Carries plan carried) (hbody : plan.body = finished ++ rest)
    (hsteps : List.Forall₂ state.Suits finished steps) :
    ∃ results, state.stepValuesFrom carried steps (rest.zip (plan.slots.drop finished.length)) =
      .ok results ∧ List.Forall₂ state.Suits plan.body results := by
  induction rest generalizing finished steps with
  | nil =>
      rw [List.append_nil] at hbody
      exact ⟨steps, rfl, hbody ▸ hsteps⟩
  | cons id rest ih =>
      obtain ⟨slots, node, hslots, hmember, hnode, hplain, hreads⟩ := hfits.next hbody
      obtain ⟨inputs, hinputs, hsuited⟩ := mapM_related hreads fun slot hslot input hread =>
        slotValue_suits hcarried hbody hsteps hread fun other houter =>
          hsurrounded other <| (plan.mem_externals other).mpr <|
            Or.inr ⟨slots, hmember, houter ▸ hslot⟩
      obtain ⟨grid, hgrid, hsuits⟩ := apply_suits hlooped hformed hstocked hnode hplain hsuited
      have hlonger : List.Forall₂ state.Suits (finished ++ [id]) (steps ++ [grid]) :=
        List.rel_append hsteps (.cons hsuits .nil)
      obtain ⟨results, hresults, hall⟩ := ih (by rw [hbody, List.append_assoc]; rfl) hlonger
      refine ⟨results, ?_, hall⟩
      have hfind := find_eq hlooped.consistent.counted.numbered hnode
      rw [hslots, List.zip_cons_cons, stepValuesFrom]
      exact bind_eq_ok.mpr ⟨node, hfind, bind_eq_ok.mpr ⟨inputs, hinputs,
        bind_eq_ok.mpr ⟨grid, hgrid, hresults⟩⟩⟩

-- A loop whose carried values start with the type and the extents that their feeds give them, and
-- whose condition is a truth value.
structure Steady (state : State) (plan : LoopPlan) : Prop where
  guard : ∀ value, plan.carried[0]? = some value →
    (state.noted? value.init).map Form.dtype = some .b8
  feed : ∀ value ∈ plan.carried,
    state.noted? value.init = plan.body[value.feed]?.bind state.noted?

theorem Steady.guard_form (h : state.Steady plan) {value : CarriedValue} {guard : Form}
    (hvalue : plan.carried[0]? = some value) (hguard : FormAt state.nodes value.init guard) :
    guard = ⟨.b8, guard.shape⟩ := by
  have htruth := h.guard value hvalue
  rw [noted?_eq_some.mpr hguard] at htruth
  rw [← Option.some.inj htruth]

theorem Steady.feed_form (h : state.Steady plan) {value : CarriedValue} {step : Nat} {form : Form}
    (hvalue : value ∈ plan.carried) (hstep : plan.body[value.feed]? = some step)
    (hform : FormAt state.nodes step form) : FormAt state.nodes value.init form := by
  have hsame := h.feed value hvalue
  rw [hstep, Option.bind_some, noted?_eq_some.mpr hform] at hsame
  exact noted?_eq_some.mp hsame

-- A round leaves the carried values of a steady loop as they were noted.
theorem nextValues_suits (hlooped : Looped state) (hformed : Formed state)
    (hstocked : state.Stocked) (hfits : Fits state plan) (hsteady : state.Steady plan)
    (hsurrounded : state.Surrounded plan) {carried : List Grid}
    (hcarried : state.Carries plan carried) :
    ∃ next, state.nextValues plan carried = .ok next ∧ state.Carries plan next := by
  have hbegin : plan.body = [] ++ plan.body := rfl
  obtain ⟨steps, hsteps, hsuits⟩ := stepValuesFrom_suits hlooped hformed hstocked hfits hsurrounded
    hcarried hbegin .nil
  have hfeeds : ∀ value ∈ plan.carried, ∃ grid,
      entry steps value.feed = .ok grid ∧ state.Suits value.init grid := by
    intro value hvalue
    have hlt := hfits.feed_lt value hvalue
    have hstep := List.getElem?_eq_getElem hlt
    obtain ⟨grid, hgrid, form, hnoted, hhas⟩ := exists_related hsuits hstep
    exact ⟨grid, entry_eq_ok.mpr hgrid, form, hsteady.feed_form hvalue hstep hnoted, hhas⟩
  obtain ⟨next, hnext⟩ :
      ∃ next, (plan.carried.mapM fun value => entry steps value.feed) = .ok next :=
    mapM_total fun value hvalue => (hfeeds value hvalue).imp fun grid hgrid => hgrid.1
  refine ⟨next, bind_eq_ok.mpr ⟨steps, hsteps, hnext⟩, ?_⟩
  refine related_imp (mapM_eq_ok.mp hnext) fun value hvalue grid hgrid => ?_
  obtain ⟨found, hfound, hsuits⟩ := hfeeds value hvalue
  rw [hfound] at hgrid
  cases hgrid
  exact hsuits

-- The rounds of a steady loop end with carried values as noted, or there are too many of them.
theorem runRounds_yields (hlooped : Looped state) (hformed : Formed state)
    (hstocked : state.Stocked) (hfits : Fits state plan) (hsteady : state.Steady plan)
    (hsurrounded : state.Surrounded plan) {externals : Table Grid}
    (hsupplied : ∀ node ∈ plan.externals, Supplies state externals node) (loop remaining : Nat)
    {carried : List Grid} (hcarried : state.Carries plan carried) :
    Yields (state.Carries plan) (· = .engine (.tooManyIterations loop state.limit))
      (state.runRounds loop plan externals remaining carried) := by
  have hnonempty : ∀ {carried}, state.Carries plan carried → carried ≠ [] := by
    intro carried hcarried
    refine List.ne_nil_of_length_pos ?_
    rw [← hcarried.length_eq]
    exact hfits.guarded
  induction remaining generalizing carried with
  | zero =>
      cases hgoes : goesOn carried with
      | false =>
          rw [runRounds_end loop 0 hgoes (hnonempty hcarried)]
          exact hcarried
      | true =>
          rw [runRounds_go loop 0 hgoes]
          rfl
  | succ remaining ih =>
      cases hgoes : goesOn carried with
      | false =>
          rw [runRounds_end loop _ hgoes (hnonempty hcarried)]
          exact hcarried
      | true =>
          obtain ⟨next, hnext, hkept⟩ := nextValues_suits hlooped hformed hstocked hfits hsteady
            hsurrounded hcarried
          rw [runRounds_go loop _ hgoes, runRound_eq_nextValues carried hsupplied, hnext]
          exact ih hkept

-- The final values of a steady loop are as noted if the nodes around it are.
theorem finalValues_yields (hlooped : Looped state) (hformed : Formed state)
    (hstocked : state.Stocked) {loop : Nat} {node : Node} (hloop : state.nodes.get? loop = some node)
    (hkind : node.kind = .loop plan) (hsteady : state.Steady plan) {expected : MapError → Prop}
    (hlimit : expected (.engine (.tooManyIterations loop state.limit)))
    (hexternals : ∀ external ∈ plan.externals,
      Yields (state.Suits external) expected (state.grid external)) :
    Yields (state.Carries plan) expected (state.finalValues state.gridOf loop plan) := by
  rw [gridOf_eq_grid hlooped]
  have hinit : ∀ value ∈ plan.carried,
      Yields (state.Suits value.init) expected (state.grid value.init) := fun value hvalue =>
    hexternals _ ((plan.mem_externals _).mpr (Or.inl ⟨value, hvalue, rfl⟩))
  refine (Yields.mapM hinit).bind fun inits _ hcarried => ?_
  have hentries : Yields (fun _ => True) expected (state.externalGrids plan) := by
    have hall : Yields (List.Forall₂ (fun _ _ => True) plan.externals) expected
        (state.externalGrids plan) := Yields.mapM fun external hexternal =>
      (hexternals external hexternal).bind fun _ _ _ => trivial
    exact hall.mono (fun _ _ => trivial) fun _ h => h
  refine hentries.bind fun entries hentries _ => ?_
  have hsupplied := supplies_externals hentries
  have hsurrounded : state.Surrounded plan := by
    intro external hexternal
    obtain ⟨grid, _, hgrid⟩ := hsupplied external hexternal
    have hyields := hexternals external hexternal
    rw [hgrid] at hyields
    exact ⟨grid, hgrid, hyields⟩
  refine (runRounds_yields hlooped hformed hstocked (hlooped.fits hloop hkind) hsteady hsurrounded
    hsupplied loop state.limit hcarried).mono (fun _ h => h) fun problem hproblem => ?_
  rw [hproblem]
  exact hlimit

-- What a node needs: itself, its inputs, theirs and so on.
def Needs (state : State) : Nat → Nat → Prop :=
  Relation.ReflTransGen fun id input => ∃ node, state.nodes.get? id = some node ∧ input ∈ node.inputs

-- How the evaluation of a node ends when a loop that it needs has too many rounds.
def GivesUp (state : State) (id : Nat) (problem : MapError) : Prop :=
  ∃ loop node plan, state.Needs id loop ∧ state.nodes.get? loop = some node ∧
    node.kind = .loop plan ∧ problem = .engine (.tooManyIterations loop state.limit)

-- Every loop that a node needs is steady.
def SteadyBelow (state : State) (id : Nat) : Prop :=
  ∀ loop node plan, state.Needs id loop → state.nodes.get? loop = some node →
    node.kind = .loop plan → state.Steady plan

theorem Needs.input {id input : Nat} {node : Node} (hnode : state.nodes.get? id = some node)
    (hinput : input ∈ node.inputs) : state.Needs id input :=
  .single ⟨node, hnode, hinput⟩

theorem Needs.steadyBelow {id other : Nat} (h : state.Needs id other)
    (hsteady : state.SteadyBelow id) : state.SteadyBelow other :=
  fun loop node plan hbelow => hsteady loop node plan (h.trans hbelow)

theorem Needs.givesUp {id other : Nat} {problem : MapError} (h : state.Needs id other)
    (hgives : state.GivesUp other problem) : state.GivesUp id problem := by
  obtain ⟨loop, node, plan, hbelow, hloop⟩ := hgives
  exact ⟨loop, node, plan, h.trans hbelow, hloop⟩

theorem plain_yields (hlooped : Looped state) (hformed : Formed state) (hstocked : state.Stocked)
    {id : Nat} {node : Node} (hnode : state.nodes.get? id = some node)
    (hplain : node.kind.isPlain = true) {expected : MapError → Prop}
    (hinput : ∀ input ∈ node.inputs, Yields (state.Suits input) expected (state.grid input)) :
    Yields (state.Suits id) expected (state.grid id) := by
  have hconsistent := hlooped.consistent
  rw [grid_eq hconsistent.founded hconsistent.counted.numbered hconsistent.computed,
    gridOf_node hconsistent.founded hconsistent.counted.numbered hnode, nodeGrid_plain hplain,
    gridOf_eq_grid hlooped]
  refine (Yields.mapM hinput).bind fun grids _ hgrids => ?_
  obtain ⟨grid, hgrid, hsuits⟩ := apply_suits hlooped hformed hstocked hnode hplain hgrids
  rw [hgrid]
  exact hsuits

-- A carried value ends as is noted about every node that is noted like its start.
theorem carried_yields {final : Except MapError (List Grid)} {expected : MapError → Prop}
    (hfinal : Yields (state.Carries plan) expected final) {index id : Nat} {value : CarriedValue}
    {form : Form} (hvalue : plan.carried[index]? = some value)
    (hinit : FormAt state.nodes value.init form) (hform : FormAt state.nodes id form) :
    Yields (state.Suits id) expected (do entry (← final) index) := by
  refine hfinal.bind fun carried _ hcarried => ?_
  obtain ⟨grid, hgrid, found, hfound, hhas⟩ := exists_related hcarried hvalue
  obtain rfl := hfound.unique hinit
  rw [entry_eq_ok.mpr hgrid]
  exact ⟨found, hform, hhas⟩

-- A node that is there has a grid as noted about it, unless a loop has too many rounds.
theorem grid_yields (hlooped : Looped state) (hformed : Formed state) (hstocked : state.Stocked)
    {id : Nat} (hlive : state.nodes.contains id = true) (hsteady : state.SteadyBelow id) :
    Yields (state.Suits id) (state.GivesUp id) (state.grid id) := by
  induction id using Nat.strongRecOn with
  | ind id ih =>
      have hconsistent := hlooped.consistent
      obtain ⟨node, hnode⟩ := (Table.contains_iff _ _).mp hlive
      have hneeded : ∀ other, state.Needs id other → other < id →
          state.nodes.contains other = true →
          Yields (state.Suits other) (state.GivesUp id) (state.grid other) :=
        fun other hneeds hlt hthere => (ih other hlt hthere (hneeds.steadyBelow hsteady)).mono
          (fun _ h => h) fun _ => hneeds.givesUp
      have hfinal : ∀ {loop info plan}, state.Needs id loop → loop ≤ id →
          state.nodes.get? loop = some info → info.kind = .loop plan →
          Yields (state.Carries plan) (state.GivesUp id)
            (state.finalValues state.gridOf loop plan) := by
        intro loop info plan hneeds hle hloop hkind
        refine finalValues_yields hlooped hformed hstocked hloop hkind
          (hsteady loop info plan hneeds hloop hkind) ⟨loop, info, plan, hneeds, hloop, hkind, rfl⟩
          fun external hexternal => ?_
        have hmember : external ∈ info.inputs := by
          rw [hconsistent.loop_inputs hloop hkind]
          exact List.mem_append_right _ hexternal
        obtain ⟨hthere, hlt⟩ := hconsistent.founded.input_live hloop external hmember
        exact hneeded external (hneeds.tail ⟨info, hloop, hmember⟩) (by omega) hthere
      cases hformed.noted hnode with
      | plain hplain _ _ =>
          refine plain_yields hlooped hformed hstocked hnode hplain fun input hmember => ?_
          obtain ⟨hthere, hlt⟩ := hconsistent.founded.input_live hnode input hmember
          exact hneeded input (Needs.input hnode hmember) hlt hthere
      | @loop plan value guard hkind hvalue hguard hform =>
          have htruth := (hsteady id node plan .refl hnode hkind).guard_form hvalue hguard
          rw [(grids_of_finalValues hlooped hnode hkind rfl).1]
          exact carried_yields (hfinal .refl (Nat.le_refl id) hnode hkind) hvalue hguard
            ⟨node, hnode, hform.trans htruth.symm⟩
      | @tail loop plan value index loopId step hkind hinputs hloop hplan hvalue hstep hform =>
          have hmember : loopId ∈ node.inputs := by
            rw [hinputs]
            exact List.mem_singleton_self _
          have hlt := (hconsistent.founded.input_live hnode loopId hmember).2
          have hneeds := Needs.input hnode hmember
          have hinit := (hsteady loopId loop plan hneeds hloop hplan).feed_form
            (List.mem_of_getElem? hvalue) hstep hform
          rw [(grids_of_finalValues hlooped hloop hplan rfl).2 id node index hnode hkind hinputs]
          exact carried_yields (hfinal hneeds (Nat.le_of_lt hlt) hloop hplan) hvalue hinit
            ⟨node, hnode, rfl⟩

end State

end Graph

end MapAlgebra
