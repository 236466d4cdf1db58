import MapAlgebra.Proofs.Graph.Recording

namespace MapAlgebra.Graph

namespace State

-- What a slot reads in a round of the recurrence.
def slotValue (state : State) (carried steps : List Grid) : Slot → Except MapError Grid
  | .step index => entry steps index
  | .carried index => entry carried index
  | .outer node => state.grid node

-- Adds the values of the remaining steps of a round to those that are there.
def stepValuesFrom (state : State) (carried steps : List Grid) :
    List (Nat × List Slot) → Except MapError (List Grid)
  | [] => .ok steps
  | (id, slots) :: rest => do
      let node ← state.find id
      let inputs ← slots.mapM (state.slotValue carried steps)
      let grid ← node.kind.apply node.info inputs
      state.stepValuesFrom carried (steps ++ [grid]) rest

-- The values of all steps of a round.
def stepValues (state : State) (plan : LoopPlan) (carried : List Grid) :
    Except MapError (List Grid) :=
  state.stepValuesFrom carried [] (plan.body.zip plan.slots)

-- All carried values after a round, replaced at once.
def nextValues (state : State) (plan : LoopPlan) (carried : List Grid) :
    Except MapError (List Grid) := do
  let steps ← state.stepValues plan carried
  plan.carried.mapM fun value => entry steps value.feed

def initialValues (state : State) (plan : LoopPlan) : Except MapError (List Grid) :=
  plan.carried.mapM fun value => state.grid value.init

end State

-- Whether some cell of the first carried value is true.
def goesOn (carried : List Grid) : Bool := carried.head?.any Grid.anyTrue

namespace State

variable {state : State} {plan : LoopPlan}

-- The grids that a loop is given for the nodes around it.
def Supplies (state : State) (externals : Table Grid) (node : Nat) : Prop :=
  ∃ grid, externals.get? node = some grid ∧ state.grid node = .ok grid

theorem read_eq_slotValue {externals : Table Grid} (carried steps : List Grid) {slot : Slot}
    (h : ∀ node, slot = .outer node → Supplies state externals node) :
    Round.read ⟨carried, externals, steps⟩ slot = state.slotValue carried steps slot := by
  cases slot with
  | step index => rfl
  | carried index => rfl
  | outer node =>
      obtain ⟨grid, hsupplied, hgrid⟩ := h node rfl
      simp only [Round.read, slotValue, hsupplied, hgrid]

theorem foldlM_runStep (state : State) (externals : Table Grid) (carried steps : List Grid)
    (rest : List (Nat × List Slot))
    (h : ∀ step ∈ rest, ∀ node, Slot.outer node ∈ step.2 → Supplies state externals node) :
    rest.foldlM state.runStep ⟨carried, externals, steps⟩ =
      (state.stepValuesFrom carried steps rest).map (⟨carried, externals, ·⟩) := by
  induction rest generalizing steps with
  | nil => rfl
  | cons step rest ih =>
      obtain ⟨id, slots⟩ := step
      have hreads : slots.mapM (Round.read ⟨carried, externals, steps⟩) =
          slots.mapM (state.slotValue carried steps) := by
        refine mapM_congr fun slot hslot => read_eq_slotValue carried steps fun node hnode => ?_
        exact h (id, slots) List.mem_cons_self node (hnode ▸ hslot)
      have hrest := fun steps => ih steps fun step hstep => h step (List.mem_cons_of_mem _ hstep)
      rw [List.foldlM_cons, runStep, stepValuesFrom]
      cases state.find id with
      | error problem => rfl
      | ok node =>
          simp only [bind, Except.bind, hreads]
          cases slots.mapM (state.slotValue carried steps) with
          | error problem => rfl
          | ok inputs =>
              dsimp only
              cases node.kind.apply node.info inputs with
              | error problem => rfl
              | ok grid => exact hrest _

theorem runRound_eq_nextValues {externals : Table Grid} (carried : List Grid)
    (h : ∀ node ∈ plan.externals, Supplies state externals node) :
    state.runRound plan externals carried = state.nextValues plan carried := by
  have hsteps := foldlM_runStep state externals carried []
    (plan.body.zip plan.slots) fun step hstep node hnode => h node <|
      (plan.mem_externals node).mpr (Or.inr ⟨step.2, (List.of_mem_zip hstep).2, hnode⟩)
  unfold runRound nextValues stepValues
  rw [hsteps]
  cases state.stepValuesFrom carried [] (plan.body.zip plan.slots) with
  | error problem => rfl
  | ok steps => rfl

theorem runRounds_end {externals : Table Grid} {carried : List Grid} (loop remaining : Nat)
    (hends : goesOn carried = false) (hnonempty : carried ≠ []) :
    state.runRounds loop plan externals remaining carried = .ok carried := by
  cases carried with
  | nil => exact absurd rfl hnonempty
  | cons guard rest =>
      have hfalse : guard.anyTrue = false := hends
      cases remaining with
      | zero => simp [runRounds, entry, hfalse, bind, Except.bind, pure, Except.pure]
      | succ remaining => simp [runRounds, entry, hfalse, bind, Except.bind, pure, Except.pure]

theorem runRounds_go {externals : Table Grid} {carried : List Grid} (loop remaining : Nat)
    (hgoes : goesOn carried = true) :
    state.runRounds loop plan externals remaining carried =
      match remaining with
      | 0 => .error (.engine (.tooManyIterations loop state.limit))
      | remaining + 1 => (do
          let next ← state.runRound plan externals carried
          state.runRounds loop plan externals remaining next) := by
  cases carried with
  | nil => cases hgoes
  | cons guard rest =>
      have htrue : guard.anyTrue = true := hgoes
      cases remaining with
      | zero => simp [runRounds, entry, htrue, bind, Except.bind]
      | succ remaining => simp [runRounds, entry, htrue, bind, Except.bind]

-- The rounds of a loop follow the recurrence until it ends.
theorem runRounds_eq_ok {externals : Table Grid} {values : Nat → List Grid} {n : Nat} (loop : Nat)
    (hnext : ∀ i < n, state.runRound plan externals (values i) = .ok (values (i + 1)))
    (hgoes : ∀ i < n, goesOn (values i) = true) (hends : goesOn (values n) = false)
    (hlast : values n ≠ []) (remaining : Nat) {i : Nat} (hi : i ≤ n)
    (hremaining : n ≤ i + remaining) :
    state.runRounds loop plan externals remaining (values i) = .ok (values n) := by
  induction remaining generalizing i with
  | zero =>
      obtain rfl : i = n := by omega
      exact runRounds_end loop 0 hends hlast
  | succ remaining ih =>
      by_cases hend : i = n
      · subst hend
        exact runRounds_end loop _ hends hlast
      · have hlt : i < n := by omega
        have hrest := ih (i := i + 1) (by omega) (by omega)
        rw [runRounds_go loop _ (hgoes i hlt), hnext i hlt]
        exact hrest

-- A recurrence that does not end within the limit is given up.
theorem runRounds_eq_error {externals : Table Grid} {values : Nat → List Grid} {last : Nat}
    (loop : Nat)
    (hnext : ∀ i < last, state.runRound plan externals (values i) = .ok (values (i + 1)))
    (hgoes : ∀ i ≤ last, goesOn (values i) = true) {remaining i : Nat} (hi : i + remaining = last) :
    state.runRounds loop plan externals remaining (values i) =
      .error (.engine (.tooManyIterations loop state.limit)) := by
  induction remaining generalizing i with
  | zero => exact runRounds_go loop 0 (hgoes i (by omega))
  | succ remaining ih =>
      have hrest := ih (i := i + 1) (by omega)
      rw [runRounds_go loop _ (hgoes i (by omega)), hnext i (by omega)]
      exact hrest

theorem runRounds_eq_failure {externals : Table Grid} {values : Nat → List Grid} {n : Nat}
    {problem : MapError} (loop : Nat)
    (hnext : ∀ i < n, state.runRound plan externals (values i) = .ok (values (i + 1)))
    (hgoes : ∀ i ≤ n, goesOn (values i) = true)
    (hfails : state.runRound plan externals (values n) = .error problem) {remaining i : Nat}
    (hi : i ≤ n) (hremaining : n < i + remaining) :
    state.runRounds loop plan externals remaining (values i) = .error problem := by
  induction remaining generalizing i with
  | zero => omega
  | succ remaining ih =>
      rw [runRounds_go loop _ (hgoes i hi)]
      by_cases hend : i = n
      · subst hend
        rw [hfails]
        rfl
      · have hrest := ih (i := i + 1) (by omega) (by omega)
        rw [hnext i (by omega)]
        exact hrest

-- The steps of a round only evaluate when everything they read does.
theorem outer_evaluates {carried steps results : List Grid} {rest : List (Nat × List Slot)}
    (h : state.stepValuesFrom carried steps rest = .ok results) {step : Nat × List Slot}
    (hstep : step ∈ rest) {node : Nat} (hnode : Slot.outer node ∈ step.2) :
    ∃ grid, state.grid node = .ok grid := by
  induction rest generalizing steps with
  | nil => cases hstep
  | cons first rest ih =>
      obtain ⟨id, slots⟩ := first
      rw [stepValuesFrom] at h
      obtain ⟨_, _, h⟩ := bind_eq_ok.mp h
      obtain ⟨inputs, hinputs, h⟩ := bind_eq_ok.mp h
      obtain ⟨_, _, h⟩ := bind_eq_ok.mp h
      obtain rfl | hstep := List.mem_cons.mp hstep
      · obtain ⟨grid, _, hgrid⟩ := related_of_mem (mapM_eq_ok.mp hinputs) hnode
        exact ⟨grid, hgrid⟩
      · exact ih h hstep

-- Collects the grids of the nodes around a loop.
def externalGrids (state : State) (plan : LoopPlan) : Except MapError (List (Nat × Grid)) :=
  plan.externals.mapM fun node => do return (node, ← state.grid node)

theorem supplies_externals {entries : List (Nat × Grid)}
    (hentries : state.externalGrids plan = .ok entries) :
    ∀ node ∈ plan.externals, Supplies state (.ofList entries) node := by
  intro node hnode
  obtain ⟨entry, hentry, heq⟩ := related_of_mem (mapM_eq_ok.mp hentries) hnode
  obtain ⟨grid, hgrid, heq⟩ := bind_eq_ok.mp heq
  cases heq
  have hthere := Table.contains_insertAll entries .empty node
    (Or.inl (List.mem_map.mpr ⟨_, hentry, rfl⟩))
  obtain ⟨found, hfound⟩ := (Table.contains_iff _ _).mp hthere
  obtain hlisted | hempty := Table.get?_insertAll_eq_some _ _ _ _ hfound
  · obtain ⟨other, _, heq⟩ := related_of_mem (mapM_eq_ok.mp hentries).flip hlisted
    obtain ⟨result, hresult, heq⟩ := bind_eq_ok.mp heq
    cases heq
    exact ⟨found, hfound, hresult⟩
  · cases hempty

-- A round only evaluates when the nodes around the loop do.
theorem externals_evaluate (hfits : Fits state plan) {initial next : List Grid}
    (hinitial : state.initialValues plan = .ok initial)
    (hnext : state.nextValues plan initial = .ok next) :
    ∀ node ∈ plan.externals, ∃ grid, state.grid node = .ok grid := by
  intro node hnode
  obtain ⟨value, hvalue, rfl⟩ | ⟨slots, hslots, hslot⟩ := (plan.mem_externals node).mp hnode
  · obtain ⟨grid, _, hgrid⟩ := related_of_mem (mapM_eq_ok.mp hinitial) hvalue
    exact ⟨grid, hgrid⟩
  · obtain ⟨steps, hsteps, _⟩ := bind_eq_ok.mp hnext
    obtain ⟨index, hindex⟩ := List.getElem?_of_mem hslots
    have hlt : index < plan.body.length := by
      rw [← hfits.lengths]
      exact (List.getElem?_eq_some_iff.mp hindex).1
    have hpair : (plan.body.zip plan.slots)[index]? = some (plan.body[index], slots) :=
      List.getElem?_zip_eq_some.mpr ⟨List.getElem?_eq_getElem hlt, hindex⟩
    exact outer_evaluates hsteps (List.mem_of_getElem? hpair) hslot

theorem externalGrids_total (haround : ∀ node ∈ plan.externals, ∃ grid, state.grid node = .ok grid) :
    ∃ entries, state.externalGrids plan = .ok entries := by
  refine mapM_total fun node hnode => ?_
  obtain ⟨grid, hgrid⟩ := haround node hnode
  exact ⟨(node, grid), bind_eq_ok.mpr ⟨grid, hgrid, rfl⟩⟩

-- The first node around a loop that does not evaluate is the one that is reported.
theorem externalGrids_eq_error {problem : MapError}
    (h : plan.externals.mapM state.grid = .error problem) :
    state.externalGrids plan = .error problem := by
  unfold externalGrids
  generalize plan.externals = nodes at h ⊢
  induction nodes with
  | nil => cases h
  | cons node rest ih =>
      rw [List.mapM_cons] at h ⊢
      cases hgrid : state.grid node with
      | error other =>
          rw [hgrid] at h
          cases h
          rfl
      | ok grid =>
          rw [hgrid] at h
          cases hrest : rest.mapM state.grid with
          | error other =>
              rw [hrest] at h
              cases h
              simp only [ih hrest]
              rfl
          | ok grids =>
              rw [hrest] at h
              cases h

theorem length_of_mapM {α β : Type} {items : List α} {f : α → Except MapError β}
    {results : List β} (h : items.mapM f = .ok results) : results.length = items.length :=
  (mapM_eq_ok.mp h).length_eq.symm

-- Every round has as many carried values as the plan.
theorem length_values {values : Nat → List Grid} {n : Nat}
    (hinitial : state.initialValues plan = .ok (values 0))
    (hnext : ∀ i < n, state.nextValues plan (values i) = .ok (values (i + 1))) :
    (values n).length = plan.carried.length := by
  cases n with
  | zero => exact length_of_mapM hinitial
  | succ n =>
      obtain ⟨steps, _, hnext⟩ := bind_eq_ok.mp (hnext n (by omega))
      exact length_of_mapM hnext

-- What the loop node and all tails of a loop evaluate to, when the values at the end are known or
-- there are none.
theorem grids_of_finalValues (hlooped : Looped state) {loop : Nat} {node : Node}
    (hloop : state.nodes.get? loop = some node) (hkind : node.kind = .loop plan)
    {result : Except MapError (List Grid)}
    (hresult : state.finalValues state.gridOf loop plan = result) :
    state.grid loop = (do entry (← result) 0) ∧
      ∀ tail info index, state.nodes.get? tail = some info → info.kind = .loopTail index →
        info.inputs = [loop] → state.grid tail = (do entry (← result) index) := by
  have hconsistent := hlooped.consistent
  have hgrid := grid_eq hconsistent.founded hconsistent.counted.numbered hconsistent.computed
  refine ⟨?_, fun tail info index htail hindex hinputs => ?_⟩
  · rw [hgrid, gridOf_node hconsistent.founded hconsistent.counted.numbered hloop, nodeGrid]
    simp only [hkind, hresult]
  · rw [hgrid, gridOf_node hconsistent.founded hconsistent.counted.numbered htail, nodeGrid]
    have hfind := find_eq hconsistent.counted.numbered hloop
    simp only [hindex, hinputs, entry, List.getElem?_cons_zero, bind, Except.bind, hfind, hkind,
      hresult]

-- The nodes around a loop are evaluated first, then its rounds follow the recurrence.
theorem finalValues_eq_rounds (hlooped : Looped state) {loop : Nat} {initial : List Grid}
    (hinitial : state.initialValues plan = .ok initial) :
    state.finalValues state.gridOf loop plan = (do
      let entries ← state.externalGrids plan
      state.runRounds loop plan (.ofList entries) state.limit initial) := by
  have hinits : plan.carried.mapM (fun value => state.grid value.init) = .ok initial := hinitial
  rw [finalValues, gridOf_eq_grid hlooped, hinits]
  rfl

theorem finalValues_eq_runRounds (hlooped : Looped state) (loop : Nat) {initial : List Grid}
    (hinitial : state.initialValues plan = .ok initial)
    (haround : ∀ node ∈ plan.externals, ∃ grid, state.grid node = .ok grid) :
    ∃ externals, (∀ carried, state.runRound plan externals carried =
        state.nextValues plan carried) ∧
      state.finalValues state.gridOf loop plan =
        state.runRounds loop plan externals state.limit initial := by
  obtain ⟨entries, hentries⟩ := externalGrids_total haround
  refine ⟨.ofList entries, fun carried => ?_, ?_⟩
  · exact runRound_eq_nextValues carried (supplies_externals hentries)
  · rw [finalValues_eq_rounds hlooped hinitial, hentries]
    rfl

section Running

variable {values : Nat → List Grid} {n : Nat}

-- The nodes around a loop are asked for before its rounds, so they have to evaluate even when no
-- round is run.
theorem externals_of_rounds (hfits : Fits state plan)
    (hinitial : state.initialValues plan = .ok (values 0))
    (haround : n = 0 → ∀ node ∈ plan.externals, ∃ grid, state.grid node = .ok grid)
    (hnext : ∀ i < n, state.nextValues plan (values i) = .ok (values (i + 1))) :
    ∀ node ∈ plan.externals, ∃ grid, state.grid node = .ok grid := by
  cases n with
  | zero => exact haround rfl
  | succ n => exact externals_evaluate hfits hinitial (hnext 0 (Nat.succ_pos n))

-- The carried values that a loop ends with.
theorem finalValues_eq_last (hlooped : Looped state) (hfits : Fits state plan) (loop : Nat)
    (hinitial : state.initialValues plan = .ok (values 0))
    (haround : ∀ node ∈ plan.externals, ∃ grid, state.grid node = .ok grid)
    (hlimit : n ≤ state.limit)
    (hnext : ∀ i < n, state.nextValues plan (values i) = .ok (values (i + 1)))
    (hgoes : ∀ i < n, goesOn (values i) = true) (hends : goesOn (values n) = false) :
    state.finalValues state.gridOf loop plan = .ok (values n) ∧
      (values n).length = plan.carried.length := by
  have hlength := length_values hinitial hnext
  have hguarded := hfits.guarded
  have hnonempty : values n ≠ [] := List.ne_nil_of_length_pos (by omega)
  obtain ⟨externals, hround, hfinal⟩ := finalValues_eq_runRounds hlooped loop hinitial haround
  have hrounds : ∀ i < n, state.runRound plan externals (values i) = .ok (values (i + 1)) :=
    fun i hi => (hround _).trans (hnext i hi)
  exact ⟨hfinal.trans (runRounds_eq_ok loop hrounds hgoes hends hnonempty state.limit
    (Nat.zero_le n) (by omega)), hlength⟩

-- A loop that would go on after as many rounds as are allowed is given up.
theorem finalValues_eq_tooMany (hlooped : Looped state) (loop : Nat)
    (hinitial : state.initialValues plan = .ok (values 0))
    (haround : ∀ node ∈ plan.externals, ∃ grid, state.grid node = .ok grid)
    (hnext : ∀ i < state.limit, state.nextValues plan (values i) = .ok (values (i + 1)))
    (hgoes : ∀ i ≤ state.limit, goesOn (values i) = true) :
    state.finalValues state.gridOf loop plan =
      .error (.engine (.tooManyIterations loop state.limit)) := by
  obtain ⟨externals, hround, hfinal⟩ := finalValues_eq_runRounds hlooped loop hinitial haround
  have hrounds : ∀ i < state.limit,
      state.runRound plan externals (values i) = .ok (values (i + 1)) :=
    fun i hi => (hround _).trans (hnext i hi)
  exact hfinal.trans (runRounds_eq_error loop hrounds hgoes (Nat.zero_add state.limit))

-- A loop fails with the round that does not evaluate.
theorem finalValues_eq_failure (hlooped : Looped state) (loop : Nat)
    (hinitial : state.initialValues plan = .ok (values 0))
    (haround : ∀ node ∈ plan.externals, ∃ grid, state.grid node = .ok grid)
    (hlimit : n < state.limit)
    (hnext : ∀ i < n, state.nextValues plan (values i) = .ok (values (i + 1)))
    (hgoes : ∀ i ≤ n, goesOn (values i) = true) {problem : MapError}
    (hfails : state.nextValues plan (values n) = .error problem) :
    state.finalValues state.gridOf loop plan = .error problem := by
  obtain ⟨externals, hround, hfinal⟩ := finalValues_eq_runRounds hlooped loop hinitial haround
  have hrounds : ∀ i < n, state.runRound plan externals (values i) = .ok (values (i + 1)) :=
    fun i hi => (hround _).trans (hnext i hi)
  exact hfinal.trans (runRounds_eq_failure loop hrounds hgoes ((hround _).trans hfails)
    (Nat.zero_le n) (by omega))

end Running

-- What a slot reads in the first round, when the steps before are those of the first replay.
theorem slotValue_initial {initial steps : List Grid} {finished rest : List Nat}
    (hinitial : state.initialValues plan = .ok initial) (hbody : plan.body = finished ++ rest)
    (hsteps : finished.mapM state.grid = .ok steps) {slot : Slot} {input : Nat}
    (h : Reads plan finished.length slot input) :
    state.slotValue initial steps slot = state.grid input := by
  cases h with
  | @step index _ hindex hinput =>
      rw [hbody, List.getElem?_append_left hindex] at hinput
      obtain ⟨grid, hgrid, heq⟩ := exists_related (mapM_eq_ok.mp hsteps) hinput
      rw [heq]
      exact entry_eq_ok.mpr hgrid
  | @carried index value hvalue =>
      obtain ⟨grid, hgrid, heq⟩ := exists_related (mapM_eq_ok.mp hinitial) hvalue
      rw [heq]
      exact entry_eq_ok.mpr hgrid
  | outer node => rfl

theorem stepValuesFrom_initial (hlooped : Looped state) (hfits : Fits state plan)
    {initial steps : List Grid} (finished rest : List Nat) (before after : List (List Slot))
    (hinitial : state.initialValues plan = .ok initial) (hbody : plan.body = finished ++ rest)
    (hslots : plan.slots = before ++ after) (hlengths : before.length = finished.length)
    (hsteps : finished.mapM state.grid = .ok steps) :
    state.stepValuesFrom initial steps (rest.zip after) =
      (rest.mapM state.grid).map (steps ++ ·) := by
  have hconsistent := hlooped.consistent
  have hgrid := grid_eq hconsistent.founded hconsistent.counted.numbered hconsistent.computed
  induction rest generalizing finished steps before after with
  | nil => simp [stepValuesFrom, Except.map, pure, Except.pure]
  | cons id rest ih =>
      have htotal := hfits.lengths
      rw [hbody, hslots, List.length_append, List.length_append] at htotal
      cases after with
      | nil =>
          simp only [List.length_nil, List.length_cons] at htotal
          omega
      | cons slots after =>
          have hid : plan.body[finished.length]? = some id := by rw [hbody]; simp
          have hslot : plan.slots[finished.length]? = some slots := by
            rw [hslots, ← hlengths]
            simp
          obtain ⟨node, hnode, hplain, hreads⟩ := hfits.reads hid hslot
          have hinputs : slots.mapM (state.slotValue initial steps) =
              node.inputs.mapM state.grid := mapM_eq_of_related <|
            hreads.imp fun _ _ hread => slotValue_initial hinitial hbody hsteps hread
          have hstep : state.grid id = (do
              node.kind.apply node.info (← node.inputs.mapM state.grid)) := by
            rw [hgrid, gridOf_node hconsistent.founded hconsistent.counted.numbered hnode,
              nodeGrid_plain hplain, mapM_congr fun input _ => (hgrid input).symm]
          have hnext : ∀ grid, state.grid id = .ok grid →
              state.stepValuesFrom initial (steps ++ [grid]) (rest.zip after) =
                (rest.mapM state.grid).map (steps ++ [grid] ++ ·) := by
            intro grid hvalue
            refine ih (finished ++ [id]) (before ++ [slots]) after ?_ ?_ ?_ ?_
            · rw [hbody, List.append_assoc]
              rfl
            · rw [hslots, List.append_assoc]
              rfl
            · rw [List.length_append, List.length_append, hlengths]
              rfl
            · rw [List.mapM_append, hsteps]
              simp only [List.mapM_cons, List.mapM_nil, hvalue]
              rfl
          have hfirst : state.stepValuesFrom initial steps ((id, slots) :: rest.zip after) = (do
              let grid ← state.grid id
              state.stepValuesFrom initial (steps ++ [grid]) (rest.zip after)) := by
            rw [stepValuesFrom, find_eq hconsistent.counted.numbered hnode, hinputs, hstep,
              bind_assoc]
            rfl
          rw [List.zip_cons_cons, hfirst, List.mapM_cons]
          cases hvalue : state.grid id with
          | error problem => rfl
          | ok grid =>
              refine (hnext grid hvalue).trans ?_
              cases rest.mapM state.grid with
              | error problem => rfl
              | ok grids => exact congrArg Except.ok (List.append_assoc steps [grid] grids)

-- The steps of a round have the values that each of them computes from those before it.
theorem stepValues_eq_ok {carried steps : List Grid} (hslots : plan.slots.length = plan.body.length)
    (hcount : steps.length = plan.body.length)
    (h : ∀ {index id : Nat} {slots : List Slot}, plan.body[index]? = some id →
      plan.slots[index]? = some slots → ∃ node inputs grid, state.find id = .ok node ∧
        slots.mapM (state.slotValue carried (steps.take index)) = .ok inputs ∧
        node.kind.apply node.info inputs = .ok grid ∧ steps[index]? = some grid) :
    state.stepValues plan carried = .ok steps := by
  have hzip : (plan.body.zip plan.slots).length = plan.body.length := by
    rw [List.length_zip, hslots, Nat.min_self]
  have hrest : ∀ remaining index, index + remaining = plan.body.length →
      state.stepValuesFrom carried (steps.take index) ((plan.body.zip plan.slots).drop index) =
        .ok steps := by
    intro remaining
    induction remaining with
    | zero =>
        intro index hindex
        rw [List.drop_of_length_le (by omega), List.take_of_length_le (by omega)]
        rfl
    | succ remaining ih =>
        intro index hindex
        have hlt : index < (plan.body.zip plan.slots).length := by omega
        have hbody := List.getElem?_eq_getElem (l := plan.body) (i := index) (by omega)
        have hslot := List.getElem?_eq_getElem (l := plan.slots) (i := index) (by omega)
        obtain ⟨node, inputs, grid, hnode, hinputs, hgrid, hstep⟩ := h hbody hslot
        rw [List.drop_eq_getElem_cons hlt, List.getElem_zip, stepValuesFrom, hnode]
        refine bind_eq_ok.mpr ⟨node, rfl, bind_eq_ok.mpr ⟨inputs, hinputs, bind_eq_ok.mpr
          ⟨grid, hgrid, ?_⟩⟩⟩
        obtain ⟨hbound, rfl⟩ := List.getElem?_eq_some_iff.mp hstep
        rw [List.take_append_getElem hbound]
        exact ih (index + 1) (by omega)
  exact hrest plan.body.length 0 (Nat.zero_add _)

-- In the first round, every step has the grid of the node that was recorded for it.
theorem stepValues_initial (hlooped : Looped state) (hfits : Fits state plan) {initial : List Grid}
    (hinitial : state.initialValues plan = .ok initial) :
    state.stepValues plan initial = plan.body.mapM state.grid := by
  have hnone : ([] : List Nat).mapM state.grid = .ok [] := rfl
  have h := stepValuesFrom_initial hlooped hfits [] plan.body [] plan.slots hinitial rfl rfl rfl
    hnone
  rw [stepValues, h]
  cases plan.body.mapM state.grid <;> rfl

-- A loop has the first of the values that it ends with, and each of its tails has the one that it
-- stands for.
def LoopEnds (state : State) (loop : Nat) (carried : List Grid) : Prop :=
  (∃ guard, carried[0]? = some guard ∧ state.grid loop = .ok guard) ∧
    ∀ tail node index, state.nodes.get? tail = some node → node.kind = .loopTail index →
      node.inputs = [loop] → ∃ grid, carried[index]? = some grid ∧ state.grid tail = .ok grid

-- A loop and all of its tails fail alike.
def LoopFails (state : State) (loop : Nat) (problem : MapError) : Prop :=
  state.grid loop = .error problem ∧
    ∀ tail node index, state.nodes.get? tail = some node → node.kind = .loopTail index →
      node.inputs = [loop] → state.grid tail = .error problem

section Outcomes

variable {loop : Nat} {node : Node}

theorem loopEnds_of_finalValues (hlooped : Looped state)
    (hloop : state.nodes.get? loop = some node) (hkind : node.kind = .loop plan)
    {carried : List Grid} (hlength : carried.length = plan.carried.length)
    (hfinal : state.finalValues state.gridOf loop plan = .ok carried) :
    state.LoopEnds loop carried := by
  obtain ⟨hguard, htails⟩ := grids_of_finalValues hlooped hloop hkind hfinal
  have hguarded := (hlooped.fits hloop hkind).guarded
  refine ⟨?_, fun tail info index htail hindex hinputs => ?_⟩
  · have hget := List.getElem?_eq_getElem (l := carried) (i := 0) (by omega)
    exact ⟨_, hget, hguard.trans (entry_eq_ok.mpr hget)⟩
  · obtain ⟨other, found, otherPlan, hother, hfound, hotherPlan, hbound⟩ :=
      hlooped.consistent.tail_loop htail hindex
    obtain rfl : loop = other := List.singleton_inj.mp (hinputs.symm.trans hother)
    rw [hloop] at hfound
    cases hfound
    rw [hkind] at hotherPlan
    cases hotherPlan
    have hget := List.getElem?_eq_getElem (l := carried) (i := index) (by omega)
    exact ⟨_, hget, (htails tail info index htail hindex hinputs).trans (entry_eq_ok.mpr hget)⟩

theorem loopFails_of_finalValues (hlooped : Looped state)
    (hloop : state.nodes.get? loop = some node) (hkind : node.kind = .loop plan)
    {problem : MapError} (hfinal : state.finalValues state.gridOf loop plan = .error problem) :
    state.LoopFails loop problem :=
  grids_of_finalValues hlooped hloop hkind hfinal

end Outcomes

end State

open State in
-- A loop of a graph follows the recurrence of its plan. Its steps start as the nodes of the first
-- replay. First the initial values are asked for and then the nodes around the loop; the first
-- problem among them is that of the loop and its tails. After that rounds are run. Once no cell of
-- the guard is true, the loop has the first of the carried values and its tails have theirs. When
-- the guard still holds, the loop and its tails fail: with the limit when it is reached, else with
-- the round that does not evaluate.
theorem loop_iterates {state : State} (h : Reachable state) {loop : Nat} {node : Node}
    {plan : LoopPlan} (hloop : state.nodes.get? loop = some node) (hplan : node.kind = .loop plan) :
    (∀ initial, state.initialValues plan = .ok initial →
      state.stepValues plan initial = plan.body.mapM state.grid) ∧
    (∀ problem, state.initialValues plan = .error problem → state.LoopFails loop problem) ∧
    ∀ values : Nat → List Grid, state.initialValues plan = .ok (values 0) →
      (∀ problem, plan.externals.mapM state.grid = .error problem →
        state.LoopFails loop problem) ∧
      ∀ n ≤ state.limit,
        (n = 0 → ∀ outer ∈ plan.externals, ∃ grid, state.grid outer = .ok grid) →
        (∀ i < n, state.nextValues plan (values i) = .ok (values (i + 1))) →
        (∀ i < n, goesOn (values i) = true) →
          (goesOn (values n) = false → state.LoopEnds loop (values n)) ∧
          (goesOn (values n) = true →
            (n = state.limit →
              state.LoopFails loop (.engine (.tooManyIterations loop state.limit))) ∧
            (n < state.limit → ∀ problem, state.nextValues plan (values n) = .error problem →
              state.LoopFails loop problem)) := by
  have hlooped := h.looped
  have hfits := hlooped.fits hloop hplan
  refine ⟨fun initial hinitial => stepValues_initial hlooped hfits hinitial,
    fun problem hinitial => ?_, fun values hinitial => ⟨fun problem hfails => ?_,
      fun n hlimit haround hnext hgoes => ?_⟩⟩
  · refine loopFails_of_finalValues hlooped hloop hplan ?_
    have hinits : plan.carried.mapM (fun value => state.grid value.init) = .error problem :=
      hinitial
    rw [finalValues, gridOf_eq_grid hlooped, hinits]
    rfl
  · refine loopFails_of_finalValues hlooped hloop hplan ?_
    rw [finalValues_eq_rounds hlooped hinitial, externalGrids_eq_error hfails]
    rfl
  · have houter := externals_of_rounds hfits hinitial haround hnext
    refine ⟨fun hends => ?_, fun hmore => ?_⟩
    · obtain ⟨hfinal, hlength⟩ :=
        finalValues_eq_last hlooped hfits loop hinitial houter hlimit hnext hgoes hends
      exact loopEnds_of_finalValues hlooped hloop hplan hlength hfinal
    · have hall : ∀ i ≤ n, goesOn (values i) = true := fun i hi =>
        (Nat.lt_or_eq_of_le hi).elim (hgoes i) fun heq => heq ▸ hmore
      refine ⟨fun hreached => ?_, fun hbelow problem hfails => ?_⟩
      · subst hreached
        exact loopFails_of_finalValues hlooped hloop hplan
          (finalValues_eq_tooMany hlooped loop hinitial houter hnext hall)
      · exact loopFails_of_finalValues hlooped hloop hplan
          (finalValues_eq_failure hlooped loop hinitial houter hbelow hnext hall hfails)

-- Counts from zero to two.
def tallying : State :=
  (State.empty 5 none).afterCalls
    [.construct (.constant (.s32 0) (.single .s32)), .acquire 1,
      .construct (.constant (.s32 2) (.single .s32)), .acquire 2,
      .construct (.constant (.s32 1) (.single .s32)), .acquire 3, .construct (.binary 1 2 .lt),
      .acquire 4, .loopStart, .loopCondition 4, .loopReplay .first,
      .construct (.binary 1 3 .add), .acquire 5, .construct (.binary 5 2 .lt), .acquire 6,
      .loopCondition 6, .loopReplay .second, .construct (.binary 5 3 .add), .acquire 7,
      .construct (.binary 7 2 .lt), .loopAssemble]

def tallyingPlan : LoopPlan :=
  ⟨[5, 6], [[.carried 1, .outer 3], [.step 0, .outer 2]], [⟨4, 1⟩, ⟨1, 0⟩]⟩

-- After two rounds, the loop has a guard that is false, and its second tail has the count.
theorem tally_reaches_two :
    Reachable tallying ∧ ∃ zero one two count, tallying.initialValues tallyingPlan = .ok zero ∧
      tallying.nextValues tallyingPlan zero = .ok one ∧
      tallying.nextValues tallyingPlan one = .ok two ∧ goesOn zero = true ∧ goesOn one = true ∧
      tallying.LoopEnds 9 two ∧ tallying.grid 11 = .ok count ∧
      count.same ⟨.s32, [], #[2]⟩ = true := by
  have hreachable : Reachable tallying := (Reachable.empty 5 none).calls _ (by decide)
  have hruns : ((tallying.initialValues tallyingPlan).toOption.any fun zero =>
      goesOn zero && (tallying.nextValues tallyingPlan zero).toOption.any fun one =>
        goesOn one && (tallying.nextValues tallyingPlan one).toOption.any fun two =>
          !goesOn two && two[1]?.any (·.same ⟨.s32, [], #[2]⟩)) = true := by decide +kernel
  obtain ⟨zero, hzero, hruns⟩ := (Option.any_eq_true _ _).mp hruns
  obtain ⟨hfirst, hruns⟩ := (Bool.and_eq_true _ _).mp hruns
  obtain ⟨one, hone, hruns⟩ := (Option.any_eq_true _ _).mp hruns
  obtain ⟨hsecond, hruns⟩ := (Bool.and_eq_true _ _).mp hruns
  obtain ⟨two, htwo, hruns⟩ := (Option.any_eq_true _ _).mp hruns
  obtain ⟨hends, hcount⟩ := (Bool.and_eq_true _ _).mp hruns
  obtain ⟨count, hget, hsame⟩ := (Option.any_eq_true _ _).mp hcount
  rw [toOption_eq_some] at hzero hone htwo
  let values : Nat → List Grid := fun round =>
    if round = 0 then zero else if round = 1 then one else two
  have hrounds : ∀ i < 2, tallying.nextValues tallyingPlan (values i) = .ok (values (i + 1)) ∧
      goesOn (values i) = true := by
    intro i hi
    obtain rfl | rfl : i = 0 ∨ i = 1 := by omega
    · exact ⟨hone, hfirst⟩
    · exact ⟨htwo, hsecond⟩
  obtain ⟨node, hnode, hplan⟩ : ∃ node, tallying.nodes.get? 9 = some node ∧
      node.kind = .loop tallyingPlan := ⟨_, rfl, rfl⟩
  have hloop := ((loop_iterates hreachable hnode hplan).2.2 values hzero).2 2 (by decide)
    (fun h => absurd h (by decide)) (fun i hi => (hrounds i hi).1) fun i hi => (hrounds i hi).2
  have hfinal := hloop.1 ((Bool.not_eq_true' _).mp hends)
  obtain ⟨found, hfound, htail⟩ := hfinal.2 11 _ 1 rfl rfl rfl
  obtain rfl : count = found := Option.some.inj (hget.symm.trans hfound)
  exact ⟨hreachable, zero, one, two, count, hzero, hone, htwo, hfirst, hsecond, hfinal, htail, hsame⟩

-- A step reads a cell of a value that is handed on twice before it is a smaller grid.
def narrowing : State :=
  (State.empty 5 none).afterCalls
    [.construct (.constant (.bool true) (.single .b8)), .acquire 1,
      .construct (.constant (.s32 5) { Layout.single .s32 with size := .ofExtents [3] }),
      .acquire 2,
      .construct (.constant (.s32 5) { Layout.single .s32 with size := .ofExtents [2] }),
      .acquire 3, .loopStart, .loopCondition 1, .loopReplay .first,
      .construct (.access 2 ⟨2, 0⟩), .acquire 4, .construct (.identity 2), .acquire 5,
      .construct (.identity 3), .acquire 6, .loopCondition 4, .loopReplay .second,
      .construct (.access 5 ⟨2, 0⟩), .acquire 7, .construct (.identity 6), .acquire 8,
      .construct (.identity 3), .acquire 9, .loopAssemble]

def narrowingPlan : LoopPlan :=
  ⟨[4, 5, 6], [[.carried 1], [.carried 2], [.outer 3]], [⟨1, 0⟩, ⟨2, 1⟩, ⟨2, 2⟩]⟩

-- A loop without rounds whose step reads a loop that is given up.
def leaning : State :=
  (State.empty 0 none).afterCalls
    [.construct (.constant (.bool true) (.single .b8)), .acquire 1,
      .construct (.constant (.bool false) (.single .b8)), .acquire 2, .loopStart,
      .loopCondition 1, .loopReplay .first, .construct (.identity 1), .acquire 3,
      .loopCondition 3, .loopReplay .second, .construct (.identity 3), .loopAssemble, .acquire 6,
      .loopEnd, .loopStart, .loopCondition 2, .loopReplay .first, .construct (.binary 2 6 .and),
      .acquire 7, .loopCondition 7, .loopReplay .second, .construct (.binary 7 6 .and),
      .loopAssemble]

def leaningPlan : LoopPlan := ⟨[7], [[.carried 0, .outer 6]], [⟨2, 0⟩]⟩

-- Whether there is no grid, for a reason that is looked for.
def failsFor (reason : MapError → Bool) : Except MapError Grid → Bool
  | .ok _ => false
  | .error problem => reason problem

theorem eq_error_of_failsFor {reason : MapError → Bool} {result : Except MapError Grid}
    {wanted : MapError} (hreason : ∀ {problem}, reason problem = true → problem = wanted)
    (h : failsFor reason result = true) : result = .error wanted := by
  cases result with
  | ok _ => cases h
  | error problem => rw [hreason h]

-- The reason that a cell outside of a grid is read.
def isOutside (indices extents : List Nat) : MapError → Bool
  | .invalidShape (.outside found shape) => found = indices && shape = extents
  | _ => false

theorem eq_of_isOutside {indices extents : List Nat} {problem : MapError}
    (h : isOutside indices extents problem = true) :
    problem = .invalidShape (.outside indices extents) := by
  unfold isOutside at h
  split at h
  · obtain ⟨hindices, hextents⟩ := (Bool.and_eq_true _ _).mp h
    rw [of_decide_eq_true hindices, of_decide_eq_true hextents]
  · cases h

-- The reason that a loop has reached the limit.
def isLimit (loop limit : Nat) : MapError → Bool
  | .engine (.tooManyIterations found rounds) => found = loop && rounds = limit
  | _ => false

theorem eq_of_isLimit {loop limit : Nat} {problem : MapError}
    (h : isLimit loop limit problem = true) :
    problem = .engine (.tooManyIterations loop limit) := by
  unfold isLimit at h
  split at h
  · obtain ⟨hloop, hlimit⟩ := (Bool.and_eq_true _ _).mp h
    rw [of_decide_eq_true hloop, of_decide_eq_true hlimit]
  · cases h

-- Whether a kind is that of a loop with a given plan.
def follows (plan : LoopPlan) : NodeKind → Bool
  | .loop found => found = plan
  | _ => false

theorem eq_of_follows {plan : LoopPlan} {kind : NodeKind} (h : follows plan kind = true) :
    kind = .loop plan := by
  unfold follows at h
  split at h
  · rw [of_decide_eq_true h]
  · cases h

-- The step fails in the third round, and the guard holds until then.
theorem narrowing_rounds :
    ∃ first second third problem, narrowing.initialValues narrowingPlan = .ok first ∧
      narrowing.nextValues narrowingPlan first = .ok second ∧
      narrowing.nextValues narrowingPlan second = .ok third ∧
      narrowing.nextValues narrowingPlan third = .error problem ∧ goesOn first = true ∧
      goesOn second = true ∧ goesOn third = true := by
  have hruns : ((narrowing.initialValues narrowingPlan).toOption.any fun first =>
      goesOn first && (narrowing.nextValues narrowingPlan first).toOption.any fun second =>
        goesOn second && (narrowing.nextValues narrowingPlan second).toOption.any fun third =>
          goesOn third && (narrowing.nextValues narrowingPlan third).toOption.isNone) = true := by
    decide +kernel
  obtain ⟨first, hfirst, hruns⟩ := (Option.any_eq_true _ _).mp hruns
  obtain ⟨hgoes, hruns⟩ := (Bool.and_eq_true _ _).mp hruns
  obtain ⟨second, hsecond, hruns⟩ := (Option.any_eq_true _ _).mp hruns
  obtain ⟨hgoesOn, hruns⟩ := (Bool.and_eq_true _ _).mp hruns
  obtain ⟨third, hthird, hruns⟩ := (Option.any_eq_true _ _).mp hruns
  obtain ⟨hstill, hnone⟩ := (Bool.and_eq_true _ _).mp hruns
  rw [toOption_eq_some] at hfirst hsecond hthird
  cases hfails : narrowing.nextValues narrowingPlan third with
  | ok last =>
      rw [hfails] at hnone
      cases hnone
  | error problem =>
      exact ⟨first, second, third, problem, hfirst, hsecond, hthird, hfails, hgoes, hgoesOn, hstill⟩

-- A loop that does not come to an end can fail without an engine being at fault. A loop that ends
-- at once can fail as well.
theorem loop_fails_with_step :
    (Reachable narrowing ∧
      (∃ node, narrowing.nodes.get? 10 = some node ∧ node.kind = .loop narrowingPlan) ∧
      (∀ (values : Nat → List Grid) (n : Nat),
        narrowing.initialValues narrowingPlan = .ok (values 0) →
        (∀ i < n, narrowing.nextValues narrowingPlan (values i) = .ok (values (i + 1))) →
          goesOn (values n) = true) ∧
      narrowing.grid 10 = .error (.invalidShape (.outside [2] [2]))) ∧
    Reachable leaning ∧ (∃ node, leaning.nodes.get? 9 = some node ∧ node.kind = .loop leaningPlan) ∧
      ∃ initial, leaning.initialValues leaningPlan = .ok initial ∧ goesOn initial = false ∧
        leaning.grid 9 = .error (.engine (.tooManyIterations 5 0)) := by
  refine ⟨⟨(Reachable.empty 5 none).calls _ (by decide +kernel), ⟨_, rfl, rfl⟩,
    fun values n hinitial hnext => ?_, ?_⟩,
    (Reachable.empty 0 none).calls _ (by decide +kernel), ?_, ?_⟩
  · obtain ⟨first, second, third, problem, hfirst, hsecond, hthird, hfails, hgoes, hgoesOn, hstill⟩ :=
      narrowing_rounds
    obtain rfl : first = values 0 := Except.ok.inj (hfirst.symm.trans hinitial)
    cases n with
    | zero => exact hgoes
    | succ n =>
        obtain rfl : second = values 1 :=
          Except.ok.inj (hsecond.symm.trans (hnext 0 (Nat.succ_pos _)))
        cases n with
        | zero => exact hgoesOn
        | succ n =>
            obtain rfl : third = values 2 :=
              Except.ok.inj (hthird.symm.trans (hnext 1 (by omega)))
            cases n with
            | zero => exact hstill
            | succ n => cases hfails.symm.trans (hnext 2 (by omega))
  · have hreads : failsFor (isOutside [2] [2]) (narrowing.grid 10) = true := by decide +kernel
    exact eq_error_of_failsFor eq_of_isOutside hreads
  · have hplan : ((leaning.nodes.get? 9).any fun node => follows leaningPlan node.kind) = true := by
      decide +kernel
    obtain ⟨node, hnode, hfollows⟩ := (Option.any_eq_true _ _).mp hplan
    exact ⟨node, hnode, eq_of_follows hfollows⟩
  · have hends : ((leaning.initialValues leaningPlan).toOption.any fun initial =>
        !goesOn initial) = true := by decide +kernel
    have hlimit : failsFor (isLimit 5 0) (leaning.grid 9) = true := by decide +kernel
    obtain ⟨initial, hinitial, hends⟩ := (Option.any_eq_true _ _).mp hends
    exact ⟨initial, toOption_eq_some.mp hinitial, (Bool.not_eq_true' _).mp hends,
      eq_error_of_failsFor eq_of_isLimit hlimit⟩

end MapAlgebra.Graph
