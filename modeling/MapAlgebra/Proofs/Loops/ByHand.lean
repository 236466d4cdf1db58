import MapAlgebra.Proofs.Loops.Running

namespace MapAlgebra.Loop

open MapAlgebra.Graph

namespace Code

variable (code : Code)

def sources : List Source :=
  code.body.flatMap Instruction.sources ++ (code.condition.flatMap Request.nodes ++ [code.guard])

-- The values of the variables after so many rounds, told from where the first round began.
def worthAfter (start : Scope State Vars) : Nat → String → Value
  | 0 => worth start
  | rounds + 1 => fun name =>
      (code.ends name).value (worthAfter start rounds) (around start)
        (stepValues start.engine.store (worthAfter start rounds) (around start) code.round.steps)

-- The values of the steps in the round after so many others.
def valuesAfter (start : Scope State Vars) (rounds : Nat) : List Value :=
  stepValues start.engine.store (code.worthAfter start rounds) (around start) code.round.steps

-- What a reference is worth in the round after so many others.
def refAfter (start : Scope State Vars) (rounds : Nat) (ref : Ref) : Value :=
  ref.value (code.worthAfter start rounds) (around start) (code.valuesAfter start rounds)

-- The condition after so many rounds. It is asked before the first round and at the end of each.
def guardAfter (start : Scope State Vars) : Nat → Value
  | 0 => (code.guardIn .fresh).valueFrom start (code.asking .fresh).steps
  | rounds + 1 => code.refAfter start rounds code.guardRef

-- Whether another round follows.
def goesAfter (start : Scope State Vars) (rounds : Nat) : Except MapError Bool :=
  (code.guardAfter start rounds).grid.map Grid.anyTrue

end Code

-- A loop that is run by hand: while some cell of the condition is true, the body is run as ordinary
-- building of a graph.
inductive ByHand (code : Code) : Scope State Vars → Nat → Scope State Vars → Prop
  | done {scope after : Scope State Vars} {guard : Raster} {cells : Grid}
      (hcondition : code.runCondition simulator scope = (.ok guard, after))
      (hcells : after.engine.grid guard.address = .ok cells) (hends : cells.anyTrue = false) :
      ByHand code scope 0 { after with engine := simulator.letGo guard after.engine }
  | round {scope middle next last : Scope State Vars} {guard : Raster} {cells : Grid} {rounds : Nat}
      (hcondition : code.runCondition simulator scope = (.ok guard, middle))
      (hcells : middle.engine.grid guard.address = .ok cells) (hgoes : cells.anyTrue = true)
      (hbody : code.runBody simulator
        { middle with engine := simulator.letGo guard middle.engine } = (.ok (), next))
      (hrest : ByHand code next rounds last) : ByHand code scope (rounds + 1) last

-- Asks whether another round is to be run.
def Code.anotherRound (code : Code) (scope : Scope State Vars) : Option (Bool × Scope State Vars) :=
  match code.runCondition simulator scope with
  | (.error _, _) => none
  | (.ok guard, after) =>
      (after.engine.grid guard.address).toOption.map fun cells =>
        (cells.anyTrue, { after with engine := simulator.letGo guard after.engine })

theorem Code.anotherRound_eq_some {code : Code} {scope free : Scope State Vars} {goes : Bool} :
    code.anotherRound scope = some (goes, free) ↔
      ∃ guard after cells, code.runCondition simulator scope = (.ok guard, after) ∧
        after.engine.grid guard.address = .ok cells ∧ cells.anyTrue = goes ∧
        { after with engine := simulator.letGo guard after.engine } = free := by
  rw [Code.anotherRound]
  constructor
  · intro h
    split at h
    · cases h
    · rename_i guard after hcondition
      obtain ⟨cells, hcells, hsame⟩ := Option.map_eq_some_iff.mp h
      obtain ⟨hgoes, hfree⟩ := Prod.mk.inj hsame
      exact ⟨guard, after, cells, hcondition, toOption_eq_some.mp hcells, hgoes, hfree⟩
  · rintro ⟨guard, after, cells, hcondition, hcells, rfl, rfl⟩
    simp only [hcondition, toOption_eq_some.mpr hcells, Option.map_some]

-- Runs a loop by hand for less than so many rounds, and counts them.
def Code.byHand (code : Code) : Nat → Scope State Vars → Option (Nat × Scope State Vars)
  | 0, _ => none
  | fuel + 1, scope =>
      match code.anotherRound scope with
      | none => none
      | some (false, free) => some (0, free)
      | some (true, free) =>
          match code.runBody simulator free with
          | (.error _, _) => none
          | (.ok (), next) => (code.byHand fuel next).map fun run => (run.1 + 1, run.2)

theorem Code.byHand_eq_some {code : Code} {fuel rounds : Nat} {scope last : Scope State Vars} :
    code.byHand fuel scope = some (rounds, last) ↔
      rounds < fuel ∧ ByHand code scope rounds last := by
  constructor
  · intro h
    induction fuel generalizing rounds scope with
    | zero => cases h
    | succ fuel ih =>
        rw [Code.byHand] at h
        split at h
        · cases h
        · rename_i free hends
          obtain ⟨_, _, _, hcondition, hcells, hnone, rfl⟩ := anotherRound_eq_some.mp hends
          cases h
          exact ⟨Nat.succ_pos fuel, .done hcondition hcells hnone⟩
        · rename_i free hgoes
          obtain ⟨_, _, _, hcondition, hcells, htrue, rfl⟩ := anotherRound_eq_some.mp hgoes
          split at h
          · cases h
          · rename_i next hbody
            obtain ⟨⟨more, _⟩, hmore, hsame⟩ := Option.map_eq_some_iff.mp h
            cases hsame
            obtain ⟨hless, hrest⟩ := ih hmore
            exact ⟨Nat.succ_lt_succ hless, .round hcondition hcells htrue hbody hrest⟩
  · rintro ⟨hless, h⟩
    induction h generalizing fuel with
    | done hcondition hcells hends =>
        obtain ⟨fuel, rfl⟩ := Nat.exists_eq_succ_of_ne_zero (Nat.ne_zero_of_lt hless)
        rw [Code.byHand, anotherRound_eq_some.mpr ⟨_, _, _, hcondition, hcells, hends, rfl⟩]
    | round hcondition hcells hgoes hbody _ ih =>
        obtain ⟨fuel, rfl⟩ := Nat.exists_eq_succ_of_ne_zero (Nat.ne_zero_of_lt hless)
        rw [Code.byHand, anotherRound_eq_some.mpr ⟨_, _, _, hcondition, hcells, hgoes, rfl⟩]
        simp only [hbody, ih (Nat.lt_of_succ_lt_succ hless), Option.map_some]

theorem stepsOf_length_pos (next : Nat) (request : Request Ref) :
    0 < (stepsOf next request).length := by
  unfold stepsOf
  split
  · split
    · exact Nat.succ_pos _
    · split <;> exact Nat.succ_pos _
  · exact Nat.succ_pos _

-- Calls leave the variables alone and add steps, and they return what they have added.
theorem foldl_calls (requests : List (Request Source)) (outline : Outline) :
    let asked := (requests.map Instruction.call).foldl Outline.extend outline
    asked.vars = outline.vars ∧ (∃ more, asked.steps = outline.steps ++ more) ∧
      ∀ step ∈ asked.results, step ∈ outline.results ∨ outline.steps.length ≤ step := by
  induction requests generalizing outline with
  | nil => exact ⟨rfl, ⟨[], (List.append_nil _).symm⟩, fun _ => Or.inl⟩
  | cons request requests ih =>
      obtain ⟨hvars, ⟨more, hsteps⟩, hresults⟩ := ih (outline.extend (.call request))
      have hpositive := stepsOf_length_pos outline.steps.length
        (request.map (Source.resolve outline.vars outline.results))
      refine ⟨hvars, ⟨_, by rw [List.map_cons, List.foldl_cons, hsteps, Outline.extend,
        List.append_assoc]⟩, fun step hstep => ?_⟩
      obtain hstep | hstep := hresults step hstep
      · obtain hstep | hstep := List.mem_append.mp hstep
        · exact Or.inl hstep
        · have hlast := List.mem_singleton.mp hstep
          exact Or.inr (by omega)
      · have hlength : (outline.extend (.call request)).steps.length = _ := List.length_append
        exact Or.inr (by omega)

namespace Code

variable (code : Code) (outline : Outline)

theorem asking_vars : (code.asking outline).vars = outline.vars := (foldl_calls _ _).1

theorem asking_steps : ∃ more, (code.asking outline).steps = outline.steps ++ more :=
  (foldl_calls _ _).2.1

theorem asking_results : ∀ step ∈ (code.asking outline).results,
    step ∈ outline.results ∨ outline.steps.length ≤ step := (foldl_calls _ _).2.2

end Code

theorem valueOf_null (state : State) : state.valueOf Address.null = missing := rfl

-- Letting go of nothing and of what is held by nothing.
theorem Traced.ready {outer : Tally} {begun now : Scope State Vars}
    {outline : Outline} (h : Traced outer begun outline [] now)
    (hready : Ready outer begun) : Ready outer now where
  looped := h.builds.looped hready.looped
  nonneg := hready.nonneg
  backs := by
    have hsum : now.vars.held + resultsHeld [] + outer = now.vars.held + outer := by
      show now.vars.held + 0 + outer = _
      rw [add_zero]
    exact hsum ▸ h.backs

theorem nodeOf_of_denotes {begun now : Scope State Vars} {name : String} {ref : Ref}
    (h : ref.Denotes begun (now.vars.slots.find? name)) :
    now.vars.nodeOf name = ref.address begun := by
  cases ref with
  | start other =>
      have hsame : now.vars.slots.find? name = begun.vars.slots.find? other := h
      rw [Ref.address, Vars.nodeOf, Vars.nodeOf, hsame]
  | _ =>
      obtain ⟨raster, hfind, hnode⟩ := h
      rw [Vars.nodeOf, hfind]
      show raster.node.getD Address.null = _
      rw [hnode]
      rfl

-- The variables are worth what they refer to.
theorem Traced.worth_eq {outer : Tally} {begun now : Scope State Vars}
    {outline : Outline} (h : Traced outer begun outline [] now)
    (hready : Ready outer begun) (name : String) :
    worth now name = (outline.vars name).valueFrom begun outline.steps := by
  have hnode := nodeOf_of_denotes (h.vars name)
  obtain hnull | hlive := (h.ready hready).live_start name
  · rw [worth, hnull, valueOf_null]
    rw [hnode] at hnull
    cases href : outline.vars name with
    | start other =>
        rw [href] at hnull
        show missing = begun.engine.valueOf (begun.vars.nodeOf other)
        rw [show begun.vars.nodeOf other = Address.null from hnull, valueOf_null]
    | step index =>
        rw [href] at hnull
        have hpositive := hready.looped.consistent.counted.numbered.next
        have hzero : begun.engine.nextId + index = 0 := hnull
        omega
    | outside raster =>
        rw [href] at hnull
        show missing = begun.engine.valueOf raster.address
        rw [show raster.address = Address.null from hnull, valueOf_null]
    | absent => rfl
  · rw [hnode] at hlive
    rw [worth, hnode]
    exact h.value_of hready (h.known name) hlive

-- Straight-line code that runs to its end follows its outline.
theorem Traced.body {code : Code} {outer : Tally} {begun after : Scope State Vars}
    (hready : Ready outer begun) (hholds : Holds outer code.sources)
    (hrun : code.runBody simulator begun = (.ok (), after)) :
    Traced outer begun code.inner [] after := by
  obtain ⟨results, now, hall, hend⟩ := run_bind_eq_ok.mp hrun
  have hhere : Holds outer (code.body.flatMap Instruction.sources) :=
    fun raster hraster => hholds raster (List.mem_append_left _ hraster)
  cases hend
  exact ((Traced.fresh hready).runAll hready hhere hall).letGo

-- Calls alone change nothing but the engine.
theorem runAll_calls {σ : Type} {engine : Engine σ} {requests : List (Request Source)}
    {results more : List Raster} {scope after : Scope σ Vars}
    (h : runAll engine (requests.map .call) results scope = (.ok more, after)) :
    ∃ state, after = { scope with engine := state } := by
  induction requests generalizing results scope with
  | nil =>
      cases h
      exact ⟨_, rfl⟩
  | cons request requests ih =>
      obtain ⟨_, middle, hfirst, hrest⟩ := run_bind_eq_ok.mp h
      obtain ⟨_, _, state, _, rfl, _⟩ := Instruction.run_call (onFailure_eq_ok hfirst)
      obtain ⟨last, hlast⟩ := ih hrest
      exact ⟨last, hlast⟩

-- What asking for the condition leaves: a handle on the node that the guard refers to.
structure Asked (code : Code) (outer : Tally) (begun : Scope State Vars) (outline : Outline)
    (raster : Raster) (after : Scope State Vars) : Prop where
  traced : Traced outer begun (code.asking outline).closed [] after
  backs : Backs after.engine (after.vars.held + outer + raster.held)
  denotes : (code.guardIn outline).Denotes begun (some (.node raster))
  known : (code.guardIn outline).Scoped outer (code.asking outline).steps.length
  proper : raster.node ≠ none

theorem runCondition_eq_ok {σ : Type} {engine : Engine σ} {code : Code}
    {scope after : Scope σ Vars} {raster : Raster}
    (h : code.runCondition engine scope = (.ok raster, after)) :
    ∃ results middle node,
      runAll engine (code.condition.map .call) [] scope = (.ok results, middle) ∧
      code.guard.node middle.vars results = .ok node ∧ raster.node = some node ∧
      after = letGoResults engine results
        { middle with engine := engine.acquire node middle.engine } := by
  obtain ⟨results, middle, hall, hguards⟩ := run_bind_eq_ok.mp h
  obtain ⟨found, last, hguard, hend⟩ := run_bind_eq_ok.mp hguards
  obtain ⟨_, _, hget, hnodes⟩ := run_bind_eq_ok.mp (onFailure_eq_ok hguard)
  cases hget
  obtain ⟨node, _, hlift, hwraps⟩ := run_bind_eq_ok.mp hnodes
  obtain ⟨hnode, rfl⟩ := run_lift_eq_ok.mp hlift
  obtain ⟨_, hwrap, rfl⟩ := onEngine_eq_ok hwraps
  obtain ⟨hraster, rfl⟩ := Engine.wrap_eq_ok hwrap
  cases hend
  exact ⟨results, _, node, hall, hnode, hraster, rfl⟩

theorem Traced.condition {code : Code} {outer : Tally} {begun now after : Scope State Vars}
    {outline : Outline} {raster : Raster}
    (h : Traced outer begun outline [] now) (hready : Ready outer begun)
    (hholds : Holds outer code.sources)
    (hrun : code.runCondition simulator now = (.ok raster, after)) :
    (∃ state, after = { now with engine := state }) ∧
      Asked code outer begun outline raster after := by
  have hcalls : Holds outer ((code.condition.map Instruction.call).flatMap Instruction.sources) := by
    intro raster hraster
    obtain ⟨instruction, hinstruction, hsource⟩ := List.mem_flatMap.mp hraster
    obtain ⟨request, hrequest, rfl⟩ := List.mem_map.mp hinstruction
    exact hholds raster (List.mem_append_right _ (List.mem_append_left _
      (List.mem_flatMap.mpr ⟨request, hrequest, hsource⟩)))
  obtain ⟨results, middle, node, hall, hnode, hraster, rfl⟩ := runCondition_eq_ok hrun
  obtain ⟨state, hsame⟩ := runAll_calls hall
  have htraced : Traced outer begun (code.asking outline) results middle :=
    h.runAll hready hcalls hall
  have hthere : code.guard.isAbsent = false := by
    cases hsource : code.guard with
    | absent =>
        rw [hsource] at hnode
        cases hnode
        exact absurd hraster raster.proper
    | _ => rfl
  obtain ⟨other, hother, hdenotes, hknown, hlive⟩ := htraced.reads hready hnode hthere
    fun raster hsource => hholds raster (List.mem_append_right _ (List.mem_append_right _
      (List.mem_singleton.mpr hsource.symm)))
  obtain rfl : other = raster := Raster.eq_of_node (hother.trans hraster.symm)
  have hheld : Backs (results.foldl (fun state raster => simulator.letGo raster state)
      (middle.engine.acquire node)) (middle.vars.held + outer + other.held) := by
    refine backs_results ?_
    have hsum : middle.vars.held + outer + other.held + resultsHeld results =
        middle.vars.held + resultsHeld results + outer + Tally.one node := by
      rw [Raster.held_of_node hother]
      abel
    exact hsum ▸ htraced.backs.acquire hlive
  have hless : middle.vars.held + resultsHeld [] + outer ≤
      middle.vars.held + outer + other.held := by
    show middle.vars.held + 0 + outer ≤ _
    rw [add_zero]
    exact le_add_of_nonneg_right other.held_nonneg
  refine ⟨⟨_, by rw [hsame]; rfl⟩, ?_, hheld, hdenotes, hknown, by rw [hother]; nofun⟩
  exact htraced.handled ((Handled.acquire middle.engine node).trans (letGo_results results _))
    .nil (hheld.mono hless)

namespace Asked

variable {code : Code} {outer : Tally} {begun after : Scope State Vars} {outline : Outline}
  {raster : Raster}

theorem live (h : Asked code outer begun outline raster after) (hready : Ready outer begun) :
    after.engine.nodes.contains raster.address = true := by
  obtain ⟨node, hnode⟩ := Option.ne_none_iff_exists'.mp h.proper
  have hvars := after.vars.slots.held_nonneg node
  have hnonneg := hready.nonneg node
  have haddress : raster.address = node := by
    rw [Raster.address, hnode]
    rfl
  rw [haddress]
  refine h.backs.live ?_
  simp only [Pi.add_apply, Pi.zero_apply, Vars.held, Raster.held_of_node hnode,
    Tally.one_self] at hvars hnonneg ⊢
  omega

theorem live_node (h : Asked code outer begun outline raster after) (hready : Ready outer begun)
    {node : Address} (hnode : raster.node = some node) :
    after.engine.nodes.contains node = true := by
  have hlive := h.live hready
  rwa [Raster.address, hnode] at hlive

-- The condition is worth what the outline says.
theorem value_eq (h : Asked code outer begun outline raster after) (hready : Ready outer begun) :
    after.engine.valueOf raster.address =
      (code.guardIn outline).valueFrom begun (code.asking outline).steps := by
  obtain ⟨node, hnode⟩ := Option.ne_none_iff_exists'.mp h.proper
  have haddress : raster.address = (code.guardIn outline).address begun := by
    rw [(Ref.address_of_denotes h.denotes hnode).1, Raster.address, hnode]
    rfl
  have hlive := h.live hready
  rw [haddress] at hlive ⊢
  exact h.traced.value_of hready h.known hlive

end Asked

-- Asking for the condition builds on what the body left.
theorem Ready.asks {code : Code} {outer : Tally} {worked now : Scope State Vars} {next : Raster}
    (h : Ready outer worked) (hholds : Holds outer code.sources)
    (hcondition : code.runCondition simulator worked = (.ok next, now)) :
    Builds worked.engine now.engine ∧ now.vars = worked.vars := by
  have hfresh : Traced outer worked .fresh [] worked := Traced.fresh h
  obtain ⟨⟨state, hsame⟩, hasked⟩ := hfresh.condition h hholds hcondition
  exact ⟨hasked.traced.builds, by rw [hsame]⟩

-- A scope in which so many rounds have been run by hand.
structure Stage (code : Code) (outer : Tally) (start : Scope State Vars) (rounds : Nat)
    (scope : Scope State Vars) : Prop where
  ready : Ready outer scope
  worth : ∀ name, worth scope name = code.worthAfter start rounds name
  around : ∀ raster, (∀ node, raster.node = some node → 0 < outer node) →
    around scope raster = around start raster
  store : scope.engine.store = start.engine.store

namespace Stage

variable {code : Code} {outer : Tally} {start scope after : Scope State Vars} {rounds : Nat}

theorem begin (h : Ready outer start) : Stage code outer start 0 start :=
  ⟨h, fun _ => rfl, fun _ _ => rfl, rfl⟩

theorem around_eq (h : Stage code outer start rounds scope)
    (hbuilds : Builds scope.engine after.engine) (hready : Ready outer after) {raster : Raster}
    (hraster : ∀ node, raster.node = some node → 0 < outer node) :
    Loop.around after raster = Loop.around start raster := by
  rw [← h.around raster hraster, Loop.around, Loop.around]
  cases hsome : raster.node with
  | none =>
      have hnull : raster.address = Address.null := by
        rw [Raster.address, hsome]
        rfl
      rw [hnull, valueOf_null, valueOf_null]
  | some node =>
      have haddress : raster.address = node := by
        rw [Raster.address, hsome]
        rfl
      rw [haddress]
      have hheld := hraster node hsome
      exact hbuilds.valueOf_live h.ready.looped (h.ready.live_outside hheld)
        (hready.live_outside hheld)

-- What happens between rounds leaves the variables and what they are worth.
theorem builds (h : Stage code outer start rounds scope)
    (hbuilds : Builds scope.engine after.engine) (hvars : after.vars.slots = scope.vars.slots)
    (hbacks : Backs after.engine (after.vars.held + outer)) :
    Stage code outer start rounds after := by
  have hready : Ready outer after := ⟨hbuilds.looped h.ready.looped, h.ready.nonneg, hbacks⟩
  have hnode : ∀ name, after.vars.nodeOf name = scope.vars.nodeOf name := by
    intro name
    rw [Vars.nodeOf, Vars.nodeOf, hvars]
  refine ⟨hready, fun name => ?_, fun raster hraster => h.around_eq hbuilds hready hraster,
    hbuilds.store.trans h.store⟩
  rw [← h.worth name, Loop.worth, Loop.worth, hnode]
  obtain hnull | hafter := hready.live_start name
  · rw [← hnode, hnull, valueOf_null, valueOf_null]
  · rw [hnode] at hafter
    exact hbuilds.valueOf_eq h.ready.looped hafter (h.ready.nodeOf_lt name)

-- What an outline is worth from here, told from where the first round began.
theorem values_eq (h : Stage code outer start rounds scope) {outline : Outline}
    {results : List Raster} (htraced : Traced outer scope outline results after) :
    valuesFrom scope outline.steps =
      stepValues start.engine.store (code.worthAfter start rounds) (Loop.around start)
        outline.steps := by
  have hworth : Loop.worth scope = code.worthAfter start rounds := funext h.worth
  rw [valuesFrom, h.store, hworth]
  refine stepValues_congr _ _ _ fun request hrequest raster hmember => h.around raster ?_
  obtain ⟨index, hindex⟩ := List.getElem?_of_mem hrequest
  exact (htraced.made hindex).known _ hmember

-- A reference is worth the same from here and from where the first round began.
theorem value_eq (h : Stage code outer start rounds scope) {outline : Outline}
    {results : List Raster} (htraced : Traced outer scope outline results after) {ref : Ref}
    (hknown : ref.Scoped outer outline.steps.length) :
    ref.valueFrom scope outline.steps = ref.value (code.worthAfter start rounds)
      (Loop.around start) (stepValues start.engine.store (code.worthAfter start rounds)
        (Loop.around start) outline.steps) := by
  rw [Ref.valueFrom, h.values_eq htraced]
  cases ref with
  | start name => exact h.worth name
  | outside raster => exact h.around raster hknown
  | _ => rfl

-- Running the body is the next round.
theorem next (h : Stage code outer start rounds scope)
    (htraced : Traced outer scope code.inner [] after) :
    Stage code outer start (rounds + 1) after := by
  have hready := htraced.ready h.ready
  refine ⟨hready, fun name => ?_, fun raster hraster => h.around_eq htraced.builds hready hraster,
    htraced.builds.store.trans h.store⟩
  have hknown := htraced.known name
  obtain ⟨more, hsteps⟩ : ∃ more, code.round.steps = code.inner.steps ++ more :=
    code.asking_steps code.inner
  obtain ⟨values, hvalues⟩ := stepValues_append start.engine.store (code.worthAfter start rounds)
    (Loop.around start) code.inner.steps more
  rw [htraced.worth_eq h.ready name, h.value_eq htraced hknown, Code.worthAfter, hsteps, hvalues]
  have hscoped : (code.ends name).Scoped outer (stepValues start.engine.store
      (code.worthAfter start rounds) (Loop.around start) code.inner.steps).length := by
    rw [length_stepValues]
    exact hknown
  exact (Ref.value_append _ _ hscoped values).symm

-- Asking for the condition between rounds changes nothing.
theorem asked (h : Stage code outer start rounds scope) (hholds : Holds outer code.sources)
    {raster : Raster} (hrun : code.runCondition simulator scope = (.ok raster, after)) :
    Stage code outer start rounds { after with engine := simulator.letGo raster after.engine } := by
  have hfresh : Traced outer scope Outline.fresh [] scope :=
    Traced.fresh h.ready
  obtain ⟨⟨state, hsame⟩, hasked⟩ := hfresh.condition h.ready hholds hrun
  have hslots : after.vars.slots = scope.vars.slots := by rw [hsame]
  exact h.builds (hasked.traced.builds.trans (Handled.letGo raster after.engine).toBuilds)
    hslots hasked.backs.letGo

end Stage

section Guards

variable {code : Code} {outer : Tally} {start begun now after last : Scope State Vars}
  {guard : Raster} {cells : Grid} {rounds : Nat}

theorem goesAfter_eq (h : Looped after.engine)
    (hvalue : after.engine.valueOf guard.address = code.guardAfter start rounds)
    (hcells : after.engine.grid guard.address = .ok cells) :
    code.goesAfter start rounds = .ok cells.anyTrue := by
  have hguard : (code.guardAfter start rounds).grid = .ok cells := by
    rw [← hvalue]
    exact (congrFun (State.gridOf_eq_grid h) _).trans hcells
  rw [Code.goesAfter, hguard]
  rfl

-- The condition before the first round.
theorem Ready.goes (h : Ready outer start) (hholds : Holds outer code.sources)
    (hcondition : code.runCondition simulator start = (.ok guard, after))
    (hcells : after.engine.grid guard.address = .ok cells) :
    code.goesAfter start 0 = .ok cells.anyTrue := by
  have hfresh : Traced outer start Outline.fresh [] start :=
    Traced.fresh h
  have hasked := (hfresh.condition h hholds hcondition).2
  exact goesAfter_eq (hasked.traced.builds.looped h.looped) (hasked.value_eq h) hcells

-- The condition after a round.
theorem Stage.guard_eq (h : Stage code outer start rounds begun)
    (hasked : Asked code outer begun code.inner guard after) :
    after.engine.valueOf guard.address = code.guardAfter start (rounds + 1) := by
  rw [hasked.value_eq h.ready]
  exact h.value_eq hasked.traced hasked.known

theorem Stage.goes (h : Stage code outer start rounds begun)
    (htraced : Traced outer begun code.inner [] now)
    (hholds : Holds outer code.sources)
    (hcondition : code.runCondition simulator now = (.ok guard, after))
    (hcells : after.engine.grid guard.address = .ok cells) :
    code.goesAfter start (rounds + 1) = .ok cells.anyTrue := by
  have hasked := (htraced.condition h.ready hholds hcondition).2
  exact goesAfter_eq (hasked.traced.builds.looped h.ready.looped) (h.guard_eq hasked) hcells

-- Once the body has been run, each further round is one more, and the condition after it says
-- whether another one follows.
theorem ByHand.onward {more : Nat} (hloop : ByHand code now more last)
    (h : Stage code outer start rounds begun)
    (htraced : Traced outer begun code.inner [] now)
    (hholds : Holds outer code.sources) :
    Stage code outer start (rounds + 1 + more) last ∧
      (∀ round < more, code.goesAfter start (rounds + 1 + round) = .ok true) ∧
      code.goesAfter start (rounds + 1 + more) = .ok false := by
  induction hloop generalizing rounds begun with
  | done hcondition hcells hends =>
      have hgoes := h.goes htraced hholds hcondition hcells
      rw [hends] at hgoes
      exact ⟨(h.next htraced).asked hholds hcondition,
        fun _ hround => absurd hround (Nat.not_lt_zero _), hgoes⟩
  | @round _ middle next _ guard cells more hcondition hcells hgoes hbody _ ih =>
      have hfirst := h.goes htraced hholds hcondition hcells
      rw [hgoes] at hfirst
      have hmiddle := (h.next htraced).asked hholds hcondition
      obtain ⟨hlast, hwhile, hend⟩ := ih hmiddle (Traced.body hmiddle.ready hholds hbody)
      have hcount : rounds + 1 + (more + 1) = rounds + 1 + 1 + more := by omega
      rw [hcount]
      refine ⟨hlast, fun round hround => ?_, hend⟩
      cases round with
      | zero => exact hfirst
      | succ round =>
          have hshift : rounds + 1 + (round + 1) = rounds + 1 + 1 + round := by omega
          rw [hshift]
          exact hwhile round (by omega)

-- Running a loop by hand goes through its rounds.
theorem ByHand.rounds_eq (hloop : ByHand code start rounds last) (hready : Ready outer start)
    (hholds : Holds outer code.sources) :
    Stage code outer start rounds last ∧
      (∀ round < rounds, code.goesAfter start round = .ok true) ∧
      code.goesAfter start rounds = .ok false := by
  cases hloop with
  | done hcondition hcells hends =>
      have hgoes := hready.goes hholds hcondition hcells
      rw [hends] at hgoes
      exact ⟨(Stage.begin hready).asked hholds hcondition,
        fun _ hround => absurd hround (Nat.not_lt_zero _), hgoes⟩
  | @round _ middle next _ guard cells more hcondition hcells hgoes hbody hrest =>
      have hfirst := hready.goes hholds hcondition hcells
      rw [hgoes] at hfirst
      have hbegin : Stage code outer start 0 start := Stage.begin hready
      have hmiddle := hbegin.asked hholds hcondition
      obtain ⟨hlast, hwhile, hend⟩ :=
        hrest.onward hmiddle (Traced.body hmiddle.ready hholds hbody) hholds
      have hcount : 0 + 1 + more = more + 1 := by omega
      rw [hcount] at hlast hend
      refine ⟨hlast, fun round hround => ?_, hend⟩
      cases round with
      | zero => exact hfirst
      | succ round =>
          have hshift : 0 + 1 + round = round + 1 := by omega
          rw [← hshift]
          exact hwhile round (by omega)

end Guards

end MapAlgebra.Loop
