import MapAlgebra.Proofs.Loops.Closing

namespace MapAlgebra.Loop

open MapAlgebra.Graph

section Runs

variable {code : Code} {opened recorded start after : Scope State Vars} {loop : Raster}

-- The parts of a recording that succeeds: both replays with their conditions, and the end.
theorem record_eq_ok (h : record simulator (code.ask simulator) (code.runBody simulator)
    simulator.followAssigned opened = (.ok loop, recorded)) :
    ∃ worked next now again reworked last ended assembled gathered carried,
      code.runBody simulator opened = (.ok (), worked) ∧
      code.runCondition simulator worked = (.ok next, now) ∧
      Lowering.again simulator next now = (.ok (), again) ∧
      code.runBody simulator { again with engine := simulator.letGo next again.engine } =
        (.ok (), reworked) ∧
      code.runCondition simulator reworked = (.ok last, ended) ∧
      Lowering.assemble simulator { ended with engine := simulator.letGo last ended.engine } =
        (.ok loop, assembled) ∧
      Lowering.carried simulator loop assembled = (.ok carried, gathered) ∧
      recorded = { gathered with
        vars := (simulator.followAssigned carried gathered.vars gathered.engine).1
        engine := simulator.letGoCarried carried
          (simulator.followAssigned carried gathered.vars gathered.engine).2 } := by
  obtain ⟨_, worked, hbody, h⟩ := run_bind_eq_ok.mp h
  obtain ⟨next, now, hnext, h⟩ := run_bind_eq_ok.mp h
  obtain ⟨_, rebegun, hagain, h⟩ := run_bind_eq_ok.mp h
  obtain ⟨_, reworked, hrebody, h⟩ := run_bind_eq_ok.mp h
  obtain ⟨last, ended, hlast, h⟩ := run_bind_eq_ok.mp h
  obtain ⟨_, _, hletGo, h⟩ := run_bind_eq_ok.mp h
  cases hletGo
  obtain ⟨found, assembled, hassemble, h⟩ := run_bind_eq_ok.mp h
  obtain ⟨carried, gathered, hcarried, h⟩ := run_bind_eq_ok.mp (onFailure_eq_ok h)
  obtain ⟨_, _, hmove, h⟩ := run_bind_eq_ok.mp h
  obtain ⟨_, _, hdrop, h⟩ := run_bind_eq_ok.mp h
  cases hmove
  cases hdrop
  cases h
  rw [guardNode_ask] at hnext hlast
  rcases hreplay : Lowering.again simulator next now with ⟨result, again⟩
  simp only [afterwards, hreplay] at hagain
  cases hagain
  exact ⟨worked, next, now, again, reworked, last, ended, assembled, gathered, carried, hbody, hnext,
    hreplay, hrebody, hlast, hassemble, hcarried, rfl⟩

-- A loop that is lowered is opened, recorded and closed.
theorem whileLoop_eq_ok (h : whileLoop simulator (code.ask simulator) (code.runBody simulator) start =
    (.ok (some loop), after)) :
    ∃ guard asked opened recorded,
      code.runCondition simulator start = (.ok guard, asked) ∧
      Lowering.start simulator guard { asked with vars := asked.vars.clearAssigned } =
        (.ok (), opened) ∧
      record simulator (code.ask simulator) (code.runBody simulator) simulator.followAssigned opened =
        (.ok loop, recorded) ∧
      after = ⟨simulator.letGo guard recorded.engine.endLoop, false, recorded.vars⟩ := by
  obtain ⟨found, asked, hask, h⟩ := run_bind_eq_ok.mp h
  obtain ⟨guard, _, hcondition, hreturn⟩ := run_bind_eq_ok.mp hask
  cases hreturn
  dsimp only [afterwards] at h
  rcases hwithin : (do
      modify fun scope : Scope State Vars => { scope with vars := scope.vars.clearAssigned }
      return some (← recordWithin simulator (Lowering.start simulator guard) (code.ask simulator)
        (code.runBody simulator) simulator.followAssigned) : Act State Vars (Option Raster)) asked
    with ⟨result, closed⟩
  rw [hwithin] at h
  cases h
  obtain ⟨_, _, hclear, hwithin⟩ := run_bind_eq_ok.mp hwithin
  cases hclear
  obtain ⟨found, closed, hrecord, hreturn⟩ := run_bind_eq_ok.mp hwithin
  cases hreturn
  obtain ⟨_, opened, hstart, hrecord⟩ := run_bind_eq_ok.mp hrecord
  obtain ⟨loop, recorded, hrecorded, hend⟩ := run_bind_eq_ok.mp hrecord
  obtain ⟨_, _, hfinish, hend⟩ := run_bind_eq_ok.mp hend
  have hfinish := onFailure_eq_ok hfinish
  cases hfinish
  cases hend
  exact ⟨guard, asked, opened, recorded, hcondition, hstart, onFailure_eq_ok hrecorded, rfl⟩

-- A loop is opened while no other one is.
theorem start_closed {guard : Raster} {scope : Scope State Vars}
    (h : Lowering.start simulator guard scope = (.ok (), opened)) :
    scope.lowering = false ∧ scope.engine.recorder.phase = .idle := by
  have hclosed : scope.lowering = false := by
    by_contra hopen
    rw [Lowering.start_nested guard (Bool.eq_true_of_not_eq_false hopen)] at h
    cases h
  refine ⟨hclosed, ?_⟩
  rw [Lowering.start_eq guard hclosed] at h
  split at h
  · cases h
  · split at h
    · cases h
    · rename_i state hstart
      have hrun : atomically_ (fun state => do
          return { state with recorder := ← state.recorder.start }) scope.engine = (.ok (), state) :=
        hstart
      by_contra hactive
      have hfails : scope.engine.recorder.start = .error (.malformedLoop .alreadyStarted) :=
        if_pos (decide_eq_true hactive)
      simp only [atomically_, atomically, hfails, bind, Except.bind, Except.map] at hrun
      cases hrun

end Runs

section Replaying

variable {code : Code} {outer more : Tally} {start begun worked now : Scope State Vars}
  {next : Raster} {ref : Ref} {count rounds : Nat}

theorem Ready.less (h : Ready (outer + more) begun) (houter : 0 ≤ outer) (hmore : 0 ≤ more) :
    Ready outer begun :=
  ⟨h.looped, houter, h.backs.mono (add_le_add_right (le_add_of_nonneg_right hmore) _)⟩

theorem Holds.mono {sources : List Source} (h : Holds outer sources) (hle : outer ≤ more) :
    Holds more sources := fun raster hraster node hnode =>
  Tally.pos_of_le hle (h raster hraster node hnode)

-- Only a step is read under the number of a step.
theorem Ready.step_of_address (h : Ready outer begun) (hknown : ref.Scoped outer count) {index : Nat}
    (haddress : ref.address begun = begun.engine.nextId + index) : ref = .step index := by
  by_cases hstep : ∃ other, ref = .step other
  · obtain ⟨other, rfl⟩ := hstep
    exact congrArg Ref.step (Nat.add_left_cancel haddress)
  · have hlt := h.address_lt hknown fun other hsame => hstep ⟨other, hsame⟩
    rw [haddress] at hlt
    exact absurd hlt (Nat.not_lt.mpr (Nat.le_add_right _ _))

end Replaying

section Opening

variable {code : Code} {outer : Tally} {start asked opened : Scope State Vars} {guard : Raster}

-- What a loop is opened with: its condition is held, and it is worth what it was.
theorem opened_eq_ok (hready : Ready outer start) (hholds : Holds outer code.sources)
    (hcondition : code.runCondition simulator start = (.ok guard, asked))
    (hstart : Lowering.start simulator guard { asked with vars := asked.vars.clearAssigned } =
      (.ok (), opened)) :
    Stage code outer start 0 opened ∧ opened.vars.slots = start.vars.slots ∧
      Builds start.engine opened.engine ∧ Ready (outer + guard.held) opened ∧
      ∃ initial, opened.engine.recorder = recording .firstReplay [initial] [] [] ∧
        opened.engine.valueOf initial = code.guardAfter start 0 := by
  obtain ⟨hlowering, hphase⟩ := start_closed hstart
  have hfresh : Traced outer start Outline.fresh [] start :=
    Traced.fresh hready
  obtain ⟨⟨state, hsame⟩, hasked⟩ := hfresh.condition hready hholds hcondition
  obtain ⟨node, hnode⟩ := Option.ne_none_iff_exists'.mp hasked.proper
  have haddress : guard.address = node := by
    rw [Raster.address, hnode]
    rfl
  have hlooped := hasked.traced.builds.looped hready.looped
  have hlive := hasked.live hready
  rw [haddress] at hlive
  have hcleared : Looped
      ({ asked with vars := asked.vars.clearAssigned } : Scope State Vars).engine := hlooped
  obtain ⟨held, hopen, hbuilds, hrecorder, hbacks⟩ :=
    Loop.start_eq hcleared hnode hlive hlowering (hlooped.consistent.idle hphase)
  cases hopen.symm.trans hstart
  have hslots : asked.vars.slots = start.vars.slots := by rw [hsame]
  have hheld : Backs held (asked.vars.clearAssigned.held + (outer + guard.held)) := by
    rw [← add_assoc]
    exact hbacks _ hasked.backs
  have hmore : Ready (outer + guard.held)
      { engine := held, lowering := true, vars := asked.vars.clearAssigned } :=
    ⟨hbuilds.looped hlooped, add_nonneg hready.nonneg guard.held_nonneg, hheld⟩
  have hbegin : Stage code outer start 0 start := .begin hready
  refine ⟨hbegin.builds (hasked.traced.builds.trans hbuilds) hslots
    (hmore.less hready.nonneg guard.held_nonneg).backs, hslots, hasked.traced.builds.trans hbuilds,
    hmore, node, hrecorder, ?_⟩
  have hstill : held.nodes.contains node = true := by
    refine (hbuilds.looped hlooped).consistent.counted.hold_live node ?_
    rw [hrecorder]
    exact List.mem_cons_self
  rw [hbuilds.valueOf_live hlooped hlive hstill, ← haddress]
  exact hasked.value_eq hready

end Opening

-- What stands under a node of the second replay holds the tail of the step that the node is.
def LeadsTo (before made : State) (loop : Address) (tail : Nat × Nat) (pair : Address × Raster) :
    Prop :=
  ∃ goal, pair.2.node = some goal ∧
    PairOf before.recorder.second made.nodes loop tail (pair.1, goal)

-- A loop that was lowered: where both replays of its code began and ended, the graph that they left
-- and the one that the loop was placed in, and the variables that moved on to its tails.
structure Lowered (code : Code) (outer : Tally) (start after : Scope State Vars) where
  (begun now rebegun ended : Scope State Vars)
  (before made : State)
  (initial : Address)
  (feed : Nat)
  (plan : LoopPlan)
  (loop : Address)
  (carried : Carried)
  opened : Stage code outer start 0 begun
  slots : begun.vars.slots = start.vars.slots
  built : Builds start.engine begun.engine
  inner : ∀ name, (code.ends name).Scoped outer code.inner.steps.length
  older : initial < begun.engine.nextId
  asked : begun.engine.valueOf initial = code.guardAfter start 0
  replayed : Replayed code outer begun now rebegun ended before
  reached : Stage code outer start 2 { ended with engine := before }
  guard : code.guardRef = .step feed
  recorder : before.recorder = recording .secondReplay [initial, begun.engine.nextId + feed]
    (List.range' begun.engine.nextId code.round.steps.length)
    (List.range' rebegun.engine.nextId code.round.steps.length)
  planned : before.recorder.plan before.nodes = .ok plan
  placed : Placed before plan loop made
  pairs : List.Forall₂ (LeadsTo before made loop) plan.tails carried.pairs
  moved : MovedOn carried ended.vars.assigned ended.vars after.vars
  ready : Ready outer after
  changes : Changes before made
  later : Changes made after.engine

section Recording

variable {code : Code} {outer more : Tally} {start opened recorded : Scope State Vars} {loop : Raster}

variable {ended assembled gathered : Scope State Vars} {carried : Carried}

theorem assemble_carried_eq_ok
    (hassemble : Lowering.assemble simulator ended = (.ok loop, assembled))
    (hcarried : Lowering.carried simulator loop assembled = (.ok carried, gathered)) :
    ∃ address made pairs last, simulator.loopAssemble ended.engine = (.ok address, made) ∧
      loop.node = some address ∧ made.pairsOf address = .ok pairs ∧
      Lowering.wrapPairs simulator (pairs.before.zip pairs.after) (made.acquire address) =
        (.ok carried.pairs, last) ∧
      gathered = { ended with engine := last } := by
  obtain ⟨address, _, hmade, hwraps⟩ := run_bind_eq_ok.mp hassemble
  obtain ⟨made, hloop, rfl⟩ := onEngine_eq_ok hmade
  obtain ⟨_, hwrap, rfl⟩ := onEngine_eq_ok hwraps
  obtain ⟨hnode, rfl⟩ := Engine.wrap_eq_ok hwrap
  obtain ⟨pairs, _, hasks, hcarried⟩ := run_bind_eq_ok.mp hcarried
  obtain ⟨rasters, _, hwraps, hreturn⟩ := run_bind_eq_ok.mp hcarried
  cases hreturn
  obtain ⟨_, hask, rfl⟩ := onEngine_eq_ok hasks
  obtain ⟨last, hwrapped, rfl⟩ := onEngine_eq_ok hwraps
  rw [Raster.ask, Raster.require, hnode] at hask
  have hasked : (State.pairsOf (made.acquire address) address, made.acquire address) = _ := hask
  obtain ⟨hpairs, rfl⟩ := Prod.mk.inj hasked
  exact ⟨address, made, pairs, last, hloop, hnode, hpairs, hwrapped, rfl⟩

-- A loop that is put together is held, and so are its tails once its pairs are handed out.
theorem assembled_eq_ok (hlooped : Looped ended.engine) {tally : Tally}
    (hbacks : Backs ended.engine tally)
    (hassemble : Lowering.assemble simulator ended = (.ok loop, assembled))
    (hcarried : Lowering.carried simulator loop assembled = (.ok carried, gathered)) :
    gathered.vars = ended.vars ∧ ∃ plan address made,
      ended.engine.recorder.plan ended.engine.nodes = .ok plan ∧
      Placed ended.engine plan address made ∧ Changes ended.engine made ∧
      Handled made gathered.engine ∧
      Backs gathered.engine (carried.held + (tally + loop.held)) ∧
      List.Forall₂ (LeadsTo ended.engine made address) plan.tails carried.pairs := by
  obtain ⟨address, made, found, last, hloop, hnode, hfound, hwrapped, rfl⟩ :=
    assemble_carried_eq_ok hassemble hcarried
  have hnumbered := hlooped.consistent.counted.numbered
  have hchanges : Changes ended.engine made := by
    have hcall := Changes.call .loopAssemble hnumbered nofun
    rwa [Call.after, hloop] at hcall
  obtain ⟨plan, hplan, hplaced⟩ := State.assemble_eq_ok hnumbered hloop
  obtain ⟨pairs, hpairs, hrelated, -⟩ := hplaced.pairs
  obtain ⟨node, hplace, -⟩ := hplaced.node
  cases hpairs.symm.trans hfound
  have hzip : (pairs.map Prod.fst).zip (pairs.map Prod.snd) = pairs := (List.zip_of_prod rfl rfl).symm
  rw [hzip] at hwrapped
  have hheld : Backs (made.acquire address) (tally + loop.held) := by
    rw [Raster.held_of_node hnode]
    exact (hplaced.backs hbacks).acquire ((Table.contains_iff _ _).mpr ⟨node, hplace⟩)
  have htails : ∀ pair ∈ pairs, (made.acquire address).nodes.contains pair.2 = true := by
    intro pair hpair
    obtain ⟨_, _, hpairOf⟩ := related_of_mem hrelated.flip hpair
    obtain ⟨tail, htail, -⟩ := hpairOf.after
    exact contains_acquire ((Table.contains_iff _ _).mpr ⟨tail, htail⟩) address
  obtain ⟨hhandled, hgathered, hwraps⟩ := wrapPairs_eq_ok hwrapped htails hheld
  refine ⟨rfl, plan, address, made, hplan, hplaced, hchanges,
    (Handled.acquire made address).trans hhandled, hgathered, ?_⟩
  refine List.forall₂_iff_get.mpr ⟨hrelated.length_eq.trans hwraps.length_eq, fun index htail hpair => ?_⟩
  have hmiddle : index < pairs.length := hrelated.length_eq ▸ htail
  obtain ⟨hkey, hgoal⟩ := hwraps.get hmiddle hpair
  refine ⟨_, hgoal, ?_⟩
  rw [hkey]
  exact hrelated.get htail hmiddle

-- The turn from the first replay to the second one: the condition is held and let go.
theorem again_eq_ok {now again : Scope State Vars} {next : Raster} {node initial : Nat}
    {first : List Nat} (hlooped : Looped now.engine) (hnode : next.node = some node)
    (hlive : now.engine.nodes.contains node = true)
    (hrecorder : now.engine.recorder = recording .firstReplay [initial] first [])
    (hagain : Lowering.again simulator next now = (.ok (), again)) :
    Reopened [initial, node] first next now
      { again with engine := simulator.letGo next again.engine } := by
  obtain ⟨state, hturn, hreopened⟩ := again_eq hlooped hnode hlive hrecorder
  cases hturn.symm.trans hagain
  exact hreopened

-- The condition that comes out of the first replay is one of its steps.
theorem guard_of_planned {begun now : Scope State Vars} {next : Raster} {initial node : Nat}
    {first second : List Nat} {nodes : Table Node} {plan : LoopPlan} (hready : Ready outer begun)
    (hasked : Asked code outer begun code.inner next now) (hnode : next.node = some node)
    (hfirst : first = List.range' begun.engine.nextId code.round.steps.length)
    (hplanned : Recorder.Planned (recording .secondReplay [initial, node] first second) nodes plan) :
    ∃ feed, node = begun.engine.nextId + feed ∧ code.guardRef = .step feed := by
  obtain ⟨_, _, feed, hconditions, hfeed, -⟩ := hplanned.guard
  cases hconditions
  have hget : first[feed]? = some node := Recorder.getElem?_of_idxOf? hfeed
  rw [hfirst] at hget
  obtain ⟨_, hsame⟩ := getElem?_replayed.mp hget
  refine ⟨feed, hsame.symm, hready.step_of_address hasked.known ?_⟩
  rw [(Ref.address_of_denotes hasked.denotes hnode).1, hsame]

-- The assigned variables move on, and then only the variables hold on to the tails.
theorem followed_eq {vars : Vars} {state : State} {tally : Tally} (hwrapped : carried.Wrapped)
    (htally : 0 ≤ tally) (hbacks : Backs state (carried.held + (vars.held + tally))) :
    let followed := simulator.followAssigned carried vars state
    MovedOn carried vars.assigned vars followed.1 ∧
      Handled state (simulator.letGoCarried carried followed.2) ∧
      Backs (simulator.letGoCarried carried followed.2) (followed.1.held + tally) := by
  have hheld : Backs state (vars.held + (carried.held + tally)) := by
    rwa [add_left_comm] at hbacks
  obtain ⟨hmoves, hmoved⟩ := followAssigned_backs htally hheld
  rw [add_left_comm] at hmoved
  obtain ⟨hdrops, hdropped⟩ := letGoCarried_backs hmoved
  exact ⟨(rebindAssigned_moves hwrapped vars state).2, hmoves.trans hdrops, hdropped⟩

-- Once both replays have been recorded, the loop is put together and the assigned variables move on.
theorem record_lowered {initial : Address} (hopened : Stage code outer start 0 opened)
    (hmore : 0 ≤ more) (hready : Ready (outer + more) opened) (hholds : Holds outer code.sources)
    (hslots : opened.vars.slots = start.vars.slots) (hbuilds : Builds start.engine opened.engine)
    (hrecorder : opened.engine.recorder = recording .firstReplay [initial] [] [])
    (hasked : opened.engine.valueOf initial = code.guardAfter start 0)
    (hrun : record simulator (code.ask simulator) (code.runBody simulator) simulator.followAssigned
      opened = (.ok loop, recorded)) :
    Nonempty (Lowered code outer start recorded) ∧
      Backs recorded.engine (recorded.vars.held + (outer + more)) := by
  obtain ⟨worked, next, now, again, reworked, last, ended, assembled, gathered, carried, hbody, hnext,
    hagain, hrebody, hlast, hassemble, hcarried, rfl⟩ := record_eq_ok hrun
  have hholdsMore : Holds (outer + more) code.sources :=
    hholds.mono (le_add_of_nonneg_right hmore)
  have hfirst := hopened.ready.replay hholds hbody hnext
  have hfirstMore := hready.replay hholdsMore hbody hnext
  obtain ⟨node, hnode⟩ := Option.ne_none_iff_exists'.mp hfirst.proper
  have hlooped := hfirst.traced.builds.looped hready.looped
  have hreopened := again_eq_ok hlooped hnode (hfirst.live_node hopened.ready hnode)
    (hfirst.recorded hrecorder) hagain
  generalize ({ again with engine := simulator.letGo next again.engine } : Scope State Vars) =
    rebegun at hrebody hreopened
  -- the second replay
  have hworked := hopened.next (Traced.body hopened.ready hholds hbody)
  obtain ⟨hasks, hkept⟩ := hworked.ready.asks hholds hnext
  have hagain := hreopened.ready hopened.ready hfirst
  have hstage : Stage code outer start 1 rebegun :=
    hworked.builds (hasks.trans hreopened.builds) (by rw [hreopened.vars, hkept]) hagain.backs
  have hsecond := hagain.replay hholds hrebody hlast
  have hsecondMore := (hreopened.ready hready hfirstMore).replay hholdsMore hrebody hlast
  have hreached := (hstage.next (Traced.body hagain hholds hrebody)).asked hholds hlast
  have hreplayed := hreopened.replayed hopened.ready hfirst hsecond
  have hfinal := hreopened.recorded hsecond
  -- the end
  obtain ⟨hgathered, plan, address, made, hplan, hplaced, hchanges, hhandled, hheld, hpairs⟩ :=
    assembled_eq_ok hreached.ready.looped hsecondMore.backs.letGo hassemble hcarried
  have hplanned := hfinal ▸ Recorder.plan_eq_ok hplan
  obtain ⟨feed, rfl, hguard⟩ := guard_of_planned hopened.ready hfirst hnode rfl hplanned
  have hheld : Backs gathered.engine
      (carried.held + (gathered.vars.held + (outer + more + loop.held))) := by
    rw [hgathered, ← add_assoc _ _ loop.held]
    exact hheld
  obtain ⟨hmoved, hfollowed, hbacks⟩ := followed_eq (carried_wrapped hcarried)
    (add_nonneg hready.nonneg loop.held_nonneg) hheld
  rw [← add_assoc] at hbacks
  have hbacks := hbacks.mono (le_add_of_nonneg_right loop.held_nonneg)
  have hlater := hhandled.trans hfollowed
  have hlooped := (hreached.ready.looped.changes hchanges).changes hlater.changes
  refine ⟨⟨?_⟩, hbacks⟩
  exact
    { begun := opened
      now, rebegun, ended, made, initial, feed, plan, carried
      before := simulator.letGo last ended.engine
      loop := address
      opened := hopened
      slots := hslots
      built := hbuilds
      inner := (Traced.body hopened.ready hholds hbody).known
      older := by
        have hcounted := hopened.ready.looped.consistent.counted
        refine hcounted.numbered.lt_next (hcounted.hold_live initial ?_)
        rw [hrecorder]
        exact List.mem_cons_self
      asked := hasked
      replayed := hreplayed
      reached := hreached
      guard := hguard
      recorder := hfinal
      planned := hplan
      placed := hplaced
      pairs := hpairs
      moved := hgathered ▸ hmoved
      ready := Ready.less ⟨hlooped, hready.nonneg, hbacks⟩ hopened.ready.nonneg hmore
      changes := hchanges
      later := hlater.changes }

-- A loop that the client is given was lowered.
theorem whileLoop_lowered {after : Scope State Vars} (hready : Ready outer start)
    (hholds : Holds outer code.sources)
    (hrun : whileLoop simulator (code.ask simulator) (code.runBody simulator) start =
      (.ok (some loop), after)) : Nonempty (Lowered code outer start after) := by
  obtain ⟨guard, asked, opened, recorded, hcondition, hstart, hrecord, rfl⟩ := whileLoop_eq_ok hrun
  obtain ⟨hopened, hslots, hbuilds, hmore, initial, hrecorder, hasked⟩ :=
    opened_eq_ok hready hholds hcondition hstart
  obtain ⟨⟨lowered⟩, hbacks⟩ := record_lowered hopened guard.held_nonneg hmore hholds hslots hbuilds
    hrecorder hasked hrecord
  rw [← add_assoc] at hbacks
  have hchanges : Changes recorded.engine (simulator.letGo guard recorded.engine.endLoop) :=
    Relation.ReflTransGen.head (.finish _) (Handled.letGo guard _).changes
  exact ⟨{ lowered with
    moved := lowered.moved
    ready := ⟨lowered.ready.looped.changes hchanges, hready.nonneg, hbacks.endLoop.letGo⟩
    later := lowered.later.trans hchanges }⟩

end Recording

end MapAlgebra.Loop
