import MapAlgebra.Proofs.Graph.Reported

namespace MapAlgebra

-- The number of axes that a dimension stands for.
def Dimension.axes? : Dimension → Option Nat
  | .zero => some 0
  | .one => some 1
  | .two => some 2
  | .three => some 3
  | .unknown | .time => none

namespace Grid

theorem shape_of_ofCells {dtype : DataType} {shape : List Nat} {cells : Array Float} {grid : Grid}
    (h : ofCells dtype shape cells = .ok grid) : grid.shape = shape := by
  unfold ofCells at h
  split at h
  · cases h
    rfl
  · cases h

theorem shape_of_tabulate {dtype : DataType} {shape : List Nat} {f : Nat → Except MapError Float}
    {grid : Grid} (h : tabulate dtype shape f = .ok grid) : grid.shape = shape := by
  obtain ⟨_, _, h⟩ := bind_eq_ok.mp h
  exact shape_of_ofCells h

theorem shape_of_focal {source grid : Grid} {weights : Weights} {reduction : Option ReductionOp}
    {dtype : DataType} (h : source.focal weights reduction dtype = .ok grid) :
    grid.shape = source.shape := by
  unfold focal at h
  split at h
  · obtain ⟨_, _, h⟩ := bind_eq_ok.mp h
    exact shape_of_ofCells h
  · cases h

theorem shape_of_radial {source grid : Grid} {op : ReductionOp} {origin : Coord} {dtype : DataType}
    (h : source.radial op origin dtype = .ok grid) : grid.shape = source.shape := by
  unfold radial radialBy at h
  split at h
  · obtain ⟨_, _, h⟩ := bind_eq_ok.mp h
    exact shape_of_ofCells h
  · cases h

theorem shape_of_blocks {source grid : Grid} {op : ReductionOp} {block : Shape} {shape : List Nat}
    {dtype : DataType} (h : source.blocks op block shape dtype = .ok grid) : grid.shape = shape := by
  obtain ⟨_, _, h⟩ := bind_eq_ok.mp h
  exact shape_of_ofCells h

end Grid

namespace Graph

theorem mem_of_input {inputs : List Grid} {index : Nat} {grid : Grid}
    (h : input inputs index = .ok grid) : grid ∈ inputs := by
  unfold input at h
  split at h
  · cases h
    exact List.mem_of_getElem? (by assumption)
  · cases h

-- The result of an operation has the extents that were noted or those of an input, unless it was
-- read.
theorem shape_of_apply {kind : NodeKind} {info : Meta} {inputs : List Grid} {grid : Grid}
    (h : kind.apply info inputs = .ok grid) :
    grid.shape = info.shape ∨ (∃ source ∈ inputs, grid.shape = source.shape) ∨
      ∃ resource, kind = .read resource grid := by
  cases kind with
  | constant value =>
      cases h
      exact Or.inl rfl
  | index axis => exact Or.inl (Grid.shape_of_tabulate h)
  | rand =>
      obtain ⟨_, _, h⟩ := bind_eq_ok.mp h
      exact Or.inl (Grid.shape_of_tabulate h)
  | cast =>
      obtain ⟨source, hsource, h⟩ := bind_eq_ok.mp h
      cases h
      exact Or.inr (Or.inl ⟨source, mem_of_input hsource, rfl⟩)
  | unary op =>
      obtain ⟨_, _, h⟩ := bind_eq_ok.mp h
      exact Or.inl (Grid.shape_of_tabulate h)
  | binary op =>
      obtain ⟨_, _, h⟩ := bind_eq_ok.mp h
      obtain ⟨_, _, h⟩ := bind_eq_ok.mp h
      exact Or.inl (Grid.shape_of_tabulate h)
  | conditional =>
      obtain ⟨_, _, h⟩ := bind_eq_ok.mp h
      obtain ⟨_, _, h⟩ := bind_eq_ok.mp h
      obtain ⟨_, _, h⟩ := bind_eq_ok.mp h
      exact Or.inl (Grid.shape_of_tabulate h)
  | access position =>
      obtain ⟨_, _, h⟩ := bind_eq_ok.mp h
      obtain ⟨_, _, h⟩ := bind_eq_ok.mp h
      cases h
      exact Or.inl rfl
  | update position =>
      obtain ⟨source, hsource, h⟩ := bind_eq_ok.mp h
      obtain ⟨value, _, h⟩ := bind_eq_ok.mp h
      obtain ⟨_, _, h⟩ := bind_eq_ok.mp h
      split at h
      · split at h
        · obtain ⟨_, _, h⟩ := bind_eq_ok.mp h
          cases h
          exact Or.inr (Or.inl ⟨source, mem_of_input hsource, rfl⟩)
        · cases h
      · cases h
  | neighbor offset =>
      obtain ⟨_, _, h⟩ := bind_eq_ok.mp h
      exact Or.inl (Grid.shape_of_tabulate h)
  | boundedNeighbor =>
      obtain ⟨_, _, h⟩ := bind_eq_ok.mp h
      obtain ⟨_, _, h⟩ := bind_eq_ok.mp h
      obtain ⟨_, _, h⟩ := bind_eq_ok.mp h
      exact Or.inl (Grid.shape_of_tabulate h)
  | convolution weights =>
      obtain ⟨source, hsource, h⟩ := bind_eq_ok.mp h
      exact Or.inr (Or.inl ⟨source, mem_of_input hsource, Grid.shape_of_focal h⟩)
  | focal weights op =>
      obtain ⟨source, hsource, h⟩ := bind_eq_ok.mp h
      exact Or.inr (Or.inl ⟨source, mem_of_input hsource, Grid.shape_of_focal h⟩)
  | zonal op =>
      obtain ⟨_, _, h⟩ := bind_eq_ok.mp h
      cases h
      exact Or.inl rfl
  | radial op origin =>
      obtain ⟨source, hsource, h⟩ := bind_eq_ok.mp h
      exact Or.inr (Or.inl ⟨source, mem_of_input hsource, Grid.shape_of_radial h⟩)
  | blockStats op =>
      obtain ⟨_, _, h⟩ := bind_eq_ok.mp h
      exact Or.inl (Grid.shape_of_blocks h)
  | stats => exact Or.inr (Or.inl ⟨grid, mem_of_input h, rfl⟩)
  | barrier => exact Or.inr (Or.inl ⟨grid, mem_of_input h, rfl⟩)
  | identity => exact Or.inr (Or.inl ⟨grid, mem_of_input h, rfl⟩)
  | read resource found =>
      cases h
      exact Or.inr (Or.inr ⟨resource, rfl⟩)
  | loop plan => cases h
  | loopTail index => cases h

-- The graphs that calls can lead to when what they bring along is reportable.
inductive Surveyed : State → Prop
  | empty (limit : Nat) (directory : Option Directory) : Surveyed (.empty limit directory)
  | call {state : State} (call : Call) (h : Surveyed state)
      (hnodes : ∀ node ∈ call.nodes, node = Address.null ∨ state.nodes.contains node = true)
      (hmeasured : isMeasuredCall state.store call = true) : Surveyed (call.after simulator state)
  | restock {state : State} (store : Store) (h : Surveyed state) : Surveyed { state with store }

-- Whether what a row of calls brings along is reportable.
def State.measures (state : State) : List Call → Bool
  | [] => true
  | call :: calls =>
      isMeasuredCall state.store call && (call.after simulator state).measures calls

namespace Surveyed

variable {state : State}

theorem reachable (h : Surveyed state) : Reachable state := by
  induction h with
  | empty limit directory => exact .empty limit directory
  | call call _ hnodes _ ih => exact ih.call call hnodes
  | restock store _ ih => exact ih.restock store

theorem reported (h : Surveyed state) : Reported state := by
  induction h with
  | empty limit directory => exact fun _ _ hnode => nomatch hnode
  | call call h hnodes hmeasured ih => exact ih.call h.reachable.consistent hnodes hmeasured
  | restock store _ ih => exact ih

theorem calls (h : Surveyed state) (calls : List Call) (hcalls : state.admits calls = true)
    (hmeasures : state.measures calls = true) : Surveyed (state.afterCalls calls) := by
  induction calls generalizing state with
  | nil => exact h
  | cons call calls ih =>
      rw [State.admits, Bool.and_eq_true, List.all_eq_true] at hcalls
      rw [State.measures, Bool.and_eq_true] at hmeasures
      refine ih (h.call call (fun node hnode => ?_) hmeasures.1) hcalls.2 hmeasures.2
      simpa using hcalls.1 node hnode

end Surveyed

-- A grid whose positions have no more entries than a coordinate.
def Flat (grid : Grid) : Prop := grid.shape.length ≤ maxRank

theorem Flat.of_shape {grid : Grid} {shape : List Nat} (hshape : grid.shape = shape)
    (h : shape.length ≤ maxRank) : Flat grid := by
  rw [Flat, hshape]
  exact h

namespace State

variable {state : State} {plan : LoopPlan}

-- The carried values that the rounds of a loop can start with.
inductive Carried (state : State) (plan : LoopPlan) : List Grid → Prop
  | initial {carried : List Grid} (h : state.initialValues plan = .ok carried) :
      Carried state plan carried
  | next {carried next : List Grid} (h : Carried state plan carried)
      (hnext : state.nextValues plan carried = .ok next) : Carried state plan next

-- The grids that an evaluation hands to the operation of a node: those of its inputs, or in a round
-- of a loop what its slots read after the steps before it.
inductive Handed (state : State) (node : Node) : List Grid → Prop
  | inputs {id : Nat} {grids : List Grid} (hnode : state.nodes.get? id = some node)
      (hgrids : node.inputs.mapM state.grid = .ok grids) : Handed state node grids
  | slots {plan : LoopPlan} {loop id : Nat} {owner : Node} {carried steps grids : List Grid}
      {slots : List Slot} {before after : List (Nat × List Slot)} (hloop : state.nodes.get? loop = some owner)
      (hkind : owner.kind = .loop plan) (hnode : state.nodes.get? id = some node)
      (hcarried : Carried state plan carried)
      (hsplit : plan.body.zip plan.slots = before ++ (id, slots) :: after)
      (hsteps : state.stepValuesFrom carried [] before = .ok steps)
      (hgrids : slots.mapM (state.slotValue carried steps) = .ok grids) : Handed state node grids

theorem flat_of_apply (hreported : Reported state) (hformed : Formed state) {id : Nat} {node : Node}
    (hnode : state.nodes.get? id = some node) {inputs : List Grid} {grid : Grid}
    (hinputs : ∀ input ∈ inputs, Flat input) (h : node.kind.apply node.info inputs = .ok grid) :
    Flat grid := by
  have hrank := (hreported id node hnode).rank
  obtain hshape | ⟨source, hsource, hshape⟩ | ⟨resource, hkind⟩ := shape_of_apply h
  · exact .of_shape hshape hrank
  · exact .of_shape hshape (hinputs source hsource)
  · cases hformed.noted hnode with
    | plain _ _ htyped =>
        rw [hkind] at htyped
        cases htyped with
        | read _ hshape => exact .of_shape hshape hrank
    | loop hloop _ _ _ =>
        rw [hloop] at hkind
        cases hkind
    | tail htail _ _ _ _ _ _ =>
        rw [htail] at hkind
        cases hkind

theorem flat_of_slots {carried steps grids : List Grid} {slots : List Slot}
    (houter : ∀ node, Slot.outer node ∈ slots → ∀ grid, state.grid node = .ok grid → Flat grid)
    (hcarried : ∀ grid ∈ carried, Flat grid) (hsteps : ∀ grid ∈ steps, Flat grid)
    (h : slots.mapM (state.slotValue carried steps) = .ok grids) : ∀ grid ∈ grids, Flat grid := by
  intro grid hgrid
  obtain ⟨slot, hslot, hvalue⟩ := related_of_mem (mapM_eq_ok.mp h).flip hgrid
  cases slot with
  | step index => exact hsteps grid (List.mem_of_getElem? (entry_eq_ok.mp hvalue))
  | carried index => exact hcarried grid (List.mem_of_getElem? (entry_eq_ok.mp hvalue))
  | outer node => exact houter node hslot grid hvalue

-- The steps of a round are flat if what they read is.
theorem flat_of_steps (hreported : Reported state) (hformed : Formed state)
    {carried steps results : List Grid} {rest : List (Nat × List Slot)}
    (houter : ∀ step ∈ rest, ∀ node, Slot.outer node ∈ step.2 →
      ∀ grid, state.grid node = .ok grid → Flat grid)
    (hcarried : ∀ grid ∈ carried, Flat grid) (hsteps : ∀ grid ∈ steps, Flat grid)
    (h : state.stepValuesFrom carried steps rest = .ok results) : ∀ grid ∈ results, Flat grid := by
  induction rest generalizing steps with
  | nil =>
      cases h
      exact hsteps
  | cons step rest ih =>
      obtain ⟨id, slots⟩ := step
      obtain ⟨hfirst, hrest⟩ := List.forall_mem_cons.mp houter
      rw [stepValuesFrom] at h
      obtain ⟨node, hnode, h⟩ := bind_eq_ok.mp h
      obtain ⟨inputs, hinputs, h⟩ := bind_eq_ok.mp h
      obtain ⟨grid, hgrid, h⟩ := bind_eq_ok.mp h
      have hinputsFlat := flat_of_slots hfirst hcarried hsteps hinputs
      have hflat := flat_of_apply hreported hformed (find_eq_ok hnode).2 hinputsFlat hgrid
      refine ih hrest (fun other hother => ?_) h
      obtain hother | hother := List.mem_append.mp hother
      · exact hsteps other hother
      · rw [List.mem_singleton.mp hother]
        exact hflat

-- So are the carried values after a round.
theorem flat_of_round (hreported : Reported state) (hformed : Formed state)
    {carried next : List Grid}
    (houter : ∀ node ∈ plan.externals, ∀ grid, state.grid node = .ok grid → Flat grid)
    (hcarried : ∀ grid ∈ carried, Flat grid) (h : state.nextValues plan carried = .ok next) :
    ∀ grid ∈ next, Flat grid := by
  obtain ⟨steps, hsteps, hnext⟩ := bind_eq_ok.mp h
  have hflat := flat_of_steps hreported hformed (fun step hstep node hnode =>
    houter node <| (plan.mem_externals node).mpr <|
      Or.inr ⟨step.2, (List.of_mem_zip hstep).2, hnode⟩) hcarried (List.forall_mem_nil _) hsteps
  intro grid hgrid
  obtain ⟨value, _, hvalue⟩ := related_of_mem (mapM_eq_ok.mp hnext).flip hgrid
  exact hflat grid (List.mem_of_getElem? (entry_eq_ok.mp hvalue))

theorem flat_of_rounds (hreported : Reported state) (hformed : Formed state)
    {externals : Table Grid} (hsupplied : ∀ node ∈ plan.externals, Supplies state externals node)
    (houter : ∀ node ∈ plan.externals, ∀ grid, state.grid node = .ok grid → Flat grid)
    {loop remaining : Nat} {carried results : List Grid} (hcarried : ∀ grid ∈ carried, Flat grid)
    (h : state.runRounds loop plan externals remaining carried = .ok results) :
    ∀ grid ∈ results, Flat grid := by
  induction remaining generalizing carried with
  | zero =>
      obtain ⟨guard, _, h⟩ := bind_eq_ok.mp h
      split at h
      · cases h
      · cases h
        exact hcarried
  | succ remaining ih =>
      obtain ⟨guard, _, h⟩ := bind_eq_ok.mp h
      split at h
      · obtain ⟨next, hnext, h⟩ := bind_eq_ok.mp h
        rw [runRound_eq_nextValues carried hsupplied] at hnext
        exact ih (flat_of_round hreported hformed houter hcarried hnext) h
      · cases h
        exact hcarried

theorem flat_of_finalValues (hlooped : Looped state) (hreported : Reported state)
    (hformed : Formed state) {loop : Nat} {results : List Grid}
    (houter : ∀ node ∈ plan.externals, ∀ grid, state.grid node = .ok grid → Flat grid)
    (h : state.finalValues state.gridOf loop plan = .ok results) : ∀ grid ∈ results, Flat grid := by
  rw [gridOf_eq_grid hlooped] at h
  obtain ⟨inits, hinits, h⟩ := bind_eq_ok.mp h
  obtain ⟨entries, hentries, h⟩ := bind_eq_ok.mp h
  refine flat_of_rounds hreported hformed (supplies_externals hentries) houter (fun grid hgrid => ?_) h
  obtain ⟨value, hvalue, hinit⟩ := related_of_mem (mapM_eq_ok.mp hinits).flip hgrid
  exact houter value.init ((plan.mem_externals _).mpr (Or.inl ⟨value, hvalue, rfl⟩)) grid hinit

-- Whatever a node evaluates to is flat.
theorem flat_of_grid (hlooped : Looped state) (hreported : Reported state) (hformed : Formed state)
    {id : Nat} {grid : Grid} (h : state.grid id = .ok grid) : Flat grid := by
  have hconsistent := hlooped.consistent
  have hfounded := hconsistent.founded
  have hnumbered := hconsistent.counted.numbered
  rw [← gridOf_eq_grid hlooped] at h
  induction id using Nat.strongRecOn generalizing grid with
  | ind id ih =>
      have hfinal : ∀ {loop : Nat} {info : Node} {plan : LoopPlan} {results : List Grid}, loop ≤ id →
          state.nodes.get? loop = some info → info.kind = .loop plan →
          state.finalValues state.gridOf loop plan = .ok results → ∀ grid ∈ results, Flat grid := by
        intro loop info plan results hle hloop hkind hresults
        refine flat_of_finalValues hlooped hreported hformed (fun node hnode grid hgrid => ?_) hresults
        have hlt := hfounded.external_lt hloop hkind node hnode
        rw [← gridOf_eq_grid hlooped] at hgrid
        exact ih node (by omega) hgrid
      have hcomputed := h
      rw [gridOf_eq hfounded, gridFrom] at hcomputed
      obtain ⟨node, hfind, hcomputed⟩ := bind_eq_ok.mp hcomputed
      have hnode := (find_eq_ok hfind).2
      cases hformed.noted hnode with
      | plain hplain _ _ =>
          rw [nodeGrid_plain hplain] at hcomputed
          obtain ⟨grids, hgrids, happly⟩ := bind_eq_ok.mp hcomputed
          refine flat_of_apply hreported hformed hnode (fun input hinput => ?_) happly
          obtain ⟨source, hsource, hvalue⟩ := related_of_mem (mapM_eq_ok.mp hgrids).flip hinput
          exact ih source (hfounded.input_lt hnode source hsource) hvalue
      | @loop plan value guard hkind _ _ _ =>
          simp only [nodeGrid, hkind] at hcomputed
          obtain ⟨results, hresults, hentry⟩ := bind_eq_ok.mp hcomputed
          exact hfinal (Nat.le_refl id) hnode hkind hresults grid
            (List.mem_of_getElem? (entry_eq_ok.mp hentry))
      | @tail loop plan value index loopId step hkind hinputs hloop hplan _ _ _ =>
          have hlt := hfounded.input_lt hnode loopId (by rw [hinputs]; exact List.mem_singleton_self _)
          have hfound := find_eq hnumbered hloop
          simp only [nodeGrid, hkind, hinputs, entry, List.getElem?_cons_zero, bind, Except.bind,
            hfound, hplan] at hcomputed
          obtain ⟨results, hresults, hentry⟩ := bind_eq_ok.mp hcomputed
          exact hfinal (Nat.le_of_lt hlt) hloop hplan hresults grid
            (List.mem_of_getElem? (entry_eq_ok.mp hentry))

theorem flat_of_carried (hlooped : Looped state) (hreported : Reported state)
    (hformed : Formed state) {carried : List Grid} (h : Carried state plan carried) :
    ∀ grid ∈ carried, Flat grid := by
  induction h with
  | initial h =>
      intro grid hgrid
      obtain ⟨value, _, hvalue⟩ := related_of_mem (mapM_eq_ok.mp h).flip hgrid
      exact flat_of_grid hlooped hreported hformed hvalue
  | next _ hnext ih =>
      exact flat_of_round hreported hformed
        (fun _ _ _ hgrid => flat_of_grid hlooped hreported hformed hgrid) ih hnext

theorem flat_of_handed (hlooped : Looped state) (hreported : Reported state)
    (hformed : Formed state) {node : Node} {grids : List Grid} (h : Handed state node grids) :
    ∀ grid ∈ grids, Flat grid := by
  have hflat : ∀ node grid, state.grid node = .ok grid → Flat grid := fun _ _ hgrid =>
    flat_of_grid hlooped hreported hformed hgrid
  cases h with
  | inputs hnode hgrids =>
      intro grid hgrid
      obtain ⟨source, _, hvalue⟩ := related_of_mem (mapM_eq_ok.mp hgrids).flip hgrid
      exact hflat source grid hvalue
  | slots hloop hkind hnode hcarried hsplit hsteps hgrids =>
      have hstart := flat_of_carried hlooped hreported hformed hcarried
      have hbefore := flat_of_steps hreported hformed (fun _ _ node _ => hflat node) hstart
        (List.forall_mem_nil _) hsteps
      exact flat_of_slots (fun node _ => hflat node) hstart hbefore hgrids

end State

section Asking

variable {state after : State} {raster made : Raster} {id : Nat} {node : Node}

theorem info_of_get? (hnumbered : State.Numbered state) (hnode : state.nodes.get? id = some node) :
    state.info id = .ok node.info :=
  bind_eq_ok.mpr ⟨node, State.find_eq hnumbered hnode, rfl⟩

theorem ask_eq {α : Type} (hraster : raster.node = some id) (question : Address → Run State α) :
    raster.ask question state = question id state := by
  rw [Raster.ask, Raster.require, hraster]
  rfl

-- A question about a node that is there is answered from what is noted about it.
theorem ask_info {α : Type} (hnumbered : State.Numbered state)
    (hnode : state.nodes.get? id = some node) (hraster : raster.node = some id)
    (answer : Meta → α) :
    raster.ask (fun node => asking fun state => do return answer (← state.info node)) state =
      (.ok (answer node.info), state) := by
  rw [ask_eq hraster, asking, info_of_get? hnumbered hnode]
  rfl

-- The layout of a node has the extents that are reported about it.
theorem layoutLike_eq (hnumbered : State.Numbered state) (hnode : state.nodes.get? id = some node)
    (hraster : raster.node = some id) (dtype : Option DataType) :
    ∃ layout : Layout, layout.size = node.info.size ∧
      simulator.layoutLike raster dtype state = (.ok layout, state) := by
  have hanswer := fun {α : Type} (answer : Meta → α) =>
    ask_info hnumbered hnode hraster answer
  have hlayout : simulator.layoutOf raster state =
      (.ok ⟨node.info.size, node.info.dtype, node.info.order, node.info.block, node.info.group⟩,
        state) := by
    refine run_bind_eq_ok.mpr ⟨_, state, hanswer Meta.size, ?_⟩
    refine run_bind_eq_ok.mpr ⟨_, state, hanswer Meta.dtype, ?_⟩
    refine run_bind_eq_ok.mpr ⟨_, state, hanswer Meta.order, ?_⟩
    refine run_bind_eq_ok.mpr ⟨_, state, hanswer Meta.block, ?_⟩
    exact run_bind_eq_ok.mpr ⟨_, state, hanswer Meta.group, rfl⟩
  refine ⟨_, ?_, run_bind_eq_ok.mpr ⟨_, state, hlayout, rfl⟩⟩
  cases dtype <;> rfl

-- A constant has the extents of its layout.
theorem shape_of_constant {value : Scalar} {layout : Layout}
    (h : simulator.constant value layout state = (.ok made, after)) :
    ∃ id node, made.node = some id ∧ after.nodes.get? id = some node ∧
      node.info.shape = layout.size.extents := by
  obtain ⟨number, middle, _, h⟩ := run_bind_eq_ok.mp h
  obtain ⟨id, next, hmade, h⟩ := run_bind_eq_ok.mp h
  have hdone : atomically (·.construct (.constant number layout)) middle = (.ok id, next) := hmade
  obtain ⟨draft, hdraft, hplaced⟩ := bind_eq_ok.mp (atomically_eq_ok hdone)
  obtain ⟨converted, _, hdraft⟩ := bind_eq_ok.mp hdraft
  cases hdraft
  rw [pure_eq_ok] at hplaced
  obtain ⟨rfl, rfl⟩ := Prod.mk.inj hplaced
  unfold Engine.wrap at h
  split at h
  · cases (Prod.mk.inj h).1
  · obtain ⟨hraster, rfl⟩ := Prod.mk.inj h
    cases hraster
    obtain ⟨node, hnode, hinfo⟩ : ∃ node,
        (middle.create (.constant converted) [] (.ofLayout layout)).2.nodes.get? middle.nextId =
          some node ∧ node.info = .ofLayout layout :=
      ⟨_, (State.get?_create _ _ _ _ _).trans (if_pos rfl), rfl⟩
    refine ⟨middle.nextId, { node with refs := node.refs + 1 }, rfl, ?_, congrArg Meta.shape hinfo⟩
    refine (Table.get?_modify _ _ _ _).trans ?_
    rw [if_pos rfl]
    exact congrArg (Option.map _) hnode

-- A constant that is made like a node has its extents.
theorem shape_like {run : Run State Raster} {value : Scalar} {dtype : Option DataType}
    (hnumbered : State.Numbered state) (hnode : state.nodes.get? id = some node)
    (hshape : Reportable node.info.shape) (hraster : raster.node = some id)
    (hrun : run ∈ [simulator.zerosLike raster dtype, simulator.onesLike raster dtype,
      simulator.constantLike value raster dtype])
    (h : run state = (.ok made, after)) :
    ∃ other copy, made.node = some other ∧ after.nodes.get? other = some copy ∧
      copy.info.shape = node.info.shape := by
  obtain ⟨layout, hsize, hlayout⟩ := layoutLike_eq hnumbered hnode hraster dtype
  have hextents : layout.size.extents = node.info.shape := hsize ▸ hshape.size_eq
  have hconstant : ∃ value between,
      simulator.constant value layout between = (.ok made, after) := by
    simp only [List.mem_cons, List.not_mem_nil, or_false] at hrun
    obtain rfl | rfl | rfl := hrun
    · obtain ⟨found, between, hfound, hzeros⟩ := run_bind_eq_ok.mp h
      cases hlayout.symm.trans hfound
      obtain ⟨zero, middle, _, hconstant⟩ := run_bind_eq_ok.mp hzeros
      exact ⟨zero, middle, hconstant⟩
    · obtain ⟨found, between, hfound, hones⟩ := run_bind_eq_ok.mp h
      cases hlayout.symm.trans hfound
      obtain ⟨one, middle, _, hconstant⟩ := run_bind_eq_ok.mp hones
      exact ⟨one, middle, hconstant⟩
    · obtain ⟨found, between, hfound, hconstant⟩ := run_bind_eq_ok.mp h
      cases hlayout.symm.trans hfound
      exact ⟨value, state, hconstant⟩
  obtain ⟨_, _, hconstant⟩ := hconstant
  obtain ⟨other, copy, hmade, hcopy, hsame⟩ := shape_of_constant hconstant
  exact ⟨other, copy, hmade, hcopy, hsame.trans hextents⟩

theorem axes_dimension {info : Meta} (h : info.shape.length ≤ maxRank) :
    info.dimension.axes? = some info.shape.length := by
  have hcases : info.shape.length = 0 ∨ info.shape.length = 1 ∨ info.shape.length = 2 := by
    have hle : info.shape.length ≤ 2 := h
    omega
  obtain hlength | hlength | hlength := hcases <;> simp only [Meta.dimension, hlength] <;> rfl

end Asking

section Coordinates

variable {state : State}

theorem info_ne_broken (state : State) (node : Address) :
    state.info node ≠ .error .brokenInvariant := by
  unfold State.info State.find
  split
  · exact nofun
  · split <;> exact nofun

theorem checkCoord_ne_broken {info : Meta} (h : info.shape.length ≤ maxRank) (position : Coord) :
    checkCoord info position ≠ .error .brokenInvariant := by
  unfold checkCoord
  split
  · exact nofun
  · split
    · exact nofun
    · rw [if_neg (Nat.not_lt.mpr h)]
      exact nofun

-- The cell of a request is looked up in no more axes than its position has entries.
theorem construct_ne_broken (h : Reported state) {request : Construction} {node : Address}
    {position : Coord}
    (hrequest : request = .access node position ∨ ∃ value, request = .update node value position) :
    state.construct request ≠ .error .brokenInvariant := by
  refine bind_ne_error ?_ fun draft _ => nofun
  obtain rfl | ⟨value, rfl⟩ := hrequest
  · refine bind_ne_error (info_ne_broken state node) fun info hinfo => ?_
    exact bind_ne_error (checkCoord_ne_broken (h.info hinfo).rank position) fun _ _ => nofun
  · refine bind_ne_error (info_ne_broken state node) fun info hinfo => ?_
    refine bind_ne_error (info_ne_broken state value) fun valueInfo _ => ?_
    refine bind_ne_error (checkCoord_ne_broken (h.info hinfo).rank position) fun _ _ => ?_
    split <;> exact nofun

theorem Flat.addressOf {grid : Grid} (h : Flat grid) (coord : Coord) :
    addressOf coord grid.shape.length = .ok (coord.values.take grid.shape.length) := if_pos h

theorem Flat.shifted {grid : Grid} (h : Flat grid) {index : Nat} {position : List Int}
    (hposition : grid.position index = .ok position) (offset : Coord) :
    shifted position offset =
      .ok (position.zipWith (· + ·) (offset.values.take grid.shape.length)) := by
  have hlength : position.length = grid.shape.length := by
    unfold Grid.position at hposition
    split at hposition
    · rename_i found hfound
      cases hposition
      unfold Grid.position? at hfound
      split at hfound
      · cases hfound
      · cases hfound
        exact Grid.length_digits grid.shape index
    · cases hposition
  have haddress := h.addressOf offset
  rw [← hlength] at haddress ⊢
  exact bind_eq_ok.mpr ⟨_, haddress, rfl⟩

end Coordinates

-- Every node has no more axes than a coordinate has entries, with extents that are signed words. So
-- the size and the dimension that are told about it are those that are noted, and constants that are
-- made like it have its extents. No cell is looked up by more entries than its coordinate has: not
-- when a node is made, and not by an operation on what the evaluation hands to it.
theorem nodes_reported {state : State} (h : Surveyed state) :
    (∀ id node, state.nodes.get? id = some node →
      Reportable node.info.shape ∧
      (∃ size, simulator.size id state = (.ok size, state) ∧ size.extents = node.info.shape) ∧
      (∃ dimension, simulator.dimension id state = (.ok dimension, state) ∧
        dimension.axes? = some node.info.shape.length) ∧
      ∀ raster : Raster, raster.node = some id → ∀ value dtype,
        ∀ run ∈ [simulator.zerosLike raster dtype, simulator.onesLike raster dtype,
          simulator.constantLike value raster dtype],
        ∀ made after, run state = (.ok made, after) →
          ∃ other copy, made.node = some other ∧ after.nodes.get? other = some copy ∧
            copy.info.shape = node.info.shape) ∧
    (∀ node value position,
      state.construct (.access node position) ≠ .error .brokenInvariant ∧
        state.construct (.update node value position) ≠ .error .brokenInvariant) ∧
    ∀ node grids, state.Handed node grids → ∀ grid ∈ grids,
      grid.shape.length ≤ maxRank ∧
      (∀ coord, addressOf coord grid.shape.length = .ok (coord.values.take grid.shape.length)) ∧
      ∀ index position, grid.position index = .ok position → ∀ offset,
        shifted position offset =
          .ok (position.zipWith (· + ·) (offset.values.take grid.shape.length)) := by
  have hreported := h.reported
  have hlooped := h.reachable.looped
  have hnumbered := hlooped.consistent.counted.numbered
  refine ⟨fun id node hnode => ?_, fun node value position => ?_, fun node grids hhanded grid hgrid => ?_⟩
  · have hshape := hreported id node hnode
    have hinfo := info_of_get? hnumbered hnode
    refine ⟨hshape, ⟨node.info.size, ?_, hshape.size_eq⟩,
      ⟨node.info.dimension, ?_, axes_dimension hshape.rank⟩, ?_⟩
    · exact Prod.ext (bind_eq_ok.mpr ⟨_, hinfo, rfl⟩) rfl
    · exact Prod.ext (bind_eq_ok.mpr ⟨_, hinfo, rfl⟩) rfl
    · intro raster hraster value dtype run hrun made after hdone
      exact shape_like hnumbered hnode hshape hraster hrun hdone
  · exact ⟨construct_ne_broken hreported (Or.inl rfl),
      construct_ne_broken hreported (Or.inr ⟨value, rfl⟩)⟩
  · have hflat := State.flat_of_handed hlooped hreported h.reachable.formed hhanded grid hgrid
    exact ⟨hflat, hflat.addressOf, fun index position hposition => hflat.shifted hposition⟩

-- A column that was read, its neighbors, and a constant with an empty axis.
def column : State :=
  { State.empty 5 none with store := ⟨[("a", ⟨.s32, [2, 1], #[7, 8]⟩)], [], none⟩ }.afterCalls
    [.construct (.read "a"), .acquire 1, .construct (.neighbor 1 ⟨1, 0⟩), .acquire 2,
      .construct (.constant (.s32 1) { Layout.single .s32 with size := .ofExtents [0, 3] })]

theorem column_reported :
    Surveyed column ∧ (column.nodes.get? 2).map (·.info.shape) = some [2, 1] ∧
      (∃ size, simulator.size 2 column = (.ok size, column) ∧ size.extents = [2, 1]) ∧
      (∃ size, simulator.size 3 column = (.ok size, column) ∧ size.extents = [0, 3]) ∧
      column.construct (.access 2 ⟨1, 0⟩) ≠ .error .brokenInvariant ∧
      ∃ node grid, column.nodes.get? 2 = some node ∧ column.Handed node [grid] ∧
        shifted [1, 0] ⟨1, 0⟩ = .ok [2, 0] ∧ grid.shape.length ≤ maxRank := by
  have hsurveyed : Surveyed column := ((Surveyed.empty 5 none).restock _).calls _ (by decide) (by decide)
  obtain ⟨htold, hlooked, hhanded⟩ := nodes_reported hsurveyed
  have hgiven : column.Handed _ _ := @State.Handed.inputs column _ 2 _ rfl rfl
  exact ⟨hsurveyed, rfl, (htold 2 _ rfl).2.1, (htold 3 _ rfl).2.1, (hlooked 2 3 ⟨1, 0⟩).1,
    _, _, rfl, hgiven, rfl, (hhanded _ _ hgiven _ (List.mem_singleton_self _)).1⟩

-- A grid on three axes.
def cube : State :=
  { State.empty 5 none with store := ⟨[("a", ⟨.s32, [1, 1, 2], #[7, 8]⟩)], [], none⟩ }.afterCalls
    [.construct (.read "a"), .acquire 1]

-- A grid without cells, with an extent that does not fit a word.
def strip : State :=
  { State.empty 5 none with store := ⟨[("a", ⟨.s32, [0, 2 ^ 32 + 1], #[]⟩)], [], none⟩ }.afterCalls
    [.construct (.read "a"), .acquire 1]

-- Grids are read whatever their extents are. Of the cube no extents are told, and none of its cells
-- can be looked up; of the strip the last bits of an extent are told.
theorem unmeasured_misreported :
    Reachable cube ∧ (cube.nodes.get? 1).map (·.info.shape) = some [1, 1, 2] ∧
      (simulator.size 1 cube).1 = .ok .unset ∧
      (simulator.dimension 1 cube).1 = .ok .three ∧
      (simulator.construct (.access 1 ⟨0, 0⟩) cube).1 = .error .brokenInvariant ∧
      Reachable strip ∧ (strip.nodes.get? 1).map (·.info.shape) = some [0, 2 ^ 32 + 1] ∧
      (simulator.size 1 strip).1 = .ok (.ofExtents [0, 1]) :=
  ⟨((Reachable.empty 5 none).restock _).calls _ (by decide), rfl, rfl, rfl, rfl,
    ((Reachable.empty 5 none).restock _).calls _ (by decide), rfl, rfl⟩

end Graph

end MapAlgebra
