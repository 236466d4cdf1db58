import MapAlgebra.Proofs.Graph.Building
import MapAlgebra.Proofs.Graph.Checked

namespace MapAlgebra

theorem DataType.promote_self (dtype : DataType) : dtype.promote dtype = dtype := by
  cases dtype <;> rfl

namespace Graph

variable {state before after : State} {tally : Tally} {raster : Raster} {node : Address} {α β : Type}

theorem Backs.live_of_held (h : Backs state tally)
    (hnode : raster.node = some node) (hheld : raster.held ≤ tally) :
    state.nodes.contains node = true := by
  have hle : raster.held node ≤ tally node := hheld node
  rw [Raster.held_of_node hnode, Tally.one_self] at hle
  exact h.live (Int.lt_of_lt_of_le Int.zero_lt_one hle)

-- A held node keeps its value while the graph is built on.
theorem Builds.valueOf_held (h : Builds before after) (hbefore : Looped before)
    (hbacks : Backs after tally) (hnode : raster.node = some node)
    (hheld : raster.held ≤ tally) (hthere : before.nodes.contains node = true) :
    after.valueOf node = before.valueOf node :=
  h.valueOf_live hbefore hthere (hbacks.live_of_held hnode hheld)

theorem contains_acquire (hlive : state.nodes.contains node = true) (other : Address) :
    (state.acquire other).nodes.contains node = true := by
  obtain ⟨found, hfound⟩ := (Table.contains_iff _ _).mp hlive
  refine (Table.contains_iff _ _).mpr ?_
  rw [State.acquire, Table.get?_modify]
  split
  · exact ⟨_, congrArg _ hfound⟩
  · exact ⟨found, hfound⟩

-- What is known about a node that is there.
theorem live_of_valueOf {info : Meta} {grid : Except MapError Grid} (hlooped : Looped state)
    (h : state.valueOf node = ⟨.ok info, grid⟩) :
    state.info node = .ok info ∧ state.gridOf node = grid ∧
      state.nodes.contains node = true ∧ node ≠ Address.null := by
  have hinfo : state.info node = .ok info := congrArg Value.info h
  have hlive := State.contains_of_info hinfo
  exact ⟨hinfo, congrArg Value.grid h, hlive, ne_null_of_contains hlooped hlive⟩

-- A new node is worth what its operation makes of the nodes that it names.
theorem made {request : Construction} {draft : Draft} (hlooped : Looped state)
    (hbacks : Backs state tally) (hdraft : state.draft request = .ok draft)
    (hlive : ∀ node ∈ request.nodes, state.nodes.contains node = true)
    (hinputs : request.inputs (· = Address.null) Address.null = request.nodes) :
    ∃ raster after node, simulator.make request state = (.ok raster, after) ∧ Builds state after ∧
      Backs after (tally + raster.held) ∧ raster.node = some node ∧ after.valueOf node =
        ⟨.ok draft.info, do
          draft.kind.apply draft.info (← request.nodes.mapM state.gridOf)⟩ := by
  have hnumbered := hlooped.consistent.counted.numbered
  have hnonnull : ∀ node ∈ request.nodes, node ≠ Address.null := fun node hnode =>
    ne_null_of_contains hlooped (hlive node hnode)
  have hstandIn : draft.standIn = none := draftOf_standIn hdraft fun node hnode =>
    decide_eq_false (hnonnull node (request.required_subset hnode))
  have hplain : draft.kind.isPlain = true := draftOf_plain hdraft
  obtain ⟨created, hcreated⟩ : ∃ created,
    created = (state.create draft.kind request.nodes draft.info).2 := ⟨_, rfl⟩
  have hnext : state.nextId ≠ Address.null := hnumbered.next.ne'
  have hconstruct : simulator.construct request state = (.ok state.nextId, created) := by
    have hdone : state.construct request = .ok (state.nextId, created) := by
      refine bind_eq_ok.mpr ⟨draft, hdraft, ?_⟩
      rw [State.place, hstandIn, State.createZero, hcreated, ← hinputs]
      rfl
    show atomically (·.construct request) state = _
    simp only [atomically, hdone]
  have hmake : simulator.make request state =
      (.ok (.on state.nextId hnext), created.acquire state.nextId) := by
    refine run_bind_eq_ok.mpr ⟨state.nextId, created, hconstruct, ?_⟩
    rw [Engine.wrap, dif_neg hnext]
    rfl
  have hbuilds : Builds state (created.acquire state.nextId) := by
    rw [hcreated]
    exact (Builds.create draft.info hplain hlive).trans (.acquire _ _)
  have hcontained : created.nodes.contains state.nextId = true := by
    rw [hcreated]
    exact State.contains_create (Or.inl rfl)
  have hlooped' := hbuilds.looped hlooped
  have hnumbered' := hlooped'.consistent.counted.numbered
  refine ⟨_, _, state.nextId, hmake, hbuilds, ?_, rfl, ?_⟩
  · have hbacks' : Backs created tally := by
      rw [hcreated]
      exact hbacks.create hnumbered draft.kind request.nodes draft.info
    exact hbacks'.acquire hcontained
  · have hnode := State.get?_create state draft.kind request.nodes draft.info state.nextId
    rw [if_pos rfl, ← hcreated] at hnode
    have hacquired : (created.acquire state.nextId).nodes.get? state.nextId =
        (created.nodes.get? state.nextId).map fun info => { info with refs := info.refs + 1 } := by
      rw [State.acquire, Table.get?_modify, if_pos rfl]
    rw [hnode, Option.map_some] at hacquired
    have hgrids : request.nodes.mapM (created.acquire state.nextId).gridOf =
        request.nodes.mapM state.gridOf := by
      refine mapM_congr fun node hmember => ?_
      have hstays : (created.acquire state.nextId).nodes.contains node = true :=
        (hlooped'.consistent.founded.input_live hacquired node hmember).1
      exact congrArg Value.grid (hbuilds.valueOf_live hlooped (hlive node hmember) hstays)
    rw [State.valueOf, State.info, State.find_eq hnumbered' hacquired,
      State.gridOf_node hlooped'.consistent.founded hnumbered' hacquired,
      State.nodeGrid_plain hplain]
    simp only [hgrids]
    rfl

theorem derive_eq {request : Address → Construction} (h : raster.require = .ok node) :
    simulator.derive raster request = simulator.make (request node) := by
  rw [Engine.derive, h]
  rfl

-- A handle on a node with a certain value was taken while a graph was built on.
structure Handed (before : State) (tally : Tally) (raster : Raster)
    (good : Meta → Except MapError Grid → Prop) (after : State) : Prop where
  builds : Builds before after
  backs : Backs after (tally + raster.held)
  value : ∃ node info grid, raster.node = some node ∧ after.valueOf node = ⟨.ok info, grid⟩ ∧
    good info grid

namespace Handed

variable {good better : Meta → Except MapError Grid → Prop}

theorem mono (h : Handed before tally raster good after)
    (hbetter : ∀ info grid, good info grid → better info grid) :
    Handed before tally raster better after := by
  obtain ⟨node, info, grid, hnode, hvalue, hgood⟩ := h.value
  exact ⟨h.builds, h.backs, node, info, grid, hnode, hvalue, hbetter info grid hgood⟩

theorem of_builds {middle : State} (hbuilds : Builds before middle)
    (h : Handed middle tally raster good after) : Handed before tally raster good after :=
  ⟨hbuilds.trans h.builds, h.backs, h.value⟩

-- A handle that was lent in the meantime is let go.
theorem letGo {lent : Raster} (h : Handed before (tally + lent.held) raster good after)
    (hbefore : Looped before) (htally : 0 ≤ tally) :
    Handed before tally raster good (simulator.letGo lent after) := by
  obtain ⟨node, info, grid, hnode, hvalue, hgood⟩ := h.value
  have hlet := (Handled.letGo lent after).toBuilds
  have hbacks : Backs (simulator.letGo lent after) (tally + raster.held) := by
    apply Backs.letGo
    rw [add_right_comm]
    exact h.backs
  have hsame := hlet.valueOf_held (h.builds.looped hbefore) hbacks hnode
    (le_add_of_nonneg_left htally) (State.contains_of_info (congrArg Value.info hvalue))
  exact ⟨h.builds.trans hlet, hbacks, node, info, grid, hnode, hsame.trans hvalue, hgood⟩

end Handed

-- A run that takes a handle on a node with a certain value, which it gives on in some form.
def Hands (state : State) (tally : Tally) (run : Run State α) (given : Raster → α)
    (good : Meta → Except MapError Grid → Prop) : Prop :=
  ∃ raster after, run state = (.ok (given raster), after) ∧ Handed state tally raster good after

namespace Hands

variable {run : Run State α} {given : Raster → α} {taken : Raster → β}
  {good better : Meta → Except MapError Grid → Prop}

theorem mono (h : Hands state tally run given good)
    (hbetter : ∀ info grid, good info grid → better info grid) :
    Hands state tally run given better := by
  obtain ⟨raster, after, hrun, hhanded⟩ := h
  exact ⟨raster, after, hrun, hhanded.mono hbetter⟩

theorem of_eq {other : Run State α} (h : run state = other state)
    (hother : Hands state tally other given good) : Hands state tally run given good := by
  obtain ⟨raster, after, hrun, hhanded⟩ := hother
  exact ⟨raster, after, h.trans hrun, hhanded⟩

theorem operand {run : Run State Raster} (h : Hands state tally run id good) :
    Hands state tally (do return .node (← run)) Operand.node good := by
  obtain ⟨raster, after, hrun, hhanded⟩ := h
  exact ⟨raster, after, run_bind_eq_ok.mpr ⟨raster, after, hrun, rfl⟩, hhanded⟩

-- A handle that was taken on the way is lent to a step.
theorem lending {step : Raster → Run State β} {middle : State} (hlooped : Looped state)
    (hnonneg : 0 ≤ tally) (hbuilds : Builds state middle)
    (h : Hands middle (tally + raster.held) (step raster) taken good) :
    ∃ made after, simulator.lending raster step middle = (.ok (taken made), after) ∧
      Handed state tally made good after := by
  obtain ⟨made, after, hrun, hhanded⟩ := h
  refine ⟨made, simulator.letGo raster after, ?_, (Handed.of_builds hbuilds hhanded).letGo hlooped hnonneg⟩
  simp only [Engine.lending, hrun]

-- A new handle is lent to the next step.
theorem bind {next : α → Run State β} {step : Raster → Run State β}
    (h : Hands state tally run given good) (hlooped : Looped state) (hnonneg : 0 ≤ tally)
    (hnext : ∀ raster, next (given raster) = simulator.lending raster step)
    (hstep : ∀ raster middle, Looped middle → Handed state tally raster good middle →
      Hands middle (tally + raster.held) (step raster) taken better) :
    Hands state tally (run >>= next) taken better := by
  obtain ⟨raster, middle, hrun, hhanded⟩ := h
  obtain ⟨made, after, hlent, hmade⟩ := lending hlooped hnonneg hhanded.builds
    (hstep raster middle (hhanded.builds.looped hlooped) hhanded)
  refine ⟨made, after, ?_, hmade⟩
  exact run_bind_eq_ok.mpr ⟨_, middle, hrun, (congrFun (hnext raster) middle).trans hlent⟩

-- A second handle on a node that is there is lent to a step.
theorem promoting {step : Raster → Run State β} (hlooped : Looped state) (hnonneg : 0 ≤ tally)
    (hnode : raster.node = some node)
    (h : Hands (state.acquire node) (tally + raster.held) (step raster) taken good) :
    Hands state tally (simulator.promoting (.node raster) step) taken good := by
  have hcopy : simulator.promote (.node raster) state = (.ok raster, state.acquire node) := by
    show simulator.copy raster state = _
    simp only [Engine.copy, hnode]
    rfl
  obtain ⟨made, after, hlent, hhanded⟩ := lending hlooped hnonneg (.acquire state node) h
  exact ⟨made, after, run_bind_eq_ok.mpr ⟨raster, _, hcopy, hlent⟩, hhanded⟩

theorem make {request : Construction} {draft : Draft} {inputs : List Grid} {cells : Grid}
    (hlooped : Looped state) (hbacks : Backs state tally) (hdraft : state.draft request = .ok draft)
    (hlive : ∀ node ∈ request.nodes, state.nodes.contains node = true)
    (hinputs : request.inputs (· = Address.null) Address.null = request.nodes)
    (hgrids : request.nodes.mapM state.gridOf = .ok inputs)
    (happly : draft.kind.apply draft.info inputs = .ok cells) :
    Hands state tally (simulator.make request) id
      (fun info grid => info = draft.info ∧ grid = .ok cells) := by
  obtain ⟨raster, after, node, hmake, hbuilds, hbacks', hnode, hvalue⟩ :=
    made hlooped hbacks hdraft hlive hinputs
  refine ⟨raster, after, hmake, hbuilds, hbacks', node, _, _, hnode, hvalue, rfl, ?_⟩
  rw [hgrids]
  exact happly

-- A number becomes a node.
theorem scalar {number : Scalar} (hlooped : Looped state) (hbacks : Backs state tally)
    (hconvert : number.convert number.dtype = .ok number) :
    Hands state tally (simulator.promote (.host number)) id
      (fun info grid => info = .ofLayout (.single number.dtype) ∧
        grid = .ok (.filled number.dtype [] number.toFloat)) :=
  have hdraft : state.draft (.constant number (.single number.dtype)) =
      .ok ⟨.constant number, .ofLayout (.single number.dtype), none⟩ :=
    bind_eq_ok.mpr ⟨number, hconvert, rfl⟩
  make hlooped hbacks hdraft nofun rfl rfl rfl

end Hands

-- What is known about a choice between cells: they get the common type.
def chosenMeta (condition yes no : Meta) (shape : List Nat) : Meta :=
  (([yes, no, condition].find? (·.shape ≠ [])).getD yes).derived (yes.dtype.promote no.dtype) shape

-- A node that chooses between the nodes of three handles.
theorem hands_conditional {condition yes no : Raster} {chooser first second : Address}
    {chooserInfo firstInfo secondInfo : Meta} {marks one other cells : Grid} {whole : List Nat}
    (hlooped : Looped state) (hbacks : Backs state tally) (hcondition : condition.node = some chooser)
    (hyes : yes.node = some first) (hno : no.node = some second)
    (hmarks : state.valueOf chooser = ⟨.ok chooserInfo, .ok marks⟩)
    (hone : state.valueOf first = ⟨.ok firstInfo, .ok one⟩)
    (hother : state.valueOf second = ⟨.ok secondInfo, .ok other⟩)
    (hshape : secondInfo.shape = []) (hwhole : broadcast chooserInfo.shape firstInfo.shape = .ok whole)
    (hcells : Grid.tabulate (firstInfo.dtype.promote secondInfo.dtype) whole
      (conditionalCell marks one other) = .ok cells) :
    Hands state tally (do
      return .node (← simulator.make
        (.conditional (← condition.require) (← yes.require) (← no.require))))
      Operand.node (fun info grid => info = chosenMeta chooserInfo firstInfo secondInfo whole ∧
        grid = .ok cells) := by
  obtain ⟨hinfo, hgrid, hlive, -⟩ := live_of_valueOf hlooped hmarks
  obtain ⟨hinfo₁, hgrid₁, hlive₁, hnull₁⟩ := live_of_valueOf hlooped hone
  obtain ⟨hinfo₂, hgrid₂, hlive₂, hnull₂⟩ := live_of_valueOf hlooped hother
  have hdraft : state.draft (.conditional chooser first second) =
      .ok ⟨.conditional, chosenMeta chooserInfo firstInfo secondInfo whole, none⟩ := by
    have hlast : broadcast whole secondInfo.shape = .ok whole := by rw [hshape, broadcast_single]
    exact draftConditional_eq hinfo (branch_present (decide_eq_false hnull₁) hinfo₁)
      (branch_present (decide_eq_false hnull₂) hinfo₂) hwhole hlast
  have hgrids : [chooser, first, second].mapM state.gridOf = .ok [marks, one, other] := by
    simp only [List.mapM_cons, List.mapM_nil, hgrid, hgrid₁, hgrid₂]
    rfl
  have hnodes : ∀ node ∈ [chooser, first, second], state.nodes.contains node = true := by
    simp [hlive, hlive₁, hlive₂]
  have hinputs : (Request.conditional chooser first second).inputs (· = Address.null) Address.null =
      [chooser, first, second] := by
    simp [Request.inputs, hnull₁, hnull₂]
  rw [Raster.require, hcondition, Raster.require, hyes, Raster.require, hno]
  exact (Hands.make hlooped hbacks hdraft hnodes hinputs hgrids hcells).operand

end Graph

end MapAlgebra
