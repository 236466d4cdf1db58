import MapAlgebra.Proofs.Graph.Checked
import MapAlgebra.Proofs.Graph.Hands
import MapAlgebra.Proofs.Grid.Rewritten

namespace MapAlgebra.Graph

-- The grid that an operand stands for. A number stands for itself, in its own type.
def State.operandGrid (state : State) : Operand → Except MapError Grid
  | .host value => do
      return .filled value.dtype [] (← value.convert value.dtype).toFloat
  | .node raster => do state.grid (← raster.require)

-- Its first cell is the value that is written.
def State.operandValue (state : State) (operand : Operand) : Except MapError Float := do
  (← state.operandGrid operand).cell 0

variable {state before after : State} {tally : Tally} {raster value : Raster} {operand : Operand}

-- A copy is a second handle on the same node.
theorem copy_eq_ok {node : Address} (h : simulator.copy raster state = (.ok value, after))
    (hnode : value.node = some node) (hstays : after.nodes.contains node = true) :
    value = raster ∧ state.nodes.contains node = true ∧ after = state.acquire node := by
  cases hown : raster.node with
  | none =>
      simp only [Engine.copy, hown] at h
      cases h
      rw [hown] at hnode
      cases hnode
  | some own =>
      simp only [Engine.copy, hown] at h
      cases h
      obtain rfl := Option.some.inj (hown.symm.trans hnode)
      obtain ⟨info, hinfo⟩ := (Table.contains_iff _ _).mp hstays
      have hthere : (state.acquire own).nodes.get? own = some info := hinfo
      rw [State.acquire, Table.get?_modify, if_pos rfl] at hthere
      obtain ⟨old, hold, -⟩ := Option.map_eq_some_iff.mp hthere
      exact ⟨rfl, (Table.contains_iff _ _).mpr ⟨old, hold⟩, rfl⟩

namespace Handed

-- What a request that has succeeded made.
theorem make {request : Construction} (hlooped : Looped state) (hbacks : Backs state tally)
    (hlive : ∀ node ∈ request.nodes, state.nodes.contains node = true)
    (hinputs : request.inputs (· = Address.null) Address.null = request.nodes)
    (h : simulator.make request state = (.ok raster, after)) :
    ∃ draft, state.draft request = .ok draft ∧
      Handed state tally raster (fun info found => info = draft.info ∧
        found = do draft.kind.apply draft.info (← request.nodes.mapM state.gridOf)) after := by
  obtain ⟨draft, hdraft, hnode, -⟩ := make_eq_ok h fun node hnode =>
    ne_null_of_contains hlooped (hlive node (request.required_subset hnode))
  obtain ⟨other, final, node, hmake, hbuilds, hbacks', hother, hvalue⟩ :=
    made hlooped hbacks hdraft hlive hinputs
  cases h.symm.trans hmake
  exact ⟨draft, hdraft, hbuilds, hbacks', node, draft.info, _, hother, hvalue, rfl, rfl⟩

-- An operand becomes a node with the grid that it stands for.
theorem promote {node : Address} (hlooped : Looped state) (hbacks : Backs state tally)
    (hnode : value.node = some node) (hstays : after.nodes.contains node = true)
    (h : simulator.promote operand state = (.ok value, after)) :
    Handed state tally value (fun _ found => found = state.operandGrid operand) after := by
  cases operand with
  | node found =>
      obtain ⟨rfl, hlive, rfl⟩ := copy_eq_ok h hnode hstays
      obtain ⟨info, hinfo⟩ := (Table.contains_iff _ _).mp hlive
      have hnumbered := hlooped.consistent.counted.numbered
      have hbacks' : Backs (state.acquire node) (tally + value.held) :=
        Raster.held_of_node hnode ▸ hbacks.acquire hlive
      have hsame := (Builds.acquire state node).valueOf_eq hlooped hstays (hnumbered.range hinfo).2
      have hknown : state.info node = .ok info.info :=
        bind_eq_ok.mpr ⟨info, State.find_eq hnumbered hinfo, rfl⟩
      have hgrid : state.operandGrid (.node value) = state.gridOf node := by
        rw [State.operandGrid, Raster.require, hnode, State.gridOf_eq_grid hlooped]
        rfl
      refine ⟨.acquire state node, hbacks', node, info.info, _, hnode, hsame.trans ?_, rfl⟩
      rw [State.valueOf, hknown, hgrid]
  | host scalar =>
      obtain ⟨draft, hdraft, hmade⟩ := make hlooped hbacks (List.forall_mem_nil _) rfl h
      obtain ⟨converted, hconvert, hdraft⟩ := bind_eq_ok.mp hdraft
      obtain rfl := Except.ok.inj hdraft
      have hown : scalar.convert scalar.dtype = .ok converted := hconvert
      refine hmade.mono fun _ grid hgrid => hgrid.2.trans ?_
      rw [State.operandGrid, hown]
      rfl

theorem cast {node : Address} {info : Meta} {grid : Except MapError Grid} {dtype : DataType}
    (hlooped : Looped state) (hbacks : Backs state tally) (hnode : value.node = some node)
    (hvalue : state.valueOf node = ⟨.ok info, grid⟩)
    (h : simulator.cast value dtype state = (.ok raster, after)) :
    Handed state tally raster (fun _ found => found = grid.map (·.cast dtype)) after := by
  have hrequire : value.require = .ok node := by rw [Raster.require, hnode]
  rw [Engine.cast, derive_eq hrequire] at h
  have hlive : ∀ other ∈ (Request.cast node dtype).nodes, state.nodes.contains other = true :=
    List.forall_mem_singleton.mpr (State.contains_of_info (congrArg Value.info hvalue))
  obtain ⟨draft, hdraft, hmade⟩ := make hlooped hbacks hlive rfl h
  obtain ⟨-, hdraft⟩ := unless_eq_ok.mp hdraft
  obtain ⟨_, -, hdraft⟩ := bind_eq_ok.mp hdraft
  obtain rfl := Except.ok.inj hdraft
  have hgrid : state.gridOf node = grid := congrArg Value.grid hvalue
  refine hmade.mono fun _ found hfound => hfound.2.trans ?_
  show (do NodeKind.cast.apply _ (← [node].mapM state.gridOf)) = _
  rw [List.mapM_cons, hgrid]
  cases grid <;> rfl

end Handed

theorem ask_dataType_eq_ok {dtype : DataType}
    (h : raster.ask simulator.dataType state = (.ok dtype, after)) :
    ∃ node info, raster.node = some node ∧ state.info node = .ok info ∧ dtype = info.dtype ∧
      after = state := by
  obtain ⟨node, middle, hlifted, hask⟩ := run_bind_eq_ok.mp h
  obtain ⟨hrequire, rfl⟩ := run_lift_eq_ok.mp hlifted
  obtain ⟨hresult, rfl⟩ := Prod.mk.inj hask
  obtain ⟨info, hinfo, hdtype⟩ := bind_eq_ok.mp hresult
  exact ⟨node, info, Raster.require_eq_ok hrequire, hinfo, (Except.ok.inj hdtype).symm, rfl⟩

-- A value that is made to go with a raster is brought into its type if it is not in it.
theorem matching_eq_ok (h : simulator.matching raster operand state = (.ok value, after)) :
    ∃ promoted middle node info id noted, simulator.promote operand state = (.ok promoted, middle) ∧
      raster.node = some node ∧ middle.info node = .ok info ∧
      promoted.node = some id ∧ middle.info id = .ok noted ∧
      ((value = promoted ∧ after = middle) ∨
        simulator.lending promoted (simulator.cast · info.dtype) middle = (.ok value, after)) := by
  obtain ⟨promoted, middle, hpromote, hcompare⟩ := run_bind_eq_ok.mp h
  obtain ⟨same, second, hasked, hrest⟩ := run_bind_eq_ok.mp hcompare
  obtain ⟨own, third, hown, hask⟩ := run_bind_eq_ok.mp (Engine.orLetGo_eq_ok hasked)
  obtain ⟨found, fourth, hfound, hcompared⟩ := run_bind_eq_ok.mp hask
  obtain ⟨node, info, hnode, hinfo, hdtype, rfl⟩ := ask_dataType_eq_ok hown
  obtain ⟨id, noted, hid, hnoted, -, hfourth⟩ := ask_dataType_eq_ok hfound
  have hsame : same = (own, decide (found = own)) ∧ second = third := by
    cases hcompared
    exact ⟨rfl, hfourth⟩
  obtain ⟨rfl, rfl⟩ := hsame
  refine ⟨promoted, second, node, info, id, noted, hpromote, hnode, hinfo, hid, hnoted, ?_⟩
  by_cases hfits : found = own
  · rw [if_pos (decide_eq_true hfits)] at hrest
    cases hrest
    exact .inl ⟨rfl, rfl⟩
  · rw [if_neg fun hsame => hfits (of_decide_eq_true hsame), hdtype] at hrest
    exact .inr hrest

namespace Handed

-- The value that is written, with what it comes from.
theorem matching {root : Address} {info : Meta} (hlooped : Looped state)
    (hbacks : Backs state tally) (htally : 0 ≤ tally) (hheld : raster.held ≤ tally)
    (hroot : raster.node = some root) (hinfo : state.info root = .ok info)
    (h : simulator.matching raster operand state = (.ok value, after)) :
    Handed state tally value (fun _ found =>
      found.bind (·.cell 0) = state.operandValue operand ∨
        found.bind (·.cell 0) = (state.operandValue operand).map info.dtype.normalize) after := by
  obtain ⟨promoted, middle, node, noted, id, other, hpromote, hnode, hnoted, hid, hother, hmatched⟩ :=
    matching_eq_ok h
  have hpromoted := promote hlooped hbacks hid (State.contains_of_info hother) hpromote
  have hlooped' := hpromoted.builds.looped hlooped
  -- the raster is still what it was
  obtain rfl := Option.some.inj (hroot.symm.trans hnode)
  have hkept := hpromoted.builds.valueOf_held hlooped hpromoted.backs hroot
    (hheld.trans (le_add_of_nonneg_right promoted.held_nonneg)) (State.contains_of_info hinfo)
  obtain rfl : noted = info :=
    Except.ok.inj (hnoted.symm.trans ((congrArg Value.info hkept).trans hinfo))
  obtain ⟨rfl, rfl⟩ | hlent := hmatched
  · exact hpromoted.mono fun _ found hfound => .inl (hfound ▸ rfl)
  · obtain ⟨_, _, grid, hid, hvalue, hgrid⟩ := hpromoted.value
    obtain ⟨last, hcast, rfl⟩ := Engine.lending_eq_ok hlent
    have hmade := (cast hlooped' hpromoted.backs hid hvalue hcast).letGo hlooped' htally
    refine of_builds hpromoted.builds (hmade.mono fun _ found hfound => .inr ?_)
    rw [hfound, hgrid, State.operandValue]
    cases state.operandGrid operand with
    | error problem => rfl
    | ok grid => exact Grid.cell_cast grid noted.dtype 0

end Handed

-- A handle that moves to a node that was asked for is as good as a handle on the node, with the old
-- handle let go. The node is a new one.
theorem construct_rebind_eq_ok {request : Construction} {moved : Raster} {root : Address}
    (hlooped : Looped state) (hlive : ∀ node ∈ request.nodes, state.nodes.contains node = true)
    (hroot : raster.node = some root) (hthere : state.nodes.contains root = true)
    (h : (simulator.construct request >>= simulator.rebind raster) state = (.ok moved, after)) :
    ∃ last, simulator.make request state = (.ok moved, last) ∧
      after = simulator.letGo raster last := by
  obtain ⟨node, middle, hconstruct, hrebind⟩ := run_bind_eq_ok.mp h
  obtain ⟨-, -, rfl, -⟩ := construct_eq_ok hconstruct fun node hnode =>
    ne_null_of_contains hlooped (hlive node (request.required_subset hnode))
  have hother : raster.node ≠ some state.nextId := by
    have hlt := hlooped.consistent.counted.numbered.lt_next hthere
    rw [hroot]
    exact fun hsame => absurd (Option.some.inj hsame) (Nat.ne_of_lt hlt)
  have hnull : state.nextId ≠ Address.null := hlooped.consistent.counted.numbered.next.ne'
  rw [simulator.rebind_eq hnull hother] at hrebind
  cases hrebind
  refine ⟨simulator.acquire state.nextId middle, ?_, rfl⟩
  exact run_bind_eq_ok.mpr ⟨state.nextId, middle, hconstruct, simulator.wrap_eq hnull middle⟩

theorem draft_update_eq_ok {node id : Address} {coord : Coord} {draft : Draft} {info : Meta}
    (h : state.draft (.update node id coord) = .ok draft) (hinfo : state.info node = .ok info) :
    draft = ⟨.update coord, info.derived info.dtype info.shape, none⟩ ∧
      Grid.Within info.shape (coord.values.take info.shape.length) := by
  obtain ⟨noted, hnoted, h⟩ := bind_eq_ok.mp h
  obtain rfl := Except.ok.inj (hinfo.symm.trans hnoted)
  obtain ⟨_, -, h⟩ := bind_eq_ok.mp h
  obtain ⟨_, hposition, h⟩ := bind_eq_ok.mp h
  obtain ⟨-, h⟩ := unless_eq_ok.mp h
  exact ⟨(Except.ok.inj h).symm, checkCoord_eq_ok hposition⟩

namespace Handed

-- A changed cell makes a node of the same form.
theorem update {node id : Address} {info noted : Meta} {current found : Except MapError Grid}
    {coord : Coord} (hlooped : Looped state) (hbacks : Backs state tally)
    (hvalue : state.valueOf node = ⟨.ok info, current⟩)
    (hfound : state.valueOf id = ⟨.ok noted, found⟩)
    (h : simulator.make (.update node id coord) state = (.ok raster, after)) :
    Handed state tally raster (fun made result => made.form = info.form ∧
      Grid.Within info.shape (coord.values.take info.shape.length) ∧
      result = do Graph.updated (← current) info.dtype coord (← found)) after := by
  have hinfo : state.info node = .ok info := congrArg Value.info hvalue
  have hnoted : state.info id = .ok noted := congrArg Value.info hfound
  have hcurrent : state.gridOf node = current := congrArg Value.grid hvalue
  have hgrid : state.gridOf id = found := congrArg Value.grid hfound
  have hlive : ∀ other ∈ (Request.update node id coord).nodes, state.nodes.contains other = true := by
    simp [Request.nodes, State.contains_of_info hinfo, State.contains_of_info hnoted]
  obtain ⟨draft, hdraft, hmade⟩ := make hlooped hbacks hlive rfl h
  obtain ⟨rfl, hposition⟩ := draft_update_eq_ok hdraft hinfo
  refine hmade.mono fun made result hresult => ?_
  obtain ⟨rfl, rfl⟩ := hresult
  refine ⟨rfl, hposition, ?_⟩
  show (do (NodeKind.update coord).apply _ (← [node, id].mapM state.gridOf)) = _
  rw [List.mapM_cons, List.mapM_cons, hcurrent, hgrid]
  cases current <;> cases found <;> rfl

-- A write makes a raster of the same form. One cell has the value that is written, and the handle is
-- on it.
theorem setCell {moved : Raster} {root : Address} {info : Meta} {current : Except MapError Grid}
    {coord : Coord} (hlooped : Looped state) (hbacks : Backs state (tally + raster.held))
    (htally : 0 ≤ tally) (hroot : raster.node = some root)
    (hvalue : state.valueOf root = ⟨.ok info, current⟩)
    (h : simulator.setCell raster coord operand state = (.ok moved, after)) :
    Handed state tally moved (fun made result => made.form = info.form ∧
      Grid.Within info.shape (coord.values.take info.shape.length) ∧
      ∃ found : Except MapError Grid,
        (found.bind (·.cell 0) = state.operandValue operand ∨
          found.bind (·.cell 0) = (state.operandValue operand).map info.dtype.normalize) ∧
        result = do Graph.updated (← current) info.dtype coord (← found)) after := by
  obtain ⟨value, middle, hmatch, hlent⟩ := run_bind_eq_ok.mp h
  obtain ⟨last, hstep, rfl⟩ := Engine.lending_eq_ok hlent
  have hheld : raster.held ≤ tally + raster.held := le_add_of_nonneg_left htally
  have hinfo : state.info root = .ok info := congrArg Value.info hvalue
  have hmatched := matching hlooped hbacks (add_nonneg htally raster.held_nonneg) hheld hroot hinfo
    hmatch
  have hlooped' := hmatched.builds.looped hlooped
  obtain ⟨id, noted, found, hid, hfound, hsource⟩ := hmatched.value
  have hkept := hmatched.builds.valueOf_held hlooped hmatched.backs hroot
    (hheld.trans (le_add_of_nonneg_right value.held_nonneg)) (State.contains_of_info hinfo)
  rw [hvalue] at hkept
  have hlive : middle.nodes.contains root = true := State.contains_of_info (congrArg Value.info hkept)
  have hnodes : ∀ node ∈ (Request.update root id coord).nodes,
      middle.nodes.contains node = true := by
    simp [Request.nodes, hlive, State.contains_of_info (congrArg Value.info hfound)]
  have hrequire : raster.require = .ok root := by rw [Raster.require, hroot]
  have hrequire' : value.require = .ok id := by rw [Raster.require, hid]
  rw [hrequire, hrequire'] at hstep
  obtain ⟨final, hmake, rfl⟩ := construct_rebind_eq_ok hlooped' hnodes hroot hlive hstep
  have hupdated := update hlooped' hmatched.backs hkept hfound hmake
  rw [add_right_comm] at hupdated
  have hmoved := (hupdated.letGo hlooped' (add_nonneg htally value.held_nonneg)).letGo hlooped' htally
  refine of_builds hmatched.builds (hmoved.mono fun made result hresult => ?_)
  exact ⟨hresult.1, hresult.2.1, found, hsource, hresult.2.2⟩

end Handed

end MapAlgebra.Graph
