import MapAlgebra.Proofs.Graph.Formed
import MapAlgebra.Proofs.Graph.Handed

namespace MapAlgebra

namespace Grid.Has

variable {grid : Grid} {form : Form}

-- What a write makes of a grid.
theorem updated_eq (h : grid.Has form) (hrank : form.shape.length ≤ maxRank) (dtype : DataType)
    {coord : Coord} {index : Nat}
    (hindex : grid.offset (coord.values.take form.shape.length) = some index) (value : Grid) :
    Graph.updated grid dtype coord value = (value.cell 0).map ((grid.cast dtype).set index) := by
  have haddress := h.address_total hrank coord
  unfold Graph.updated
  simp only [haddress, bind, Except.bind, hindex, if_pos (h.offset_lt hindex)]
  cases value.cell 0 <;> rfl

theorem accessed_eq (h : grid.Has form) (hrank : form.shape.length ≤ maxRank) {coord : Coord}
    {x : Float} (hx : grid.get (coord.values.take form.shape.length) = .ok (some x)) :
    Graph.accessed grid coord = .ok x :=
  bind_eq_ok.mpr ⟨_, h.address_total hrank coord, bind_eq_ok.mpr ⟨some x, hx, rfl⟩⟩

end Grid.Has

namespace Graph

variable {state before after : State}

-- The values that were written, if there are all of them.
def written (writes : List (Coord × Except MapError Float)) :
    Except MapError (List (Coord × Float)) :=
  writes.mapM fun write => do return (write.1, ← write.2)

theorem written_append (writes : List (Coord × Except MapError Float)) (coord : Coord)
    (value : Except MapError Float) :
    written (writes ++ [(coord, value)]) = do
      let values ← written writes
      return values ++ [(coord, ← value)] := by
  unfold written
  rw [List.mapM_append]
  refine congrArg _ (funext fun values => ?_)
  cases value <;> rfl

-- A cell that no write falls on is read as it was, if its value is one of the type.
theorem written_elsewhere {writes : List (Coord × Except MapError Float)} {rank : Nat}
    {position : List Int} {dtype : DataType} {x : Float}
    (h : ∀ write ∈ writes, write.1.values.take rank ≠ position) (hx : dtype.normalize x = x) :
    ((written writes).map fun values =>
        Grid.filled dtype [] ((lastWritten rank values position).getD x)) =
      (written writes).map fun _ => ⟨dtype, [], #[x]⟩ := by
  cases hwritten : written writes with
  | error problem => rfl
  | ok values =>
      have hnone : lastWritten rank values position = none := by
        refine lastWritten_eq_none fun value hvalue => ?_
        obtain ⟨write, hwrite, heq⟩ := related_of_mem (mapM_eq_ok.mp hwritten).flip hvalue
        obtain ⟨_, _, heq⟩ := bind_eq_ok.mp heq
        cases heq
        exact h write hwrite
      refine congrArg Except.ok ?_
      show Grid.filled dtype [] ((lastWritten rank values position).getD x) = ⟨dtype, [], #[x]⟩
      rw [hnone, Option.getD_none, Grid.filled, hx]
      rfl

-- What some writes make of a grid. Without one of the values there is no grid.
def Rewrites (dtype : DataType) (original : Grid) (writes : List (Coord × Except MapError Float))
    (content : Except MapError Grid) : Prop :=
  match written writes with
  | .ok values => ∃ current, content = .ok current ∧ original.Rewritten dtype values current
  | .error problem => content = .error problem

section Rewriting

variable {dtype : DataType} {original : Grid} {writes : List (Coord × Except MapError Float)}
  {content : Except MapError Grid}

theorem rewrites_ok {values : List (Coord × Float)} (h : written writes = .ok values) :
    Rewrites dtype original writes content ↔
      ∃ current, content = .ok current ∧ original.Rewritten dtype values current := by
  rw [Rewrites, h]

theorem rewrites_error {problem : MapError} (h : written writes = .error problem) :
    Rewrites dtype original writes content ↔ content = .error problem := by
  rw [Rewrites, h]

-- The first value that is missing stays the reason.
theorem Rewrites.update {found : Except MapError Grid} {coord : Coord} {value : Except MapError Float}
    (hidem : ∀ x, dtype.normalize (dtype.normalize x) = dtype.normalize x)
    (hrank : original.shape.length ≤ maxRank)
    (hposition : Grid.Within original.shape (coord.values.take original.shape.length))
    (hfound : found.bind (·.cell 0) = value ∨ found.bind (·.cell 0) = value.map dtype.normalize)
    (h : Rewrites dtype original writes content) :
    Rewrites dtype original (writes ++ [(coord, value)])
      (do Graph.updated (← content) dtype coord (← found)) := by
  have happend := written_append writes coord value
  cases hwritten : written writes with
  | error problem =>
      obtain rfl := (rewrites_error hwritten).mp h
      rw [hwritten] at happend
      exact (rewrites_error happend).mpr rfl
  | ok values =>
      obtain ⟨current, rfl, hcurrent⟩ := (rewrites_ok hwritten).mp h
      rw [hwritten] at happend
      obtain ⟨index, hindex⟩ : ∃ index,
          current.offset (coord.values.take original.shape.length) = some index := by
        rw [Grid.offset, hcurrent.has.shape]
        exact Grid.offsetFrom_total hposition 0
      have hupdated : (do Graph.updated (← Except.ok current) dtype coord (← found)) =
          (found.bind (·.cell 0)).map ((current.cast dtype).set index) := by
        cases found with
        | error problem => rfl
        | ok grid => exact hcurrent.has.updated_eq hrank dtype hindex grid
      rw [hupdated]
      cases value with
      | error problem =>
          refine (rewrites_error happend).mpr ?_
          obtain hsame | hsame := hfound <;> rw [hsame] <;> rfl
      | ok x =>
          refine (rewrites_ok happend).mpr ?_
          obtain hsame | hsame := hfound
          · rw [hsame]
            exact ⟨_, rfl, hcurrent.write hidem hindex rfl⟩
          · rw [hsame]
            exact ⟨_, rfl, hcurrent.write hidem hindex (hidem x)⟩

end Rewriting

-- Whatever happens to a graph, a node that stays keeps its type, its extents and its grid.
theorem Changes.persist (h : Changes before after) (hbefore : Looped before) {id : Nat} {info : Meta}
    (hinfo : before.info id = .ok info) (hstays : after.nodes.contains id = true) :
    ∃ noted, after.info id = .ok noted ∧ noted.form = info.form ∧
      after.gridOf id = before.gridOf id := by
  have hconsistent := hbefore.consistent
  have hconsistent' := (hbefore.changes h).consistent
  obtain ⟨old, hfind, hsame⟩ := bind_eq_ok.mp hinfo
  obtain rfl := Except.ok.inj hsame
  have hold := (State.find_eq_ok hfind).2
  have hlt := (hconsistent.counted.numbered.range hold).2
  obtain ⟨node, hnode⟩ := (Table.contains_iff _ _).mp hstays
  obtain ⟨found, hfound, hkeeps⟩ := h.onward.node hnode hlt
  obtain rfl := Option.some.inj (hold.symm.trans hfound)
  refine ⟨node.info, ?_, hkeeps.form, ?_⟩
  · exact bind_eq_ok.mpr ⟨node, State.find_eq hconsistent'.counted.numbered hnode, rfl⟩
  · exact hconsistent.gridOf_eq hconsistent' h.onward hstays hlt

-- A raster is copied, and cells of the copy are written. In between anything else may happen, as long
-- as the copy and the other handles are kept. The states that the run has passed are listed.
inductive Overwrites (others : Tally) (original : Raster) (start : State) :
    List State → List (Coord × Except MapError Float) → Raster → State → Prop
  | copy {clone : Raster} {after : State}
      (h : simulator.copy original start = (.ok clone, after)) :
      Overwrites others original start [start] [] clone after
  | meanwhile {passed : List State} {writes : List (Coord × Except MapError Float)} {clone : Raster}
      {state after : State} (h : Overwrites others original start passed writes clone state)
      (hlater : Later state after) (hkept : Backs after (others + clone.held)) :
      Overwrites others original start (state :: passed) writes clone after
  | write {passed : List State} {writes : List (Coord × Except MapError Float)} {clone moved : Raster}
      {state after : State} {coord : Coord} {operand : Operand}
      (h : Overwrites others original start passed writes clone state)
      (hset : simulator.setCell clone coord operand state = (.ok moved, after)) :
      Overwrites others original start (state :: passed)
        (writes ++ [(coord, state.operandValue operand)]) moved after

-- What is known about the copy of a raster while its cells are written.
structure Overwritten (others : Tally) (info : Meta) (original : Grid) (passed : List State)
    (writes : List (Coord × Except MapError Float)) (clone : Raster) (state : State) : Prop where
  looped : Looped state
  passed : ∀ earlier ∈ passed, Looped earlier ∧ Changes earlier state
  backs : Backs state (others + clone.held)
  value : ∃ node noted content, clone.node = some node ∧
    state.valueOf node = ⟨.ok noted, content⟩ ∧ noted.form = info.form ∧
    Rewrites info.dtype original writes content

-- The states that a change has passed.
theorem passed_cons {passed : List State}
    (h : ∀ earlier ∈ passed, Looped earlier ∧ Changes earlier state) (hlooped : Looped state)
    (hchanges : Changes state after) :
    ∀ earlier ∈ state :: passed, Looped earlier ∧ Changes earlier after := by
  intro earlier hmember
  obtain rfl | hmember := List.mem_cons.mp hmember
  · exact ⟨hlooped, hchanges⟩
  · exact ⟨(h earlier hmember).1, (h earlier hmember).2.trans hchanges⟩

theorem Overwrites.overwritten {start : State} {others : Tally} {original clone : Raster}
    {passed : List State} {root : Address} {info : Meta} {grid : Grid}
    {writes : List (Coord × Except MapError Float)}
    (hlooped : Looped start) (hbacks : Backs start others) (hothers : 0 ≤ others)
    (hroot : original.node = some root)
    (hvalue : start.valueOf root = ⟨.ok info, .ok grid⟩) (hhas : grid.Has info.form)
    (hrank : info.shape.length ≤ maxRank)
    (hidem : ∀ x, info.dtype.normalize (info.dtype.normalize x) = info.dtype.normalize x)
    (h : Overwrites others original start passed writes clone after) :
    Overwritten others info grid passed writes clone after := by
  have hshape : grid.shape = info.shape := hhas.shape
  induction h with
  | copy hcopy =>
      simp only [Engine.copy, hroot] at hcopy
      cases hcopy
      have hlive : start.nodes.contains root = true :=
        State.contains_of_info (congrArg Value.info hvalue)
      have hbuilds := Builds.acquire start root
      have hbacks' : Backs (start.acquire root) (others + original.held) :=
        Raster.held_of_node hroot ▸ hbacks.acquire hlive
      have hsame := hbuilds.valueOf_held hlooped hbacks' hroot (le_add_of_nonneg_left hothers) hlive
      refine ⟨hbuilds.looped hlooped, passed_cons (List.forall_mem_nil _) hlooped hbuilds.changes, hbacks', root, info,
        .ok grid, hroot, hsame.trans hvalue, rfl, grid, rfl, .refl ?_⟩
      exact hshape ▸ hhas
  | @meanwhile passed writes clone state after _ hlater hkept ih =>
      obtain ⟨node, noted, content, hnode, hvalue, hform, hcontent⟩ := ih.value
      have hchanges := hlater.changes ih.looped
      have hstays := hkept.live_of_held hnode (le_add_of_nonneg_left hothers)
      obtain ⟨again, hagain, hsame, hgrid⟩ :=
        hchanges.persist ih.looped (congrArg Value.info hvalue) hstays
      refine ⟨ih.looped.changes hchanges, passed_cons ih.passed ih.looped hchanges, hkept, node,
        again, content, hnode, ?_, hsame.trans hform, hcontent⟩
      rw [State.valueOf, hagain, hgrid]
      exact congrArg (Value.mk _) (congrArg Value.grid hvalue)
  | @write passed writes clone moved state after coord operand _ hset ih =>
      obtain ⟨node, noted, content, hnode, hvalue, hform, hcontent⟩ := ih.value
      have hset := Handed.setCell ih.looped ih.backs hothers hnode hvalue hset
      obtain ⟨id, made, result, hid, hmade, hsame, hposition, found, hfound, rfl⟩ := hset.value
      have hdtype : noted.dtype = info.dtype := congrArg Form.dtype hform
      have hextents : noted.shape = grid.shape := (congrArg Form.shape hform).trans hshape.symm
      rw [hdtype] at hfound hmade
      rw [hextents] at hposition
      refine ⟨hset.builds.looped ih.looped, passed_cons ih.passed ih.looped hset.builds.changes,
        hset.backs, id, made, _, hid, hmade, hsame.trans hform, ?_⟩
      exact hcontent.update hidem (hshape ▸ hrank) hposition hfound

-- What was there at some time of the run is as it was, if it was kept or is still there.
theorem Overwritten.lasts {others : Tally} {info old : Meta} {original : Grid} {passed : List State}
    {writes : List (Coord × Except MapError Float)} {clone : Raster} {node : Address}
    (h : Overwritten others info original passed writes clone after) (hbefore : before ∈ passed)
    (hold : before.info node = .ok old)
    (hstays : 0 < others node ∨ after.nodes.contains node = true) :
    ∃ noted, after.info node = .ok noted ∧ noted.dtype = old.dtype ∧ noted.shape = old.shape ∧
      after.grid node = before.grid node := by
  obtain ⟨hlooped, hchanges⟩ := h.passed before hbefore
  have hkept : Backs after others := h.backs.mono (le_add_of_nonneg_right clone.held_nonneg)
  have hlive : after.nodes.contains node = true := hstays.elim hkept.live id
  obtain ⟨noted, hnoted, hsame, hgrid⟩ := hchanges.persist hlooped hold hlive
  refine ⟨noted, hnoted, congrArg Form.dtype hsame, congrArg Form.shape hsame, ?_⟩
  rw [← State.gridOf_eq_grid hlooped, ← State.gridOf_eq_grid h.looped, hgrid]

theorem Overwrites.start_mem {start : State} {others : Tally} {original clone : Raster}
    {passed : List State} {writes : List (Coord × Except MapError Float)}
    (h : Overwrites others original start passed writes clone after) : start ∈ passed := by
  induction h with
  | copy => exact List.mem_singleton_self start
  | meanwhile _ _ _ ih => exact List.mem_cons_of_mem _ ih
  | write _ _ ih => exact List.mem_cons_of_mem _ ih

-- A cell of a raster can be read wherever the raster has one.
theorem cellAt_total {tally : Tally} {raster : Raster} {node : Address} {info : Meta}
    {content : Except MapError Grid} {coord : Coord}
    (hlooped : Looped state) (hbacks : Backs state tally) (hnode : raster.node = some node)
    (hvalue : state.valueOf node = ⟨.ok info, content⟩) (haxes : info.shape ≠ [])
    (hrank : info.shape.length ≤ maxRank)
    (hposition : Grid.Within info.shape (coord.values.take info.shape.length)) :
    ∃ single made id, simulator.cellAt raster coord state = (.ok single, made) ∧
      single.node = some id ∧ made.grid id =
        do return .filled info.dtype [] (← accessed (← content) coord) := by
  have hinfo : state.info node = .ok info := congrArg Value.info hvalue
  have hgrid : state.gridOf node = content := congrArg Value.grid hvalue
  have hdraft : state.draft (.access node coord) =
      .ok ⟨.access coord, info.derived info.dtype [], none⟩ :=
    bind_eq_ok.mpr ⟨info, hinfo,
      bind_eq_ok.mpr ⟨(), checkCoord_of_within haxes hrank hposition, rfl⟩⟩
  obtain ⟨single, made, id, hmake, hbuilds, -, hid, hmade⟩ := made hlooped hbacks hdraft
    (List.forall_mem_singleton.mpr (State.contains_of_info hinfo)) rfl
  have hrequire : raster.require = .ok node := by rw [Raster.require, hnode]
  refine ⟨single, made, id, ?_, hid, ?_⟩
  · rw [Engine.cellAt, derive_eq hrequire]
    exact hmake
  · rw [← State.gridOf_eq_grid (hbuilds.looped hlooped)]
    refine (congrArg Value.grid hmade).trans ?_
    show (do (NodeKind.access coord).apply _ (← [node].mapM state.gridOf)) = _
    rw [List.mapM_cons, hgrid]
    cases content <;> rfl

-- A cell that is read has the value that was written to it last, or else the one it had at first.
theorem Rewrites.accessed {dtype : DataType} {original : Grid}
    {writes : List (Coord × Except MapError Float)} {content : Except MapError Grid} {coord : Coord}
    {x : Float} (h : Rewrites dtype original writes content) (hrank : original.shape.length ≤ maxRank)
    (hposition : Grid.Within original.shape (coord.values.take original.shape.length))
    (hx : original.get (coord.values.take original.shape.length) = .ok (some x)) :
    (do return Grid.filled dtype [] (← Graph.accessed (← content) coord)) =
      (written writes).map fun values => .filled dtype []
        ((lastWritten original.shape.length values
          (coord.values.take original.shape.length)).getD x) := by
  cases hwritten : written writes with
  | error problem =>
      obtain rfl := (rewrites_error hwritten).mp h
      rfl
  | ok values =>
      obtain ⟨current, rfl, hcurrent⟩ := (rewrites_ok hwritten).mp h
      obtain ⟨first, y, hfirst, hy, hsame⟩ := hcurrent.cell _ hposition
      obtain rfl : x = first := Option.some.inj (Except.ok.inj (hx.symm.trans hfirst))
      refine bind_eq_ok.mpr ⟨current, rfl, ?_⟩
      refine bind_eq_ok.mpr ⟨y, hcurrent.has.accessed_eq hrank hy, congrArg Except.ok ?_⟩
      unfold Grid.filled
      rw [hsame]

-- After any run of writes to cells of a copy of a raster, each cell of the copy has the value that was
-- written to it last, brought into the type of the raster, or else the one that it had at first. That
-- one is read as it is, unless the raster held a value that is not of its type. When one of the
-- values cannot be computed, a read fails as the first of them does. The copy keeps its type and its
-- extents, and the original keeps its grid. So does every other node, from any time of the run on,
-- as long as it is there.
theorem writes_update_cells {start : State} {others : Tally} {original clone : Raster}
    {passed : List State} {root : Address} {info : Meta} {grid : Grid}
    {writes : List (Coord × Except MapError Float)} (hstart : Reachable start)
    (hbacks : Backs start others) (hothers : 0 ≤ others) (hheld : original.held ≤ others)
    (hroot : original.node = some root) (hinfo : start.info root = .ok info)
    (hgrid : start.grid root = .ok grid) (hhas : grid.Has ⟨info.dtype, info.shape⟩)
    (haxes : info.shape ≠ []) (hrank : info.shape.length ≤ maxRank)
    (hidem : ∀ x, info.dtype.normalize (info.dtype.normalize x) = info.dtype.normalize x)
    (h : Overwrites others original start passed writes clone after) :
    (∃ node noted, clone.node = some node ∧ after.info node = .ok noted ∧
      noted.dtype = info.dtype ∧ noted.shape = info.shape) ∧
    (∀ coord : Coord, Grid.Within info.shape (coord.values.take info.shape.length) →
      ∃ x single made node, grid.get (coord.values.take info.shape.length) = .ok (some x) ∧
        simulator.cellAt clone coord after = (.ok single, made) ∧ single.node = some node ∧
        made.grid node = (written writes).map fun values =>
          .filled info.dtype [] ((lastWritten info.shape.length values
            (coord.values.take info.shape.length)).getD x)) ∧
    (∀ coord : Coord, Grid.Within info.shape (coord.values.take info.shape.length) →
      (∀ write ∈ writes,
        write.1.values.take info.shape.length ≠ coord.values.take info.shape.length) →
      ∀ x, grid.get (coord.values.take info.shape.length) = .ok (some x) →
        info.dtype.normalize x = x → ∃ single made node,
          simulator.cellAt clone coord after = (.ok single, made) ∧ single.node = some node ∧
          made.grid node = (written writes).map fun _ => ⟨info.dtype, [], #[x]⟩) ∧
    after.grid root = .ok grid ∧
    ∀ earlier ∈ passed, ∀ node old, earlier.info node = .ok old →
      (0 < others node ∨ after.nodes.contains node = true) →
        ∃ noted, after.info node = .ok noted ∧ noted.dtype = old.dtype ∧ noted.shape = old.shape ∧
          after.grid node = earlier.grid node := by
  have hlooped := hstart.looped
  have hshape : grid.shape = info.shape := hhas.shape
  have hvalue : start.valueOf root = ⟨.ok info, .ok grid⟩ := by
    rw [State.valueOf, hinfo, State.gridOf_eq_grid hlooped, hgrid]
  have hrun := h.overwritten hlooped hbacks hothers hroot hvalue hhas hrank hidem
  obtain ⟨node, noted, content, hnode, hcontent, hform, hrewrites⟩ := hrun.value
  have hdtype : noted.dtype = info.dtype := congrArg Form.dtype hform
  have hextents : noted.shape = info.shape := congrArg Form.shape hform
  have hread : ∀ {coord : Coord} {x : Float},
      Grid.Within info.shape (coord.values.take info.shape.length) →
      grid.get (coord.values.take info.shape.length) = .ok (some x) →
        ∃ single made id, simulator.cellAt clone coord after = (.ok single, made) ∧
          single.node = some id ∧ made.grid id = (written writes).map fun values =>
            .filled info.dtype [] ((lastWritten info.shape.length values
              (coord.values.take info.shape.length)).getD x) := by
    intro coord x hposition hx
    obtain ⟨single, made, id, hread, hid, hmade⟩ := cellAt_total hrun.looped hrun.backs hnode hcontent
      (hextents ▸ haxes) (hextents ▸ hrank) (hextents.symm ▸ hposition)
    refine ⟨single, made, id, hread, hid, hmade.trans ?_⟩
    rw [← hshape] at hrank hposition hx ⊢
    rw [hdtype]
    exact hrewrites.accessed hrank hposition hx
  refine ⟨⟨node, noted, hnode, congrArg Value.info hcontent, hdtype, hextents⟩,
    fun coord hposition => ?_, fun coord hposition helsewhere x hx hvalue => ?_, ?_,
    fun earlier hearlier _ _ => hrun.lasts hearlier⟩
  · obtain ⟨x, hx⟩ := hhas.get_within hposition
    obtain ⟨single, made, id, hcell, hid, hmade⟩ := hread hposition hx
    exact ⟨x, single, made, id, hx, hcell, hid, hmade⟩
  · obtain ⟨single, made, id, hcell, hid, hmade⟩ := hread hposition hx
    exact ⟨single, made, id, hcell, hid, hmade.trans (written_elsewhere helsewhere hvalue)⟩
  · have hheld' : original.held ≤ others + clone.held :=
      hheld.trans (le_add_of_nonneg_right clone.held_nonneg)
    have hstays := hrun.backs.live_of_held hroot hheld'
    obtain ⟨-, -, -, -, hsame⟩ := hrun.lasts h.start_mem hinfo (.inr hstays)
    exact hsame.trans hgrid

-- Three cells of one and a half in a row.
def row : Layout := { Layout.single .f64 with size := .ofExtents [3] }

def rowed : State :=
  (State.empty 5 none).afterCalls [.construct (.constant (.f64 1.5) row), .acquire 1]

-- The cell in the middle of a copy is written twice, at last with a number of another type. The copy
-- has the last value there, and next to it what was there before. The original is as it was.
theorem last_write_reads :
    ∃ once twice clone, Overwrites (Raster.held (.on 1 (by decide))) (.on 1 (by decide)) rowed
        [once, rowed.acquire 1, rowed] [(⟨1, 0⟩, .ok 2.5), (⟨1, 5⟩, .ok 4)] clone twice ∧
      (∃ single made node, simulator.cellAt clone ⟨1, 2⟩ twice = (.ok single, made) ∧
        single.node = some node ∧ made.grid node = .ok (.filled .f64 [] 4)) ∧
      (∃ single made node, simulator.cellAt clone ⟨2, 1⟩ twice = (.ok single, made) ∧
        single.node = some node ∧ made.grid node = .ok (.filled .f64 [] 1.5)) ∧
      twice.grid 1 = .ok (.filled .f64 [3] 1.5) := by
  have hreachable : Reachable rowed := (Reachable.empty 5 none).calls _ (by decide)
  have hbacks : Backs rowed (Raster.held (.on 1 (by decide))) := by
    intro node
    show Tally.one 1 node ≤ _
    by_cases hnode : node = 1
    · subst hnode
      decide
    · rw [Tally.one, if_neg hnode]
      exact Int.natCast_nonneg _
  obtain ⟨once, twice, honce, htwice⟩ : ∃ once twice,
      simulator.setCell (.on 1 (by decide)) ⟨1, 0⟩ (.host (.f64 2.5)) (rowed.acquire 1) =
        (.ok (.on 3 (by decide)), once) ∧
      simulator.setCell (.on 3 (by decide)) ⟨1, 5⟩ (.host (.s32 4)) once =
        (.ok (.on 6 (by decide)), twice) := ⟨_, _, rfl, rfl⟩
  have hrun : Overwrites (Raster.held (.on 1 (by decide))) (.on 1 (by decide)) rowed
      [once, rowed.acquire 1, rowed] [(⟨1, 0⟩, .ok 2.5), (⟨1, 5⟩, .ok 4)] (.on 6 (by decide)) twice :=
    ((Overwrites.copy rfl).write honce).write htwice
  have hinfo : rowed.info 1 = .ok (.ofLayout row) := rfl
  have hgrid : rowed.grid 1 = .ok (.filled .f64 [3] 1.5) := rfl
  obtain ⟨-, hreads, hkept, horiginal, -⟩ := writes_update_cells hreachable hbacks (Raster.held_nonneg _)
    (le_refl _) rfl hinfo hgrid (Grid.has_filled _ _ _) (by decide) (by decide) (fun _ => rfl) hrun
  refine ⟨once, twice, _, hrun, ?_, ?_, horiginal⟩
  · obtain ⟨x, single, made, node, -, hcell, hnode, hmade⟩ :=
      hreads ⟨1, 2⟩ (.cons (by decide) .nil)
    exact ⟨single, made, node, hcell, hnode, hmade.trans rfl⟩
  · obtain ⟨single, made, node, hcell, hnode, hmade⟩ :=
      hkept ⟨2, 1⟩ (.cons (by decide) .nil) (by decide) 1.5 rfl rfl
    exact ⟨single, made, node, hcell, hnode, hmade.trans rfl⟩

end Graph

end MapAlgebra
