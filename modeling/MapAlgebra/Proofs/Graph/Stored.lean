import MapAlgebra.Proofs.Graph.Lasting
import MapAlgebra.Proofs.Json.Printed

namespace MapAlgebra

-- A number whose data text is read back as the same number.
def Number.Rereads (x : Float) : Prop := (Json.read (Number.floatData x)).bind Json.float? = some x

-- A number that has a value at all.
def Number.IsFinite (x : Float) : Prop := ∃ negative significand exponent,
  Number.Binary.ofFloat x = .finite negative significand exponent

-- A grid that data text can hold: the extents fit the words of the memory, and the text of each cell
-- that is finite is read back as the same number.
structure Grid.Printed (grid : Grid) : Prop where
  extents : ∀ extent ∈ grid.shape, extent < Nat.pow 2 64
  cells : ∀ x ∈ grid.cells, Number.IsFinite x → Number.Rereads x

namespace Json

theorem mapM_eq_some {α β : Type} {f : α → Option β} {items : List α} {results : List β}
    (h : List.Forall₂ (fun item result => f item = some result) items results) :
    items.mapM f = some results := by
  induction h with
  | nil => rfl
  | cons hfirst _ ih => rw [List.mapM_cons, hfirst, ih]; rfl

theorem mapM_eq_none {α β : Type} {f : α → Option β} {items : List α} {item : α}
    (hitem : item ∈ items) (h : f item = none) : items.mapM f = none := by
  induction items with
  | nil => cases hitem
  | cons first items ih =>
      rw [List.mapM_cons]
      obtain rfl | hrest := List.mem_cons.mp hitem
      · rw [h]
        rfl
      · rw [ih hrest]
        cases f first <;> rfl

-- A cell is written as its number, or as nothing when it is not finite.
theorem reads_cell {x : Float} (h : Number.IsFinite x → Number.Rereads x) :
    ∃ json, Reads (Number.floatData x).toList json ∧
      (Number.IsFinite x → json.float? = some x) ∧ (¬ Number.IsFinite x → json.float? = none) := by
  by_cases hfinite : Number.IsFinite x
  · obtain ⟨json, hread, hfloat⟩ := Option.bind_eq_some_iff.mp (h hfinite)
    cases json with
    | number numeral =>
        exact ⟨.number numeral, reads_number hread, fun _ => hfloat, fun hnot => absurd hfinite hnot⟩
    | _ => cases hfloat
  · have htext : Number.floatData x = "null" := by
      unfold Number.floatData Number.Format.dataText
      split
      · rename_i hsome
        exact absurd ⟨_, _, _, hsome⟩ hfinite
      · rfl
    exact ⟨.null, htext ▸ reads_null, fun hyes => absurd hyes hfinite, fun _ => rfl⟩

theorem count?_nat {n : Nat} (h : n < Nat.pow 2 64) :
    count? (.number ⟨false, n, 0, true⟩) = some n := by
  have hwhole : Numeral.whole? ⟨false, n, 0, true⟩ = some (n : Int) := if_pos h
  have hwithin : (0 : Int) ≤ n ∧ (n : Int) ≤ Nat.pow 2 64 - 1 := by omega
  simp only [count?, intIn, hwhole, Option.bind_eq_bind, Option.bind_some, if_pos hwithin,
    Option.map_some, Int.toNat_natCast]

end Json

namespace Grid

open Json

-- The tree of a grid whose cells are read as certain trees.
theorem reads_dataText {grid : Grid} {cells : List Json}
    (hcells : List.Forall₂ (fun x json => Reads (Number.floatData x).toList json)
      grid.cells.toList cells) :
    Json.read grid.dataText = some (.object
      [(some "dtype", .string (some (Coded.variant grid.dtype))),
        (some "shape", .array (grid.shape.map fun n => .number ⟨false, n, 0, true⟩)),
        (some "data", .array cells)]) := by
  refine Reads.read (reads_braces ?_ (List.cons_ne_nil _ _))
  refine .cons (reads_member rfl ?_) (.cons (reads_member rfl ?_) (.cons (reads_member rfl ?_) .nil))
  · refine reads_quote (Reader.plain_of_all ?_)
    cases grid.dtype <;> rfl
  · refine reads_list (List.forall₂_map_left_iff.mpr (List.forall₂_map_right_iff.mpr ?_))
    exact List.forall₂_same.mpr fun n _ => reads_number (read_nat n)
  · exact reads_list (List.forall₂_map_left_iff.mpr hcells)

theorem ofJson?_object (dtype : DataType) (shape : List Nat)
    (hshape : ∀ extent ∈ shape, extent < Nat.pow 2 64) (cells : List Json) :
    Grid.ofJson? (.object [(some "dtype", .string (some (Coded.variant dtype))),
        (some "shape", .array (shape.map fun n => .number ⟨false, n, 0, true⟩)),
        (some "data", .array cells)]) =
      (cells.mapM Json.float?).map fun cells => ⟨dtype, shape, cells.toArray⟩ := by
  have hdtype : Coded.ofVariant? (Coded.variant dtype) = some dtype := by cases dtype <;> rfl
  have hextents : (shape.map fun n => Json.number ⟨false, n, 0, true⟩).mapM count? = some shape :=
    mapM_eq_some (List.forall₂_map_left_iff.mpr (List.forall₂_same.mpr fun n hn =>
      count?_nat (hshape n hn)))
  have hrecord : ∀ dtype shape cells : Json, record? ["dtype", "shape", "data"]
      (.object [(some "dtype", dtype), (some "shape", shape), (some "data", cells)]) =
        some [some dtype, some shape, some cells] := fun _ _ _ => rfl
  have hcoded : coded? (.string (some (Coded.variant dtype))) = some dtype := hdtype
  have hlist : listOf count? (.array (shape.map fun n => .number ⟨false, n, 0, true⟩)) =
      some shape := hextents
  simp only [Grid.ofJson?, hrecord, Option.bind_eq_bind, Option.bind_some, hcoded, hlist]
  show (cells.mapM Json.float?).bind _ = _
  cases cells.mapM Json.float? <;> rfl

-- Data text gives back a grid all of whose cells are finite, and no other.
theorem readData_dataText {grid : Grid} (h : grid.Printed) :
    ((∀ x ∈ grid.cells, Number.IsFinite x) → readData Grid.ofJson? grid.dataText = .ok grid) ∧
      ((∃ x ∈ grid.cells, ¬ Number.IsFinite x) →
        readData Grid.ofJson? grid.dataText = .error .data) := by
  have hcells : ∀ x ∈ grid.cells.toList, ∃ json, Reads (Number.floatData x).toList json ∧
      (Number.IsFinite x → json.float? = some x) ∧ (¬ Number.IsFinite x → json.float? = none) :=
    fun x hx => reads_cell (h.cells x (Array.mem_toList_iff.mp hx))
  choose! json hreads hfinite hinfinite using hcells
  have htext := reads_dataText (List.forall₂_map_right_iff.mpr (List.forall₂_same.mpr hreads))
  have hgrid : readData Grid.ofJson? grid.dataText = match
      ((grid.cells.toList.map json).mapM Json.float?) with
        | some cells => .ok ⟨grid.dtype, grid.shape, cells.toArray⟩
        | none => .error .data := by
    rw [readData, htext, Option.bind_some, ofJson?_object _ _ h.extents]
    cases (grid.cells.toList.map json).mapM Json.float? <;> rfl
  refine ⟨fun hall => ?_, fun ⟨x, hx, hnot⟩ => ?_⟩
  · have hmap : (grid.cells.toList.map json).mapM Json.float? = some grid.cells.toList :=
      mapM_eq_some (List.forall₂_map_left_iff.mpr (List.forall₂_same.mpr fun x hx =>
        hfinite x hx (hall x (Array.mem_toList_iff.mp hx))))
    rw [hgrid, hmap]
  · have hmember := Array.mem_toList_iff.mpr hx
    rw [hgrid, mapM_eq_none (List.mem_map_of_mem hmember) (hinfinite x hmember hnot)]

end Grid

namespace Graph

-- What is written into a directory is what another graph with that directory loads.
theorem Store.load_save {store next : Store} {directory : Directory} {name : String} {grid : Grid}
    (hdirectory : store.directory = some directory) (h : store.save name grid = (.done, next)) :
    (Store.empty next.directory).load name = readData Grid.ofJson? grid.dataText := by
  unfold Store.save at h
  split at h
  · cases h
  · rw [hdirectory] at h
    dsimp only at h
    split at h
    · rename_i husable
      cases h
      have hfile : (directory.put name grid.dataText).file? name = some grid.dataText := by
        rw [Directory.file?, if_pos husable, Directory.put, List.lookup_cons_self]
      simp only [Store.load, Store.empty, Store.get?, List.lookup_nil, Option.bind_some, hfile]
    · cases h

-- A write that succeeds has saved the grid of the node.
theorem write_done {state after : State} {node : Address} {resource : String}
    (h : simulator.write node resource state = (.ok 0, after)) :
    ∃ grid, state.grid node = .ok grid ∧ state.store.save resource grid = (.done, after.store) := by
  have hrun : atomically (·.write node resource) state = (.ok 0, after) := h
  obtain ⟨grid, hgrid, hsaved⟩ := bind_eq_ok.mp (atomically_eq_ok hrun)
  refine ⟨grid, hgrid, ?_⟩
  cases hsave : state.store.save resource grid with
  | mk status store =>
      rw [hsave] at hsaved
      cases status with
      | done =>
          cases hsaved
          rfl
      | _ => cases hsaved

-- A graph that loads a grid makes a node with its type, its extents and its cells.
theorem read_node {fresh : State} {resource : String} {grid : Grid} (hfresh : Reachable fresh)
    (hload : fresh.store.load resource = .ok grid) :
    ∃ id next info, simulator.construct (.read resource) fresh = (.ok id, next) ∧
      next.info id = .ok info ∧ info.dtype = grid.dtype ∧ info.shape = grid.shape ∧
      next.grid id = .ok grid := by
  let info : Meta := ⟨grid.dtype, grid.shape, .usual, .unset, .unset, .input⟩
  let next := (fresh.create (.read resource grid) [] info).2
  have hconstruct : simulator.construct (.read resource) fresh = (.ok fresh.nextId, next) := by
    have hdone : fresh.construct (.read resource) = .ok (fresh.nextId, next) :=
      bind_eq_ok.mpr ⟨⟨.read resource grid, info, none⟩,
        bind_eq_ok.mpr ⟨grid, hload, rfl⟩, rfl⟩
    show atomically (·.construct (.read resource)) fresh = _
    simp only [atomically, hdone]
  have hnext : Reachable next := by
    have hcall := hfresh.call (.construct (.read resource)) nofun
    rw [Call.after, hconstruct] at hcall
    exact hcall
  have hnode := State.get?_create fresh (.read resource grid) [] info fresh.nextId
  rw [if_pos rfl] at hnode
  have hconsistent := hnext.consistent
  have hnumbered := hconsistent.counted.numbered
  refine ⟨fresh.nextId, next, info, hconstruct, ?_, rfl, rfl, ?_⟩
  · exact bind_eq_ok.mpr ⟨_, State.find_eq hnumbered hnode, rfl⟩
  · rw [hnext.grid_eq, State.gridOf_node hconsistent.founded hnumbered hnode, State.nodeGrid_plain rfl]
    rfl

-- A grid that was written into a directory is read back from it by another graph, when all of its
-- cells are finite. When one is not, the written file cannot be read.
theorem written_grid_reread {state after : State} {directory : Directory} {node : Address}
    {resource : String} (hdirectory : state.store.directory = some directory)
    (hwrite : simulator.write node resource state = (.ok 0, after)) (limit : Nat) :
    ∃ grid, state.grid node = .ok grid ∧ (grid.Printed →
      ((∀ x ∈ grid.cells, Number.IsFinite x) →
        ∃ id next info,
          simulator.construct (.read resource) (.empty limit after.store.directory) =
            (.ok id, next) ∧
          next.info id = .ok info ∧ info.dtype = grid.dtype ∧ info.shape = grid.shape ∧
          next.grid id = .ok grid) ∧
      ((∃ x ∈ grid.cells, ¬ Number.IsFinite x) →
        simulator.construct (.read resource) (.empty limit after.store.directory) =
          (.error .data, .empty limit after.store.directory))) := by
  obtain ⟨grid, hgrid, hsave⟩ := write_done hwrite
  refine ⟨grid, hgrid, fun hprinted => ?_⟩
  have hload : (State.empty limit after.store.directory).store.load resource =
      readData Grid.ofJson? grid.dataText := Store.load_save hdirectory hsave
  obtain ⟨hfinite, hinfinite⟩ := Grid.readData_dataText hprinted
  refine ⟨fun hall => ?_, fun hnot => ?_⟩
  · exact read_node (.empty limit _) (hload.trans (hfinite hall))
  · have hfails : (State.empty limit after.store.directory).construct (.read resource) =
        .error .data := by
      rw [State.construct, State.draft, draftOf, hload, hinfinite hnot]
      rfl
    show atomically (·.construct (.read resource)) (.empty limit after.store.directory) = _
    simp only [atomically, hfails]

-- Three halves, beside an empty directory.
def threeHalves : State := (State.empty 5 (some ⟨[]⟩)).afterCalls
  [.construct (.constant (.f64 1.5) (.single .f64)), .acquire 1]

theorem threeHalves_reread :
    ∃ after id next, simulator.write 1 "a" threeHalves = (.ok 0, after) ∧
      simulator.construct (.read "a") (.empty 5 after.store.directory) = (.ok id, next) ∧
      next.grid id = .ok ⟨.f64, [], #[1.5]⟩ := by
  have hwrite : simulator.write 1 "a" threeHalves =
      (.ok 0, (simulator.write 1 "a" threeHalves).2) := Prod.ext rfl rfl
  obtain ⟨grid, hgrid, hreread⟩ := written_grid_reread rfl hwrite 5
  obtain rfl : ⟨.f64, [], #[1.5]⟩ = grid := Except.ok.inj hgrid
  have hfinite : Number.IsFinite 1.5 := ⟨false, 3 * 2 ^ 51, -52, by decide +kernel⟩
  have hreads : Number.Rereads 1.5 := by
    unfold Number.Rereads
    decide +kernel
  have hcells : ∀ x ∈ #[(1.5 : Float)], x = 1.5 := by simp
  obtain ⟨id, next, _, hconstruct, _, _, _, hvalue⟩ := (hreread ⟨nofun, fun x hx _ =>
    (hcells x hx).symm ▸ hreads⟩).1 fun x hx => (hcells x hx).symm ▸ hfinite
  exact ⟨_, id, next, hwrite, hconstruct, hvalue⟩

-- One by nothing, beside an empty directory.
def boundless : State := (State.empty 5 (some ⟨[]⟩)).afterCalls
  [.construct (.constant (.f32 1) (.single .f32)), .acquire 1,
    .construct (.constant (.f32 0) (.single .f32)), .acquire 2,
    .construct (.binary 1 2 .div), .acquire 3]

-- The write succeeds, and what it wrote cannot be read.
theorem boundless_lost :
    Reachable boundless ∧ ∃ after, simulator.write 3 "a" boundless = (.ok 0, after) ∧
      (simulator.construct (.read "a") (.empty 5 after.store.directory)).1 = .error .data := by
  have hlost : ∀ written : Except MapError Int × State,
      (match written with
        | (.ok 0, after) =>
            match (simulator.construct (.read "a") (.empty 5 after.store.directory)).1 with
            | .error .data => true
            | _ => false
        | _ => false) = true →
      ∃ after, written = (.ok 0, after) ∧
        (simulator.construct (.read "a") (.empty 5 after.store.directory)).1 = .error .data := by
    intro written h
    split at h
    · split at h
      · exact ⟨_, rfl, by assumption⟩
      · cases h
    · cases h
  exact ⟨(Reachable.empty 5 _).calls _ (by decide), hlost _ (by decide +kernel)⟩

end Graph

end MapAlgebra
