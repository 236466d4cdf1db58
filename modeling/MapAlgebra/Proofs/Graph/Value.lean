import MapAlgebra.Graph.Eval
import MapAlgebra.Proofs.Graph.Counts
import MapAlgebra.Proofs.Graph.Draft
import MapAlgebra.Proofs.Graph.Plan

namespace MapAlgebra.Graph.State

-- The final carried values of a loop when the grids of the nodes around it are known.
def finalValues (state : State) (grid : Nat → Except MapError Grid) (loop : Nat)
    (plan : LoopPlan) : Except MapError (List Grid) := do
  let inits ← plan.carried.mapM fun value => grid value.init
  let externals ← plan.externals.mapM fun node => do return (node, ← grid node)
  state.runRounds loop plan (.ofList externals) state.limit inits

-- The grid of a node when the grids of the nodes before it are known.
def nodeGrid (state : State) (grid : Nat → Except MapError Grid) (id : Nat) (node : Node) :
    Except MapError Grid :=
  match node.kind with
  | .loop plan => do entry (← state.finalValues grid id plan) 0
  | .loopTail index => do
      let loop ← entry node.inputs 0
      match (← state.find loop).kind with
      | .loop plan => do entry (← state.finalValues grid loop plan) index
      | other => throw (.engine (.looseTail other.label))
  | kind => do kind.apply node.info (← node.inputs.mapM grid)

def gridFrom (state : State) (grid : Nat → Except MapError Grid) (id : Nat) :
    Except MapError Grid := do
  state.nodeGrid grid id (← state.find id)

-- The grid of a node, computed from nothing but the graph. The fuel bounds the length of a chain
-- of inputs.
def gridWithin (state : State) : Nat → Nat → Except MapError Grid
  | 0, _ => .error .brokenInvariant
  | fuel + 1, id => state.gridFrom (state.gridWithin fuel) id

-- Inputs are there and older than the nodes that read them, and a loop reads whatever its plan
-- needs.
structure Founded (state : State) : Prop where
  input_live : ∀ {id node}, state.nodes.get? id = some node →
    ∀ input ∈ node.inputs, state.nodes.contains input = true ∧ input < id
  loop_inputs : ∀ {id node plan}, state.nodes.get? id = some node → node.kind = .loop plan →
    node.inputs = plan.body ++ plan.externals

-- The grid of a node as its graph determines it.
def gridOf (state : State) (id : Nat) : Except MapError Grid := state.gridWithin (id + 1) id

theorem entry_eq_ok {α : Type} {items : List α} {index : Nat} {item : α} :
    entry items index = .ok item ↔ items[index]? = some item := by
  unfold entry
  cases items[index]? with
  | none => simp
  | some found => simp

theorem find_eq {state : State} (h : Numbered state) {id : Nat} {node : Node}
    (hnode : state.nodes.get? id = some node) : state.find id = .ok node := by
  have hne : id ≠ Address.null := Nat.ne_of_gt (h.range hnode).1
  rw [find, if_neg hne, hnode]

theorem finalValues_congr {state : State} {f g : Nat → Except MapError Grid} {plan : LoopPlan}
    (loop : Nat) (h : ∀ node ∈ plan.externals, f node = g node) :
    state.finalValues f loop plan = state.finalValues g loop plan := by
  have hinits : (plan.carried.mapM fun value => f value.init) =
      plan.carried.mapM fun value => g value.init := mapM_congr fun value hvalue =>
    h _ ((plan.mem_externals _).mpr (Or.inl ⟨value, hvalue, rfl⟩))
  have hexternals : (plan.externals.mapM fun node => do return (node, ← f node)) =
      plan.externals.mapM fun node => do return (node, ← g node) :=
    mapM_congr fun node hnode => by rw [h node hnode]
  unfold finalValues
  rw [hinits, hexternals]

theorem Founded.input_lt {state : State} (h : Founded state) {id : Nat} {node : Node}
    (hnode : state.nodes.get? id = some node) : ∀ input ∈ node.inputs, input < id :=
  fun input hinput => (h.input_live hnode input hinput).2

theorem Founded.external_lt {state : State} (h : Founded state) {loop : Nat} {node : Node}
    {plan : LoopPlan} (hnode : state.nodes.get? loop = some node) (hkind : node.kind = .loop plan) :
    ∀ external ∈ plan.externals, external < loop := by
  intro external hexternal
  refine h.input_lt hnode external ?_
  rw [h.loop_inputs hnode hkind]
  exact List.mem_append_right _ hexternal

-- Only older nodes matter.
theorem nodeGrid_congr {state : State} (hfounded : Founded state)
    {f g : Nat → Except MapError Grid} {id : Nat} {node : Node}
    (hnode : state.nodes.get? id = some node) (h : ∀ input < id, f input = g input) :
    state.nodeGrid f id node = state.nodeGrid g id node := by
  have hinputs := mapM_congr fun input hinput => h input (hfounded.input_lt hnode input hinput)
  have hloop : ∀ {loop : Nat} {info : Node} {plan : LoopPlan}, loop ≤ id →
      state.nodes.get? loop = some info → info.kind = .loop plan →
      state.finalValues f loop plan = state.finalValues g loop plan := by
    intro loop info plan hle hinfo hkind
    refine finalValues_congr loop fun external hexternal => h external ?_
    have hlt := hfounded.external_lt hinfo hkind external hexternal
    omega
  unfold nodeGrid
  cases hkind : node.kind with
  | loop plan => simp only [hloop (Nat.le_refl id) hnode hkind]
  | loopTail index =>
      cases hentry : entry node.inputs 0 with
      | error problem => rfl
      | ok loop =>
          have hlt := hfounded.input_lt hnode loop (List.mem_of_getElem? (entry_eq_ok.mp hentry))
          simp only [bind, Except.bind]
          cases hfound : state.find loop with
          | error problem => rfl
          | ok info =>
              dsimp only
              cases hplan : info.kind with
              | loop plan => simp only [hloop (Nat.le_of_lt hlt) (find_eq_ok hfound).2 hplan]
              | _ => rfl
  | _ => simp only [hinputs]

theorem gridFrom_congr {state : State} (hfounded : Founded state)
    {f g : Nat → Except MapError Grid} {id : Nat} (h : ∀ input < id, f input = g input) :
    state.gridFrom f id = state.gridFrom g id := by
  unfold gridFrom
  cases hfind : state.find id with
  | error problem => rfl
  | ok node => exact nodeGrid_congr hfounded (find_eq_ok hfind).2 h

theorem gridWithin_eq {state : State} (hfounded : Founded state) {id fuel more : Nat}
    (hfuel : id < fuel) (hmore : id < more) : state.gridWithin fuel id = state.gridWithin more id := by
  induction id using Nat.strongRecOn generalizing fuel more with
  | ind id ih =>
      cases fuel with
      | zero => omega
      | succ fuel =>
          cases more with
          | zero => omega
          | succ more =>
              exact gridFrom_congr hfounded fun input hinput => ih input hinput (by omega) (by omega)

-- The grid of a node follows from the grids of older nodes.
theorem gridOf_eq {state : State} (hfounded : Founded state) (id : Nat) :
    state.gridOf id = state.gridFrom state.gridOf id :=
  gridFrom_congr hfounded fun input hinput => gridWithin_eq hfounded hinput (by omega)

-- The grid of a node that is there, by its operation.
theorem gridOf_node {state : State} (hfounded : Founded state) (hnumbered : Numbered state)
    {id : Nat} {node : Node} (hnode : state.nodes.get? id = some node) :
    state.gridOf id = state.nodeGrid state.gridOf id node := by
  rw [gridOf_eq hfounded, gridFrom, find_eq hnumbered hnode]
  rfl

theorem nodeGrid_plain {state : State} {grid : Nat → Except MapError Grid} {id : Nat} {node : Node}
    (hplain : node.kind.isPlain = true) : state.nodeGrid grid id node = (do
      node.kind.apply node.info (← node.inputs.mapM grid)) := by
  unfold nodeGrid
  cases hkind : node.kind with
  | loop plan =>
      rw [hkind] at hplain
      cases hplain
  | loopTail index =>
      rw [hkind] at hplain
      cases hplain
  | _ => rfl

-- What is remembered during an evaluation is right.
structure Memo.Right (state : State) (memo : Memo) : Prop where
  grids : ∀ {id grid}, memo.grids.get? id = some grid → state.gridOf id = .ok grid
  loops : ∀ {loop carried node plan}, memo.loops.get? loop = some carried →
    state.nodes.get? loop = some node → node.kind = .loop plan →
    state.finalValues state.gridOf loop plan = .ok carried

-- An evaluation that comes to a known result and remembers only what is right.
def Computes {α : Type} (state : State) (run : Evaluation α) (result : Except MapError α) : Prop :=
  ∀ memo, Memo.Right state memo →
    match result with
    | .ok a => ∃ after, run memo = .ok (a, after) ∧ Memo.Right state after
    | .error problem => run memo = .error problem

namespace Computes

variable {α β : Type} {state : State}

theorem lift (result : Except MapError α) : Computes state (monadLift result) result := by
  intro memo hmemo
  cases result with
  | error problem => rfl
  | ok a => exact ⟨memo, rfl, hmemo⟩

theorem bind {run : Evaluation α} {result : Except MapError α} {next : α → Evaluation β}
    {following : α → Except MapError β} (hrun : Computes state run result)
    (hnext : ∀ a, result = .ok a → Computes state (next a) (following a)) :
    Computes state (run >>= next) (result >>= following) := by
  intro memo hmemo
  have hfirst := hrun memo hmemo
  cases result with
  | error problem =>
      show (run memo >>= _) = _
      rw [hfirst]
      rfl
  | ok a =>
      obtain ⟨after, hrun, hafter⟩ := hfirst
      have hsecond := hnext a rfl after hafter
      have hstep : (run >>= next) memo = next a after := by
        show (run memo >>= _) = _
        rw [hrun]
        rfl
      show match following a with | .ok b => _ | .error problem => _
      rw [hstep]
      exact hsecond

theorem mapM {items : List α} {run : α → Evaluation β} {result : α → Except MapError β}
    (h : ∀ item ∈ items, Computes state (run item) (result item)) :
    Computes state (items.mapM run) (items.mapM result) := by
  induction items with
  | nil => exact lift (.ok [])
  | cons item items ih =>
      rw [List.mapM_cons, List.mapM_cons]
      refine (h item List.mem_cons_self).bind fun _ _ => ?_
      refine (ih fun other hother => h other (List.mem_cons_of_mem _ hother)).bind fun _ _ => ?_
      exact lift (.ok _)

theorem get_bind {next : Memo → Evaluation β} {result : Except MapError β}
    (h : ∀ known, Memo.Right state known → Computes state (next known) result) :
    Computes state (do next (← get)) result := fun memo hmemo => h memo hmemo memo hmemo

-- A result that is remembered has to be right.
theorem remembering {run : Evaluation α} {result : Except MapError α} {change : α → Memo → Memo}
    (hrun : Computes state run result)
    (hchange : ∀ a memo, result = .ok a → Memo.Right state memo →
      Memo.Right state (change a memo)) :
    Computes state (do let a ← run; modify (change a); return a) result := by
  intro memo hmemo
  have hfirst := hrun memo hmemo
  cases result with
  | error problem =>
      show (run memo >>= _) = _
      rw [hfirst]
      rfl
  | ok a =>
      obtain ⟨after, hrun, hafter⟩ := hfirst
      refine ⟨change a after, ?_, hchange a after rfl hafter⟩
      show (run memo >>= _) = _
      rw [hrun]
      rfl

end Computes

theorem Memo.Right.empty (state : State) : Memo.Right state .empty := ⟨nofun, nofun⟩

theorem runLoop_computes {state : State} {run : Nat → Evaluation Grid} {loop : Nat} {node : Node}
    {plan : LoopPlan} (hnode : state.nodes.get? loop = some node) (hkind : node.kind = .loop plan)
    (hrun : ∀ external ∈ plan.externals, Computes state (run external) (state.gridOf external)) :
    Computes state (state.runLoop run loop plan) (state.finalValues state.gridOf loop plan) := by
  refine Computes.get_bind fun known hknown => ?_
  cases hloop : known.loops.get? loop with
  | some carried =>
      rw [hknown.loops hloop hnode hkind]
      exact Computes.lift (.ok carried)
  | none =>
      have hinit : ∀ value ∈ plan.carried, Computes state (run value.init)
          (state.gridOf value.init) := fun value hvalue =>
        hrun _ ((plan.mem_externals _).mpr (Or.inl ⟨value, hvalue, rfl⟩))
      have hexternal : ∀ external ∈ plan.externals,
          Computes state (do return (external, ← run external))
            (do return (external, ← state.gridOf external)) := fun external hexternal =>
        (hrun external hexternal).bind fun grid _ => Computes.lift (.ok (external, grid))
      refine (Computes.mapM hinit).bind fun inits hinits => ?_
      refine (Computes.mapM hexternal).bind fun externals hexternals => ?_
      refine (Computes.lift _).remembering fun carried memo hcarried hmemo => ⟨hmemo.grids, ?_⟩
      intro other final info otherPlan hfinal hinfo hother
      rw [Table.get?_insert] at hfinal
      split at hfinal
      · rename_i hsame
        subst hsame
        rw [hnode] at hinfo
        cases hinfo
        rw [hkind] at hother
        cases hother
        cases hfinal
        rw [finalValues, hinits]
        show (_ >>= _) = _
        rw [hexternals]
        exact hcarried
      · exact hmemo.loops hfinal hinfo hother

theorem computeNode_computes {state : State} (hfounded : Founded state)
    {run : Nat → Evaluation Grid} {id : Nat} {node : Node}
    (hnode : state.nodes.get? id = some node)
    (hrun : ∀ input < id, Computes state (run input) (state.gridOf input)) :
    Computes state (state.computeNode run id node) (state.nodeGrid state.gridOf id node) := by
  have hloop : ∀ {loop : Nat} {info : Node} {plan : LoopPlan}, loop ≤ id →
      state.nodes.get? loop = some info → info.kind = .loop plan →
      Computes state (state.runLoop run loop plan)
        (state.finalValues state.gridOf loop plan) := by
    intro loop info plan hle hinfo hkind
    refine runLoop_computes hinfo hkind fun external hexternal => hrun external ?_
    have hlt := hfounded.external_lt hinfo hkind external hexternal
    omega
  unfold computeNode nodeGrid
  cases hkind : node.kind with
  | loop plan =>
      exact (hloop (Nat.le_refl id) hnode hkind).bind fun _ _ => Computes.lift _
  | loopTail index =>
      refine (Computes.lift _).bind fun loop hentry => ?_
      have hlt := hfounded.input_lt hnode loop (List.mem_of_getElem? (entry_eq_ok.mp hentry))
      refine (Computes.lift _).bind fun info hfound => ?_
      cases hplan : info.kind with
      | loop plan =>
          exact (hloop (Nat.le_of_lt hlt) (find_eq_ok hfound).2 hplan).bind fun _ _ =>
            Computes.lift _
      | _ => exact Computes.lift (.error _)
  | _ =>
      refine (Computes.mapM fun input hinput => ?_).bind fun _ _ => Computes.lift _
      exact hrun input (hfounded.input_lt hnode input hinput)

-- The computed grids that a graph keeps are the grids of their nodes.
def ComputedRight (state : State) : Prop :=
  ∀ {id grid}, state.computed.get? id = some grid → state.gridOf id = .ok grid

-- Remembering spares work but changes no result.
theorem evalWithin_computes {state : State} (hfounded : Founded state)
    (hcomputed : ComputedRight state) {fuel id : Nat} (hpos : 0 < fuel) (hfuel : ∀ node, state.nodes.get? id = some node → id < fuel) :
    Computes state (state.evalWithin fuel id) (state.gridOf id) := by
  induction fuel generalizing id with
  | zero => omega
  | succ fuel ih =>
      refine Computes.get_bind fun known hknown => ?_
      cases hgrid : (known.grids.get? id <|> state.computed.get? id) with
      | some grid =>
          have hright : state.gridOf id = .ok grid := by
            cases hremembered : known.grids.get? id with
            | some other =>
                rw [hremembered] at hgrid
                cases hgrid
                exact hknown.grids hremembered
            | none =>
                rw [hremembered] at hgrid
                exact hcomputed hgrid
          rw [hright]
          exact Computes.lift (.ok grid)
      | none =>
          have hwhole : state.gridOf id = _ := gridOf_eq hfounded id
          rw [gridFrom] at hwhole
          rw [hwhole]
          refine (Computes.lift _).bind fun node hfind => ?_
          rw [hfind] at hwhole
          have hnode := (find_eq_ok hfind).2
          have hlt := hfuel node hnode
          have hinput : ∀ input < id,
              Computes state (state.evalWithin fuel input) (state.gridOf input) :=
            fun input hinput => ih (by omega) fun _ _ => by omega
          refine (computeNode_computes hfounded hnode hinput).remembering
            fun grid memo hgrid hmemo => ⟨?_, hmemo.loops⟩
          intro other found hfound
          rw [Table.get?_insert] at hfound
          split at hfound
          · rename_i hsame
            cases hfound
            rw [hsame, hwhole]
            exact hgrid
          · exact hmemo.grids hfound

theorem evalNode_computes {state : State} (hfounded : Founded state) (hnumbered : Numbered state)
    (hcomputed : ComputedRight state) (id : Nat) :
    Computes state (state.evalNode id) (state.gridOf id) := by
  refine evalWithin_computes hfounded hcomputed (Nat.succ_pos _) fun node hnode => ?_
  have hlt := (hnumbered.range hnode).2
  omega

theorem Computes.run' {α : Type} {state : State} {run : Evaluation α} {result : Except MapError α}
    (h : Computes state run result) : run.run' .empty = result := by
  have hrun := h .empty (Memo.Right.empty state)
  cases result with
  | error problem =>
      show (_ <$> run .empty) = _
      rw [hrun]
      rfl
  | ok a =>
      obtain ⟨after, hrun, _⟩ := hrun
      show (_ <$> run .empty) = _
      rw [hrun]
      rfl

theorem evaluateAll_eq {state : State} (hfounded : Founded state) (hnumbered : Numbered state)
    (hcomputed : ComputedRight state) (nodes : List Address) :
    state.evaluateAll nodes = nodes.mapM state.gridOf :=
  (Computes.mapM fun node _ => evalNode_computes hfounded hnumbered hcomputed node).run'

theorem grid_eq {state : State} (hfounded : Founded state) (hnumbered : Numbered state)
    (hcomputed : ComputedRight state) (node : Address) : state.grid node = state.gridOf node := by
  by_cases hnull : node = Address.null
  · rw [grid, if_pos hnull, gridOf_eq hfounded, gridFrom, State.find, if_pos hnull]
    rfl
  · rw [grid, if_neg hnull]
    exact (evalNode_computes hfounded hnumbered hcomputed node).run'

-- A node with a grid is there.
theorem contains_of_gridOf {state : State} {id : Nat} {grid : Grid}
    (h : state.gridOf id = .ok grid) : state.nodes.contains id = true := by
  obtain ⟨node, hfind, _⟩ := bind_eq_ok.mp h
  exact (Table.contains_iff _ _).mpr ⟨node, (find_eq_ok hfind).2⟩

end MapAlgebra.Graph.State
