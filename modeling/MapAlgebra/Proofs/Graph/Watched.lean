import MapAlgebra.Proofs.Graph.Suited

namespace MapAlgebra.Graph

-- A failure of an evaluation. A fault is one that no graph may bring about, whatever its values.
structure Trouble where
  problem : MapError
  fault : Bool

section Watching

variable {α β : Type}

def faulty (x : Except MapError α) : Except Trouble α := x.mapError (⟨·, true⟩)

def honest (x : Except MapError α) : Except Trouble α := x.mapError (⟨·, false⟩)

def forget (x : Except Trouble α) : Except MapError α := x.mapError Trouble.problem

end Watching

abbrev WatchedEvaluation (α : Type) := StateT Memo (Except Trouble) α

-- The number of inputs that an operation looks at.
def NodeKind.arity : NodeKind → Nat
  | .constant _ | .index _ | .read _ _ | .loop _ | .loopTail _ => 0
  | .binary _ | .update _ => 2
  | .conditional | .boundedNeighbor => 3
  | _ => 1

-- Loops and tails cannot be computed from inputs, and nothing can be from too few.
def watchedApply (node : Node) (inputs : List Grid) : Except Trouble Grid :=
  if node.kind.isPlain && node.kind.arity ≤ inputs.length then
    honest (node.kind.apply node.info inputs)
  else faulty (node.kind.apply node.info inputs)

-- The evaluator once more, where nodes that are not there, tails of other nodes than loops, and
-- indices and nodes around a loop that are missing are at fault, and so are chains of inputs that
-- do not end. Only operations on values and the limit of rounds may fail otherwise.
namespace State

def watchedStep (state : State) (round : Round) (step : Nat × List Slot) :
    Except Trouble Round := do
  let node ← faulty (state.find step.1)
  let inputs ← faulty (step.2.mapM round.read)
  let grid ← watchedApply node inputs
  return { round with steps := round.steps ++ [grid] }

def watchedRound (state : State) (plan : LoopPlan) (externals : Table Grid)
    (carried : List Grid) : Except Trouble (List Grid) := do
  let round ← (plan.body.zip plan.slots).foldlM state.watchedStep ⟨carried, externals, []⟩
  faulty (plan.carried.mapM fun value => entry round.steps value.feed)

def watchedRounds (state : State) (loop : Nat) (plan : LoopPlan) (externals : Table Grid) :
    Nat → List Grid → Except Trouble (List Grid)
  | remaining, carried => do
      let guard ← faulty (entry carried 0)
      if guard.anyTrue then
        match remaining with
        | 0 => honest (.error (.engine (.tooManyIterations loop state.limit)))
        | remaining + 1 =>
            let next ← state.watchedRound plan externals carried
            state.watchedRounds loop plan externals remaining next
      else return carried

def watchedLoop (state : State) (evalNode : Nat → WatchedEvaluation Grid) (loop : Nat)
    (plan : LoopPlan) : WatchedEvaluation (List Grid) := do
  match (← get).loops.get? loop with
  | some carried => return carried
  | none =>
      let inits ← plan.carried.mapM fun value => evalNode value.init
      let externals ← plan.externals.mapM fun node => do return (node, ← evalNode node)
      let carried ← state.watchedRounds loop plan (.ofList externals) state.limit inits
      modify fun memo => { memo with loops := memo.loops.insert loop carried }
      return carried

def watchedCompute (state : State) (evalNode : Nat → WatchedEvaluation Grid) (id : Nat)
    (node : Node) : WatchedEvaluation Grid := do
  match node.kind with
  | .loop plan => do faulty (entry (← state.watchedLoop evalNode id plan) 0)
  | .loopTail index => do
      let loop ← faulty (entry node.inputs 0)
      match (← faulty (state.find loop)).kind with
      | .loop plan => do faulty (entry (← state.watchedLoop evalNode loop plan) index)
      | other => faulty (throw (.engine (.looseTail other.label)))
  | _ => do watchedApply node (← node.inputs.mapM evalNode)

def watchedWithin (state : State) : Nat → Nat → WatchedEvaluation Grid
  | 0, _ => faulty (throw .brokenInvariant)
  | fuel + 1, id => do
      match (← get).grids.get? id <|> state.computed.get? id with
      | some grid => return grid
      | none =>
          let grid ← state.watchedCompute (state.watchedWithin fuel) id
            (← faulty (state.find id))
          modify fun memo => { memo with grids := memo.grids.insert id grid }
          return grid

def watchedNode (state : State) (node : Address) : WatchedEvaluation Grid :=
  state.watchedWithin (state.nextId + 1) node

def watchedAll (state : State) (nodes : List Address) : Except Trouble (List Grid) :=
  (nodes.mapM state.watchedNode).run' Memo.empty

def watchedGrid (state : State) (node : Address) : Except Trouble Grid := do
  if node = Address.null then faulty (throw (.nullNode .received))
  (state.watchedNode node).run' Memo.empty

end State

section Forgetting

variable {α β : Type}

theorem forget_faulty (x : Except MapError α) : forget (faulty x) = x := by
  cases x with
  | error problem => rfl
  | ok a => rfl

theorem forget_honest (x : Except MapError α) : forget (honest x) = x := by
  cases x with
  | error problem => rfl
  | ok a => rfl

theorem forget_bind (x : Except Trouble α) (f : α → Except Trouble β) :
    forget (x >>= f) = forget x >>= fun a => forget (f a) := by
  cases x with
  | error trouble => rfl
  | ok a => rfl

theorem forget_foldlM {items : List β} {f : α → β → Except Trouble α}
    {g : α → β → Except MapError α} (h : ∀ a item, forget (f a item) = g a item) (start : α) :
    forget (items.foldlM f start) = items.foldlM g start := by
  induction items generalizing start with
  | nil => rfl
  | cons item items ih =>
      rw [List.foldlM_cons, List.foldlM_cons, forget_bind, h]
      congr 1
      funext next
      exact ih next

theorem forget_apply (node : Node) (inputs : List Grid) :
    forget (watchedApply node inputs) = node.kind.apply node.info inputs := by
  unfold watchedApply
  split
  · exact forget_honest _
  · exact forget_faulty _

-- A watched evaluation that comes to the same as an evaluation once the marks are forgotten.
def Forgets (watched : WatchedEvaluation α) (run : Evaluation α) : Prop :=
  ∀ memo, forget (watched memo) = run memo

namespace Forgets

theorem lift {x : Except Trouble α} {y : Except MapError α} (h : forget x = y) :
    Forgets (monadLift x) (monadLift y) := by
  subst h
  intro memo
  cases x with
  | error trouble => rfl
  | ok a => rfl

theorem bind {watched : WatchedEvaluation α} {run : Evaluation α}
    {next : α → WatchedEvaluation β} {following : α → Evaluation β} (h : Forgets watched run)
    (hnext : ∀ a, Forgets (next a) (following a)) :
    Forgets (watched >>= next) (run >>= following) := by
  intro memo
  show forget (watched memo >>= fun result => next result.1 result.2) =
    run memo >>= fun result => following result.1 result.2
  rw [forget_bind, h memo]
  congr 1
  funext result
  exact hnext result.1 result.2

theorem mapM {items : List β} {watched : β → WatchedEvaluation α} {run : β → Evaluation α}
    (h : ∀ item ∈ items, Forgets (watched item) (run item)) :
    Forgets (items.mapM watched) (items.mapM run) := by
  induction items with
  | nil => exact fun memo => rfl
  | cons item items ih =>
      rw [List.mapM_cons, List.mapM_cons]
      refine (h item List.mem_cons_self).bind fun first => ?_
      refine (ih fun other hother => h other (List.mem_cons_of_mem _ hother)).bind fun rest => ?_
      exact fun memo => rfl

theorem get_bind {next : Memo → WatchedEvaluation α} {following : Memo → Evaluation α}
    (h : ∀ memo, Forgets (next memo) (following memo)) :
    Forgets (do next (← get)) (do following (← get)) := fun memo => h memo memo

theorem remembering {watched : WatchedEvaluation α} {run : Evaluation α} (change : α → Memo → Memo)
    (h : Forgets watched run) :
    Forgets (do let a ← watched; modify (change a); return a)
      (do let a ← run; modify (change a); return a) :=
  h.bind fun _ _ => rfl

theorem run' {watched : WatchedEvaluation α} {run : Evaluation α} (h : Forgets watched run) :
    forget (watched.run' .empty) = run.run' .empty := by
  have hrun := h .empty
  show forget (Prod.fst <$> watched .empty) = Prod.fst <$> run .empty
  rw [← hrun]
  cases watched .empty with
  | error trouble => rfl
  | ok result => rfl

end Forgets

end Forgetting

namespace State

theorem forget_round (state : State) (plan : LoopPlan) (externals : Table Grid)
    (carried : List Grid) : forget (state.watchedRound plan externals carried) =
      state.runRound plan externals carried := by
  have hstep : ∀ round step, forget (state.watchedStep round step) = state.runStep round step := by
    intro round step
    unfold watchedStep runStep
    simp only [forget_bind, forget_faulty, forget_apply]
    rfl
  unfold watchedRound runRound
  rw [forget_bind, forget_foldlM hstep]
  simp only [forget_faulty]

theorem forget_rounds (state : State) (loop : Nat) (plan : LoopPlan) (externals : Table Grid)
    (remaining : Nat) (carried : List Grid) :
    forget (state.watchedRounds loop plan externals remaining carried) =
      state.runRounds loop plan externals remaining carried := by
  induction remaining generalizing carried with
  | zero =>
      unfold watchedRounds runRounds
      rw [forget_bind, forget_faulty]
      congr 1
      funext guard
      split
      · exact forget_honest _
      · rfl
  | succ remaining ih =>
      unfold watchedRounds runRounds
      rw [forget_bind, forget_faulty]
      congr 1
      funext guard
      split
      · simp only [forget_bind, forget_round, ih]
      · rfl

variable {state : State} {watched : Nat → WatchedEvaluation Grid} {run : Nat → Evaluation Grid}

theorem forgets_loop (h : ∀ node, Forgets (watched node) (run node)) (loop : Nat)
    (plan : LoopPlan) : Forgets (state.watchedLoop watched loop plan)
      (state.runLoop run loop plan) := by
  refine Forgets.get_bind fun known => ?_
  cases known.loops.get? loop with
  | some carried => exact fun memo => rfl
  | none =>
      refine (Forgets.mapM fun value _ => h value.init).bind fun inits => ?_
      refine (Forgets.mapM fun node _ => (h node).bind fun grid memo => rfl).bind
        fun externals => ?_
      exact (Forgets.lift (forget_rounds state loop plan _ _ inits)).remembering _

theorem forgets_compute (h : ∀ node, Forgets (watched node) (run node)) (id : Nat) (node : Node) :
    Forgets (state.watchedCompute watched id node) (state.computeNode run id node) := by
  unfold watchedCompute computeNode
  cases hkind : node.kind with
  | loop plan =>
      exact (forgets_loop h id plan).bind fun carried => Forgets.lift (forget_faulty _)
  | loopTail index =>
      refine (Forgets.lift (forget_faulty _)).bind fun loop => ?_
      refine (Forgets.lift (forget_faulty _)).bind fun info => ?_
      cases info.kind with
      | loop plan =>
          exact (forgets_loop h loop plan).bind fun carried => Forgets.lift (forget_faulty _)
      | _ => exact Forgets.lift (forget_faulty _)
  | _ =>
      refine (Forgets.mapM fun input _ => h input).bind fun inputs => Forgets.lift ?_
      rw [forget_apply, hkind]

theorem forgets_within (state : State) (fuel id : Nat) :
    Forgets (state.watchedWithin fuel id) (state.evalWithin fuel id) := by
  induction fuel generalizing id with
  | zero => exact Forgets.lift (forget_faulty _)
  | succ fuel ih =>
      refine Forgets.get_bind fun known => ?_
      cases (known.grids.get? id <|> state.computed.get? id) with
      | some grid => exact fun memo => rfl
      | none =>
          refine (Forgets.lift (forget_faulty _)).bind fun node => ?_
          exact (forgets_compute ih id node).remembering _

-- Watching an evaluation changes nothing but the marks on its failures.
theorem forget_all (state : State) (nodes : List Address) :
    forget (state.watchedAll nodes) = state.evaluateAll nodes :=
  (Forgets.mapM fun node _ => forgets_within state _ node).run'

theorem forget_grid (state : State) (node : Address) :
    forget (state.watchedGrid node) = state.grid node := by
  unfold watchedGrid grid
  by_cases hnull : node = Address.null
  · rw [if_pos hnull, if_pos hnull]
    rfl
  · rw [if_neg hnull, if_neg hnull]
    exact (forgets_within state _ node).run'

end State

end MapAlgebra.Graph
