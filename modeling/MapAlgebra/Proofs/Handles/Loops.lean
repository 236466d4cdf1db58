import MapAlgebra.Loop.Lowering
import MapAlgebra.Proofs.Handles.Rasters
import MapAlgebra.Proofs.Handles.Scopes

namespace MapAlgebra

namespace Loop

def Carried.held (carried : Carried) : Tally := (carried.pairs.map (·.2.held)).sum

def Guard.held : Guard → Tally
  | .node raster => raster.held
  | .host _ => 0

def Vars.held (vars : Vars) : Tally := vars.slots.held

theorem Vars.held_nonneg (vars : Vars) : 0 ≤ vars.held := vars.slots.held_nonneg

theorem Vars.slots_mark (vars : Vars) (name : String) : (vars.mark name).slots = vars.slots := by
  unfold Vars.mark
  split
  · rfl
  · rfl

theorem Vars.mem_mark (vars : Vars) (name other : String) :
    other ∈ (vars.mark name).assigned ↔ other ∈ vars.assigned ∨ other = name := by
  unfold mark
  split
  · rename_i hmember
    constructor
    · exact Or.inl
    · rintro (h | rfl)
      · exact h
      · exact hmember
  · simp

theorem Vars.held_mark (vars : Vars) (name : String) : (vars.mark name).held = vars.held :=
  congrArg Bindings.held (vars.slots_mark name)

theorem Carried.held_nonneg (carried : Carried) : 0 ≤ carried.held := by
  refine List.sum_nonneg fun held hheld => ?_
  obtain ⟨pair, _, rfl⟩ := List.mem_map.mp hheld
  exact pair.2.held_nonneg

-- The node that a variable moves on to is one of those after the loop.
theorem Carried.held_of_afterFor {carried : Carried} {node : Address} {target : Raster}
    (h : carried.afterFor node = some target) : target.held ≤ carried.held := by
  obtain ⟨pairs⟩ := carried
  have hpair : ∀ {pairs : List (Address × Raster)}, pairs.lookup node = some target →
      target.held ≤ (pairs.map (·.2.held)).sum := by
    intro pairs hlookup
    induction pairs with
    | nil => cases hlookup
    | cons pair pairs ih =>
        rw [List.map_cons, List.sum_cons]
        rw [List.lookup_cons] at hlookup
        split at hlookup
        · cases hlookup
          exact le_add_of_nonneg_right (Carried.held_nonneg ⟨pairs⟩)
        · exact le_add_of_nonneg_of_le pair.2.held_nonneg (ih hlookup)
  exact hpair h

end Loop

namespace Lends

open Loop (Carried Vars)

variable {σ : Type} {engine : Engine σ} {order : σ → Tally → Prop} {state : σ} {handles : Tally}

theorem follow (h : Lends engine order) {raster target : Raster} (htarget : target.held ≤ handles)
    (hstate : order state (raster.held + handles)) :
    order (engine.follow raster target state).2
      ((engine.follow raster target state).1.held + handles) := by
  unfold Engine.follow
  cases hnode : target.node with
  | none => exact hstate
  | some node =>
      by_cases hsame : raster.node = some node
      · simp only [if_pos hsame]
        exact hstate
      · simp only [if_neg hsame]
        rw [Raster.held_of_node hnode] at htarget ⊢
        have htaken := h.acquire (Raster.ne_null hnode)
          (le_add_of_nonneg_of_le raster.held_nonneg htarget) hstate
        rw [add_left_comm] at htaken
        exact h.letGo htaken

theorem followCarried (h : Lends engine order) {carried : Carried} {operand : Operand}
    (hcarried : carried.held ≤ handles)
    (hstate : order state (operand.held + handles)) :
    order (engine.followCarried carried operand state).2
      ((engine.followCarried carried operand state).1.2.held + handles) := by
  unfold Engine.followCarried
  cases operand with
  | host value => exact hstate
  | node raster =>
      cases htarget : raster.node.bind carried.afterFor with
      | none =>
          simp only [htarget]
          exact hstate
      | some target =>
          obtain ⟨node, _, hafter⟩ := Option.bind_eq_some_iff.mp htarget
          simp only [htarget]
          exact h.follow ((Carried.held_of_afterFor hafter).trans hcarried) hstate

theorem rebindAssigned_go (h : Lends engine order) {carried : Carried} (names : List String)
    {vars : Vars} (hcarried : carried.held ≤ handles)
    (hstate : order state (vars.held + handles)) :
    order (Engine.rebindAssigned.go engine carried names vars state).2
      ((Engine.rebindAssigned.go engine carried names vars state).1.2.held + handles) := by
  induction names generalizing vars state with
  | nil => exact hstate
  | cons name names ih =>
      unfold Engine.rebindAssigned.go
      cases hfound : vars.slots.find? name with
      | none => exact ih hstate
      | some operand =>
          by_cases hassigned : name ∈ vars.assigned
          · simp only [if_pos hassigned]
            refine ih ?_
            -- the other variables are held beside the one that moves
            have hothers : 0 ≤ vars.held - operand.held :=
              sub_nonneg.mpr (Bindings.held_of_find hfound)
            have hsplit : operand.held + (vars.held - operand.held + handles) =
                vars.held + handles := by abel
            rw [← hsplit] at hstate
            have hmoved := h.followCarried (le_add_of_nonneg_of_le hothers hcarried) hstate
            have hslots : ∀ moved : Operand, (vars.replace name moved).held + handles =
                moved.held + (vars.held - operand.held + handles) := fun moved => by
              rw [Vars.held, Vars.replace, Bindings.held_replace hfound, Vars.held]
              abel
            rw [hslots]
            exact hmoved
          · simp only [if_neg hassigned]
            exact ih hstate

theorem followAssigned (h : Lends engine order) {carried : Carried} {vars : Vars}
    (hcarried : carried.held ≤ handles)
    (hstate : order state (vars.held + handles)) :
    order (engine.followAssigned carried vars state).2
      ((engine.followAssigned carried vars state).1.held + handles) :=
  h.rebindAssigned_go vars.names hcarried hstate

theorem letGoCarried (h : Lends engine order) {carried : Carried}
    (hstate : order state (carried.held + handles)) :
    order (engine.letGoCarried carried state) handles := by
  obtain ⟨pairs⟩ := carried
  induction pairs generalizing state with
  | nil => rwa [Carried.held, List.map_nil, List.sum_nil, zero_add] at hstate
  | cons pair pairs ih =>
      rw [Carried.held, List.map_cons, List.sum_cons, add_assoc] at hstate
      exact ih (h.letGo hstate)

end Lends

namespace Honors

open Loop (Carried Vars)

variable {σ : Type} {engine : Engine σ} {custody : Custody σ} {lowering : Bool} {state : σ}
  {handles : Tally} {carried : Carried}

theorem follow (h : Honors engine custody) {raster target : Raster} (htarget : target.held ≤ handles)
    (hstate : custody.order lowering state (raster.held + handles)) :
    custody.order lowering (engine.follow raster target state).2
      ((engine.follow raster target state).1.held + handles) :=
  (h.lends lowering).follow htarget hstate

theorem followCarried (h : Honors engine custody) {operand : Operand}
    (hcarried : carried.held ≤ handles)
    (hstate : custody.order lowering state (operand.held + handles)) :
    custody.order lowering (engine.followCarried carried operand state).2
      ((engine.followCarried carried operand state).1.2.held + handles) :=
  (h.lends lowering).followCarried hcarried hstate

theorem followAssigned (h : Honors engine custody) {vars : Vars} (hcarried : carried.held ≤ handles)
    (hstate : custody.order lowering state (vars.held + handles)) :
    custody.order lowering (engine.followAssigned carried vars state).2
      ((engine.followAssigned carried vars state).1.held + handles) :=
  (h.lends lowering).followAssigned hcarried hstate

theorem letGoCarried (h : Honors engine custody)
    (hstate : custody.order lowering state (carried.held + handles)) :
    custody.order lowering (engine.letGoCarried carried state) handles :=
  (h.lends lowering).letGoCarried hstate

end Honors

namespace Loop

variable {σ ν : Type} {engine : Engine σ} {custody : Custody σ} {owned : ν → Tally}
  {lowering : Bool} {frame cost : Tally}

-- A loop is opened only while none is open. When that fails all is as before.
def Opens (custody : Custody σ) (owned : ν → Tally) (lowering : Bool) (frame cost : Tally)
    (opening : Act σ ν Unit) : Prop :=
  ∀ scope, Scope.order custody owned lowering scope (cost + frame) →
    match opening scope with
    | (.ok _, after) => lowering = false ∧ Scope.order custody owned true after frame
    | (.error _, after) => Scope.order custody owned lowering after frame

namespace Lowering

-- While a loop is open another one cannot be started, and the engine is not asked.
theorem start_nested (guard : Raster) {scope : Scope σ ν} (hopen : scope.lowering = true) :
    start engine guard scope = (.error .nestedLowering, scope) := by
  have hget : (get : Act σ ν (Scope σ ν)) scope = (.ok scope, scope) := rfl
  simp only [start, run_bind, hget, hopen, if_true]
  rfl

theorem order_abandon (h : Honors engine custody) {scope : Scope σ ν} {handles : Tally}
    (hscope : scope.order custody owned true handles) :
    (abandon engine scope).order custody owned false handles := ⟨rfl, h.finish hscope.2⟩

-- A step in an open loop whose failure closes it.
theorem order_onFailure_abandon (h : Honors engine custody) {α : Type} {step : Act σ ν α}
    {gain : α → Tally} {scope : Scope σ ν}
    (hstep : KeepsAt (Scope.order custody owned true) frame cost step gain scope)
    (hscope : scope.order custody owned true (cost + frame)) :
    match onFailure step (abandon engine) scope with
    | (.ok a, after) => Scope.order custody owned true after (gain a + frame)
    | (.error _, after) => Scope.order custody owned false after frame := by
  have hafter := hstep hscope
  unfold onFailure
  rcases hresult : step scope with ⟨result, after⟩
  rw [hresult] at hafter
  cases result with
  | ok a => exact hafter
  | error problem =>
      rw [Tally.yielded, zero_add] at hafter
      exact order_abandon h hafter

-- How a loop is opened when none is open.
theorem start_eq (guard : Raster) {scope : Scope σ ν} (hclosed : scope.lowering = false) :
    start engine guard scope =
      match guard.require with
      | .error problem => (.error problem, scope)
      | .ok node =>
          match engine.loopStart scope.engine with
          | (.error problem, state) => (.error problem, { scope with engine := state })
          | (.ok _, state) =>
              onFailure
                (do
                  onEngine (engine.loopCondition node)
                  onEngine (engine.loopReplay .first))
                (abandon engine) { scope with engine := state, lowering := true } := by
  obtain ⟨state, flag, vars⟩ := scope
  obtain rfl : flag = false := hclosed
  show (do
    let node ← guard.require
    modify fun scope => { scope with lowering := true }
    onFailure (onEngine engine.loopStart) close
    onFailure
      (do
        onEngine (engine.loopCondition node)
        onEngine (engine.loopReplay .first))
      (abandon engine) : Act σ ν Unit) ⟨state, false, vars⟩ = _
  cases guard.require with
  | error problem => rfl
  | ok node =>
      show (do
        onFailure (onEngine engine.loopStart) close
        onFailure
          (do
            onEngine (engine.loopCondition node)
            onEngine (engine.loopReplay .first))
          (abandon engine) : Act σ ν Unit) ⟨state, true, vars⟩ = _
      simp only [run_bind, onFailure, onEngine]
      rcases engine.loopStart state with ⟨result, after⟩
      cases result <;> rfl

theorem start_opens (h : Honors engine custody) (howned : ∀ vars, 0 ≤ owned vars)
    (guard : Raster) :
    Opens custody owned lowering frame 0 (start engine guard) := by
  intro scope hscope
  cases hopen : scope.lowering with
  | true =>
      rw [start_nested guard hopen]
      rwa [zero_add] at hscope
  | false =>
      obtain ⟨rfl, hstate⟩ := hscope
      rw [hopen] at hstate ⊢
      rw [start_eq guard hopen]
      cases guard.require with
      | error problem =>
          rw [zero_add] at hstate
          exact ⟨hopen, hstate⟩
      | ok node =>
          have hstarted := h.start hstate
          rcases hresult : engine.loopStart scope.engine with ⟨result, after⟩
          rw [hresult] at hstarted
          cases result with
          | error problem =>
              rw [zero_add] at hstarted
              exact ⟨hopen, hstarted⟩
          | ok _ =>
              have hrecording : Still (Scope.order custody owned true) frame (do
                  onEngine (engine.loopCondition node)
                  onEngine (engine.loopReplay .first)) :=
                (keeps_onEngine howned fun _ => h.condition node).bind fun _ =>
                  keeps_onEngine howned fun _ => h.replay .first
              have hafter := order_onFailure_abandon h
                (hrecording { scope with engine := after, lowering := true }) ⟨rfl, hstarted⟩
              simp only
              split at hafter
              · rename_i hstep
                rw [hstep]
                rw [zero_add] at hafter
                exact ⟨trivial, hafter⟩
              · rename_i hstep
                rw [hstep]
                exact hafter

theorem again_still (h : Honors engine custody) (howned : ∀ vars, 0 ≤ owned vars)
    (condition : Raster) :
    Still (Scope.order custody owned true) frame (again engine condition) :=
  (Keeps.lift _).bind fun node =>
    (keeps_onEngine howned fun _ => h.replay .second).bind fun _ =>
      keeps_onEngine howned fun _ => h.condition node

-- Putting a loop together concerns the engine alone.
theorem assemble_eq : (assemble engine : Act σ ν Raster) = onEngine engine.assembled := by
  funext scope
  simp only [assemble, Engine.assembled, onEngine, run_bind]
  rcases engine.loopAssemble scope.engine with ⟨result, after⟩
  cases result <;> rfl

theorem carried_eq (loop : Raster) : (carried engine loop : Act σ ν Carried) = do
    return ⟨← onEngine (engine.gathered loop)⟩ := by
  funext scope
  simp only [carried, Engine.gathered, onEngine, run_bind]
  rcases loop.ask engine.loopPairs scope.engine with ⟨result, after⟩
  cases result <;> rfl

theorem assemble_keeps (h : Keeper engine custody frame) (howned : ∀ vars, 0 ≤ owned vars)
    (hhand : custody.byHand) :
    Keeps (Scope.order custody owned true) frame 0 (assemble engine) Raster.held := by
  rw [assemble_eq]
  exact keeps_onEngine howned fun hle => h.honors.assemble hhand (h.nonneg.trans hle)

theorem carried_keeps (h : Keeper engine custody frame) (howned : ∀ vars, 0 ≤ owned vars)
    (hhand : custody.byHand) (loop : Raster) :
    Keeps (Scope.order custody owned true) frame 0 (carried engine loop) Carried.held := by
  rw [carried_eq]
  exact (keeps_onEngine howned fun hle =>
    h.honors.gather loop hhand (h.nonneg.trans hle)).bind fun _ => .pure rfl

-- Nothing fails between the last call of the engine and the end of a recording.
theorem conclude_eq (move : Carried → ν → σ → ν × σ) :
    (do
      let loop ← assemble engine
      onFailure
        (do
          let carried ← carried engine loop
          changing (move carried)
          changeEngine (engine.letGoCarried carried)
          return loop)
        fun scope => { scope with engine := engine.letGo loop scope.engine } : Act σ ν Raster) = do
      let ended ← onEngine engine.concluded
      changing (move ⟨ended.2⟩)
      changeEngine (engine.letGoCarried ⟨ended.2⟩)
      return ended.1 := by
  funext scope
  rw [assemble_eq]
  simp only [carried_eq, Engine.concluded, Engine.orLetGo, onEngine, onFailure, run_bind]
  rcases engine.assembled scope.engine with ⟨result, after⟩
  cases result with
  | error problem => rfl
  | ok loop =>
      simp only
      rcases engine.gathered loop after with ⟨result, last⟩
      cases result <;> rfl

theorem finish_order (h : Honors engine custody) {scope : Scope σ ν} {handles : Tally}
    (hscope : scope.order custody owned true handles) :
    (finish engine scope).2.order custody owned false handles := ⟨rfl, h.finish hscope.2⟩

end Lowering

-- What is lent to an opening is given up afterwards.
theorem opens_afterwards {opening : Act σ ν Unit}
    (hopening : Opens custody owned lowering (cost + frame) 0 opening) {change : σ → σ}
    (hchange : ∀ {lowering} state handles, custody.order lowering state (cost + handles) →
      custody.order lowering (change state) handles) :
    Opens custody owned lowering frame cost (afterwards opening change) := by
  intro scope hscope
  have hopened := hopening scope (by rwa [zero_add])
  unfold afterwards
  rcases hresult : opening scope with ⟨result, after⟩
  rw [hresult] at hopened
  cases result with
  | ok _ => exact ⟨hopened.1, Scope.order_of_engine hchange hopened.2⟩
  | error problem => exact Scope.order_of_engine hchange hopened

theorem guardNode_keeps {condition : Act σ ν Guard}
    (hcondition : Keeps (Scope.order custody owned lowering) frame 0 condition Guard.held) :
    Keeps (Scope.order custody owned lowering) frame 0 (guardNode condition) Raster.held := by
  refine hcondition.bind fun guard => ?_
  cases guard with
  | node raster => exact .pure rfl
  | host holds => exact .throw _ _

theorem guardHost_still (h : Honors engine custody) {condition : Act σ ν Guard}
    (hcondition : Keeps (Scope.order custody owned lowering) frame 0 condition Guard.held) :
    Still (Scope.order custody owned lowering) frame (guardHost engine condition) := by
  refine hcondition.bind fun guard => ?_
  cases guard with
  | node raster =>
      exact (keeps_changeEngine fun _ _ hstate => h.letGo hstate).bind fun _ => .throw _ _
  | host holds => exact .pure rfl

section Rounds

variable {condition : Act σ ν Guard} {body : Act σ ν Unit} {move : Carried → ν → σ → ν × σ}

-- What moves variables on after a loop leaves as many handles as there were.
def Moves (custody : Custody σ) (owned : ν → Tally) (move : Carried → ν → σ → ν × σ) : Prop :=
  ∀ {carried vars state handles}, carried.held ≤ handles →
    custody.order true state (owned vars + handles) →
      custody.order true (move carried vars state).2 (owned (move carried vars state).1 + handles)

theorem record_keeps (h : Keeper engine custody frame) (howned : ∀ vars, 0 ≤ owned vars)
    (hcondition : Keeps (Scope.order custody owned true) frame 0 condition Guard.held)
    (hbody : Still (Scope.order custody owned true) frame body)
    (hmove : Moves custody owned move) :
    Keeps (Scope.order custody owned true) frame 0 (record engine condition body move)
      Raster.held := by
  refine hbody.bind fun _ => (guardNode_keeps hcondition).bind fun next => ?_
  have hagain : Keeps (Scope.order custody owned true) frame next.held
      (afterwards (Lowering.again engine next) (engine.letGo next)) fun _ => 0 :=
    keeps_afterwards (Lowering.again_still h.honors howned next) fun _ _ => h.honors.letGo
  refine hagain.bind fun _ => hbody.bind fun _ => (guardNode_keeps hcondition).bind fun last => ?_
  refine (keeps_changeEngine fun _ _ hstate => h.honors.letGo hstate).bind fun _ => ?_
  rw [Lowering.conclude_eq]
  refine (keeps_onEngine howned fun hle => h.honors.conclude (h.nonneg.trans hle)).bind
    fun ended => ?_
  -- the loop is held while the variables move on
  have hchange : Keeps (Scope.order custody owned true) frame
      (heldAfter ended.2 + ended.1.held) (changing (move ⟨ended.2⟩))
      fun _ => heldAfter ended.2 + ended.1.held := by
    rintro scope ⟨hflag, hstate⟩
    refine ⟨hflag, hmove ?_ hstate⟩
    show heldAfter ended.2 ≤ heldAfter ended.2 + ended.1.held + frame
    rw [add_assoc]
    exact le_add_of_nonneg_right (add_nonneg ended.1.held_nonneg h.nonneg)
  refine hchange.bind fun _ => ?_
  have hletGo : Keeps (Scope.order custody owned true) (ended.1.held + frame)
      (Carried.held ⟨ended.2⟩) (changeEngine (engine.letGoCarried ⟨ended.2⟩)) fun _ => 0 :=
    keeps_changeEngine fun _ _ hstate => h.honors.letGoCarried hstate
  have hgone : Keeps (Scope.order custody owned true) frame (heldAfter ended.2 + ended.1.held)
      (changeEngine (engine.letGoCarried ⟨ended.2⟩)) fun _ => 0 + ended.1.held :=
    hletGo.keep fun _ => ⟨(), rfl⟩
  exact hgone.bind fun _ => .pure (zero_add _).symm

-- A failure on the way closes the loop that was opened.
theorem recordWithin_keeps (h : Keeper engine custody frame) (howned : ∀ vars, 0 ≤ owned vars)
    {opening : Act σ ν Unit} (hopening : Opens custody owned lowering frame cost opening)
    (hcondition : Keeps (Scope.order custody owned true) frame 0 condition Guard.held)
    (hbody : Still (Scope.order custody owned true) frame body)
    (hmove : Moves custody owned move) :
    Keeps (Scope.order custody owned lowering) frame cost
      (recordWithin engine opening condition body move) Raster.held := by
  intro scope hscope
  have hopened := hopening scope hscope
  show Scope.order custody owned lowering (recordWithin engine opening condition body move scope).2 _
  unfold recordWithin
  rw [run_bind]
  rcases hresult : opening scope with ⟨result, opened⟩
  rw [hresult] at hopened
  cases result with
  | error problem => simpa only [Tally.yielded, zero_add] using hopened
  | ok _ =>
      obtain ⟨rfl, hopened⟩ := hopened
      have hrecord := record_keeps h howned hcondition hbody hmove
      rw [← zero_add frame] at hopened
      have hrecorded := Lowering.order_onFailure_abandon h.honors (hrecord opened) hopened
      simp only [run_bind]
      split at hrecorded
      · rename_i loop recorded hstep
        rw [hstep]
        have hfinished := Lowering.finish_order h.honors hrecorded
        simp only [onFailure]
        rcases hclosing : Lowering.finish engine recorded with ⟨result, closed⟩
        rw [hclosing] at hfinished
        cases result with
        | ok _ => exact hfinished
        | error problem =>
            have hgone : Scope.order custody owned false
                { closed with engine := engine.letGo loop closed.engine } frame :=
              Scope.order_of_engine (fun _ _ => h.honors.letGo) hfinished
            rwa [← zero_add frame] at hgone
      · rename_i hstep
        rw [hstep]
        simpa only [Tally.yielded, zero_add] using hrecorded

theorem hostRounds_still (h : Honors engine custody)
    (hcondition : Keeps (Scope.order custody owned lowering) frame 0 condition Guard.held)
    (hbody : Still (Scope.order custody owned lowering) frame body) (rounds : Nat)
    (holds : Bool) :
    Still (Scope.order custody owned lowering) frame
      (hostRounds engine condition body rounds holds) := by
  induction rounds generalizing holds with
  | zero =>
      cases holds with
      | false => exact .pure rfl
      | true => exact .throw _ _
  | succ rounds ih =>
      cases holds with
      | false => exact .pure rfl
      | true => exact hbody.bind fun _ => (guardHost_still h hcondition).bind ih

theorem inlineLoop_keeps (h : Keeper engine custody frame) (howned : ∀ vars, 0 ≤ owned vars)
    (hcondition : ∀ lowering,
      Keeps (Scope.order custody owned lowering) frame 0 condition Guard.held)
    (hbody : ∀ lowering, Still (Scope.order custody owned lowering) frame body)
    (hmove : Moves custody owned move) :
    Keeps (Scope.order custody owned lowering) frame 0 (inlineLoop engine condition body move)
      (heldIfAny Raster.held) := by
  refine (hcondition lowering).bind fun guard => ?_
  cases guard with
  | host holds =>
      exact (hostRounds_still h.honors (hcondition lowering) (hbody lowering) hostLimit
        holds).bind fun _ => .pure rfl
  | node guard =>
      have hopening : Opens custody owned lowering frame guard.held
          (afterwards (Lowering.start engine guard) (engine.letGo guard)) :=
        opens_afterwards (Lowering.start_opens h.honors howned guard) fun _ _ => h.honors.letGo
      exact (recordWithin_keeps h howned hopening (hcondition true) (hbody true) hmove).bind
        fun loop => .pure rfl

end Rounds

theorem whileLoop_keeps {condition : Act σ Vars Guard} {body : Act σ Vars Unit}
    (h : Keeper engine custody frame)
    (hcondition : ∀ {larger} lowering, frame ≤ larger →
      Keeps (Scope.order custody Vars.held lowering) larger 0 condition Guard.held)
    (hbody : ∀ {larger} lowering, frame ≤ larger →
      Still (Scope.order custody Vars.held lowering) larger body) :
    Keeps (Scope.order custody Vars.held lowering) frame 0 (whileLoop engine condition body)
      (heldIfAny Raster.held) := by
  refine (hcondition lowering le_rfl).bind fun guard => ?_
  cases guard with
  | host holds =>
      exact (hostRounds_still h.honors (hcondition lowering le_rfl) (hbody lowering le_rfl)
        hostLimit holds).bind fun _ => .pure rfl
  | node guard =>
      -- the guard is lent to everything that follows
      have hguard := Keeper.le_beside guard frame
      refine keeps_afterwards ?_ fun _ _ => h.honors.letGo
      have hclear : Still (Scope.order custody Vars.held lowering) (guard.held + frame)
          (modify fun scope => { scope with vars := scope.vars.clearAssigned }) :=
        .change fun _ _ hscope => hscope
      refine hclear.bind fun _ => ?_
      exact (recordWithin_keeps (h.beside guard) Vars.held_nonneg
        (Lowering.start_opens h.honors Vars.held_nonneg guard) (hcondition true hguard)
        (hbody true hguard) fun hcarried => h.honors.followAssigned hcarried).bind
          fun loop => .pure rfl

end Loop

end MapAlgebra
