import MapAlgebra.Proofs.Handles.Scripts
import MapAlgebra.Proofs.Loops.Declared
import MapAlgebra.Proofs.Graph.Building

namespace MapAlgebra

namespace Loop

namespace Carried

-- Every node after the loop is held by a handle.
def Wrapped (carried : Carried) : Prop := ∀ pair ∈ carried.pairs, pair.2.node ≠ none

-- The node that an operand moves on to.
def goal? (carried : Carried) : Operand → Option Raster
  | .node raster => raster.node.bind carried.afterFor
  | .host _ => none

def moved (carried : Carried) (operand : Operand) : Operand :=
  ((carried.goal? operand).map Operand.node).getD operand

end Carried

variable {σ : Type}

-- Handles are taken on nodes that are there, so what a loop hands out is wrapped.
theorem wrapPairs_wrapped {engine : Engine σ} {pairs : List (Address × Address)}
    {rasters : List (Address × Raster)} {state after : σ}
    (h : Lowering.wrapPairs engine pairs state = (.ok rasters, after)) :
    Carried.Wrapped ⟨rasters⟩ := by
  induction pairs generalizing rasters state after with
  | nil =>
      cases h
      exact List.forall_mem_nil _
  | cons pair pairs ih =>
      rw [Lowering.wrapPairs] at h
      obtain ⟨raster, between, hwrap, h⟩ := run_bind_eq_ok.mp h
      obtain ⟨rest, last, hrest, h⟩ := run_bind_eq_ok.mp h
      cases h
      obtain ⟨hnode, -⟩ := Engine.wrap_eq_ok hwrap
      have hothers : Carried.Wrapped ⟨rest⟩ := ih (Engine.orLetGo_eq_ok hrest)
      refine List.forall_mem_cons.mpr ⟨?_, hothers⟩
      rw [hnode]
      exact Option.some_ne_none _

-- Those are all the nodes that the variables are told to move on to.
theorem carried_wrapped {ν : Type} {engine : Engine σ} {loop : Raster} {carried : Carried}
    {scope after : Scope σ ν}
    (h : Lowering.carried engine loop scope = (.ok carried, after)) : carried.Wrapped := by
  obtain ⟨pairs, between, -, h⟩ := run_bind_eq_ok.mp h
  obtain ⟨rasters, last, hwrap, h⟩ := run_bind_eq_ok.mp h
  cases h
  unfold onEngine at hwrap
  rcases hpairs : Lowering.wrapPairs engine (pairs.before.zip pairs.after) between.engine
    with ⟨result, final⟩
  rw [hpairs] at hwrap
  cases hwrap
  exact wrapPairs_wrapped hpairs

-- What a client does with its variables. A raster that is handed out for a change in place may be
-- exchanged for another one.
inductive Update (σ : Type) where
  | declare (name : String) (operand : Operand)
  | set (name : String) (operand : Operand)
  | rasterInPlace (name : String) (change : Raster → σ → Raster × σ)
  | take (name : String)
  | takeRaster (name : String)
  | clearAssigned
  | rebindAssigned (carried : Carried) (wrapped : carried.Wrapped)

-- The variable that has to be there.
def Update.needs : Update σ → Option String
  | .set name _ | .rasterInPlace name _ | .take name | .takeRaster name => some name
  | .declare _ _ | .clearAssigned | .rebindAssigned _ _ => none

-- The variables without one of them and without its mark.
def Vars.without (vars : Vars) (name : String) : Vars :=
  ⟨vars.slots.erase name, vars.assigned.filter (· ≠ name)⟩

-- What a client is told.
inductive Answer where
  | handed (operand : Option Operand)
  | moved (count : Nat)

variable (engine : Engine σ)

def Update.run : Update σ → Act σ Vars Answer
  | .declare name operand => do
      Script.exchange engine (·.declare name operand)
      return .handed none
  | .set name operand => do
      Script.assign engine name operand
      return .handed none
  | .rasterInPlace name change => do
      Script.changeInPlace name fun raster state =>
        let (moved, state) := change raster state
        (.ok moved, state)
      return .handed none
  | .take name => do return .handed (← (Script.Statement.take name).run engine .empty)
  | .takeRaster name => do return .handed (← (Script.Statement.takeRaster name).run engine .empty)
  | .clearAssigned => do return .handed (← Script.Statement.clear.run engine .empty)
  | .rebindAssigned carried _ => fun scope =>
      let ((count, vars), state) := engine.rebindAssigned carried scope.vars scope.engine
      (.ok (.moved count), { scope with vars, engine := state })

section Moving

variable {engine} {carried : Carried}

theorem Carried.Wrapped.of_afterFor (h : carried.Wrapped) {node : Address} {target : Raster}
    (hafter : carried.afterFor node = some target) : ∃ goal, target.node = some goal := by
  obtain ⟨before, rest, hpairs, -⟩ := List.lookup_eq_some_iff.mp hafter
  have hmember : (node, target) ∈ carried.pairs := by simp [hpairs]
  exact Option.ne_none_iff_exists'.mp (h _ hmember)

theorem follow_eq {raster target : Raster} {goal : Address} (hgoal : target.node = some goal)
    (state : σ) : (engine.follow raster target state).1 = target := by
  unfold Engine.follow
  simp only [hgoal]
  by_cases hsame : raster.node = some goal
  · rw [if_pos hsame]
    exact Raster.eq_of_node (hsame.trans hgoal.symm)
  · rw [if_neg hsame]

-- A handle moves to its node after the loop, and stays where there is none.
theorem followCarried_eq (hwrapped : carried.Wrapped) (operand : Operand) (state : σ) :
    (engine.followCarried carried operand state).1 =
      ((carried.goal? operand).isSome, carried.moved operand) := by
  cases operand with
  | host value => rfl
  | node raster =>
      simp only [Engine.followCarried, Carried.moved, Carried.goal?]
      cases htarget : raster.node.bind carried.afterFor with
      | none => rfl
      | some target =>
          obtain ⟨node, -, hafter⟩ := Option.bind_eq_some_iff.mp htarget
          obtain ⟨goal, hgoal⟩ := hwrapped.of_afterFor hafter
          simp [follow_eq hgoal]

-- Whether a variable moves on.
def Vars.moves (vars : Vars) (carried : Carried) (name : String) : Bool :=
  name ∈ vars.assigned && ((vars.slots.find? name).bind carried.goal?).isSome

-- Some variables move on and all others stay.
structure MovedOn (carried : Carried) (moving : List String) (before after : Vars) : Prop where
  names : after.names = before.names
  assigned : after.assigned = before.assigned
  find : ∀ name, after.slots.find? name = (before.slots.find? name).map fun operand =>
    if name ∈ moving then carried.moved operand else operand

theorem Vars.moves_replace {vars : Vars} {name other : String} (h : other ≠ name)
    (operand : Operand) :
    (vars.replace name operand).moves carried other = vars.moves carried other := by
  have hfind : (vars.replace name operand).slots.find? other = vars.slots.find? other :=
    (vars.slots.find?_replace name other operand).trans (if_neg h)
  unfold Vars.moves
  rw [hfind]
  rfl

-- As names differ, a variable that has moved is not looked at again.
theorem rebindAssigned_go (hwrapped : carried.Wrapped) {names : List String} (hnames : names.Nodup)
    (vars : Vars) (state : σ) :
    (Engine.rebindAssigned.go engine carried names vars state).1.1 =
        names.countP (vars.moves carried) ∧
      MovedOn carried (names.filter (· ∈ vars.assigned)) vars
        (Engine.rebindAssigned.go engine carried names vars state).1.2 := by
  induction names generalizing vars state with
  | nil => exact ⟨rfl, rfl, rfl, fun name => by simp [Engine.rebindAssigned.go]⟩
  | cons name names ih =>
      obtain ⟨hnew, hrest⟩ := List.nodup_cons.mp hnames
      -- a variable that stays is left out of both sides
      have hleft : ∀ state, vars.moves carried name = false →
          (name ∈ vars.assigned → vars.slots.find? name = none) →
          (Engine.rebindAssigned.go engine carried names vars state).1.1 =
              (name :: names).countP (vars.moves carried) ∧
            MovedOn carried ((name :: names).filter (· ∈ vars.assigned)) vars
              (Engine.rebindAssigned.go engine carried names vars state).1.2 := by
        intro state hstays habsent
        obtain ⟨hcount, hmoved⟩ := ih hrest vars state
        refine ⟨by simp [hcount, hstays], hmoved.names, hmoved.assigned, fun other => ?_⟩
        rw [hmoved.find]
        by_cases hother : other = name
        · subst hother
          by_cases hassigned : other ∈ vars.assigned
          · simp [habsent hassigned]
          · simp [hassigned]
        · simp [hother]
      unfold Engine.rebindAssigned.go
      cases hfound : vars.slots.find? name with
      | none => exact hleft state (by simp [Vars.moves, hfound]) fun _ => hfound
      | some operand =>
          by_cases hassigned : name ∈ vars.assigned
          · have hfollow : (engine.followCarried carried operand state).1 = _ :=
              followCarried_eq hwrapped operand state
            rcases hstep : engine.followCarried carried operand state with ⟨⟨any, moved⟩, after⟩
            rw [hstep] at hfollow
            obtain ⟨rfl, rfl⟩ := Prod.mk.inj hfollow
            obtain ⟨hcount, hmoved⟩ := ih hrest (vars.replace name (carried.moved operand)) after
            have hfirst : vars.moves carried name = (carried.goal? operand).isSome := by
              simp [Vars.moves, hassigned, hfound]
            have hothers : names.countP ((vars.replace name (carried.moved operand)).moves carried) =
                names.countP (vars.moves carried) := by
              apply List.countP_congr
              intro other hother
              rw [Vars.moves_replace]
              rintro rfl
              exact hnew hother
            simp only [if_pos hassigned, hstep]
            refine ⟨?_, ?_, hmoved.assigned, fun other => ?_⟩
            · rw [hcount, hothers, List.countP_cons, hfirst]
              split <;> rfl
            · rw [hmoved.names]
              exact vars.slots.names_replace name _
            · rw [hmoved.find]
              show Option.map _ ((vars.slots.replace name _).find? other) = _
              rw [Bindings.find?_replace]
              by_cases hother : other = name
              · subst hother
                simp [hfound, hnew, hassigned]
              · have hunlisted : (other ∈ (name :: names).filter (· ∈ vars.assigned)) =
                    (other ∈ names.filter (· ∈ vars.assigned)) := by
                  simp [hother]
                rw [if_neg hother]
                simp only [hunlisted]
                rfl
          · simp only [if_neg hassigned]
            exact hleft state (by simp [Vars.moves, hassigned]) fun h => absurd h hassigned

-- A mark without a variable moves nothing.
theorem MovedOn.of_names {before after : Vars}
    (h : MovedOn carried (before.names.filter (· ∈ before.assigned)) before after) :
    MovedOn carried before.assigned before after := by
  refine ⟨h.names, h.assigned, fun name => ?_⟩
  rw [h.find]
  cases hfound : before.slots.find? name with
  | none => rfl
  | some operand =>
      have hname : name ∈ before.names := (before.slots.mem_names_iff name).mpr ⟨operand, hfound⟩
      simp [hname]

theorem rebindAssigned_moves (hwrapped : carried.Wrapped) (vars : Vars) (state : σ) :
    (engine.rebindAssigned carried vars state).1.1 = vars.names.countP (vars.moves carried) ∧
      MovedOn carried vars.assigned vars (engine.rebindAssigned carried vars state).1.2 := by
  obtain ⟨hcount, hmoved⟩ := rebindAssigned_go hwrapped vars.slots.distinct vars state
  exact ⟨hcount, hmoved.of_names⟩

end Moving

-- How an update can fail. A name that is not there changes nothing. Where a raster is asked for and a
-- number is found, the variable is marked or taken out before the failure is noticed.
inductive Fails (vars : Vars) : Update σ → MapError → Vars → Prop
  | unknown {update : Update σ} {name : String} (hneeds : update.needs = some name)
      (hname : name ∉ vars.names) :
      Fails vars update (.malformedLoop (.unknownVariable name)) vars
  | hostInPlace {name : String} {value : Scalar} {change : Raster → σ → Raster × σ}
      (hname : vars.slots.find? name = some (.host value)) :
      Fails vars (.rasterInPlace name change) (.typeMismatch (.hostVariable name)) (vars.mark name)
  | hostTaken {name : String} {value : Scalar}
      (hname : vars.slots.find? name = some (.host value)) :
      Fails vars (.takeRaster name) (.typeMismatch (.hostValue value)) (vars.without name)

inductive Ends (vars : Vars) : Update σ → Except MapError Answer → Vars → Prop
  | failed {update : Update σ} {problem : MapError} {after : Vars}
      (h : Fails vars update problem after) : Ends vars update (.error problem) after
  | declared {name : String} (hname : vars.slots.find? name = none) (operand : Operand) :
      Ends vars (.declare name operand) (.ok (.handed none))
        { vars with slots := vars.slots.append name operand }
  | redeclared {name : String} {old : Operand} (hname : vars.slots.find? name = some old)
      (operand : Operand) :
      Ends vars (.declare name operand) (.ok (.handed none)) (vars.replace name operand)
  | set {name : String} {old : Operand} (hname : vars.slots.find? name = some old)
      (operand : Operand) :
      Ends vars (.set name operand) (.ok (.handed none)) ((vars.replace name operand).mark name)
  | changed {name : String} {raster : Raster} {change : Raster → σ → Raster × σ}
      (hname : vars.slots.find? name = some (.node raster)) (moved : Raster) :
      Ends vars (.rasterInPlace name change) (.ok (.handed none))
        ((vars.mark name).replace name (.node moved))
  | taken {name : String} {operand : Operand} (hname : vars.slots.find? name = some operand) :
      Ends vars (.take name) (.ok (.handed (some operand))) (vars.without name)
  | rasterTaken {name : String} {raster : Raster}
      (hname : vars.slots.find? name = some (.node raster)) :
      Ends vars (.takeRaster name) (.ok (.handed (some (.node raster)))) (vars.without name)
  | cleared : Ends vars .clearAssigned (.ok (.handed none)) vars.clearAssigned
  | rebound {carried : Carried} (wrapped : carried.Wrapped) {after : Vars}
      (hmoved : MovedOn carried vars.assigned vars after) :
      Ends vars (.rebindAssigned carried wrapped)
        (.ok (.moved (vars.names.countP (vars.moves carried)))) after

section Ending

variable {engine} {scope : Scope σ Vars}

theorem Vars.get_eq_of_find {vars : Vars} {name : String} {operand : Operand}
    (h : vars.slots.find? name = some operand) : vars.get name = .ok operand := by
  rw [Vars.get, h]

theorem Vars.get_eq_of_unknown {vars : Vars} {name : String} (h : vars.slots.find? name = none) :
    vars.get name = .error (.malformedLoop (.unknownVariable name)) := by
  rw [Vars.get, h]

theorem assign_unknown {name : String} (h : scope.vars.slots.find? name = none)
    (operand : Operand) :
    Script.assign engine name operand scope = (.error (.malformedLoop (.unknownVariable name)),
      { scope with engine := engine.letGoOperand operand scope.engine }) := by
  have hget : (get : Act σ Vars (Scope σ Vars)) scope = (.ok scope, scope) := rfl
  simp only [Script.assign, run_bind, hget, Vars.set, Vars.get_eq_of_unknown h]
  rfl

theorem assign_known {name : String} {old : Operand} (h : scope.vars.slots.find? name = some old)
    (operand : Operand) :
    Script.assign engine name operand scope = (.ok (), { scope with
      vars := (scope.vars.replace name operand).mark name
      engine := Script.letGoOptional engine (some old) scope.engine }) := by
  have hget : (get : Act σ Vars (Scope σ Vars)) scope = (.ok scope, scope) := rfl
  simp only [Script.assign, run_bind, hget, Vars.set, Vars.get_eq_of_find h]
  rfl

theorem takeOut_unknown {name : String} (h : scope.vars.slots.find? name = none) :
    Script.takeOut name scope = (.error (.malformedLoop (.unknownVariable name)), scope) := by
  have hget : (get : Act σ Vars (Scope σ Vars)) scope = (.ok scope, scope) := rfl
  simp only [Script.takeOut, run_bind, hget, Vars.take, Vars.get_eq_of_unknown h]
  rfl

theorem takeOut_known {name : String} {operand : Operand}
    (h : scope.vars.slots.find? name = some operand) :
    Script.takeOut name scope = (.ok operand, { scope with vars := scope.vars.without name }) := by
  have hget : (get : Act σ Vars (Scope σ Vars)) scope = (.ok scope, scope) := rfl
  simp only [Script.takeOut, run_bind, hget, Vars.take, Vars.get_eq_of_find h]
  rfl

theorem changeInPlace_unknown {name : String} (h : scope.vars.slots.find? name = none)
    (change : Raster → Run σ Raster) : Script.changeInPlace name change scope =
      (.error (.malformedLoop (.unknownVariable name)), scope) := by
  have htouch : scope.vars.touch name = .error (.malformedLoop (.unknownVariable name)) := by
    rw [Vars.touch, Vars.get_eq_of_unknown h]
    rfl
  rw [Script.changeInPlace_eq, htouch]

theorem changeInPlace_known {name : String} {operand : Operand}
    (h : scope.vars.slots.find? name = some operand) (change : Raster → Run σ Raster) :
    Script.changeInPlace name change scope = match operand with
      | .host _ => (.error (.typeMismatch (.hostVariable name)),
          { scope with vars := scope.vars.mark name })
      | .node raster => match change raster scope.engine with
          | (.error problem, engine) =>
              (.error problem, { scope with engine, vars := scope.vars.mark name })
          | (.ok moved, engine) => (.ok (), { scope with
              engine, vars := (scope.vars.mark name).replace name (.node moved) }) := by
  have htouch : scope.vars.touch name = .ok (scope.vars.mark name) := by
    rw [Vars.touch, Vars.get_eq_of_find h]
    rfl
  have hget : (scope.vars.mark name).get name = .ok operand :=
    Vars.get_eq_of_find (by rw [Vars.slots_mark, h])
  rw [Script.changeInPlace_eq, htouch]
  simp only [Vars.raster, hget]
  cases operand <;> rfl

theorem Update.ends (update : Update σ) (scope : Scope σ Vars) :
    Ends scope.vars update (update.run engine scope).1 (update.run engine scope).2.vars := by
  cases update with
  | declare name operand =>
      show Ends scope.vars (.declare name operand) (.ok (.handed none))
        (scope.vars.declare name operand).2
      unfold Vars.declare
      cases hname : scope.vars.slots.find? name with
      | none => exact .declared hname operand
      | some old => exact .redeclared hname operand
  | set name operand =>
      simp only [Update.run, run_bind]
      cases hname : scope.vars.slots.find? name with
      | none =>
          rw [assign_unknown hname]
          exact .failed (.unknown rfl ((scope.vars.slots.find?_eq_none_iff name).mp hname))
      | some old =>
          rw [assign_known hname]
          exact .set hname operand
  | rasterInPlace name change =>
      simp only [Update.run, run_bind]
      cases hname : scope.vars.slots.find? name with
      | none =>
          rw [changeInPlace_unknown hname]
          exact .failed (.unknown rfl ((scope.vars.slots.find?_eq_none_iff name).mp hname))
      | some operand =>
          rw [changeInPlace_known hname]
          cases operand with
          | node raster => exact .changed hname (change raster scope.engine).1
          | host value => exact .failed (.hostInPlace hname)
  | take name =>
      simp only [Update.run, Script.Statement.run, run_bind]
      cases hname : scope.vars.slots.find? name with
      | none =>
          rw [takeOut_unknown hname]
          exact .failed (.unknown rfl ((scope.vars.slots.find?_eq_none_iff name).mp hname))
      | some operand =>
          rw [takeOut_known hname]
          exact .taken hname
  | takeRaster name =>
      simp only [Update.run, Script.Statement.run, run_bind]
      cases hname : scope.vars.slots.find? name with
      | none =>
          rw [takeOut_unknown hname]
          exact .failed (.unknown rfl ((scope.vars.slots.find?_eq_none_iff name).mp hname))
      | some operand =>
          rw [takeOut_known hname]
          cases operand with
          | node raster => exact .rasterTaken hname
          | host value => exact .failed (.hostTaken hname)
  | clearAssigned =>
      simp only [Update.run, Script.Statement.run, run_bind]
      exact .cleared
  | rebindAssigned carried wrapped =>
      obtain ⟨hcount, hmoved⟩ := rebindAssigned_moves wrapped scope.vars scope.engine
      show Ends scope.vars (.rebindAssigned carried wrapped)
        (.ok (.moved (engine.rebindAssigned carried scope.vars scope.engine).1.1)) _
      rw [hcount]
      exact .rebound wrapped hmoved

end Ending

-- Names differ, marks differ, and only variables are marked.
structure Vars.Tidy (vars : Vars) : Prop where
  names : vars.names.Nodup
  assigned : vars.assigned.Nodup
  declared : ∀ name ∈ vars.assigned, name ∈ vars.names

namespace Vars.Tidy

variable {vars : Vars}

theorem empty : Vars.empty.Tidy := ⟨List.nodup_nil, List.nodup_nil, List.forall_mem_nil _⟩

-- Any other operands under the same names.
theorem of_names {after : Vars} (h : vars.Tidy) (hnames : after.names = vars.names)
    (hassigned : after.assigned = vars.assigned) : after.Tidy := by
  refine ⟨after.slots.distinct, hassigned ▸ h.assigned, fun name hname => ?_⟩
  rw [hnames]
  exact h.declared name (hassigned ▸ hname)

theorem replace (h : vars.Tidy) (name : String) (operand : Operand) :
    (vars.replace name operand).Tidy :=
  h.of_names (vars.slots.names_replace name operand) rfl

theorem mark (h : vars.Tidy) {name : String} (hname : name ∈ vars.names) :
    (vars.mark name).Tidy := by
  refine ⟨(vars.mark name).slots.distinct, ?_, fun other hother => ?_⟩
  · unfold Vars.mark
    by_cases hmarked : name ∈ vars.assigned
    · rw [if_pos hmarked]
      exact h.assigned
    · rw [if_neg hmarked]
      exact List.nodup_append.mpr ⟨h.assigned, List.pairwise_singleton _ name,
        fun other hother last hlast hsame =>
          hmarked (List.mem_singleton.mp hlast ▸ hsame ▸ hother)⟩
  · rw [Vars.names, Vars.slots_mark]
    obtain hother | rfl := (vars.mem_mark name other).mp hother
    · exact h.declared other hother
    · exact hname

theorem append (h : vars.Tidy) {name : String} (hname : vars.slots.find? name = none)
    (operand : Operand) : Tidy { vars with slots := vars.slots.append name operand } := by
  refine ⟨(vars.slots.append name operand).distinct, h.assigned, fun other hother => ?_⟩
  show other ∈ (vars.slots.append name operand).names
  rw [Bindings.names_append hname]
  exact List.mem_append_left _ (h.declared other hother)

theorem without (h : vars.Tidy) (name : String) : (vars.without name).Tidy := by
  refine ⟨(vars.slots.erase name).distinct, h.assigned.filter _, fun other hother => ?_⟩
  show other ∈ (vars.slots.erase name).names
  rw [Bindings.names_erase]
  obtain ⟨hassigned, hdiffers⟩ := List.mem_filter.mp hother
  exact List.mem_filter.mpr ⟨h.declared other hassigned, hdiffers⟩

theorem clearAssigned (vars : Vars) : vars.clearAssigned.Tidy :=
  ⟨vars.slots.distinct, List.nodup_nil, List.forall_mem_nil _⟩

end Vars.Tidy

theorem Fails.tidy {vars after : Vars} {update : Update σ} {problem : MapError}
    (h : Fails vars update problem after) (htidy : vars.Tidy) : after.Tidy := by
  cases h with
  | unknown => exact htidy
  | hostInPlace hname => exact htidy.mark ((vars.slots.mem_names_iff _).mpr ⟨_, hname⟩)
  | hostTaken => exact htidy.without _

theorem Ends.tidy {vars after : Vars} {update : Update σ} {result : Except MapError Answer}
    (h : Ends vars update result after) (htidy : vars.Tidy) : after.Tidy := by
  cases h with
  | failed h => exact h.tidy htidy
  | declared hname operand => exact htidy.append hname operand
  | redeclared _ operand => exact htidy.replace _ operand
  | @set name _ hname operand =>
      have hdeclared : name ∈ (vars.replace name operand).names := by
        rw [Vars.names, Vars.replace, Bindings.names_replace]
        exact (vars.slots.mem_names_iff name).mpr ⟨_, hname⟩
      exact (htidy.replace name operand).mark hdeclared
  | changed hname moved =>
      exact (htidy.mark ((vars.slots.mem_names_iff _).mpr ⟨_, hname⟩)).replace _ _
  | taken => exact htidy.without _
  | rasterTaken => exact htidy.without _
  | cleared => exact Vars.Tidy.clearAssigned vars
  | rebound _ hmoved => exact htidy.of_names hmoved.names hmoved.assigned

-- What updates leave, whether they succeed or fail.
def Scope.afterUpdates (scope : Scope σ Vars) (updates : List (Update σ)) : Scope σ Vars :=
  updates.foldl (fun scope update => (update.run engine scope).2) scope

variable {engine} in
theorem Vars.Tidy.afterUpdates {scope : Scope σ Vars} (h : scope.vars.Tidy)
    (updates : List (Update σ)) : (scope.afterUpdates engine updates).vars.Tidy := by
  induction updates generalizing scope with
  | nil => exact h
  | cons update updates ih => exact ih ((update.ends scope).tidy h)

-- After any updates the variables are in order, whatever failed on the way. An update that fails
-- leaves them as they are, but where it finds a number in the place of a raster. The assigned ones
-- that a loop carries move on, those alone, and their number is told.
theorem variables_kept_in_order (updates : List (Update σ)) (update : Update σ) (state : σ)
    (lowering : Bool) :
    let scope := Scope.afterUpdates engine ⟨state, lowering, .empty⟩ updates
    let result := (update.run engine scope).1
    let after := (update.run engine scope).2.vars
    scope.vars.Tidy ∧ after.Tidy ∧
      (∀ problem, result = .error problem → Fails scope.vars update problem after) ∧
      ∀ carried wrapped, update = .rebindAssigned carried wrapped →
        result = .ok (.moved (scope.vars.names.countP (scope.vars.moves carried))) ∧
          MovedOn carried scope.vars.assigned scope.vars after := by
  intro scope result after
  have htidy : scope.vars.Tidy := Vars.Tidy.empty.afterUpdates updates
  have hends : Ends scope.vars update result after := update.ends scope
  refine ⟨htidy, hends.tidy htidy, ?_, ?_⟩
  · intro problem hproblem
    rw [hproblem] at hends
    cases hends with
    | failed h => exact h
  · rintro carried wrapped hupdate
    clear_value result after
    subst hupdate
    cases hends with
    | rebound _ hmoved => exact ⟨rfl, hmoved⟩
    | failed h => cases h with
      | unknown hneeds => cases hneeds

-- A number in the place of a raster. The call that changes in place fails and marks the variable, the
-- one that takes it out fails and loses it.
theorem refused_access_leaves_trace :
    let start : Scope Graph.State Vars := ⟨Graph.State.empty 0 none, false, .empty⟩
    let scope := start.afterUpdates Graph.simulator [.declare "i" (.host (.s32 1))]
    let touched := Update.run Graph.simulator
      (.rasterInPlace "i" fun raster state => (raster, state)) scope
    let lost := Update.run Graph.simulator (.takeRaster "i") scope
    scope.vars.names = ["i"] ∧ scope.vars.assigned = [] ∧
      touched.1 = .error (.typeMismatch (.hostVariable "i")) ∧
      touched.2.vars.assigned = ["i"] ∧
      lost.1 = .error (.typeMismatch (.hostValue (.s32 1))) ∧ lost.2.vars.names = [] := by
  refine ⟨?_, ?_, ?_, ?_, ?_, ?_⟩ <;> rfl

end Loop

end MapAlgebra
