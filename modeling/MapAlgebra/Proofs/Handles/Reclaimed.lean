import MapAlgebra.Proofs.Handles.Log
import MapAlgebra.Proofs.Handles.Taken

namespace MapAlgebra

namespace Graph

variable {named : Address → Prop} {byHand : Prop}

theorem ask_loopPairs {loop : Raster} {state after : Watched} {pairs : Pairs} :
    loop.ask watched.loopPairs state = (.ok pairs, after) ↔ after = state ∧
      ∃ id entries, loop.node = some id ∧ id ≠ Address.null ∧
        state.1.recorder.pairsOf id = some entries ∧
        pairs = ⟨entries.map Prod.fst, entries.map Prod.snd⟩ := by
  rw [Raster.ask, run_bind_eq_ok]
  constructor
  · rintro ⟨id, middle, hrequire, hpairs⟩
    obtain ⟨hnode, rfl⟩ := run_lift_eq_ok.mp hrequire
    have hasked : (middle.1.pairsOf id, middle) = (.ok pairs, after) := hpairs
    obtain ⟨hfound, rfl⟩ := Prod.mk.inj hasked
    unfold State.pairsOf at hfound
    split at hfound
    · cases hfound
    · rename_i hnull
      split at hfound
      · rename_i entries hentries
        cases hfound
        exact ⟨rfl, id, entries, Raster.require_eq_ok hnode, hnull, hentries, rfl⟩
      · cases hfound
  · rintro ⟨rfl, id, entries, hnode, hnull, hentries, rfl⟩
    refine ⟨id, after, run_lift_eq_ok.mpr ⟨?_, rfl⟩, ?_⟩
    · rw [Raster.require, hnode]
    · show (after.1.pairsOf id, after) = _
      rw [State.pairsOf, if_neg hnull, hentries]

-- A handle on a loop that was put together, and the pairs of nodes that it can be asked for. The
-- nodes after it are about to be taken. By hand they need not be.
structure Opened (named : Address → Prop) (byHand : Prop) (loop : Raster)
    (pairs : List (Nat × Nat)) (state : Watched) (frame : Tally) : Prop where
  paired : loop.ask watched.loopPairs state =
    (.ok ⟨pairs.map Prod.fst, pairs.map Prod.snd⟩, state)
  tails : ∀ pair ∈ pairs, pair.2 ≠ Address.null ∧ state.1.nodes.contains pair.2 = true
  kept : Kept named byHand (· ∈ pairs.map Prod.snd) true state (loop.held + frame)
  keptByHand : byHand → Kept named byHand (fun _ => False) true state (loop.held + frame)

namespace Kept

variable {fresh : Nat → Prop} {lowering : Bool} {state next : Watched} {handles frame : Tally}

theorem assembled_error {problem : MapError}
    (h : Kept named byHand fresh true state frame)
    (hnext : watched.assembled state = (.error problem, next)) :
    Kept named byHand fresh true next frame := by
  obtain ⟨graph, log⟩ := state
  rw [Engine.assembled, run_bind] at hnext
  rcases hresult : simulator.loopAssemble graph with ⟨result, after⟩
  have hrun : watched.loopAssemble (graph, log) = (result, after, log) := by
    show Run.noted simulator.loopAssemble (graph, log) = _
    rw [Run.noted, hresult]
  rw [hrun] at hnext
  cases result with
  | error problem =>
      cases hnext
      obtain ⟨phase, rfl⟩ := Tended.assemble_error hresult
      exact h.rephase phase
  | ok loop =>
      obtain ⟨pairs, hconcluded⟩ := h.tended.assemble hresult
      have hnull := h.ne_null_of_le hconcluded.loop_new
      simp only [watched.wrap_eq hnull] at hnext
      cases hnext

theorem assembled_ok {loop : Raster}
    (h : Kept named byHand (fun _ => False) true state frame)
    (hnext : watched.assembled state = (.ok loop, next)) :
    ∃ pairs, Opened named byHand loop pairs next frame := by
  obtain ⟨graph, log⟩ := state
  obtain ⟨id, middle, hassembled, hwrapped⟩ := run_bind_eq_ok.mp hnext
  rcases hresult : simulator.loopAssemble graph with ⟨result, after⟩
  have hrun : watched.loopAssemble (graph, log) = (result, after, log) := by
    show Run.noted simulator.loopAssemble (graph, log) = _
    rw [Run.noted, hresult]
  rw [hrun] at hassembled
  cases hassembled
  obtain ⟨pairs, hconcluded⟩ := h.tended.assemble hresult
  have hnull := h.ne_null_of_le hconcluded.loop_new
  rw [watched.wrap_eq hnull] at hwrapped
  cases hwrapped
  have hpaired : ∀ other ∈ after.recorder.afterLoops, other ≠ Address.null := by
    intro other hother
    obtain htail | hearlier := hconcluded.afterLoops other hother
    · exact (Nat.zero_lt_of_lt (hconcluded.tails other htail).2).ne'
    · exact h.paired other hearlier
  have hboth : Kept named byHand (fun other => other = id ∨ other ∈ pairs.map Prod.snd) true
      (after, log) frame := by
    refine h.follow (hconcluded.tended.mono ?_) nofun hpaired hconcluded.next hconcluded.refs
    rintro other kind ((huntaken | hnone) | rfl | ⟨htail, _⟩)
    · exact Or.inl huntaken
    · exact hnone.elim
    · exact Or.inr (Or.inl rfl)
    · exact Or.inr (Or.inr htail)
  refine ⟨pairs, ask_loopPairs.mpr ⟨rfl, id, pairs, rfl, hnull, hconcluded.paired, rfl⟩,
    fun pair hpair => ?_, ?_, fun hhand => ?_⟩
  · obtain ⟨hthere, hlt⟩ := hconcluded.tails pair.2 (List.mem_map_of_mem hpair)
    refine ⟨(Nat.zero_lt_of_lt hlt).ne', ?_⟩
    show (after.acquire id).nodes.contains pair.2 = true
    rwa [State.acquire, State.contains_modify]
  · exact (hboth.acquire (Or.inl hconcluded.loop_live)).mono fun other hother =>
      hother.1.resolve_left hother.2
  · have hloop : Kept named byHand (· = id) true (after, log) frame := by
      refine h.follow (hconcluded.tended.mono ?_) nofun hpaired hconcluded.next hconcluded.refs
      rintro other kind ((huntaken | hnone) | rfl | ⟨htail, hkind⟩)
      · exact Or.inl huntaken
      · exact hnone.elim
      · exact Or.inr rfl
      · -- whatever was taken is older than the loop
        refine Or.inl ⟨hhand, hkind, fun taken htaken hnode => ?_⟩
        by_contra hpresent
        have hold := h.logged taken htaken (Bool.eq_true_of_not_eq_false hpresent)
        have hnew := hconcluded.loop_new.trans_lt (hconcluded.tails other htail).2
        exact absurd (hnode ▸ hold) hnew.not_gt
    exact hloop.take (Or.inl hconcluded.loop_live) fun _ hother => hother

-- Handles are taken on nodes one by one, and nothing stands in the way.
theorem wrapPairs {pairs : List (Nat × Nat)} (h : Kept named byHand fresh lowering state frame)
    (hpairs : ∀ pair ∈ pairs, pair.2 ≠ Address.null ∧ Takes named byHand state pair.2)
    (hfresh : ∀ id, fresh id → id ∈ pairs.map Prod.snd) :
    ∃ rest after, Loop.Lowering.wrapPairs watched pairs state = (.ok rest, after) ∧
      Kept named byHand (fun _ => False) lowering after (heldAfter rest + frame) := by
  induction pairs generalizing state fresh frame with
  | nil =>
      refine ⟨[], state, rfl, ?_⟩
      rw [heldAfter, List.map_nil, List.sum_nil, zero_add]
      exact h.mono fun id hid => absurd (hfresh id hid) List.not_mem_nil
  | cons pair pairs ih =>
      obtain ⟨hnull, htakes⟩ := hpairs pair List.mem_cons_self
      obtain ⟨rest, after, hrest, hafter⟩ := ih (h.acquire htakes)
        (fun other hother => (hpairs other (List.mem_cons_of_mem _ hother)).imp_right
          fun h => h.acquire pair.2)
        fun id hid => (List.mem_cons.mp (hfresh id hid.1)).resolve_left hid.2
      refine ⟨(pair.1, .on pair.2 hnull) :: rest, after, ?_, ?_⟩
      · rw [Loop.Lowering.wrapPairs, run_bind, watched.wrap_eq hnull]
        simp only [run_bind, Engine.orLetGo, hrest]
        rfl
      · have hsum : heldAfter ((pair.1, Raster.on pair.2 hnull) :: rest) + frame =
            heldAfter rest + (Tally.one pair.2 + frame) := by
          rw [heldAfter, List.map_cons, List.sum_cons, heldAfter, Raster.held_of_node rfl]
          abel
        rwa [hsum]

theorem gathered {loop : Raster} {pairs : List (Nat × Nat)}
    (h : Kept named byHand fresh lowering state frame)
    (hask : loop.ask watched.loopPairs state =
      (.ok ⟨pairs.map Prod.fst, pairs.map Prod.snd⟩, state))
    (hpairs : ∀ pair ∈ pairs, pair.2 ≠ Address.null ∧ Takes named byHand state pair.2)
    (hfresh : ∀ id, fresh id → id ∈ pairs.map Prod.snd) :
    ∃ rest after, watched.gathered loop state = (.ok rest, after) ∧
      Kept named byHand (fun _ => False) lowering after (heldAfter rest + frame) := by
  obtain ⟨rest, after, hrest, hafter⟩ := h.wrapPairs hpairs hfresh
  refine ⟨rest, after, ?_, hafter⟩
  rw [Engine.gathered, run_bind, hask]
  show Loop.Lowering.wrapPairs watched ((pairs.map _).zip (pairs.map _)) state = _
  rwa [← List.zip_of_prod rfl rfl]

-- A new node, or why there is none.
theorem constructed (h : Kept named byHand (fun _ => False) lowering state frame)
    (request : Construction) :
    (∃ problem, watched.construct request state = (.error problem, state)) ∨
    ∃ node next, watched.construct request state = (.ok node, next) ∧ node ≠ Address.null ∧
      Kept named byHand (· = node) lowering next frame ∧ Takes named byHand next node ∧
      ∀ old ∈ request.required, old ≠ Address.null → old ≠ node := by
  obtain ⟨graph, log⟩ := state
  have hrun : watched.construct request (graph, log) =
      Run.noted (simulator.construct request) (graph, log) := rfl
  rw [hrun, Run.noted]
  rcases hresult : simulator.construct request graph with ⟨result, next⟩
  cases result with
  | error problem =>
      have hsame := atomically_refused (congrArg (·.1.isOk) hresult)
      obtain rfl : graph = next := hsame.symm.trans (congrArg Prod.snd hresult)
      exact Or.inl ⟨problem, rfl⟩
  | ok node =>
      have hdone : atomically (·.construct request) graph = (.ok node, next) := hresult
      have hnext := atomically_eq_ok hdone
      obtain ⟨hkept, htakes, hle⟩ := h.construct hnext
      refine Or.inr ⟨node, (next, log), rfl, h.ne_null_of_le hle, hkept, htakes,
        fun old hold hnull => ?_⟩
      exact ((h.tended.required_old hnext hold hnull).trans_le hle).ne

end Kept

open Kept

-- Steps that succeed as a whole or leave the graph as it was.
theorem still_atomically {α : Type} {step : State → Except MapError (α × State)} {lowering : Bool}
    {frame : Tally}
    (h : ∀ {graph log handles result next},
      Kept named byHand (fun _ => False) lowering (graph, log) handles →
      step graph = .ok (result, next) →
        Kept named byHand (fun _ => False) lowering (next, log) handles) :
    Still ((keeping named byHand).order lowering) frame (Run.noted (atomically step)) := by
  refine Steady.still fun state handles hstate => ?_
  intro hhandles
  exact atomically_induction
    (motive := fun next => Kept named byHand (fun _ => False) lowering (next, state.2) handles)
    (hstate hhandles) fun _ _ => h (hstate hhandles)

theorem still_atomically_ {step : State → Except MapError State} {lowering : Bool} {frame : Tally}
    (h : ∀ {graph log handles next},
      Kept named byHand (fun _ => False) lowering (graph, log) handles →
      step graph = .ok next → Kept named byHand (fun _ => False) lowering (next, log) handles) :
    Still ((keeping named byHand).order lowering) frame (Run.noted (atomically_ step)) := by
  refine Steady.still fun state handles hstate => ?_
  intro hhandles
  exact atomically_induction_
    (motive := fun next => Kept named byHand (fun _ => False) lowering (next, state.2) handles)
    (hstate hhandles) fun _ => h (hstate hhandles)

variable {lowering : Bool} {frame : Tally}

theorem keeps_make (request : Construction) (hframe : 0 ≤ frame) :
    Keeps ((keeping named byHand).order lowering) frame 0 (watched.make request) Raster.held := by
  intro state hstate
  have hkept := hstate (by rwa [zero_add])
  rw [zero_add] at hkept
  rw [Engine.make, run_bind]
  obtain ⟨problem, hrun⟩ | ⟨node, next, hrun, hnull, hnew, htakes, _⟩ := hkept.constructed request
  · rw [hrun]
    exact hstate
  · rw [hrun]
    simp only [watched.wrap_eq hnull]
    exact fun _ => hnew.take htakes fun _ => id

theorem keeps_renew {raster : Raster} {request : Construction}
    (hread : ∀ node, raster.node = some node → node ∈ request.required) (hheld : raster.held ≤ frame) :
    Keeps ((keeping named byHand).order lowering) frame 0
      (do watched.rebind raster (← watched.construct request))
      fun moved => moved.held - raster.held := by
  intro state hstate
  have hkept := hstate (by rw [zero_add]; exact raster.held_nonneg.trans hheld)
  rw [zero_add] at hkept
  rw [run_bind]
  obtain ⟨problem, hrun⟩ | ⟨node, next, hrun, hnull, hnew, htakes, hold⟩ :=
    hkept.constructed request
  · rw [hrun]
    exact hstate
  · have hmoves : raster.node ≠ some node := fun hsame =>
      hold node (hread node hsame) (Raster.ne_null hsame) rfl
    rw [hrun]
    simp only [watched.rebind_eq hnull hmoves]
    exact fun _ => hnew.rebind htakes (fun _ => id) hheld

theorem keeps_wrap {node : Address} (hnode : named node) (hframe : 0 ≤ frame) :
    Keeps ((keeping named byHand).order lowering) frame 0 (watched.wrap node) Raster.held := by
  unfold Engine.wrap
  split
  · exact .throw _ _
  · intro state hstate _
    have hkept := hstate (by rwa [zero_add])
    rw [zero_add] at hkept
    exact hkept.take (Or.inr (Or.inr (Or.inl hnode))) fun _ => False.elim

theorem keeps_rebind {raster : Raster} {node : Address} (hnode : named node)
    (hheld : raster.held ≤ frame) :
    Keeps ((keeping named byHand).order lowering) frame 0 (watched.rebind raster node)
      fun moved => moved.held - raster.held := by
  unfold Engine.rebind
  split
  · exact .throw _ _
  · split
    · exact .pure (sub_self _)
    · intro state hstate _
      have hkept := hstate (by rw [zero_add]; exact raster.held_nonneg.trans hheld)
      rw [zero_add] at hkept
      exact hkept.rebind (Or.inr (Or.inr (Or.inl hnode))) (fun _ => False.elim) hheld

theorem keeps_assembled (hhand : byHand) (hframe : 0 ≤ frame) :
    Keeps ((keeping named byHand).order true) frame 0 watched.assembled Raster.held := by
  intro state hstate _
  have hkept := hstate (by rwa [zero_add])
  rw [zero_add] at hkept
  rcases hrun : watched.assembled state with ⟨result, next⟩
  cases result with
  | error problem =>
      rw [Tally.yielded, zero_add]
      exact hkept.assembled_error hrun
  | ok loop =>
      obtain ⟨pairs, hopened⟩ := hkept.assembled_ok hrun
      exact hopened.keptByHand hhand

theorem keeps_concluded (hframe : 0 ≤ frame) :
    Keeps ((keeping named byHand).order true) frame 0 watched.concluded fun ended =>
      heldAfter ended.2 + ended.1.held := by
  intro state hstate
  have hkept := hstate (by rwa [zero_add])
  rw [zero_add] at hkept
  rw [Engine.concluded, run_bind]
  rcases hrun : watched.assembled state with ⟨result, next⟩
  cases result with
  | error problem =>
      intro _
      rw [Tally.yielded, zero_add]
      exact hkept.assembled_error hrun
  | ok loop =>
      obtain ⟨pairs, hopened⟩ := hkept.assembled_ok hrun
      obtain ⟨rest, after, hrest, hafter⟩ := hopened.kept.gathered hopened.paired
        (fun pair hpair => (hopened.tails pair hpair).imp_right Or.inl) fun _ => id
      simp only [run_bind, Engine.orLetGo, hrest]
      intro _
      show Kept _ _ _ _ after (heldAfter rest + loop.held + frame)
      rwa [add_assoc]

theorem keeps_gathered (loop : Raster) (hhand : byHand) (hframe : 0 ≤ frame) :
    Keeps ((keeping named byHand).order true) frame 0 (watched.gathered loop) heldAfter := by
  have hstill : Still ((keeping named byHand).order true) frame (loop.ask watched.loopPairs) :=
    (Keeps.lift _).bind fun node => Steady.still fun _ _ hstate => hstate
  intro state
  refine Keeps.bind_at (hstill state) fun pairs after hask hstate => ?_
  have hkept := hstate (by rwa [zero_add])
  rw [zero_add] at hkept
  obtain ⟨rfl, id, entries, _, _, hentries, rfl⟩ := ask_loopPairs.mp hask
  have hpaired : ∀ entry ∈ entries, entry.2 ∈ after.1.recorder.afterLoops := fun entry hentry =>
    Recorder.mem_afterLoops_of_pairsOf hentries (List.mem_map_of_mem hentry)
  obtain ⟨rest, last, hrest, hlast⟩ := hkept.wrapPairs
    (fun entry hentry => ⟨hkept.paired _ (hpaired entry hentry),
      Or.inr (Or.inr (Or.inr ⟨hhand, hpaired entry hentry⟩))⟩) fun _ => False.elim
  rw [← List.zip_of_prod rfl rfl, hrest]
  exact fun _ => hlast

-- The graph keeps its counts for whoever follows custody.
theorem honors_keeping : Honors watched (keeping named byHand) where
  acquire hnode hheld hstate hhandles := by
    have hkept := hstate ((Tally.one_nonneg _).trans hheld)
    exact hkept.take (hkept.takes_held hheld) fun _ => False.elim
  release hnode hstate hhandles :=
    (hstate (add_nonneg (Tally.one_nonneg _) hhandles)).release hhandles
  make hframe _ := keeps_make _ hframe
  renew hread hheld _ := keeps_renew hread hheld
  wrap := keeps_wrap
  rebind := keeps_rebind
  start := fun hstate hhandles => (hstate hhandles).startLoop
  condition _ := still_atomically_ fun hkept => hkept.condition
  replay _ := still_atomically_ fun hkept hnext => by
    obtain ⟨recorder, hrecorder, hnext⟩ := bind_eq_ok.mp hnext
    cases hnext
    exact hkept.replay hrecorder
  conclude := keeps_concluded
  assemble := keeps_assembled
  gather := keeps_gathered
  finish hstate hhandles := (hstate hhandles).endLoop
  setupDevices _ _ _ := by
    refine Steady.still fun _ _ hstate => ?_
    intro hhandles
    exact (hstate hhandles).beside rfl rfl rfl
  setRanks _ := still_atomically_ Kept.setRanks
  write _ _ := still_atomically Kept.write
  evaluate _ := still_atomically_ Kept.evaluate
  value _ := Steady.still fun _ _ hstate => hstate
  nodeId _ := Steady.still fun _ _ hstate => hstate
  nodeName _ := Steady.still fun _ _ hstate => hstate
  stream _ := Steady.still fun _ _ hstate => hstate
  dataType _ := Steady.still fun _ _ hstate => hstate
  dimension _ := Steady.still fun _ _ hstate => hstate
  memOrder _ := Steady.still fun _ _ hstate => hstate
  size _ := Steady.still fun _ _ hstate => hstate
  block _ := Steady.still fun _ _ hstate => hstate
  group _ := Steady.still fun _ _ hstate => hstate

end Graph

namespace Script

open MapAlgebra.Graph

-- Commands that reach the nodes of a graph through handles only.
def Command.isOrdinary : Command → Bool
  | .repeated _ command => command.isOrdinary
  | .engine _ _ | .backstage .fresh => false
  | _ => true

def watchedConsole : Console Watched := graphConsole.noting takenNotes

-- A session on an empty graph in memory after some commands, with the handles that were taken.
def watch (limit : Nat) (directory : Option Directory) (commands : List Command) :
    Workspace Watched :=
  afterCommands watchedConsole commands (.start (.empty limit directory, []))

def Workspace.graph (workspace : Workspace Watched) : State := workspace.scope.engine.1

def Workspace.taken (workspace : Workspace Watched) : List Taken := workspace.scope.engine.2

theorem oversees_watched {named : Address → Prop} {byHand : Prop} :
    Oversees watchedConsole (keeping named byHand) where
  engine := honors_keeping
  grid _ := Steady.still fun _ _ hstate => hstate
  backstage {_ _ command} hordinary := by
    refine Steady.still fun state handles hstate => ?_
    intro hhandles
    have hkept := hstate hhandles
    cases command with
    | fresh => exact absurd rfl hordinary
    | insert name grid =>
        cases grid with
        | error problem => exact hkept
        | ok grid => exact hkept.beside rfl rfl rfl
    | protect name => exact hkept.beside rfl rfl rfl
    | putFile name text => exact hkept.beside rfl rfl rfl
    | _ => exact hkept

theorem Command.bears_ordinary {named : Address → Prop} {byHand : Prop} {command : Command}
    (h : command.isOrdinary) : command.Bears watchedConsole (keeping named byHand) := by
  induction command with
  | repeated count command ih => exact ih h
  | engine call nodes => cases h
  | backstage step =>
      refine oversees_watched.backstage ?_
      rintro rfl
      cases h
  | _ => trivial

-- After any number of ordinary commands a graph goes with the handles of its session.
theorem watch_kept (limit : Nat) (directory : Option Directory) {commands : List Command}
    (h : ∀ command ∈ commands, command.isOrdinary) :
    let workspace := watch limit directory commands
    Kept (· ∈ commands.flatMap Command.named) (commands.any Command.byHand = true)
      (fun _ => False) workspace.lowering workspace.scope.engine workspace.held := by
  intro workspace
  have hstart : Workspace.order (keeping (· ∈ commands.flatMap Command.named)
      (commands.any Command.byHand = true)) (.start (.empty limit directory, [])) 0 :=
    ⟨rfl, fun _ => Kept.start limit directory⟩
  have hafter := afterCommands_order oversees_watched
    (fun command hcommand node hnode => List.mem_flatMap.mpr ⟨command, hcommand, hnode⟩)
    (fun command hcommand hhand => List.any_eq_true.mpr ⟨command, hcommand, hhand⟩)
    (fun command hcommand => Command.bears_ordinary (h command hcommand)) hstart
  have hkept := hafter.2 (add_nonneg workspace.held_nonneg le_rfl)
  rw [add_zero] at hkept
  exact hafter.1 ▸ hkept

-- Every handle is on a node that is there, and the node counts as many handles as there are on it.
-- Where that fails, a handle was taken on a node that was not there, under an address that the
-- client named or on a node after a loop that the client put together by hand.
theorem handles_counted (limit : Nat) (directory : Option Directory) (commands : List Command)
    (hordinary : ∀ command ∈ commands, command.isOrdinary)
    (hpresent : ∀ taken ∈ (watch limit directory commands).taken,
      taken.node ∈ commands.flatMap Command.named ∨
        (commands.any Command.byHand = true ∧ taken.paired = true) → taken.present = true) :
    let workspace := watch limit directory commands
    ∀ node ∈ workspace.handles,
      workspace.graph.refCount node = some (workspace.handles.count node) := by
  intro workspace node hnode
  have hkept := watch_kept limit directory hordinary
  have hge := hkept.refs_ge.resolve_left fun ⟨taken, htaken, habsent, hreason⟩ => by
    rw [hpresent taken htaken hreason] at habsent
    cases habsent
  have hcount := le_antisymm (hkept.refs_le node) (hge node)
  rw [Workspace.held_apply] at hcount
  have hrefs : workspace.graph.refsOf node = workspace.handles.count node := Int.ofNat_inj.mp hcount
  rw [← hrefs]
  exact State.refCount_of_refsOf (hrefs ▸ List.count_pos_iff.mpr hnode)

-- Puts a loop that counts up to three together by hand.
def countingByHand : List Command :=
  let next name := .call (.binary (.ok .add)) [.variable name, .literal (.int 1)]
  let below name := .call (.compare .lt) [.variable name, .literal (.int 3)]
  [.bind "x" (.call (.constant (.ok (.s32 0)) (.ok (.single .s32))) []),
    .lowerStart (below "x"), .bind "y" (next "x"), .lowerAgain (below "y"),
    .bind "z" (next "y"), .bind "last" (below "z"), .lowerAssemble "loop"]

def takingAfter : List Command := countingByHand ++ [.lowerCarried (.variable "loop")]

def droppingAll : List Command :=
  [.lowerFinish, .dropCarried, .drop ["x", "y", "z", "last", "loop"]]

-- The nodes after the loop have a handle each.
theorem counted_after_loop :
    let workspace := watch 5 none takingAfter
    workspace.handles = [12, 11, 9, 5, 1, 13, 14] ∧
      ∀ node ∈ workspace.handles,
        workspace.graph.refCount node = some (workspace.handles.count node) :=
  ⟨by decide +kernel, handles_counted 5 none takingAfter (by decide) (by decide +kernel)⟩

-- They are not there any more once their handles were dropped, but they can be asked for again.
theorem uncounted_after_dropping :
    let workspace := watch 5 none
      (takingAfter ++ [.dropCarried, .lowerCarried (.variable "loop")])
    workspace.handles = [12, 11, 9, 5, 1, 13, 14] ∧
      workspace.graph.refCount 13 = none ∧ workspace.graph.refCount 14 = none := by
  decide +kernel

-- Without handles and with no loop being lowered nothing is left of a graph, unless there is a tail
-- of a loop that the client put together by hand, on which no handle was ever taken.
theorem graph_reclaimed (limit : Nat) (directory : Option Directory) (commands : List Command)
    (hordinary : ∀ command ∈ commands, command.isOrdinary)
    (hhandles : (watch limit directory commands).handles = [])
    (hclosed : (watch limit directory commands).lowering = false) :
    let workspace := watch limit directory commands
    workspace.graph.liveNodes = 0 ∨
      (commands.any Command.byHand = true ∧ ∃ id node index,
        workspace.graph.nodes.get? id = some node ∧ node.kind = .loopTail index ∧
          ∀ taken ∈ workspace.taken, taken.node = id → taken.present = false) := by
  intro workspace
  have hkept := watch_kept limit directory hordinary
  have htended := hkept.tended
  rw [hkept.idle hclosed] at htended
  refine or_iff_not_imp_right.mpr fun hnone =>
    htended.none_left (fun id => ?_) fun {id node} hnode => ?_
  · have hle := hkept.refs_le id
    rw [Workspace.held_apply, hhandles] at hle
    exact Nat.le_zero.mp (Int.ofNat_le.mp hle)
  · rintro (⟨hhand, ⟨index, hkind⟩, huntaken⟩ | hfresh)
    · exact hnone ⟨hhand, id, node, index, hnode, hkind, huntaken⟩
    · exact hfresh

theorem reclaimed_after_loop :
    let commands := takingAfter ++ droppingAll
    let workspace := watch 5 none commands
    workspace.handles = [] ∧ workspace.lowering = false ∧
      (workspace.graph.liveNodes = 0 ∨
        (commands.any Command.byHand = true ∧ ∃ id node index,
          workspace.graph.nodes.get? id = some node ∧ node.kind = .loopTail index ∧
            ∀ taken ∈ workspace.taken, taken.node = id → taken.present = false)) := by
  have hends : (watch 5 none (takingAfter ++ droppingAll)).handles = [] ∧
      (watch 5 none (takingAfter ++ droppingAll)).lowering = false := by
    decide +kernel
  exact ⟨hends.1, hends.2, graph_reclaimed 5 none _ (by decide) hends.1 hends.2⟩

-- Without a handle on them the nodes after the loop stay, and so does all that they read.
theorem left_without_taking :
    let workspace := watch 5 none (countingByHand ++ droppingAll)
    workspace.handles = [] ∧ workspace.lowering = false ∧ workspace.graph.liveNodes = 10 := by
  decide +kernel

end Script

end MapAlgebra
