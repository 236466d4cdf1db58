import MapAlgebra.Proofs.Loops.Filled

namespace MapAlgebra.Loop

open MapAlgebra.Graph

-- What an instruction reads.
def Instruction.sources : Instruction → List Source
  | call request => request.nodes
  | assign _ source => [source]

-- Every raster from outside that is read has a handle of its own.
def Holds (outer : Tally) (sources : List Source) : Prop :=
  ∀ raster, .outside raster ∈ sources → ∀ node, raster.node = some node → 0 < outer node

-- A step that comes later changes nothing about what an earlier one reads.
theorem valueFrom_concat {outer : Tally} {begun : Scope State Vars} {steps : List (Step Ref)}
    {ref : Ref} (hknown : ref.Scoped outer steps.length) (more : Step Ref) :
    ref.valueFrom begun (steps ++ [more]) = ref.valueFrom begun steps := by
  have hlength := length_stepValues begun.engine.store (worth begun) (around begun) steps
  rw [Ref.valueFrom, valuesFrom, stepValues_concat]
  exact Ref.value_append _ _ (hknown.mono (by omega)) _

theorem draft_concat {outer : Tally} {begun : Scope State Vars} {steps : List (Step Ref)}
    {step : Step Ref} (hknown : ∀ ref ∈ step.nodes, ref.Scoped outer steps.length)
    (more : Step Ref) :
    step.draft (fun ref => (ref.valueFrom begun (steps ++ [more])).info) begun.engine.store =
      step.draft (fun ref => (ref.valueFrom begun steps).info) begun.engine.store :=
  Step.draft_congr fun ref href => congrArg Value.info (valueFrom_concat (hknown ref href) more)

-- What is known about the last step is what it was drafted with.
theorem info_concat {begun : Scope State Vars} {steps : List (Step Ref)} {step : Step Ref}
    {draft : Draft} (hdraft : step.draft (fun ref => (ref.valueFrom begun steps).info)
      begun.engine.store = .ok draft) :
    (Ref.valueFrom begun (steps ++ [step]) (.step steps.length)).info = .ok draft.info := by
  have hlength := length_stepValues begun.engine.store (worth begun) (around begun) steps
  have hvalue : Ref.valueFrom begun (steps ++ [step]) (.step steps.length) =
      stepValue begun.engine.store (Ref.valueFrom begun steps) step := by
    rw [Ref.valueFrom, valuesFrom, stepValues_concat, Ref.value, ← hlength,
      List.getElem?_concat_length]
    rfl
  rw [hvalue, stepValue, hdraft]

namespace Made

variable {outer : Tally} {begun now after : Scope State Vars} {steps : List (Step Ref)}
  {index : Nat} {step : Step Ref}

theorem later (h : Made outer begun now steps index step)
    (hbuilds : Builds now.engine after.engine)
    (hold : begun.engine.nextId + index < now.engine.nextId) :
    Made outer begun after steps index step := by
  obtain ⟨draft, hdraft, hnode⟩ := h.drafted
  refine ⟨h.required, h.known, draft, hdraft, fun node hget => ?_⟩
  obtain ⟨old, hthere, hkeeps, hinfo⟩ := hbuilds.node hget hold
  obtain ⟨hkind, hknown, hinputs⟩ := hnode old hthere
  exact ⟨hkeeps.kind.trans hkind, hinfo.trans hknown, hkeeps.inputs.trans hinputs⟩

theorem concat (h : Made outer begun now steps index step) (hindex : index < steps.length)
    (more : Step Ref) : Made outer begun now (steps ++ [more]) index step := by
  obtain ⟨draft, hdraft, hnode⟩ := h.drafted
  refine ⟨h.required, h.known, draft, ?_, hnode⟩
  rw [← hdraft]
  exact draft_concat (fun ref href => (h.known ref href).mono (Nat.le_of_lt hindex)) more

end Made

namespace Traced

variable {outer : Tally} {begun now after : Scope State Vars} {outline : Outline}
  {results more : List Raster}

-- Handles come and go between instructions.
theorem handled (h : Traced outer begun outline results now) {engine : State}
    (hhandled : Handled now.engine engine) {left : List Raster} {numbers : List Nat}
    (hkept : List.Forall₂ (Kept begun outline.steps.length) numbers left)
    (hbacks : Backs engine (now.vars.held + resultsHeld left + outer)) :
    Traced outer begun { outline with results := numbers } left { now with engine } where
  builds := h.builds.trans hhandled.toBuilds
  next := hhandled.nextId.trans h.next
  recorder := hhandled.recorder.trans h.recorder
  vars := h.vars
  known := h.known
  kept := hkept
  made {index _} hstep := by
    have hindex : index < outline.steps.length := (List.getElem?_eq_some_iff.mp hstep).1
    have hnext := h.next
    have hmade := h.made hstep
    exact hmade.later hhandled.toBuilds (by omega)
  backs := hbacks
  marked := h.marked

-- The end of a closure.
theorem letGo (h : Traced outer begun outline results now) :
    Traced outer begun outline.closed [] (letGoResults simulator results now) := by
  refine h.handled (letGo_results results now.engine) .nil (backs_results ?_)
  have hsum : now.vars.held + resultsHeld [] + outer + resultsHeld results =
      now.vars.held + resultsHeld results + outer := by
    show now.vars.held + 0 + outer + resultsHeld results = _
    abel
  exact hsum ▸ h.backs

-- What a source reads, in terms of the round.
theorem resolved (h : Traced outer begun outline results now) (hready : Ready outer begun)
    {source : Source} {node : Address} (hnode : source.node now.vars results = .ok node)
    (houter : Holds outer [source]) :
    source.address now.vars results = (source.resolve outline.vars outline.results).address begun ∧
      (source.resolve outline.vars outline.results).isAbsent = source.isAbsent ∧
      (source.resolve outline.vars outline.results).Scoped outer outline.steps.length ∧
      if source.isAbsent then (source.resolve outline.vars outline.results).address begun = Address.null
      else now.engine.nodes.contains
        ((source.resolve outline.vars outline.results).address begun) = true := by
  cases habsent : source.isAbsent with
  | true =>
      cases source with
      | absent => exact ⟨rfl, rfl, trivial, rfl⟩
      | _ => cases habsent
  | false =>
      obtain ⟨raster, hraster, hdenotes, hknown, hlive⟩ := h.reads hready hnode habsent
        fun raster hsame => houter raster (List.mem_singleton.mpr hsame.symm)
      obtain ⟨haddress, hthere⟩ := Ref.address_of_denotes hdenotes hraster
      refine ⟨?_, hthere, hknown, ?_⟩
      · rw [haddress, Source.address, hnode]
        rfl
      · rw [haddress]
        exact hlive

-- The request of a call, in terms of the round.
theorem request_eq (h : Traced outer begun outline results now) (hready : Ready outer begun)
    {request : Request Source}
    (hnodes : ∀ source ∈ request.nodes, ∃ node, source.node now.vars results = .ok node)
    (houter : Holds outer request.nodes) {resolved : Request Ref}
    (hresolved : request.map (Source.resolve outline.vars outline.results) = resolved) :
    request.map (·.address now.vars results) = resolved.map (Ref.address begun) ∧
      ∀ ref ∈ resolved.nodes, ref.Scoped outer outline.steps.length ∧
        if ref.isAbsent then ref.address begun = Address.null
        else now.engine.nodes.contains (ref.address begun) = true := by
  have hread := fun source hsource =>
    h.resolved hready (hnodes source hsource).choose_spec fun raster hraster =>
      houter raster (List.mem_singleton.mp hraster ▸ hsource)
  subst hresolved
  refine ⟨?_, fun ref href => ?_⟩
  · rw [Request.map_map]
    exact Request.map_congr fun source hsource => (hread source hsource).1
  · rw [Request.nodes_map] at href
    obtain ⟨source, hsource, rfl⟩ := List.mem_map.mp href
    obtain ⟨_, habsent, hknown, hthere⟩ := hread source hsource
    rw [habsent]
    exact ⟨hknown, hthere⟩

-- The draft of a call is the draft of its outline.
theorem draft_eq (h : Traced outer begun outline results now) (hready : Ready outer begun)
    {request : Request Ref}
    (hrefs : ∀ ref ∈ request.nodes, ref.Scoped outer outline.steps.length ∧
      if ref.isAbsent then ref.address begun = Address.null
      else now.engine.nodes.contains (ref.address begun) = true) :
    now.engine.draft (request.map (Ref.address begun)) =
      draftOf (fun ref => (ref.valueFrom begun outline.steps).info) Ref.isAbsent
        begun.engine.store request := by
  rw [State.draft, h.builds.store, draftOf_map]
  refine draftOf_congr fun ref href => ?_
  obtain ⟨hknown, hthere⟩ := hrefs ref href
  cases habsent : ref.isAbsent with
  | true =>
      cases ref with
      | absent => exact ⟨rfl, rfl⟩
      | _ => cases habsent
  | false =>
      simp only [habsent, Bool.false_eq_true, if_false] at hthere
      have hnonnull := ne_null_of_contains (h.builds.looped hready.looped) hthere
      exact ⟨h.info_of hready hknown hthere, decide_eq_false hnonnull⟩

-- A node that is made becomes the next step.
theorem created (h : Traced outer begun outline results now) (hready : Ready outer begun)
    {step : Step Ref} {draft : Draft} (hneeded : ∀ ref ∈ step.required, ref.isAbsent = false)
    (hknown : ∀ ref ∈ step.nodes, ref.Scoped outer outline.steps.length)
    (hdraft : step.draft (fun ref => (ref.valueFrom begun outline.steps).info)
      begun.engine.store = .ok draft)
    (hlive : ∀ input ∈ step.inputs.map (Ref.address begun),
      now.engine.nodes.contains input = true) :
    Traced outer begun { outline with steps := outline.steps ++ [step] } results
      { now with
        engine := (now.engine.create draft.kind (step.inputs.map (Ref.address begun))
          draft.info).2 } := by
  have hnumbered := (h.builds.looped hready.looped).consistent.counted.numbered
  have hcreated := Builds.create draft.info (Step.draft_plain hdraft) hlive
  have hnext := h.next
  have hlength : (outline.steps ++ [step]).length = outline.steps.length + 1 :=
    List.length_append
  refine
    { builds := h.builds.trans hcreated
      next := ?_
      recorder := ?_
      vars := h.vars
      known := fun name => (h.known name).mono (hlength ▸ Nat.le_succ _)
      kept := h.kept.imp fun _ _ hkept => ⟨hlength ▸ Nat.lt_succ_of_lt hkept.known, hkept.node⟩
      made := fun {index other} hother => ?_
      backs := h.backs.create hnumbered draft.kind _ draft.info
      marked := h.marked }
  · show now.engine.nextId + 1 = begun.engine.nextId + (outline.steps ++ [step]).length
    omega
  · show now.engine.recorder.record now.engine.nextId = _
    rw [h.recorder, hnext, hlength, Recorder.recordFrom_succ]
  · have hindex : index < (outline.steps ++ [step]).length :=
      (List.getElem?_eq_some_iff.mp hother).1
    by_cases hearlier : index < outline.steps.length
    · rw [List.getElem?_append_left hearlier] at hother
      exact ((h.made hother).later hcreated (by omega)).concat hearlier step
    · obtain rfl : index = outline.steps.length := by omega
      rw [List.getElem?_concat_length] at hother
      cases hother
      refine ⟨hneeded, hknown, draft, ?_, fun node hget => ?_⟩
      · rw [← hdraft]
        exact draft_concat hknown step
      · rw [← hnext, State.get?_create, if_pos rfl] at hget
        cases hget
        exact ⟨rfl, rfl, rfl⟩

-- The same when a call returns it.
theorem returned (h : Traced outer begun outline results now) (hready : Ready outer begun)
    {step : Step Ref} {draft : Draft} {raster : Raster}
    (hneeded : ∀ ref ∈ step.required, ref.isAbsent = false)
    (hknown : ∀ ref ∈ step.nodes, ref.Scoped outer outline.steps.length)
    (hdraft : step.draft (fun ref => (ref.valueFrom begun outline.steps).info)
      begun.engine.store = .ok draft)
    (hlive : ∀ input ∈ step.inputs.map (Ref.address begun),
      now.engine.nodes.contains input = true)
    (hnode : raster.node = some now.engine.nextId) :
    Traced outer begun
      { outline with
        steps := outline.steps ++ [step]
        results := outline.results ++ [outline.steps.length] }
      (results ++ [raster])
      { now with
        engine := (now.engine.create draft.kind (step.inputs.map (Ref.address begun))
          draft.info).2.acquire now.engine.nextId } := by
  have hcreated := h.created hready hneeded hknown hdraft hlive
  have hlength : (outline.steps ++ [step]).length = outline.steps.length + 1 :=
    List.length_append
  refine hcreated.handled (.acquire _ _) (List.rel_append hcreated.kept (.cons ⟨?_, ?_⟩ .nil)) ?_
  · exact hlength ▸ Nat.lt_succ_self _
  · rw [hnode, h.next]
  · have hsum : now.vars.held + resultsHeld (results ++ [raster]) + outer =
        now.vars.held + resultsHeld results + outer + Tally.one now.engine.nextId := by
      rw [resultsHeld_concat, Raster.held_of_node hnode]
      abel
    rw [hsum]
    exact hcreated.backs.acquire (State.contains_create (Or.inl rfl))

-- Whether a node is empty is known from what reads it.
theorem empty_eq (h : Traced outer begun outline results now) (hready : Ready outer begun)
    {ref : Ref} (hthere : if ref.isAbsent then ref.address begun = Address.null
      else now.engine.nodes.contains (ref.address begun) = true) :
    decide (ref.address begun = Address.null) = ref.isAbsent := by
  cases habsent : ref.isAbsent with
  | true =>
      simp only [habsent, if_true] at hthere
      exact decide_eq_true hthere
  | false =>
      simp only [habsent, Bool.false_eq_true, if_false] at hthere
      exact decide_eq_false (ne_null_of_contains (h.builds.looped hready.looped) hthere)

section Calls

variable {resolved : Request Ref} {draft : Draft} {node : Address} {made : State} {raster : Raster}
  (h : Traced outer begun outline results now) (hready : Ready outer begun)
  (hrefs : ∀ ref ∈ resolved.nodes, ref.Scoped outer outline.steps.length ∧
    if ref.isAbsent then ref.address begun = Address.null
    else now.engine.nodes.contains (ref.address begun) = true)
  (hdraft : draftOf (fun ref => (ref.valueFrom begun outline.steps).info) Ref.isAbsent
    begun.engine.store resolved = .ok draft)
  (hplaced : (node, made) = now.engine.place (resolved.map (Ref.address begun)) draft)
  (hraster : raster.node = some node)

include h hready hrefs hdraft hplaced hraster

-- The node of a call becomes the next step when nothing is missing.
theorem made_once (hneeded : ∀ ref ∈ resolved.required, ref.isAbsent = false) :
    Traced outer begun
      { outline with
        steps := outline.steps ++ [.node resolved]
        results := outline.results ++ [outline.steps.length] }
      (results ++ [raster]) { now with engine := made.acquire node } := by
  have hpresent : ∀ ref ∈ resolved.required,
      decide (ref.address begun = Address.null) = false := by
    intro ref href
    rw [h.empty_eq hready (hrefs ref (resolved.required_subset href)).2]
    exact hneeded ref href
  have hinputs : (resolved.map (Ref.address begun)).inputs (· = Address.null) Address.null =
      (Step.node resolved).inputs.map (Ref.address begun) := by
    rw [Request.inputs_map (f := Ref.address begun) .absent Address.null hpresent]
    exact congrArg _ (Request.inputs_congr (fun ref href => h.empty_eq hready (hrefs ref href).2)
      .absent)
  have hstep : ∀ ref ∈ (Step.node resolved).required, ref.isAbsent = false := hneeded
  have hlive : ∀ input ∈ (Step.node resolved).inputs.map (Ref.address begun),
      now.engine.nodes.contains input = true := by
    intro input hinput
    obtain ⟨ref, href, rfl⟩ := List.mem_map.mp hinput
    obtain ⟨hmember, hthere⟩ := Step.inputs_present hstep href
    have hfound := (hrefs ref hmember).2
    simp only [hthere, Bool.false_eq_true, if_false] at hfound
    exact hfound
  have hplace : now.engine.place (resolved.map (Ref.address begun)) draft =
      now.engine.create draft.kind ((Step.node resolved).inputs.map (Ref.address begun))
        draft.info := by
    rw [State.place, draftOf_standIn hdraft hneeded, State.createZero, ← hinputs]
  rw [hplace] at hplaced
  cases hplaced
  exact h.returned hready hstep (fun ref href => (hrefs ref href).1) hdraft hlive hraster

-- Before the node of a filled call, the zero becomes a step as well.
theorem made_twice {like : Ref} {filled : Request Ref}
    (hfilled : Filled outline.steps.length resolved like filled) :
    Traced outer begun
      { outline with
        steps := outline.steps ++ [.zero like, .node filled]
        results := outline.results ++ [outline.steps.length + 1] }
      (results ++ [raster]) { now with engine := made.acquire node } := by
  obtain ⟨note, hlike, hstandIn, hdrafted⟩ := hfilled.drafted hdraft
  obtain ⟨hmember, hthere⟩ := hfilled.like_mem
  have hpresent : ∀ ref ∈ resolved.nodes, ref.isAbsent = false →
      ref.address begun ≠ Address.null := fun ref href hthere =>
    of_decide_eq_false ((h.empty_eq hready (hrefs ref href).2).trans hthere)
  have hplace := hfilled.place rfl h.next.symm hpresent hstandIn
  rw [hplace] at hplaced
  cases hplaced
  -- the zero
  have hneeded : ∀ ref ∈ (Step.zero like).required, ref.isAbsent = false :=
    fun ref href => List.mem_singleton.mp href ▸ hthere
  have hknown : ∀ ref ∈ (Step.zero like).nodes, ref.Scoped outer outline.steps.length :=
    fun ref href => List.mem_singleton.mp href ▸ (hrefs like hmember).1
  have hzero : (Step.zero like).draft (fun ref => (ref.valueFrom begun outline.steps).info)
      begun.engine.store = .ok ⟨.constant ((Scalar.zero note.dtype).toOption.getD
        (.f32 (Number.narrow 0))), note.derived note.dtype [], none⟩ :=
    bind_eq_ok.mpr ⟨note, hlike, rfl⟩
  have hfirst := h.created hready hneeded hknown hzero (by simp [Step.inputs])
  have hlength : (outline.steps ++ [Step.zero like]).length = outline.steps.length + 1 :=
    List.length_append
  -- the call
  have hlast : ∀ ref ∈ (Step.node filled).nodes,
      ref.Scoped outer (outline.steps ++ [Step.zero like]).length := by
    intro ref href
    obtain rfl | href := hfilled.nodes ref href
    · exact hlength ▸ Nat.lt_succ_self _
    · exact (hrefs ref href).1.mono (hlength ▸ Nat.le_succ _)
  have hagain : (Step.node filled).draft
      (fun ref => (ref.valueFrom begun (outline.steps ++ [Step.zero like])).info)
        begun.engine.store = .ok { draft with standIn := none } :=
    hdrafted _ (fun ref href => congrArg Value.info (valueFrom_concat (hrefs ref href).1 _))
      (info_concat hzero)
  have hfull : ∀ ref ∈ (Step.node filled).required, ref.isAbsent = false := hfilled.required
  have hboth := hfirst.returned hready hfull hlast hagain (fun input hinput => ?_) hraster
  · rw [List.append_assoc, hlength] at hboth
    exact hboth
  · obtain ⟨ref, href, rfl⟩ := List.mem_map.mp hinput
    obtain ⟨hread, hthere⟩ := Step.inputs_present hfull href
    obtain rfl | hread := hfilled.nodes ref hread
    · exact State.contains_create (Or.inl h.next.symm)
    · have hfound := (hrefs ref hread).2
      simp only [hthere, Bool.false_eq_true, if_false] at hfound
      exact State.contains_create (Or.inr hfound)

end Calls

theorem call (h : Traced outer begun outline results now) (hready : Ready outer begun)
    {request : Request Source} (houter : Holds outer request.nodes)
    (hrun : (Instruction.call request).run simulator results now = (.ok more, after)) :
    Traced outer begun (outline.extend (.call request)) more after := by
  obtain ⟨hnodes, raster, state, rfl, rfl, hmake⟩ := Instruction.run_call hrun
  rw [Outline.extend]
  generalize hresolved : request.map (Source.resolve outline.vars outline.results) = resolved
  obtain ⟨hrequest, hrefs⟩ := h.request_eq hready hnodes houter hresolved
  rw [hrequest] at hmake
  obtain ⟨draft, node, made, hdraft, hplaced, hraster, rfl⟩ := make_placed hmake
  rw [h.draft_eq hready hrefs] at hdraft
  obtain ⟨hsteps, hneeded⟩ | ⟨like, filled, hfilled, hsteps⟩ :=
    stepsOf_cases (fun _ hnone => by cases hnone) hdraft outline.steps.length
  · rw [hsteps]
    exact h.made_once hready hrefs hdraft hplaced hraster hneeded
  · rw [hsteps]
    exact h.made_twice hready hrefs hdraft hplaced hraster hfilled

theorem assign (h : Traced outer begun outline results now) (hready : Ready outer begun)
    {name : String} {source : Source} (houter : Holds outer [source])
    (hrun : (Instruction.assign name source).run simulator results now = (.ok more, after)) :
    Traced outer begun (outline.extend (.assign name source)) more after := by
  obtain ⟨rfl, node, raster, old, hnode, hraster, hold, rfl⟩ := Instruction.run_assign hrun
  have hthere : source.isAbsent = false := by
    cases source with
    | absent =>
        cases hnode
        exact absurd hraster raster.proper
    | _ => rfl
  obtain ⟨found, hfound, hdenotes, hknown, hlive⟩ := h.reads hready hnode hthere
    fun raster hsame => houter raster (List.mem_singleton.mpr hsame.symm)
  obtain rfl : found = raster := Raster.eq_of_node (hfound.trans hraster.symm)
  have hhandled := (Handled.acquire now.engine node).trans
    (.letGoOperand old (now.engine.acquire node))
  have hnext := h.next
  refine
    { builds := h.builds.trans hhandled.toBuilds
      next := hhandled.nextId.trans h.next
      recorder := hhandled.recorder.trans h.recorder
      vars := fun other => ?_
      known := fun other => ?_
      kept := h.kept
      made := fun {index request} hstep => ?_
      backs := ?_
      marked := fun other => ?_ }
  · show Ref.Denotes begun
      (((now.vars.replace name (.node found)).mark name).slots.find? other)
      (if other = name then source.resolve outline.vars outline.results else outline.vars other)
    rw [Vars.slots_mark]
    show Ref.Denotes begun ((now.vars.slots.replace name (.node found)).find? other) _
    rw [Bindings.find?_replace]
    split
    · rename_i hname
      rw [hname, hold]
      exact hdenotes
    · exact h.vars other
  · show Ref.Scoped outer outline.steps.length
      (if other = name then source.resolve outline.vars outline.results else outline.vars other)
    split
    · exact hknown
    · exact h.known other
  · have hindex : index < outline.steps.length := (List.getElem?_eq_some_iff.mp hstep).1
    exact (h.made hstep).later hhandled.toBuilds (by omega)
  · refine Backs.letGoOperand ?_
    have hheld : ((now.vars.replace name (.node found)).mark name).held =
        now.vars.held - old.held + Tally.one node := by
      rw [Vars.held_mark]
      refine (Bindings.held_replace hold (.node found)).trans ?_
      show _ - _ + found.held = _
      rw [Raster.held_of_node hraster]
      rfl
    have hsum : ((now.vars.replace name (.node found)).mark name).held + resultsHeld more +
        outer + old.held = now.vars.held + resultsHeld more + outer + Tally.one node := by
      rw [hheld]
      abel
    rw [hsum]
    exact h.backs.acquire hlive
  · show (if other = name then _ else outline.vars other) = _ ∨ _
    by_cases hname : other = name
    · exact Or.inr ((Vars.mem_mark _ _ _).mpr (Or.inr hname))
    · rw [if_neg hname]
      exact (h.marked other).imp_right fun hmember => (Vars.mem_mark _ _ _).mpr (Or.inl hmember)

theorem instruction (h : Traced outer begun outline results now)
    (hready : Ready outer begun) {instruction : Instruction}
    (houter : Holds outer instruction.sources)
    (hrun : instruction.run simulator results now = (.ok more, after)) :
    Traced outer begun (outline.extend instruction) more after := by
  cases instruction with
  | call request => exact h.call hready houter hrun
  | assign name source => exact h.assign hready houter hrun

-- A run of instructions follows its outline.
theorem runAll {instructions : List Instruction}
    (h : Traced outer begun outline results now) (hready : Ready outer begun)
    (houter : Holds outer (instructions.flatMap Instruction.sources))
    (hrun : Loop.runAll simulator instructions results now = (.ok more, after)) :
    Traced outer begun (instructions.foldl Outline.extend outline) more after := by
  induction instructions generalizing outline results now with
  | nil =>
      cases hrun
      exact h
  | cons instruction rest ih =>
      obtain ⟨middle, between, hfirst, hrest⟩ := run_bind_eq_ok.mp hrun
      rw [List.flatMap_cons] at houter
      have hhere : Holds outer instruction.sources :=
        fun raster hraster => houter raster (List.mem_append_left _ hraster)
      have hthere : Holds outer (rest.flatMap Instruction.sources) :=
        fun raster hraster => houter raster (List.mem_append_right _ hraster)
      exact ih (h.instruction hready hhere (onFailure_eq_ok hfirst)) hthere hrest

-- A step that is still there is worth what the outline says, and so is everything it reads.
theorem value_of (h : Traced outer begun outline results now) (hready : Ready outer begun)
    {ref : Ref} (hknown : ref.Scoped outer outline.steps.length)
    (hlive : now.engine.nodes.contains (ref.address begun) = true) :
    now.engine.valueOf (ref.address begun) = ref.valueFrom begun outline.steps := by
  have hconsistent := (h.builds.looped hready.looped).consistent
  have hstep : ∀ index < outline.steps.length,
      now.engine.nodes.contains (begun.engine.nextId + index) = true →
      now.engine.valueOf (begun.engine.nextId + index) =
        Ref.valueFrom begun outline.steps (.step index) := by
    intro index
    induction index using Nat.strongRecOn with
    | ind index ih =>
        intro hindex hlive
        have hstep := List.getElem?_eq_getElem hindex
        obtain ⟨draft, hdraft, hnode, hvalue⟩ := h.step_value hstep
        obtain ⟨node, hget⟩ := (Table.contains_iff _ _).mp hlive
        obtain ⟨hkind, hinfo, hinputs⟩ := hnode node hget
        have hread : ∀ ref ∈ outline.steps[index].inputs,
            now.engine.gridOf (ref.address begun) =
              (ref.valueFrom begun outline.steps).grid := by
          intro ref href
          have hmade := h.made hstep
          have hthere : now.engine.nodes.contains (ref.address begun) = true :=
            (hconsistent.founded.input_live hget _ (hinputs ▸ List.mem_map_of_mem href)).1
          have hscoped := hmade.known ref (Step.inputs_present hmade.required href).1
          by_cases hother : ∃ other, ref = .step other
          · obtain ⟨other, rfl⟩ := hother
            have hlt : other < index := hscoped
            exact congrArg Value.grid (ih other hlt (by omega) hthere)
          · exact congrArg Value.grid (h.value_of_old hready
              (hscoped.mono (Nat.le_of_lt hindex)) hthere fun other hsame => hother ⟨other, hsame⟩)
        have hgrids : node.inputs.mapM now.engine.gridOf = outline.steps[index].inputs.mapM
            fun ref => (ref.valueFrom begun outline.steps).grid := by
          rw [hinputs]
          refine mapM_eq_of_related (List.forall₂_map_left_iff.mpr ?_)
          exact List.forall₂_same.mpr hread
        have hplain : node.kind.isPlain = true := hkind ▸ Step.draft_plain hdraft
        have hgrid : now.engine.gridOf (begun.engine.nextId + index) = _ :=
          (State.gridOf_node hconsistent.founded hconsistent.counted.numbered hget).trans
            (State.nodeGrid_plain hplain)
        rw [hvalue, State.valueOf, hgrid, hgrids, hkind, hinfo, State.info,
          State.find_eq hconsistent.counted.numbered hget]
        exact congrArg (Value.mk · _) (congrArg Except.ok hinfo)
  by_cases hother : ∃ index, ref = .step index
  · obtain ⟨index, rfl⟩ := hother
    exact hstep index hknown hlive
  · exact h.value_of_old hready hknown hlive fun index hsame => hother ⟨index, hsame⟩

end Traced

end MapAlgebra.Loop
