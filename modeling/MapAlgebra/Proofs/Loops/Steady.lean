import MapAlgebra.Proofs.Graph.Agreeing
import MapAlgebra.Proofs.Loops.ByHand

namespace MapAlgebra

namespace Graph

def Value.note? (value : Value) : Option Note := value.info.toOption.map Meta.note

section Drafting

variable {ν : Type} {info other : ν → Except MapError Meta} {isEmpty : ν → Bool} {store : Store}
  {request : Request ν} {draft redraft : Draft}

-- What a node of a closed operation is noted as only depends on what its inputs are noted as.
theorem draftOf_settled (standIn : ν) (h : draftOf info isEmpty store request = .ok draft)
    (hthere : draft.standIn = none) (unknown : Note) :
    draft.kind.isOpen = true ∨ draft.kind.noteFrom ((request.inputs isEmpty standIn).map fun node =>
      ((info node).toOption.map Meta.note).getD unknown) = some draft.info.note := by
  have hknown : ∀ node found, info node = .ok found →
      ((info node).toOption.map Meta.note).getD unknown = found.note := by
    intro node found hfound
    rw [hfound]
    rfl
  obtain ⟨notes, hnotes, hsettled⟩ := draftOf_noted standIn h hknown
    (fun found hfound => by rw [hthere] at hfound; cases hfound)
    (fun node _ => Or.inr ⟨_, rfl⟩)
  refine hsettled.imp_right fun hnote => ?_
  have hmap := map_eq_of_related (g := id) hnotes
  rw [List.map_id] at hmap
  rw [hmap]
  exact hnote

-- Operations whose type is given along with them take the rest from their input.
theorem draftOf_open (standIn : ν) (h : draftOf info isEmpty store request = .ok draft)
    (hagain : draftOf other isEmpty store request = .ok redraft)
    (hsame : ∀ node ∈ request.inputs isEmpty standIn,
      (info node).toOption.map Meta.note = (other node).toOption.map Meta.note)
    (hopen : draft.kind.isOpen = true) : draft.info.note = redraft.info.note := by
  have hderived : ∀ {node found refound}, node ∈ request.inputs isEmpty standIn →
      info node = .ok found → other node = .ok refound → ∀ dtype,
      (found.derived dtype found.shape).note = (refound.derived dtype refound.shape).note := by
    intro node found refound hnode hfound hrefound dtype
    have hnote := hsame node hnode
    rw [hfound, hrefound] at hnote
    obtain ⟨_, hshape, hblock⟩ := Note.mk.inj (Option.some.inj hnote)
    simp only [Meta.note, Meta.derived, hshape, hblock]
  cases draftOf_eq_ok h with
  | constant =>
      cases draftOf_eq_ok hagain
      rfl
  | index =>
      cases draftOf_eq_ok hagain
      rfl
  | @rand seed dtype _ _ hnote =>
      cases draftOf_eq_ok hagain with
      | rand hrenote => exact hderived (List.mem_singleton_self seed) hnote hrenote dtype
  | @cast node dtype _ _ hnote =>
      cases draftOf_eq_ok hagain with
      | cast _ hrenote => exact hderived (List.mem_singleton_self node) hnote hrenote dtype
  | _ => cases hopen

-- Two drafts of one request are noted alike when all that they read is.
theorem draftOf_note_eq (standIn : ν) (h : draftOf info isEmpty store request = .ok draft)
    (hagain : draftOf other isEmpty store request = .ok redraft)
    (hthere : ∀ node ∈ request.required, isEmpty node = false)
    (hsame : ∀ node ∈ request.inputs isEmpty standIn,
      (info node).toOption.map Meta.note = (other node).toOption.map Meta.note) :
    draft.kind = redraft.kind ∧ draft.info.note = redraft.info.note := by
  have hkind := draftOf_kind h hagain
  refine ⟨hkind, ?_⟩
  have hfirst := draftOf_settled standIn h (draftOf_standIn h hthere) ⟨.untyped, [], .unset⟩
  have hsecond := draftOf_settled standIn hagain (draftOf_standIn hagain hthere)
    ⟨.untyped, [], .unset⟩
  have hinputs : (request.inputs isEmpty standIn).map (fun node =>
        ((info node).toOption.map Meta.note).getD ⟨.untyped, [], .unset⟩) =
      (request.inputs isEmpty standIn).map fun node =>
        ((other node).toOption.map Meta.note).getD ⟨.untyped, [], .unset⟩ :=
    List.map_congr_left fun node hnode => by rw [hsame node hnode]
  rw [← hkind, ← hinputs] at hsecond
  by_cases hopen : draft.kind.isOpen = true
  · exact draftOf_open standIn h hagain hsame hopen
  · exact Option.some.inj ((hfirst.resolve_left hopen).symm.trans (hsecond.resolve_left hopen))

end Drafting

end Graph

namespace Loop

open MapAlgebra.Graph

-- Two drafts of one step are noted alike when all that it looks at is.
theorem Step.draft_note_eq {info other : Ref → Except MapError Meta} {store : Store}
    {step : Step Ref} {draft redraft : Draft} (h : step.draft info store = .ok draft)
    (hagain : step.draft other store = .ok redraft)
    (hthere : ∀ ref ∈ step.required, ref.isAbsent = false)
    (hsame : ∀ ref ∈ step.nodes,
      (info ref).toOption.map Meta.note = (other ref).toOption.map Meta.note) :
    draft.kind = redraft.kind ∧ draft.info.note = redraft.info.note := by
  cases step with
  | node request =>
      exact draftOf_note_eq .absent h hagain hthere fun ref href =>
        hsame ref (Request.inputs_present .absent hthere href).1
  | zero like =>
      obtain ⟨note, hnote, h⟩ := bind_eq_ok.mp h
      obtain ⟨renote, hrenote, hagain⟩ := bind_eq_ok.mp hagain
      cases h
      cases hagain
      have hlike := hsame like (List.mem_singleton_self like)
      rw [hnote, hrenote] at hlike
      obtain ⟨htype, _, hblock⟩ := Note.mk.inj (Option.some.inj hlike)
      simp only [Meta.note, Meta.derived, htype, hblock, and_self]

-- Steps that miss nothing they need and read nothing but what is there before them.
structure Grounded (outer : Tally) (steps : List (Step Ref)) : Prop where
  required : ∀ {index : Nat} {step : Step Ref}, steps[index]? = some step →
    ∀ ref ∈ step.required, ref.isAbsent = false
  known : ∀ {index : Nat} {step : Step Ref}, steps[index]? = some step →
    ∀ ref ∈ step.nodes, ref.Scoped outer index

theorem Traced.grounded {outer : Tally} {begun now : Scope State Vars} {outline : Outline}
    {results : List Raster} (h : Traced outer begun outline results now) :
    Grounded outer outline.steps :=
  ⟨fun hstep => (h.made hstep).required, fun hstep => (h.made hstep).known⟩

-- Whatever a zero is of the type of is read by another step.
def Shared (steps : List (Step Ref)) : Prop :=
  ∀ like, .zero like ∈ steps → ∃ request, .node request ∈ steps ∧ like ∈ request.nodes

theorem Shared.append {steps more : List (Step Ref)} (h : Shared steps) (hmore : Shared more) :
    Shared (steps ++ more) := by
  intro like hlike
  obtain hlike | hlike := List.mem_append.mp hlike
  · obtain ⟨request, hrequest, hread⟩ := h like hlike
    exact ⟨request, List.mem_append_left _ hrequest, hread⟩
  · obtain ⟨request, hrequest, hread⟩ := hmore like hlike
    exact ⟨request, List.mem_append_right _ hrequest, hread⟩

theorem stepsOf_shared (next : Nat) (request : Request Ref) : Shared (stepsOf next request) := by
  have hsingle : ∀ request : Request Ref, Shared [.node request] := by
    intro request like hlike
    cases List.mem_singleton.mp hlike
  have hpair : ∀ {other condition yes no : Ref}, other = yes ∨ other = no →
      Shared [.zero other, .node (.conditional condition yes no)] := by
    intro other condition yes no hother like hlike
    obtain rfl : like = other := by simpa using hlike
    refine ⟨_, List.mem_cons_of_mem _ (List.mem_singleton_self _), ?_⟩
    obtain rfl | rfl := hother <;> simp [Request.nodes]
  unfold stepsOf
  split
  · split
    · exact hpair (Or.inr rfl)
    · split
      · exact hpair (Or.inl rfl)
      · exact hsingle _
  · exact hsingle _

theorem foldl_shared (instructions : List Instruction) {outline : Outline}
    (h : Shared outline.steps) : Shared (instructions.foldl Outline.extend outline).steps := by
  induction instructions generalizing outline with
  | nil => exact h
  | cons instruction rest ih =>
      refine ih ?_
      cases instruction with
      | call request => exact h.append (stepsOf_shared _ _)
      | assign name source => exact h

namespace Code

theorem shared (code : Code) : Shared code.round.steps :=
  foldl_shared _ (foldl_shared code.body fun _ hnone => by cases hnone)

-- A variable that is looked at is the condition, or a step reads it.
theorem Reads.cases {code : Code} {name : String} (h : code.Reads name) :
    code.guard = .named name ∨ ∃ step ∈ code.round.steps, Ref.start name ∈ step.inputs := by
  have hread : ∀ {request : Request Ref}, Ref.start name ∈ request.nodes →
      Ref.start name ∈ request.inputs Ref.isAbsent .absent :=
    fun hnode => Request.mem_inputs_of_present .absent hnode rfl
  obtain hguard | ⟨step, hstep, href⟩ := h
  · exact Or.inl hguard
  · cases step with
    | node request => exact Or.inr ⟨_, hstep, hread href⟩
    | zero like =>
        obtain ⟨request, hrequest, hlike⟩ := code.shared like hstep
        exact Or.inr ⟨_, hrequest, hread (List.mem_singleton.mp href ▸ hlike)⟩

variable (code : Code) (start : Scope State Vars)

-- Whether everything that is made in the round after so many others can be computed.
def Evaluates (rounds : Nat) : Prop :=
  ∀ value ∈ code.valuesAfter start rounds, ∃ cells, value.grid = .ok cells

-- After the first round, the variables that are looked at are noted as they were before it.
def Steady : Prop :=
  ∀ name, code.Reads name → (code.worthAfter start 1 name).note? = (worth start name).note?

-- Rounds up to a last one that can be computed and go like the first one. A variable that is looked
-- at and takes over another one is as it was at first in all of them; what the others are noted as
-- only matters when there is a second round.
structure Even (last : Nat) : Prop where
  settled : ∀ name other, code.Reads name → code.ends name = .start other →
    ∀ round ≤ last, code.worthAfter start round name = worth start name
  steady : 0 < last → code.Steady start
  evaluates : ∀ round ≤ last, code.Evaluates start round

section Rounds

variable {code : Code} {start : Scope State Vars} {outer : Tally} {rounds index : Nat}
  {step : Step Ref}

theorem worthAfter_succ (name : String) : code.worthAfter start (rounds + 1) name =
    code.refAfter start rounds (code.ends name) := rfl

theorem refAfter_step (hgrounded : Grounded outer code.round.steps)
    (hstep : code.round.steps[index]? = some step) :
    code.refAfter start rounds (.step index) =
      stepValue start.engine.store (code.refAfter start rounds) step := by
  have hvalue := getElem?_stepValues start.engine.store (code.worthAfter start rounds)
    (around start) hstep (hgrounded.known hstep)
  rw [refAfter, Ref.value, valuesAfter, hvalue]
  rfl

theorem refAfter_missing (hout : code.round.steps.length ≤ index) :
    code.refAfter start rounds (.step index) = missing := by
  have hlength := length_stepValues start.engine.store (code.worthAfter start rounds) (around start)
    code.round.steps
  rw [refAfter, Ref.value, valuesAfter, List.getElem?_eq_none (hlength ▸ hout)]
  rfl

theorem mem_valuesAfter (hstep : code.round.steps[index]? = some step) :
    code.refAfter start rounds (.step index) ∈ code.valuesAfter start rounds := by
  have hlength := length_stepValues start.engine.store (code.worthAfter start rounds) (around start)
    code.round.steps
  have hindex : index < (code.valuesAfter start rounds).length :=
    hlength ▸ (List.getElem?_eq_some_iff.mp hstep).1
  rw [refAfter, Ref.value, List.getElem?_eq_getElem hindex]
  exact List.getElem_mem hindex

-- The grids of the steps in a round that can be computed.
theorem grid_of_steps {steps : List Grid}
    (hsteps : (code.valuesAfter start rounds).mapM Value.grid = .ok steps)
    (hindex : index < code.round.steps.length) : ∃ grid, steps[index]? = some grid ∧
      (code.refAfter start rounds (.step index)).grid = .ok grid := by
  have hvalues : (code.valuesAfter start rounds).length = code.round.steps.length :=
    length_stepValues _ _ _ _
  have hvalue := List.getElem?_eq_getElem (hvalues.symm ▸ hindex)
  obtain ⟨grid, hget, hgrid⟩ := exists_related (mapM_eq_ok.mp hsteps) hvalue
  refine ⟨grid, hget, ?_⟩
  rw [refAfter, Ref.value, hvalue]
  exact hgrid

-- A step that can be computed has been drafted.
theorem Evaluates.drafted (h : code.Evaluates start rounds)
    (hgrounded : Grounded outer code.round.steps)
    (hstep : code.round.steps[index]? = some step) :
    ∃ draft, step.draft (fun ref => (code.refAfter start rounds ref).info) start.engine.store =
        .ok draft ∧
      code.refAfter start rounds (.step index) = ⟨.ok draft.info, do
        let inputs ← step.inputs.mapM fun ref => (code.refAfter start rounds ref).grid
        draft.kind.apply draft.info inputs⟩ := by
  obtain ⟨cells, hcells⟩ := h _ (mem_valuesAfter hstep)
  have hvalue : code.refAfter start rounds (.step index) =
      stepValue start.engine.store (code.refAfter start rounds) step :=
    refAfter_step hgrounded hstep
  cases hdraft : step.draft (fun ref => (code.refAfter start rounds ref).info)
      start.engine.store with
  | error problem =>
      rw [hvalue, stepValue, hdraft] at hcells
      cases hcells
  | ok draft => exact ⟨draft, rfl, by rw [hvalue, stepValue, hdraft]⟩

-- A variable that every round leaves alone is worth what it was.
theorem worthAfter_kept {name : String} (h : code.ends name = .start name) (rounds : Nat) :
    code.worthAfter start rounds name = worth start name := by
  induction rounds with
  | zero => rfl
  | succ rounds ih =>
      rw [worthAfter_succ, h]
      exact ih

-- What is read in a round is noted as it was in the first one.
def Alike (code : Code) (start : Scope State Vars) (rounds : Nat) : Prop :=
  ∀ ref, (∀ name, ref = .start name → code.Reads name) →
    (code.refAfter start rounds ref).note? = (code.refAfter start 0 ref).note?

-- When the variables are noted alike, so are the steps, one after the other.
theorem alike_of_starts (hgrounded : Grounded outer code.round.steps)
    (hfirst : code.Evaluates start 0) (hround : code.Evaluates start rounds)
    (hstarts : ∀ name, code.Reads name →
      (code.worthAfter start rounds name).note? = (worth start name).note?) :
    code.Alike start rounds := by
  have hsteps : ∀ index, (code.refAfter start rounds (.step index)).note? =
      (code.refAfter start 0 (.step index)).note? := by
    intro index
    induction index using Nat.strongRecOn with
    | ind index ih =>
        cases hstep : code.round.steps[index]? with
        | none =>
            have hout := List.getElem?_eq_none_iff.mp hstep
            rw [refAfter_missing hout, refAfter_missing hout]
        | some step =>
            obtain ⟨draft, hdraft, hvalue⟩ := hround.drafted hgrounded hstep
            obtain ⟨redraft, hredraft, hrevalue⟩ := hfirst.drafted hgrounded hstep
            obtain ⟨-, hnote⟩ := Step.draft_note_eq hdraft hredraft (hgrounded.required hstep)
              fun ref hmember => by
                cases ref with
                | start name =>
                    exact hstarts name (Or.inr ⟨step, List.mem_of_getElem? hstep, hmember⟩)
                | step earlier => exact ih earlier (hgrounded.known hstep _ hmember)
                | outside raster => rfl
                | absent => rfl
            rw [hvalue, hrevalue]
            exact congrArg some hnote
  intro ref href
  cases ref with
  | start name => exact hstarts name (href name rfl)
  | step index => exact hsteps index
  | outside raster => rfl
  | absent => rfl

namespace Even

variable {last : Nat}

-- Everything that is read is noted as it was in the first round.
theorem alike (h : code.Even start last) (hgrounded : Grounded outer code.round.steps)
    (hle : rounds ≤ last) : code.Alike start rounds := by
  induction rounds with
  | zero => exact fun _ _ => rfl
  | succ rounds ih =>
      have hbefore := ih (Nat.le_of_succ_le hle)
      refine alike_of_starts hgrounded (h.evaluates 0 (Nat.zero_le last)) (h.evaluates _ hle)
        fun name hname => ?_
      cases hends : code.ends name with
      | start other => rw [h.settled name other hname hends _ hle]
      | _ =>
          rw [← h.steady (Nat.zero_lt_of_lt hle) name hname, worthAfter_succ, worthAfter_succ, hends]
          exact hbefore _ nofun

-- Each round computes its steps as the first one did, from its own inputs.
theorem grid_of_step (h : code.Even start last) (hgrounded : Grounded outer code.round.steps)
    (hle : rounds ≤ last) (hstep : code.round.steps[index]? = some step) {draft : Draft}
    (hdraft : step.draft (fun ref => (code.refAfter start 0 ref).info) start.engine.store =
      .ok draft) :
    (code.refAfter start rounds (.step index)).grid = (do
      let inputs ← step.inputs.mapM fun ref => (code.refAfter start rounds ref).grid
      draft.kind.apply draft.info inputs) := by
  obtain ⟨redraft, hredraft, hvalue⟩ := (h.evaluates rounds hle).drafted hgrounded hstep
  obtain ⟨hkind, hnote⟩ := Step.draft_note_eq hredraft hdraft (hgrounded.required hstep)
    fun ref hmember => h.alike hgrounded hle ref fun name hname =>
      Or.inr ⟨step, List.mem_of_getElem? hstep, hname ▸ hmember⟩
  rw [hvalue]
  simp only [hkind, draft.kind.apply_eq_of_note hnote.symm]

end Even

end Rounds

end Code

end Loop

end MapAlgebra
