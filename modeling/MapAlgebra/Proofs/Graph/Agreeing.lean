import MapAlgebra.Proofs.Graph.Aligned
import MapAlgebra.Proofs.Graph.Derived

namespace MapAlgebra.Graph

namespace State

variable {state : State} {plan : LoopPlan}

-- What an operation takes from the notes about a node, if the node is there.
def note? (state : State) (id : Nat) : Option Note :=
  (state.nodes.get? id).map (·.info.note)

theorem note?_eq_some {id : Nat} {note : Note} :
    state.note? id = some note ↔ NoteAt state.nodes id note := Option.map_eq_some_iff

-- A recording whose carried values are noted like the steps that feed them, and in which an
-- operation that does not hold its type was asked for with the same type twice.
structure Level (state : State) (plan : LoopPlan) : Prop where
  carried : ∀ value ∈ plan.carried, state.note? value.init = plan.body[value.feed]?.bind state.note?
  opened : ∀ (step first second : Nat) (node : Node), state.recorder.first[step]? = some first →
    state.recorder.second[step]? = some second → state.nodes.get? first = some node →
      node.kind.isOpen = true → state.note? first = state.note? second

theorem map_note?_of_related {ids : List Nat} {notes : List Note}
    (h : List.Forall₂ (NoteAt state.nodes) ids notes) : ids.map state.note? = notes.map some :=
  map_eq_of_related (h.imp fun _ _ hnote => note?_eq_some.mpr hnote)

-- What two replays read in one place is noted alike if all earlier steps are.
theorem note?_eq_of_explains (hlevel : state.Level plan) (hbody : plan.body = state.recorder.first)
    {slot : Slot} {input : Nat × Nat}
    (h : Recorder.Explains state.recorder plan.carried slot input)
    (hearlier : ∀ index first second, slot = .step index →
      state.recorder.first[index]? = some first → state.recorder.second[index]? = some second →
        state.note? first = state.note? second) :
    state.note? input.1 = state.note? input.2 := by
  cases h with
  | @step index first second hfirst hsecond =>
      exact hearlier index first second rfl hfirst (Recorder.getElem?_of_idxOf? hsecond)
  | @carried index feed first second hcarried hinit hfeed hsecond =>
      have hstep : plan.body[feed]? = some second := hbody ▸ Recorder.getElem?_of_idxOf? hfeed
      have hsame := hlevel.carried ⟨first, feed⟩ (List.mem_of_getElem? hcarried)
      rwa [hstep] at hsame
  | outer hfirst hsecond => rfl

-- The steps of a level recording are noted alike, one after the other.
theorem note?_eq_of_level (hlooped : Looped state) (hderived : Derived state)
    (hplan : state.recorder.plan state.nodes = .ok plan) (hlevel : state.Level plan) (step : Nat)
    {first second : Nat} (hfirst : state.recorder.first[step]? = some first)
    (hsecond : state.recorder.second[step]? = some second) :
    state.note? first = state.note? second := by
  induction step using Nat.strongRecOn generalizing first second with
  | ind step ih =>
      have hbody := (Recorder.plan_eq_ok hplan).body
      have hsorted := (List.pairwise_append.mp hlooped.recorded.sorted).1
      obtain ⟨slots, a, b, hslots, ha, hb, hmatches, holder⟩ :=
        hlooped.matches_step hplan hfirst hsecond
      by_cases hopen : a.kind.isOpen = true
      · exact hlevel.opened step first second a hfirst hsecond ha hopen
      · obtain ⟨notesA, hnotesA, hsettledA⟩ := hderived.settled ha <| hlooped.recorded.plain
          (List.mem_append_left _ (List.mem_of_getElem? hfirst)) ha
        obtain ⟨notesB, hnotesB, hsettledB⟩ := hderived.settled hb <| hlooped.recorded.plain
          (List.mem_append_right _ (List.mem_of_getElem? hsecond)) hb
        have hinputs : a.inputs.map state.note? = b.inputs.map state.note? := by
          refine map_eq_of_related (List.forall₂_iff_zip.mpr ⟨hmatches.lengths, fun hpair => ?_⟩)
          obtain ⟨slot, _, hexplains⟩ := related_of_mem hmatches.explained.flip hpair
          refine note?_eq_of_explains hlevel hbody hexplains fun index x y hslot hx hy => ?_
          exact ih index (hexplains.index_lt hsorted hfirst (holder _ hpair) hslot) hx hy
        have hnotes : notesA = notesB := by
          rw [map_note?_of_related hnotesA, map_note?_of_related hnotesB] at hinputs
          exact List.map_injective_iff.mpr (Option.some_injective _) hinputs
        obtain ⟨hfrom, hsameOpen⟩ := NodeKind.noteFrom_eq_of_same hmatches.same notesA
        have hnoteA := hsettledA.resolve_left hopen
        have hnoteB := hsettledB.resolve_left (hsameOpen ▸ hopen)
        rw [note?_eq_some.mpr ⟨a, ha, rfl⟩, note?_eq_some.mpr ⟨b, hb, rfl⟩, ← hnoteA, ← hnoteB, hfrom,
          hnotes]

end State

-- Notes that agree make no difference to what is computed.
theorem NodeKind.apply_eq_of_note (kind : NodeKind) {info other : Meta} (h : info.note = other.note)
    (inputs : List Grid) : kind.apply info inputs = kind.apply other inputs := by
  obtain ⟨hdtype, hshape, hblock⟩ := Note.mk.inj h
  unfold NodeKind.apply
  rw [hdtype, hshape, hblock]

open State in
-- The two replays of a loop have the same operations in the same order. They agree in type, extents
-- and blocks, too, so that a step of the first replay computes what the second one recorded, when
-- every carried value starts like the step that feeds it.
theorem accepted_replays_agree {state after : State} (h : Reachable state) {loop : Address}
    (hassemble : simulator.loopAssemble state = (.ok loop, after)) :
    ∃ plan, state.recorder.plan state.nodes = .ok plan ∧
      ∀ step first second : Nat, state.recorder.first[step]? = some first →
        state.recorder.second[step]? = some second →
          ∃ a b, state.nodes.get? first = some a ∧ state.nodes.get? second = some b ∧
            a.kind.same b.kind = true ∧ (state.Level plan →
              a.info.dtype = b.info.dtype ∧ a.info.shape = b.info.shape ∧
                a.info.block = b.info.block ∧
                ∀ inputs, a.kind.apply a.info inputs = a.kind.apply b.info inputs) := by
  obtain ⟨plan, hplan, _⟩ := assemble_eq_ok h.consistent.counted.numbered hassemble
  refine ⟨plan, hplan, fun step first second hfirst hsecond => ?_⟩
  obtain ⟨_, a, b, _, ha, hb, hmatches, _⟩ := h.looped.matches_step hplan hfirst hsecond
  refine ⟨a, b, ha, hb, hmatches.same, fun hlevel => ?_⟩
  have hsame := note?_eq_of_level h.looped h.derived hplan hlevel step hfirst hsecond
  rw [note?_eq_some.mpr ⟨a, ha, rfl⟩, note?_eq_some.mpr ⟨b, hb, rfl⟩] at hsame
  have hnote := Option.some.inj hsame
  obtain ⟨hdtype, hshape, hblock⟩ := Note.mk.inj hnote
  exact ⟨hdtype, hshape, hblock, a.kind.apply_eq_of_note hnote⟩

-- A loop that negates a value of 32 bits and adds another one.
def adding (addend : Scalar) : State :=
  (State.empty 5 none).afterCalls
    [.construct (.constant (.s32 1) (.single .s32)), .acquire 1,
      .construct (.constant addend (.single addend.dtype)), .acquire 2, .loopStart,
      .loopCondition 1, .loopReplay .first, .construct (.unary 1 .neg), .acquire 3,
      .construct (.binary 3 2 .add), .acquire 4, .loopCondition 4, .loopReplay .second,
      .construct (.unary 4 .neg), .construct (.binary 5 2 .add)]

def addingPlan : LoopPlan := ⟨[3, 4], [[.carried 0], [.step 0, .outer 2]], [⟨1, 1⟩]⟩

-- With a second value of 32 bits, both replays negate a value of 32 bits.
theorem narrow_sum_agrees :
    Reachable (adding (.s32 1)) ∧
      (simulator.loopAssemble (adding (.s32 1))).1.isOk = true ∧
      (adding (.s32 1)).Level addingPlan ∧
      ∃ a b, (adding (.s32 1)).nodes.get? 3 = some a ∧ (adding (.s32 1)).nodes.get? 5 = some b ∧
        a.info.dtype = b.info.dtype := by
  have hreachable : Reachable (adding (.s32 1)) := (Reachable.empty 5 none).calls _ (by decide)
  have hlevel : (adding (.s32 1)).Level addingPlan := by
    refine ⟨by decide, fun step first second node hfirst hsecond hnode hopen => ?_⟩
    have hclosed : ∀ id ∈ (adding (.s32 1)).recorder.first,
        ((adding (.s32 1)).nodes.get? id).map (·.kind.isOpen) = some false := by decide
    have hfound := hclosed first (List.mem_of_getElem? hfirst)
    rw [hnode, Option.map_some, hopen] at hfound
    cases hfound
  have hassemble : simulator.loopAssemble (adding (.s32 1)) =
      (.ok 7, (simulator.loopAssemble (adding (.s32 1))).2) := rfl
  obtain ⟨plan, hplan, hsteps⟩ := accepted_replays_agree hreachable hassemble
  obtain rfl : addingPlan = plan := Except.ok.inj hplan
  obtain ⟨a, b, ha, hb, _, hagree⟩ := hsteps 0 3 5 rfl rfl
  exact ⟨hreachable, rfl, hlevel, a, b, ha, hb, (hagree hlevel).1⟩

-- With one of 64 bits, the loop is accepted although the second replay negates a value of 64 bits.
theorem wide_sum_differs :
    Reachable (adding (.s64 1)) ∧ (simulator.loopAssemble (adding (.s64 1))).1.isOk = true ∧
      (adding (.s64 1)).recorder.first[0]? = some 3 ∧
      (adding (.s64 1)).recorder.second[0]? = some 5 ∧
      ((adding (.s64 1)).nodes.get? 3).map (·.info.dtype) = some .s32 ∧
      ((adding (.s64 1)).nodes.get? 5).map (·.info.dtype) = some .s64 :=
  ⟨(Reachable.empty 5 none).calls _ (by decide), rfl, rfl, rfl, rfl, rfl⟩

end MapAlgebra.Graph
