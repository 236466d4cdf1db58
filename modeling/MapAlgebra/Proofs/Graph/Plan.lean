import MapAlgebra.Graph.Recorder
import MapAlgebra.Proofs.Outcome
import Mathlib.Data.List.Forall2

namespace MapAlgebra.Graph

namespace LoopPlan

private theorem mem_addAll (nodes seen : List Nat) (node : Nat) :
    node ∈ nodes.foldl addNew seen ↔ node ∈ seen ∨ node ∈ nodes := by
  induction nodes generalizing seen with
  | nil => simp
  | cons first nodes ih =>
      rw [List.foldl_cons, ih, addNew]
      split
      · rename_i hseen
        constructor
        · exact Or.imp_right (List.mem_cons_of_mem _)
        · rintro (h | h)
          · exact Or.inl h
          · obtain rfl | h := List.mem_cons.mp h
            · exact Or.inl hseen
            · exact Or.inr h
      · simp only [List.mem_append, List.mem_cons, List.not_mem_nil, or_false, or_assoc]

theorem mem_outerReads (plan : LoopPlan) (node : Nat) :
    node ∈ plan.outerReads ↔ ∃ slots ∈ plan.slots, Slot.outer node ∈ slots := by
  simp only [outerReads, List.mem_filterMap, List.mem_flatten]
  constructor
  · rintro ⟨slot, ⟨slots, hslots, hslot⟩, h⟩
    cases slot with
    | outer other =>
        cases h
        exact ⟨slots, hslots, hslot⟩
    | step index => cases h
    | carried index => cases h
  · rintro ⟨slots, hslots, hslot⟩
    exact ⟨.outer node, ⟨slots, hslots, hslot⟩, rfl⟩

-- A loop needs the initial values and whatever a step reads outside the loop.
theorem mem_externals (plan : LoopPlan) (node : Nat) :
    node ∈ plan.externals ↔ (∃ value ∈ plan.carried, value.init = node) ∨
      ∃ slots ∈ plan.slots, Slot.outer node ∈ slots := by
  rw [externals, mem_addAll, List.mem_append, List.mem_map, mem_outerReads]
  simp

private def addTail (tails : List (Nat × Nat)) (entry : CarriedValue × Nat) : List (Nat × Nat) :=
  if tails.any (·.2 = entry.1.feed) then tails else tails ++ [(entry.2, entry.1.feed)]

private theorem mem_addTail {tails : List (Nat × Nat)} {entry : CarriedValue × Nat}
    {index feed : Nat} :
    (index, feed) ∈ addTail tails entry ↔ (index, feed) ∈ tails ∨
      (index = entry.2 ∧ feed = entry.1.feed ∧ feed ∉ tails.map Prod.snd) := by
  unfold addTail
  split
  · rename_i hseen
    simp only [List.any_eq_true, decide_eq_true_eq] at hseen
    obtain ⟨tail, htail, hfeed⟩ := hseen
    have hmember : entry.1.feed ∈ tails.map Prod.snd := List.mem_map.mpr ⟨tail, htail, hfeed⟩
    constructor
    · exact Or.inl
    · rintro (h | ⟨_, rfl, hout⟩)
      · exact h
      · exact absurd hmember hout
  · rename_i hnew
    have hout : entry.1.feed ∉ tails.map Prod.snd := by
      intro hmember
      obtain ⟨tail, htail, hfeed⟩ := List.mem_map.mp hmember
      exact hnew (List.any_eq_true.mpr ⟨tail, htail, by simpa using hfeed⟩)
    rw [List.mem_append, List.mem_singleton, Prod.mk.injEq]
    constructor
    · rintro (h | ⟨rfl, rfl⟩)
      · exact Or.inl h
      · exact Or.inr ⟨rfl, rfl, hout⟩
    · rintro (h | ⟨rfl, rfl, _⟩)
      · exact Or.inl h
      · exact Or.inr ⟨rfl, rfl⟩

private theorem feeds_addTail (tails : List (Nat × Nat)) (entry : CarriedValue × Nat) (feed : Nat) :
    feed ∈ (addTail tails entry).map Prod.snd ↔
      feed ∈ tails.map Prod.snd ∨ feed = entry.1.feed := by
  simp only [List.mem_map, Prod.exists, exists_eq_right, mem_addTail]
  constructor
  · rintro ⟨index, h | ⟨_, hfeed, _⟩⟩
    · exact Or.inl ⟨index, h⟩
    · exact Or.inr hfeed
  · rintro (⟨index, h⟩ | rfl)
    · exact ⟨index, Or.inl h⟩
    · by_cases hseen : ∃ index, (index, entry.1.feed) ∈ tails
      · obtain ⟨index, h⟩ := hseen
        exact ⟨index, Or.inl h⟩
      · exact ⟨entry.2, Or.inr ⟨rfl, rfl, hseen⟩⟩

private theorem mem_tailsFrom (carried : List CarriedValue) (start : Nat)
    (tails : List (Nat × Nat)) (index feed : Nat) :
    (index, feed) ∈ (carried.zipIdx start).foldl addTail tails ↔ (index, feed) ∈ tails ∨
      (feed ∉ tails.map Prod.snd ∧ ∃ offset value, index = start + offset ∧
        carried[offset]? = some value ∧ value.feed = feed ∧
        ∀ earlier < offset, ∀ other, carried[earlier]? = some other → other.feed ≠ feed) := by
  induction carried generalizing start tails with
  | nil => simp
  | cons first carried ih =>
      rw [List.zipIdx_cons, List.foldl_cons, ih, mem_addTail, feeds_addTail]
      constructor
      · rintro ((h | ⟨hindex, hfeed, hout⟩) | ⟨hout, offset, value, hindex, hvalue, hfeed, hfirst⟩)
        · exact Or.inl h
        · exact Or.inr ⟨hout, 0, first, hindex, rfl, hfeed.symm, by omega⟩
        · rw [not_or] at hout
          refine Or.inr ⟨hout.1, offset + 1, value, by omega, hvalue, hfeed, ?_⟩
          intro earlier hlt other hother
          cases earlier with
          | zero =>
              cases hother
              exact Ne.symm hout.2
          | succ earlier => exact hfirst earlier (by omega) other hother
      · rintro (h | ⟨hout, offset, value, hindex, hvalue, hfeed, hfirst⟩)
        · exact Or.inl (Or.inl h)
        · cases offset with
          | zero =>
              cases hvalue
              exact Or.inl (Or.inr ⟨hindex, hfeed.symm, hout⟩)
          | succ offset =>
              have hne := hfirst 0 (by omega) first rfl
              refine Or.inr ⟨not_or.mpr ⟨hout, Ne.symm hne⟩, offset, value, by omega, hvalue, hfeed,
                fun earlier hlt other hother => ?_⟩
              exact hfirst (earlier + 1) (by omega) other hother

private theorem nodup_tailsFrom (carried : List (CarriedValue × Nat)) {tails : List (Nat × Nat)}
    (h : (tails.map Prod.snd).Nodup) : ((carried.foldl addTail tails).map Prod.snd).Nodup := by
  induction carried generalizing tails with
  | nil => exact h
  | cons entry carried ih =>
      refine ih ?_
      unfold addTail
      split
      · exact h
      · rename_i hnew
        rw [List.map_append, List.nodup_append]
        refine ⟨h, List.pairwise_singleton _ _, fun feed hfeed other hother hsame => hnew ?_⟩
        obtain ⟨tail, htail, rfl⟩ := List.mem_map.mp hfeed
        rw [List.any_eq_true]
        exact ⟨tail, htail, decide_eq_true (hsame.trans (List.mem_singleton.mp hother))⟩

-- A step has at most one tail.
theorem nodup_tails (plan : LoopPlan) : (plan.tails.map Prod.snd).Nodup :=
  nodup_tailsFrom plan.carried.zipIdx List.nodup_nil

-- The tail of a step belongs to the first carried value that the step feeds.
theorem mem_tails (plan : LoopPlan) (index feed : Nat) :
    (index, feed) ∈ plan.tails ↔ ∃ value, plan.carried[index]? = some value ∧ value.feed = feed ∧
      ∀ earlier < index, ∀ other, plan.carried[earlier]? = some other → other.feed ≠ feed := by
  have h := mem_tailsFrom plan.carried 0 [] index feed
  simp only [List.not_mem_nil, false_or, List.map_nil, not_false_eq_true, true_and,
    Nat.zero_add] at h
  rw [show plan.tails = (plan.carried.zipIdx 0).foldl addTail [] from rfl, h]
  constructor
  · rintro ⟨offset, value, rfl, hrest⟩
    exact ⟨value, hrest⟩
  · rintro ⟨value, hrest⟩
    exact ⟨index, value, rfl, hrest⟩

end LoopPlan

namespace Recorder

theorem require_eq_ok {condition : Bool} {problem : LoopProblem} {done : Unit}
    (h : require condition problem = .ok done) : condition = true := by
  unfold require at h
  split at h
  · assumption
  · cases h

private theorem getElem?_of_begins {α : Type} {xs ys : List α} (h : xs <+: ys) {index : Nat}
    {value : α} (hvalue : xs[index]? = some value) : ys[index]? = some value := by
  obtain ⟨rest, rfl⟩ := h
  rw [List.getElem?_append_left (List.getElem?_eq_some_iff.mp hvalue).1]
  exact hvalue

-- A slot explains an input of a step when both replays read there what the slot stands for.
inductive Explains (recorder : Recorder) (carried : List CarriedValue) : Slot → Nat × Nat → Prop
  | step {index first second : Nat} (hfirst : recorder.first[index]? = some first)
      (hsecond : recorder.second.idxOf? second = some index) :
      Explains recorder carried (.step index) (first, second)
  | carried {index feed first second : Nat} (hcarried : carried[index]? = some ⟨first, feed⟩)
      (hinit : first ∉ recorder.first) (hfeed : recorder.first.idxOf? second = some feed)
      (hsecond : second ∉ recorder.second) :
      Explains recorder carried (.carried index) (first, second)
  | outer {node : Nat} (hfirst : node ∉ recorder.first) (hsecond : node ∉ recorder.second) :
      Explains recorder carried (.outer node) (node, node)

theorem Explains.mono {recorder : Recorder} {carried more : List CarriedValue} {slot : Slot}
    {input : Nat × Nat} (h : Explains recorder carried slot input) (hbegins : carried <+: more) :
    Explains recorder more slot input := by
  cases h with
  | step hfirst hsecond => exact .step hfirst hsecond
  | carried hcarried hinit hfeed hsecond =>
      exact .carried (getElem?_of_begins hbegins hcarried) hinit hfeed hsecond
  | outer hfirst hsecond => exact .outer hfirst hsecond

-- Where the carried values of a plan come from, apart from those that are known already: a step of
-- the first replay is read in the second one, in the place of a node from before the loop.
def Grown (recorder : Recorder) (reads : Nat × Nat → Prop) (carried more : List CarriedValue) :
    Prop :=
  carried <+: more ∧ ∀ value ∈ more, value ∈ carried ∨
    (value.init ∉ recorder.first ∧ ∃ second, reads (value.init, second) ∧
      recorder.first.idxOf? second = some value.feed)

namespace Grown

variable {recorder : Recorder} {reads more : Nat × Nat → Prop} {a b c : List CarriedValue}

theorem refl (recorder : Recorder) (reads : Nat × Nat → Prop) (carried : List CarriedValue) :
    Grown recorder reads carried carried := ⟨List.prefix_rfl, fun _ h => Or.inl h⟩

theorem trans (hab : Grown recorder reads a b) (hbc : Grown recorder reads b c) :
    Grown recorder reads a c := by
  refine ⟨hab.1.trans hbc.1, fun value hvalue => ?_⟩
  obtain hold | hnew := hbc.2 value hvalue
  · exact hab.2 value hold
  · exact Or.inr hnew

theorem mono (h : Grown recorder reads a b) (hsub : ∀ input, reads input → more input) :
    Grown recorder more a b := by
  refine ⟨h.1, fun value hvalue => ?_⟩
  obtain hold | ⟨hinit, second, hread, hfeed⟩ := h.2 value hvalue
  · exact Or.inl hold
  · exact Or.inr ⟨hinit, second, hsub _ hread, hfeed⟩

end Grown

theorem carriedIndex_spec (carried : List CarriedValue) (value : CarriedValue) :
    (carriedIndex carried value).2[(carriedIndex carried value).1]? = some value ∧
      carried <+: (carriedIndex carried value).2 ∧
      ∀ other ∈ (carriedIndex carried value).2, other ∈ carried ∨ other = value := by
  unfold carriedIndex
  split
  · rename_i index hindex
    obtain ⟨hlt, hvalue, _⟩ := List.idxOf?_eq_some_iff.mp hindex
    exact ⟨by simp [hlt, hvalue], List.prefix_rfl, fun _ h => Or.inl h⟩
  · exact ⟨by simp, List.prefix_append _ _, fun other h => by simpa using h⟩

theorem slot_eq_ok {recorder : Recorder} {step first second : Nat}
    {carried more : List CarriedValue} {slot : Slot}
    (h : recorder.slot step carried first second = .ok (slot, more)) :
    Explains recorder more slot (first, second) ∧
      Grown recorder (· = (first, second)) carried more := by
  unfold Recorder.slot at h
  split at h
  · rename_i index hindex
    obtain ⟨_, hrequire, h⟩ := bind_eq_ok.mp h
    cases h
    have hfirst := of_decide_eq_true (require_eq_ok hrequire)
    exact ⟨.step hfirst hindex, Grown.refl _ _ _⟩
  · rename_i hsecond
    have hsecond := List.idxOf?_eq_none_iff.mp hsecond
    split at h
    · rename_i feed hfeed
      obtain ⟨_, hrequire, h⟩ := bind_eq_ok.mp h
      have hinit := of_decide_eq_true (require_eq_ok hrequire)
      obtain ⟨hvalue, hbegins, hmember⟩ := carriedIndex_spec carried ⟨first, feed⟩
      cases h
      refine ⟨.carried hvalue hinit hfeed hsecond, hbegins, fun value hin => ?_⟩
      obtain hold | rfl := hmember value hin
      · exact Or.inl hold
      · exact Or.inr ⟨hinit, second, rfl, hfeed⟩
    · rename_i hfirst
      have hfirst := List.idxOf?_eq_none_iff.mp hfirst
      obtain ⟨_, hrequire, h⟩ := bind_eq_ok.mp h
      have hsame := of_decide_eq_true (require_eq_ok hrequire)
      cases h
      subst hsame
      exact ⟨.outer hfirst hsecond, Grown.refl _ _ _⟩

-- Every slot of a step explains its input.
def ExplainsAll (recorder : Recorder) (carried : List CarriedValue) (slots : List Slot)
    (inputs : List (Nat × Nat)) : Prop :=
  List.Forall₂ (Explains recorder carried) slots inputs

theorem ExplainsAll.mono {recorder : Recorder} {carried more : List CarriedValue}
    {slots : List Slot} {inputs : List (Nat × Nat)} (h : ExplainsAll recorder carried slots inputs)
    (hbegins : carried <+: more) : ExplainsAll recorder more slots inputs :=
  List.Forall₂.imp (fun _ _ hslot => hslot.mono hbegins) h

theorem slotsFrom_eq_ok {recorder : Recorder} {step : Nat} {inputs : List (Nat × Nat)}
    {carried more : List CarriedValue} {slots : List Slot}
    (h : recorder.slotsFrom step carried inputs = .ok (slots, more)) :
    ExplainsAll recorder more slots inputs ∧ Grown recorder (· ∈ inputs) carried more := by
  induction inputs generalizing carried slots with
  | nil =>
      cases h
      exact ⟨.nil, Grown.refl _ _ _⟩
  | cons input inputs ih =>
      obtain ⟨first, second⟩ := input
      rw [slotsFrom] at h
      obtain ⟨⟨slot, middle⟩, hslot, h⟩ := bind_eq_ok.mp h
      obtain ⟨⟨rest, last⟩, hrest, h⟩ := bind_eq_ok.mp h
      cases h
      obtain ⟨hexplains, hgrown⟩ := slot_eq_ok hslot
      obtain ⟨hall, hmore⟩ := ih hrest
      refine ⟨.cons (hexplains.mono hmore.1) hall, ?_⟩
      refine (hgrown.mono fun input hinput => ?_).trans (hmore.mono fun input hinput => ?_)
      · exact List.mem_cons.mpr (Or.inl hinput)
      · exact List.mem_cons_of_mem _ hinput

-- What both replays recorded as one step, and how its slots explain its inputs.
structure Matches (recorder : Recorder) (carried : List CarriedValue) (slots : List Slot)
    (a b : Node) : Prop where
  same : a.kind.same b.kind = true
  lengths : a.inputs.length = b.inputs.length
  explained : ExplainsAll recorder carried slots (a.inputs.zip b.inputs)

-- A step that both replays recorded.
def MatchesAt (recorder : Recorder) (nodes : Table Node) (carried : List CarriedValue)
    (slots : List Slot) (step : Nat × Nat) : Prop :=
  ∃ a b, nodes.get? step.1 = some a ∧ nodes.get? step.2 = some b ∧
    Matches recorder carried slots a b

theorem MatchesAt.mono {recorder : Recorder} {nodes : Table Node} {carried more : List CarriedValue}
    {slots : List Slot} {step : Nat × Nat} (h : MatchesAt recorder nodes carried slots step)
    (hbegins : carried <+: more) : MatchesAt recorder nodes more slots step := by
  obtain ⟨a, b, ha, hb, hmatches⟩ := h
  exact ⟨a, b, ha, hb, hmatches.same, hmatches.lengths, hmatches.explained.mono hbegins⟩

-- What the nodes of some steps read, as the two replays recorded it.
def ReadBy (nodes : Table Node) (steps : List (Nat × Nat)) (input : Nat × Nat) : Prop :=
  ∃ step ∈ steps, ∃ a b, nodes.get? step.1 = some a ∧ nodes.get? step.2 = some b ∧
    input ∈ a.inputs.zip b.inputs

theorem ReadBy.mono {nodes : Table Node} {steps more : List (Nat × Nat)} {input : Nat × Nat}
    (h : ReadBy nodes steps input) (hsub : steps ⊆ more) : ReadBy nodes more input := by
  obtain ⟨step, hstep, hread⟩ := h
  exact ⟨step, hsub hstep, hread⟩

theorem stepSlots_eq_ok {recorder : Recorder} {nodes : Table Node} {step first second : Nat}
    {carried more : List CarriedValue} {slots : List Slot}
    (h : recorder.stepSlots nodes step carried first second = .ok (slots, more)) :
    MatchesAt recorder nodes more slots (first, second) ∧
      Grown recorder (ReadBy nodes [(first, second)]) carried more := by
  unfold stepSlots at h
  split at h
  · rename_i a b ha hb
    obtain ⟨_, hrequire, h⟩ := bind_eq_ok.mp h
    have hboth := require_eq_ok hrequire
    simp only [Bool.and_eq_true, decide_eq_true_eq] at hboth
    obtain ⟨hexplains, hgrown⟩ := slotsFrom_eq_ok h
    refine ⟨⟨a, b, ha, hb, hboth.1, hboth.2, hexplains⟩, hgrown.mono fun input hinput => ?_⟩
    exact ⟨_, List.mem_singleton_self _, a, b, ha, hb, hinput⟩
  · cases h

theorem stepsFrom_eq_ok {recorder : Recorder} {nodes : Table Node} {step : Nat}
    {steps : List (Nat × Nat)} {carried more : List CarriedValue} {slots : List (List Slot)}
    (h : recorder.stepsFrom nodes step carried steps = .ok (slots, more)) :
    List.Forall₂ (MatchesAt recorder nodes more) slots steps ∧
      Grown recorder (ReadBy nodes steps) carried more := by
  induction steps generalizing step carried slots with
  | nil =>
      cases h
      exact ⟨.nil, Grown.refl _ _ _⟩
  | cons pair steps ih =>
      obtain ⟨first, second⟩ := pair
      rw [stepsFrom] at h
      obtain ⟨⟨slot, middle⟩, hslot, h⟩ := bind_eq_ok.mp h
      obtain ⟨⟨rest, last⟩, hrest, h⟩ := bind_eq_ok.mp h
      cases h
      obtain ⟨hmatches, hgrown⟩ := stepSlots_eq_ok hslot
      obtain ⟨hall, hmore⟩ := ih hrest
      refine ⟨.cons (hmatches.mono hmore.1) hall, ?_⟩
      refine (hgrown.mono fun input hread => ?_).trans (hmore.mono fun input hread => ?_)
      · exact hread.mono (List.cons_subset_cons _ (List.nil_subset _))
      · exact hread.mono (List.subset_cons_self _ _)

-- What a plan says about the recording that it was made from.
structure Planned (recorder : Recorder) (nodes : Table Node) (plan : LoopPlan) : Prop where
  phase : recorder.phase = .secondReplay
  lengths : recorder.first.length = recorder.second.length
  body : plan.body = recorder.first
  steps : List.Forall₂ (MatchesAt recorder nodes plan.carried) plan.slots
    (recorder.first.zip recorder.second)
  guard : ∃ initial next feed, recorder.conditions = [initial, next] ∧
    recorder.first.idxOf? next = some feed ∧ plan.carried[0]? = some ⟨initial, feed⟩
  carried : ∀ value ∈ plan.carried,
    (∃ next, recorder.conditions = [value.init, next] ∧
      recorder.first.idxOf? next = some value.feed) ∨
    (value.init ∉ recorder.first ∧
      ∃ second, ReadBy nodes (recorder.first.zip recorder.second) (value.init, second) ∧
        recorder.first.idxOf? second = some value.feed)

theorem plan_eq_ok {recorder : Recorder} {nodes : Table Node} {plan : LoopPlan}
    (h : recorder.plan nodes = .ok plan) : Planned recorder nodes plan := by
  unfold Recorder.plan at h
  obtain ⟨_, hphase, h⟩ := bind_eq_ok.mp h
  have hphase := of_decide_eq_true (require_eq_ok hphase)
  split at h
  · rename_i initial next hconditions
    obtain ⟨_, hlengths, h⟩ := bind_eq_ok.mp h
    have hlengths := of_decide_eq_true (require_eq_ok hlengths)
    split at h
    · cases h
    · rename_i feed hfeed
      obtain ⟨⟨slots, carried⟩, hsteps, h⟩ := bind_eq_ok.mp h
      cases h
      obtain ⟨hmatches, hbegins, hmember⟩ := stepsFrom_eq_ok hsteps
      refine ⟨hphase, hlengths, rfl, hmatches, ?_, fun value hvalue => ?_⟩
      · exact ⟨initial, next, feed, hconditions, hfeed, getElem?_of_begins hbegins rfl⟩
      · obtain hguard | hread := hmember value hvalue
        · rw [List.mem_singleton] at hguard
          subst hguard
          exact Or.inl ⟨next, hconditions, hfeed⟩
        · exact Or.inr hread
  · cases h

namespace Planned

variable {recorder : Recorder} {nodes : Table Node} {plan : LoopPlan}

theorem feed_lt (h : Planned recorder nodes plan) {value : CarriedValue}
    (hvalue : value ∈ plan.carried) : value.feed < recorder.first.length := by
  obtain ⟨_, _, hfeed⟩ | ⟨_, _, _, hfeed⟩ := h.carried value hvalue
  · exact (List.idxOf?_eq_some_iff.mp hfeed).choose
  · exact (List.idxOf?_eq_some_iff.mp hfeed).choose

-- Initial values are conditions or inputs of the first replay.
theorem init_mem (h : Planned recorder nodes plan) {value : CarriedValue}
    (hvalue : value ∈ plan.carried) : value.init ∈ recorder.conditions ∨
      ∃ id ∈ recorder.first, ∃ node, nodes.get? id = some node ∧ value.init ∈ node.inputs := by
  obtain ⟨_, hconditions, _⟩ | ⟨_, second, ⟨step, hstep, a, _, ha, _, hread⟩, _⟩ :=
    h.carried value hvalue
  · exact Or.inl (by simp [hconditions])
  · exact Or.inr ⟨step.1, (List.of_mem_zip hstep).1, a, ha, (List.of_mem_zip hread).1⟩

-- What a step reads outside the loop is an input of the first replay from outside the recording.
theorem outer_mem (h : Planned recorder nodes plan) {slots : List Slot}
    (hslots : slots ∈ plan.slots) {node : Nat} (hnode : Slot.outer node ∈ slots) :
    (∃ id ∈ recorder.first, ∃ info, nodes.get? id = some info ∧ node ∈ info.inputs) ∧
      node ∉ recorder.first ∧ node ∉ recorder.second := by
  obtain ⟨step, hstep⟩ := List.getElem?_of_mem hslots
  obtain ⟨⟨first, second⟩, hpair, a, b, ha, hb, hmatches⟩ := exists_related h.steps hstep
  obtain ⟨position, hposition⟩ := List.getElem?_of_mem hnode
  obtain ⟨input, hinput, hexplains⟩ := exists_related hmatches.explained hposition
  have hfirst : first ∈ recorder.first := (List.of_mem_zip (List.mem_of_getElem? hpair)).1
  have hread := List.mem_of_getElem? hinput
  cases hexplains with
  | outer houtFirst houtSecond =>
      exact ⟨⟨first, hfirst, a, ha, (List.of_mem_zip hread).1⟩, houtFirst, houtSecond⟩

end Planned

end Recorder

end MapAlgebra.Graph
