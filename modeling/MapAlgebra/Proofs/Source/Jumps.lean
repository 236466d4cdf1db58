import MapAlgebra.Source.Finding
import Mathlib.Tactic.ByContra

namespace MapAlgebra.Source

-- What stands around a jump inside a body.
inductive Frame where
  | loop (label : Option String)
  -- The condition of a loop with its label, or what a loop goes over, which the label is out of
  -- reach of.
  | head (label : Option String)
  | block (label : String)
  -- The left side of a plain assignment.
  | left
  | closure
  | function
deriving DecidableEq

-- A jump with what stands around it, from the inside out.
structure Jump where
  fault : Fault
  label : Option String
  frames : List Frame
deriving DecidableEq

def Jump.within (frame : Frame) (jump : Jump) : Jump :=
  { jump with frames := jump.frames ++ [frame] }

mutual

-- The jumps of a form. What a macro is given is not read, so a jump in it is none of the form, and
-- of an item only the bodies and the constants are looked at. A raw label is another label than the
-- same word without its mark.
def Code.jumps : Code → List Jump
  | .name _ | .placeholder => []
  | .path constants => Code.jumpsOfAll constants
  | .paren inner => inner.jumps
  | .tuple items => Code.jumpsOfAll items
  | .field base => base.jumps
  | .index base position => base.jumps ++ position.jumps
  | .dereference base => base.jumps
  | .assign left right => left.jumps.map (·.within .left) ++ right.jumps
  | .update left right => left.jumps ++ right.jumps
  | .method receiver _ arguments => receiver.jumps ++ Code.jumpsOfAll arguments
  | .parts inner => Code.jumpsOfAll inner
  | .block none body => Code.jumpsOfAll body
  | .block (some label) body => (Code.jumpsOfAll body).map (·.within (.block label))
  | .detached body => Code.jumpsOfAll body
  | .branch condition yes no =>
      condition.jumps ++ Code.jumpsOfAll yes ++ Code.jumpsOfAll no
  | .select value arms => value.jumps ++ Code.jumpsOfAll arms
  | .arm _ constants guard result =>
      Code.jumpsOfAll constants ++ Code.jumpsOfAll guard ++ result.jumps
  | .test _ constants value => Code.jumpsOfAll constants ++ value.jumps
  | .declare _ constants value otherwise =>
      Code.jumpsOfAll constants ++ Code.jumpsOfAll value ++ Code.jumpsOfAll otherwise
  | .whileLoop label condition body =>
      condition.jumps.map (·.within (.head label)) ++
        (Code.jumpsOfAll body).map (·.within (.loop label))
  | .forLoop label _ constants range body =>
      (Code.jumpsOfAll constants ++ range.jumps).map (·.within (.head none)) ++
        (Code.jumpsOfAll body).map (·.within (.loop label))
  | .endless label body => (Code.jumpsOfAll body).map (·.within (.loop label))
  | .closure _ constants body =>
      (Code.jumpsOfAll constants ++ body.jumps).map (·.within .closure)
  | .function _ constants body =>
      (Code.jumpsOfAll constants ++ Code.jumpsOfAll body).map (·.within .function)
  | .leave label value => ⟨.leaves, label, []⟩ :: Code.jumpsOfAll value
  | .again label => [⟨.skips, label, []⟩]

def Code.jumpsOfAll : List Code → List Jump
  | [] => []
  | code :: rest => code.jumps ++ Code.jumpsOfAll rest

end

-- Whether a jump with this label goes to the frame. Without a label it goes to the next loop whose
-- body it stands in.
def Frame.catches (label : Option String) : Frame → Bool
  | .loop own => label = none || label = own
  | .head own => label.isSome && label = own
  | .block own => label = some own
  | .left | .closure | .function => false

-- A jump outside of nested functions and closures that nothing in the body catches.
def Jump.escapes (jump : Jump) : Bool :=
  jump.frames.all fun frame =>
    !frame.catches jump.label && frame ≠ .closure && frame ≠ .function

-- Whether jumps in the frame are taken to be in order, whatever their label.
def Frame.shelters : Frame → Bool
  | .loop _ | .head _ | .left | .closure => true
  | .block _ | .function => false

def Jump.reported (jump : Jump) : Bool := jump.frames.all (!·.shelters)

-- The faults that jumps are reported as, which are none where all of them are sheltered.
def faultsOf (sheltered : Bool) (jumps : List Jump) : List Fault :=
  (jumps.filter fun jump => !sheltered && jump.reported).map Jump.fault

section Faults

variable {sheltered : Bool}

@[simp] theorem faultsOf_nil : faultsOf sheltered [] = [] := rfl

@[simp] theorem faultsOf_true (jumps : List Jump) : faultsOf true jumps = [] := by
  simp [faultsOf]

@[simp] theorem faultsOf_append (earlier later : List Jump) :
    faultsOf sheltered (earlier ++ later) =
      faultsOf sheltered earlier ++ faultsOf sheltered later := by
  simp [faultsOf]

@[simp] theorem faultsOf_within (frame : Frame) (jumps : List Jump) :
    faultsOf sheltered (jumps.map (·.within frame)) =
      faultsOf (sheltered || frame.shelters) jumps := by
  simp [faultsOf, List.filter_map, Function.comp_def, Jump.reported, Jump.within, Bool.and_comm,
    Bool.and_assoc]

@[simp] theorem faultsOf_bare (fault : Fault) (label : Option String) (jumps : List Jump) :
    faultsOf sheltered (⟨fault, label, []⟩ :: jumps) =
      (if sheltered then [] else [fault]) ++ faultsOf sheltered jumps := by
  cases sheltered
  · rfl
  · simp

end Faults

-- What is found of a jump.
def Finding.jump? : Finding → Option Fault
  | .fault .leaves => some .leaves
  | .fault .skips => some .skips
  | _ => none

@[simp] theorem jump?_target (code : Code) : code.target.filterMap Finding.jump? = [] := by
  induction code using Code.target.induct <;> simp_all [Code.target, Finding.jump?]

@[simp] theorem jump?_receiver (receiver : Code) (called : String) :
    (if changesReceiver called then receiver.target else []).filterMap Finding.jump? = [] := by
  split
  · exact jump?_target receiver
  · rfl

mutual

-- Of all the jumps of a form those are found that nothing shelters.
theorem Code.jump?_findings (code : Code) (enclosed : Bool) :
    (code.findings enclosed).filterMap Finding.jump? = faultsOf enclosed code.jumps := by
  cases code with
  | name | placeholder => rfl
  | path parts | tuple parts | parts parts | detached parts =>
      exact Code.jump?_findingsOfAll parts enclosed
  | paren inner | field inner | dereference inner => exact inner.jump?_findings enclosed
  | index base position =>
      simp [Code.findings, Code.jumps, base.jump?_findings, position.jump?_findings]
  | assign left right =>
      simp [Code.findings, Code.jumps, right.jump?_findings, Frame.shelters]
  | update left right =>
      simp [Code.findings, Code.jumps, left.jump?_findings, right.jump?_findings]
  | method receiver called arguments =>
      simp [Code.findings, Code.jumps, receiver.jump?_findings,
        Code.jump?_findingsOfAll arguments]
  | block label body =>
      cases label <;>
        simp [Code.findings, Code.jumps, Code.jump?_findingsOfAll body, Frame.shelters]
  | branch condition yes no =>
      simp [Code.findings, Code.jumps, condition.jump?_findings, Code.jump?_findingsOfAll yes,
        Code.jump?_findingsOfAll no]
  | select value arms =>
      simp [Code.findings, Code.jumps, value.jump?_findings, Code.jump?_findingsOfAll arms]
  | arm _ constants guard result =>
      simp [Code.findings, Code.jumps, Code.jump?_findingsOfAll constants,
        Code.jump?_findingsOfAll guard, result.jump?_findings]
  | test _ constants value =>
      simp [Code.findings, Code.jumps, Code.jump?_findingsOfAll constants, value.jump?_findings]
  | declare pattern constants value otherwise =>
      simp [Code.findings, Code.jumps, Code.jump?_findingsOfAll constants,
        Code.jump?_findingsOfAll value, Code.jump?_findingsOfAll otherwise, Finding.jump?]
  | whileLoop _ condition body =>
      simp [Code.findings, Code.jumps, condition.jump?_findings, Code.jump?_findingsOfAll body,
        Frame.shelters]
  | forLoop _ _ constants range body =>
      simp [Code.findings, Code.jumps, Code.jump?_findingsOfAll constants, range.jump?_findings,
        Code.jump?_findingsOfAll body, Frame.shelters]
  | endless _ body =>
      simp [Code.findings, Code.jumps, Code.jump?_findingsOfAll body, Frame.shelters]
  | closure _ constants body =>
      simp [Code.findings, Code.jumps, Code.jump?_findingsOfAll constants, body.jump?_findings,
        Frame.shelters]
  | function _ constants body =>
      simp [Code.findings, Code.jumps, Code.jump?_findingsOfAll constants,
        Code.jump?_findingsOfAll body, Frame.shelters]
  | leave label value =>
      cases enclosed <;>
        simp [Code.findings, Code.jumps, jump, Code.jump?_findingsOfAll value, Finding.jump?]
  | again label => cases enclosed <;> rfl

theorem Code.jump?_findingsOfAll (codes : List Code) (enclosed : Bool) :
    (Code.findingsOfAll enclosed codes).filterMap Finding.jump? =
      faultsOf enclosed (Code.jumpsOfAll codes) := by
  cases codes with
  | nil => rfl
  | cons code rest =>
      simp [Code.findingsOfAll, Code.jumpsOfAll, code.jump?_findings,
        Code.jump?_findingsOfAll rest]

end

-- The jumps that are judged by where they stand although they go somewhere else.
inductive Jump.Misjudged (jump : Jump) : Prop
  -- A label takes it out of the loops that it stands in.
  | past {own : Option String} (hescapes : jump.escapes = true)
      (hloop : Frame.loop own ∈ jump.frames)
  -- It is no jump of the loop whose head it stands in.
  | head {own : Option String} (hescapes : jump.escapes = true)
      (hhead : Frame.head own ∈ jump.frames)
  -- Left sides of plain assignments are not looked through.
  | left (hescapes : jump.escapes = true) (hleft : Frame.left ∈ jump.frames)
  -- It goes to a block that no loop stands around.
  | block {own : String} (hlabel : jump.label = some own) (hblock : Frame.block own ∈ jump.frames)
      (hopen : ∀ frame ∈ jump.frames, frame.shelters = false)
  -- It belongs to a function, which no loop stands around either.
  | function (hfunction : Frame.function ∈ jump.frames)
      (hopen : ∀ frame ∈ jump.frames, frame.shelters = false)

theorem Jump.escapes_iff (jump : Jump) : jump.escapes = true ↔
    ∀ frame ∈ jump.frames, frame.catches jump.label = false ∧ frame ≠ .closure ∧
      frame ≠ .function := by
  simp [Jump.escapes, and_assoc]

theorem Jump.reported_iff (jump : Jump) :
    jump.reported = true ↔ ∀ frame ∈ jump.frames, frame.shelters = false := by
  simp [Jump.reported]

theorem Jump.Misjudged.ne {jump : Jump} (h : jump.Misjudged) : jump.escapes ≠ jump.reported := by
  have hsheltered : ∀ {frame : Frame}, frame ∈ jump.frames → frame.shelters = true →
      jump.escapes = true → jump.escapes ≠ jump.reported := by
    intro frame hframe hshelters hescapes hsame
    have hopen := jump.reported_iff.mp (hsame ▸ hescapes) frame hframe
    rw [hshelters] at hopen
    cases hopen
  have hcaught : (∀ frame ∈ jump.frames, frame.shelters = false) → jump.escapes ≠ true →
      jump.escapes ≠ jump.reported := fun hopen hcaught => by
    rwa [jump.reported_iff.mpr hopen]
  cases h with
  | past hescapes hloop => exact hsheltered hloop rfl hescapes
  | head hescapes hhead => exact hsheltered hhead rfl hescapes
  | left hescapes hleft => exact hsheltered hleft rfl hescapes
  | block hlabel hblock hopen =>
      refine hcaught hopen fun hescapes => ?_
      have hfree := (jump.escapes_iff.mp hescapes _ hblock).1
      simp [Frame.catches, hlabel] at hfree
  | function hfunction hopen =>
      exact hcaught hopen fun hescapes => (jump.escapes_iff.mp hescapes _ hfunction).2.2 rfl

-- Those jumps are misjudged and no other ones.
theorem Jump.misjudged_iff (jump : Jump) : jump.Misjudged ↔ jump.escapes ≠ jump.reported := by
  refine ⟨Misjudged.ne, fun hne => ?_⟩
  cases hreported : jump.reported with
  | false =>
      have hescapes : jump.escapes = true := by
        rw [hreported] at hne
        exact Bool.not_eq_false _ ▸ hne
      obtain ⟨frame, hframe, hshelters⟩ :
          ∃ frame ∈ jump.frames, frame.shelters = true := by
        simpa [Jump.reported] using hreported
      cases frame with
      | loop own => exact .past hescapes hframe
      | head own => exact .head hescapes hframe
      | left => exact .left hescapes hframe
      | closure => exact absurd rfl (jump.escapes_iff.mp hescapes _ hframe).2.1
      | block | function => cases hshelters
  | true =>
      have hopen := jump.reported_iff.mp hreported
      obtain ⟨frame, hframe, hfree⟩ : ∃ frame ∈ jump.frames,
          ¬(frame.catches jump.label = false ∧ frame ≠ .closure ∧ frame ≠ .function) := by
        by_contra hnone
        refine hne (hreported ▸ jump.escapes_iff.mpr fun frame hframe => ?_)
        exact by_contra fun hcaught => hnone ⟨frame, hframe, hcaught⟩
      have hshelters := hopen frame hframe
      cases frame with
      | block own => exact .block (by simpa [Frame.catches] using hfree) hframe hopen
      | function => exact .function hframe hopen
      | loop | head | left | closure => cases hshelters

theorem assignedNames_eq_error {body : List Code} {faults : List Fault} :
    assignedNames body = .error faults ↔
      (Code.findingsOfAll false body).filterMap Finding.fault? = faults ∧ faults ≠ [] := by
  simp only [assignedNames]
  split
  · rename_i hnone
    rw [hnone]
    exact ⟨nofun, fun h => absurd h.1.symm h.2⟩
  · rename_i hsome
    exact ⟨fun h => Except.error.inj h ▸ ⟨rfl, hsome⟩, fun h => congrArg _ h.1⟩

theorem mem_faults_iff {body : List Code} {fault : Fault} :
    (∃ faults, assignedNames body = .error faults ∧ fault ∈ faults) ↔
      fault ∈ (Code.findingsOfAll false body).filterMap Finding.fault? := by
  simp only [assignedNames_eq_error]
  constructor
  · rintro ⟨_, ⟨rfl, _⟩, hfault⟩
    exact hfault
  · exact fun hfault => ⟨_, ⟨rfl, List.ne_nil_of_mem hfault⟩, hfault⟩

theorem mem_jump?_iff {findings : List Finding} {fault : Fault}
    (hfault : fault = .leaves ∨ fault = .skips) :
    fault ∈ findings.filterMap Finding.fault? ↔ fault ∈ findings.filterMap Finding.jump? := by
  simp only [List.mem_filterMap]
  refine exists_congr fun finding => and_congr_right fun _ => ?_
  obtain rfl | rfl := hfault <;> cases finding with
  | fault found => cases found <;> simp [Finding.fault?, Finding.jump?]
  | _ => simp [Finding.fault?, Finding.jump?]

-- A jump is reported as a fault just when it goes out of the body.
theorem escaping_jumps_reported {body : List Code}
    (hjudged : ∀ jump ∈ Code.jumpsOfAll body, ¬jump.Misjudged) {fault : Fault}
    (hfault : fault = .leaves ∨ fault = .skips) :
    (∃ faults, assignedNames body = .error faults ∧ fault ∈ faults) ↔
      ∃ jump ∈ Code.jumpsOfAll body, jump.fault = fault ∧ jump.escapes = true := by
  rw [mem_faults_iff, mem_jump?_iff hfault, Code.jump?_findingsOfAll body false]
  simp only [faultsOf, Bool.not_false, Bool.true_and, List.mem_map, List.mem_filter]
  refine exists_congr fun jump => ?_
  rw [and_assoc, and_comm (a := jump.reported = true)]
  refine and_congr_right fun hjump => and_congr_right fun _ => ?_
  have hsame : jump.escapes = jump.reported :=
    by_contra fun hne => hjudged jump hjump (jump.misjudged_iff.mpr hne)
  rw [hsame]

-- A loop that is left from inside by its label, a closure, and a round of the body that is skipped.
def skipping : List Code :=
  [.endless (some "rows") [.branch (.name "c") [.leave (some "rows") []] [.again none]],
    .closure [] [] (.leave none []), .branch (.name "d") [.again none] []]

theorem skipped_round_reported :
    (∃ faults, assignedNames skipping = .error faults ∧ .skips ∈ faults) ∧
      ¬∃ faults, assignedNames skipping = .error faults ∧ .leaves ∈ faults := by
  have hjudged : ∀ jump ∈ Code.jumpsOfAll skipping, ¬jump.Misjudged := by
    simp only [Jump.misjudged_iff]
    decide
  rw [escaping_jumps_reported hjudged (.inr rfl), escaping_jumps_reported hjudged (.inl rfl)]
  decide

-- A label that is not in the body takes a jump out of it unnoticed, and so does the condition of a
-- loop. A jump to a block of the body is refused.
theorem jumps_misjudged :
    (∃ jump ∈ Code.jumpsOfAll [.endless none [.leave (some "rows") []]], jump.escapes = true) ∧
      assignedNames [.endless none [.leave (some "rows") []]] = .ok [] ∧
      (∃ jump ∈ Code.jumpsOfAll [.whileLoop none (.leave none []) []], jump.escapes = true) ∧
      assignedNames [.whileLoop none (.leave none []) []] = .ok [] ∧
      (∀ jump ∈ Code.jumpsOfAll [.block (some "rows") [.leave (some "rows") []]],
        jump.escapes = false) ∧
      assignedNames [.block (some "rows") [.leave (some "rows") []]] = .error [.leaves] :=
  ⟨by decide, rfl, by decide, rfl, by decide, rfl⟩

end MapAlgebra.Source
