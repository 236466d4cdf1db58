import MapAlgebra.Proofs.Graph.Formed

namespace MapAlgebra.Graph

-- What an operation takes from what is noted about its node when it is computed.
structure Note where
  dtype : DataType
  shape : List Nat
  block : Shape
deriving DecidableEq

def Meta.note (info : Meta) : Note := ⟨info.dtype, info.shape, info.block⟩

namespace NodeKind

-- Operations whose type is given along with them and is not part of them.
def isOpen : NodeKind → Bool
  | constant _ | index _ | rand | cast => true
  | _ => false

-- What is noted about a node, as its operation makes it from what is noted about its inputs.
def noteFrom (kind : NodeKind) (notes : List Note) : Option Note := do
  match kind with
  | unary op =>
      let input ← notes[0]?
      return { input with dtype := op.resultType input.dtype }
  | binary op =>
      let left ← notes[0]?
      let right ← notes[1]?
      let template := if left.shape = [] then right else left
      return { template with dtype := op.resultType left.dtype right.dtype }
  | conditional =>
      let condition ← notes[0]?
      let yes ← notes[1]?
      let no ← notes[2]?
      let template := ([yes, no, condition].find? (·.shape ≠ [])).getD yes
      return { template with dtype := yes.dtype.promote no.dtype }
  | access _ => return { ← notes[0]? with shape := [] }
  | update _ | neighbor _ | boundedNeighbor | stats | barrier | identity => notes[0]?
  | convolution weights =>
      let input ← notes[0]?
      return { input with dtype := input.dtype.promote weights.dtype }
  | focal _ op | radial op _ =>
      let input ← notes[0]?
      return { input with dtype := op.resultType input.dtype }
  | zonal op =>
      let input ← notes[0]?
      return { input with dtype := op.resultType input.dtype, shape := [] }
  | blockStats op =>
      let input ← notes[0]?
      return { input with
        dtype := op.resultType input.dtype
        shape := blockCounts input.shape input.block.extents }
  | read _ grid => return ⟨grid.dtype, grid.shape, .unset⟩
  | constant _ | index _ | rand | cast | loop _ | loopTail _ => none

-- Operations that two replays take for the same one make the same of their inputs.
theorem noteFrom_eq_of_same {a b : NodeKind} (h : a.same b = true) (notes : List Note) :
    a.noteFrom notes = b.noteFrom notes ∧ a.isOpen = b.isOpen := by
  unfold same at h
  split at h
  case h_12 | h_13 =>
    simp only [Weights.same, Bool.and_eq_true, decide_eq_true_eq] at h
    simp only [noteFrom, h, isOpen, and_self]
  case h_20 =>
    simp only [Grid.same, Bool.and_eq_true, decide_eq_true_eq] at h
    simp only [noteFrom, h, isOpen, and_self]
  case h_23 => cases h
  all_goals simp_all only [Bool.and_eq_true, decide_eq_true_eq, noteFrom, isOpen, and_self]

end NodeKind

-- A result that is put together cell by cell has the extents of the one that has any.
theorem broadcast_shape {left right shape : List Nat} (h : broadcast left right = .ok shape) :
    shape = if left = [] then right else left := by
  obtain ⟨hleft, hright, hshape⟩ := broadcast_eq_ok h
  split
  · rename_i hempty
    obtain rfl | rfl := hshape
    · obtain hnone | hsame := hright
      · rw [hempty, hnone]
      · exact hsame.symm
    · rfl
  · rename_i hsome
    exact (hleft.resolve_left hsome).symm

-- The extents of a conditional are those of the first of its parts that has any, branches first.
theorem conditional_shape {condition yes no middle shape : List Nat}
    (hmiddle : broadcast condition yes = .ok middle) (hshape : broadcast middle no = .ok shape) :
    shape = ([yes, no, condition].find? (· ≠ [])).getD yes := by
  obtain ⟨_, hyes, _⟩ := broadcast_eq_ok hmiddle
  obtain ⟨hspread, hno, _⟩ := broadcast_eq_ok hshape
  have hfirst := broadcast_shape hmiddle
  have hsecond := broadcast_shape hshape
  by_cases hemptyYes : yes = []
  · by_cases hemptyNo : no = []
    · subst hemptyYes hemptyNo
      by_cases hempty : condition = [] <;> simp_all
    · have hsame := hno.resolve_left hemptyNo
      simp [hemptyYes, hemptyNo, ← hsame]
  · have hsame := hyes.resolve_left hemptyYes
    have hlast := hspread.resolve_left (hsame ▸ hemptyYes)
    simp [← hlast, ← hsame, hemptyYes]

section Drafting

variable {ν : Type} {info : ν → Except MapError Meta} {isEmpty : ν → Bool} {store : Store}
  {draft : Draft} {relation : ν → Note → Prop}

-- The first part of a conditional that has extents settles what else is noted about it.
theorem noteFrom_conditional {condition yes no : Meta} {middle shape : List Nat}
    (hmiddle : broadcast condition.shape yes.shape = .ok middle)
    (hshape : broadcast middle no.shape = .ok shape) :
    NodeKind.conditional.noteFrom [condition.note, yes.note, no.note] =
      some ((([yes, no, condition].find? (·.shape ≠ [])).getD yes).derived
        (yes.dtype.promote no.dtype) shape).note := by
  have hnotes : [yes.note, no.note, condition.note].find? (·.shape ≠ []) =
      ([yes, no, condition].find? (·.shape ≠ [])).map Meta.note :=
    List.find?_map (l := [yes, no, condition])
  have hshapes : [yes.shape, no.shape, condition.shape].find? (· ≠ []) =
      ([yes, no, condition].find? (·.shape ≠ [])).map Meta.shape :=
    List.find?_map (l := [yes, no, condition])
  have hextents := conditional_shape hmiddle hshape
  rw [hshapes, Option.getD_map] at hextents
  simp only [NodeKind.noteFrom, List.getElem?_cons_zero, List.getElem?_cons_succ, Option.bind_eq_bind,
    Option.bind_some, hnotes, Option.getD_map, hextents]
  rfl

-- What is noted about the node of a request follows from what is noted about its inputs.
theorem draftOf_noted {request : Request ν} (standIn : ν)
    (h : draftOf info isEmpty store request = .ok draft)
    (hknown : ∀ node found, info node = .ok found → relation node found.note)
    (hstandIn : ∀ found, draft.standIn = some found → relation standIn found.note)
    (hthere : ∀ node ∈ request.nodes, isEmpty node = true ∨ ∃ note, relation node note) :
    ∃ notes, List.Forall₂ relation (request.inputs isEmpty standIn) notes ∧
      (draft.kind.isOpen = true ∨ draft.kind.noteFrom notes = some draft.info.note) := by
  have hone : ∀ {node : ν} {found : Meta}, info node = .ok found →
      List.Forall₂ relation [node] [found.note] := fun hfound => .cons (hknown _ _ hfound) .nil
  cases draftOf_eq_ok h with
  | constant _ => exact ⟨[], .nil, Or.inl rfl⟩
  | index _ _ => exact ⟨[], .nil, Or.inl rfl⟩
  | rand hfound => exact ⟨_, hone hfound, Or.inl rfl⟩
  | cast _ hfound => exact ⟨_, hone hfound, Or.inl rfl⟩
  | unary hfound => exact ⟨_, hone hfound, Or.inr rfl⟩
  | @binary _ _ _ leftNote _ _ hleft hright hshape =>
      refine ⟨_, .cons (hknown _ _ hleft) (hone hright), Or.inr ?_⟩
      rw [broadcast_shape hshape]
      by_cases hempty : leftNote.shape = [] <;>
        simp [NodeKind.noteFrom, Meta.note, Meta.derived, hempty]
  | conditional hcondition hyes hno hbranches hmiddle hshape =>
      obtain ⟨hreadYes, hreadNo⟩ := branches_read hyes hno hbranches hknown hstandIn
      exact ⟨_, .cons (hknown _ _ hcondition) (.cons hreadYes (.cons hreadNo .nil)),
        Or.inr (noteFrom_conditional hmiddle hshape)⟩
  | access hfound _ => exact ⟨_, hone hfound, Or.inr rfl⟩
  | update hfound hvalue _ _ => exact ⟨_, .cons (hknown _ _ hfound) (hone hvalue), Or.inr rfl⟩
  | neighbor hfound => exact ⟨_, hone hfound, Or.inr rfl⟩
  | boundedNeighbor hfound hrow hcolumn _ _ _ _ =>
      exact ⟨_, .cons (hknown _ _ hfound) (.cons (hknown _ _ hrow) (hone hcolumn)), Or.inr rfl⟩
  | convolution _ hfound _ => exact ⟨_, hone hfound, Or.inr rfl⟩
  | focal _ hfound _ => exact ⟨_, hone hfound, Or.inr rfl⟩
  | zonal hfound => exact ⟨_, hone hfound, Or.inr rfl⟩
  | radial hfound _ => exact ⟨_, hone hfound, Or.inr rfl⟩
  | blockStats hfound => exact ⟨_, hone hfound, Or.inr rfl⟩
  | stats hfound =>
      obtain ⟨notes, hnotes⟩ := exists_summaries hthere
      exact ⟨_, .cons (hknown _ _ hfound) hnotes, Or.inr rfl⟩
  | barrier hfound => exact ⟨_, hone hfound, Or.inr rfl⟩
  | identity hfound => exact ⟨_, hone hfound, Or.inr rfl⟩
  | read _ => exact ⟨[], .nil, Or.inr rfl⟩

end Drafting

def NoteAt (nodes : Table Node) (id : Nat) (note : Note) : Prop :=
  ∃ node, nodes.get? id = some node ∧ node.info.note = note

-- What is noted about a node follows from what is noted about its inputs.
def Settled (nodes : Table Node) (node : Node) : Prop :=
  ∃ notes, List.Forall₂ (NoteAt nodes) node.inputs notes ∧
    (node.kind.isOpen = true ∨ node.kind.noteFrom notes = some node.info.note)

-- Graphs in which this holds of everything but loops and tails.
structure Derived (state : State) : Prop where
  settled : ∀ {id node}, state.nodes.get? id = some node → node.kind.isPlain = true →
    Settled state.nodes node

theorem Node.Keeps.note {old new : Node} (h : old.Keeps new) : new.info.note = old.info.note := by
  rw [h.info]
  rfl

theorem noteAt_of_info {state : State} {id : Nat} {info : Meta} (h : state.info id = .ok info) :
    NoteAt state.nodes id info.note := by
  obtain ⟨node, hnode, rfl⟩ := State.info_eq_ok h
  exact ⟨node, hnode, rfl⟩

theorem Settled.mono {before after : Table Node} {old new : Node} (h : Settled before old)
    (hkeeps : old.Keeps new)
    (hinputs : ∀ input ∈ new.inputs, ∀ note, NoteAt before input note → NoteAt after input note) :
    Settled after new := by
  obtain ⟨notes, hnotes, hsettled⟩ := h
  rw [← hkeeps.inputs] at hnotes
  refine ⟨notes, related_imp hnotes hinputs, ?_⟩
  rw [hkeeps.kind, hkeeps.note]
  exact hsettled

namespace Derived

open State

variable {state next : State}

theorem empty (limit : Nat) (directory : Option Directory) : Derived (.empty limit directory) :=
  ⟨nofun⟩

-- Changes that make no node.
theorem same (h : Derived state) (hconsistent : Consistent state) (hchanges : Changes state next)
    (hnext : next.nextId = state.nextId) : Derived next := by
  refine ⟨fun {id node} hnode hplain => ?_⟩
  have hafter := (hconsistent.changes hchanges).counted
  have hold : ∀ {id node}, next.nodes.get? id = some node →
      ∃ old, state.nodes.get? id = some old ∧ old.Keeps node := fun hnode =>
    hchanges.onward.node hnode (hnext ▸ (hafter.numbered.range hnode).2)
  obtain ⟨old, hfound, hkeeps⟩ := hold hnode
  refine (h.settled hfound (hkeeps.kind ▸ hplain)).mono hkeeps fun input hinput note hnote => ?_
  obtain ⟨kept, hkept⟩ := (Table.contains_iff _ _).mp (hafter.input_live hnode input hinput).1
  obtain ⟨other, hother, hsame⟩ := hold hkept
  obtain ⟨found, hfound, rfl⟩ := hnote
  rw [hother] at hfound
  cases hfound
  exact ⟨kept, hkept, hsame.note⟩

theorem noteAt_created (state : State) (kind : NodeKind) (inputs : List Nat) (info : Meta) :
    NoteAt (state.create kind inputs info).2.nodes state.nextId info.note := by
  have hnode := get?_create state kind inputs info state.nextId
  rw [if_pos rfl] at hnode
  exact ⟨_, hnode, rfl⟩

theorem noteAt_create (hnumbered : Numbered state) (kind : NodeKind) (inputs : List Nat)
    (info : Meta) {id : Nat} {note : Note} (h : NoteAt state.nodes id note) :
    NoteAt (state.create kind inputs info).2.nodes id note := by
  obtain ⟨node, hnode, rfl⟩ := h
  exact ⟨_, hnumbered.kept_create hnode kind inputs info, rfl⟩

theorem create (h : Derived state) (hnumbered : Numbered state) {kind : NodeKind}
    {inputs : List Nat} {info : Meta}
    (hnew : kind.isPlain = true → ∃ notes, List.Forall₂ (NoteAt state.nodes) inputs notes ∧
      (kind.isOpen = true ∨ kind.noteFrom notes = some info.note)) :
    Derived (state.create kind inputs info).2 := by
  refine ⟨fun {id node} hnode hplain => ?_⟩
  have hkept : ∀ input note, NoteAt state.nodes input note →
      NoteAt (state.create kind inputs info).2.nodes input note :=
    fun _ _ => noteAt_create hnumbered kind inputs info
  rw [get?_create] at hnode
  split at hnode
  · cases hnode
    obtain ⟨notes, hnotes, hsettled⟩ := hnew hplain
    exact ⟨notes, hnotes.imp hkept, hsettled⟩
  · obtain ⟨old, hold, rfl⟩ := Option.map_eq_some_iff.mp hnode
    exact (h.settled hold hplain).mono (.users old _) fun input _ note => hkept input note

theorem construct {request : Construction} {id : Address} (h : Derived state)
    (hnumbered : Numbered state) (hnext : state.construct request = .ok (id, next))
    (hnodes : ∀ node ∈ request.nodes, node = Address.null ∨ state.nodes.contains node = true) :
    Derived next := by
  obtain ⟨draft, hdraft, hplaced⟩ := bind_eq_ok.mp hnext
  have hthere : ∀ node ∈ request.nodes, decide (node = Address.null) = true ∨
      ∃ note, NoteAt state.nodes node note := by
    intro node hnode
    refine (hnodes node hnode).imp decide_eq_true fun hlive => ?_
    obtain ⟨info, hinfo⟩ := (Table.contains_iff _ _).mp hlive
    exact ⟨info.info.note, info, hinfo, rfl⟩
  rw [pure_eq_ok, State.place] at hplaced
  cases hstandIn : draft.standIn with
  | none =>
      rw [hstandIn, createZero] at hplaced
      obtain rfl : _ = next := congrArg Prod.snd hplaced
      refine h.create hnumbered fun _ => ?_
      exact draftOf_noted Address.null hdraft (fun _ _ hinfo => noteAt_of_info hinfo)
        (by simp [hstandIn]) hthere
  | some info =>
      rw [hstandIn, createZero] at hplaced
      obtain rfl : _ = next := congrArg Prod.snd hplaced
      let zero := (Scalar.zero info.dtype).toOption.getD (.f32 (Number.narrow 0))
      have hkept : ∀ {node note}, NoteAt state.nodes node note →
          NoteAt (state.create (.constant zero) [] info).2.nodes node note :=
        noteAt_create hnumbered _ _ _
      have hmade : Derived (state.create (.constant zero) [] info).2 :=
        h.create hnumbered fun _ => ⟨[], .nil, Or.inl rfl⟩
      refine hmade.create (hnumbered.create _ _ _) fun _ => ?_
      refine draftOf_noted state.nextId hdraft (fun _ _ hinfo => hkept (noteAt_of_info hinfo))
        (fun found hfound => ?_) fun node hnode => (hthere node hnode).imp_right <|
          Exists.imp fun _ => hkept
      rw [hstandIn] at hfound
      cases hfound
      exact noteAt_created _ _ _ _

-- Loops and tails have notes of their own.
theorem createSpecial (h : Derived state) (hnumbered : Numbered state) {kind : NodeKind}
    (hspecial : kind.isPlain = false) (inputs : List Nat) (info : Meta) :
    Derived (state.create kind inputs info).2 :=
  h.create hnumbered fun hplain => absurd hplain (by rw [hspecial]; exact Bool.false_ne_true)

theorem createTails {loop : Address} {plan : LoopPlan} {tails pairs : List (Nat × Nat)}
    (h : Derived state) (hnumbered : Numbered state)
    (hnext : state.createTails loop plan tails = .ok (pairs, next)) : Derived next := by
  induction tails generalizing state pairs with
  | nil =>
      cases hnext
      exact h
  | cons tail tails ih =>
      obtain ⟨index, feed⟩ := tail
      rw [State.createTails] at hnext
      obtain ⟨_, _, hnext⟩ := bind_eq_ok.mp hnext
      obtain ⟨info, _, hnext⟩ := bind_eq_ok.mp hnext
      obtain ⟨_, _, hnext⟩ := bind_eq_ok.mp hnext
      obtain ⟨⟨rest, last⟩, hrest, hnext⟩ := bind_eq_ok.mp hnext
      cases hnext
      have hmade : Derived (state.create (.loopTail index) [loop] info).2 :=
        h.createSpecial hnumbered rfl _ _
      exact ih hmade (hnumbered.create _ _ _) hrest

theorem placeLoop {plan : LoopPlan} {loop : Address} (h : Derived state)
    (hnumbered : Numbered state) (hnext : state.placeLoop plan = .ok (loop, next)) :
    Derived next := by
  obtain ⟨_, _, hnext⟩ := bind_eq_ok.mp hnext
  obtain ⟨guard, _, hnext⟩ := bind_eq_ok.mp hnext
  obtain ⟨⟨pairs, last⟩, htails, hnext⟩ := bind_eq_ok.mp hnext
  cases hnext
  have hmade : Derived (state.create (.loop plan) (plan.body ++ plan.externals)
      (guard.derived .b8 guard.shape)).2 := h.createSpecial hnumbered rfl _ _
  exact ⟨(hmade.createTails (hnumbered.create _ _ _) htails).settled⟩

theorem call (h : Derived state) (hconsistent : Consistent state) (call : Call)
    (hnodes : ∀ node ∈ call.nodes, node = Address.null ∨ state.nodes.contains node = true) :
    Derived (call.after simulator state) := by
  have hnumbered := hconsistent.counted.numbered
  by_cases hassembles : call = .loopAssemble
  · subst hassembles
    show Derived (simulator.loopAssemble state).2
    rw [Changes.assemble_eq]
    cases hplan : state.recorder.plan state.nodes with
    | error problem => exact h
    | ok plan =>
        have hclosed : Derived { state with recorder := state.recorder.close } := ⟨h.settled⟩
        have hrange : Numbered { state with recorder := state.recorder.close } :=
          ⟨hnumbered.range, hnumbered.next⟩
        exact atomically_induction hclosed fun _ _ hnext => hclosed.placeLoop hrange hnext
  · by_cases hbuilds : ∃ request, call = .construct request
    · obtain ⟨request, rfl⟩ := hbuilds
      exact atomically_induction h fun _ _ hnext => h.construct hnumbered hnext hnodes
    · have hsame := nextId_call state call (fun request heq => hbuilds ⟨request, heq⟩) hassembles
      exact h.same hconsistent (Changes.call call hnumbered hnodes) hsame

end Derived

theorem Reachable.derived {state : State} (h : Reachable state) : Derived state := by
  induction h with
  | empty limit directory => exact .empty limit directory
  | call call hreachable hnodes ih => exact ih.call hreachable.consistent call hnodes
  | restock store _ ih => exact ⟨ih.settled⟩

end MapAlgebra.Graph
