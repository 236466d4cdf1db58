import MapAlgebra.Proofs.Graph.Delivered
import MapAlgebra.Raster.Create

namespace MapAlgebra.Graph

-- Extents that engines report as they are: on no more axes than there may be, each a signed word.
structure Reportable (extents : List Nat) : Prop where
  rank : extents.length ≤ maxRank
  words : ∀ extent ∈ extents, extent < 2 ^ 31

instance (extents : List Nat) : Decidable (Reportable extents) :=
  decidable_of_iff (extents.length ≤ maxRank ∧ ∀ extent ∈ extents, extent < 2 ^ 31)
    ⟨fun h => ⟨h.1, h.2⟩, fun h => ⟨h.rank, h.words⟩⟩

namespace Reportable

theorem single : Reportable [] := ⟨Nat.zero_le _, nofun⟩

theorem size_eq {info : Meta} (h : Reportable info.shape) : info.size.extents = info.shape :=
  info.size_eq h.rank h.words

theorem broadcast {left right shape : List Nat} (hleft : Reportable left) (hright : Reportable right)
    (h : broadcast left right = .ok shape) : Reportable shape := by
  obtain ⟨_, _, rfl | rfl⟩ := broadcast_eq_ok h
  · exact hleft
  · exact hright

-- An axis has no more blocks than cells, but for an axis without cells.
theorem blockCounts_le {extents blocks : List Nat} {bound : Nat} (hbound : 1 ≤ bound)
    (h : ∀ extent ∈ extents, extent ≤ bound) : ∀ count ∈ blockCounts extents blocks, count ≤ bound := by
  induction extents generalizing blocks with
  | nil => exact nofun
  | cons extent extents ih =>
      obtain ⟨hfirst, hrest⟩ := List.forall_mem_cons.mp h
      cases blocks with
      | nil => exact List.forall_mem_cons.mpr ⟨hbound, ih hrest⟩
      | cons block blocks =>
          refine List.forall_mem_cons.mpr ⟨?_, ih hrest⟩
          by_cases hblock : 0 < block
          · have hcount : (extent + block - 1) / block ≤ extent := by
              have hle : extent ≤ block * extent := Nat.le_mul_of_pos_left extent hblock
              refine Nat.le_of_lt_succ (Nat.div_lt_of_lt_mul ?_)
              rw [Nat.mul_succ]
              omega
            rw [if_pos hblock]
            exact hcount.trans hfirst
          · rw [if_neg hblock]
            exact hbound

theorem blocks {extents : List Nat} (h : Reportable extents) (blocks : List Nat) :
    Reportable (blockCounts extents blocks) where
  rank := (length_blockCounts extents blocks).symm ▸ h.rank
  words count hcount := by
    have hle : count ≤ 2 ^ 31 - 1 := blockCounts_le (by omega)
      (fun extent hextent => Nat.le_sub_one_of_lt (h.words extent hextent)) count hcount
    omega

end Reportable

-- Whether what a request brings along of its own is reportable: the extents of a layout, and those
-- of the grid that is read.
def isMeasured {ν : Type} (store : Store) : Request ν → Bool
  | .constant _ layout | .index layout _ => Reportable layout.size.extents
  | .read resource => (store.load resource).toOption.all fun grid => Reportable grid.shape
  | _ => true

section Drafting

variable {ν : Type} {info : ν → Except MapError Meta} {isEmpty : ν → Bool} {store : Store}
  {draft : Draft}

theorem reportable_branches {yes no : Option Meta} {yesInfo noInfo : Meta}
    (hyes : ∀ note, yes = some note → Reportable note.shape)
    (hno : ∀ note, no = some note → Reportable note.shape)
    (h : branches yes no = .ok (yesInfo, noInfo)) :
    Reportable yesInfo.shape ∧ Reportable noInfo.shape := by
  cases yes with
  | none =>
      cases no with
      | none => cases h
      | some note =>
          cases h
          exact ⟨.single, hno _ rfl⟩
  | some note =>
      cases no with
      | none =>
          cases h
          exact ⟨hyes _ rfl, .single⟩
      | some other =>
          cases h
          exact ⟨hyes _ rfl, hno _ rfl⟩

theorem reportable_branch {node : ν} {note : Option Meta}
    (hknown : ∀ node note, info node = .ok note → Reportable note.shape)
    (h : branch info isEmpty node = .ok note) : ∀ found, note = some found →
      Reportable found.shape := by
  obtain ⟨_, rfl⟩ | ⟨_, other, hother, rfl⟩ := branch_cases h
  · exact nofun
  · rintro found ⟨⟩
    exact hknown _ _ hother

-- What is made of reportable extents is reportable.
theorem draftOf_reportable {request : Request ν} (hmeasured : isMeasured store request = true)
    (h : draftOf info isEmpty store request = .ok draft)
    (hknown : ∀ node note, info node = .ok note → Reportable note.shape) :
    Reportable draft.info.shape := by
  cases draftOf_eq_ok h with
  | constant _ => exact of_decide_eq_true hmeasured
  | index _ _ => exact of_decide_eq_true hmeasured
  | binary hleft hright hshape => exact (hknown _ _ hleft).broadcast (hknown _ _ hright) hshape
  | conditional hcondition hyes hno hbranches hmiddle hshape =>
      obtain ⟨hfirst, hsecond⟩ := reportable_branches (reportable_branch hknown hyes)
        (reportable_branch hknown hno) hbranches
      exact ((hknown _ _ hcondition).broadcast hfirst hmiddle).broadcast hsecond hshape
  | access _ _ | zonal _ => exact .single
  | blockStats hnote => exact (hknown _ _ hnote).blocks _
  | read hgrid =>
      rw [isMeasured, hgrid] at hmeasured
      exact of_decide_eq_true hmeasured
  | rand hnote | cast _ hnote | unary hnote | update hnote _ _ _ | neighbor hnote
  | boundedNeighbor hnote _ _ _ _ _ _ | convolution _ hnote _ | focal _ hnote _ | radial hnote _
  | stats hnote | barrier hnote | identity hnote =>
      have hnoted := hknown _ _ hnote
      exact hnoted

end Drafting

-- Every node is noted with reportable extents.
def Reported (state : State) : Prop :=
  ∀ id node, state.nodes.get? id = some node → Reportable node.info.shape

namespace Reported

variable {state next : State}

theorem info (h : Reported state) {node : Address} {note : Meta} (hnote : state.info node = .ok note) :
    Reportable note.shape := by
  obtain ⟨found, hfound, rfl⟩ := State.info_eq_ok hnote
  exact h _ _ hfound

-- Calls that make no node leave what is noted alone.
theorem same (h : Reported state) (hconsistent : Consistent state) (hchanges : Changes state next)
    (hnext : next.nextId = state.nextId) : Reported next := by
  intro id node hnode
  have hlt := ((hconsistent.changes hchanges).counted.numbered.range hnode).2
  obtain ⟨old, hold, hkeeps⟩ := hchanges.onward.node hnode (hnext ▸ hlt)
  have hshape : node.info.shape = old.info.shape := congrArg Form.shape hkeeps.form
  exact hshape ▸ h id old hold

theorem create (h : Reported state) (kind : NodeKind) (inputs : List Nat) {info : Meta}
    (hinfo : Reportable info.shape) : Reported (state.create kind inputs info).2 := by
  intro id node hnode
  rw [State.get?_create] at hnode
  split at hnode
  · cases hnode
    exact hinfo
  · obtain ⟨old, hold, rfl⟩ := Option.map_eq_some_iff.mp hnode
    have hkept := h id old hold
    exact hkept

theorem construct (h : Reported state) {request : Construction} {node : Address}
    (hmeasured : isMeasured state.store request = true)
    (hnext : state.construct request = .ok (node, next)) : Reported next := by
  obtain ⟨draft, hdraft, hplaced⟩ := bind_eq_ok.mp hnext
  have hinfo := draftOf_reportable hmeasured hdraft fun _ _ hnote => h.info hnote
  rw [pure_eq_ok, State.place] at hplaced
  cases hstandIn : draft.standIn with
  | none =>
      rw [hstandIn, State.createZero] at hplaced
      obtain rfl : _ = next := congrArg Prod.snd hplaced
      exact h.create _ _ hinfo
  | some zero =>
      rw [hstandIn, State.createZero] at hplaced
      obtain rfl : _ = next := congrArg Prod.snd hplaced
      have hzero : Reportable zero.shape := draftOf_standIn_single hdraft hstandIn ▸ .single
      exact (h.create _ _ hzero).create _ _ hinfo

-- A tail is noted as the step that feeds its carried value.
theorem createTails {loop : Address} {plan : LoopPlan} {tails pairs : List (Nat × Nat)}
    (h : Reported state) (hnext : state.createTails loop plan tails = .ok (pairs, next)) :
    Reported next := by
  induction tails generalizing state pairs with
  | nil =>
      cases hnext
      exact h
  | cons tail tails ih =>
      obtain ⟨index, feed⟩ := tail
      rw [State.createTails] at hnext
      obtain ⟨_, _, hnext⟩ := bind_eq_ok.mp hnext
      obtain ⟨info, hinfo, hnext⟩ := bind_eq_ok.mp hnext
      obtain ⟨_, _, hnext⟩ := bind_eq_ok.mp hnext
      obtain ⟨⟨rest, last⟩, hrest, hnext⟩ := bind_eq_ok.mp hnext
      cases hnext
      exact ih (h.create _ _ (h.info hinfo)) hrest

theorem placeLoop {plan : LoopPlan} {loop : Address} (h : Reported state)
    (hnext : state.placeLoop plan = .ok (loop, next)) : Reported next := by
  obtain ⟨_, _, hnext⟩ := bind_eq_ok.mp hnext
  obtain ⟨guard, hguard, hnext⟩ := bind_eq_ok.mp hnext
  obtain ⟨⟨pairs, last⟩, htails, hnext⟩ := bind_eq_ok.mp hnext
  cases hnext
  have hshape : Reportable guard.shape := h.info hguard
  have hmade : Reported (state.create (.loop plan) (plan.body ++ plan.externals)
      (guard.derived .b8 guard.shape)).2 := h.create _ _ hshape
  have hlast := hmade.createTails htails
  exact hlast

end Reported

def isMeasuredCall (store : Store) : Call → Bool
  | .construct request => Graph.isMeasured store request
  | _ => true

theorem Reported.call {state : State} (h : Reported state) (hconsistent : Consistent state)
    {call : Call} (hnodes : ∀ node ∈ call.nodes, node = Address.null ∨
      state.nodes.contains node = true)
    (hmeasured : isMeasuredCall state.store call = true) : Reported (call.after simulator state) := by
  by_cases hassembles : call = .loopAssemble
  · subst hassembles
    show Reported (simulator.loopAssemble state).2
    rw [Changes.assemble_eq]
    cases hplan : state.recorder.plan state.nodes with
    | error problem => exact h
    | ok plan =>
        have hclosed : Reported { state with recorder := state.recorder.close } := h
        exact atomically_induction hclosed fun _ _ hnext => hclosed.placeLoop hnext
  · by_cases hbuilds : ∃ request, call = .construct request
    · obtain ⟨request, rfl⟩ := hbuilds
      exact atomically_induction h fun _ _ hnext => h.construct hmeasured hnext
    · have hsame := nextId_call state call (fun request heq => hbuilds ⟨request, heq⟩) hassembles
      exact h.same hconsistent (Changes.call call hconsistent.counted.numbered hnodes) hsame

end MapAlgebra.Graph
