import MapAlgebra.Proofs.Graph.Drafted
import MapAlgebra.Proofs.Graph.Table

namespace MapAlgebra.Graph

-- Whether a node computes its grid from its inputs alone.
def NodeKind.isPlain : NodeKind → Bool
  | .loop _ | .loopTail _ => false
  | _ => true

theorem draftOf_plain {ν : Type} {info : ν → Except MapError Meta} {isEmpty : ν → Bool}
    {store : Store} {request : Request ν} {draft : Draft}
    (h : draftOf info isEmpty store request = .ok draft) : draft.kind.isPlain = true := by
  cases draftOf_eq_ok h <;> rfl

namespace State

theorem find_eq_ok {state : State} {node : Address} {info : Node}
    (h : state.find node = .ok info) : node ≠ Address.null ∧ state.nodes.get? node = some info := by
  unfold find at h
  split at h
  · cases h
  · rename_i hnull
    split at h
    · rename_i found hfound
      cases h
      exact ⟨hnull, hfound⟩
    · cases h

theorem info_eq_ok {state : State} {node : Address} {info : Meta}
    (h : state.info node = .ok info) :
    ∃ found, state.nodes.get? node = some found ∧ found.info = info := by
  obtain ⟨found, hfound, hinfo⟩ := bind_eq_ok.mp h
  cases hinfo
  exact ⟨found, (find_eq_ok hfound).2, rfl⟩

theorem contains_of_info {state : State} {node : Address} {info : Meta}
    (h : state.info node = .ok info) : state.nodes.contains node = true := by
  obtain ⟨found, hfound, _⟩ := info_eq_ok h
  exact (Table.contains_iff _ _).mpr ⟨found, hfound⟩

theorem draft_plain {state : State} {request : Construction} {draft : Draft}
    (h : state.draft request = .ok draft) : draft.kind.isPlain = true := draftOf_plain h

theorem branch_eq_ok {state : State} {node : Address} {found : Option Meta}
    (h : branch state.info (· = Address.null) node = .ok found) (standIn : Address) :
    state.nodes.contains (if node = Address.null then standIn else node) = true ∨
      ((if node = Address.null then standIn else node) = standIn ∧ found = none) := by
  obtain ⟨hnull, rfl⟩ | ⟨hthere, _, hinfo, _⟩ := branch_cases h
  · exact Or.inr ⟨if_pos (of_decide_eq_true hnull), rfl⟩
  · rw [if_neg (of_decide_eq_false hthere)]
    exact Or.inl (contains_of_info hinfo)

theorem draft_inputs {state : State} {request : Construction} {draft : Draft}
    (h : state.draft request = .ok draft)
    (hnodes : ∀ node ∈ request.nodes, node = Address.null ∨ state.nodes.contains node = true)
    (standIn : Address) :
    ∀ input ∈ request.inputs (· = Address.null) standIn,
      state.nodes.contains input = true ∨ (input = standIn ∧ draft.standIn.isSome = true) := by
  cases draftOf_eq_ok h with
  | @conditional _ _ _ _ _ _ _ noFound _ _ hcondition hyes hno =>
      intro input hinput
      simp only [Request.inputs, decide_eq_true_eq, List.mem_cons, List.not_mem_nil, or_false]
        at hinput
      obtain rfl | rfl | rfl := hinput
      · exact Or.inl (contains_of_info hcondition)
      · refine (branch_eq_ok hyes standIn).imp_right fun ⟨hsame, hnone⟩ => ⟨hsame, ?_⟩
        rw [if_pos (by rw [hnone]; rfl)]
        rfl
      · refine (branch_eq_ok hno standIn).imp_right fun ⟨hsame, hnone⟩ => ⟨hsame, ?_⟩
        rw [if_pos (c := noFound.isNone = true) (by rw [hnone]; rfl)]
        split <;> rfl
  | _ => grind [contains_of_info, Request.inputs, Request.nodes]

end State

end MapAlgebra.Graph
