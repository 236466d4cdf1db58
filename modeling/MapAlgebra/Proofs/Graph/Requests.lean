import MapAlgebra.Proofs.Graph.Drafted

namespace MapAlgebra

namespace Request

variable {ν μ : Type}

-- The same request with other names for the nodes.
def map (f : ν → μ) : Request ν → Request μ
  | constant value layout => constant value layout
  | index layout dimension => index layout dimension
  | rand seed dtype order => rand (f seed) dtype order
  | cast node dtype => cast (f node) dtype
  | unary node op => unary (f node) op
  | binary left right op => binary (f left) (f right) op
  | conditional condition yes no => conditional (f condition) (f yes) (f no)
  | access node position => access (f node) position
  | update node value position => update (f node) (f value) position
  | neighbor node offset => neighbor (f node) offset
  | boundedNeighbor node rows columns => boundedNeighbor (f node) (f rows) (f columns)
  | convolution node kernel shape => convolution (f node) kernel shape
  | focal node kernel shape op => focal (f node) kernel shape op
  | zonal node op => zonal (f node) op
  | radial node op origin => radial (f node) op origin
  | blockStats node op => blockStats (f node) op
  | stats node lowest highest mean deviation =>
      stats (f node) (f lowest) (f highest) (f mean) (f deviation)
  | barrier node => barrier (f node)
  | identity node => identity (f node)
  | read resource => read resource

-- The nodes of a request that are looked at, unless they are empty branches of a conditional: all
-- but the summaries.
def required : Request ν → List ν
  | stats node _ _ _ _ => [node]
  | request => request.nodes

theorem nodes_map (request : Request ν) (f : ν → μ) :
    (request.map f).nodes = request.nodes.map f := by
  cases request <;> rfl

theorem map_map {κ : Type} (request : Request ν) (f : ν → μ) (g : μ → κ) :
    (request.map f).map g = request.map (g ∘ f) := by
  cases request <;> rfl

theorem map_congr {request : Request ν} {f g : ν → μ} (h : ∀ node ∈ request.nodes, f node = g node) :
    request.map f = request.map g := by
  cases request <;> simp_all [map, nodes]

theorem required_subset (request : Request ν) : request.required ⊆ request.nodes := by
  cases request <;> simp [required, nodes]

theorem forall_conditional {condition yes no : ν} {p : ν → Prop} :
    (∀ node ∈ (conditional condition yes no).nodes, p node) ↔ p condition ∧ p yes ∧ p no := by
  simp [nodes]

-- Whatever the new node reads was named or stands in.
theorem mem_inputs {request : Request ν} {isEmpty : ν → Bool} {standIn node : ν}
    (h : node ∈ request.inputs isEmpty standIn) : node ∈ request.nodes ∨ node = standIn := by
  cases request with
  | conditional condition yes no =>
      simp only [inputs, List.mem_cons, List.not_mem_nil, or_false] at h
      simp only [nodes, List.mem_cons, List.not_mem_nil, or_false]
      grind
  | stats node lowest highest mean deviation =>
      obtain rfl | hsummary := List.mem_cons.mp h
      · exact Or.inl List.mem_cons_self
      · exact Or.inl (List.mem_cons_of_mem _ (List.mem_of_mem_filter hsummary))
  | _ => exact Or.inl h

-- What the new node reads, when nothing that is needed is missing.
theorem inputs_map {request : Request ν} {f : ν → μ} {isEmpty : μ → Bool} (standIn : ν)
    (other : μ) (h : ∀ node ∈ request.required, isEmpty (f node) = false) :
    (request.map f).inputs isEmpty other = (request.inputs (isEmpty ∘ f) standIn).map f := by
  cases request with
  | conditional condition yes no =>
      obtain ⟨-, hyes, hno⟩ := forall_conditional.mp h
      simp only [map, inputs, Function.comp, hyes, hno]
      rfl
  | stats node lowest highest mean deviation =>
      have hsummaries : ([lowest, highest, mean, deviation].map f).filter (!isEmpty ·) =
          ([lowest, highest, mean, deviation].filter fun node => !isEmpty (f node)).map f :=
        List.filter_map
      exact congrArg (f node :: ·) hsummaries
  | _ => rfl

theorem inputs_congr {request : Request ν} {isEmpty isAbsent : ν → Bool}
    (h : ∀ node ∈ request.nodes, isEmpty node = isAbsent node) (standIn : ν) :
    request.inputs isEmpty standIn = request.inputs isAbsent standIn := by
  cases request with
  | conditional condition yes no =>
      obtain ⟨-, hyes, hno⟩ := forall_conditional.mp h
      simp only [inputs, hyes, hno]
  | stats node lowest highest mean deviation =>
      refine congrArg (node :: ·) (List.filter_congr fun summary hsummary => ?_)
      rw [h summary (List.mem_cons_of_mem _ hsummary)]
  | _ => rfl

-- The new node reads everything that is named and there.
theorem mem_inputs_of_present {request : Request ν} {isEmpty : ν → Bool} {node : ν} (standIn : ν)
    (h : node ∈ request.nodes) (hthere : isEmpty node = false) :
    node ∈ request.inputs isEmpty standIn := by
  cases request with
  | conditional condition yes no =>
      simp only [nodes, List.mem_cons, List.not_mem_nil, or_false] at h
      simp only [inputs, List.mem_cons, List.not_mem_nil, or_false]
      grind
  | stats node lowest highest mean deviation =>
      obtain rfl | h := List.mem_cons.mp h
      · exact List.mem_cons_self
      · exact List.mem_cons_of_mem _ (List.mem_filter.mpr ⟨h, by rw [hthere]; rfl⟩)
  | _ => exact h

-- Everything that the new node reads is there.
theorem inputs_present {request : Request ν} {isEmpty : ν → Bool} (standIn : ν)
    (h : ∀ node ∈ request.required, isEmpty node = false) {node : ν}
    (hnode : node ∈ request.inputs isEmpty standIn) :
    node ∈ request.nodes ∧ isEmpty node = false := by
  cases request with
  | conditional condition yes no =>
      obtain ⟨-, hyes, hno⟩ := forall_conditional.mp h
      have hsame : (conditional condition yes no).inputs isEmpty standIn =
          (conditional condition yes no).nodes := by
        simp only [inputs, nodes, hyes, hno]
        rfl
      rw [hsame] at hnode
      exact ⟨hnode, h node hnode⟩
  | stats node lowest highest mean deviation =>
      obtain rfl | hnode := List.mem_cons.mp hnode
      · exact ⟨List.mem_cons_self, h _ List.mem_cons_self⟩
      · obtain ⟨hmember, hthere⟩ := List.mem_filter.mp hnode
        exact ⟨List.mem_cons_of_mem _ hmember, by simpa using hthere⟩
  | _ => exact ⟨hnode, h node hnode⟩

end Request

namespace Graph

variable {ν μ : Type}

-- Drafting a request looks at its nodes only through what is known about them.
theorem draftOf_map (info : μ → Except MapError Meta) (isEmpty : μ → Bool) (store : Store)
    (request : Request ν) (f : ν → μ) :
    draftOf info isEmpty store (request.map f) =
      draftOf (info ∘ f) (isEmpty ∘ f) store request := by
  cases request <;> rfl

theorem draftOf_congr {info other : ν → Except MapError Meta} {isEmpty isAbsent : ν → Bool}
    {store : Store} {request : Request ν}
    (h : ∀ node ∈ request.nodes, info node = other node ∧ isEmpty node = isAbsent node) :
    draftOf info isEmpty store request = draftOf other isAbsent store request := by
  cases request <;> simp_all [draftOf, Request.nodes, draftLike, draftFocal, draftConditional,
    draftBoundedNeighbor, branch]

-- The operation of a new node depends on nothing but the request and the store.
theorem draftOf_kind {info other : ν → Except MapError Meta} {isEmpty isAbsent : ν → Bool}
    {store : Store} {request : Request ν} {draft redraft : Draft}
    (h : draftOf info isEmpty store request = .ok draft)
    (hagain : draftOf other isAbsent store request = .ok redraft) : draft.kind = redraft.kind := by
  cases draftOf_eq_ok h <;> cases draftOf_eq_ok hagain <;> grind

-- Nothing stands in for what is there.
theorem draftOf_standIn {info : ν → Except MapError Meta} {isEmpty : ν → Bool} {store : Store}
    {request : Request ν} {draft : Draft} (h : draftOf info isEmpty store request = .ok draft)
    (hthere : ∀ node ∈ request.required, isEmpty node = false) : draft.standIn = none := by
  cases draftOf_eq_ok h with
  | conditional _ hyes hno =>
      obtain ⟨-, hthereYes, hthereNo⟩ := Request.forall_conditional.mp hthere
      rw [isNone_of_branch hyes, isNone_of_branch hno, hthereYes, hthereNo]
      rfl
  | _ => rfl

-- What stands in for an empty branch is read by the new node.
theorem draftOf_standIn_read {info : ν → Except MapError Meta} {isEmpty : ν → Bool} {store : Store}
    {request : Request ν} {draft : Draft} (h : draftOf info isEmpty store request = .ok draft)
    (hsome : draft.standIn ≠ none) (standIn : ν) : standIn ∈ request.inputs isEmpty standIn := by
  cases draftOf_eq_ok h with
  | @conditional _ yes no _ _ _ _ _ _ _ _ hyes hno =>
      rw [isNone_of_branch hyes, isNone_of_branch hno] at hsome
      simp only [Request.inputs]
      cases hemptyYes : isEmpty yes with
      | true => simp
      | false =>
          cases hemptyNo : isEmpty no with
          | true => simp
          | false =>
              rw [hemptyYes, hemptyNo] at hsome
              exact absurd rfl hsome
  | _ => exact absurd rfl hsome

-- Whatever a request cannot do without is known, or is a branch that may be empty.
theorem draftOf_required {info : ν → Except MapError Meta} {isEmpty : ν → Bool} {store : Store}
    {request : Request ν} {draft : Draft} (h : draftOf info isEmpty store request = .ok draft) :
    ∀ node ∈ request.required, isEmpty node = true ∨ ∃ found, info node = .ok found := by
  cases draftOf_eq_ok h with
  | conditional hcondition hyes hno =>
      refine Request.forall_conditional.mpr ⟨Or.inr ⟨_, hcondition⟩, ?_, ?_⟩
      · exact (branch_cases hyes).imp And.left fun ⟨_, found, hfound, _⟩ => ⟨found, hfound⟩
      · exact (branch_cases hno).imp And.left fun ⟨_, found, hfound, _⟩ => ⟨found, hfound⟩
  | _ => grind [Request.required, Request.nodes]

end Graph

end MapAlgebra
