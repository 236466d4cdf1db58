import MapAlgebra.Proofs.Loops.Tracing

namespace MapAlgebra.Loop

open MapAlgebra.Graph

-- A call without one of its branches, the other branch, and the call with a step in the place of
-- the one that is absent.
inductive Filled (next : Nat) : Request Ref → Ref → Request Ref → Prop
  | yes {condition no : Ref} (hcondition : condition.isAbsent = false)
      (hno : no.isAbsent = false) :
      Filled next (.conditional condition .absent no) no (.conditional condition (.step next) no)
  | no {condition yes : Ref} (hcondition : condition.isAbsent = false)
      (hyes : yes.isAbsent = false) :
      Filled next (.conditional condition yes .absent) yes (.conditional condition yes (.step next))

variable {next : Nat} {request filled : Request Ref} {like : Ref} {draft : Draft}
  {info : Ref → Except MapError Meta} {store : Store}

theorem Ref.eq_absent {ref : Ref} (h : ref.isAbsent = true) : ref = .absent := by
  cases ref with
  | absent => rfl
  | _ => cases h

-- Only the branches of a conditional may be absent.
theorem draftOf_present (habsent : ∀ note, info .absent ≠ .ok note)
    (hdraft : draftOf info Ref.isAbsent store request = .ok draft)
    (hother : ∀ condition yes no, request ≠ .conditional condition yes no) {ref : Ref}
    (href : ref ∈ request.required) : ref.isAbsent = false := by
  have hall : draftOf info (fun _ => false) store request = .ok draft := by
    cases request with
    | conditional condition yes no => exact absurd rfl (hother condition yes no)
    | _ => exact hdraft
  cases ref with
  | absent =>
      obtain hfalse | ⟨note, hnote⟩ := draftOf_required hall _ href
      · cases hfalse
      · exact absurd hnote (habsent note)
  | _ => rfl

-- A call makes one node, or one of its branches is absent and it makes two.
theorem stepsOf_cases (habsent : ∀ note, info .absent ≠ .ok note)
    (hdraft : draftOf info Ref.isAbsent store request = .ok draft) (next : Nat) :
    (stepsOf next request = [.node request] ∧ ∀ ref ∈ request.required, ref.isAbsent = false) ∨
      ∃ like filled, Filled next request like filled ∧
        stepsOf next request = [.zero like, .node filled] := by
  by_cases hother : ∃ condition yes no, request = .conditional condition yes no
  · obtain ⟨condition, yes, no, rfl⟩ := hother
    cases draftOf_eq_ok hdraft with
    | @conditional _ _ _ conditionNote _ _ _ _ _ _ hcondition hyes hno hbranches =>
        have hthere : condition.isAbsent = false := by
          cases condition with
          | absent => exact absurd hcondition (habsent conditionNote)
          | _ => rfl
        obtain ⟨hempty, rfl⟩ | ⟨hplain, _⟩ := branch_cases hyes
        · obtain ⟨_, rfl⟩ | ⟨hother, _⟩ := branch_cases hno
          · cases hbranches
          · rw [Ref.eq_absent hempty]
            exact Or.inr ⟨_, _, .yes hthere hother, rfl⟩
        · obtain ⟨hempty, _⟩ | ⟨hother, _⟩ := branch_cases hno
          · rw [Ref.eq_absent hempty]
            refine Or.inr ⟨_, _, .no hthere hplain, ?_⟩
            simp only [stepsOf, hplain]
            rfl
          · refine Or.inl ⟨?_, Request.forall_conditional.mpr ⟨hthere, hplain, hother⟩⟩
            simp only [stepsOf, hplain, hother]
            rfl
  · have hnone : ∀ condition yes no, request ≠ .conditional condition yes no :=
      fun condition yes no hsame => hother ⟨condition, yes, no, hsame⟩
    refine Or.inl ⟨?_, fun ref href => draftOf_present habsent hdraft hnone href⟩
    cases request with
    | conditional condition yes no => exact absurd rfl (hnone condition yes no)
    | _ => rfl

namespace Filled

-- What the call is drafted as, and the zero, and what the filled call is once the zero is there.
theorem drafted (h : Filled next request like filled)
    (hdraft : draftOf info Ref.isAbsent store request = .ok draft) :
    ∃ note, info like = .ok note ∧ draft.standIn = some (note.derived note.dtype []) ∧
      ∀ other : Ref → Except MapError Meta, (∀ ref ∈ request.nodes, other ref = info ref) →
        other (.step next) = .ok (note.derived note.dtype []) →
        draftOf other Ref.isAbsent store filled = .ok { draft with standIn := none } := by
  obtain ⟨condition, yes, no, rfl⟩ : ∃ condition yes no, request = .conditional condition yes no := by
    cases h <;> exact ⟨_, _, _, rfl⟩
  cases draftOf_eq_ok hdraft with
  | conditional hcondition hyes hno hbranches hmiddle hshape =>
      cases h with
      | yes _ hthere =>
          cases hyes
          obtain ⟨hempty, -⟩ | ⟨-, _, hnote, rfl⟩ := branch_cases hno
          · cases hthere.symm.trans hempty
          cases hbranches
          refine ⟨_, hnote, rfl, fun other hother hzero => ?_⟩
          obtain ⟨hfirst, -, hlast⟩ := Request.forall_conditional.mp hother
          exact draftConditional_eq (hfirst.trans hcondition) (branch_present rfl hzero)
            (branch_present hthere (hlast.trans hnote)) hmiddle hshape
      | no _ hthere =>
          cases hno
          obtain ⟨hempty, -⟩ | ⟨-, _, hnote, rfl⟩ := branch_cases hyes
          · cases hthere.symm.trans hempty
          cases hbranches
          refine ⟨_, hnote, rfl, fun other hother hzero => ?_⟩
          obtain ⟨hfirst, hsecond, -⟩ := Request.forall_conditional.mp hother
          exact draftConditional_eq (hfirst.trans hcondition)
            (branch_present hthere (hsecond.trans hnote)) (branch_present rfl hzero) hmiddle
            hshape

-- Nothing is absent in the call once it is filled, and it reads what the call reads.
theorem required (h : Filled next request like filled) :
    ∀ ref ∈ filled.required, ref.isAbsent = false := by
  cases h with
  | yes hcondition hno => exact Request.forall_conditional.mpr ⟨hcondition, rfl, hno⟩
  | no hcondition hyes => exact Request.forall_conditional.mpr ⟨hcondition, hyes, rfl⟩

theorem nodes (h : Filled next request like filled) :
    ∀ ref ∈ filled.nodes, ref = .step next ∨ ref ∈ request.nodes := by
  cases h with
  | yes _ _ =>
      exact Request.forall_conditional.mpr
        ⟨Or.inr (by simp [Request.nodes]), Or.inl rfl, Or.inr (by simp [Request.nodes])⟩
  | no _ _ =>
      exact Request.forall_conditional.mpr
        ⟨Or.inr (by simp [Request.nodes]), Or.inr (by simp [Request.nodes]), Or.inl rfl⟩

theorem like_mem (h : Filled next request like filled) :
    like ∈ request.nodes ∧ like.isAbsent = false := by
  cases h with
  | yes _ hno => exact ⟨by simp [Request.nodes], hno⟩
  | no _ hyes => exact ⟨by simp [Request.nodes], hyes⟩

-- The node of the zero is made right before that of the call.
theorem place (h : Filled next request like filled) {state : State} {address : Ref → Address}
    (habsent : address .absent = Address.null) (hnext : address (.step next) = state.nextId)
    (hthere : ∀ ref ∈ request.nodes, ref.isAbsent = false → address ref ≠ Address.null)
    {note : Meta} (hnote : draft.standIn = some note) :
    state.place (request.map address) draft =
      (state.create (.constant ((Scalar.zero note.dtype).toOption.getD (.f32 (Number.narrow 0))))
        [] note).2.create draft.kind ((filled.inputs Ref.isAbsent .absent).map address)
          draft.info := by
  have hinputs : (request.map address).inputs (· = Address.null) state.nextId =
      (filled.inputs Ref.isAbsent .absent).map address := by
    have hstep : (Ref.step next).isAbsent = false := rfl
    cases h with
    | yes _ hno =>
        have hleft := hthere like (by simp [Request.nodes]) hno
        simp [Request.map, Request.inputs, habsent, hleft, hno, hstep, hnext]
    | no _ hyes =>
        have hleft := hthere like (by simp [Request.nodes]) hyes
        simp [Request.map, Request.inputs, habsent, hleft, hyes, hstep, hnext]
  rw [State.place, hnote, ← hinputs]
  rfl

end Filled

end MapAlgebra.Loop
