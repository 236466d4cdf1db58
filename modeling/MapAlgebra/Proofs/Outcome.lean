import MapAlgebra.Engine
import Mathlib.Data.List.Forall2

namespace MapAlgebra

variable {ε α β : Type}

-- A chain succeeds when each of its parts does.
theorem bind_eq_ok {x : Except ε α} {f : α → Except ε β} {b : β} :
    (x >>= f) = .ok b ↔ ∃ a, x = .ok a ∧ f a = .ok b := by
  cases x with
  | error problem => simp [bind, Except.bind]
  | ok a => simp [bind, Except.bind]

theorem pure_eq_ok {a b : α} : (pure a : Except ε α) = .ok b ↔ a = b := by
  simp [pure, Except.pure]

theorem bind_ne_error {x : Except ε α} {f : α → Except ε β} {problem : ε}
    (hx : x ≠ .error problem) (hf : ∀ a, x = .ok a → f a ≠ .error problem) :
    (x >>= f) ≠ .error problem := by
  cases x with
  | error other => exact fun h => hx (congrArg Except.error (Except.error.inj h))
  | ok a => exact hf a rfl

-- A check that has to fail before a chain goes on.
theorem unless_eq_ok {condition : Prop} [Decidable condition] {problem : ε} {x : Except ε α}
    {a : α} :
    (if condition then (do throw problem; x) else x) = .ok a ↔ ¬ condition ∧ x = .ok a := by
  by_cases h : condition
  · simp [h, bind, Except.bind, throw, throwThe, MonadExceptOf.throw]
  · simp [h]

theorem map_eq_ok {x : Except ε α} {f : α → β} {b : β} :
    x.map f = .ok b ↔ ∃ a, x = .ok a ∧ f a = b := by
  cases x with
  | error problem => simp [Except.map]
  | ok a => simp [Except.map]

theorem toOption_eq_some {x : Except ε α} {a : α} : x.toOption = some a ↔ x = .ok a := by
  cases x with
  | error problem => simp [Except.toOption]
  | ok b => simp [Except.toOption]

-- A list succeeds when each of its items does.
theorem mapM_eq_ok {items : List α} {f : α → Except ε β} {results : List β} :
    items.mapM f = .ok results ↔
      List.Forall₂ (fun item result => f item = .ok result) items results := by
  induction items generalizing results with
  | nil =>
      rw [List.mapM_nil, pure_eq_ok, List.forall₂_nil_left_iff]
      exact eq_comm
  | cons item items ih =>
      rw [List.mapM_cons]
      simp only [bind_eq_ok, pure_eq_ok, List.forall₂_cons_left_iff, ih]
      constructor
      · rintro ⟨first, hfirst, rest, hrest, rfl⟩
        exact ⟨first, rest, hfirst, hrest, rfl⟩
      · rintro ⟨first, rest, hfirst, hrest, rfl⟩
        exact ⟨first, hfirst, rest, hrest, rfl⟩

theorem mapM_total {items : List α} {f : α → Except ε β}
    (h : ∀ item ∈ items, ∃ result, f item = .ok result) : ∃ results, items.mapM f = .ok results := by
  induction items with
  | nil => exact ⟨[], rfl⟩
  | cons item items ih =>
      obtain ⟨first, hfirst⟩ := h item List.mem_cons_self
      obtain ⟨rest, hrest⟩ := ih fun other hother => h other (List.mem_cons_of_mem _ hother)
      refine ⟨first :: rest, ?_⟩
      rw [List.mapM_cons]
      exact bind_eq_ok.mpr ⟨first, hfirst, bind_eq_ok.mpr ⟨rest, hrest, rfl⟩⟩

theorem mapM_congr {items : List α} {f g : α → Except ε β} (h : ∀ item ∈ items, f item = g item) :
    items.mapM f = items.mapM g := by
  induction items with
  | nil => rfl
  | cons item items ih =>
      rw [List.mapM_cons, List.mapM_cons, h item List.mem_cons_self,
        ih fun other hother => h other (List.mem_cons_of_mem _ hother)]

theorem mapM_eq_of_related {γ : Type} {xs : List α} {ys : List γ} {f : α → Except ε β}
    {g : γ → Except ε β} (h : List.Forall₂ (fun x y => f x = g y) xs ys) :
    xs.mapM f = ys.mapM g := by
  induction h with
  | nil => rfl
  | cons hfirst _ ih => rw [List.mapM_cons, List.mapM_cons, hfirst, ih]

theorem map_eq_of_related {γ : Type} {f : α → γ} {g : β → γ} {xs : List α} {ys : List β}
    (h : List.Forall₂ (fun x y => f x = g y) xs ys) : xs.map f = ys.map g := by
  induction h with
  | nil => rfl
  | cons hfirst _ ih => rw [List.map_cons, List.map_cons, hfirst, ih]

theorem related_of_mem {relation : α → β → Prop} {xs : List α} {ys : List β}
    (h : List.Forall₂ relation xs ys) {x : α} (hx : x ∈ xs) : ∃ y ∈ ys, relation x y := by
  induction h with
  | nil => cases hx
  | @cons first second _ _ hrelated _ ih =>
      obtain rfl | hx := List.mem_cons.mp hx
      · exact ⟨second, List.mem_cons_self, hrelated⟩
      · obtain ⟨y, hy, hrelated⟩ := ih hx
        exact ⟨y, List.mem_cons_of_mem _ hy, hrelated⟩

theorem exists_related {relation : α → β → Prop} {xs : List α} {ys : List β}
    (h : List.Forall₂ relation xs ys) {index : Nat} {x : α} (hx : xs[index]? = some x) :
    ∃ y, ys[index]? = some y ∧ relation x y := by
  induction h generalizing index with
  | nil => cases hx
  | @cons first second _ _ hrelated _ ih =>
      cases index with
      | zero =>
          cases hx
          exact ⟨second, rfl, hrelated⟩
      | succ index => exact ih hx

-- A failure ends a computation, and what happened before it stays.
theorem run_bind {τ α β : Type} (run : Run τ α) (next : α → Run τ β) (state : τ) :
    (run >>= next) state = match run state with
      | (.ok a, after) => next a after
      | (.error problem, after) => (.error problem, after) := by
  show (ExceptT.bind run next) state = _
  simp only [ExceptT.bind, ExceptT.mk, Bind.bind, StateT.bind]
  rcases run state with ⟨result, after⟩
  cases result <;> rfl

theorem run_bind_eq_ok {τ α β : Type} {run : Run τ α} {next : α → Run τ β} {state after : τ} {b : β} :
    (run >>= next) state = (.ok b, after) ↔
      ∃ a middle, run state = (.ok a, middle) ∧ next a middle = (.ok b, after) := by
  rw [run_bind]
  rcases run state with ⟨result, middle⟩
  cases result with
  | error problem =>
      constructor
      · intro h
        cases h
      · rintro ⟨_, _, heq, _⟩
        cases heq
  | ok a =>
      constructor
      · exact fun h => ⟨a, middle, rfl, h⟩
      · rintro ⟨_, _, heq, h⟩
        cases heq
        exact h

-- A failure is that of the first part or that of the second one.
theorem run_bind_eq_error {τ α β : Type} {run : Run τ α} {next : α → Run τ β} {state after : τ}
    {problem : MapError} (h : (run >>= next) state = (.error problem, after)) :
    run state = (.error problem, after) ∨
      ∃ a middle, run state = (.ok a, middle) ∧ next a middle = (.error problem, after) := by
  rw [run_bind] at h
  rcases hrun : run state with ⟨result, middle⟩
  rw [hrun] at h
  cases result with
  | error found =>
      obtain ⟨hfound, rfl⟩ := Prod.mk.inj h
      exact Or.inl (by rw [Except.error.inj hfound])
  | ok a => exact Or.inr ⟨a, middle, rfl, h⟩

theorem run_lift_eq_error {τ α : Type} {result : Except MapError α} {state after : τ}
    {problem : MapError} (h : (liftM result : Run τ α) state = (.error problem, after)) :
    after = state := by
  cases result with
  | error found => exact (Prod.mk.inj h).2.symm
  | ok found => cases (Prod.mk.inj h).1

-- A question that is asked of nothing but its answer.
theorem run_lift_eq_ok {τ α : Type} {result : Except MapError α} {state after : τ} {a : α} :
    (liftM result : Run τ α) state = (.ok a, after) ↔ result = .ok a ∧ after = state := by
  cases result with
  | error problem =>
      constructor
      · intro h
        cases h
      · rintro ⟨h, _⟩
        cases h
  | ok found =>
      constructor
      · intro h
        cases h
        exact ⟨rfl, rfl⟩
      · rintro ⟨h, rfl⟩
        cases h
        rfl

theorem run_tryCatch {τ α : Type} (run : Run τ α) (handle : MapError → Run τ α) (state : τ) :
    tryCatch run handle state = match run state with
      | (.ok a, after) => (.ok a, after)
      | (.error problem, after) => handle problem after := by
  show (ExceptT.tryCatch run handle) state = _
  simp only [ExceptT.tryCatch, ExceptT.mk, Bind.bind, StateT.bind]
  rcases run state with ⟨result, after⟩
  cases result <;> rfl

end MapAlgebra
