import MapAlgebra.Proofs.Graph.Single

namespace MapAlgebra

-- An operation that is done at once on numbers, and makes a node of nodes.
inductive Calculation (α : Type) where
  | unary (op : UnaryOp) (operand : α)
  | cast (dtype : DataType) (operand : α)
  | binary (op : BinaryOp) (left right : α)
  | select (condition yes no : α)

namespace Calculation

variable {α β σ : Type}

def map (f : α → β) : Calculation α → Calculation β
  | unary op operand => unary op (f operand)
  | cast dtype operand => cast dtype (f operand)
  | binary op left right => binary op (f left) (f right)
  | select condition yes no => select (f condition) (f yes) (f no)

def operands : Calculation α → List α
  | unary _ operand | cast _ operand => [operand]
  | binary _ left right => [left, right]
  | select condition yes no => [condition, yes, no]

-- The type that a node for the operation has.
def resultType : Calculation Scalar → DataType
  | unary op operand => op.resultType operand.dtype
  | cast dtype _ => dtype
  | binary op left right => op.resultType left.dtype right.dtype
  | select _ yes no => yes.dtype.promote no.dtype

-- A choice is between numbers of one type.
def Uniform : Calculation Scalar → Prop
  | select _ yes no => yes.dtype = no.dtype
  | _ => True

section Runs

variable (engine : Engine σ)

def run : Calculation Operand → Run σ Operand
  | unary op operand => engine.unary operand op
  | cast dtype operand => engine.castOperand operand dtype
  | binary op left right => engine.binary left right op
  | select condition yes no => engine.select condition yes no

def onHost (calculation : Calculation Scalar) : Run σ Operand :=
  (calculation.map .host).run engine

-- Every number is made a node of its own, and the nodes are lent to a step.
def promoting (calculation : Calculation Scalar) (step : Calculation Operand → Run σ α) : Run σ α :=
  match calculation with
  | unary op operand =>
      engine.promoting (.host operand) fun operand => step (unary op (.node operand))
  | cast dtype operand =>
      engine.promoting (.host operand) fun operand => step (cast dtype (.node operand))
  | binary op left right =>
      engine.promoting (.host left) fun left => engine.promoting (.host right) fun right =>
        step (binary op (.node left) (.node right))
  | select condition yes no =>
      engine.promoting (.host condition) fun condition => engine.promoting (.host yes) fun yes =>
        engine.promoting (.host no) fun no => step (select (.node condition) (.node yes) (.node no))

-- The value of a node that was made.
def valueOf (made : Run σ Operand) : Run σ Scalar := do
  engine.lendingOperand (← made) fun made => do (← made.toRaster).ask engine.value

-- The value of the node that the operation makes of nodes for the numbers.
def onNodes (calculation : Calculation Scalar) : Run σ Scalar :=
  calculation.promoting engine fun promoted => valueOf engine (promoted.run engine)

end Runs

-- The same operation, with operands that belong together one by one.
inductive Matches (related : α → β → Prop) : Calculation α → Calculation β → Prop
  | unary {op : UnaryOp} {a : α} {b : β} (operand : related a b) :
      Matches related (.unary op a) (.unary op b)
  | cast {dtype : DataType} {a : α} {b : β} (operand : related a b) :
      Matches related (.cast dtype a) (.cast dtype b)
  | binary {op : BinaryOp} {a a' : α} {b b' : β} (left : related a b) (right : related a' b') :
      Matches related (.binary op a a') (.binary op b b')
  | select {a a' a'' : α} {b b' b'' : β} (condition : related a b) (yes : related a' b')
      (no : related a'' b'') : Matches related (.select a a' a'') (.select b b' b'')

end Calculation

-- A whole number that a double holds exactly.
def Scalar.IsSmall (number : Scalar) : Prop :=
  ∃ n, number.payload = .whole n ∧ n.natAbs ≤ 2 ^ 53

namespace Graph

open Number

variable {state : State} {tally : Tally} {number : Scalar}

-- A node that is held for a number.
def HeldFor (state : State) (tally : Tally) (number : Scalar) (operand : Operand) : Prop :=
  ∃ raster n, operand = .node raster ∧ raster.held ≤ tally ∧ number.payload = .whole n ∧
    Single state raster number.dtype n

theorem HeldFor.later {operand : Operand} {after : State} {more : Tally}
    (h : HeldFor state tally number operand) (hlooped : Looped state) (hbuilds : Builds state after)
    (hbacks : Backs after (tally + more)) (hmore : 0 ≤ more) :
    HeldFor after (tally + more) number operand := by
  obtain ⟨raster, n, rfl, hheld, hpayload, hsingle⟩ := h
  have hheld' := hheld.trans (le_add_of_nonneg_right hmore)
  exact ⟨raster, n, rfl, hheld', hpayload, hsingle.later hlooped hbuilds hbacks hheld'⟩

-- A number is promoted, and a step that is given the node runs with it.
theorem promoting_host (hlooped : Looped state) (hbacks : Backs state tally) (htally : 0 ≤ tally)
    (hsmall : number.IsSmall) :
    ∃ raster middle, Looped middle ∧ Builds state middle ∧ Backs middle (tally + raster.held) ∧
      HeldFor middle (tally + raster.held) number (.node raster) ∧
      ∀ {α : Type} (step : Raster → Run State α),
        (simulator.promoting (.host number) step state).1 = (step raster middle).1 := by
  obtain ⟨n, hpayload, hn⟩ := hsmall
  obtain ⟨raster, middle, hrun, hbuilds, hbacks', hsingle⟩ := Makes.promote hlooped hbacks hpayload hn
  refine ⟨raster, middle, hbuilds.looped hlooped, hbuilds, hbacks', ?_, fun step => ?_⟩
  · exact ⟨raster, n, rfl, le_add_of_nonneg_left htally, hpayload, hsingle⟩
  · rw [Engine.promoting, run_bind, hrun]
    rfl

-- A node for a number of a type holds what is settled in that type.
theorem Gives.settled {run : Run State Operand} {dtype : DataType} {n : Int}
    (h : Gives state tally run number.dtype n) (hdtype : number.dtype = dtype)
    (hpayload : number.payload = .whole n) : Gives state tally run dtype (dtype.settle n) := by
  subst hdtype
  rwa [Scalar.settle_payload hpayload]

section Calculations

variable {calculation : Calculation Scalar}

-- The operands of an operation are promoted one after the other, and each is held until all are.
theorem promoting_operands (hlooped : Looped state) (hbacks : Backs state tally)
    (htally : 0 ≤ tally) (hsmall : ∀ number ∈ calculation.operands, number.IsSmall) :
    ∃ promoted middle more, Looped middle ∧ Backs middle more ∧
      calculation.Matches (HeldFor middle more) promoted ∧
      ∀ {α : Type} (step : Calculation Operand → Run State α),
        (calculation.promoting simulator step state).1 = (step promoted middle).1 := by
  cases calculation with
  | unary op number =>
      obtain ⟨raster, middle, hlooped₁, -, hbacks₁, hheld, hrun⟩ :=
        promoting_host hlooped hbacks htally (hsmall number (by simp [Calculation.operands]))
      exact ⟨_, middle, _, hlooped₁, hbacks₁, .unary hheld, fun step => hrun _⟩
  | cast dtype number =>
      obtain ⟨raster, middle, hlooped₁, -, hbacks₁, hheld, hrun⟩ :=
        promoting_host hlooped hbacks htally (hsmall number (by simp [Calculation.operands]))
      exact ⟨_, middle, _, hlooped₁, hbacks₁, .cast hheld, fun step => hrun _⟩
  | binary op number other =>
      obtain ⟨left, one, hlooped₁, -, hbacks₁, hleft, hrun₁⟩ :=
        promoting_host hlooped hbacks htally (hsmall number (by simp [Calculation.operands]))
      obtain ⟨right, two, hlooped₂, hbuilds₂, hbacks₂, hright, hrun₂⟩ :=
        promoting_host hlooped₁ hbacks₁ (add_nonneg htally left.held_nonneg)
          (hsmall other (by simp [Calculation.operands]))
      have hleft₂ := hleft.later hlooped₁ hbuilds₂ hbacks₂ right.held_nonneg
      exact ⟨_, two, _, hlooped₂, hbacks₂, .binary hleft₂ hright,
        fun step => (hrun₁ _).trans (hrun₂ _)⟩
  | select number first second =>
      obtain ⟨condition, one, hlooped₁, -, hbacks₁, hcondition, hrun₁⟩ :=
        promoting_host hlooped hbacks htally (hsmall number (by simp [Calculation.operands]))
      have htally₁ := add_nonneg htally condition.held_nonneg
      obtain ⟨yes, two, hlooped₂, hbuilds₂, hbacks₂, hyes, hrun₂⟩ :=
        promoting_host hlooped₁ hbacks₁ htally₁ (hsmall first (by simp [Calculation.operands]))
      obtain ⟨no, three, hlooped₃, hbuilds₃, hbacks₃, hno, hrun₃⟩ :=
        promoting_host hlooped₂ hbacks₂ (add_nonneg htally₁ yes.held_nonneg)
          (hsmall second (by simp [Calculation.operands]))
      have hcondition₂ := hcondition.later hlooped₁ hbuilds₂ hbacks₂ yes.held_nonneg
      have hcondition₃ := hcondition₂.later hlooped₂ hbuilds₃ hbacks₃ no.held_nonneg
      have hyes₃ := hyes.later hlooped₂ hbuilds₃ hbacks₃ no.held_nonneg
      exact ⟨_, three, _, hlooped₃, hbacks₃, .select hcondition₃ hyes₃ hno,
        fun step => (hrun₁ _).trans ((hrun₂ _).trans (hrun₃ _))⟩

-- What an operation makes of numbers, next to the node that it makes of nodes for them.
theorem gives_as_on_host {promoted : Calculation Operand} (hlooped : Looped state)
    (hbacks : Backs state tally) (hexact : calculation.resultType.isExact = true)
    (h : calculation.Matches (HeldFor state tally) promoted) (before : State) :
    ∃ result m, calculation.onHost simulator before = (.ok (.host result), before) ∧
      result.payload = .whole m ∧ (calculation.Uniform → result.dtype = calculation.resultType) ∧
      (m.natAbs ≤ 2 ^ 53 → Gives state tally (promoted.run simulator) calculation.resultType
        (calculation.resultType.settle m)) := by
  have hfloat := DataType.isFloat_of_exact hexact
  cases h with
  | @unary op number _ hheld =>
      obtain ⟨raster, n, rfl, hraster, hpayload, hsingle⟩ := hheld
      obtain ⟨result, m, hhost, hdtype, hresult, hmakes⟩ :=
        unary_as_on_host hlooped hbacks hpayload hsingle hfloat
      refine ⟨result, m, ?_, hresult, fun _ => hdtype, fun hsmall => ?_⟩
      · simp only [Calculation.onHost, Calculation.map, Calculation.run, Engine.unary, hhost]
        rfl
      · exact (hmakes hsmall).operand.settled hdtype hresult
  | @cast dtype number _ hheld =>
      obtain ⟨raster, n, rfl, hraster, hpayload, hsingle⟩ := hheld
      obtain ⟨result, m, hhost, hdtype, hresult, hmakes⟩ :=
        cast_as_on_host hlooped hbacks hpayload hsingle hexact
      refine ⟨result, m, ?_, hresult, fun _ => hdtype, fun hsmall => ?_⟩
      · rw [Calculation.resultType] at hhost
        simp only [Calculation.onHost, Calculation.map, Calculation.run, Engine.castOperand, hhost]
        rfl
      · exact (hmakes hsmall).operand.settled hdtype hresult
  | @binary op number other _ _ hleft hright =>
      obtain ⟨left, a, rfl, hheld, hpayload, hsingle⟩ := hleft
      obtain ⟨right, b, rfl, hheld', hpayload', hsingle'⟩ := hright
      obtain ⟨result, m, hhost, hdtype, hresult, hgives⟩ :=
        binary_as_on_host hlooped hbacks hpayload hpayload' hsingle hsingle' hheld hheld' hfloat
      refine ⟨result, m, ?_, hresult, fun _ => hdtype, fun hsmall => ?_⟩
      · simp only [Calculation.onHost, Calculation.map, Calculation.run, Engine.binary, hhost]
        rfl
      · exact (hgives hsmall).settled hdtype hresult
  | @select number first second _ _ _ hcondition hyes hno =>
      obtain ⟨condition, n, rfl, hheld, hpayload, hsingle⟩ := hcondition
      obtain ⟨yes, a, rfl, hheldYes, hfirst, hsingleYes⟩ := hyes
      obtain ⟨no, b, rfl, hheldNo, hsecond, hsingleNo⟩ := hno
      obtain ⟨m, hresult, hgives⟩ := select_as_on_host hlooped hbacks hpayload hfirst hsecond hsingle
        hsingleYes hsingleNo hheld hheldYes hheldNo
      refine ⟨_, m, rfl, hresult, fun huniform => ?_, fun _ => hgives⟩
      have hsame : first.dtype = second.dtype := huniform
      rw [Calculation.resultType, hsame, DataType.promote_self]
      split
      · exact hsame
      · rfl

-- What is read off the node that an operation makes.
theorem value_of_gives {run : Run State Operand} {dtype : DataType} {n : Int}
    (hlooped : Looped state) (hexact : dtype.isExact = true) (h : Gives state tally run dtype n) :
    (Calculation.valueOf simulator run state).1 = Scalar.ofWhole n dtype := by
  obtain ⟨raster, after, hrun, hbuilds, -, hsingle⟩ := h
  rw [Calculation.valueOf, run_bind, hrun]
  exact congrArg Prod.fst (hsingle.value_eq (hbuilds.looped hlooped) hexact)

end Calculations

theorem ofWhole_settle {dtype : DataType} (hexact : dtype.isExact = true) (n : Int) :
    Scalar.ofWhole (dtype.settle n) dtype = Scalar.ofWhole n dtype := by
  obtain ⟨one, hone, hdtype, hpayload⟩ := Scalar.ofWhole_eq_ok hexact (dtype.settle n)
  obtain ⟨other, hother, hdtype', hpayload'⟩ := Scalar.ofWhole_eq_ok hexact n
  rw [DataType.settle_settle, ← hpayload'] at hpayload
  have hsame := Scalar.eq_of_payload (hdtype.trans hdtype'.symm) (hdtype ▸ hexact) hpayload
  rw [hone, hother, hsame]

-- An operation on small whole numbers whose result is no fraction can always be done on the host. If
-- its result is small, the node that the same operation makes of nodes for the numbers has that result
-- as its value, converted to the type of the node. It has this type already, apart from a choice
-- between numbers of two types.
theorem promoted_as_on_host (h : Reachable state) (calculation : Calculation Scalar)
    (hsmall : ∀ number ∈ calculation.operands, number.IsSmall)
    (hexact : calculation.resultType.isExact = true) :
    ∃ result, calculation.onHost simulator state = (.ok (.host result), state) ∧
      (calculation.Uniform → result.dtype = calculation.resultType) ∧
      (result.IsSmall → ∃ value, (calculation.onNodes simulator state).1 = .ok value ∧
        result.convert calculation.resultType = .ok value ∧
        (calculation.Uniform → value = result)) := by
  have hbacks : Backs state 0 := fun _ => Int.natCast_nonneg _
  obtain ⟨promoted, middle, more, hlooped, hmore, hmatches, hrun⟩ :=
    promoting_operands h.looped hbacks (le_refl 0) hsmall
  obtain ⟨result, m, hhost, hpayload, hdtype, hgives⟩ :=
    gives_as_on_host hlooped hmore hexact hmatches state
  refine ⟨result, hhost, hdtype, fun hresult => ?_⟩
  obtain ⟨n, hn, hbound⟩ := hresult
  obtain rfl : m = n := Payload.whole.inj (hpayload.symm.trans hn)
  obtain ⟨value, hvalue, -, -⟩ := Scalar.ofWhole_eq_ok hexact m
  have hconvert : result.convert calculation.resultType = .ok value := by
    rw [Scalar.convert, hpayload]
    exact hvalue
  refine ⟨value, ?_, hconvert, fun huniform => ?_⟩
  · have hread := value_of_gives hlooped hexact (hgives hbound)
    rw [ofWhole_settle hexact, hvalue] at hread
    exact (hrun _).trans hread
  · rw [← hdtype huniform, Scalar.convert_self (Scalar.isExact_of_payload hpayload)] at hconvert
    exact (Except.ok.inj hconvert).symm

-- A byte and a short word are taken from each other, with a result below zero.
theorem difference_promoted :
    ((Calculation.binary .sub (.u8 3) (.s16 5)).onNodes simulator (State.empty 5 none)).1 =
      .ok (.s16 (-2)) := by
  have hsmall : ∀ number ∈ (Calculation.binary .sub (Scalar.u8 3) (.s16 5)).operands,
      number.IsSmall := by
    intro number hnumber
    obtain rfl | rfl : number = .u8 3 ∨ number = .s16 5 := by
      simpa [Calculation.operands] using hnumber
    · exact ⟨3, rfl, by decide⟩
    · exact ⟨5, rfl, by decide⟩
  obtain ⟨result, hhost, -, hvalue⟩ :=
    promoted_as_on_host (Reachable.empty 5 none) (.binary .sub (.u8 3) (.s16 5)) hsmall rfl
  have hresult : (Calculation.binary .sub (.u8 3) (.s16 5)).onHost simulator (State.empty 5 none) =
      (.ok (.host (.s16 (-2))), State.empty 5 none) := rfl
  obtain rfl : Scalar.s16 (-2) = result :=
    Operand.host.inj (Except.ok.inj (congrArg Prod.fst (hresult.symm.trans hhost)))
  obtain ⟨value, hread, -, hsame⟩ := hvalue ⟨-2, rfl, by decide⟩
  rw [hread, hsame trivial]

-- On the host the choice stays a byte, and among nodes it becomes a word.
theorem mixed_choice_differs :
    (Calculation.select (.bool true) (.s8 1) (.s32 2)).onHost simulator (State.empty 5 none) =
        (.ok (.host (.s8 1)), State.empty 5 none) ∧
      ((Calculation.select (.bool true) (.s8 1) (.s32 2)).onNodes simulator
        (State.empty 5 none)).1.toOption.map (fun value => (value.dtype, value.whole?)) =
        some (.s32, some 1) := by
  refine ⟨rfl, ?_⟩
  decide +kernel

end Graph

end MapAlgebra
