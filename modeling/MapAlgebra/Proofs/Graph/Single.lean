import MapAlgebra.Proofs.Graph.Addressed
import MapAlgebra.Proofs.Graph.Hands
import MapAlgebra.Proofs.Op.Cells

namespace MapAlgebra

theorem Grid.tabulate_single {dtype : DataType} {f : Nat → Except MapError Float} {x : Float}
    (h : f 0 = .ok x) : tabulate dtype [] f = .ok ⟨dtype, [], #[dtype.normalize x]⟩ := by
  have hcells : (Array.range (cellCount [])).mapM f = .ok #[x] := by
    have hrange : Array.range (cellCount []) = #[0] := rfl
    rw [hrange]
    simp [h]
  have hmap : #[x].map dtype.normalize = #[dtype.normalize x] := List.map_toArray
  have hcount : #[x].size = cellCount [] := rfl
  rw [tabulate, hcells]
  show ofCells dtype [] #[x] = _
  rw [ofCells, if_pos hcount, hmap]

namespace Graph

open Number

-- A handle on a single value that is a whole number.
def Single (state : State) (raster : Raster) (dtype : DataType) (n : Int) : Prop :=
  ∃ node info x, raster.node = some node ∧ state.valueOf node = ⟨.ok info, .ok ⟨dtype, [], #[x]⟩⟩ ∧
    info.dtype = dtype ∧ info.shape = [] ∧ IsWhole x n

variable {state before after : State} {tally : Tally} {raster : Raster} {dtype : DataType} {n : Int}

-- What a held node is worth does not change.
theorem Single.later (h : Single before raster dtype n) (hlooped : Looped before)
    (hbuilds : Builds before after) (hbacks : Backs after tally) (hheld : raster.held ≤ tally) :
    Single after raster dtype n := by
  obtain ⟨node, info, x, hnode, hvalue, hrest⟩ := h
  have hlive := State.contains_of_info (congrArg Value.info hvalue)
  have hkept := hbuilds.valueOf_held hlooped hbacks hnode hheld hlive
  exact ⟨node, info, x, hnode, hkept.trans hvalue, hrest⟩

-- A run that makes a node for a single value that is a whole number. It takes one handle.
def Makes (state : State) (tally : Tally) (run : Run State Raster) (dtype : DataType) (n : Int) :
    Prop :=
  ∃ raster after, run state = (.ok raster, after) ∧ Builds state after ∧
    Backs after (tally + raster.held) ∧ Single after raster dtype n

-- The same for an operation that gives an operand.
def Gives (state : State) (tally : Tally) (run : Run State Operand) (dtype : DataType) (n : Int) :
    Prop :=
  ∃ raster after, run state = (.ok (.node raster), after) ∧ Builds state after ∧
    Backs after (tally + raster.held) ∧ Single after raster dtype n

-- What is noted about a single value that is a whole number, and the value.
def IsSingle (dtype : DataType) (n : Int) (info : Meta) (grid : Except MapError Grid) : Prop :=
  info.dtype = dtype ∧ info.shape = [] ∧ ∃ x, grid = .ok ⟨dtype, [], #[x]⟩ ∧ IsWhole x n

theorem single_iff_handed : (Builds before after ∧ Backs after (tally + raster.held) ∧
    Single after raster dtype n) ↔ Handed before tally raster (IsSingle dtype n) after := by
  constructor
  · rintro ⟨hbuilds, hbacks, node, info, x, hnode, hvalue, hdtype, hshape, hx⟩
    exact ⟨hbuilds, hbacks, node, info, _, hnode, hvalue, hdtype, hshape, x, rfl, hx⟩
  · rintro ⟨hbuilds, hbacks, node, info, _, hnode, hvalue, hdtype, hshape, x, rfl, hx⟩
    exact ⟨hbuilds, hbacks, node, info, x, hnode, hvalue, hdtype, hshape, hx⟩

theorem makes_iff_hands {run : Run State Raster} :
    Makes state tally run dtype n ↔ Hands state tally run id (IsSingle dtype n) :=
  exists₂_congr fun _ _ => and_congr_right fun _ => single_iff_handed

theorem gives_iff_hands {run : Run State Operand} :
    Gives state tally run dtype n ↔ Hands state tally run Operand.node (IsSingle dtype n) :=
  exists₂_congr fun _ _ => and_congr_right fun _ => single_iff_handed

-- A handle is lent to a step and taken back.
theorem Gives.promoting {step : Raster → Run State Operand} {m : Int} {other : DataType}
    (hlooped : Looped state) (hbacks : Backs state tally) (hsingle : Single state raster other m)
    (hheld : raster.held ≤ tally)
    (hstep : ∀ middle, Looped middle → Builds state middle → Backs middle (tally + raster.held) →
      Gives middle (tally + raster.held) (step raster) dtype n) :
    Gives state tally (simulator.promoting (.node raster) step) dtype n := by
  obtain ⟨node, info, x, hnode, -⟩ := hsingle
  have hlive : state.nodes.contains node = true := hbacks.live_of_held hnode hheld
  have hbacks' : Backs (state.acquire node) (tally + raster.held) :=
    Raster.held_of_node hnode ▸ hbacks.acquire hlive
  have hacquire := Builds.acquire state node
  have hgives := hstep _ (hacquire.looped hlooped) hacquire hbacks'
  exact gives_iff_hands.mpr
    (.promoting hlooped (raster.held_nonneg.trans hheld) hnode (gives_iff_hands.mp hgives))

theorem Makes.operand {run : Run State Raster} (h : Makes state tally run dtype n) :
    Gives state tally (do return .node (← run)) dtype n :=
  gives_iff_hands.mpr (makes_iff_hands.mp h).operand

theorem Makes.of_made {request : Construction} {draft : Draft} {inputs : List Grid} {x : Float}
    (hlooped : Looped state) (hbacks : Backs state tally) (hdraft : state.draft request = .ok draft)
    (hlive : ∀ node ∈ request.nodes, state.nodes.contains node = true)
    (hinputs : request.inputs (· = Address.null) Address.null = request.nodes)
    (hgrids : request.nodes.mapM state.gridOf = .ok inputs)
    (happly : draft.kind.apply draft.info inputs = .ok ⟨draft.info.dtype, [], #[x]⟩)
    (hshape : draft.info.shape = []) (hx : IsWhole x n) :
    Makes state tally (simulator.make request) draft.info.dtype n := by
  have hhands := Hands.make hlooped hbacks hdraft hlive hinputs hgrids happly
  refine makes_iff_hands.mpr (hhands.mono fun info grid hgood => ?_)
  obtain ⟨rfl, rfl⟩ := hgood
  exact ⟨rfl, hshape, x, rfl, hx⟩

-- A number becomes a node.
theorem Makes.promote {value : Scalar} (hlooped : Looped state) (hbacks : Backs state tally)
    (hpayload : value.payload = .whole n) (hsmall : n.natAbs ≤ 2 ^ 53) :
    Makes state tally (simulator.promote (.host value)) value.dtype n := by
  have hexact := Scalar.isExact_of_payload hpayload
  obtain ⟨m, hm, hsettled⟩ := Scalar.exists_payload hexact
  obtain rfl : n = m := Payload.whole.inj (hpayload.symm.trans hm)
  have hdraft : state.draft (.constant value (.single value.dtype)) =
      .ok ⟨.constant value, .ofLayout (.single value.dtype), none⟩ :=
    bind_eq_ok.mpr ⟨value, Scalar.convert_self hexact, rfl⟩
  have hx : IsWhole value.toFloat n := by
    rw [Scalar.toFloat, hpayload]
    exact (near_ofInt (hsmall.trans (by decide))).isWhole hsmall
  exact Makes.of_made hlooped hbacks hdraft nofun rfl rfl rfl rfl
    (DataType.isWhole_normalize_settled hx hexact hsettled)

-- What is known about a handle on a single value.
theorem Single.known (h : Single state raster dtype n) (hlooped : Looped state) :
    ∃ node info x, raster.require = .ok node ∧ state.nodes.contains node = true ∧
      node ≠ Address.null ∧ state.info node = .ok info ∧ info.dtype = dtype ∧ info.shape = [] ∧
      state.gridOf node = .ok ⟨dtype, [], #[x]⟩ ∧ IsWhole x n := by
  obtain ⟨node, info, x, hnode, hvalue, hdtype, hshape, hx⟩ := h
  obtain ⟨hinfo, hgrid, hlive, hnull⟩ := live_of_valueOf hlooped hvalue
  have hrequire : raster.require = .ok node := by rw [Raster.require, hnode]
  exact ⟨node, info, x, hrequire, hlive, hnull, hinfo, hdtype, hshape, hgrid, hx⟩

-- The value that is read off it is the number.
theorem Single.value_eq (h : Single state raster dtype n) (hlooped : Looped state)
    (hexact : dtype.isExact = true) :
    raster.ask simulator.value state = (Scalar.ofWhole n dtype, state) := by
  obtain ⟨node, info, x, hnode, hvalue, -, -, hx⟩ := h
  obtain ⟨-, hgrid, -, -⟩ := live_of_valueOf hlooped hvalue
  rw [ask_eq hnode]
  show (do (← state.grid node).toScalar, state) = _
  rw [← State.gridOf_eq_grid hlooped, hgrid]
  exact congrArg (·, state) (Scalar.ofFloat_whole hx hexact)

theorem Makes.unary {op : UnaryOp} {r : Int} (hlooped : Looped state) (hbacks : Backs state tally)
    (h : Single state raster dtype n) (hresult : (op.resultType dtype).isExact = true)
    (hop : op.ofWhole? n dtype = some r)
    (hsmall : ((op.resultType dtype).settle r).natAbs ≤ 2 ^ 53) :
    Makes state tally (simulator.unaryNode raster op) (op.resultType dtype)
      ((op.resultType dtype).settle r) := by
  obtain ⟨node, info, x, hrequire, hlive, -, hinfo, rfl, hshape, hgrid, hx⟩ := h.known hlooped
  have hdraft : state.draft (.unary node op) =
      .ok ⟨.unary op, info.derived (op.resultType info.dtype) info.shape, none⟩ :=
    bind_eq_ok.mpr ⟨info, hinfo, rfl⟩
  have hx' := DataType.isWhole_normalize_settled (op.isWhole_cell hx hresult hop hsmall) hresult
    (DataType.settle_settle _ r)
  have hgrids : [node].mapM state.gridOf = .ok [⟨info.dtype, [], #[x]⟩] := by
    simp only [List.mapM_cons, List.mapM_nil, hgrid]
    rfl
  have happly : (NodeKind.unary op).apply (info.derived (op.resultType info.dtype) info.shape)
      [⟨info.dtype, [], #[x]⟩] = .ok ⟨op.resultType info.dtype, [],
        #[(op.resultType info.dtype).normalize (op.cell x info.dtype)]⟩ := by
    rw [hshape]
    exact Grid.tabulate_single rfl
  rw [Engine.unaryNode, derive_eq hrequire]
  exact Makes.of_made hlooped hbacks hdraft (List.forall_mem_singleton.mpr hlive) rfl hgrids happly
    hshape hx'

theorem Makes.cast {other : DataType} (hlooped : Looped state) (hbacks : Backs state tally)
    (h : Single state raster dtype n) (hexact : other.isExact = true)
    (hsmall : (other.settle n).natAbs ≤ 2 ^ 53) :
    Makes state tally (simulator.cast raster other) other (other.settle n) := by
  obtain ⟨node, info, x, hrequire, hlive, -, hinfo, rfl, hshape, hgrid, hx⟩ := h.known hlooped
  have htyped : other ≠ .untyped := by
    rintro rfl
    cases hexact
  have hdraft : state.draft (.cast node other) =
      .ok ⟨.cast, info.derived other info.shape, none⟩ := by
    show draftOf state.info _ state.store (.cast node other) = _
    simp only [draftOf, htyped, if_false]
    exact bind_eq_ok.mpr ⟨info, hinfo, rfl⟩
  have hgrids : [node].mapM state.gridOf = .ok [⟨info.dtype, [], #[x]⟩] := by
    simp only [List.mapM_cons, List.mapM_nil, hgrid]
    rfl
  have happly : NodeKind.cast.apply (info.derived other info.shape) [⟨info.dtype, [], #[x]⟩] =
      .ok ⟨other, [], #[other.normalize x]⟩ := by
    have hmap : #[x].map other.normalize = #[other.normalize x] := List.map_toArray
    show Except.ok (Grid.cast ⟨info.dtype, [], #[x]⟩ other) = _
    rw [Grid.cast, hmap]
  rw [Engine.cast, derive_eq hrequire]
  exact Makes.of_made hlooped hbacks hdraft (List.forall_mem_singleton.mpr hlive) rfl hgrids happly
    hshape (DataType.isWhole_normalize hx.near hexact hsmall)

theorem Makes.binary {op : BinaryOp} {left right : Raster} {leftType rightType : DataType}
    {a b r : Int} (hlooped : Looped state) (hbacks : Backs state tally)
    (hleft : Single state left leftType a) (hright : Single state right rightType b)
    (hexact : (leftType.promote rightType).isExact = true)
    (hresult : (op.resultType leftType rightType).isExact = true)
    (hop : op.ofWholes? a b = some r)
    (hsmall : ((op.resultType leftType rightType).settle r).natAbs ≤ 2 ^ 53) :
    Makes state tally (simulator.binaryNodes left right op) (op.resultType leftType rightType)
      ((op.resultType leftType rightType).settle r) := by
  obtain ⟨node, info, x, hrequire, hlive, -, hinfo, rfl, hshape, hgrid, hx⟩ := hleft.known hlooped
  obtain ⟨node', info', y, hrequire', hlive', -, hinfo', rfl, hshape', hgrid', hy⟩ :=
    hright.known hlooped
  have hdraft : state.draft (.binary node node' op) =
      .ok ⟨.binary op, info'.derived (op.resultType info.dtype info'.dtype) [], none⟩ := by
    refine bind_eq_ok.mpr ⟨info, hinfo, bind_eq_ok.mpr ⟨info', hinfo', ?_⟩⟩
    simp only [broadcast, hshape, hshape', if_true]
    rfl
  have hx' := DataType.isWhole_normalize_settled (op.isWhole_cell hx hy hexact hresult hop hsmall)
    hresult (DataType.settle_settle _ r)
  have hgrids : [node, node'].mapM state.gridOf =
      .ok [⟨info.dtype, [], #[x]⟩, ⟨info'.dtype, [], #[y]⟩] := by
    simp only [List.mapM_cons, List.mapM_nil, hgrid, hgrid']
    rfl
  have happly : (NodeKind.binary op).apply
      (info'.derived (op.resultType info.dtype info'.dtype) [])
      [⟨info.dtype, [], #[x]⟩, ⟨info'.dtype, [], #[y]⟩] =
        .ok ⟨op.resultType info.dtype info'.dtype, [],
          #[(op.resultType info.dtype info'.dtype).normalize
            (op.cell x y info.dtype info'.dtype)]⟩ := Grid.tabulate_single rfl
  have hnodes : ∀ other ∈ [node, node'], state.nodes.contains other = true := by
    simp [hlive, hlive']
  have hmake : simulator.binaryNodes left right op = simulator.make (.binary node node' op) := by
    rw [Engine.binaryNodes, hrequire, hrequire']
    rfl
  rw [hmake]
  exact Makes.of_made hlooped hbacks hdraft hnodes rfl hgrids happly rfl hx'

-- A choice between two values, which is settled in their common type.
theorem Gives.conditional {condition yes no : Raster} {conditionType yesType noType : DataType}
    {c a b : Int} (hlooped : Looped state) (hbacks : Backs state tally)
    (hcondition : Single state condition conditionType c) (hyes : Single state yes yesType a)
    (hno : Single state no noType b) (hexact : (yesType.promote noType).isExact = true) :
    Gives state tally (do
      return .node (← simulator.make
        (.conditional (← condition.require) (← yes.require) (← no.require))))
      (yesType.promote noType) ((yesType.promote noType).settle (if c ≠ 0 then a else b)) := by
  obtain ⟨chooser, info, x, hchooser, hvalue, -, hshape, hx⟩ := hcondition
  obtain ⟨first, infoYes, y, hfirst, hvalueYes, rfl, hshapeYes, hy⟩ := hyes
  obtain ⟨second, infoNo, z, hsecond, hvalueNo, rfl, hshapeNo, hz⟩ := hno
  have hcell : conditionalCell ⟨conditionType, [], #[x]⟩ ⟨infoYes.dtype, [], #[y]⟩
      ⟨infoNo.dtype, [], #[z]⟩ 0 = .ok (if (x != 0) = true then y else z) := by
    show (if (x != 0) = true then Except.ok y else .ok z) = _
    split <;> rfl
  have hchoice : IsWhole (if (x != 0) = true then y else z) (if c ≠ 0 then a else b) := by
    have hzero : (x != 0) = true ↔ c ≠ 0 := by
      rw [bne, Bool.not_eq_true', Bool.eq_false_iff, Ne, hx.beq_iff IsWhole.zero]
    by_cases hc : c ≠ 0
    · rw [if_pos hc, if_pos (hzero.mpr hc)]
      exact hy
    · rw [if_neg hc, if_neg (mt hzero.mp hc)]
      exact hz
  have hwhole : broadcast info.shape infoYes.shape = .ok [] := by
    rw [hshape, hshapeYes, broadcast_single]
  have hhands := hands_conditional hlooped hbacks hchooser hfirst hsecond hvalue hvalueYes hvalueNo
    hshapeNo hwhole (Grid.tabulate_single hcell)
  refine gives_iff_hands.mpr (hhands.mono fun noted found hgood => ?_)
  obtain ⟨rfl, rfl⟩ := hgood
  exact ⟨rfl, rfl, _, rfl, DataType.isWhole_normalize hchoice.near hexact
    ((DataType.natAbs_settle_le _ _).trans hchoice.bound)⟩

section Host

variable {number : Scalar}

-- An operation on a node of a whole number makes a node of what it makes of the number itself.
theorem unary_as_on_host {op : UnaryOp} (hlooped : Looped state) (hbacks : Backs state tally)
    (hnumber : number.payload = .whole n) (h : Single state raster number.dtype n)
    (hfloat : (op.resultType number.dtype).isFloat = false) :
    ∃ result m, op.onScalar number = .ok result ∧ result.dtype = op.resultType number.dtype ∧
      result.payload = .whole m ∧
      (m.natAbs ≤ 2 ^ 53 → Makes state tally (simulator.unaryNode raster op) result.dtype m) := by
  have hexact := Scalar.isExact_of_payload hnumber
  obtain ⟨hresult, r, hop⟩ := op.ofWhole?_of_exact hexact hfloat n
  obtain ⟨result, hwhole, hdtype, hpayload⟩ := Scalar.ofWhole_eq_ok hresult r
  refine ⟨result, _, (op.onScalar_eq hnumber hexact hresult hop).trans hwhole, hdtype, hpayload, ?_⟩
  rw [hdtype]
  exact .unary hlooped hbacks h hresult hop

theorem binary_as_on_host {op : BinaryOp} {left right : Raster} {other : Scalar} {m : Int}
    (hlooped : Looped state) (hbacks : Backs state tally) (hnumber : number.payload = .whole n)
    (hother : other.payload = .whole m) (hleft : Single state left number.dtype n)
    (hright : Single state right other.dtype m) (hheld : left.held ≤ tally)
    (hheldRight : right.held ≤ tally)
    (hfloat : (op.resultType number.dtype other.dtype).isFloat = false) :
    ∃ result r, op.onScalars number other = .ok result ∧
      result.dtype = op.resultType number.dtype other.dtype ∧ result.payload = .whole r ∧
      (r.natAbs ≤ 2 ^ 53 →
        Gives state tally (simulator.binary (.node left) (.node right) op) result.dtype r) := by
  have hexact := Scalar.isExact_of_payload hnumber
  have hexact' := Scalar.isExact_of_payload hother
  have hpromoted := DataType.promote_exact hexact hexact'
  obtain ⟨hresult, r, hop⟩ := op.ofWholes?_of_exact hexact hexact' hfloat n m
  obtain ⟨result, hwhole, hdtype, hpayload⟩ := Scalar.ofWhole_eq_ok hresult r
  refine ⟨result, _, (op.onScalars_eq hnumber hother hpromoted hresult hop).trans hwhole, hdtype,
    hpayload, fun hsmall => ?_⟩
  rw [hdtype]
  refine .promoting hlooped hbacks hleft hheld fun one hlooped₁ hbuilds₁ hbacks₁ => ?_
  have hmore₁ := le_add_of_nonneg_right (a := tally) left.held_nonneg
  have hright₁ := hright.later hlooped hbuilds₁ hbacks₁ (hheldRight.trans hmore₁)
  refine .promoting hlooped₁ hbacks₁ hright₁ (hheldRight.trans hmore₁)
    fun two hlooped₂ hbuilds₂ hbacks₂ => ?_
  have hmore₂ := hmore₁.trans (le_add_of_nonneg_right (a := tally + left.held) right.held_nonneg)
  have hbuilds := hbuilds₁.trans hbuilds₂
  exact (Makes.binary hlooped₂ hbacks₂ (hleft.later hlooped hbuilds hbacks₂ (hheld.trans hmore₂))
    (hright.later hlooped hbuilds hbacks₂ (hheldRight.trans hmore₂)) hpromoted hresult hop
    hsmall).operand

theorem cast_as_on_host {dtype : DataType} (hlooped : Looped state) (hbacks : Backs state tally)
    (hnumber : number.payload = .whole n) (h : Single state raster number.dtype n)
    (hexact : dtype.isExact = true) :
    ∃ result m, number.convert dtype = .ok result ∧ result.dtype = dtype ∧
      result.payload = .whole m ∧
      (m.natAbs ≤ 2 ^ 53 → Makes state tally (simulator.cast raster dtype) result.dtype m) := by
  obtain ⟨result, hwhole, hdtype, hpayload⟩ := Scalar.ofWhole_eq_ok hexact n
  refine ⟨result, _, ?_, hdtype, hpayload, ?_⟩
  · rw [Scalar.convert, hnumber]
    exact hwhole
  · rw [hdtype]
    exact .cast hlooped hbacks h hexact

-- A choice between numbers is the chosen one on the host. Among nodes it is settled in the common type
-- of the two.
theorem select_as_on_host {condition yes no : Raster} {first second : Scalar} {a b : Int}
    (hlooped : Looped state) (hbacks : Backs state tally) (hnumber : number.payload = .whole n)
    (hfirst : first.payload = .whole a) (hsecond : second.payload = .whole b)
    (hcondition : Single state condition number.dtype n) (hyes : Single state yes first.dtype a)
    (hno : Single state no second.dtype b) (hheld : condition.held ≤ tally)
    (hheldYes : yes.held ≤ tally) (hheldNo : no.held ≤ tally) :
    ∃ m, (if number.isTrue then first else second).payload = .whole m ∧
      Gives state tally (simulator.select (.node condition) (.node yes) (.node no))
        (first.dtype.promote second.dtype) ((first.dtype.promote second.dtype).settle m) := by
  have htrue : number.isTrue = decide (n ≠ 0) := by
    rw [Scalar.isTrue, hnumber]
    rfl
  refine ⟨if n ≠ 0 then a else b, ?_, ?_⟩
  · rw [htrue]
    by_cases hn : n ≠ 0
    · rw [if_pos (decide_eq_true hn), if_pos hn]
      exact hfirst
    · rw [if_neg (mt of_decide_eq_true hn), if_neg hn]
      exact hsecond
  · refine .promoting hlooped hbacks hcondition hheld fun one hlooped₁ hbuilds₁ hbacks₁ => ?_
    have hmore₁ := le_add_of_nonneg_right (a := tally) condition.held_nonneg
    have hyes₁ := hyes.later hlooped hbuilds₁ hbacks₁ (hheldYes.trans hmore₁)
    refine .promoting hlooped₁ hbacks₁ hyes₁ (hheldYes.trans hmore₁) fun two hlooped₂ hbuilds₂ hbacks₂ => ?_
    have hmore₂ := hmore₁.trans (le_add_of_nonneg_right (a := tally + condition.held) yes.held_nonneg)
    have hno₂ := hno.later hlooped (hbuilds₁.trans hbuilds₂) hbacks₂ (hheldNo.trans hmore₂)
    refine .promoting hlooped₂ hbacks₂ hno₂ (hheldNo.trans hmore₂) fun three hlooped₃ hbuilds₃ hbacks₃ => ?_
    have hmore₃ := hmore₂.trans
      (le_add_of_nonneg_right (a := tally + condition.held + yes.held) no.held_nonneg)
    have hbuilds := (hbuilds₁.trans hbuilds₂).trans hbuilds₃
    exact .conditional hlooped₃ hbacks₃
      (hcondition.later hlooped hbuilds hbacks₃ (hheld.trans hmore₃))
      (hyes.later hlooped hbuilds hbacks₃ (hheldYes.trans hmore₃))
      (hno.later hlooped hbuilds hbacks₃ (hheldNo.trans hmore₃))
      (DataType.promote_exact (Scalar.isExact_of_payload hfirst) (Scalar.isExact_of_payload hsecond))

end Host

end Graph

end MapAlgebra
