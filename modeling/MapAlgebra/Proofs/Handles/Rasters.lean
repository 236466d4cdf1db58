import MapAlgebra.Proofs.Handles.Custody
import MapAlgebra.Raster.Cells
import MapAlgebra.Raster.Create
import MapAlgebra.Raster.Regions

namespace MapAlgebra

-- Summaries that are held while they are borrowed.
structure Summaries.Lent (frame : Tally) (summaries : Summaries) : Prop where
  lowest : heldIfAny Raster.held summaries.lowest ≤ frame
  highest : heldIfAny Raster.held summaries.highest ≤ frame
  mean : heldIfAny Raster.held summaries.mean ≤ frame
  deviation : heldIfAny Raster.held summaries.deviation ≤ frame

namespace Keeper

variable {σ α : Type} {engine : Engine σ} {custody : Custody σ} {frame : Tally} {lowering : Bool}
  {gain : α → Tally}

-- A handle is copied while its raster is held.
theorem copy (h : Keeper engine custody frame) {raster : Raster} (hheld : raster.held ≤ frame) :
    Keeps (custody.order lowering) frame 0 (engine.copy raster) Raster.held := by
  intro state hstate
  rw [zero_add] at hstate
  unfold Engine.copy
  cases hnode : raster.node with
  | none =>
      show custody.order lowering state (raster.held + frame)
      rwa [Raster.held, hnode, zero_add]
  | some node =>
      show custody.order lowering (engine.acquire node state) (raster.held + frame)
      rw [Raster.held_of_node hnode] at hheld ⊢
      exact h.honors.acquire (Raster.ne_null hnode) hheld hstate

theorem make (h : Keeper engine custody frame) {request : Construction}
    (hbacked : request.Backed frame) :
    Keeps (custody.order lowering) frame 0 (engine.make request) Raster.held :=
  h.honors.make h.nonneg hbacked

theorem backed_three {a b c : Address} (ha : Tally.one a ≤ frame) (hb : Tally.one b ≤ frame)
    (hc : Tally.one c ≤ frame) :
    ∀ node ∈ [a, b, c], node = Address.null ∨ Tally.one node ≤ frame :=
  List.forall_mem_cons.mpr ⟨Or.inr ha, List.forall_mem_cons.mpr ⟨Or.inr hb,
    List.forall_mem_singleton.mpr (Or.inr hc)⟩⟩

-- A request that names no node at all.
theorem start (h : Keeper engine custody frame) {request : Construction}
    (hnodes : request.nodes = []) :
    Keeps (custody.order lowering) frame 0 (engine.make request) Raster.held :=
  h.make fun _ hnode => by simp [hnodes] at hnode

theorem derive (h : Keeper engine custody frame) {raster : Raster} (hheld : raster.held ≤ frame)
    {request : Address → Construction} (hnodes : ∀ node, (request node).nodes = [node]) :
    Keeps (custody.order lowering) frame 0 (engine.derive raster request) Raster.held := by
  refine Keeps.lift_bind fun node hnode => h.make fun other hother => Or.inr ?_
  rw [hnodes, List.mem_singleton] at hother
  exact hother ▸ Raster.one_le hnode hheld

theorem ask {question : Address → Run σ α} (raster : Raster)
    (hquestion : ∀ node, Still (custody.order lowering) frame (question node)) :
    Still (custody.order lowering) frame (raster.ask question) :=
  (Keeps.lift _).bind hquestion

theorem lending (h : Keeper engine custody frame) {raster : Raster} {step : Raster → Run σ α}
    (hstep : Keeps (custody.order lowering) (raster.held + frame) 0 (step raster) gain) :
    Keeps (custody.order lowering) frame raster.held (engine.lending raster step) gain :=
  fun state hstate => h.honors.letGo ((hstep state).lend hstate)

theorem orLetGo (h : Keeper engine custody frame) {raster : Raster} {step : Run σ α}
    (hstep : Keeps (custody.order lowering) (raster.held + frame) 0 step gain) :
    Keeps (custody.order lowering) frame raster.held (engine.orLetGo raster step)
      fun a => gain a + raster.held :=
  Keeps.orLetGo hstep fun _ _ => h.honors.letGo

theorem copyOperand (h : Keeper engine custody frame) {operand : Operand}
    (hheld : operand.held ≤ frame) :
    Keeps (custody.order lowering) frame 0 (engine.copyOperand operand) Operand.held := by
  cases operand with
  | node raster => exact (h.copy hheld).bind fun _ => .pure rfl
  | host value => exact .pure rfl

theorem operandType (h : Keeper engine custody frame) (operand : Operand) :
    Still (custody.order lowering) frame (engine.operandType operand) := by
  cases operand with
  | node raster => exact ask raster h.honors.dataType
  | host value => exact .pure rfl

-- A new node as an operand.
theorem node {make : Run σ Raster} {cost : Tally}
    (hmake : Keeps (custody.order lowering) frame cost make Raster.held) :
    Keeps (custody.order lowering) frame cost (do return Operand.node (← make)) Operand.held :=
  hmake.bind fun _ => .pure rfl

theorem scalarNode (h : Keeper engine custody frame) (value : Scalar) :
    Keeps (custody.order lowering) frame 0 (engine.scalarNode value) Raster.held := h.start rfl

theorem promote (h : Keeper engine custody frame) {operand : Operand}
    (hheld : operand.held ≤ frame) :
    Keeps (custody.order lowering) frame 0 (engine.promote operand) Raster.held := by
  cases operand with
  | node raster => exact h.copy hheld
  | host value => exact h.scalarNode value

-- What follows runs beside the node that is lent to it.
theorem promoting (h : Keeper engine custody frame) {operand : Operand}
    (hheld : operand.held ≤ frame) {step : Raster → Run σ α}
    (hstep : ∀ {larger} (raster : Raster), frame ≤ larger → raster.held ≤ larger →
      Keeper engine custody larger → Keeps (custody.order lowering) larger 0 (step raster) gain) :
    Keeps (custody.order lowering) frame 0 (engine.promoting operand step) gain :=
  (h.promote hheld).bind fun raster =>
    h.lending (hstep raster (le_beside raster frame) (h.lent raster) (h.beside raster))

theorem unaryNode (h : Keeper engine custody frame) {raster : Raster} (hheld : raster.held ≤ frame)
    (op : UnaryOp) :
    Keeps (custody.order lowering) frame 0 (engine.unaryNode raster op) Raster.held :=
  h.derive hheld fun _ => rfl

theorem binaryNodes (h : Keeper engine custody frame) {left right : Raster}
    (hleft : left.held ≤ frame) (hright : right.held ≤ frame) (op : BinaryOp) :
    Keeps (custody.order lowering) frame 0 (engine.binaryNodes left right op) Raster.held :=
  Keeps.lift_bind fun _ ha => Keeps.lift_bind fun _ hb => h.make <|
    List.forall_mem_cons.mpr ⟨Or.inr (Raster.one_le ha hleft),
      List.forall_mem_singleton.mpr (Or.inr (Raster.one_le hb hright))⟩

theorem unary (h : Keeper engine custody frame) {operand : Operand} (hheld : operand.held ≤ frame)
    (op : UnaryOp) :
    Keeps (custody.order lowering) frame 0 (engine.unary operand op) Operand.held := by
  cases operand with
  | node raster => exact node (h.unaryNode hheld op)
  | host value => exact (Keeps.lift _).bind fun _ => .pure rfl

theorem binary (h : Keeper engine custody frame) {left right : Operand}
    (hleft : left.held ≤ frame) (hright : right.held ≤ frame) (op : BinaryOp) :
    Keeps (custody.order lowering) frame 0 (engine.binary left right op) Operand.held := by
  have hnodes : Keeps (custody.order lowering) frame 0
      (engine.promoting left fun left => engine.promoting right fun right => do
        return Operand.node (← engine.binaryNodes left right op)) Operand.held :=
    h.promoting hleft fun a hmore ha h => h.promoting (hright.trans hmore) fun b hle hb h =>
      node (h.binaryNodes (ha.trans hle) hb op)
  unfold Engine.binary
  split
  · exact (Keeps.lift _).bind fun _ => .pure rfl
  · exact hnodes

theorem power (h : Keeper engine custody frame) {base exponent : Operand}
    (hbase : base.held ≤ frame) (hexponent : exponent.held ≤ frame) :
    Keeps (custody.order lowering) frame 0 (engine.power base exponent) Operand.held := by
  unfold Engine.power
  split
  · exact (Keeps.lift _).bind fun _ => .pure rfl
  · refine h.promoting hbase fun base hmore hbase h => ?_
    refine h.promoting (hexponent.trans hmore) fun exponent hle hexponent h => ?_
    refine (h.scalarNode _).bind fun zero => h.lending ?_
    have hzero := h.beside zero
    refine (hzero.binaryNodes (hexponent.trans (le_beside zero _)) (h.lent zero) .add).bind
      fun sum => hzero.lending (node ?_)
    have hbase := ((hbase.trans hle).trans (le_beside zero _)).trans (le_beside sum _)
    exact (hzero.beside sum).binaryNodes hbase (hzero.lent sum) .pow

theorem select (h : Keeper engine custody frame) {condition yes no : Operand}
    (hcondition : condition.held ≤ frame) (hyes : yes.held ≤ frame) (hno : no.held ≤ frame) :
    Keeps (custody.order lowering) frame 0 (engine.select condition yes no) Operand.held := by
  unfold Engine.select
  split
  · exact .pure rfl
  · refine h.promoting hcondition fun condition hfirst hcondition h => ?_
    refine h.promoting (hyes.trans hfirst) fun yes hsecond hyes h => ?_
    refine h.promoting ((hno.trans hfirst).trans hsecond) fun no hthird hno h => ?_
    refine Keeps.lift_bind fun _ ha => Keeps.lift_bind fun _ hb => Keeps.lift_bind fun _ hc => ?_
    have ha := Raster.one_le ha ((hcondition.trans hsecond).trans hthird)
    have hb := Raster.one_le hb (hyes.trans hthird)
    exact node (h.make (backed_three ha hb (Raster.one_le hc hno)))

theorem cast (h : Keeper engine custody frame) {raster : Raster} (hheld : raster.held ≤ frame)
    (dtype : DataType) :
    Keeps (custody.order lowering) frame 0 (engine.cast raster dtype) Raster.held :=
  h.derive hheld fun _ => rfl

theorem castOperand (h : Keeper engine custody frame) {operand : Operand}
    (hheld : operand.held ≤ frame) (dtype : DataType) :
    Keeps (custody.order lowering) frame 0 (engine.castOperand operand dtype) Operand.held := by
  cases operand with
  | node raster => exact node (h.cast hheld dtype)
  | host value => exact (Keeps.lift _).bind fun _ => .pure rfl

theorem combine (h : Keeper engine custody frame) {raster : Raster} (hraster : raster.held ≤ frame)
    {operand : Operand} (hheld : operand.held ≤ frame) (op : BinaryOp) :
    Keeps (custody.order lowering) frame 0 (engine.combine raster operand op) Raster.held :=
  h.promoting hheld fun _ hle hother h => h.binaryNodes (hraster.trans hle) hother op

theorem combineBefore (h : Keeper engine custody frame) {operand : Operand}
    (hheld : operand.held ≤ frame) {raster : Raster} (hraster : raster.held ≤ frame)
    (op : BinaryOp) :
    Keeps (custody.order lowering) frame 0 (engine.combineBefore operand raster op) Raster.held :=
  h.promoting hheld fun _ hle hother h => h.binaryNodes hother (hraster.trans hle) op

theorem invert (h : Keeper engine custody frame) {raster : Raster} (hheld : raster.held ≤ frame) :
    Keeps (custody.order lowering) frame 0 (engine.invert raster) Raster.held :=
  (ask raster h.honors.dataType).bind fun _ => h.unaryNode hheld _

-- An operand that has to be a raster. A number costs nothing to give up.
theorem toRaster (operand : Operand) :
    Keeps (custody.order lowering) frame operand.held (liftM operand.toRaster : Run σ Raster)
      Raster.held := by
  cases operand with
  | node raster => exact .pure rfl
  | host value => exact .throw _ _

theorem powerOf (h : Keeper engine custody frame) {raster : Raster} {exponent : Operand}
    (hraster : raster.held ≤ frame) (hexponent : exponent.held ≤ frame) :
    Keeps (custody.order lowering) frame 0 (engine.powerOf raster exponent) Raster.held := by
  have hpower : Keeps (custody.order lowering) frame 0 (engine.power (.node raster) exponent)
      Operand.held := h.power hraster hexponent
  exact hpower.bind fun power => toRaster power

theorem powerTo (h : Keeper engine custody frame) {raster : Raster} {base : Operand}
    (hraster : raster.held ≤ frame) (hbase : base.held ≤ frame) :
    Keeps (custody.order lowering) frame 0 (engine.powerTo raster base) Raster.held := by
  have hpower : Keeps (custody.order lowering) frame 0 (engine.power base (.node raster))
      Operand.held := h.power hbase hraster
  exact hpower.bind fun power => toRaster power

theorem matching (h : Keeper engine custody frame) (raster : Raster) {operand : Operand}
    (hheld : operand.held ≤ frame) :
    Keeps (custody.order lowering) frame 0 (engine.matching raster operand) Raster.held := by
  refine (h.promote hheld).bind fun value => ?_
  have htypes : Still (custody.order lowering) (value.held + frame) (do
      let dtype ← raster.ask engine.dataType
      let found ← value.ask engine.dataType
      return (dtype, decide (found = dtype)) : Run σ (DataType × Bool)) :=
    (ask raster h.honors.dataType).bind fun _ => (ask value h.honors.dataType).bind fun _ =>
      .pure rfl
  refine (h.orLetGo htypes).bind fun same => ?_
  rw [zero_add]
  split
  · exact .pure rfl
  · exact h.lending ((h.beside value).cast (h.lent value) same.1)

-- The raster keeps its handle until the changed node is there.
theorem setCell (h : Keeper engine custody frame) {raster : Raster} {operand : Operand}
    (hraster : raster.held ≤ frame) (hheld : operand.held ≤ frame) (position : Coord) :
    Keeps (custody.order lowering) frame 0 (engine.setCell raster position operand) fun moved =>
      moved.held - raster.held := by
  refine (h.matching raster hheld).bind fun value => h.lending ?_
  have hraster := hraster.trans (le_beside value frame)
  refine Keeps.lift_bind fun node hnode => Keeps.lift_bind fun other hother => ?_
  refine h.honors.renew (fun old hold => ?_) hraster (List.forall_mem_cons.mpr
    ⟨Or.inr (Raster.one_le hnode hraster),
      List.forall_mem_singleton.mpr (Or.inr (Raster.one_le hother (h.lent value)))⟩)
  obtain rfl : old = node := Option.some.inj (hold.symm.trans (Raster.require_eq_ok hnode))
  simp [Request.required, Request.nodes]

theorem setWhere (h : Keeper engine custody frame) {raster condition : Raster} {operand : Operand}
    (hraster : raster.held ≤ frame) (hcondition : condition.held ≤ frame)
    (hheld : operand.held ≤ frame) :
    Keeps (custody.order lowering) frame 0 (engine.setWhere raster condition operand) fun moved =>
      moved.held - raster.held := by
  refine (h.matching raster hheld).bind fun value => h.lending ?_
  have hraster := hraster.trans (le_beside value frame)
  refine Keeps.lift_bind fun _ ha => Keeps.lift_bind fun _ hb => ?_
  refine Keeps.lift_bind fun node hnode => ?_
  have ha := Raster.one_le ha (hcondition.trans (le_beside value frame))
  have hb := Raster.one_le hb (h.lent value)
  refine h.honors.renew (fun old hold => ?_) hraster
    (backed_three ha hb (Raster.one_le hnode hraster))
  obtain rfl : old = node := Option.some.inj (hold.symm.trans (Raster.require_eq_ok hnode))
  simp [Request.required, Request.nodes]

theorem cellAt (h : Keeper engine custody frame) {raster : Raster} (hheld : raster.held ≤ frame)
    (position : Coord) :
    Keeps (custody.order lowering) frame 0 (engine.cellAt raster position) Raster.held :=
  h.derive hheld fun _ => rfl

theorem mask (h : Keeper engine custody frame) {raster condition : Raster}
    (hraster : raster.held ≤ frame) (hcondition : condition.held ≤ frame) :
    Keeps (custody.order lowering) frame 0 (engine.mask raster condition) Raster.held :=
  Keeps.lift_bind fun _ ha => Keeps.lift_bind fun _ hb => h.make <|
    List.forall_mem_cons.mpr ⟨Or.inr (Raster.one_le ha hcondition),
      List.forall_mem_cons.mpr ⟨Or.inr (Raster.one_le hb hraster),
        List.forall_mem_singleton.mpr (Or.inl rfl)⟩⟩

theorem boundedNeighbor (h : Keeper engine custody frame) {raster rows columns : Raster}
    (hraster : raster.held ≤ frame) (hrows : rows.held ≤ frame) (hcolumns : columns.held ≤ frame) :
    Keeps (custody.order lowering) frame 0 (engine.boundedNeighbor raster rows columns)
      Raster.held :=
  Keeps.lift_bind fun _ ha => Keeps.lift_bind fun _ hb => Keeps.lift_bind fun _ hc => h.make <|
    backed_three (Raster.one_le ha hraster) (Raster.one_le hb hrows) (Raster.one_le hc hcolumns)

theorem layoutOf (h : Keeper engine custody frame) (raster : Raster) :
    Still (custody.order lowering) frame (engine.layoutOf raster) := by
  refine (ask raster h.honors.size).bind fun _ => (ask raster h.honors.dataType).bind fun _ => ?_
  refine (ask raster h.honors.memOrder).bind fun _ => (ask raster h.honors.block).bind fun _ => ?_
  exact (ask raster h.honors.group).bind fun _ => .pure rfl

theorem constant (h : Keeper engine custody frame) (value : Scalar) (layout : Layout) :
    Keeps (custody.order lowering) frame 0 (engine.constant value layout) Raster.held :=
  (Keeps.lift _).bind fun _ => h.start rfl

theorem zeros (h : Keeper engine custody frame) (layout : Layout) :
    Keeps (custody.order lowering) frame 0 (engine.zeros layout) Raster.held :=
  (Keeps.lift _).bind fun _ => h.constant _ layout

theorem ones (h : Keeper engine custody frame) (layout : Layout) :
    Keeps (custody.order lowering) frame 0 (engine.ones layout) Raster.held :=
  (Keeps.lift _).bind fun _ => h.constant _ layout

theorem truths (h : Keeper engine custody frame) (value : Bool) (layout : Layout) :
    Keeps (custody.order lowering) frame 0 (engine.truths value layout) Raster.held :=
  h.constant _ _

theorem layoutLike (h : Keeper engine custody frame) (raster : Raster) (dtype : Option DataType) :
    Still (custody.order lowering) frame (engine.layoutLike raster dtype) :=
  (h.layoutOf raster).bind fun _ => .pure rfl

theorem zerosLike (h : Keeper engine custody frame) (raster : Raster) (dtype : Option DataType) :
    Keeps (custody.order lowering) frame 0 (engine.zerosLike raster dtype) Raster.held :=
  (h.layoutLike raster dtype).bind fun _ => h.zeros _

theorem onesLike (h : Keeper engine custody frame) (raster : Raster) (dtype : Option DataType) :
    Keeps (custody.order lowering) frame 0 (engine.onesLike raster dtype) Raster.held :=
  (h.layoutLike raster dtype).bind fun _ => h.ones _

theorem constantLike (h : Keeper engine custody frame) (value : Scalar) (raster : Raster)
    (dtype : Option DataType) :
    Keeps (custody.order lowering) frame 0 (engine.constantLike value raster dtype) Raster.held :=
  (h.layoutLike raster dtype).bind fun _ => h.constant value _

theorem index (h : Keeper engine custody frame) (raster : Raster) (dimension : Dimension) :
    Keeps (custody.order lowering) frame 0 (engine.index raster dimension) Raster.held := by
  refine (ask raster h.honors.dimension).bind fun found => ?_
  have hmake : Keeps (custody.order lowering) frame 0 (do
      let layout ← engine.layoutOf raster
      engine.make (.index (layout.withType .s32) dimension)) Raster.held :=
    (h.layoutOf raster).bind fun _ => h.start rfl
  split
  · exact (Keeps.throw _ fun _ => 0).bind fun _ => hmake
  · exact hmake

theorem random (h : Keeper engine custody frame) {seed : Operand} (hheld : seed.held ≤ frame)
    (layout : Option Layout) :
    Keeps (custody.order lowering) frame 0 (engine.random seed layout) Raster.held := by
  have hrandom : ∀ (seed : Raster) (layout : Layout), Keeps (custody.order lowering) frame seed.held
      (engine.lending seed fun seed =>
        engine.derive seed (.rand · layout.dtype layout.order)) Raster.held :=
    fun seed layout => h.lending ((h.beside seed).derive (h.lent seed) fun _ => rfl)
  unfold Engine.random
  split
  · exact (h.copy hheld).bind fun seed => hrandom seed _
  · exact (h.layoutOf _).bind fun layout => (h.copy hheld).bind fun seed => hrandom seed layout
  · exact (h.constant _ _).bind fun seed => hrandom seed _

theorem read (h : Keeper engine custody frame) (resource : String) :
    Keeps (custody.order lowering) frame 0 (engine.read resource) Raster.held := h.start rfl

theorem writeTo (h : Keeper engine custody frame) (raster : Raster) (resource : String) :
    Still (custody.order lowering) frame (engine.writeTo raster resource) := by
  refine (ask raster fun node => h.honors.write node resource).bind fun status => ?_
  split
  · exact .throw _ _
  · exact .pure rfl

theorem evaluateAll (h : Keeper engine custody frame) (rasters : List Raster) :
    Still (custody.order lowering) frame (engine.evaluateAll rasters) :=
  (Keeps.mapM_still (fun _ => .lift _) rasters).bind fun nodes => h.honors.evaluate nodes

theorem convolve (h : Keeper engine custody frame) {raster : Raster} (hheld : raster.held ≤ frame)
    (kernel : Kernel) :
    Keeps (custody.order lowering) frame 0 (engine.convolve raster kernel) Raster.held :=
  h.derive hheld fun _ => rfl

theorem focal (h : Keeper engine custody frame) {raster : Raster} (hheld : raster.held ≤ frame)
    (kernel : Kernel) (op : ReductionOp) :
    Keeps (custody.order lowering) frame 0 (engine.focal raster kernel op) Raster.held :=
  h.derive hheld fun _ => rfl

theorem focalSum (h : Keeper engine custody frame) {raster : Raster}
    (hheld : raster.held ≤ frame) :
    Keeps (custody.order lowering) frame 0 (engine.focalSum raster) Raster.held :=
  (Keeps.lift _).bind fun kernel => h.convolve hheld kernel

theorem zonal (h : Keeper engine custody frame) {raster : Raster} (hheld : raster.held ≤ frame)
    (op : ReductionOp) :
    Keeps (custody.order lowering) frame 0 (engine.zonal raster op) Raster.held :=
  h.derive hheld fun _ => rfl

theorem zonalMasked (h : Keeper engine custody frame) {raster : Raster} {condition : Option Raster}
    (hraster : raster.held ≤ frame) (hcondition : heldIfAny Raster.held condition ≤ frame)
    (op : ReductionOp) :
    Keeps (custody.order lowering) frame 0 (engine.zonalMasked raster condition op) Raster.held := by
  cases condition with
  | none => exact h.zonal hraster op
  | some condition =>
      refine (ask raster h.honors.dataType).bind fun _ => (Keeps.lift _).bind fun neutral => ?_
      have hselect : Keeps (custody.order lowering) frame 0
          (engine.select (.node condition) (.node raster) (.host neutral)) Operand.held :=
        h.select hcondition hraster h.nonneg
      refine hselect.bind fun masked => (toRaster masked).bind fun masked => ?_
      exact h.lending ((h.beside masked).zonal (h.lent masked) op)

theorem radial (h : Keeper engine custody frame) {raster : Raster} (hheld : raster.held ≤ frame)
    (op : ReductionOp) (origin : Coord) :
    Keeps (custody.order lowering) frame 0 (engine.radial raster op origin) Raster.held :=
  h.derive hheld fun _ => rfl

theorem blockStats (h : Keeper engine custody frame) {raster : Raster} (hheld : raster.held ≤ frame)
    (op : ReductionOp) :
    Keeps (custody.order lowering) frame 0 (engine.blockStats raster op) Raster.held :=
  h.derive hheld fun _ => rfl

-- A summary is a handle or left out.
theorem summary_backed {slot : Option Raster} (h : heldIfAny Raster.held slot ≤ frame) :
    (slot.map Raster.address).getD Address.null = Address.null ∨
      Tally.one ((slot.map Raster.address).getD Address.null) ≤ frame := by
  cases slot with
  | none => exact Or.inl rfl
  | some raster =>
      cases hnode : raster.node with
      | none => exact Or.inl (by simp [Raster.address, hnode])
      | some node =>
          have haddress : raster.address = node := by rw [Raster.address, hnode, Option.getD_some]
          simp only [Option.map_some, Option.getD_some, haddress]
          exact Or.inr (Raster.held_of_node hnode ▸ h)

theorem statsNode (h : Keeper engine custody frame) {raster : Raster} (hheld : raster.held ≤ frame)
    {summaries : Summaries} (hsummaries : summaries.Lent frame) :
    Keeps (custody.order lowering) frame 0 (engine.statsNode raster summaries) Raster.held := by
  refine Keeps.lift_bind fun node hnode => h.make ?_
  refine List.forall_mem_cons.mpr ⟨Or.inr (Raster.one_le hnode hheld), ?_⟩
  refine List.forall_mem_cons.mpr ⟨summary_backed hsummaries.lowest, ?_⟩
  refine List.forall_mem_cons.mpr ⟨summary_backed hsummaries.highest, ?_⟩
  exact List.forall_mem_cons.mpr ⟨summary_backed hsummaries.mean,
    List.forall_mem_singleton.mpr (summary_backed hsummaries.deviation)⟩

theorem stats (h : Keeper engine custody frame) {raster : Raster} (hheld : raster.held ≤ frame)
    {summaries : Summaries} (hsummaries : summaries.Lent frame) :
    Keeps (custody.order lowering) frame 0 (engine.stats raster summaries) Raster.held := by
  unfold Engine.stats
  split
  · refine (h.blockStats hheld .min).bind fun lowest => h.lending ?_
    have hlowest := h.beside lowest
    have hraster := hheld.trans (le_beside lowest frame)
    refine (hlowest.blockStats hraster .max).bind fun highest => hlowest.lending ?_
    have hhighest := hlowest.beside highest
    exact hhighest.statsNode (hraster.trans (le_beside highest _))
      ⟨(h.lent lowest).trans (le_beside highest _), hlowest.lent highest, hhighest.nonneg,
        hhighest.nonneg⟩
  · exact h.statsNode hheld hsummaries

end Keeper

end MapAlgebra
