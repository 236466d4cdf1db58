import MapAlgebra.Graph.Build
import MapAlgebra.Proofs.Outcome

namespace MapAlgebra.Graph

variable {ν : Type} {info : ν → Except MapError Meta} {isEmpty : ν → Bool} {store : Store}
  {request : Request ν} {draft : Draft}

section Drafted

variable (info isEmpty store)

-- What a request comes to when all of its checks are passed, one case for each request.
inductive Drafted : Request ν → Draft → Prop
  | constant {value converted : Scalar} {layout : Layout}
      (hvalue : value.convert layout.dtype = .ok converted) :
      Drafted (.constant value layout) ⟨.constant converted, .ofLayout layout, none⟩
  | index {layout : Layout} {dimension : Dimension} {axis : Nat}
      (hdimension : axisOf dimension = .ok axis) (haxis : axis < layout.size.rank) :
      Drafted (.index layout dimension) ⟨.index axis, .ofLayout layout, none⟩
  | rand {seed : ν} {dtype : DataType} {order : MemOrder} {note : Meta}
      (hnote : info seed = .ok note) :
      Drafted (.rand seed dtype order)
        ⟨.rand, { note.derived dtype note.shape with order }, none⟩
  | cast {node : ν} {dtype : DataType} {note : Meta} (hdtype : dtype ≠ .untyped)
      (hnote : info node = .ok note) :
      Drafted (.cast node dtype) ⟨.cast, note.derived dtype note.shape, none⟩
  | unary {node : ν} {op : UnaryOp} {note : Meta} (hnote : info node = .ok note) :
      Drafted (.unary node op)
        ⟨.unary op, note.derived (op.resultType note.dtype) note.shape, none⟩
  | binary {left right : ν} {op : BinaryOp} {leftNote rightNote : Meta} {shape : List Nat}
      (hleft : info left = .ok leftNote) (hright : info right = .ok rightNote)
      (hshape : broadcast leftNote.shape rightNote.shape = .ok shape) :
      Drafted (.binary left right op)
        ⟨.binary op, (if leftNote.shape = [] then rightNote else leftNote).derived
          (op.resultType leftNote.dtype rightNote.dtype) shape, none⟩
  | conditional {condition yes no : ν} {conditionNote yesNote noNote : Meta}
      {yesFound noFound : Option Meta} {middle shape : List Nat}
      (hcondition : info condition = .ok conditionNote)
      (hyes : branch info isEmpty yes = .ok yesFound)
      (hno : branch info isEmpty no = .ok noFound)
      (hbranches : branches yesFound noFound = .ok (yesNote, noNote))
      (hmiddle : broadcast conditionNote.shape yesNote.shape = .ok middle)
      (hshape : broadcast middle noNote.shape = .ok shape) :
      Drafted (.conditional condition yes no)
        ⟨.conditional, (([yesNote, noNote, conditionNote].find? (·.shape ≠ [])).getD yesNote).derived
          (yesNote.dtype.promote noNote.dtype) shape,
          if yesFound.isNone then some yesNote else if noFound.isNone then some noNote else none⟩
  | access {node : ν} {position : Coord} {note : Meta} (hnote : info node = .ok note)
      (hposition : checkCoord note position = .ok ()) :
      Drafted (.access node position) ⟨.access position, note.derived note.dtype [], none⟩
  | update {node value : ν} {position : Coord} {note valueNote : Meta}
      (hnote : info node = .ok note) (hvalue : info value = .ok valueNote)
      (hposition : checkCoord note position = .ok ()) (hsingle : valueNote.shape = []) :
      Drafted (.update node value position)
        ⟨.update position, note.derived note.dtype note.shape, none⟩
  | neighbor {node : ν} {offset : Coord} {note : Meta} (hnote : info node = .ok note) :
      Drafted (.neighbor node offset)
        ⟨.neighbor offset, note.derived note.dtype note.shape, none⟩
  | boundedNeighbor {node rows columns : ν} {note rowNote columnNote : Meta}
      {rowShape columnShape : List Nat} (hnote : info node = .ok note)
      (hrow : info rows = .ok rowNote) (hcolumn : info columns = .ok columnNote)
      (haxes : note.shape ≠ [])
      (hintegers : rowNote.dtype.isInteger = true ∧ columnNote.dtype.isInteger = true)
      (hrows : broadcast note.shape rowNote.shape = .ok rowShape)
      (hcolumns : broadcast note.shape columnNote.shape = .ok columnShape) :
      Drafted (.boundedNeighbor node rows columns)
        ⟨.boundedNeighbor, note.derived note.dtype note.shape, none⟩
  | convolution {node : ν} {kernel : List Scalar} {shape : Shape} {weights : Weights} {note : Meta}
      (hweights : weightsOf kernel shape = .ok weights) (hnote : info node = .ok note)
      (hplane : note.shape.length = 2) :
      Drafted (.convolution node kernel shape)
        ⟨.convolution weights, note.derived (note.dtype.promote weights.dtype) note.shape, none⟩
  | focal {node : ν} {kernel : List Scalar} {shape : Shape} {op : ReductionOp} {weights : Weights}
      {note : Meta} (hweights : weightsOf kernel shape = .ok weights)
      (hnote : info node = .ok note) (hplane : note.shape.length = 2) :
      Drafted (.focal node kernel shape op)
        ⟨.focal weights op, note.derived (op.resultType note.dtype) note.shape, none⟩
  | zonal {node : ν} {op : ReductionOp} {note : Meta} (hnote : info node = .ok note) :
      Drafted (.zonal node op) ⟨.zonal op, note.derived (op.resultType note.dtype) [], none⟩
  | radial {node : ν} {op : ReductionOp} {origin : Coord} {note : Meta}
      (hnote : info node = .ok note) (hplane : note.shape.length = 2) :
      Drafted (.radial node op origin)
        ⟨.radial op origin, note.derived (op.resultType note.dtype) note.shape, none⟩
  | blockStats {node : ν} {op : ReductionOp} {note : Meta} (hnote : info node = .ok note) :
      Drafted (.blockStats node op)
        ⟨.blockStats op, note.derived (op.resultType note.dtype)
          (blockCounts note.shape note.block.extents), none⟩
  | stats {node lowest highest mean deviation : ν} {note : Meta} (hnote : info node = .ok note) :
      Drafted (.stats node lowest highest mean deviation)
        ⟨.stats, note.derived note.dtype note.shape, none⟩
  | barrier {node : ν} {note : Meta} (hnote : info node = .ok note) :
      Drafted (.barrier node) ⟨.barrier, note.derived note.dtype note.shape, none⟩
  | identity {node : ν} {note : Meta} (hnote : info node = .ok note) :
      Drafted (.identity node) ⟨.identity, note.derived note.dtype note.shape, none⟩
  | read {resource : String} {grid : Grid} (hgrid : store.load resource = .ok grid) :
      Drafted (.read resource)
        ⟨.read resource grid, ⟨grid.dtype, grid.shape, .usual, .unset, .unset, .input⟩, none⟩

end Drafted

theorem requirePlane_eq_ok {note : Meta} {kind : NodeKind} (h : requirePlane note kind = .ok ()) :
    note.shape.length = 2 := by
  unfold requirePlane at h
  split at h
  · assumption
  · cases h

theorem draftLike_eq_ok {node : ν} {kind : NodeKind} (h : draftLike info node kind = .ok draft) :
    ∃ note, info node = .ok note ∧ draft = ⟨kind, note.derived note.dtype note.shape, none⟩ := by
  obtain ⟨note, hnote, h⟩ := bind_eq_ok.mp h
  cases h
  exact ⟨note, hnote, rfl⟩

-- A node that is made from a plane. Its type can depend on what is noted about the plane.
theorem draftFocal_eq_ok {node : ν} {kind : NodeKind} {f : Meta → DataType}
    (h : (do draftFocal info node kind (f (← info node))) = .ok draft) :
    ∃ note, info node = .ok note ∧ note.shape.length = 2 ∧
      draft = ⟨kind, note.derived (f note) note.shape, none⟩ := by
  obtain ⟨note, hnote, h⟩ := bind_eq_ok.mp h
  obtain ⟨found, hfound, h⟩ := bind_eq_ok.mp h
  obtain ⟨_, hplane, h⟩ := bind_eq_ok.mp h
  cases h
  cases hnote.symm.trans hfound
  exact ⟨note, hnote, requirePlane_eq_ok hplane, rfl⟩

-- A branch is known or empty.
theorem branch_cases {node : ν} {note : Option Meta} (h : branch info isEmpty node = .ok note) :
    (isEmpty node = true ∧ note = none) ∨
      (isEmpty node = false ∧ ∃ found, info node = .ok found ∧ note = some found) := by
  unfold branch at h
  split at h
  · rename_i hempty
    cases h
    exact Or.inl ⟨hempty, rfl⟩
  · rename_i hthere
    obtain ⟨found, hfound, rfl⟩ := map_eq_ok.mp h
    exact Or.inr ⟨Bool.eq_false_iff.mpr hthere, found, hfound, rfl⟩

theorem isNone_of_branch {node : ν} {note : Option Meta} (h : branch info isEmpty node = .ok note) :
    note.isNone = isEmpty node := by
  obtain ⟨hempty, rfl⟩ | ⟨hthere, _, _, rfl⟩ := branch_cases h
  · exact hempty.symm
  · exact hthere.symm

theorem branch_present {node : ν} {note : Meta} (hthere : isEmpty node = false)
    (hnote : info node = .ok note) : branch info isEmpty node = .ok (some note) := by
  rw [branch, hthere, if_neg Bool.false_ne_true, hnote]
  rfl

-- A conditional with both of its branches.
theorem draftConditional_eq {condition yes no : ν} {conditionNote yesNote noNote : Meta}
    {middle shape : List Nat} (hcondition : info condition = .ok conditionNote)
    (hyes : branch info isEmpty yes = .ok (some yesNote))
    (hno : branch info isEmpty no = .ok (some noNote))
    (hmiddle : broadcast conditionNote.shape yesNote.shape = .ok middle)
    (hshape : broadcast middle noNote.shape = .ok shape) :
    draftConditional info isEmpty condition yes no =
      .ok ⟨.conditional, (([yesNote, noNote, conditionNote].find? (·.shape ≠ [])).getD yesNote).derived
        (yesNote.dtype.promote noNote.dtype) shape, none⟩ :=
  bind_eq_ok.mpr ⟨_, hcondition, bind_eq_ok.mpr ⟨_, hyes, bind_eq_ok.mpr ⟨_, hno, bind_eq_ok.mpr
    ⟨_, rfl, bind_eq_ok.mpr ⟨_, hmiddle, bind_eq_ok.mpr ⟨_, hshape, rfl⟩⟩⟩⟩⟩⟩

theorem draftOf_eq_ok (h : draftOf info isEmpty store request = .ok draft) :
    Drafted info isEmpty store request draft := by
  cases request with
  | constant value layout =>
      obtain ⟨_, hvalue, h⟩ := bind_eq_ok.mp h
      cases h
      exact .constant hvalue
  | index layout dimension =>
      obtain ⟨axis, hdimension, h⟩ := bind_eq_ok.mp h
      obtain ⟨haxis, h⟩ := unless_eq_ok.mp h
      cases h
      exact .index hdimension (Nat.lt_of_not_le haxis)
  | rand seed dtype order =>
      obtain ⟨note, hnote, h⟩ := bind_eq_ok.mp h
      cases h
      exact .rand hnote
  | cast node dtype =>
      obtain ⟨hdtype, h⟩ := unless_eq_ok.mp h
      obtain ⟨note, hnote, h⟩ := bind_eq_ok.mp h
      cases h
      exact .cast hdtype hnote
  | unary node op =>
      obtain ⟨note, hnote, h⟩ := bind_eq_ok.mp h
      cases h
      exact .unary hnote
  | binary left right op =>
      obtain ⟨leftNote, hleft, h⟩ := bind_eq_ok.mp h
      obtain ⟨rightNote, hright, h⟩ := bind_eq_ok.mp h
      obtain ⟨shape, hshape, h⟩ := bind_eq_ok.mp h
      cases h
      exact .binary hleft hright hshape
  | conditional condition yes no =>
      obtain ⟨conditionNote, hcondition, h⟩ := bind_eq_ok.mp h
      obtain ⟨yesFound, hyes, h⟩ := bind_eq_ok.mp h
      obtain ⟨noFound, hno, h⟩ := bind_eq_ok.mp h
      obtain ⟨⟨yesNote, noNote⟩, hbranches, h⟩ := bind_eq_ok.mp h
      obtain ⟨middle, hmiddle, h⟩ := bind_eq_ok.mp h
      obtain ⟨shape, hshape, h⟩ := bind_eq_ok.mp h
      cases h
      exact .conditional hcondition hyes hno hbranches hmiddle hshape
  | access node position =>
      obtain ⟨note, hnote, h⟩ := bind_eq_ok.mp h
      obtain ⟨_, hposition, h⟩ := bind_eq_ok.mp h
      cases h
      exact .access hnote hposition
  | update node value position =>
      obtain ⟨note, hnote, h⟩ := bind_eq_ok.mp h
      obtain ⟨valueNote, hvalue, h⟩ := bind_eq_ok.mp h
      obtain ⟨_, hposition, h⟩ := bind_eq_ok.mp h
      obtain ⟨hsingle, h⟩ := unless_eq_ok.mp h
      cases h
      exact .update hnote hvalue hposition (not_not.mp hsingle)
  | neighbor node offset =>
      obtain ⟨note, hnote, rfl⟩ := draftLike_eq_ok h
      exact .neighbor hnote
  | boundedNeighbor node rows columns =>
      obtain ⟨note, hnote, h⟩ := bind_eq_ok.mp h
      obtain ⟨rowNote, hrow, h⟩ := bind_eq_ok.mp h
      obtain ⟨columnNote, hcolumn, h⟩ := bind_eq_ok.mp h
      obtain ⟨haxes, h⟩ := unless_eq_ok.mp h
      obtain ⟨hintegers, h⟩ := unless_eq_ok.mp h
      obtain ⟨_, hrows, h⟩ := bind_eq_ok.mp h
      obtain ⟨_, hcolumns, h⟩ := bind_eq_ok.mp h
      cases h
      exact .boundedNeighbor hnote hrow hcolumn haxes (by simpa using hintegers) hrows hcolumns
  | convolution node kernel shape =>
      obtain ⟨weights, hweights, h⟩ := bind_eq_ok.mp h
      obtain ⟨note, hnote, hplane, rfl⟩ :=
        draftFocal_eq_ok (f := fun note => note.dtype.promote weights.dtype) h
      exact .convolution hweights hnote hplane
  | focal node kernel shape op =>
      obtain ⟨weights, hweights, h⟩ := bind_eq_ok.mp h
      obtain ⟨note, hnote, hplane, rfl⟩ :=
        draftFocal_eq_ok (f := fun note => op.resultType note.dtype) h
      exact .focal hweights hnote hplane
  | zonal node op =>
      obtain ⟨note, hnote, h⟩ := bind_eq_ok.mp h
      cases h
      exact .zonal hnote
  | radial node op origin =>
      obtain ⟨note, hnote, hplane, rfl⟩ :=
        draftFocal_eq_ok (f := fun note => op.resultType note.dtype) h
      exact .radial hnote hplane
  | blockStats node op =>
      obtain ⟨note, hnote, h⟩ := bind_eq_ok.mp h
      cases h
      exact .blockStats hnote
  | stats node lowest highest mean deviation =>
      obtain ⟨note, hnote, rfl⟩ := draftLike_eq_ok h
      exact .stats hnote
  | barrier node =>
      obtain ⟨note, hnote, rfl⟩ := draftLike_eq_ok h
      exact .barrier hnote
  | identity node =>
      obtain ⟨note, hnote, rfl⟩ := draftLike_eq_ok h
      exact .identity hnote
  | read resource =>
      obtain ⟨grid, hgrid, h⟩ := bind_eq_ok.mp h
      cases h
      exact .read hgrid

end MapAlgebra.Graph
