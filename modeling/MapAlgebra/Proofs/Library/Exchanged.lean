import MapAlgebra.Library.Binding
import MapAlgebra.Proofs.Shape.Slots
import Mathlib

namespace MapAlgebra

namespace Coded

theorem ofCode_code (dtype : DataType) : (ofCode (code dtype) : Except MapError DataType) = .ok dtype := by
  cases dtype <;> rfl

theorem code_of_ofCode {α : Type} [Coded α] {number : Int} {member : α}
    (h : ofCode number = Except.ok member) : code member = number := by
  unfold ofCode at h
  split at h
  · rename_i found hfound
    obtain rfl := Except.ok.inj h
    simpa using List.find?_some hfound
  · cases h

end Coded

namespace Library

namespace Image

theorem dtype_toScalar (image : Image) : image.toScalar.dtype = image.dtype := by
  obtain ⟨dtype, bits, known⟩ := image
  cases dtype with
  | untyped => exact absurd known (Nat.not_lt_zero _)
  | _ => rfl

theorem typed (image : Image) : image.dtype ≠ .untyped := by
  intro h
  have known := image.known
  rw [h] at known
  exact Nat.not_lt_zero _ known

-- Every number is read back from its bits.
theorem toScalar_ofScalar (scalar : Scalar) : (ofScalar scalar).toScalar = scalar := by
  cases scalar with
  | bool value => cases value <;> rfl
  | f32 value => simp only [ofScalar, toScalar, UInt32.ofNat_toNat, Float32.ofBits_toBits]
  | f64 value => simp only [ofScalar, toScalar, UInt64.ofNat_toNat, Float.ofBits_toBits]
  | _ => simp [ofScalar, toScalar]

end Image

namespace RawScalar

variable {raw : RawScalar} {image : Image}

theorem bits_of_field (h : raw.field image.dtype.bytes = image.bits) :
    raw.bits image.dtype = image.bits := by
  rw [bits, h]
  split
  · rename_i hbool
    have known := image.known
    rw [hbool] at known
    exact Nat.min_eq_left (Nat.le_of_lt_succ known)
  · rfl

-- The word of an image holds its bits in the low bytes.
theorem field_ofImage (image : Image) : (ofImage image).field image.dtype.bytes = image.bits := by
  obtain ⟨dtype, bits, known⟩ := image
  have hfits : bits < Nat.pow 2 (8 * dtype.bytes) ∧ bits < 2 ^ 64 := by
    cases dtype with
    | untyped => exact absurd known (Nat.not_lt_zero _)
    | b8 =>
        have hfew : bits < 2 := known
        have hbyte : Nat.pow 2 (8 * DataType.b8.bytes) = 256 := rfl
        omega
    | _ => exact ⟨known, Nat.lt_of_lt_of_le known (by decide)⟩
  rw [field, ofImage, UInt64.toNat_ofNat_of_lt' hfits.2, Nat.mod_eq_of_lt hfits.1]

-- What lies above the field that the type names is not looked at.
theorem toImage_of_field (hcode : raw.code = Coded.code image.dtype)
    (hfield : raw.field image.dtype.bytes = image.bits) : raw.toImage = .ok image := by
  unfold toImage
  rw [hcode, Coded.ofCode_code]
  refine (dif_neg image.typed).trans (congrArg Except.ok ?_)
  exact Image.ext rfl (bits_of_field hfield)

-- A not-a-number of single precision, with a bit of its own and a word whose upper half is in use.
example : toImage ⟨0x123456787fc00001, 1⟩ = .ok ⟨.f32, 0x7fc00001, by decide⟩ := rfl

theorem toImage_ofImage (image : Image) : (ofImage image).toImage = .ok image :=
  toImage_of_field rfl (field_ofImage image)

theorem code_of_toImage (h : raw.toImage = .ok image) : Coded.code image.dtype = raw.code := by
  obtain ⟨dtype, hdtype, h⟩ := bind_eq_ok.mp h
  split at h
  · cases h
  · cases h
    exact Coded.code_of_ofCode hdtype

theorem toImage_total_iff : (∃ image, raw.toImage = .ok image) ↔
    ∃ dtype : DataType, dtype ≠ .untyped ∧ Coded.code dtype = raw.code := by
  constructor
  · rintro ⟨image, h⟩
    exact ⟨image.dtype, image.typed, code_of_toImage h⟩
  · rintro ⟨dtype, htyped, hcode⟩
    exact ⟨_, bind_eq_ok.mpr ⟨dtype, hcode ▸ Coded.ofCode_code dtype, dif_neg htyped⟩⟩

theorem toScalar_eq_ok {scalar : Scalar} :
    raw.toScalar = .ok scalar ↔ ∃ image, raw.toImage = .ok image ∧ image.toScalar = scalar := by
  unfold toScalar
  simp only [bind_eq_ok, pure_eq_ok]

theorem toScalar_ofScalar (scalar : Scalar) : (ofScalar scalar).toScalar = .ok scalar :=
  toScalar_eq_ok.mpr ⟨_, toImage_ofImage _, Image.toScalar_ofScalar scalar⟩

theorem code_of_toScalar {scalar : Scalar} (h : raw.toScalar = .ok scalar) :
    Coded.code scalar.dtype = raw.code := by
  obtain ⟨image, himage, rfl⟩ := toScalar_eq_ok.mp h
  rw [Image.dtype_toScalar]
  exact code_of_toImage himage

theorem toScalar_total_iff : (∃ scalar, raw.toScalar = .ok scalar) ↔
    ∃ dtype : DataType, dtype ≠ .untyped ∧ Coded.code dtype = raw.code := by
  rw [← toImage_total_iff]
  constructor
  · rintro ⟨scalar, h⟩
    obtain ⟨image, himage, -⟩ := toScalar_eq_ok.mp h
    exact ⟨image, himage⟩
  · rintro ⟨image, himage⟩
    exact ⟨_, toScalar_eq_ok.mpr ⟨image, himage, rfl⟩⟩

-- A raw scalar is refused for its code alone.
theorem toScalar_error_iff : (∃ problem, raw.toScalar = .error problem) ↔
    ∀ dtype : DataType, dtype ≠ .untyped → Coded.code dtype ≠ raw.code := by
  have hfails : (∃ problem, raw.toScalar = .error problem) ↔ ¬ ∃ scalar, raw.toScalar = .ok scalar := by
    cases raw.toScalar <;> simp
  rw [hfails, toScalar_total_iff]
  simp only [not_exists, not_and, ne_eq]

end RawScalar

theorem mapM_rawKernel (kernel : List Scalar) :
    (rawKernel kernel).mapM RawScalar.toScalar = .ok kernel :=
  mapM_eq_ok.mpr (List.forall₂_map_left_iff.mpr
    (List.forall₂_same.mpr fun scalar _ => RawScalar.toScalar_ofScalar scalar))

-- What a library reports as a shape is read as a pair of slots.
theorem askShape_eq {σ : Type} (library : Foreign σ) (symbol : String) (node : Address) (state : σ) :
    (library.askShape symbol node state).1 =
      Shape.ofRaw (library.array ⟨symbol, [.node node]⟩ state).1 := by
  unfold Foreign.askShape
  rw [run_bind]
  rfl

-- Shapes and scalars come back from the form in which libraries exchange them just as they went there.
-- A pair of slots stands for a shape if it has the form, whether it comes as a pair, from a library or
-- in a text, and it stands for the shape that it is the pair of. Of a scalar every bit is kept, whatever
-- fills the rest of the word, and only a code that is no type's is refused.
theorem exchanged_values_exact :
    (∀ extents : List Int,
      ((∃ shape, Shape.withRank extents = .ok shape) ↔
        extents.length ≤ maxRank ∧ ∀ extent ∈ extents, 0 ≤ extent) ∧
      ∀ shape, Shape.withRank extents = .ok shape → shape.toRaw.used = extents) ∧
    (∀ shape : Shape, shape.toRaw.Proper ∧ (shape.isUnset = true ↔ shape.toRaw.count = 0) ∧
      (shape.isUnset = true → ∀ slot ∈ shape.toRaw.slots, slot = unsetExtent)) ∧
    (∀ raw : Shape.Raw, ((∃ shape, Shape.ofRaw raw = .ok shape) ↔ raw.Proper) ∧
      ∀ shape, Shape.ofRaw raw = .ok shape ↔ shape.toRaw = raw) ∧
    (∀ (σ : Type) (library : Foreign σ) (symbol : String) (node : Address) (state : σ),
      ((∃ shape, (library.askShape symbol node state).1 = .ok shape) ↔
        (library.array ⟨symbol, [.node node]⟩ state).1.Proper) ∧
      ∀ shape, (library.askShape symbol node state).1 = .ok shape ↔
        shapeArgument shape = .array (library.array ⟨symbol, [.node node]⟩ state).1) ∧
    (∀ text shape, readData Shape.ofJson? text = .ok shape ↔
      readData Shape.Raw.ofJson? text = .ok shape.toRaw) ∧
    (∀ first second count : Int32,
      ((∃ shape, readData Shape.ofJson? (Shape.Raw.ofWords first second count).dataText =
        .ok shape) ↔ (Shape.Raw.ofWords first second count).Proper) ∧
      ∀ shape, readData Shape.ofJson? (Shape.Raw.ofWords first second count).dataText = .ok shape ↔
        shape.toRaw = Shape.Raw.ofWords first second count) ∧
    (∀ (image : Image) (raw : RawScalar), raw.code = (RawScalar.ofImage image).code →
      raw.field image.dtype.bytes = (RawScalar.ofImage image).field image.dtype.bytes →
        raw.toImage = .ok image) ∧
    (∀ scalar, (RawScalar.ofScalar scalar).toScalar = .ok scalar) ∧
    (∀ raw : RawScalar, ((∃ problem, raw.toScalar = .error problem) ↔
        ∀ dtype : DataType, dtype ≠ .untyped → Coded.code dtype ≠ raw.code) ∧
      ∀ scalar, raw.toScalar = .ok scalar → Coded.code scalar.dtype = raw.code) ∧
    ∀ kernel, (rawKernel kernel).length = kernel.length ∧
      (rawKernel kernel).mapM RawScalar.toScalar = .ok kernel := by
  refine ⟨fun extents => ?_, fun shape => ?_, fun raw => ?_, fun σ library symbol node state => ?_,
    fun text shape => ?_, fun first second count => ?_, fun image raw hcode hfield => ?_,
    fun scalar => ?_, fun raw => ?_, fun kernel => ?_⟩
  · exact ⟨Shape.withRank_total_iff, fun _ => Shape.used_withRank⟩
  · exact ⟨shape.proper_toRaw, shape.isUnset_iff, Shape.slots_of_isUnset⟩
  · exact ⟨Shape.ofRaw_total_iff, fun _ => Shape.ofRaw_eq_ok_iff⟩
  · rw [askShape_eq]
    refine ⟨Shape.ofRaw_total_iff, fun shape => ?_⟩
    rw [Shape.ofRaw_eq_ok_iff, shapeArgument, Argument.array.injEq]
  · exact Shape.readData_shape_iff text
  · refine ⟨?_, fun shape => Shape.readData_words_iff first second count⟩
    rw [← Shape.exists_toRaw_iff]
    exact exists_congr fun shape => Shape.readData_words_iff first second count
  · exact RawScalar.toImage_of_field hcode (hfield.trans (RawScalar.field_ofImage image))
  · exact RawScalar.toScalar_ofScalar scalar
  · exact ⟨RawScalar.toScalar_error_iff, fun _ => RawScalar.code_of_toScalar⟩
  · exact ⟨List.length_map _, mapM_rawKernel kernel⟩

end Library

end MapAlgebra
