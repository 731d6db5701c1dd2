import Mathlib.Init

/-!
# Flags in a word

Setting and clearing the bits of a mask, and what it does to the bits of
another.
-/

namespace FileTransfer.Binary

set_option autoImplicit false

section Masks

variable (flags : UInt16) {other mask : UInt16}

theorem or_mask (mask : UInt16) : (flags ||| mask) &&& mask = mask := by
  apply UInt16.toBitVec_inj.mp
  ext i bound
  simp only [UInt16.toBitVec_and, UInt16.toBitVec_or, BitVec.getElem_and, BitVec.getElem_or]
  cases mask.toBitVec[i] <;> simp

theorem clear_mask (mask : UInt16) : (flags &&& ~~~mask) &&& mask = 0 := by
  rw [UInt16.and_assoc]
  simp

theorem or_other_mask (apart : other &&& mask = 0) :
    (flags ||| other) &&& mask = flags &&& mask := by
  apply UInt16.toBitVec_inj.mp
  ext i bound
  have bits := congrArg (fun bits => bits.toBitVec[i]) apart
  simp only [UInt16.toBitVec_and, UInt16.toBitVec_or, BitVec.getElem_and, BitVec.getElem_or,
    UInt16.toBitVec_zero, BitVec.getElem_zero] at bits ⊢
  cases flags.toBitVec[i] <;> simp [bits]

theorem clear_other_mask (apart : other &&& mask = 0) :
    (flags &&& ~~~other) &&& mask = flags &&& mask := by
  apply UInt16.toBitVec_inj.mp
  ext i bound
  have bits := congrArg (fun bits => bits.toBitVec[i]) apart
  simp only [UInt16.toBitVec_and, UInt16.toBitVec_not, BitVec.getElem_and, BitVec.getElem_not,
    UInt16.toBitVec_zero, BitVec.getElem_zero] at bits ⊢
  cases flags.toBitVec[i] <;> cases cleared : other.toBitVec[i] <;> simp_all

end Masks

end FileTransfer.Binary
