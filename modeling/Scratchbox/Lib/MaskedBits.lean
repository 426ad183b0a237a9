import Mathlib.Data.BitVec

/-!
# Bit vectors under masks

Words that are put together from the fields of others, and flags that are tested with a
mask of one bit.
-/

namespace MaskedBits

variable {w : Nat} {x y mask mask' : BitVec w}

theorem and_or_eq_iff :
    x &&& (mask ||| mask') = y &&& (mask ||| mask') ↔
      x &&& mask = y &&& mask ∧ x &&& mask' = y &&& mask' := by
  constructor
  · intro agree
    have left : (mask ||| mask') &&& mask = mask := by
      ext i hi
      simp only [BitVec.getElem_and, BitVec.getElem_or]
      cases mask[i] <;> simp
    have right : (mask ||| mask') &&& mask' = mask' := by
      ext i hi
      simp only [BitVec.getElem_and, BitVec.getElem_or]
      cases mask'[i] <;> simp
    constructor
    · rw [← left, ← BitVec.and_assoc, agree, BitVec.and_assoc]
    · rw [← right, ← BitVec.and_assoc, agree, BitVec.and_assoc]
  · rintro ⟨left, right⟩
    rw [BitVec.and_or_distrib_left, left, right, BitVec.and_or_distrib_left]

theorem and_eq_of_part (part : mask' &&& mask = mask) (agree : x &&& mask' = y &&& mask') :
    x &&& mask = y &&& mask := by
  rw [← part, ← BitVec.and_assoc, agree, BitVec.and_assoc]

theorem not_and_eq_of_and_eq_zero (none : x &&& mask = 0#w) : ~~~x &&& mask = mask := by
  ext i hi
  have bit : (x &&& mask)[i] = false := by rw [none, BitVec.getElem_zero]
  rw [BitVec.getElem_and] at bit
  rw [BitVec.getElem_and, BitVec.getElem_not]
  revert bit
  cases x[i] <;> cases mask[i] <;> decide

/-- Clearing the bits of `mask` is seen under `mask'` if `x` has one that is in both. -/
theorem and_not_and_eq_iff :
    x &&& ~~~mask &&& mask' = x &&& mask' ↔ x &&& (mask &&& mask') = 0#w := by
  constructor
  · intro same
    ext i hi
    have bit : (x &&& ~~~mask &&& mask')[i] = (x &&& mask')[i] := by rw [same]
    simp only [BitVec.getElem_and, BitVec.getElem_not, BitVec.getElem_zero] at bit ⊢
    revert bit
    cases x[i] <;> cases mask[i] <;> cases mask'[i] <;> decide
  · intro none
    ext i hi
    have bit : (x &&& (mask &&& mask'))[i] = false := by rw [none, BitVec.getElem_zero]
    simp only [BitVec.getElem_and, BitVec.getElem_not] at bit ⊢
    revert bit
    cases x[i] <;> cases mask[i] <;> cases mask'[i] <;> decide

end MaskedBits
