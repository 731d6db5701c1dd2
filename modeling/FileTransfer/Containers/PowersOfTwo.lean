import Mathlib.Data.Nat.Bitwise
import Mathlib.Data.Nat.Size

/-!
# Rounding up to a power of two

A number whose bits have been spread to all lower positions is one less than a
power of two. Spreading by 1, 2, 4, 8 and 16 positions reaches 31 positions
down, which is enough below 2^32.
-/

namespace FileTransfer.Containers

set_option autoImplicit false

/-- The bits of `spread` are those of `number` and of up to `width - 1`
positions below each. -/
def SpreadsBits (number width spread : ℕ) : Prop :=
  ∀ position, spread.testBit position = true ↔
    ∃ above < width, number.testBit (position + above) = true

theorem spreads_bits_one (number : ℕ) : SpreadsBits number 1 number := by
  intro position
  constructor
  · intro set
    exact ⟨0, Nat.one_pos, set⟩
  · rintro ⟨above, bound, set⟩
    have zero : above = 0 := by omega
    rwa [zero] at set

theorem SpreadsBits.double {number width spread : ℕ} (spreads : SpreadsBits number width spread) :
    SpreadsBits number (2 * width) (spread ||| spread >>> width) := by
  intro position
  rw [Nat.testBit_or, Nat.testBit_shiftRight, Bool.or_eq_true, spreads position,
    spreads (width + position)]
  constructor
  · rintro (⟨above, bound, set⟩ | ⟨above, bound, set⟩)
    · exact ⟨above, by omega, set⟩
    · refine ⟨width + above, by omega, ?_⟩
      rwa [show position + (width + above) = width + position + above by omega]
  · rintro ⟨above, bound, set⟩
    by_cases near : above < width
    · exact .inl ⟨above, near, set⟩
    · refine .inr ⟨above - width, by omega, ?_⟩
      rwa [show width + position + (above - width) = position + above by omega]

/-- Spread over its whole length, a number has become one less than the power
of two above it. -/
theorem SpreadsBits.succ_eq {number width spread : ℕ} (spreads : SpreadsBits number width spread)
    (whole : number.size ≤ width) : spread + 1 = 2 ^ number.size := by
  have below : spread = 2 ^ number.size - 1 := by
    apply Nat.eq_of_testBit_eq
    intro position
    rw [Nat.testBit_two_pow_sub_one, Bool.eq_iff_iff, spreads position, decide_eq_true_iff]
    constructor
    · rintro ⟨above, bound, set⟩
      have inside : position + above < number.size :=
        Nat.lt_size.mpr (Nat.ge_two_pow_of_testBit set)
      omega
    · intro inside
      refine ⟨number.size - 1 - position, by omega, ?_⟩
      rw [show position + (number.size - 1 - position) = number.size - 1 by omega]
      apply Nat.testBit_of_two_pow_le_and_two_pow_add_one_gt
      · exact Nat.lt_size.mp (by omega)
      · rw [show number.size - 1 + 1 = number.size by omega]
        exact Nat.lt_size_self number
  have positive : 0 < 2 ^ number.size := Nat.two_pow_pos _
  omega

end FileTransfer.Containers
