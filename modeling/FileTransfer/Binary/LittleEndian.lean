import Mathlib.Data.Nat.ModEq
import Mathlib.Tactic.Ring

/-!
# Numbers as bytes

A number in a fixed count of bytes, least significant first.
-/

namespace FileTransfer.Binary

set_option autoImplicit false

/-- What does not fit in `width` bytes is lost. -/
def encodeLE : ℕ → ℕ → List UInt8
  | 0, _ => []
  | width + 1, value => (value % 256).toUInt8 :: encodeLE width (value / 256)

def decodeLE : List UInt8 → ℕ
  | [] => 0
  | byte :: bytes => byte.toNat + 256 * decodeLE bytes

@[simp] theorem length_encode_le (width value : ℕ) : (encodeLE width value).length = width := by
  induction width generalizing value with
  | zero => rfl
  | succ width ih => simp [encodeLE, ih]

theorem decode_encode_le (width value : ℕ) :
    decodeLE (encodeLE width value) = value % 256 ^ width := by
  induction width generalizing value with
  | zero => simp [encodeLE, decodeLE, Nat.mod_one]
  | succ width ih =>
      have low : (value % 256).toUInt8.toNat = value % 256 := by
        have small := Nat.mod_lt value (by decide : 0 < 256)
        simp only [Nat.toUInt8_eq, UInt8.toNat_ofNat']
        omega
      rw [encodeLE, decodeLE, ih, low, pow_succ', Nat.mod_mul]

theorem decode_encode_le_of_lt {width value : ℕ} (fits : value < 256 ^ width) :
    decodeLE (encodeLE width value) = value := by
  rw [decode_encode_le, Nat.mod_eq_of_lt fits]

theorem decode_le_lt (bytes : List UInt8) : decodeLE bytes < 256 ^ bytes.length := by
  induction bytes with
  | nil => simp [decodeLE]
  | cons byte bytes ih =>
      have bounded := byte.toNat_lt
      rw [decodeLE, List.length_cons, pow_succ]
      omega

end FileTransfer.Binary
