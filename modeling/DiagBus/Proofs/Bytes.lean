import Mathlib
import DiagBus.Bytes

namespace DiagBus

theorem foldl_bigEndian (width value start : Nat) :
    (bigEndian width value).foldl (fun value byte => value * 256 + byte.toNat) start =
      start * 256 ^ width + value % 256 ^ width := by
  induction width generalizing start with
  | zero => simp [bigEndian, Nat.mod_one]
  | succ width ih =>
    have power : (2 : Nat) ^ (8 * width) = 256 ^ width := by rw [pow_mul]; norm_num
    have byte : (value >>> (8 * width)).toUInt8.toNat = value / 256 ^ width % 256 := by
      simp [Nat.shiftRight_eq_div_pow, power]
    have digits : value % 256 ^ (width + 1) =
        value % 256 ^ width + 256 ^ width * (value / 256 ^ width % 256) := by
      rw [pow_succ, Nat.mod_mul]
    simp only [bigEndian, List.foldl_cons, ih, byte]
    rw [digits]
    ring

theorem ofBigEndian_bigEndian (width value : Nat) :
    ofBigEndian (bigEndian width value) = value % 256 ^ width := by
  simp only [ofBigEndian, foldl_bigEndian, zero_mul, zero_add]

/-- What holds of the numbers below 256 holds of every byte. -/
theorem forall_byte {property : UInt8 → Prop} (all : ∀ n, n < 256 → property n.toUInt8)
    (byte : UInt8) : property byte := by
  have here := all byte.toNat byte.toNat_lt
  rw [show byte.toNat.toUInt8 = byte from UInt8.ofNat_toNat] at here
  exact here

end DiagBus
