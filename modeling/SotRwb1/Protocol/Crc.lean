import Mathlib.Data.Nat.Bitwise
import SotRwb1.Lib.BitString
import SotRwb1.Protocol.Codec

/-!
# The checksum as a polynomial remainder

`crc16Xmodem` is the shift register of `BitPoly` at width 16 with feedback word
`0x1021`, so it computes the remainder of the message times `X ^ 16` modulo
`X ^ 16 + X ^ 12 + X ^ 5 + 1`.  Two facts about frames follow: the register
stays below `2 ^ 16`, and a string ending in two bytes has residue zero exactly
when those bytes are the big-endian checksum of the rest.
-/

namespace SotRwb1

open Polynomial BitPoly

theorem crcShift_eq_shift (crc : ℕ) : crcShift crc = shift 16 0x1021 crc := by
  have htop : crc &&& 0x8000 = (crc.testBit 15).toNat * 2 ^ 15 := Nat.and_two_pow crc 15
  have hmask : ∀ n : ℕ, n &&& 0xFFFF = n % 2 ^ 16 := fun n => Nat.and_two_pow_sub_one_eq_mod n 16
  rw [crcShift, shift, hmask, htop]
  cases crc.testBit 15 <;> simp

theorem crc16Xmodem_eq_register (data : List UInt8) :
    crc16Xmodem data = register 16 0x1021 0 data := by
  have hshift : crcShift = shift 16 0x1021 := funext crcShift_eq_shift
  rw [crc16Xmodem, register, hshift]
  rfl

/-- The checksum fits in two bytes. -/
theorem crc16Xmodem_lt (data : List UInt8) : crc16Xmodem data < 2 ^ 16 := by
  rw [crc16Xmodem_eq_register]
  exact register_lt (by norm_num) data

theorem toBytes2_crc16Xmodem (data : List UInt8) :
    toBytes2 (crc16Xmodem data) =
      .ok [UInt8.ofNat (crc16Xmodem data / 256), UInt8.ofNat (crc16Xmodem data % 256)] := by
  rw [toBytes2, if_pos (crc16Xmodem_lt data)]

theorem generator_xmodem : generator 16 0x1021 = X ^ 16 + X ^ 12 + X ^ 5 + 1 := by
  have hword : (0x1021 : ℕ) = (2 ^ 12 ^^^ 2 ^ 5) ^^^ 2 ^ 0 := by decide
  rw [generator, hword, ofNat_xor, ofNat_xor, ofNat_two_pow, ofNat_two_pow, ofNat_two_pow,
    pow_zero, add_assoc, add_assoc, add_assoc]

/-- The generator has an even number of terms. -/
theorem generator_xmodem_eval_one : (generator 16 0x1021).eval 1 = 0 := by
  rw [generator_xmodem]
  simp only [eval_add, eval_pow, eval_X, eval_one, one_pow]
  decide

/-- The checksum is the remainder of the message times `X ^ 16`. -/
theorem ofNat_crc16Xmodem (data : List UInt8) :
    ofNat (crc16Xmodem data) = (ofBytes data * X ^ 16) %ₘ generator 16 0x1021 := by
  rw [crc16Xmodem_eq_register]
  exact ofNat_register (by norm_num) (by norm_num) data

/-- **CRC-16/XMODEM.**  With the first bit of the message leading, the checksum is
the remainder of the message times `X ^ 16` modulo `X ^ 16 + X ^ 12 + X ^ 5 + 1`;
so it is below `2 ^ 16` and always fits the two bytes of a write. -/
theorem crc16Xmodem_is_remainder (data : List UInt8) :
    ofNat (crc16Xmodem data) =
        (ofBits (bits data) * X ^ 16) %ₘ (X ^ 16 + X ^ 12 + X ^ 5 + 1) ∧
      crc16Xmodem data < 2 ^ 16 ∧ ∃ high low, toBytes2 (crc16Xmodem data) = .ok [high, low] := by
  refine ⟨?_, crc16Xmodem_lt data, _, _, toBytes2_crc16Xmodem data⟩
  rw [ofNat_crc16Xmodem, generator_xmodem, ofBytes_eq_ofBits]

/-- **The residue test.**  Appending two bytes gives residue zero exactly when
they are the big-endian checksum of what they are appended to. -/
theorem crc16Xmodem_append_eq_zero_iff (data : List UInt8) (a b : UInt8) :
    crc16Xmodem (data ++ [a, b]) = 0 ↔ toBytes2 (crc16Xmodem data) = .ok [a, b] := by
  have hlt := crc16Xmodem_lt data
  have ha := a.toNat_lt
  have hb := b.toNat_lt
  have hres : crc16Xmodem (data ++ [a, b]) = 0 ↔ a.toNat * 256 + b.toNat = crc16Xmodem data := by
    have h := register_append_eq_zero_iff (w := 16) (g := 0x1021) (by norm_num) (by decide) data
      [a, b] rfl (by simp)
    simpa [bigEndian, crc16Xmodem_eq_register] using h
  rw [hres, toBytes2, if_pos hlt]
  generalize crc16Xmodem data = n at hlt
  constructor
  · intro h
    have hhigh : UInt8.ofNat (n / 256) = a := UInt8.toNat_inj.mp (by simp; omega)
    have hlow : UInt8.ofNat (n % 256) = b := UInt8.toNat_inj.mp (by simp; omega)
    rw [hhigh, hlow]
  · intro h
    simp only [Except.ok.injEq, List.cons.injEq, and_true] at h
    have hhigh := congrArg UInt8.toNat h.1
    have hlow := congrArg UInt8.toNat h.2
    simp at hhigh hlow
    omega

end SotRwb1
