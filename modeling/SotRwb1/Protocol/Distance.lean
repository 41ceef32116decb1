import Mathlib.Tactic.NormNum.Prime
import SotRwb1.Lib.BitOrder
import SotRwb1.Protocol.Serial

/-!
# How far apart write frames are

`X` has order `32767` modulo the generator of CRC-16/XMODEM.  So of two flipped
bits a write frame keeps its residue exactly when they are a multiple of `32767`
positions apart, and no frame of up to 4095 bytes becomes another one by fewer
than four flipped bits.

## Main definitions

* `hasOrder_xmodem` — the order of `X`.
* `corrupted_write_few_bits` — errors of up to three bits.
* `write_frames_apart` — the distance of two write frames.
-/

namespace SotRwb1

open BitPoly

/-- The order of `X` modulo the generator of CRC-16/XMODEM. -/
theorem hasOrder_xmodem : HasOrder 16 0x1021 32767 := by
  apply hasOrder_of_powMod (k := 15) (by norm_num) (by norm_num) (by norm_num) (by norm_num)
  · decide +kernel
  · intro p hp hdvd
    have hfactors : p = 7 ∨ p = 31 ∨ p = 151 := by
      have hproduct : p ∣ 7 * 31 * 151 := hdvd
      rw [hp.dvd_mul, hp.dvd_mul] at hproduct
      rw [or_assoc] at hproduct
      exact hproduct.imp (Nat.prime_dvd_prime_iff_eq hp (by norm_num)).mp
        (Or.imp (Nat.prime_dvd_prime_iff_eq hp (by norm_num)).mp
          (Nat.prime_dvd_prime_iff_eq hp (by norm_num)).mp)
    rcases hfactors with rfl | rfl | rfl
    · decide +kernel
    · decide +kernel
    · decide +kernel

/-- **Few flipped bits.**  In a write frame without its carriage return, of any length,
two flipped bits leave the residue zero exactly when they are a multiple of `32767`
positions apart; up to three flipped bits in a frame of at most 4095 bytes never do. -/
theorem corrupted_write_few_bits (channel value : String) (hc : IsAscii channel.toList)
    (hv : IsAscii value.toList) :
    ∃ w, decodedWrite channel value = some (w ++ [0x0D]) ∧
      (∀ (pattern : List UInt8) (i j : ℕ), pattern.length = w.length → i < j →
        IsPair (bits pattern) i j →
        (crc16Xmodem (xorBytes w pattern) = 0 ↔ 32767 ∣ j - i)) ∧
      (w.length ≤ 4095 → ∀ pattern : List UInt8, pattern.length = w.length →
        true ∈ bits pattern → (bits pattern).count true ≤ 3 →
        crc16Xmodem (xorBytes w pattern) ≠ 0) := by
  refine ⟨commandFrame channel value, decodedWrite_eq_some hc hv, ?_, ?_⟩
  · intro pattern i j hlen hij hpair
    have hzero := crc16Xmodem_commandFrame channel value
    rw [crc16Xmodem_eq_register] at hzero ⊢
    exact register_two_bits_iff (by norm_num) (by norm_num) (by decide) hasOrder_xmodem hzero
      hlen hij hpair
  · intro hshort pattern hlen hset hfew
    have hzero := crc16Xmodem_commandFrame channel value
    rw [crc16Xmodem_eq_register] at hzero ⊢
    exact register_three_bits_ne_zero (by norm_num) (by norm_num) (by decide)
      generator_xmodem_eval_one hasOrder_xmodem hzero hlen (by omega) hset hfew

/-- A setting of the float voltage. -/
theorem corrupted_write_few_bits_floatVoltage :
    ∃ w, decodedWrite "PBFT" "28.0" = some (w ++ [0x0D]) ∧
      (∀ (pattern : List UInt8) (i j : ℕ), pattern.length = w.length → i < j →
        IsPair (bits pattern) i j →
        (crc16Xmodem (xorBytes w pattern) = 0 ↔ 32767 ∣ j - i)) ∧
      (w.length ≤ 4095 → ∀ pattern : List UInt8, pattern.length = w.length →
        true ∈ bits pattern → (bits pattern).count true ≤ 3 →
        crc16Xmodem (xorBytes w pattern) ≠ 0) :=
  corrupted_write_few_bits "PBFT" "28.0" (by decide) (by decide)

/-- **The distance of two commands.**  The frames of two different writes to exposed
channels, of the same length of at most 4095 bytes, differ in at least four bits. -/
theorem write_frames_apart {channel channel' value value' : String}
    (hc : channel ∈ exposedChannels) (hc' : channel' ∈ exposedChannels)
    (hv : IsAscii value.toList) (hv' : IsAscii value'.toList)
    (hne : ¬ (channel = channel' ∧ value = value')) :
    ∃ w w', decodedWrite channel value = some (w ++ [0x0D]) ∧
      decodedWrite channel' value' = some (w' ++ [0x0D]) ∧
      (w.length = w'.length → w.length ≤ 4095 → 4 ≤ distance (bits w) (bits w')) := by
  refine ⟨_, _, decodedWrite_eq_some (exposedChannels_isAscii hc) hv,
    decodedWrite_eq_some (exposedChannels_isAscii hc') hv', ?_⟩
  intro hlen hshort
  have hzero := crc16Xmodem_commandFrame channel value
  have hzero' := crc16Xmodem_commandFrame channel' value'
  rw [crc16Xmodem_eq_register] at hzero hzero'
  apply four_le_distance (by norm_num) (by norm_num) (by decide) generator_xmodem_eval_one
    hasOrder_xmodem hzero hzero' hlen.symm (by omega)
  intro hframe
  apply hne
  have htext := take_commandFrame channel value
  rw [← hframe, take_commandFrame] at htext
  exact exposedChannels_split hc hc' (asciiBytes_injective
    (isAscii_append (exposedChannels_isAscii hc) hv)
    (isAscii_append (exposedChannels_isAscii hc') hv') htext.symm)

/-- Two settings of the float voltage differ in four bits at least. -/
theorem write_frames_apart_floatVoltage :
    ∃ w w', decodedWrite "PBFT" "28.0" = some (w ++ [0x0D]) ∧
      decodedWrite "PBFT" "28.1" = some (w' ++ [0x0D]) ∧ 4 ≤ distance (bits w) (bits w') := by
  have hchannel : "PBFT" ∈ exposedChannels := by decide
  have hascii : IsAscii "28.0".toList := by decide
  have hascii' : IsAscii "28.1".toList := by decide
  obtain ⟨w, w', hw, hw', hapart⟩ :=
    write_frames_apart hchannel hchannel hascii hascii' (by decide)
  have hwritten := hw.symm.trans (decodedWrite_eq_some (by decide) (by decide))
  have hwritten' := hw'.symm.trans (decodedWrite_eq_some (by decide) (by decide))
  rw [Option.some.injEq, List.append_left_inj] at hwritten hwritten'
  refine ⟨w, w', hw, hw', hapart ?_ ?_⟩
  · rw [hwritten, hwritten']
    decide +kernel
  · rw [hwritten]
    decide +kernel

end SotRwb1
