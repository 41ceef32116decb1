import SotRwb1.Lib.Framing
import SotRwb1.Protocol.Command

/-!
# Write frames on a serial line

The dongle passes a decoded write frame on to the inverter.  Three properties of
these bytes: a corrupted frame shows by its residue; the checksum may contain a
carriage return, so the first one need not end the frame; but a receiver that
checks the residue before it cuts is never deceived by one.

## Main definitions

* `decodedWrite` — the bytes of a write frame.
* `readLine` — a receiver that reads up to the first carriage return.
* `checkedReceiver` — one that cuts where the residue is zero.
-/

namespace SotRwb1

open PyLib BitPoly

/-- The bytes of a write request once its payload is decoded. -/
def decodedWrite (channel value : String) : Option (List UInt8) :=
  match buildWriteCi channel value with
  | .ok ci => Base64.decode ci.toList
  | .error _ => none

theorem decodedWrite_eq_some {channel value : String} (hc : IsAscii channel.toList)
    (hv : IsAscii value.toList) :
    decodedWrite channel value = some (commandFrame channel value ++ [0x0D]) := by
  obtain ⟨ci, hci, hdecode⟩ := buildWriteCi_eq_ok hc hv
  rw [decodedWrite, hci]
  exact hdecode

/-! ## Corruption -/

/-- **Detection.**  A write frame without its carriage return in which the bits of
a nonzero pattern are flipped, all within sixteen consecutive positions or odd in
number, has a residue other than zero. -/
theorem corrupted_write_detected (channel value : String) (hc : IsAscii channel.toList)
    (hv : IsAscii value.toList) :
    ∃ w, decodedWrite channel value = some (w ++ [0x0D]) ∧
      ∀ pattern : List UInt8, pattern.length = w.length → true ∈ bits pattern →
        (IsBurst 16 (bits pattern) ∨ Odd ((bits pattern).count true)) →
        crc16Xmodem (xorBytes w pattern) ≠ 0 := by
  refine ⟨commandFrame channel value, decodedWrite_eq_some hc hv, ?_⟩
  intro pattern hlen hset hpattern
  have hzero := crc16Xmodem_commandFrame channel value
  rw [crc16Xmodem_eq_register] at hzero ⊢
  exact register_xorBytes_ne_zero (by norm_num) (by norm_num) (by decide) generator_xmodem_eval_one
    hzero hlen hset hpattern

theorem corrupted_write_detected_floatVoltage :
    ∃ w, decodedWrite "PBFT" "28.0" = some (w ++ [0x0D]) ∧
      ∀ pattern : List UInt8, pattern.length = w.length → true ∈ bits pattern →
        (IsBurst 16 (bits pattern) ∨ Odd ((bits pattern).count true)) →
        crc16Xmodem (xorBytes w pattern) ≠ 0 :=
  corrupted_write_detected "PBFT" "28.0" (by decide) (by decide)

/-! ## The first carriage return -/

/-- A text that can be sent: ASCII without a carriage return. -/
def Sendable (s : String) : Prop := IsAscii s.toList ∧ '\r' ∉ s.toList

instance (s : String) : Decidable (Sendable s) :=
  inferInstanceAs (Decidable (IsAscii s.toList ∧ '\r' ∉ s.toList))

/-- The carriage return occurs at the end of the frame and nowhere else. -/
def EndsAtFirstCr (frame : List UInt8) : Prop := ∀ i, frame[i]? = some 0x0D ↔ i + 1 = frame.length

/-- The bytes in front of the first carriage return. -/
def readLine (stream : List UInt8) : List UInt8 := stream.takeWhile fun b => b != 0x0D

theorem cr_notMem_asciiBytes {channel value : String} (hc : Sendable channel)
    (hv : Sendable value) : 0x0D ∉ asciiBytes (channel.toList ++ value.toList) := by
  have hascii := isAscii_append hc.1 hv.1
  intro hmem
  obtain ⟨c, hc', hbyte⟩ := List.mem_map.mp hmem
  have hlt : c.toNat < 128 := hascii c hc'
  have hnat : c.toNat = 13 := by
    have h := congrArg UInt8.toNat hbyte
    rw [UInt8.toNat_ofNat'] at h
    have h13 : (0x0D : UInt8).toNat = 13 := rfl
    omega
  have hcr : c = '\r' := Char.toNat_inj.mp hnat
  subst hcr
  rcases List.mem_append.mp hc' with h | h
  · exact hc.2 h
  · exact hv.2 h

theorem endsAtFirstCr_concat_iff (w : List UInt8) : EndsAtFirstCr (w ++ [0x0D]) ↔ 0x0D ∉ w := by
  have hlen : (w ++ [(0x0D : UInt8)]).length = w.length + 1 := by simp
  constructor
  · intro h hmem
    obtain ⟨i, hi⟩ := List.mem_iff_getElem?.mp hmem
    have hlt : i < w.length := (List.getElem?_eq_some_iff.mp hi).1
    have hlast := (h i).mp (by rw [List.getElem?_append_left hlt, hi])
    omega
  · intro h i
    rcases Nat.lt_trichotomy i w.length with hi | hi | hi
    · have hne : w[i]? ≠ some 0x0D := fun hcr => h (List.mem_of_getElem? hcr)
      simp [List.getElem?_append_left hi, hne, hi.ne]
    · simp [hi]
    · have hout : (w ++ [(0x0D : UInt8)])[i]? = none := by
        rw [List.getElem?_eq_none_iff]
        omega
      simp [hout, hi.ne']

theorem readLine_concat_iff (w : List UInt8) : readLine (w ++ [0x0D]) = w ↔ 0x0D ∉ w := by
  constructor
  · intro h hmem
    rw [← h] at hmem
    simpa using List.mem_takeWhile_imp hmem
  · intro h
    have hall : ∀ b ∈ w, (b != 0x0D) = true := by
      intro b hb
      rw [bne_iff_ne]
      rintro rfl
      exact h hb
    rw [readLine, List.takeWhile_append_of_pos hall]
    simp

theorem ofNat_ne_cr_iff {n : ℕ} (hn : n < 256) : UInt8.ofNat n ≠ 0x0D ↔ n ≠ 0x0D := by
  rw [Ne, Ne, ← UInt8.toNat_inj, UInt8.toNat_ofNat']
  have h13 : (0x0D : UInt8).toNat = 0x0D := rfl
  omega

/-- A frame has a carriage return inside exactly when its checksum has one. -/
theorem cr_notMem_commandFrame_iff {channel value : String} (hc : Sendable channel)
    (hv : Sendable value) :
    0x0D ∉ commandFrame channel value ↔
      crc16Xmodem (asciiBytes (channel.toList ++ value.toList)) / 256 ≠ 0x0D ∧
        crc16Xmodem (asciiBytes (channel.toList ++ value.toList)) % 256 ≠ 0x0D := by
  have hlt := crc16Xmodem_lt (asciiBytes (channel.toList ++ value.toList))
  rw [← ofNat_ne_cr_iff (by omega), ← ofNat_ne_cr_iff (by omega)]
  simp [commandFrame, cr_notMem_asciiBytes hc hv, eq_comm]

/-- **Carriage returns in a write frame.**  The frame ends with one and has none
in its text; the one at the end is the only one, and reading up to the first one
gets the complete command, exactly when neither byte of the checksum is one. -/
theorem write_ends_at_first_cr_iff (channel value : String) (hc : Sendable channel)
    (hv : Sendable value) :
    ∃ w, decodedWrite channel value = some (w ++ [0x0D]) ∧ 0x0D ∉ w.take (w.length - 2) ∧
      (EndsAtFirstCr (w ++ [0x0D]) ↔
        crc16Xmodem (asciiBytes (channel.toList ++ value.toList)) / 256 ≠ 0x0D ∧
          crc16Xmodem (asciiBytes (channel.toList ++ value.toList)) % 256 ≠ 0x0D) ∧
      (readLine (w ++ [0x0D]) = w ↔
        crc16Xmodem (asciiBytes (channel.toList ++ value.toList)) / 256 ≠ 0x0D ∧
          crc16Xmodem (asciiBytes (channel.toList ++ value.toList)) % 256 ≠ 0x0D) := by
  refine ⟨commandFrame channel value, decodedWrite_eq_some hc.1 hv.1, ?_, ?_, ?_⟩
  · rw [take_commandFrame]
    exact cr_notMem_asciiBytes hc hv
  · rw [endsAtFirstCr_concat_iff, cr_notMem_commandFrame_iff hc hv]
  · rw [readLine_concat_iff, cr_notMem_commandFrame_iff hc hv]

/-- The checksum of the cutoff voltage `21.6` is `0D 1F`. -/
theorem cutoffVoltage_ends_early :
    ¬ ∀ channel value : String, Sendable channel → Sendable value →
      ∃ frame, decodedWrite channel value = some frame ∧ EndsAtFirstCr frame ∧
        readLine frame ++ [0x0D] = frame := by
  intro h
  obtain ⟨frame, hframe, hends, -⟩ := h "PSDV" "21.6" (by decide) (by decide)
  rw [decodedWrite_eq_some (by decide) (by decide), Option.some.injEq] at hframe
  rw [← hframe, endsAtFirstCr_concat_iff] at hends
  exact hends (by decide +kernel)

/-- The checksum of the float voltage `28.0` is `B3 91`. -/
theorem write_ends_at_first_cr_iff_floatVoltage :
    ∃ w, decodedWrite "PBFT" "28.0" = some (w ++ [0x0D]) ∧ 0x0D ∉ w.take (w.length - 2) ∧
      EndsAtFirstCr (w ++ [0x0D]) ∧ readLine (w ++ [0x0D]) = w := by
  have hbytes : crc16Xmodem (asciiBytes ("PBFT".toList ++ "28.0".toList)) / 256 ≠ 0x0D ∧
      crc16Xmodem (asciiBytes ("PBFT".toList ++ "28.0".toList)) % 256 ≠ 0x0D := by
    decide +kernel
  obtain ⟨w, hw, htext, hends, hline⟩ :=
    write_ends_at_first_cr_iff "PBFT" "28.0" (by decide) (by decide)
  exact ⟨w, hw, htext, hends.mpr hbytes, hline.mpr hbytes⟩

/-! ## A receiver that checks -/

/-- Two bytes at least, and residue zero. -/
def hasZeroResidue (unconsumed : List UInt8) : Bool :=
  decide (2 ≤ unconsumed.length) && crc16Xmodem unconsumed == 0

/-- Cut a stream at each first carriage return in front of which the residue of at
least two bytes is zero. -/
def checkedReceiver (stream : List UInt8) : Receiver UInt8 :=
  Receiver.run 0x0D hasZeroResidue ⟨[], []⟩ stream

/-- The text of a received frame. -/
def commandText (w : List UInt8) : String := String.ofList (decodeAscii (w.take (w.length - 2)))

/-- After a message with residue zero the register starts afresh. -/
theorem crc16Xmodem_append_of_eq_zero {data : List UInt8} (h : crc16Xmodem data = 0)
    (tail : List UInt8) : crc16Xmodem (data ++ tail) = crc16Xmodem tail := by
  rw [crc16Xmodem] at h ⊢
  rw [List.foldl_append, h]
  rfl

/-- A carriage return in the checksum is no place to cut: in front of the first
byte the residue is the checksum, which is not zero; in front of the second one it
would have to become zero again by a carriage return alone. -/
theorem commandFrame_delimited {channel value : String} (hc : Sendable channel)
    (hv : Sendable value) : Delimited 0x0D hasZeroResidue (commandFrame channel value) := by
  have hzero := crc16Xmodem_commandFrame channel value
  have hdata := cr_notMem_asciiBytes hc hv
  have hlen : 2 ≤ (commandFrame channel value).length := by simp [commandFrame]
  refine ⟨by simp [hasZeroResidue, hzero, hlen], ?_⟩
  intro front hfront
  rw [commandFrame] at hzero hfront
  clear hlen
  generalize asciiBytes (channel.toList ++ value.toList) = data at *
  generalize UInt8.ofNat (crc16Xmodem data / 256) = high at *
  generalize UInt8.ofNat (crc16Xmodem data % 256) = low at *
  have hresidue : crc16Xmodem front ≠ 0 := by
    intro hfrontZero
    have hsplit : data ++ [high, low] = data ++ [high] ++ [low] := by simp
    rw [hsplit, List.prefix_concat_iff, List.prefix_concat_iff] at hfront
    rcases hfront with hsecond | hfirst | hinside
    · obtain ⟨rfl, hlow⟩ := List.append_inj' hsecond rfl
      rw [hsplit, crc16Xmodem_append_of_eq_zero hfrontZero, ← hlow] at hzero
      exact absurd hzero (by decide)
    · obtain ⟨rfl, hhigh⟩ := List.append_inj' hfirst rfl
      cases hhigh
      rw [crc16Xmodem_append_of_eq_zero hfrontZero] at hzero
      have hword := (crc16Xmodem_append_eq_zero_iff [] _ _).mp hzero
      cases hword
    · exact hdata (hinside.subset (by simp))
  simp [hasZeroResidue, hresidue]

theorem mapM_decodedWrite {commands : List (String × String)}
    (hsend : ∀ command ∈ commands, Sendable command.1 ∧ Sendable command.2) :
    commands.mapM (fun command => decodedWrite command.1 command.2) =
      some (commands.map fun command => commandFrame command.1 command.2 ++ [0x0D]) := by
  induction commands with
  | nil => rfl
  | cons command rest ih =>
      have hfirst := hsend command (by simp)
      rw [List.mapM_cons, ih (fun c hc => hsend c (by simp [hc])),
        decodedWrite_eq_some hfirst.1.1 hfirst.2.1]
      rfl

theorem commandText_commandFrame {channel value : String} (hc : Sendable channel)
    (hv : Sendable value) : commandText (commandFrame channel value) = channel ++ value := by
  have hascii := isAscii_append hc.1 hv.1
  rw [commandText, take_commandFrame, decodeAscii_asciiBytes hascii, ← String.toList_append,
    String.ofList_toList]

/-- **Self-delimiting frames.**  The frames of any sequence of writes, one after
the other, are received as the texts of the writes with nothing left over; and no
frame is a proper prefix of another. -/
theorem write_frames_self_delimiting :
    (∀ commands : List (String × String),
      (∀ command ∈ commands, Sendable command.1 ∧ Sendable command.2) →
      ∃ frames, commands.mapM (fun command => decodedWrite command.1 command.2) = some frames ∧
        (checkedReceiver frames.flatten).unconsumed = [] ∧
        (checkedReceiver frames.flatten).received.map commandText =
          commands.map fun command => command.1 ++ command.2) ∧
    ∀ channel value channel' value' : String, Sendable channel → Sendable value →
      Sendable channel' → Sendable value' →
      ∃ frame frame', decodedWrite channel value = some frame ∧
        decodedWrite channel' value' = some frame' ∧ (frame <+: frame' → frame = frame') := by
  constructor
  · intro commands hsend
    have hdelimited : ∀ message ∈ commands.map (fun command => commandFrame command.1 command.2),
        Delimited 0x0D hasZeroResidue message := by
      intro message hmessage
      obtain ⟨command, hmem, rfl⟩ := List.mem_map.mp hmessage
      exact commandFrame_delimited (hsend command hmem).1 (hsend command hmem).2
    have hrun := Receiver.run_messages hdelimited []
    rw [List.flatMap_map, List.nil_append] at hrun
    refine ⟨_, mapM_decodedWrite hsend, ?_⟩
    rw [checkedReceiver, ← List.flatMap_def, hrun]
    refine ⟨rfl, ?_⟩
    rw [List.map_map]
    apply List.map_congr_left
    intro command hmem
    exact commandText_commandFrame (hsend command hmem).1 (hsend command hmem).2
  · intro channel value channel' value' hc hv hc' hv'
    refine ⟨_, _, decodedWrite_eq_some hc.1 hv.1, decodedWrite_eq_some hc'.1 hv'.1, ?_⟩
    intro hpre
    rw [(commandFrame_delimited hc hv).eq_of_isPrefix (commandFrame_delimited hc' hv') hpre]

/-- Two writes in a row; the checksum of the first contains a carriage return. -/
theorem write_frames_self_delimiting_pair :
    ∃ frames, [("PSDV", "21.6"), ("PBFT", "28.0")].mapM
        (fun command => decodedWrite command.1 command.2) = some frames ∧
      (checkedReceiver frames.flatten).unconsumed = [] ∧
      (checkedReceiver frames.flatten).received.map commandText = ["PSDV21.6", "PBFT28.0"] :=
  write_frames_self_delimiting.1 [("PSDV", "21.6"), ("PBFT", "28.0")] (by decide)

end SotRwb1
