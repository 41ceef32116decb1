import SotRwb1.Control
import SotRwb1.Protocol.Crc

/-!
# Write commands are uniquely decodable

Channel and value are sent without a delimiter.  A receiver recovers both
because no exposed channel is a prefix of another, and it can check a frame by
its residue because the two bytes before the carriage return are the checksum of
the rest.
-/

namespace SotRwb1

open PyLib

/-- The bytes of an ASCII text. -/
def asciiBytes (s : List Char) : List UInt8 := s.map fun c => UInt8.ofNat c.toNat

/-- Every character is ASCII. -/
def IsAscii (s : List Char) : Prop := ∀ c ∈ s, c.toNat < 128

instance (s : List Char) : Decidable (IsAscii s) :=
  List.decidableBAll (fun c : Char => c.toNat < 128) s

theorem encodeAscii_eq_ok {s : List Char} (h : IsAscii s) : encodeAscii s = .ok (asciiBytes s) := by
  rw [encodeAscii, if_pos]
  · rfl
  · simpa [IsAscii] using h

theorem isAscii_append {s t : List Char} (hs : IsAscii s) (ht : IsAscii t) : IsAscii (s ++ t) := by
  intro c hc
  rcases List.mem_append.mp hc with h | h
  · exact hs c h
  · exact ht c h

theorem decodeAscii_asciiBytes {s : List Char} (h : IsAscii s) :
    decodeAscii (asciiBytes s) = s := by
  rw [decodeAscii, asciiBytes, List.map_map]
  conv_rhs => rw [← List.map_id s]
  apply List.map_congr_left
  intro c hc
  have hlt : c.toNat < 128 := h c hc
  have hbyte : (UInt8.ofNat c.toNat).toNat = c.toNat := by
    rw [UInt8.toNat_ofNat']
    omega
  simp [hbyte, hlt]

theorem asciiBytes_injective {s t : List Char} (hs : IsAscii s) (ht : IsAscii t)
    (h : asciiBytes s = asciiBytes t) : s = t := by
  rw [← decodeAscii_asciiBytes hs, ← decodeAscii_asciiBytes ht, h]

/-! ## Channels -/

/-- No exposed channel is a prefix of another. -/
theorem exposedChannels_prefixFree {c c' : String} (hc : c ∈ exposedChannels)
    (hc' : c' ∈ exposedChannels) (h : c.toList <+: c'.toList) : c = c' := by
  -- evaluated as a Boolean, which needs no recursion in the length of the table
  have hall : exposedChannels.all (fun c => exposedChannels.all fun c' =>
      !c.toList.isPrefixOf c'.toList || c == c') = true := by decide +kernel
  have hpair := List.all_eq_true.mp (List.all_eq_true.mp hall c hc) c' hc'
  rw [List.isPrefixOf_iff_prefix.mpr h] at hpair
  exact eq_of_beq hpair

theorem exposedChannels_isAscii {c : String} (hc : c ∈ exposedChannels) : IsAscii c.toList := by
  have hall : exposedChannels.all (fun c => c.toList.all (·.toNat < 128)) = true := by
    decide +kernel
  intro a ha
  exact of_decide_eq_true (List.all_eq_true.mp (List.all_eq_true.mp hall c hc) a ha)

/-- A text starts with at most one exposed channel. -/
theorem exposedChannels_split {c c' v v' : String} (hc : c ∈ exposedChannels)
    (hc' : c' ∈ exposedChannels) (h : c.toList ++ v.toList = c'.toList ++ v'.toList) :
    c = c' ∧ v = v' := by
  have hcc : c = c' := by
    rcases List.prefix_or_prefix_of_prefix (List.prefix_append c.toList v.toList)
      (h ▸ List.prefix_append c'.toList v'.toList) with hpre | hpre
    · exact exposedChannels_prefixFree hc hc' hpre
    · exact (exposedChannels_prefixFree hc' hc hpre).symm
  subst hcc
  exact ⟨rfl, String.toList_inj.mp (List.append_cancel_left h)⟩

/-! ## Frames -/

/-- The bytes of a write command before the carriage return. -/
def commandFrame (channel value : String) : List UInt8 :=
  asciiBytes (channel.toList ++ value.toList) ++
    [UInt8.ofNat (crc16Xmodem (asciiBytes (channel.toList ++ value.toList)) / 256),
      UInt8.ofNat (crc16Xmodem (asciiBytes (channel.toList ++ value.toList)) % 256)]

/-- A write of ASCII text never raises, and its payload decodes to the frame. -/
theorem buildWriteCi_eq_ok {channel value : String} (hc : IsAscii channel.toList)
    (hv : IsAscii value.toList) :
    ∃ ci, buildWriteCi channel value = .ok ci ∧
      Base64.decode ci.toList = some (commandFrame channel value ++ [0x0D]) := by
  refine ⟨String.ofList (Base64.encode (commandFrame channel value ++ [0x0D])), ?_, ?_⟩
  · rw [buildWriteCi, encodeAscii_eq_ok (isAscii_append hc hv)]
    simp only [bind, Except.bind, toBytes2_crc16Xmodem, pure, Except.pure]
    rfl
  · rw [String.toList_ofList, Base64.decode_encode]

theorem take_commandFrame (channel value : String) :
    (commandFrame channel value).take ((commandFrame channel value).length - 2) =
      asciiBytes (channel.toList ++ value.toList) := by
  simp [commandFrame]

theorem crc16Xmodem_commandFrame (channel value : String) :
    crc16Xmodem (commandFrame channel value) = 0 :=
  (crc16Xmodem_append_eq_zero_iff _ _ _).mpr (toBytes2_crc16Xmodem _)

/-- Every byte string of two or more bytes is a rest and two last bytes. -/
theorem exists_eq_append_pair {w : List UInt8} (hw : 2 ≤ w.length) :
    ∃ data a b, w = data ++ [a, b] := by
  have hlen : (w.drop (w.length - 2)).length = 2 := by
    rw [List.length_drop]
    omega
  obtain ⟨a, b, hab⟩ := List.length_eq_two.mp hlen
  exact ⟨w.take (w.length - 2), a, b, by rw [← hab, List.take_append_drop]⟩

/-- **Unique decodability.**  The payload of a write to an exposed channel
decodes to a residue-zero frame and a carriage return, the frame is channel and
value followed by two bytes, only one exposed channel and value give that text,
and so equal payloads come from equal commands.  Conversely the residue test
accepts exactly the frames that end in their own checksum. -/
theorem writeCommand_uniquely_decodable :
    (∀ channel ∈ exposedChannels, ∀ value : String, IsAscii value.toList →
      ∃ ci w, buildWriteCi channel value = .ok ci ∧
        Base64.decode ci.toList = some (w ++ [0x0D]) ∧
        crc16Xmodem w = 0 ∧ 2 ≤ w.length ∧
        w.take (w.length - 2) = asciiBytes (channel.toList ++ value.toList) ∧
        ∀ channel' ∈ exposedChannels, ∀ value' : String, IsAscii value'.toList →
          w.take (w.length - 2) = asciiBytes (channel'.toList ++ value'.toList) →
            channel' = channel ∧ value' = value) ∧
    (∀ channel ∈ exposedChannels, ∀ channel' ∈ exposedChannels, ∀ value value' : String,
      IsAscii value.toList → IsAscii value'.toList →
      buildWriteCi channel value = buildWriteCi channel' value' →
        channel = channel' ∧ value = value') ∧
    (∀ w : List UInt8, 2 ≤ w.length →
      (crc16Xmodem w = 0 ↔
        toBytes2 (crc16Xmodem (w.take (w.length - 2))) = .ok (w.drop (w.length - 2)))) := by
  have hunique : ∀ channel ∈ exposedChannels, ∀ channel' ∈ exposedChannels,
      ∀ value value' : String, IsAscii value.toList → IsAscii value'.toList →
      asciiBytes (channel.toList ++ value.toList) = asciiBytes (channel'.toList ++ value'.toList) →
        channel = channel' ∧ value = value' := by
    intro channel hc channel' hc' value value' hv hv' h
    exact exposedChannels_split hc hc' (asciiBytes_injective
      (isAscii_append (exposedChannels_isAscii hc) hv)
      (isAscii_append (exposedChannels_isAscii hc') hv') h)
  refine ⟨?_, ?_, ?_⟩
  · intro channel hc value hv
    obtain ⟨ci, hci, hdec⟩ := buildWriteCi_eq_ok (exposedChannels_isAscii hc) hv
    refine ⟨ci, commandFrame channel value, hci, hdec, crc16Xmodem_commandFrame channel value,
      by simp [commandFrame], take_commandFrame channel value, ?_⟩
    intro channel' hc' value' hv' h
    rw [take_commandFrame] at h
    have heq := hunique channel hc channel' hc' value value' hv hv' h
    exact ⟨heq.1.symm, heq.2.symm⟩
  · intro channel hc channel' hc' value value' hv hv' h
    obtain ⟨ci, hci, hdec⟩ := buildWriteCi_eq_ok (exposedChannels_isAscii hc) hv
    obtain ⟨ci', hci', hdec'⟩ := buildWriteCi_eq_ok (exposedChannels_isAscii hc') hv'
    have hframe : commandFrame channel value = commandFrame channel' value' := by
      rw [hci, hci'] at h
      cases h
      rw [hdec] at hdec'
      exact List.append_cancel_right (Option.some.inj hdec')
    apply hunique channel hc channel' hc' value value' hv hv'
    rw [← take_commandFrame channel value, ← take_commandFrame channel' value', hframe]
  · intro w hw
    obtain ⟨data, a, b, rfl⟩ := exists_eq_append_pair hw
    simpa using crc16Xmodem_append_eq_zero_iff data a b

end SotRwb1
