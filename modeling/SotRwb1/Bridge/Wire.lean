import SotRwb1.Bridge.Payload

/-!
# Envelopes on the wire

An envelope is published as compact JSON in UTF-8, and an incoming payload is read as
JSON.  What the bridge encodes, it would parse to the same envelope.  Strings are
sequences of Unicode scalar values: the lone surrogates that Python's strings may hold
are left out.

A payload ends the network thread only if it has more opening brackets than the
interpreter's recursion limit, and with one more it can.

## Main definitions

* `parsePayload` — reading an envelope from bytes.
* `openingBrackets` — the opening brackets among the bytes of a payload.
-/

namespace SotRwb1

open PyLib

/-- `parse_envelope(payload)`, for an interpreter that goes this deep. -/
def parsePayload (limit : ℕ) (payload : List UInt8) : Except PyError (Option Json) :=
  parseEnvelope (loads limit (decodeUtf8 payload))

/-- **Round trip.**  An envelope without floats whose dictionaries bind a key once, with
strings of Unicode scalar values, is encoded in ASCII, and parsing gives it back. -/
theorem parsePayload_encodeEnvelope {repr : PyFloat → List Char} {limit limit' : ℕ}
    (hlimit : limit ≤ limit') {fields : List (String × Json)}
    (henv : (Json.obj fields).Portable) {payload : List UInt8}
    (h : encodeEnvelope repr limit (.obj fields) = .ok payload) :
    (∀ b ∈ payload, b.toNat < 128) ∧ parsePayload limit' payload = .ok (some (.obj fields)) := by
  obtain ⟨text, htext, rfl⟩ := exists_of_map_eq_ok h
  constructor
  · intro b hb
    obtain ⟨c, hc, hb⟩ := List.mem_flatMap.mp hb
    have hascii : c.toNat < 128 := ascii_dumps henv htext c hc
    rw [utf8EncodeChar_eq, if_pos (by omega), List.mem_singleton] at hb
    rw [hb, toNat_ofNat_byte (by omega)]
    exact hascii
  · rw [parsePayload, decodeUtf8_encodeUtf8, loads_dumps hlimit henv htext]
    rfl

/-- A token with a character outside ASCII, and an index. -/
theorem parsePayload_encodeEnvelope_accent :
    ∃ payload, encodeEnvelope (fun _ => []) 2 (.obj [("t", .str "é"), ("i", .int 502)]) =
        .ok payload ∧
      parsePayload 1000 payload = .ok (some (.obj [("t", .str "é"), ("i", .int 502)])) := by
  have hportable : (Json.obj [("t", .str "é"), ("i", .int 502)]).Portable := by
    refine .obj (by decide) ?_
    simp only [List.forall_mem_cons, List.not_mem_nil, false_implies, implies_true, and_true]
    exact ⟨.str _, .int _⟩
  have hwritable : writable 2 (.obj [("t", .str "é"), ("i", .int 502)]) = true := by
    decide +kernel
  obtain ⟨text, htext⟩ := exists_dumps hwritable fun _ => []
  have hencode : encodeEnvelope (fun _ => []) 2 (.obj [("t", .str "é"), ("i", .int 502)]) =
      .ok (encodeUtf8 text) := by
    rw [encodeEnvelope, htext]
    rfl
  exact ⟨_, hencode, (parsePayload_encodeEnvelope (by decide) hportable hencode).2⟩

/-! ## Deeply nested payloads -/

/-- The opening brackets among the bytes. -/
def openingBrackets (payload : List UInt8) : ℕ := payload.countP fun b => b == 0x5B || b == 0x7B

theorem opens_decodeUtf8 (payload : List UInt8) :
    opens (decodeUtf8 payload) = openingBrackets payload := by
  have hascii : ∀ c : Char, (c == '[' || c == '{') = true → 0 < c.toNat ∧ c.toNat < 0x80 := by
    intro c hc
    rw [Bool.or_eq_true, beq_iff_eq, beq_iff_eq] at hc
    rcases hc with rfl | rfl <;> decide
  have hbyte : ∀ b : UInt8,
      (Char.ofNat b.toNat == '[' || Char.ofNat b.toNat == '{') = (b == 0x5B || b == 0x7B) := by
    intro b
    have hvalid : b.toNat.isValidChar := .inl (b.toNat_lt.trans (by decide))
    have hchar : (Char.ofNat b.toNat).toNat = b.toNat := by
      have hof : Char.ofNat b.toNat = Char.ofNatAux b.toNat hvalid := dif_pos hvalid
      rw [hof]
      rfl
    rw [Bool.eq_iff_iff]
    simp only [Bool.or_eq_true, beq_iff_eq, ← Char.toNat_inj, hchar, ← UInt8.toNat_inj]
    rfl
  rw [opens, countP_decodeUtf8 hascii, openingBrackets]
  exact List.countP_congr fun b _ => by rw [hbyte]

/-- **The bound.**  The network thread survives all payloads with this many opening
brackets exactly if the interpreter goes that deep. -/
theorem survives_openingBrackets_iff (limit n : ℕ) (deviceId topic : String) (draws : Draws) :
    (∀ payload, openingBrackets payload ≤ n →
      (onMessage deviceId (.ofPayload (loads limit) topic payload draws)).result = .ok ⟨⟩) ↔
        n ≤ limit := by
  constructor
  · intro h
    by_contra hlimit
    have hcount : openingBrackets (List.replicate (limit + 1) 0x5B) = limit + 1 := by
      simp [openingBrackets, List.countP_replicate]
    have htext : decodeUtf8 (List.replicate (limit + 1) 0x5B) = List.replicate (limit + 1) '[' := by
      rw [decodeUtf8_ascii, List.map_replicate]
      · rfl
      · intro b hb
        rw [List.eq_of_mem_replicate hb]
        decide
    have hdeep := loads_brackets limit []
    have hreturns := h (List.replicate (limit + 1) 0x5B) (by omega)
    rw [List.append_nil] at hdeep
    rw [result_onMessage, Message.ofPayload, htext, hdeep] at hreturns
    cases hreturns
  · intro hlimit payload hpayload
    have hload : loads limit (decodeUtf8 payload) ≠ .error .recursionError := by
      intro hdeep
      rcases loads_errors hdeep with hvalue | ⟨-, hopens⟩
      · cases hvalue
      · rw [opens_decodeUtf8] at hopens
        omega
    obtain ⟨parsed, hparsed⟩ :=
      (parseEnvelope_returns_iff (loadsOutcomes_loads limit) (decodeUtf8 payload)).mpr hload
    rw [result_onMessage, Message.ofPayload, hparsed]
    rfl

end SotRwb1
