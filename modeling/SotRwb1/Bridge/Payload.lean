import SotRwb1.Bridge.Dispatch
import SotRwb1.Lib.JsonDepth

/-!
# What a payload does to the network thread

The callback parses before its catch-all begins.  Decoding replaces bytes that are
no UTF-8, and malformed text is caught there; text nested too deeply is not, and
the exception leaves the callback.

## Main definitions

* `Message.ofPayload` — a message as it arrives.
* `LoadsOutcomes` — what `json.loads` may do.
-/

namespace SotRwb1

open PyLib

/-- The message with this topic and payload, under an implementation of `json.loads`. -/
def Message.ofPayload (loads : List Char → Except PyError Json) (topic : String)
    (payload : List UInt8) (draws : Draws) : Message :=
  ⟨topic, loads (decodeUtf8 payload), draws⟩

/-- `json.loads` returns a value, or raises a `ValueError` on malformed text and a
`RecursionError` on text nested too deeply. -/
def LoadsOutcomes (loads : List Char → Except PyError Json) : Prop :=
  ∀ text e, loads text = .error e → e = .valueError ∨ e = .recursionError

/-- Only the exceptions of parsing leave the callback. -/
theorem result_onMessage (deviceId : String) (m : Message) :
    (onMessage deviceId m).result = (parseEnvelope m.loaded).map fun _ => ⟨⟩ := by
  rw [onMessage]
  cases parseEnvelope m.loaded with
  | error e => rfl
  | ok parsed =>
      rw [Handler.ofExcept_ok_bind]
      cases parsed with
      | none => rfl
      | some env => rfl

/-- Parsing catches a `ValueError` and passes a `RecursionError` on. -/
theorem parseEnvelope_returns_iff {loads : List Char → Except PyError Json}
    (hloads : LoadsOutcomes loads) (text : List Char) :
    (∃ parsed, parseEnvelope (loads text) = .ok parsed) ↔
      loads text ≠ .error .recursionError := by
  cases hload : loads text with
  | ok data => simp [parseEnvelope]
  | error e =>
      rcases hloads text e hload with rfl | rfl
      · simp [parseEnvelope]
      · simp [parseEnvelope]

/-- **The network thread** survives a message exactly if its payload is not nested too
deeply for `json.loads`. -/
theorem onMessage_returns_iff (loads : List Char → Except PyError Json)
    (hloads : LoadsOutcomes loads) (deviceId topic : String) (payload : List UInt8)
    (draws : Draws) :
    (onMessage deviceId (.ofPayload loads topic payload draws)).result = .ok ⟨⟩ ↔
      loads (decodeUtf8 payload) ≠ .error .recursionError := by
  rw [result_onMessage, ← parseEnvelope_returns_iff hloads, Message.ofPayload]
  cases parseEnvelope (loads (decodeUtf8 payload)) with
  | ok parsed => simp [Except.map]
  | error e => simp [Except.map]

/-! ## Opening brackets -/

theorem loadsOutcomes_loads (limit : ℕ) : LoadsOutcomes (loads limit) := by
  intro text e h
  exact (loads_errors h).imp_right And.left

/-- One opening bracket is malformed, and the callback returns. -/
theorem onMessage_returns_iff_bracket :
    (onMessage "x" (.ofPayload (loads 1000) "dtu/x/pub/event/dev_prop_post" [0x5B]
      ⟨"token", "nonce", .plain⟩)).result = .ok ⟨⟩ := by
  have hmalformed : loads 1000 (decodeUtf8 [0x5B]) = .error .valueError := rfl
  refine (onMessage_returns_iff (loads 1000) (loadsOutcomes_loads 1000) "x" _ _ _).mpr ?_
  rw [hmalformed]
  simp

/-- A hundred thousand opening brackets end the network thread. -/
theorem brackets_kill_thread :
    ¬ ∀ loads, LoadsOutcomes loads → ∀ (deviceId topic : String) (payload : List UInt8)
      (draws : Draws),
      (onMessage deviceId (.ofPayload loads topic payload draws)).result = .ok ⟨⟩ := by
  intro h
  have hreturns := h (loads 1000) (loadsOutcomes_loads 1000) "x" "dtu/x/pub/event/dev_prop_post"
    (List.replicate 100000 0x5B) ⟨"token", "nonce", .plain⟩
  have htext : decodeUtf8 (List.replicate 100000 0x5B) =
      List.replicate 1001 '[' ++ List.replicate 98999 '[' := by
    rw [List.replicate_append_replicate, decodeUtf8_ascii, List.map_replicate]
    · rfl
    · intro b hb
      rw [List.eq_of_mem_replicate hb]
      decide
  rw [result_onMessage, Message.ofPayload, htext, loads_brackets] at hreturns
  cases hreturns

end SotRwb1
