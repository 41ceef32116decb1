import SotRwb1.Bridge.Dispatch

/-!
# A message whose handling fails has no effect

Exceptions are swallowed by one catch-all, so a handler that raised half way
would leave its first effects behind.  None does as long as the acknowledgement can be
encoded: every branch raises, if at all, before its first effect.

## Main definitions

* `Network` — the bridge and the callbacks scheduled so far.
* `receive` — handle one message to its end.
* `Message.fails` — dispatching the message raises.
-/

namespace SotRwb1

open PyLib

/-! ## Every branch is clean -/

theorem ingestTelemetry_clean (body : Json) : (ingestTelemetry body).Clean := by
  rcases ingestTelemetry_cases body with ⟨e, hraise⟩ | hnothing | ⟨values, ts, hvalues⟩
  · rw [hraise]
    exact Handler.Silent.clean rfl
  · rw [hnothing]
    exact (Handler.total_pure _).clean
  · rw [hvalues]
    exact (Handler.total_emits _).clean

theorem ingestIdentity_clean (body : Json) : (ingestIdentity body).Clean := by
  cases body with
  | obj fields => exact Handler.Total.clean ⟨⟨⟩, rfl⟩
  | null | bool | int | float | str | arr => exact Handler.Silent.clean rfl

theorem handleEventPost_clean (deviceId : String) (body : Json) {fields : List (String × Json)}
    {draws : Draws} (h : ackWritable fields draws.encoder = true) :
    (handleEventPost deviceId body fields draws).Clean := by
  cases body with
  | obj bodyFields =>
      rw [handleEventPost_of_writable h]
      exact (Handler.total_emits _).clean
  | null | bool | int | float | str | arr => exact Handler.Silent.clean rfl

theorem handleRpcReply_clean (token body : Json) : (handleRpcReply token body).Clean := by
  cases body with
  | obj fields =>
      rw [handleRpcReply, Json.getAttr_obj, Handler.ofExcept_ok_bind]
      split
      · exact (ingestTelemetry_clean _).bind_total fun _ => Handler.total_emit _
      · split
        · exact (Handler.total_emit _).clean
        · exact (Handler.total_pure _).clean
      · exact (Handler.total_pure _).clean
  | null | bool | int | float | str | arr => exact Handler.Silent.clean rfl

/-- No branch of `dispatch` does anything before the point where it raises. -/
theorem dispatch_clean (deviceId : String) {suffix : String} {env : Json} {draws : Draws}
    (h : ∀ route ∈ ackedRoutes, encodesOn route suffix env draws = true) :
    (dispatch deviceId suffix env draws).Clean := by
  cases env with
  | obj fields =>
      rw [dispatch_obj]
      split
      · rename_i hroute
        have hack := ackWritable_of_encodesOn (h _ (by simp [ackedRoutes])) hroute
        rw [ack_of_writable hack]
        exact (ingestTelemetry_clean _).bind_total fun _ => Handler.total_emit _
      · rename_i hroute
        have hack := ackWritable_of_encodesOn (h _ (by simp [ackedRoutes])) hroute
        exact handleEventPost_clean deviceId _ hack
      · exact ingestIdentity_clean _
      · exact handleRpcReply_clean _ _
      · exact (Handler.total_pure _).clean
  | null | bool | int | float | str | arr => exact Handler.Silent.clean rfl

/-! ## Sequences of messages -/

/-- The bridge, and the callbacks scheduled on the loop so far. -/
structure Network where
  bridge : Bridge
  scheduled : List Callback

/-- Perform the effects of a callback that ran. -/
def Network.perform (n : Network) (effects : List Effect) : Network :=
  ⟨effects.foldl Bridge.perform n.bridge, n.scheduled ++ effects.filterMap Effect.scheduled⟩

/-- Handle one message to its end. -/
def receive (deviceId : String) (n : Network) (m : Message) : Network :=
  n.perform (onMessage deviceId m).effects

/-- Dispatching the message raises. -/
def Message.fails (deviceId : String) (m : Message) : Bool :=
  match parseEnvelope m.loaded with
  | .ok (some env) =>
      match (m.handling deviceId env).result with
      | .ok _ => false
      | .error _ => true
  | _ => false

theorem effects_onMessage_of_fails {deviceId : String} {m : Message}
    (h : m.fails deviceId = true)
    (hencodes : ∀ route ∈ ackedRoutes, m.encodesOn deviceId route = true) :
    (onMessage deviceId m).effects = [] := by
  unfold Message.fails at h
  split at h
  · rename_i env henv
    split at h
    · cases h
    · rename_i err herr
      simp only [Message.encodesOn, henv] at hencodes
      rw [onMessage, henv, Handler.ofExcept_ok_bind]
      exact dispatch_clean deviceId hencodes err herr
  · cases h

theorem receive_of_fails {deviceId : String} {m : Message} (h : m.fails deviceId = true)
    (hencodes : ∀ route ∈ ackedRoutes, m.encodesOn deviceId route = true) (n : Network) :
    receive deviceId n m = n := by
  rw [receive, effects_onMessage_of_fails h hencodes]
  simp [Network.perform]

/-- **Failing messages.**  When encoding the acknowledgements does not raise, any
sequence of messages leaves the bridge and the scheduled callbacks as the sequence
without the messages whose dispatch raises; and no branch of the dispatch does
anything before it raises. -/
theorem failing_messages_have_no_effect (deviceId : String) (n : Network)
    (messages : List Message)
    (hencodes : ∀ m ∈ messages, ∀ route ∈ ackedRoutes, m.encodesOn deviceId route = true) :
    messages.foldl (receive deviceId) n =
        (messages.filter fun m => !m.fails deviceId).foldl (receive deviceId) n ∧
      ∀ suffix env draws e, (∀ route ∈ ackedRoutes, encodesOn route suffix env draws = true) →
        (dispatch deviceId suffix env draws).result = .error e →
          (dispatch deviceId suffix env draws).effects = [] := by
  refine ⟨?_, fun suffix env draws e h => dispatch_clean deviceId h e⟩
  induction messages generalizing n with
  | nil => rfl
  | cons m rest ih =>
      rw [List.foldl_cons, ih _ fun m' hm' => hencodes m' (List.mem_cons_of_mem m hm')]
      cases hm : m.fails deviceId with
      | true =>
          have hfirst := hencodes m List.mem_cons_self
          rw [receive_of_fails hm hfirst, List.filter_cons_of_neg (by simp [hm])]
      | false => rw [List.filter_cons_of_pos (by simp [hm]), List.foldl_cons]

/-- An event post and a telemetry post with a spoilt channel list: only the first
leaves anything behind. -/
theorem failing_messages_have_no_effect_spoilt :
    let event : Message := ⟨"dtu/x/pub/event/dev_event_post",
      .ok (.obj [("t", .str "a"), ("i", .int 501)]), ⟨"token", "nonce", .plain⟩⟩
    let spoilt : Message := ⟨"dtu/x/pub/event/dev_prop_post",
      .ok (.obj [("t", .str "b"), ("i", .int 101), ("b", .obj [("ct", .arr [.null])])]),
      ⟨"token", "nonce", .plain⟩⟩
    [event, spoilt].foldl (receive "x") ⟨.init, []⟩ = receive "x" ⟨.init, []⟩ event := by
  intro event spoilt
  have hfails : event.fails "x" = false ∧ spoilt.fails "x" = true := by decide +kernel
  have hencodes : ∀ m ∈ [event, spoilt], ∀ route ∈ ackedRoutes,
      m.encodesOn "x" route = true := by decide +kernel
  obtain ⟨hsame, -⟩ := failing_messages_have_no_effect "x" ⟨.init, []⟩ [event, spoilt] hencodes
  rw [hsame, List.filter_cons_of_pos (by simp [hfails.1]),
    List.filter_cons_of_neg (by simp [hfails.2]), List.filter_nil]
  rfl

end SotRwb1
