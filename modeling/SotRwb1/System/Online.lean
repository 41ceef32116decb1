import SotRwb1.Bridge.Atomic
import SotRwb1.System.Store

/-!
# The online flag

The flag is written by the disconnect callback, by event posts and by pushes and
dump replies that bring values.  After any run it says what the last of these said.
Messages arrive only while a session is open, so without a connection it is off.

An event post writes the flag before its acknowledgement is encoded, so one whose
acknowledgement cannot be encoded raises and has set the flag.

## Main definitions

* `NetworkCallback.report` — what a callback says about the dongle being online.
* `NetworkCallback.evidence` — the same, of event posts handled without an exception only.
* `InSession` — messages arrive only between a good handshake and the next
  disconnect.
-/

namespace SotRwb1

open PyLib

/-! ## Evidence -/

/-- What an event post says: its `ol`, which counts as set when it is missing. -/
def eventShowsOnline : Json → Bool
  | .obj fields =>
      match fields.lookup "ol" with
      | some ol => ol.truthy
      | none => true
  | _ => true

/-- What a message says about the dongle being online: an event post with a dictionary
as its body, or a push or reply that brings values. -/
def Message.report (deviceId : String) (m : Message) : Option Bool :=
  match m.routed deviceId with
  | some (.eventPost, body) => if body.isObj then some (eventShowsOnline body) else none
  | some (.propPost, body) => if (decodedValues body).isSome then some true else none
  | some (.rpcReply, body) => if (decodedValues body).isSome then some true else none
  | _ => none

/-- What a callback says about the dongle being online. -/
def NetworkCallback.report (deviceId : String) : NetworkCallback → Option Bool
  | connect _ _ => none
  | disconnect => some false
  | message m => m.report deviceId

/-- The evidence a message gives of the dongle being online: an event post that is
handled without an exception, or a push or reply that brings values. -/
def Message.evidence (deviceId : String) (m : Message) : Option Bool :=
  match m.routed deviceId with
  | some (.eventPost, body) => if m.fails deviceId then none else some (eventShowsOnline body)
  | some (.propPost, body) => if (decodedValues body).isSome then some true else none
  | some (.rpcReply, body) => if (decodedValues body).isSome then some true else none
  | _ => none

/-- The evidence a callback gives of the dongle being online. -/
def NetworkCallback.evidence (deviceId : String) : NetworkCallback → Option Bool
  | connect _ _ => none
  | disconnect => some false
  | message m => m.evidence deviceId

/-- Messages arrive only while a session is open: after a good handshake, until the
next disconnect.  The flag says whether one is open at the start. -/
def InSession : Bool → List NetworkCallback → Prop
  | _, [] => True
  | up, .connect rc _ :: rest => InSession (up || rc == 0) rest
  | _, .disconnect :: rest => InSession false rest
  | up, .message _ :: rest => up = true ∧ InSession up rest

/-! ## One callback -/

theorem handle_of_fails {deviceId : String} {m : Message} (h : m.fails deviceId = true)
    (hencodes : ∀ route ∈ ackedRoutes, m.encodesOn deviceId route = true) (b : Bridge) :
    b.handle deviceId (.message m) = b := by
  rw [Bridge.handle, NetworkCallback.action, effects_onMessage_of_fails h hencodes]
  rfl

/-- An event post raises exactly if its body is no dictionary or its acknowledgement
cannot be encoded. -/
theorem fails_eventPost {deviceId : String} {m : Message} {body : Json}
    (h : m.routed deviceId = some (.eventPost, body)) :
    m.fails deviceId = !(body.isObj && m.encodesOn deviceId .eventPost) := by
  unfold Message.routed at h
  split at h
  · rename_i fields hparse
    rw [Option.some.injEq, Prod.mk.injEq] at h
    simp only [Message.fails, Message.encodesOn, encodesOn, hparse, Message.handling, dispatch_obj,
      h.1, h.2, bne_self_eq_false, Bool.false_or]
    cases body with
    | obj bodyFields =>
        cases hack : ackWritable fields m.draws.encoder with
        | true =>
            rw [handleEventPost_of_writable hack]
            rfl
        | false =>
            obtain ⟨e, he⟩ := handleEventPost_of_not_writable hack deviceId bodyFields
            rw [he]
            rfl
    | null | bool | int | float | str | arr => rfl
  · cases h

/-- When the acknowledgements of event posts can be encoded, what a callback says is
evidence. -/
theorem evidence_eq_report {deviceId : String} {cb : NetworkCallback}
    (h : cb.encodesEvent deviceId = true) : cb.evidence deviceId = cb.report deviceId := by
  cases cb with
  | connect | disconnect => rfl
  | message m =>
      rw [NetworkCallback.evidence, NetworkCallback.report, Message.evidence, Message.report]
      split
      · rename_i body hrouted
        have hencodes : m.encodesOn deviceId .eventPost = true := h
        rw [fails_eventPost hrouted, hencodes, Bool.and_true]
        cases body.isObj <;> rfl
      · rfl
      · rfl
      · rfl

theorem get_online_ingest (b : Bridge) (body : Json) :
    (ingest b body).state.get "online" =
      if (decodedValues body).isSome then some (.bool true) else b.state.get "online" := by
  rw [ingest, effects_ingestTelemetry]
  cases decodedValues body with
  | none => rfl
  | some values => simp [get_perform_telemetryEffects]

/-- A callback sets the flag to what it says, and leaves it if it says nothing. -/
theorem get_online_handle (deviceId : String) (b : Bridge) (cb : NetworkCallback) :
    (b.handle deviceId cb).state.get "online" =
      match cb.report deviceId with
      | some up => some (.bool up)
      | none => b.state.get "online" := by
  cases cb with
  | connect rc draws => rw [(handle_connect deviceId b rc draws).2, NetworkCallback.report]
  | disconnect => exact Dict.get_set_self _ _ _
  | message m =>
      rw [NetworkCallback.report, Message.report, state_handle_message]
      cases hrouted : m.routed deviceId with
      | none => rw [Message.writes, hrouted]; rfl
      | some routed =>
          obtain ⟨route, body⟩ := routed
          cases route with
          | propPost | rpcReply =>
              have hingest := get_online_ingest b body
              rw [Message.writes, hrouted]
              dsimp only
              rw [← ingest, hingest]
              cases (decodedValues body).isSome <;> rfl
          | unhandled => rw [Message.writes, hrouted]; rfl
          | dtuPropPost =>
              rw [Message.writes, hrouted]
              cases body with
              | obj fields => exact Dict.get_set_of_ne _ _ (by decide)
              | null | bool | int | float | str | arr => rfl
          | eventPost =>
              rw [Message.writes, hrouted]
              cases body with
              | obj fields =>
                  have hol : eventShowsOnline (.obj fields) =
                      ((fields.lookup "ol").getD (.int 1)).truthy := by
                    rw [eventShowsOnline]
                    cases fields.lookup "ol" <;> rfl
                  simp [Bridge.perform, Dict.get_set, hol, Json.isObj]
              | null | bool | int | float | str | arr => rfl

/-- A message that says nothing leaves the flag alone. -/
theorem get_online_of_report {deviceId : String} {m : Message}
    (h : m.report deviceId = none) (b : Bridge) :
    (b.handle deviceId (.message m)).state.get "online" = b.state.get "online" := by
  rw [get_online_handle, NetworkCallback.report, h]

/-- Without a list of channels a body brings no values. -/
theorem decodedValues_of_not_arr {body : Json}
    (h : ∀ entries, body.getAttr "ct" ≠ .ok (.arr entries)) : decodedValues body = none := by
  rw [decodedValues]
  split
  · rename_i entries heq
    exact absurd heq (h entries)
  · rfl

/-- A push or reply that brings no values says nothing. -/
theorem report_of_no_values {deviceId : String} {m : Message} {body : Json}
    (hrouted : m.routed deviceId = some (.propPost, body) ∨
      m.routed deviceId = some (.rpcReply, body)) (hnone : decodedValues body = none) :
    m.report deviceId = none := by
  rw [Message.report]
  rcases hrouted with hrouted | hrouted <;> simp [hrouted, hnone]

theorem connected_ingest (b : Bridge) (body : Json) : (ingest b body).connected = b.connected := by
  rw [ingest, effects_ingestTelemetry]
  cases decodedValues body with
  | none => rfl
  | some values =>
      simp only [telemetryEffects, List.foldl_append, foldl_perform_updateState]
      cases (bodyStamp body).truthy <;> rfl

/-- A message leaves the connection flag alone. -/
theorem connected_handle_message (deviceId : String) (b : Bridge) (m : Message) :
    (b.handle deviceId (.message m)).connected = b.connected := by
  obtain ⟨outward, houtward, heffects⟩ := effects_onMessage deviceId m
  rw [Bridge.handle, NetworkCallback.action, heffects, List.foldl_append,
    (foldl_perform_outward houtward _).2, Message.writes]
  split
  · exact connected_ingest b _
  · exact connected_ingest b _
  · rfl
  · rfl
  · rfl

/-! ## Runs -/

/-- The flag says what the last callback of the run that says something said, and what
it said at the start if there is none. -/
theorem get_online_foldl (deviceId : String) (b : Bridge) (events : List NetworkCallback) :
    (events.foldl (Bridge.handle deviceId) b).state.get "online" =
      match (events.filterMap (NetworkCallback.report deviceId)).getLast? with
      | some up => some (.bool up)
      | none => b.state.get "online" := by
  induction events using List.reverseRecOn with
  | nil => rfl
  | append_singleton events cb ih =>
      rw [List.foldl_append, List.foldl_cons, List.foldl_nil, get_online_handle, ih,
        List.filterMap_append]
      cases hreport : cb.report deviceId with
      | none => simp [hreport]
      | some up => simp [hreport]

/-- In a session run the flag is off whenever there is no connection. -/
theorem offline_of_disconnected {deviceId : String} {b : Bridge} {events : List NetworkCallback}
    (hsession : InSession b.connected events)
    (hstart : b.connected = false → b.state.get "online" = some (.bool false))
    (hend : (events.foldl (Bridge.handle deviceId) b).connected = false) :
    (events.foldl (Bridge.handle deviceId) b).state.get "online" = some (.bool false) := by
  induction events generalizing b with
  | nil => exact hstart hend
  | cons cb rest ih =>
      rw [List.foldl_cons] at hend ⊢
      cases cb with
      | connect rc draws =>
          obtain ⟨hconnected, hstate⟩ := handle_connect deviceId b rc draws
          refine ih (by rw [hconnected]; exact hsession) ?_ hend
          intro hdown
          rw [hconnected, Bool.or_eq_false_iff] at hdown
          rw [hstate]
          exact hstart hdown.1
      | disconnect => exact ih hsession (fun _ => get_online_handle deviceId b .disconnect) hend
      | message m =>
          have hconnected := connected_handle_message deviceId b m
          refine ih (by rw [hconnected]; exact hsession.2) ?_ hend
          intro hdown
          rw [hconnected, hsession.1] at hdown
          cases hdown

/-- When the acknowledgements of event posts can be encoded, the last that was said is
the last evidence. -/
theorem filterMap_evidence {deviceId : String} {events : List NetworkCallback}
    (h : ∀ cb ∈ events, cb.encodesEvent deviceId = true) :
    events.filterMap (NetworkCallback.evidence deviceId) =
      events.filterMap (NetworkCallback.report deviceId) :=
  List.filterMap_congr fun cb hcb => evidence_eq_report (h cb hcb)

/-- **The online flag.**  In a run in which messages arrive only during a session and
the acknowledgement of every event post can be encoded, the flag is on exactly when the
last evidence there is says so; without a connection it is off; and a reply without
channels, an identity message, a push or reply that brings no values, and a message
whose handling raises although its acknowledgement can be encoded leave it alone. -/
theorem online_reports_latest_evidence (deviceId : String) (events : List NetworkCallback)
    (hsession : InSession false events)
    (hencodes : ∀ cb ∈ events, cb.encodesEvent deviceId = true) :
    ((Bridge.after deviceId events).state.get "online" = some (.bool true) ↔
      (events.filterMap (NetworkCallback.evidence deviceId)).getLast? = some true) ∧
    ((Bridge.after deviceId events).connected = false →
      (Bridge.after deviceId events).state.get "online" = some (.bool false)) ∧
    ∀ m : Message,
      (∃ body, m.routed deviceId = some (.rpcReply, body) ∧
          ∀ entries, body.getAttr "ct" ≠ .ok (.arr entries)) ∨
        (∃ body, m.routed deviceId = some (.dtuPropPost, body)) ∨
        (∃ body, (m.routed deviceId = some (.propPost, body) ∨
          m.routed deviceId = some (.rpcReply, body)) ∧ decodedValues body = none) ∨
        (m.fails deviceId = true ∧ ∀ route ∈ ackedRoutes, m.encodesOn deviceId route = true) →
      (Bridge.after deviceId (events ++ [.message m])).state.get "online" =
        (Bridge.after deviceId events).state.get "online" := by
  have hinit : Bridge.init.state.get "online" = some (.bool false) := by
    simp [Bridge.init, Dict.ofList]
  refine ⟨?_, ?_, ?_⟩
  · rw [Bridge.after, get_online_foldl, hinit, filterMap_evidence hencodes]
    cases (events.filterMap (NetworkCallback.report deviceId)).getLast? with
    | none => simp
    | some up => cases up <;> simp
  · exact offline_of_disconnected hsession fun _ => hinit
  · intro m hm
    have hlast : Bridge.after deviceId (events ++ [.message m]) =
        (Bridge.after deviceId events).handle deviceId (.message m) := by
      rw [Bridge.after, List.foldl_append]
      rfl
    rw [hlast]
    rcases hm with ⟨body, hrouted, hct⟩ | ⟨body, hrouted⟩ | ⟨body, hrouted, hnone⟩ |
      ⟨hfails, hack⟩
    · have hnone := decodedValues_of_not_arr hct
      exact get_online_of_report (report_of_no_values (.inr hrouted) hnone) _
    · apply get_online_of_report
      rw [Message.report, hrouted]
    · exact get_online_of_report (report_of_no_values hrouted hnone) _
    · rw [handle_of_fails hfails hack]

/-- A heartbeat sets the flag, and the disconnect after it clears it. -/
theorem online_reports_latest_evidence_heartbeat :
    let heartbeat : NetworkCallback := .message
      ⟨"dtu/1/pub/event/dev_event_post", .ok (.obj [("c", .int 2), ("b", .obj [("ol", .int 1)])]),
        ⟨"token", "nonce", .plain⟩⟩
    (Bridge.after "1" [.connect 0 ⟨"token", "nonce", .plain⟩, heartbeat]).state.get "online" =
        some (.bool true) ∧
      (Bridge.after "1" [.connect 0 ⟨"token", "nonce", .plain⟩, heartbeat, .disconnect]).state.get
        "online" = some (.bool false) := by
  intro heartbeat
  obtain ⟨hon, -⟩ := online_reports_latest_evidence "1"
    [.connect 0 ⟨"token", "nonce", .plain⟩, heartbeat] ⟨rfl, trivial⟩ (by decide +kernel)
  obtain ⟨-, hoff, -⟩ := online_reports_latest_evidence "1"
    [.connect 0 ⟨"token", "nonce", .plain⟩, heartbeat, .disconnect] ⟨rfl, trivial⟩
    (by decide +kernel)
  exact ⟨hon.mpr (by decide +kernel), hoff rfl⟩

/-- A heartbeat with this index. -/
def heartbeatPost (i : ℤ) : Message :=
  ⟨"dtu/1/pub/event/dev_event_post",
    .ok (.obj [("c", .int 2), ("t", .str "a"), ("i", .int i), ("b", .obj [("ol", .int 1)])]),
    ⟨"token", "nonce", .plain⟩⟩

/-- When the next index cannot be written, handling the heartbeat raises, but the flag has
been set, and no evidence says so. -/
theorem online_set_by_heartbeatPost {i : ℤ} (h : ∀ limit, writable limit (.int (i + 1)) = false) :
    (heartbeatPost i).fails "1" = true ∧
      (Bridge.after "1" [.connect 0 ⟨"token", "nonce", .plain⟩,
        .message (heartbeatPost i)]).state.get "online" = some (.bool true) ∧
      [.connect 0 ⟨"token", "nonce", .plain⟩, .message (heartbeatPost i)].filterMap
        (NetworkCallback.evidence "1") = [] := by
  have hroute : routeOf (topicSuffix "1" "dtu/1/pub/event/dev_event_post") (.int 2) =
      .eventPost := by decide +kernel
  have hrouted : (heartbeatPost i).routed "1" = some (.eventPost, .obj [("ol", .int 1)]) :=
    congrArg (fun route => some (route, _)) hroute
  have hencodes : (heartbeatPost i).encodesOn "1" .eventPost = false := by
    change (routeOf (topicSuffix "1" "dtu/1/pub/event/dev_event_post") (.int 2) != .eventPost ||
      (true && writable 999 (.int (i + 1)))) = false
    rw [hroute, h]
    rfl
  have hfails : (heartbeatPost i).fails "1" = true := by
    rw [fails_eventPost hrouted, hencodes]
    rfl
  have hsays : (heartbeatPost i).report "1" = some true := by
    rw [Message.report, hrouted]
    rfl
  have hevidence : (heartbeatPost i).evidence "1" = none := by
    simp only [Message.evidence, hrouted, hfails, if_true]
  refine ⟨hfails, ?_, ?_⟩
  · rw [Bridge.after, get_online_foldl]
    simp only [List.filterMap_cons, List.filterMap_nil, NetworkCallback.report, hsays]
    rfl
  · simp only [List.filterMap_cons, List.filterMap_nil, NetworkCallback.evidence, hevidence]

/-- An index of 4300 nines: the next one has a digit too many. -/
theorem online_set_by_failing_post :
    let events : List NetworkCallback :=
      [.connect 0 ⟨"token", "nonce", .plain⟩, .message (heartbeatPost (10 ^ 4300 - 1))]
    InSession false events ∧ (heartbeatPost (10 ^ 4300 - 1)).fails "1" = true ∧
      (Bridge.after "1" events).state.get "online" = some (.bool true) ∧
      (events.filterMap (NetworkCallback.evidence "1")).getLast? ≠ some true := by
  intro events
  have hlong : ∀ limit, writable limit (.int (10 ^ 4300 - 1 + 1)) = false := by
    intro limit
    rw [sub_add_cancel]
    exact not_writable_pow le_rfl limit
  obtain ⟨hfails, honline, hevidence⟩ := online_set_by_heartbeatPost hlong
  exact ⟨⟨rfl, trivial⟩, hfails, honline, by rw [hevidence]; simp⟩

end SotRwb1
