import SotRwb1.Bridge.Reply
import SotRwb1.Bridge.Wire
import SotRwb1.Protocol.Command
import SotRwb1.System.World

/-!
# What the bridge publishes over a run

Requests are published by the event loop, acknowledgements and the dump request of a
connection by the network thread, one effect at a time.  However the two interleave,
the dongle receives the request of every call once and in the order the calls
started, and every push it is owed an answer for is answered once and in order.

## Main definitions

* `publishedIn` — what a step publishes.
* `Caller.frame`, `readRequest` — a call's command, and what the dongle reads.
* `Message.owedAck` — the acknowledgement a message is owed.
* `requests_received`, `acks_published` — the two ledgers.
-/

namespace SotRwb1

open PyLib

/-! ## What a step publishes -/

/-- A request for a full dump. -/
def dumpRequest (deviceId : String) (draws : Draws) : String × Json :=
  (topicRpcRequest deviceId,
    buildEnvelope (.int cmdDevRpc) (.obj []) (.int iRpcDump) .null none draws)

/-- The messages an event publishes, in order. -/
def publishedIn (deviceId : String) (w : World) : Event → List (String × Json)
  | .thread => (w.thread.head?.bind Effect.published).toList
  | .refresh draws => if w.bridge.connected then [dumpRequest deviceId draws] else []
  | .start _ caller token draws none =>
      match caller.ci with
      | .ok ci =>
          if w.bridge.connected then
            [(topicRpcRequest deviceId, rpcEnvelope ci token draws)]
          else []
      | .error _ => []
  | _ => []

theorem published_perform (w : World) (effect : Effect) :
    (w.perform effect).bridge.published = w.bridge.published ++ effect.published.toList := by
  cases effect with
  | publish topic env => rfl
  | setConnected | setState | subscribe | callSoon =>
      simp [World.perform, Bridge.perform, Effect.published]

/-- A job of the loop publishes nothing. -/
theorem published_job {w w' : World} {job : Job} (h : JobResult w job w') :
    w'.bridge.published = w.bridge.published := by
  cases h <;> rfl

theorem published_step {deviceId : String} {w w' : World} {e : Event}
    (h : (machine deviceId).step w e = some w') :
    w'.bridge.published = w.bridge.published ++ publishedIn deviceId w e := by
  cases e with
  | start id caller token draws refusal =>
      change (if (w.tasks id).isNone then some (w.start deviceId id caller token draws refusal)
        else none) = some w' at h
      split at h
      · cases h
        rw [World.start]
        cases hci : caller.ci with
        | error err => cases refusal <;> simp [publishedIn, hci]
        | ok ci =>
            cases hup : w.bridge.connected <;> cases refusal <;>
              simp [publishedIn, hci, hup, World.register, World.registerRefused]
      · cases h
  | refresh draws =>
      change (if w.refreshed.isSome then none else if w.bridge.connected then _ else _) =
        some w' at h
      split at h
      · cases h
      · split at h
        · rename_i hup
          cases h
          rw [publishedIn, if_pos hup]
          rfl
        · rename_i hup
          cases h
          rw [publishedIn, if_neg hup, List.append_nil]
  | network cb =>
      cases step_result h
      exact (List.append_nil _).symm
  | thread =>
      cases step_result h with
      | thread effect rest performing =>
          rw [published_perform, publishedIn, performing]
          rfl
  | loop =>
      cases step_result h with
      | loop job rest queued _ result =>
          rw [published_job result]
          exact (List.append_nil _).symm
  | store =>
      cases step_result h
      exact (List.append_nil _).symm
  | await id =>
      cases step_result h <;> exact (List.append_nil _).symm
  | timeout id =>
      cases step_result h
      exact (List.append_nil _).symm
  | cancel id =>
      cases step_result h
      exact (List.append_nil _).symm

/-! ## Commands and requests -/

/-- The bytes of a write, if its texts are ASCII. -/
def writeFrame (channel value : String) : Option (List UInt8) :=
  if IsAscii (channel.toList ++ value.toList) then some (commandFrame channel value ++ [0x0D])
  else none

/-- The bytes of a read, if its channel is ASCII. -/
def readFrame (channel : String) : Option (List UInt8) :=
  if IsAscii channel.toList then some (asciiBytes channel.toList ++ [0x0D]) else none

/-- The command of a call. -/
def Caller.frame : Caller → Option (List UInt8)
  | control e value =>
      match e.command value with
      | .ok (channel, valueStr) => writeFrame channel valueStr
      | .error _ => none
  | press => writeFrame faultClearChannel ""
  | read channel => readFrame channel

/-- The token and the command in an envelope, if it has both. -/
def requestIn (fields : List (String × Json)) : Option (String × List UInt8) :=
  match fields.lookup "t", fields.lookup "b" with
  | some (.str t), some (.obj body) =>
      match body.lookup "ci" with
      | some (.str ci) => (Base64.decode ci.toList).map fun frame => (t, frame)
      | _ => none
  | _, _ => none

/-- What the dongle reads in the payload of a request. -/
def readRequest (limit : ℕ) (payload : List UInt8) : Option (String × List UInt8) :=
  match parsePayload limit payload with
  | .ok (some (.obj fields)) => requestIn fields
  | _ => none

/-- What the dongle reads in a published message. -/
def received (repr : PyFloat → List Char) (limit limit' : ℕ) (deviceId : String)
    (m : String × Json) : Option (String × List UInt8) :=
  if m.1 = topicRpcRequest deviceId then
    (encodeEnvelope repr limit m.2).toOption.bind (readRequest limit')
  else none

/-- The token an envelope goes out with. -/
def Draws.tokenFor (draws : Draws) (token : String) : String :=
  if token = "" then draws.token else token

theorem isAscii_append_iff (s t : List Char) : IsAscii (s ++ t) ↔ IsAscii s ∧ IsAscii t := by
  simp only [IsAscii, List.mem_append]
  exact ⟨fun h => ⟨fun c hc => h c (.inl hc), fun c hc => h c (.inr hc)⟩,
    fun h c hc => hc.elim (h.1 c) (h.2 c)⟩

theorem encodeAscii_eq_error {s : List Char} (h : ¬ IsAscii s) :
    encodeAscii s = .error .valueError := by
  rw [encodeAscii, if_neg]
  simpa [IsAscii] using h

/-- The payload of a write carries its frame. -/
theorem writeFrame_cases (channel value : String) :
    (∃ ci frame, buildWriteCi channel value = .ok ci ∧ writeFrame channel value = some frame ∧
      Base64.decode ci.toList = some frame) ∨
    ∃ err, buildWriteCi channel value = .error err ∧ writeFrame channel value = none := by
  by_cases h : IsAscii (channel.toList ++ value.toList)
  · obtain ⟨hc, hv⟩ := (isAscii_append_iff _ _).mp h
    obtain ⟨ci, hci, hdecode⟩ := buildWriteCi_eq_ok hc hv
    exact .inl ⟨ci, _, hci, if_pos h, hdecode⟩
  · refine .inr ⟨.valueError, ?_, if_neg h⟩
    rw [buildWriteCi, encodeAscii_eq_error h]
    rfl

/-- The payload of a read carries its frame. -/
theorem readFrame_cases (channel : String) :
    (∃ ci frame, buildReadCi channel = .ok ci ∧ readFrame channel = some frame ∧
      Base64.decode ci.toList = some frame) ∨
    ∃ err, buildReadCi channel = .error err ∧ readFrame channel = none := by
  by_cases h : IsAscii channel.toList
  · have hframe : IsAscii (channel.toList ++ ['\r']) := isAscii_append h (by decide)
    refine .inl ⟨String.ofList (Base64.encode (asciiBytes channel.toList ++ [0x0D])), _, ?_,
      if_pos h, ?_⟩
    · rw [buildReadCi, encodeAscii_eq_ok hframe, asciiBytes, List.map_append]
      rfl
    · rw [String.toList_ofList, Base64.decode_encode]
  · refine .inr ⟨.valueError, ?_, if_neg h⟩
    have hframe : ¬ IsAscii (channel.toList ++ ['\r']) := by
      rw [isAscii_append_iff]
      exact fun hboth => h hboth.1
    rw [buildReadCi, encodeAscii_eq_error hframe]
    rfl

/-- The payload of a call carries its command; a call without payload has none. -/
theorem Caller.frame_cases (caller : Caller) :
    (∃ ci frame, caller.ci = .ok ci ∧ caller.frame = some frame ∧
      Base64.decode ci.toList = some frame) ∨
    ∃ err, caller.ci = .error err ∧ caller.frame = none := by
  have hwrite : ∀ channel value,
      (∃ ci frame, (buildWriteCi channel value).mapError CallError.python = .ok ci ∧
        writeFrame channel value = some frame ∧ Base64.decode ci.toList = some frame) ∨
      ∃ err, (buildWriteCi channel value).mapError CallError.python = .error err ∧
        writeFrame channel value = none := by
    intro channel value
    rcases writeFrame_cases channel value with ⟨ci, frame, hci, hframe⟩ | ⟨err, herr, hframe⟩
    · exact .inl ⟨ci, frame, by rw [hci]; rfl, hframe⟩
    · exact .inr ⟨_, by rw [herr]; rfl, hframe⟩
  cases caller with
  | control e value =>
      rw [Caller.ci, Caller.frame]
      cases e.command value with
      | ok command => exact hwrite command.1 command.2
      | error err => exact .inr ⟨err, rfl, rfl⟩
  | press => exact hwrite faultClearChannel ""
  | read channel =>
      rw [Caller.ci, Caller.frame]
      rcases readFrame_cases channel with ⟨ci, frame, hci, hframe⟩ | ⟨err, herr, hframe⟩
      · exact .inl ⟨ci, frame, by rw [hci]; rfl, hframe⟩
      · exact .inr ⟨_, by rw [herr]; rfl, hframe⟩

section Wire

variable {repr : PyFloat → List Char} {limit limit' : ℕ}

/-- The dongle reads an envelope as it was written. -/
theorem received_obj (hlimit : limit + 1 ≤ limit') (deviceId : String)
    {fields : List (String × Json)} (hfields : (Json.obj fields).Portable)
    (hwritable : writable (limit + 1) (.obj fields) = true) :
    received repr (limit + 1) limit' deviceId (topicRpcRequest deviceId, .obj fields) =
      requestIn fields := by
  obtain ⟨text, htext⟩ := exists_dumps hwritable repr
  have hencode : encodeEnvelope repr (limit + 1) (.obj fields) = .ok (encodeUtf8 text) := by
    rw [encodeEnvelope, htext]
    rfl
  obtain ⟨-, hparse⟩ := parsePayload_encodeEnvelope hlimit hfields hencode
  rw [received, if_pos rfl, hencode]
  change readRequest limit' (encodeUtf8 text) = _
  rw [readRequest, hparse]

theorem rpcEnvelope_eq (ci token : String) (draws : Draws) :
    rpcEnvelope ci token draws =
      .obj [("c", .int 5), ("t", .str (draws.tokenFor token)), ("s", .str draws.nonce),
        ("i", .int 503), ("b", .obj [("ci", .str ci), ("no", .int 0), ("rs", .int 0)])] := by
  by_cases htoken : token = "" <;>
    simp [rpcEnvelope, buildEnvelope, Json.truthy, Draws.tokenFor, htoken, cmdDevRpc,
      iRpcReadwrite]

/-- The dongle reads the command of a request and its token. -/
theorem received_rpcEnvelope (hlimit : limit + 2 ≤ limit') (deviceId ci token : String)
    (draws : Draws) :
    received repr (limit + 2) limit' deviceId
        (topicRpcRequest deviceId, rpcEnvelope ci token draws) =
      (Base64.decode ci.toList).map fun frame => (draws.tokenFor token, frame) := by
  have hbody : (Json.obj [("ci", .str ci), ("no", .int 0), ("rs", .int 0)]).Portable := by
    refine .obj (by simp) ?_
    simp only [List.forall_mem_cons, List.not_mem_nil, false_implies, implies_true, and_true]
    exact ⟨.str _, .int _, .int _⟩
  rw [rpcEnvelope_eq, received_obj hlimit deviceId]
  · rfl
  · refine .obj (by simp) ?_
    simp only [List.forall_mem_cons, List.not_mem_nil, false_implies, implies_true, and_true]
    exact ⟨.int _, .str _, .str _, .int _, hbody⟩
  · simp [writable, writable_int, writable_str, maxStrDigits]

/-- A request for a dump has no command. -/
theorem received_dumpRequest (hlimit : limit + 2 ≤ limit') (deviceId : String) (draws : Draws) :
    received repr (limit + 2) limit' deviceId (dumpRequest deviceId draws) = none := by
  rw [dumpRequest, buildEnvelope, received_obj hlimit deviceId]
  · rfl
  · refine .obj (by simp) ?_
    simp only [List.append_nil, List.forall_mem_cons, List.not_mem_nil, false_implies,
      implies_true, and_true]
    exact ⟨.int _, .str _, .str _, .int _, .obj (by simp) (by simp)⟩
  · rfl

end Wire

/-! ## Acknowledgements -/

/-- The ingestion of a body returns: it is a dictionary, and so is every entry of its
channel list. -/
def ingestible (body : Json) : Bool :=
  match body with
  | .obj fields =>
      match fields.lookup "ct" with
      | some (.arr entries) => entries.all Json.isObj
      | _ => true
  | _ => false

/-- The acknowledgement a message is owed, if it can be encoded: a telemetry post that
can be ingested, and an event post whose body is a dictionary, on the reply topic of
its route. -/
def Message.owedAck (deviceId : String) (m : Message) : Option (String × Json) :=
  match m.loaded with
  | .ok (.obj fields) =>
      match routeOf (topicSuffix deviceId m.topic) ((fields.lookup "c").getD .null) with
      | .propPost =>
          if ingestible (bodyOf fields) && ackWritable fields m.draws.encoder then
            some (topicPropPostReply deviceId, ackEnvelope fields m.draws)
          else none
      | .eventPost =>
          if (bodyOf fields).isObj && ackWritable fields m.draws.encoder then
            some (topicEventPostReply deviceId, ackEnvelope fields m.draws)
          else none
      | _ => none
  | _ => none

/-- The acknowledgement a network callback owes. -/
def NetworkCallback.owedAck (deviceId : String) : NetworkCallback → Option (String × Json)
  | message m => m.owedAck deviceId
  | _ => none

theorem ingestible_iff (body : Json) : ingestible body = true ↔ (ingestTelemetry body).Total := by
  rw [ingestTelemetry_total_iff]
  cases body with
  | obj fields =>
      rw [ingestible, Json.getAttr_obj]
      cases hct : fields.lookup "ct" with
      | none => simp [Json.isObj]
      | some ct => cases ct <;> simp [Json.isObj]
  | null | bool | int | float | str | arr => simp [ingestible, Json.isObj]

theorem publishedBy_handleRpcReply (token body : Json) :
    publishedBy (handleRpcReply token body) = [] := by
  rw [publishedBy, filterMap_handleRpcReply (fun _ _ => rfl) rfl]
  cases answerOf body <;> rfl

theorem publishedBy_ingestIdentity (body : Json) : publishedBy (ingestIdentity body) = [] :=
  filterMap_ingestIdentity (fun _ _ => rfl) rfl body

theorem publishedBy_message (deviceId : String) (m : Message) :
    publishedBy (onMessage deviceId m) = (m.owedAck deviceId).toList := by
  obtain ⟨topic, loaded, draws⟩ := m
  cases loaded with
  | error e => cases e <;> rfl
  | ok x =>
      cases x with
      | obj fields =>
          rw [publishedBy, effects_onMessage_obj, ← publishedBy, dispatch_obj, Message.owedAck]
          dsimp only
          cases routeOf (topicSuffix deviceId topic) ((fields.lookup "c").getD .null) with
          | propPost =>
              have hack := publishedBy_then_ack (publishedBy_ingestTelemetry (bodyOf fields))
                (topicPropPostReply deviceId) fields draws
              rw [← ingestible_iff, ← Bool.and_eq_true] at hack
              dsimp only
              split
              · rename_i hboth
                exact hack.1 hboth
              · rename_i hnot
                exact hack.2 hnot
          | eventPost =>
              dsimp only
              rw [publishedBy_handleEventPost]
              split <;> rfl
          | dtuPropPost => exact publishedBy_ingestIdentity _
          | rpcReply => exact publishedBy_handleRpcReply _ _
          | unhandled => rfl
      | null | bool | int | float | str | arr => rfl

/-- What a network callback publishes: the acknowledgement it owes, or the dump request
of a new connection. -/
theorem publishedBy_action (deviceId : String) (cb : NetworkCallback) :
    publishedBy (cb.action deviceId) = (cb.owedAck deviceId).toList ∨
      ∃ draws, publishedBy (cb.action deviceId) = [dumpRequest deviceId draws] ∧
        cb.owedAck deviceId = none := by
  cases cb with
  | connect rc draws =>
      rw [NetworkCallback.action, publishedBy, effects_onConnect]
      split
      · exact .inr ⟨draws, rfl, rfl⟩
      · exact .inl rfl
  | disconnect => exact .inl rfl
  | message m => exact .inl (publishedBy_message deviceId m)

/-- An acknowledgement does not go to the request topic. -/
theorem owedAck_topic {deviceId : String} {cb : NetworkCallback} {m : String × Json}
    (h : cb.owedAck deviceId = some m) : m.1 ≠ topicRpcRequest deviceId := by
  have hprop : topicPropPostReply deviceId ≠ topicRpcRequest deviceId := by
    intro htopic
    have hlist := congrArg String.toList htopic
    simp only [topicPropPostReply, topicRpcRequest, String.toList_append] at hlist
    exact absurd (List.append_cancel_left hlist) (by decide)
  have hevent : topicEventPostReply deviceId ≠ topicRpcRequest deviceId := by
    intro htopic
    have hlist := congrArg String.toList htopic
    simp only [topicEventPostReply, topicRpcRequest, String.toList_append] at hlist
    exact absurd (List.append_cancel_left hlist) (by decide)
  cases cb with
  | message msg =>
      rw [NetworkCallback.owedAck, Message.owedAck] at h
      split at h
      · split at h
        · split at h <;> cases h
          exact hprop
        · split at h <;> cases h
          exact hevent
        · cases h
      · cases h
  | connect | disconnect => cases h

/-! ## The two ledgers -/

/-- What is left to publish for the running callback: an acknowledgement, or a dump
request. -/
def ThreadPublishes (deviceId : String) (w : World) : Prop :=
  ∀ m ∈ w.thread.filterMap Effect.published,
    m.1 ≠ topicRpcRequest deviceId ∨ ∃ draws, m = dumpRequest deviceId draws

/-- The loop leaves the running callback alone. -/
theorem thread_step {deviceId : String} {w w' : World} {e : Event}
    (h : (machine deviceId).step w e = some w') :
    (∃ cb, e = .network cb ∧ w.thread = [] ∧ w'.thread = (cb.action deviceId).effects) ∨
      (e = .thread ∧ ∃ effect, w.thread = effect :: w'.thread) ∨
      (w'.thread = w.thread ∧ (∀ cb, e ≠ .network cb) ∧ e ≠ .thread) := by
  cases step_result h with
  | network cb idle => exact .inl ⟨cb, rfl, idle, rfl⟩
  | thread effect rest performing =>
      refine .inr (.inl ⟨rfl, effect, ?_⟩)
      rw [performing]
      cases effect <;> rfl
  | loop job rest queued _ result =>
      refine .inr (.inr ⟨?_, by simp, by simp⟩)
      cases result <;> rfl
  | refresh | refreshFails | store | register | refuse | startFails | wait | takeReply | timeout |
      cancel => exact .inr (.inr ⟨rfl, by simp, by simp⟩)

theorem ThreadPublishes.step {deviceId : String} {w w' : World} {e : Event}
    (h : ThreadPublishes deviceId w)
    (hstep : (machine deviceId).step w e = some w') : ThreadPublishes deviceId w' := by
  intro m hm
  rcases thread_step hstep with ⟨cb, -, -, hthread⟩ | ⟨-, effect, hthread⟩ | ⟨hthread, -⟩
  · rw [hthread, ← publishedBy] at hm
    rcases publishedBy_action deviceId cb with hack | ⟨draws, hdump, -⟩
    · rw [hack, Option.mem_toList] at hm
      exact .inl (owedAck_topic hm)
    · rw [hdump, List.mem_singleton] at hm
      exact .inr ⟨draws, hm⟩
  · apply h
    rw [hthread]
    exact (List.sublist_cons_self _ _).filterMap _ |>.subset hm
  · rw [hthread] at hm
    exact h m hm

theorem ThreadPublishes.init (deviceId : String) (restored : Shown) :
    ThreadPublishes deviceId (World.init restored) := by
  intro m hm
  cases hm

/-- The request of a call that starts while the bridge is connected and is published. -/
def requestOf (w : World) : Event → List (String × List UInt8)
  | .start _ caller token draws none =>
      if w.bridge.connected then
        (caller.frame.map fun frame => (draws.tokenFor token, frame)).toList
      else []
  | _ => []

/-- Of what a step publishes, the dongle reads the request of the call that starts. -/
theorem received_publishedIn {repr : PyFloat → List Char} {limit limit' : ℕ}
    (hlimit : limit + 2 ≤ limit') {deviceId : String} {w : World} (h : ThreadPublishes deviceId w)
    (e : Event) :
    (publishedIn deviceId w e).filterMap (received repr (limit + 2) limit' deviceId) =
      requestOf w e := by
  cases e with
  | start id caller token draws refusal =>
      cases refusal with
      | some err => rfl
      | none =>
          rw [publishedIn, requestOf]
          rcases caller.frame_cases with ⟨ci, frame, hci, hframe, hdecode⟩ | ⟨err, herr, hframe⟩
          · rw [hci, hframe]
            dsimp only
            split
            · rw [List.filterMap_cons, received_rpcEnvelope hlimit, hdecode]
              rfl
            · rfl
          · rw [herr, hframe]
            dsimp only
            split <;> rfl
  | refresh draws =>
      have hrequest : requestOf w (.refresh draws) = [] := rfl
      rw [publishedIn, hrequest]
      split
      · rw [List.filterMap_cons, received_dumpRequest hlimit]
        rfl
      · rfl
  | thread =>
      have hrequest : requestOf w .thread = [] := rfl
      rw [publishedIn, hrequest]
      cases hthread : w.thread with
      | nil => rfl
      | cons effect rest =>
          cases hm : effect.published with
          | none => simp [hm]
          | some m =>
              have hmem : m ∈ w.thread.filterMap Effect.published := by
                rw [hthread]
                simp [hm]
              have hnone : received repr (limit + 2) limit' deviceId m = none := by
                rcases h m hmem with htopic | ⟨draws, rfl⟩
                · exact if_neg htopic
                · exact received_dumpRequest hlimit deviceId draws
              simp [hm, hnone]
  | network | loop | store | await | timeout | cancel => rfl

/-- **Requests.**  Over any run, decoding the payloads published on the request topic
yields the token and the command of every call that started while the bridge was
connected, once each and in the order they started. -/
theorem requests_received {deviceId : String} {restored : Shown} {ok : World → Event → Prop}
    {history : List (World × Event)} {w : World}
    (h : (machine deviceId).Run ok (World.init restored) history w)
    (repr : PyFloat → List Char) {limit limit' : ℕ} (hdepth : 2 ≤ limit)
    (hlimit : limit ≤ limit') :
    w.bridge.published.filterMap (received repr limit limit' deviceId) =
      history.flatMap fun p => requestOf p.1 p.2 := by
  obtain ⟨limit, rfl⟩ : ∃ n, limit = n + 2 := ⟨limit - 2, by omega⟩
  apply h.ledger (ThreadPublishes deviceId)
    (fun w => w.bridge.published.filterMap (received repr (limit + 2) limit' deviceId)) requestOf
    (.init deviceId restored) rfl
  intro w e w' hleft _ hstep
  refine ⟨hleft.step hstep, ?_⟩
  rw [published_step hstep, List.filterMap_append, received_publishedIn hlimit hleft]

/-- The clear-fault button is pressed while the answer to a telemetry post is still to
be published. -/
def answeringEvents : List Event :=
  [.network (.connect 0 ⟨"dump", "nonce", .plain⟩), .thread, .thread, .thread, .thread,
    .network (.message ⟨"dtu/x/pub/event/dev_prop_post",
      .ok (.obj [("t", .str "post"), ("i", .int 101)]), ⟨"ack", "nonce", .plain⟩⟩),
    .start 0 .press "press" ⟨"token", "nonce", .plain⟩ none, .thread]

set_option maxRecDepth 10000 in
/-- The dongle reads the command of the button. -/
theorem requests_received_press :
    ∃ history w, (machine "x").Run (fun _ _ => True) (World.init fun _ => none) history w ∧
      w.bridge.published.length = 3 ∧
      w.bridge.published.filterMap (received (fun _ => []) 2 2 "x") =
        [("press", [0x46, 0x41, 0x55, 0x4C, 0x54, 0x43, 0x47, 0xA6, 0x0D])] := by
  have hreplay : ((machine "x").replay (fun _ _ => True) (World.init fun _ => none)
      answeringEvents).any (fun r => r.2.bridge.published.length == 3 &&
        (r.1.flatMap fun p => requestOf p.1 p.2) ==
          [("press", [0x46, 0x41, 0x55, 0x4C, 0x54, 0x43, 0x47, 0xA6, 0x0D])]) = true := by
    decide +kernel
  obtain ⟨r, hr, hfacts⟩ := (Option.any_eq_true _ _).mp hreplay
  rw [Bool.and_eq_true, beq_iff_eq, beq_iff_eq] at hfacts
  have hrun := Machine.Run.nil.replay hr
  refine ⟨_, _, hrun, hfacts.1, ?_⟩
  rw [requests_received hrun (fun _ => []) le_rfl le_rfl, List.nil_append]
  exact hfacts.2

/-- The acknowledgement an event owes. -/
def owedIn (deviceId : String) : Event → List (String × Json)
  | .network cb => (cb.owedAck deviceId).toList
  | _ => []

/-- What is not a request. -/
def isAck (deviceId : String) (m : String × Json) : Bool := m.1 != topicRpcRequest deviceId

theorem isAck_request (deviceId : String) (env : Json) :
    isAck deviceId (topicRpcRequest deviceId, env) = false := by
  simp [isAck]

/-- The loop publishes requests only. -/
theorem filter_publishedIn {deviceId : String} {w : World} {e : Event} (hthread : e ≠ .thread) :
    (publishedIn deviceId w e).filter (isAck deviceId) = [] := by
  cases e with
  | thread => exact absurd rfl hthread
  | refresh draws =>
      rw [publishedIn]
      split
      · rw [dumpRequest, List.filter_cons_of_neg (by simp [isAck_request]), List.filter_nil]
      · rfl
  | start id caller token draws refusal =>
      rw [publishedIn.eq_def]
      split
      · rename_i heq
        cases heq
      · rename_i heq
        cases heq
      · split
        · split
          · rw [List.filter_cons_of_neg (by simp [isAck_request]), List.filter_nil]
          · rfl
        · rfl
      · rfl
  | network | loop | store | await | timeout | cancel => rfl

/-- What a network callback publishes on the reply topics. -/
theorem filter_publishedBy (deviceId : String) (cb : NetworkCallback) :
    (publishedBy (cb.action deviceId)).filter (isAck deviceId) =
      owedIn deviceId (.network cb) := by
  rcases publishedBy_action deviceId cb with hack | ⟨draws, hdump, hnone⟩
  · rw [hack, owedIn]
    cases howed : cb.owedAck deviceId with
    | none => rfl
    | some m =>
        have htopic : isAck deviceId m = true := by
          rw [isAck, bne_iff_ne]
          exact owedAck_topic howed
        rw [Option.toList_some, List.filter_cons_of_pos htopic, List.filter_nil]
  · rw [hdump, owedIn, hnone, dumpRequest, List.filter_cons_of_neg (by simp [isAck_request])]
    rfl

/-- **Acknowledgements.**  Over any run, what was published on the reply topics,
followed by what the running callback will publish there, is what the messages
received were owed, once each and in their order. -/
theorem acks_published {deviceId : String} {restored : Shown} {ok : World → Event → Prop}
    {history : List (World × Event)} {w : World}
    (h : (machine deviceId).Run ok (World.init restored) history w) :
    w.bridge.published.filter (isAck deviceId) ++
        (w.thread.filterMap Effect.published).filter (isAck deviceId) =
      history.flatMap fun p => owedIn deviceId p.2 := by
  apply h.ledger (fun _ => True)
    (fun w => w.bridge.published.filter (isAck deviceId) ++
      (w.thread.filterMap Effect.published).filter (isAck deviceId))
    (fun _ e => owedIn deviceId e) trivial rfl
  intro w e w' _ _ hstep
  refine ⟨trivial, ?_⟩
  rw [published_step hstep, List.filter_append]
  rcases thread_step hstep with
    ⟨cb, rfl, hidle, hthread⟩ | ⟨rfl, effect, hthread⟩ | ⟨hthread, hnetwork, hother⟩
  · have hquiet : publishedIn deviceId w (.network cb) = [] := rfl
    rw [hquiet, hidle, hthread, ← publishedBy, filter_publishedBy]
    simp
  · have howed : owedIn deviceId .thread = [] := rfl
    rw [publishedIn, hthread, List.filterMap_cons, howed, List.append_nil]
    cases hm : effect.published with
    | none => simp [hm]
    | some m =>
        rw [List.append_assoc, ← List.filter_append]
        simp [hm]
  · have hnone : owedIn deviceId e = [] := by
      cases e with
      | network cb => exact absurd rfl (hnetwork cb)
      | thread | loop | refresh | store | start | await | timeout | cancel => rfl
    rw [filter_publishedIn hother, hthread, hnone, List.append_nil, List.append_nil]

set_option maxRecDepth 10000 in
/-- The telemetry post is answered once, behind the request of the button. -/
theorem acks_published_post :
    ∃ history w, (machine "x").Run (fun _ _ => True) (World.init fun _ => none) history w ∧
      w.bridge.published.filter (isAck "x") =
        [("dtu/x/sub/event/dev_prop_post_reply",
          ackEnvelope [("t", .str "post"), ("i", .int 101)] ⟨"ack", "nonce", .plain⟩)] := by
  have hreplay : ((machine "x").replay (fun _ _ => True) (World.init fun _ => none)
      answeringEvents).any (fun r => r.2.thread.isEmpty) = true := by decide +kernel
  have howed : ((machine "x").replay (fun _ _ => True) (World.init fun _ => none)
      answeringEvents).map (fun r => r.1.flatMap fun p => owedIn "x" p.2) =
        some [("dtu/x/sub/event/dev_prop_post_reply",
          ackEnvelope [("t", .str "post"), ("i", .int 101)] ⟨"ack", "nonce", .plain⟩)] := by rfl
  obtain ⟨r, hr, hidle⟩ := (Option.any_eq_true _ _).mp hreplay
  rw [hr, Option.map_some, Option.some.injEq] at howed
  have hrun := Machine.Run.nil.replay hr
  have hledger := acks_published hrun
  rw [List.isEmpty_iff.mp hidle, List.filterMap_nil, List.filter_nil, List.append_nil,
    List.nil_append, howed] at hledger
  exact ⟨_, _, hrun, hledger⟩

end SotRwb1
