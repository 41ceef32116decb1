import SotRwb1.Lib.Handler
import SotRwb1.Protocol.Frame

/-!
# The bridge's network callbacks

The callbacks that run on the network thread.  Each is a `Handler`: the effects
it performs in order, and whether it raises.  The effects are the writes to the
bridge's state, one for each key; published messages; and callbacks scheduled on
the event loop.

A message carries what `json.loads` returns for its payload.  An envelope is encoded
before it is published, and encoding may raise; handing the payload over to the client
does not.

## Main definitions

* `Bridge`, `Effect`, `Callback` — the bridge's data and what handlers do to it.
* `ingestTelemetry`, `ingestIdentity`, `handleRpcReply`, `ack`, `dispatch`.
* `Route`, `routeOf` — the branches of `dispatch`.
* `ackWritable`, `Message.encodesOn` — the acknowledgement can be encoded.
* `onConnect`, `onDisconnect`, `onMessage` — the entry points.
-/

namespace SotRwb1

open PyLib

/-- A callback scheduled with `call_soon_threadsafe`. -/
inductive Callback where
  | notify
  | resolvePending (token co : Json)
  | resolveConnect (refused : Bool)

/-- What a network callback does to its surroundings. -/
inductive Effect where
  | setConnected (up : Bool)
  | setState (key : String) (value : Json)
  | subscribe (topic : String)
  | publish (topic : String) (env : Json)
  | callSoon (cb : Callback)

/-- The bridge: the connection flag, the decoded device state, the table of
pending requests (token to future), and what it has published. -/
structure Bridge where
  connected : Bool
  state : Dict String Json
  pending : Dict String ℕ
  published : List (String × Json)

/-- The bridge as constructed. -/
def Bridge.init : Bridge :=
  ⟨false, Dict.ofList [("online", .bool false)], .empty, []⟩

/-- The effect on the bridge itself; a scheduled callback leaves it alone. -/
def Bridge.perform (b : Bridge) : Effect → Bridge
  | .setConnected up => { b with connected := up }
  | .setState key value => { b with state := b.state.set key value }
  | .publish topic env => { b with published := b.published ++ [(topic, env)] }
  | .subscribe _ => b
  | .callSoon _ => b

/-- The callback an effect schedules. -/
def Effect.scheduled : Effect → Option Callback
  | callSoon cb => some cb
  | _ => none

/-- The message an effect publishes. -/
def Effect.published : Effect → Option (String × Json)
  | publish topic env => some (topic, env)
  | _ => none

/-- A network callback in progress. -/
abbrev Action := Handler Effect PyError PUnit

/-! ## Ingestion -/

/-- The writes of `state.update(values)`. -/
def updateState (values : Dict String Json) : List Effect :=
  values.entries.map fun kv => .setState kv.1 kv.2

/-- Take over the values of a push or dump and notify; without a list of channels
or without values nothing happens. -/
def ingestTelemetry (body : Json) : Action := do
  let ct ← Handler.ofExcept (body.getAttr "ct")
  match ct with
  | .arr entries =>
      let decoded ← Handler.ofExcept (decodeCt entries)
      if decoded.1.isEmpty then pure ⟨⟩
      else
        Handler.emits (updateState (deriveBinaryState decoded.1))
        Handler.emit (.setState "online" (.bool true))
        let ts ← Handler.ofExcept (body.getAttr "ts")
        if ts.truthy then Handler.emit (.setState "last_telemetry" ts)
        Handler.emit (.callSoon .notify)
  | _ => pure ⟨⟩

/-- Take over the dongle's description of itself. -/
def ingestIdentity (body : Json) : Action := do
  let md ← Handler.ofExcept (body.getAttr "md")
  let sv ← Handler.ofExcept (body.getAttr "sv")
  let mc ← Handler.ofExcept (body.getAttr "mc")
  let ip ← Handler.ofExcept (body.getAttr "ip")
  Handler.emit (.setState "identity"
    (.obj [("model", md), ("firmware", sv), ("mac", mc), ("ip", ip)]))
  Handler.emit (.callSoon .notify)

/-- A reply with `ct` is a full dump, one with `co` answers a read or write. -/
def handleRpcReply (token body : Json) : Action := do
  let ct ← Handler.ofExcept (body.getAttr "ct")
  match ct, body with
  | .arr _, _ =>
      ingestTelemetry body
      Handler.emit (.callSoon (.resolvePending token .null))
  | _, .obj fields =>
      match fields.lookup "co" with
      | some co => Handler.emit (.callSoon (.resolvePending token co))
      | none => pure ⟨⟩
  | _, _ => pure ⟨⟩

/-! ## Publishing -/

/-- The `i` of a reply: one more than the request's, when that is an integer. -/
def replyIndex (i : Json) : Json :=
  match i.asInt with
  | some n => .int (n + 1)
  | none => i

/-- Encode an envelope and publish it. -/
def publish (topic : String) (env : Json) (draws : Draws) : Action := do
  let _payload ← Handler.ofExcept (draws.encode env)
  Handler.emit (.publish topic env)

/-- Send an `e:0` acknowledgement echoing the request token. -/
def ack (topic : String) (requestEnv : Json) (draws : Draws) : Action := do
  let i ← Handler.ofExcept (requestEnv.getAttr "i")
  let c ← Handler.ofExcept (requestEnv.getDefault "c" (.int 0))
  let t ← Handler.ofExcept (requestEnv.getAttr "t")
  publish topic (buildEnvelope c (.obj []) (replyIndex i) t (some 0) draws) draws

/-- Ask for a full dump: a request with an empty body. -/
def requestDump (deviceId : String) (draws : Draws) : Action :=
  publish (topicRpcRequest deviceId)
    (buildEnvelope (.int cmdDevRpc) (.obj []) (.int iRpcDump) .null none draws) draws

/-! ## Entry points -/

/-- Route an envelope by its topic suffix or its command code, in this order. -/
def dispatch (deviceId suffix : String) (env : Json) (draws : Draws) : Action := do
  let c ← Handler.ofExcept (env.getAttr "c")
  let token ← Handler.ofExcept (env.getAttr "t")
  let b ← Handler.ofExcept (env.getAttr "b")
  let body := if b.truthy then b else .obj []
  if suffix = pubEventPropPost ∨ c.eqInt cmdDevPropPost then
    ingestTelemetry body
    ack (topicPropPostReply deviceId) env draws
  else if suffix = pubEventEventPost ∨ c.eqInt cmdDevEventPost then
    let ol ← Handler.ofExcept (body.getDefault "ol" (.int 1))
    Handler.emit (.setState "online" (.bool ol.truthy))
    let ts ← Handler.ofExcept (body.getAttr "ts")
    Handler.emit (.setState "last_event" ts)
    ack (topicEventPostReply deviceId) env draws
    Handler.emit (.callSoon .notify)
  else if suffix = pubEventDtuPropPost ∨ c.eqInt cmdDtuPropPost then
    ingestIdentity body
  else if suffix = pubServiceRpcReply ∨ c.eqInt cmdDevRpc then
    handleRpcReply token body
  else pure ⟨⟩

/-- The topic without the device's prefix, if it has it. -/
def topicSuffix (deviceId topic : String) : String :=
  if (pubPrefix deviceId).toList <+: topic.toList then
    String.ofList (topic.toList.drop (pubPrefix deviceId).toList.length)
  else topic

/-- An inbound message: its topic, what `json.loads` does with its payload, and
the random values drawn while it is handled. -/
structure Message where
  topic : String
  loaded : Except PyError Json
  draws : Draws

/-- The handling of an envelope inside the callback's catch-all. -/
def Message.handling (deviceId : String) (m : Message) (env : Json) : Action :=
  dispatch deviceId (topicSuffix deviceId m.topic) env m.draws

/-- Handle a message: what is no envelope is ignored, and an exception while
dispatching is logged.  Parsing is outside the catch-all. -/
def onMessage (deviceId : String) (m : Message) : Action := do
  match ← Handler.ofExcept (parseEnvelope m.loaded) with
  | some env => (m.handling deviceId env).attempt
  | none => pure ⟨⟩

/-- Subscribe and ask for a dump after a good handshake; report a refused one. -/
def onConnect (deviceId : String) (rc : ℤ) (draws : Draws) : Action := do
  if rc = 0 then
    Handler.emit (.setConnected true)
    Handler.emit (.subscribe (topicPubWildcard deviceId))
    Handler.emit (.callSoon (.resolveConnect false))
    requestDump deviceId draws
  else Handler.emit (.callSoon (.resolveConnect true))

/-- Mark the connection and the device offline, then notify. -/
def onDisconnect : Action := do
  Handler.emit (.setConnected false)
  Handler.emit (.setState "online" (.bool false))
  Handler.emit (.callSoon .notify)

/-! ## Encoding -/

theorem publish_of_writable {env : Json} {draws : Draws}
    (h : writable draws.encoder.limit env = true) (topic : String) :
    publish topic env draws = Handler.emit (.publish topic env) := by
  obtain ⟨text, htext⟩ := exists_dumps h draws.encoder.repr
  rw [publish, Draws.encode, encodeEnvelope, htext]
  rfl

/-- An envelope that cannot be encoded is not published. -/
theorem publish_of_not_writable {env : Json} {draws : Draws}
    (h : writable draws.encoder.limit env = false) (topic : String) :
    ∃ e, publish topic env draws = Handler.raise e := by
  have hok := isOk_dumps draws.encoder.repr draws.encoder.limit env
  rw [h] at hok
  rw [publish, Draws.encode, encodeEnvelope]
  cases hdumps : dumps draws.encoder.repr draws.encoder.limit env with
  | ok text =>
      rw [hdumps] at hok
      cases hok
  | error e => exact ⟨e, rfl⟩

/-- A request for a dump can always be encoded. -/
theorem requestDump_eq (deviceId : String) (draws : Draws) :
    requestDump deviceId draws = Handler.emit (.publish (topicRpcRequest deviceId)
      (buildEnvelope (.int cmdDevRpc) (.obj []) (.int iRpcDump) .null none draws)) := by
  apply publish_of_writable
  obtain ⟨limit, hlimit⟩ : ∃ n, draws.encoder.limit = n + 2 :=
    ⟨draws.encoder.limit - 2, by have := draws.encoder.deep; omega⟩
  rw [hlimit]
  rfl

/-! ## What the callbacks perform -/

theorem effects_onConnect (deviceId : String) (rc : ℤ) (draws : Draws) :
    (onConnect deviceId rc draws).effects =
      if rc = 0 then
        [.setConnected true, .subscribe (topicPubWildcard deviceId),
          .callSoon (.resolveConnect false),
          .publish (topicRpcRequest deviceId)
            (buildEnvelope (.int cmdDevRpc) (.obj []) (.int iRpcDump) .null none draws)]
      else [.callSoon (.resolveConnect true)] := by
  rw [onConnect, requestDump_eq]
  split <;> rfl

theorem effects_onDisconnect :
    onDisconnect.effects =
      [.setConnected false, .setState "online" (.bool false), .callSoon .notify] := rfl

theorem topicSuffix_pubPrefix (deviceId suffix : String) :
    topicSuffix deviceId (pubPrefix deviceId ++ suffix) = suffix := by
  rw [topicSuffix, String.toList_append, if_pos (List.prefix_append _ _), List.drop_left,
    String.ofList_toList]

/-- A message with an envelope performs what its dispatch does. -/
theorem effects_onMessage_obj (deviceId topic : String) (fields : List (String × Json))
    (draws : Draws) :
    (onMessage deviceId ⟨topic, .ok (.obj fields), draws⟩).effects =
      (dispatch deviceId (topicSuffix deviceId topic) (.obj fields) draws).effects := by
  have hparse : parseEnvelope (.ok (.obj fields)) = .ok (some (.obj fields)) := rfl
  rw [onMessage, hparse, Handler.ofExcept_ok_bind]
  rfl

/-- The effects of a push that brought values. -/
def telemetryEffects (values : Dict String Json) (ts : Json) : List Effect :=
  updateState (deriveBinaryState values) ++ [.setState "online" (.bool true)] ++
    (if ts.truthy then [.setState "last_telemetry" ts] else []) ++ [.callSoon .notify]

/-- What the ingestion of a list of channels comes to. -/
def ingestEntries (entries : List Json) (ts : Json) : Action :=
  match decodeCt entries with
  | .error e => Handler.raise e
  | .ok decoded =>
      if decoded.1.isEmpty then pure ⟨⟩ else Handler.emits (telemetryEffects decoded.1 ts)

theorem ingestTelemetry_of_arr {body ts : Json} {entries : List Json}
    (hct : body.getAttr "ct" = .ok (.arr entries)) (hts : body.getAttr "ts" = .ok ts) :
    ingestTelemetry body = ingestEntries entries ts := by
  rw [ingestTelemetry, ingestEntries, hct, hts, Handler.ofExcept_ok_bind]
  cases hdecoded : decodeCt entries with
  | error e => simp only [hdecoded, Handler.ofExcept_error_bind]
  | ok decoded =>
      simp only [hdecoded, Handler.ofExcept_ok_bind]
      cases hempty : decoded.1.isEmpty with
      | true => rfl
      | false => cases htruthy : ts.truthy <;> simp [htruthy, telemetryEffects]

theorem ingestTelemetry_of_not_arr {body ct : Json} (hct : body.getAttr "ct" = .ok ct)
    (h : ∀ entries, ct ≠ .arr entries) : ingestTelemetry body = pure ⟨⟩ := by
  rw [ingestTelemetry, hct]
  cases ct with
  | arr entries => exact absurd rfl (h entries)
  | null | bool | int | float | str | obj => rfl

theorem ingestTelemetry_of_not_isObj {body : Json} (h : body.isObj = false) :
    ingestTelemetry body = Handler.raise .attributeError := by
  rw [ingestTelemetry, Json.getAttr_of_not_isObj h]
  rfl

/-- Everything ingestion can do: raise at once, do nothing, or take values over. -/
theorem ingestTelemetry_cases (body : Json) :
    (∃ e, ingestTelemetry body = Handler.raise e) ∨ ingestTelemetry body = pure ⟨⟩ ∨
      ∃ values ts, ingestTelemetry body = Handler.emits (telemetryEffects values ts) := by
  cases body with
  | obj fields =>
      cases hct : (fields.lookup "ct").getD .null with
      | arr entries =>
          rw [ingestTelemetry_of_arr (by rw [Json.getAttr_obj, hct]) (Json.getAttr_obj _ _),
            ingestEntries]
          split
          · exact .inl ⟨_, rfl⟩
          · split
            · exact .inr (.inl rfl)
            · exact .inr (.inr ⟨_, _, rfl⟩)
      | null | bool | int | float | str | obj =>
          exact .inr (.inl (ingestTelemetry_of_not_arr (Json.getAttr_obj _ _) (by simp [hct])))
  | null | bool | int | float | str | arr => exact .inl ⟨_, ingestTelemetry_of_not_isObj rfl⟩

/-- Ingestion writes to the state and notifies, and does nothing else. -/
theorem filterMap_ingestTelemetry {β : Type} {p : Effect → Option β}
    (hstate : ∀ key value, p (.setState key value) = none)
    (hnotify : p (.callSoon .notify) = none) (body : Json) :
    (ingestTelemetry body).effects.filterMap p = [] := by
  rcases ingestTelemetry_cases body with ⟨e, hraise⟩ | hnothing | ⟨values, ts, hvalues⟩
  · rw [hraise]
    rfl
  · rw [hnothing]
    rfl
  · rw [hvalues, Handler.emits_eq, List.filterMap_eq_nil_iff]
    intro effect heffect
    simp only [telemetryEffects, updateState, List.mem_append, List.mem_map, List.mem_singleton]
      at heffect
    rcases heffect with ((⟨kv, -, rfl⟩ | rfl) | hts) | rfl
    · exact hstate _ _
    · exact hstate _ _
    · split at hts
      · rw [List.mem_singleton.mp hts]
        exact hstate _ _
      · cases hts
    · exact hnotify

/-- The acknowledgement of an envelope. -/
def ackEnvelope (fields : List (String × Json)) (draws : Draws) : Json :=
  buildEnvelope ((fields.lookup "c").getD (.int 0)) (.obj [])
    (replyIndex ((fields.lookup "i").getD .null)) ((fields.lookup "t").getD .null) (some 0) draws

/-- The acknowledgement of an envelope can be encoded: what it takes over from the
envelope, and the next index, can be written inside a dictionary. -/
def ackWritable (fields : List (String × Json)) (encoder : Encoder) : Bool :=
  writable (encoder.limit - 1) ((fields.lookup "c").getD (.int 0)) &&
    writable (encoder.limit - 1) ((fields.lookup "t").getD .null) &&
    writable (encoder.limit - 1) (replyIndex ((fields.lookup "i").getD .null))

theorem writable_ackEnvelope (fields : List (String × Json)) (draws : Draws) :
    writable draws.encoder.limit (ackEnvelope fields draws) =
      ackWritable fields draws.encoder := by
  obtain ⟨limit, hlimit⟩ : ∃ n, draws.encoder.limit = n + 2 :=
    ⟨draws.encoder.limit - 2, by have := draws.encoder.deep; omega⟩
  -- a falsy token is replaced by the drawn one, and both can be written
  have htoken : writable (limit + 1) (if ((fields.lookup "t").getD .null).truthy then
      (fields.lookup "t").getD .null else .str draws.token) =
        writable (limit + 1) ((fields.lookup "t").getD .null) := by
    cases htruthy : ((fields.lookup "t").getD .null).truthy with
    | true => rfl
    | false =>
        rw [writable_of_not_truthy htruthy limit]
        rfl
  rw [ackWritable, hlimit, ackEnvelope, buildEnvelope, writable]
  simp [htoken, writable, Bool.and_assoc]

theorem ack_obj (topic : String) (fields : List (String × Json)) (draws : Draws) :
    ack topic (.obj fields) draws = publish topic (ackEnvelope fields draws) draws := rfl

theorem ack_of_writable {fields : List (String × Json)} {draws : Draws}
    (h : ackWritable fields draws.encoder = true) (topic : String) :
    ack topic (.obj fields) draws =
      Handler.emit (.publish topic (ackEnvelope fields draws)) := by
  rw [ack_obj]
  exact publish_of_writable ((writable_ackEnvelope fields draws).trans h) topic

theorem ack_of_not_writable {fields : List (String × Json)} {draws : Draws}
    (h : ackWritable fields draws.encoder = false) (topic : String) :
    ∃ e, ack topic (.obj fields) draws = Handler.raise e := by
  rw [ack_obj]
  exact publish_of_not_writable ((writable_ackEnvelope fields draws).trans h) topic

/-- The body of an envelope; a missing or falsy one counts as empty. -/
def bodyOf (fields : List (String × Json)) : Json :=
  if ((fields.lookup "b").getD .null).truthy then (fields.lookup "b").getD .null else .obj []

/-- The branches of `dispatch`. -/
inductive Route where
  | propPost
  | eventPost
  | dtuPropPost
  | rpcReply
  | unhandled
  deriving DecidableEq

/-- The branch a topic suffix and a command code lead to. -/
def routeOf (suffix : String) (c : Json) : Route :=
  if suffix = pubEventPropPost ∨ c.eqInt cmdDevPropPost then .propPost
  else if suffix = pubEventEventPost ∨ c.eqInt cmdDevEventPost then .eventPost
  else if suffix = pubEventDtuPropPost ∨ c.eqInt cmdDtuPropPost then .dtuPropPost
  else if suffix = pubServiceRpcReply ∨ c.eqInt cmdDevRpc then .rpcReply
  else .unhandled

/-- The routes whose messages are acknowledged. -/
def ackedRoutes : List Route := [.propPost, .eventPost]

/-- The acknowledgement of an envelope can be encoded if it takes this route. -/
def encodesOn (route : Route) (suffix : String) (env : Json) (draws : Draws) : Bool :=
  match env with
  | .obj fields =>
      routeOf suffix ((fields.lookup "c").getD .null) != route || ackWritable fields draws.encoder
  | _ => true

/-- The acknowledgement of a message can be encoded if it takes this route. -/
def Message.encodesOn (deviceId : String) (route : Route) (m : Message) : Bool :=
  match parseEnvelope m.loaded with
  | .ok (some env) => SotRwb1.encodesOn route (topicSuffix deviceId m.topic) env m.draws
  | _ => true

theorem ackWritable_of_encodesOn {route : Route} {suffix : String}
    {fields : List (String × Json)} {draws : Draws}
    (h : encodesOn route suffix (.obj fields) draws = true)
    (hroute : routeOf suffix ((fields.lookup "c").getD .null) = route) :
    ackWritable fields draws.encoder = true := by
  rw [encodesOn, hroute, bne_self_eq_false, Bool.false_or] at h
  exact h

/-- The branch for event posts: the flag and the time stamp are written before the
acknowledgement is encoded. -/
def handleEventPost (deviceId : String) (body : Json) (fields : List (String × Json))
    (draws : Draws) : Action :=
  match body with
  | .obj bodyFields => do
      Handler.emits
        [.setState "online" (.bool ((bodyFields.lookup "ol").getD (.int 1)).truthy),
          .setState "last_event" ((bodyFields.lookup "ts").getD .null)]
      ack (topicEventPostReply deviceId) (.obj fields) draws
      Handler.emit (.callSoon .notify)
  | _ => Handler.raise .attributeError

theorem dispatch_obj (deviceId suffix : String) (fields : List (String × Json)) (draws : Draws) :
    dispatch deviceId suffix (.obj fields) draws =
      match routeOf suffix ((fields.lookup "c").getD .null) with
      | .propPost => do
          ingestTelemetry (bodyOf fields)
          ack (topicPropPostReply deviceId) (.obj fields) draws
      | .eventPost => handleEventPost deviceId (bodyOf fields) fields draws
      | .dtuPropPost => ingestIdentity (bodyOf fields)
      | .rpcReply => handleRpcReply ((fields.lookup "t").getD .null) (bodyOf fields)
      | .unhandled => pure ⟨⟩ := by
  rw [dispatch, routeOf]
  simp only [Json.getAttr_obj, Handler.ofExcept_ok_bind]
  split
  · rfl
  split
  · rw [handleEventPost.eq_def, ← bodyOf]
    cases bodyOf fields <;> rfl
  split
  · rfl
  split
  · rfl
  · rfl

/-- The effects of an event post whose acknowledgement is published. -/
def eventEffects (deviceId : String) (bodyFields fields : List (String × Json)) (draws : Draws) :
    List Effect :=
  [.setState "online" (.bool ((bodyFields.lookup "ol").getD (.int 1)).truthy),
    .setState "last_event" ((bodyFields.lookup "ts").getD .null),
    .publish (topicEventPostReply deviceId) (ackEnvelope fields draws), .callSoon .notify]

theorem handleEventPost_of_writable {fields : List (String × Json)} {draws : Draws}
    (h : ackWritable fields draws.encoder = true) (deviceId : String)
    (bodyFields : List (String × Json)) :
    handleEventPost deviceId (.obj bodyFields) fields draws =
      Handler.emits (eventEffects deviceId bodyFields fields draws) := by
  rw [handleEventPost, ack_of_writable h]
  rfl

/-- If the acknowledgement cannot be encoded, an event post raises between its writes
and its notification. -/
theorem handleEventPost_of_not_writable {fields : List (String × Json)} {draws : Draws}
    (h : ackWritable fields draws.encoder = false) (deviceId : String)
    (bodyFields : List (String × Json)) :
    ∃ e, handleEventPost deviceId (.obj bodyFields) fields draws =
      ⟨(eventEffects deviceId bodyFields fields draws).take 2, .error e⟩ := by
  obtain ⟨e, he⟩ := ack_of_not_writable h (topicEventPostReply deviceId)
  rw [handleEventPost, he]
  exact ⟨e, rfl⟩

end SotRwb1
