import SotRwb1.Bridge.Ingest
import SotRwb1.Protocol.Measured
import SotRwb1.System.World

/-!
# The device store

What `bridge.state` can hold, over any sequence of network callbacks.  Every write
is proper: a known key with a value of its kind.  The value of a telemetry key is
that of the last ingested frame that has one, so it never disappears, only a frame
of its own block changes it, and the switch reading is that of the last PV frame.

## Main definitions

* `Bridge.handle`, `Bridge.after` — callbacks run to their end.
* `ProperBinding`, `Shape` — the shape of the store.
* `Message.routed`, `NetworkCallback.frames` — what a callback brings.
* `frameValue`, `lastValue`, `latestPv` — what the frames say.
-/

namespace SotRwb1

open PyLib

/-- Run a network callback to its end. -/
def Bridge.handle (deviceId : String) (b : Bridge) (cb : NetworkCallback) : Bridge :=
  (cb.action deviceId).effects.foldl Bridge.perform b

/-- The bridge after a sequence of network callbacks. -/
def Bridge.after (deviceId : String) (events : List NetworkCallback) : Bridge :=
  events.foldl (Bridge.handle deviceId) .init

/-! ## Frames -/

/-- The text of an entry, if its `co` decodes. -/
def entryText (entry : Json) : Option (List Char) :=
  if (entryCo entry).truthy then (decodeCo (entryCo entry)).toOption else none

/-- The value of the last text that has one. -/
def lastValue (k : String) (texts : List (List Char)) : Option Json :=
  texts.reverse.findSome? (frameValue k)

/-- The last PV frame. -/
def latestPv (texts : List (List Char)) : Option (List Char) :=
  texts.reverse.find? fun text => claimant (splitFrame text) = some .pv

theorem lastValue_cons (k : String) (text : List Char) (texts : List (List Char)) :
    lastValue k (text :: texts) = (lastValue k texts).or (frameValue k text) := by
  rw [lastValue, List.reverse_cons, List.findSome?_append]
  cases hvalue : frameValue k text <;> simp [lastValue, hvalue]

theorem lastValue_append (k : String) (texts texts' : List (List Char)) :
    lastValue k (texts ++ texts') = (lastValue k texts').or (lastValue k texts) := by
  rw [lastValue, List.reverse_append, List.findSome?_append]
  rfl

theorem exists_of_lastValue {k : String} {v : Json} {texts : List (List Char)}
    (h : lastValue k texts = some v) : ∃ text ∈ texts, frameValue k text = some v := by
  obtain ⟨text, htext, hvalue⟩ := List.exists_of_findSome?_eq_some h
  exact ⟨text, List.mem_reverse.mp htext, hvalue⟩

theorem value_entryReading (k : String) (entry : Json) :
    (entryReading entry).value k = (entryText entry).bind (frameValue k) := by
  rw [entryReading, readCo, entryText]
  split
  · cases hco : (decodeCo (entryCo entry)).toOption with
    | none => rfl
    | some text =>
        simp only [Option.bind_some, frameValue]
        cases hframe : decodeFrame text with
        | none => rfl
        | some values =>
            cases hempty : values.isEmpty with
            | false => simp [Reading.value, hempty]
            | true =>
                have hnone := (Dict.isEmpty_iff values).mp hempty k
                simp [Reading.value, hempty, hnone]
  · rfl

theorem valueIn_entryReading (k : String) (entries : List Json) :
    valueIn k (entries.map entryReading) = lastValue k (entries.filterMap entryText) := by
  induction entries with
  | nil => rfl
  | cons entry rest ih =>
      rw [List.map_cons, valueIn, ih, value_entryReading]
      cases htext : entryText entry with
      | none => rw [List.filterMap_cons_none htext, Option.bind_none, Option.or_none]
      | some text => rw [List.filterMap_cons_some htext, lastValue_cons, Option.bind_some]

/-! ## Bodies -/

/-- The texts of the frames a body brings; one entry that is no dictionary spoils
them all. -/
def bodyFrames (body : Json) : List (List Char) :=
  match body.getAttr "ct" with
  | .ok (.arr entries) => if entries.all Json.isObj then entries.filterMap entryText else []
  | _ => []

/-- The values a body brings, if it brings any. -/
def decodedValues (body : Json) : Option (Dict String Json) :=
  match body.getAttr "ct" with
  | .ok (.arr entries) =>
      match decodeCt entries with
      | .ok decoded => if decoded.1.isEmpty then none else some decoded.1
      | .error _ => none
  | _ => none

/-- The time stamp of a body. -/
def bodyStamp (body : Json) : Json := (body.getAttr "ts").toOption.getD .null

/-- Ingestion takes over the values a body brings and does nothing without. -/
theorem effects_ingestTelemetry (body : Json) :
    (ingestTelemetry body).effects =
      match decodedValues body with
      | some values => telemetryEffects values (bodyStamp body)
      | none => [] := by
  cases body with
  | obj fields =>
      cases hct : (fields.lookup "ct").getD .null with
      | arr entries =>
          have hattr : (Json.obj fields).getAttr "ct" = .ok (.arr entries) := by
            rw [Json.getAttr_obj, hct]
          rw [ingestTelemetry_of_arr hattr (Json.getAttr_obj _ _), ingestEntries, decodedValues,
            hattr]
          cases hdecoded : decodeCt entries with
          | error e => simp only [hdecoded, Handler.raise_eq]
          | ok decoded =>
              cases hempty : decoded.1.isEmpty <;>
                simp [hdecoded, hempty, bodyStamp, Except.toOption]
      | null | bool | int | float | str | obj =>
          rw [ingestTelemetry_of_not_arr (Json.getAttr_obj _ _) (by simp [hct]), decodedValues,
            Json.getAttr_obj, hct]
          rfl
  | null | bool | int | float | str | arr => rfl

/-- A value a body brings is that of its last frame with a value for the key. -/
theorem get_decodedValues (body : Json) (k : String) :
    (decodedValues body).bind (·.get k) = lastValue k (bodyFrames body) := by
  rw [decodedValues, bodyFrames]
  split
  · rename_i entries _
    cases hall : entries.all Json.isObj with
    | true =>
        have hobj : ∀ e ∈ entries, e.isObj = true := List.all_eq_true.mp hall
        have hget : ((entries.map entryReading).foldl Reading.apply (.empty, [])).1.get k =
            lastValue k (entries.filterMap entryText) := by
          rw [get_foldl_apply, Dict.get_empty, Option.or_none, valueIn_entryReading]
        rw [decodeCt_of_isObj hobj, if_pos rfl, ← hget]
        dsimp only
        split
        · rename_i hempty
          rw [Option.bind_none, (Dict.isEmpty_iff _).mp hempty]
        · rfl
    | false =>
        obtain ⟨e, he, hbad⟩ := List.all_eq_false.mp hall
        obtain ⟨err, herr⟩ := decodeCt_of_not_isObj ⟨e, he, by simpa using hbad⟩
        rw [herr]
        rfl
  · rfl

/-- Ingestion overlays the last values of the frames on the telemetry keys. -/
theorem get_ingest_telemetry {k : String} (hk : k ≠ "online") (hk' : k ≠ "last_telemetry")
    (b : Bridge) (body : Json) :
    (ingest b body).state.get k =
      ((lastValue k (bodyFrames body)).map (normalise k)).or (b.state.get k) := by
  rw [ingest, effects_ingestTelemetry, ← get_decodedValues]
  cases decodedValues body with
  | none => rfl
  | some values =>
      simp only [get_perform_telemetryEffects, hk, hk', false_and, if_false, Option.bind_some]

/-! ## Messages -/

/-- The branch a message takes, and the body it takes there. -/
def Message.routed (deviceId : String) (m : Message) : Option (Route × Json) :=
  match parseEnvelope m.loaded with
  | .ok (some (.obj fields)) =>
      some (routeOf (topicSuffix deviceId m.topic) ((fields.lookup "c").getD .null), bodyOf fields)
  | _ => none

/-- Effects that only publish, on topics of the device, or schedule.  They leave the
state and the connection flag. -/
def Effect.IsOutward (deviceId : String) : Effect → Prop
  | .setConnected _ => False
  | .setState _ _ => False
  | .publish topic _ => topic ∈ publishTopics deviceId
  | _ => True

/-- The writes of a message to the state. -/
def Message.writes (deviceId : String) (m : Message) : List Effect :=
  match m.routed deviceId with
  | some (.propPost, body) => (ingestTelemetry body).effects
  | some (.rpcReply, body) => (ingestTelemetry body).effects
  | some (.eventPost, .obj fields) =>
      [.setState "online" (.bool ((fields.lookup "ol").getD (.int 1)).truthy),
        .setState "last_event" ((fields.lookup "ts").getD .null)]
  | some (.dtuPropPost, .obj fields) =>
      [.setState "identity" (.obj [("model", (fields.lookup "md").getD .null),
        ("firmware", (fields.lookup "sv").getD .null), ("mac", (fields.lookup "mc").getD .null),
        ("ip", (fields.lookup "ip").getD .null)])]
  | _ => []

/-- An action followed by one that only goes outward. -/
theorem effects_bind_outward {deviceId : String} (m : Action) {next : Action}
    (h : ∀ e ∈ next.effects, e.IsOutward deviceId) :
    ∃ outward : List Effect, (∀ o ∈ outward, o.IsOutward deviceId) ∧
      (m >>= fun _ => next).effects = m.effects ++ outward := by
  rw [Handler.effects_bind]
  cases m.result with
  | ok u => exact ⟨next.effects, h, rfl⟩
  | error err => exact ⟨[], by simp, rfl⟩

/-- Acknowledging goes outward, whether it can be encoded or not. -/
theorem isOutward_ack {deviceId topic : String} (htopic : topic ∈ publishTopics deviceId)
    (fields : List (String × Json)) (draws : Draws) :
    ∀ e ∈ (ack topic (.obj fields) draws).effects, e.IsOutward deviceId := by
  cases hack : ackWritable fields draws.encoder with
  | true =>
      rw [ack_of_writable hack]
      simpa [Effect.IsOutward] using htopic
  | false =>
      obtain ⟨err, herr⟩ := ack_of_not_writable hack topic
      rw [herr]
      simp

/-- An event post writes its flag and its time stamp, and then goes outward. -/
theorem effects_handleEventPost (deviceId : String) (bodyFields fields : List (String × Json))
    (draws : Draws) :
    ∃ outward : List Effect, (∀ o ∈ outward, o.IsOutward deviceId) ∧
      (handleEventPost deviceId (.obj bodyFields) fields draws).effects =
        [.setState "online" (.bool ((bodyFields.lookup "ol").getD (.int 1)).truthy),
          .setState "last_event" ((bodyFields.lookup "ts").getD .null)] ++ outward := by
  cases hack : ackWritable fields draws.encoder with
  | true =>
      rw [handleEventPost_of_writable hack]
      exact ⟨_, by simp [Effect.IsOutward, publishTopics], rfl⟩
  | false =>
      obtain ⟨err, herr⟩ := handleEventPost_of_not_writable hack deviceId bodyFields
      rw [herr]
      exact ⟨[], by simp, rfl⟩

/-- A reply without channels does to the state what ingesting it would: nothing. -/
theorem effects_handleRpcReply (deviceId : String) (token body : Json) :
    ∃ outward : List Effect, (∀ o ∈ outward, o.IsOutward deviceId) ∧
      (handleRpcReply token body).effects = (ingestTelemetry body).effects ++ outward := by
  cases body with
  | obj fields =>
      rw [handleRpcReply, Json.getAttr_obj, Handler.ofExcept_ok_bind]
      split
      · exact effects_bind_outward _ (by simp [Effect.IsOutward])
      · rename_i _ heq hct
        have hnothing : ingestTelemetry (.obj fields) = pure ⟨⟩ :=
          ingestTelemetry_of_not_arr (Json.getAttr_obj _ _) hct
        cases heq
        rw [hnothing]
        split
        · exact ⟨_, by simp [Effect.IsOutward], rfl⟩
        · exact ⟨[], by simp, rfl⟩
      · rename_i hobj
        exact absurd rfl (hobj fields)
  | null | bool | int | float | str | arr => exact ⟨[], by simp, rfl⟩

/-- A message performs its writes and then goes outward. -/
theorem effects_onMessage (deviceId : String) (m : Message) :
    ∃ outward : List Effect, (∀ o ∈ outward, o.IsOutward deviceId) ∧
      (onMessage deviceId m).effects = m.writes deviceId ++ outward := by
  rw [onMessage, Message.writes, Message.routed]
  cases parseEnvelope m.loaded with
  | error e => exact ⟨[], by simp, rfl⟩
  | ok parsed =>
      rw [Handler.ofExcept_ok_bind]
      cases parsed with
      | none => exact ⟨[], by simp, rfl⟩
      | some env =>
          cases env with
          | obj fields =>
              simp only [Message.handling, dispatch_obj, Handler.attempt]
              cases routeOf (topicSuffix deviceId m.topic) ((fields.lookup "c").getD .null) with
              | propPost =>
                  exact effects_bind_outward _ (isOutward_ack List.mem_cons_self fields m.draws)
              | rpcReply => exact effects_handleRpcReply deviceId _ _
              | unhandled => exact ⟨[], by simp, rfl⟩
              | eventPost =>
                  cases bodyOf fields with
                  | obj bodyFields =>
                      exact effects_handleEventPost deviceId bodyFields fields m.draws
                  | null | bool | int | float | str | arr => exact ⟨[], by simp, rfl⟩
              | dtuPropPost =>
                  cases bodyOf fields with
                  | obj bodyFields => exact ⟨_, by simp [Effect.IsOutward], rfl⟩
                  | null | bool | int | float | str | arr => exact ⟨[], by simp, rfl⟩
          | null | bool | int | float | str | arr => exact ⟨[], by simp, rfl⟩

/-! ## Shape -/

/-- The keys of the store that are neither telemetry nor the online flag. -/
def metadataKeys : List String := ["last_event", "last_telemetry", "identity"]

/-- The key is known, and the value is of its kind. -/
structure ProperBinding (k : String) (v : Json) : Prop where
  known : k = "online" ∨ k ∈ metadataKeys ∨ k ∈ sensorDefinitions ∨ k ∈ binarySensorDefinitions
  online : k = "online" → ∃ up, v = .bool up
  number : k ∈ sensorDefinitions → IsNumber v
  switch : k = "solar_charging_switch" → ∃ on, v = .bool on

/-- The shape of the store: the online flag is there, and every binding is proper. -/
structure Shape (state : Dict String Json) : Prop where
  present : (state.get "online").isSome
  proper : ∀ k v, state.get k = some v → ProperBinding k v

/-- An effect that writes proper bindings only. -/
def Effect.IsProper : Effect → Prop
  | .setState k v => ProperBinding k v
  | _ => True

theorem Effect.IsOutward.isProper {deviceId : String} {e : Effect} (h : e.IsOutward deviceId) :
    e.IsProper := by
  cases e with
  | setState k v => exact h.elim
  | setConnected | subscribe | publish | callSoon => trivial

theorem properBinding_online (up : Bool) : ProperBinding "online" (.bool up) :=
  ⟨.inl rfl, fun _ => ⟨up, rfl⟩, fun h => absurd h (by decide), fun h => absurd h (by decide)⟩

theorem shape_init : Shape Bridge.init.state := by
  have hget : ∀ k, Bridge.init.state.get k = if k = "online" then some (.bool false) else none := by
    intro k
    simp [Bridge.init, Dict.ofList, Dict.get_set]
  refine ⟨by rw [hget]; rfl, ?_⟩
  intro k v hv
  rw [hget] at hv
  split at hv
  · rename_i hk
    cases hv
    subst hk
    exact properBinding_online false
  · cases hv

theorem Shape.perform {b : Bridge} (h : Shape b.state) {e : Effect} (he : e.IsProper) :
    Shape (b.perform e).state := by
  cases e with
  | setState key value =>
      refine ⟨?_, ?_⟩
      · simp only [Bridge.perform, Dict.get_set]
        split
        · rfl
        · exact h.present
      · intro k v hv
        simp only [Bridge.perform, Dict.get_set] at hv
        split at hv
        · rename_i hk
          cases hv
          rwa [hk]
        · exact h.proper k v hv
  | setConnected | subscribe | publish | callSoon => exact h

theorem Shape.foldl_perform {b : Bridge} (h : Shape b.state) {effects : List Effect}
    (heffects : ∀ e ∈ effects, e.IsProper) : Shape (effects.foldl Bridge.perform b).state := by
  induction effects generalizing b with
  | nil => exact h
  | cons e rest ih =>
      exact ih (h.perform (heffects e (by simp))) fun e' he' => heffects e' (by simp [he'])

/-! ## Every write is proper -/

/-- A converted numeral, or nothing. -/
def IsConversion (c : Option Json) : Prop := ∀ v, c = some v → IsNumber v

theorem isConversion_toFloat (s : Field) : IsConversion (toFloat s) := by
  intro v hv
  obtain ⟨x, -, rfl⟩ := Option.map_eq_some_iff.mp hv
  trivial

theorem isConversion_toInt (s : Field) : IsConversion (toInt s) := by
  intro v hv
  obtain ⟨n, -, rfl⟩ := Option.map_eq_some_iff.mp hv
  trivial

/-- A field is converted to a number under a sensor's key, or it is the sixth field
of a PV frame, which is kept as text. -/
theorem conversion_cases {b : Block} {f : List Field} {k : String} {c : Option Json}
    (h : (k, c) ∈ b.keys.zip (b.conversions f)) :
    (k ∈ sensorDefinitions ∧ IsConversion c) ∨
      b = .pv ∧ k = "solar_charging_switch" ∧ c = some (.str (String.ofList (f.getD 5 []))) := by
  have hall : ∀ e ∈ b.keys.zip (b.conversions f),
      (e.1 ∈ sensorDefinitions ∧ IsConversion e.2) ∨
        b = .pv ∧ e.1 = "solar_charging_switch" ∧
          e.2 = some (.str (String.ofList (f.getD 5 []))) := by
    cases b <;>
      simp [Block.keys, Block.conversions, sensorDefinitions, isConversion_toFloat,
        isConversion_toInt]
  exact hall _ h

theorem isSensor_ne {k : String} (h : k ∈ sensorDefinitions) :
    k ≠ "online" ∧ k ∉ metadataKeys ∧ k ≠ "solar_charging_switch" := by
  have hall : sensorDefinitions.all (fun k => k != "online" && !metadataKeys.contains k &&
      k != "solar_charging_switch") = true := by decide +kernel
  simpa [and_assoc] using List.all_eq_true.mp hall k h

/-- The normalised value of a frame is a proper binding. -/
theorem properBinding_normalise {k : String} {v : Json} {text : List Char}
    (h : frameValue k text = some v) : ProperBinding k (normalise k v) := by
  obtain ⟨b, -, hmem⟩ := frameValue_eq_some_iff.mp h
  rcases conversion_cases hmem with ⟨hsensor, hnumber⟩ | ⟨-, rfl, -⟩
  · obtain ⟨honline, -, hswitch⟩ := isSensor_ne hsensor
    rw [normalise, if_neg hswitch]
    exact ⟨.inr (.inr (.inl hsensor)), fun h => absurd h honline, fun _ => hnumber v rfl,
      fun h => absurd h hswitch⟩
  · rw [normalise, if_pos rfl]
    exact ⟨.inr (.inr (.inr (by simp [binarySensorDefinitions]))), fun h => absurd h (by decide),
      fun h => absurd h (by decide), fun _ => ⟨_, rfl⟩⟩

/-- A metadata key takes any value. -/
theorem properBinding_metadata {k : String} (hk : k ∈ metadataKeys) (v : Json) :
    ProperBinding k v := by
  refine ⟨.inr (.inl hk), ?_, ?_, ?_⟩
  · rintro rfl
    exact absurd hk (by decide)
  · intro hsensor
    exact absurd hk (isSensor_ne hsensor).2.1
  · rintro rfl
    exact absurd hk (by decide)

theorem isProper_telemetryEffects {values : Dict String Json}
    (h : ∀ k v, values.get k = some v → ProperBinding k (normalise k v)) (ts : Json) :
    ∀ e ∈ telemetryEffects values ts, e.IsProper := by
  have hupdate : ∀ e ∈ updateState (deriveBinaryState values), e.IsProper := by
    intro e he
    obtain ⟨⟨k, v⟩, hkv, rfl⟩ := List.mem_map.mp he
    have hget := (Dict.get_eq_some_iff _ k v).mpr hkv
    rw [get_deriveBinaryState] at hget
    obtain ⟨raw, hraw, rfl⟩ := Option.map_eq_some_iff.mp hget
    exact h k raw hraw
  intro e he
  simp only [telemetryEffects, List.mem_append, List.mem_singleton] at he
  rcases he with ((he | rfl) | he) | rfl
  · exact hupdate e he
  · exact properBinding_online true
  · split at he
    · cases List.mem_singleton.mp he
      exact properBinding_metadata (by decide) ts
    · cases he
  · trivial

theorem isProper_ingestTelemetry (body : Json) : ∀ e ∈ (ingestTelemetry body).effects, e.IsProper := by
  rw [effects_ingestTelemetry]
  cases hvalues : decodedValues body with
  | none => simp
  | some values =>
      apply isProper_telemetryEffects
      intro k v hv
      have hlast := get_decodedValues body k
      rw [hvalues, Option.bind_some, hv] at hlast
      obtain ⟨text, -, htext⟩ := exists_of_lastValue hlast.symm
      exact properBinding_normalise htext

theorem isProper_writes (deviceId : String) (m : Message) :
    ∀ e ∈ m.writes deviceId, e.IsProper := by
  rw [Message.writes]
  split
  · exact isProper_ingestTelemetry _
  · exact isProper_ingestTelemetry _
  · intro e he
    simp only [List.mem_cons, List.not_mem_nil, or_false] at he
    rcases he with rfl | rfl
    · exact properBinding_online _
    · exact properBinding_metadata (by decide) _
  · intro e he
    cases List.mem_singleton.mp he
    exact properBinding_metadata (by decide) _
  · simp

/-- Every effect of a network callback is proper. -/
theorem isProper_action (deviceId : String) (cb : NetworkCallback) :
    ∀ e ∈ (cb.action deviceId).effects, e.IsProper := by
  cases cb with
  | connect rc draws =>
      intro e he
      rw [NetworkCallback.action, effects_onConnect] at he
      split at he
      · simp only [List.mem_cons, List.not_mem_nil, or_false] at he
        rcases he with rfl | rfl | rfl | rfl <;> trivial
      · cases List.mem_singleton.mp he
        trivial
  | disconnect =>
      intro e he
      rw [NetworkCallback.action, effects_onDisconnect] at he
      simp only [List.mem_cons, List.not_mem_nil, or_false] at he
      rcases he with rfl | rfl | rfl
      · trivial
      · exact properBinding_online false
      · trivial
  | message m =>
      obtain ⟨outward, houtward, heffects⟩ := effects_onMessage deviceId m
      intro e he
      rw [NetworkCallback.action, heffects, List.mem_append] at he
      rcases he with he | he
      · exact isProper_writes deviceId m e he
      · exact (houtward e he).isProper

/-! ## Where the values come from -/

/-- The frames a message brings for ingestion. -/
def Message.frames (deviceId : String) (m : Message) : List (List Char) :=
  match m.routed deviceId with
  | some (.propPost, body) => bodyFrames body
  | some (.rpcReply, body) => bodyFrames body
  | _ => []

/-- The frames a network callback ingests. -/
def NetworkCallback.frames (deviceId : String) : NetworkCallback → List (List Char)
  | message m => m.frames deviceId
  | _ => []

/-- The frames ingested by a sequence of callbacks. -/
def ingestedFrames (deviceId : String) (events : List NetworkCallback) : List (List Char) :=
  events.flatMap (NetworkCallback.frames deviceId)

theorem foldl_perform_outward {deviceId : String} {effects : List Effect}
    (h : ∀ e ∈ effects, e.IsOutward deviceId) (b : Bridge) :
    (effects.foldl Bridge.perform b).state = b.state ∧
      (effects.foldl Bridge.perform b).connected = b.connected := by
  induction effects generalizing b with
  | nil => exact ⟨rfl, rfl⟩
  | cons e rest ih =>
      have hrest := ih (fun e' he' => h e' (by simp [he'])) (b.perform e)
      have he := h e (by simp)
      cases e with
      | setConnected | setState => exact he.elim
      | subscribe | publish | callSoon => exact hrest

/-- The state after a message is the state after its writes. -/
theorem state_handle_message (deviceId : String) (b : Bridge) (m : Message) :
    (b.handle deviceId (.message m)).state =
      ((m.writes deviceId).foldl Bridge.perform b).state := by
  obtain ⟨outward, houtward, heffects⟩ := effects_onMessage deviceId m
  rw [Bridge.handle, NetworkCallback.action, heffects, List.foldl_append]
  exact (foldl_perform_outward houtward _).1

/-- A handshake leaves the state alone, and sets the connection flag if it is good. -/
theorem handle_connect (deviceId : String) (b : Bridge) (rc : ℤ) (draws : Draws) :
    (b.handle deviceId (.connect rc draws)).connected = (b.connected || rc == 0) ∧
      (b.handle deviceId (.connect rc draws)).state = b.state := by
  rw [Bridge.handle, NetworkCallback.action, effects_onConnect]
  by_cases hrc : rc = 0
  · simp [hrc, Bridge.perform]
  · simp [hrc, Bridge.perform]

/-- A telemetry key is a sensor's or the switch's. -/
def IsTelemetryKey (k : String) : Prop := k ∈ sensorDefinitions ∨ k ∈ binarySensorDefinitions

theorem IsTelemetryKey.ne {k : String} (h : IsTelemetryKey k) :
    k ≠ "online" ∧ k ∉ metadataKeys := by
  rcases h with h | h
  · exact ⟨(isSensor_ne h).1, (isSensor_ne h).2.1⟩
  · cases List.mem_singleton.mp h
    decide

/-- A callback overlays the last values of its frames on the telemetry keys. -/
theorem get_handle {k : String} (hk : IsTelemetryKey k) (deviceId : String) (b : Bridge)
    (cb : NetworkCallback) :
    (b.handle deviceId cb).state.get k =
      ((lastValue k (cb.frames deviceId)).map (normalise k)).or (b.state.get k) := by
  obtain ⟨honline, hmetadata⟩ := hk.ne
  simp only [metadataKeys, List.mem_cons, List.not_mem_nil, or_false, not_or] at hmetadata
  cases cb with
  | connect rc draws =>
      rw [(handle_connect deviceId b rc draws).2]
      rfl
  | disconnect => exact Dict.get_set_of_ne _ _ honline
  | message m =>
      rw [state_handle_message, Message.writes, NetworkCallback.frames, Message.frames]
      cases m.routed deviceId with
      | none => rfl
      | some routed =>
          obtain ⟨route, body⟩ := routed
          cases route with
          | propPost | rpcReply => exact get_ingest_telemetry honline hmetadata.2.1 b body
          | unhandled => rfl
          | eventPost =>
              cases body with
              | obj fields => simp [Bridge.perform, Dict.get_set, honline, hmetadata.1, lastValue]
              | null | bool | int | float | str | arr => rfl
          | dtuPropPost =>
              cases body with
              | obj fields => simp [Bridge.perform, Dict.get_set, hmetadata.2.2, lastValue]
              | null | bool | int | float | str | arr => rfl

/-- From any bridge, a run overlays the last values of all its frames. -/
theorem get_foldl_handle {k : String} (hk : IsTelemetryKey k) (deviceId : String) (b : Bridge)
    (events : List NetworkCallback) :
    (events.foldl (Bridge.handle deviceId) b).state.get k =
      ((lastValue k (ingestedFrames deviceId events)).map (normalise k)).or (b.state.get k) := by
  induction events generalizing b with
  | nil => rfl
  | cons cb rest ih =>
      have hcons : ingestedFrames deviceId (cb :: rest) =
          cb.frames deviceId ++ ingestedFrames deviceId rest := List.flatMap_cons
      rw [List.foldl_cons, ih, get_handle hk, hcons, lastValue_append, ← Option.or_assoc]
      cases lastValue k (ingestedFrames deviceId rest) <;> rfl

/-- The value of a telemetry key is that of the last frame with one. -/
theorem get_after {k : String} (hk : IsTelemetryKey k) (deviceId : String)
    (events : List NetworkCallback) :
    (Bridge.after deviceId events).state.get k =
      (lastValue k (ingestedFrames deviceId events)).map (normalise k) := by
  have hnone : Bridge.init.state.get k = none := by
    simp [Bridge.init, Dict.ofList, Dict.get_set, hk.ne.1]
  rw [Bridge.after, get_foldl_handle hk, hnone, Option.or_none]

/-- Only a PV frame has a value for the switch: its sixth field. -/
theorem frameValue_switch (text : List Char) :
    frameValue "solar_charging_switch" text =
      if claimant (splitFrame text) = some .pv then
        some (.str (String.ofList ((splitFrame text).getD 5 [])))
      else none := by
  cases hvalue : frameValue "solar_charging_switch" text with
  | some v =>
      obtain ⟨b, hb, hmem⟩ := frameValue_eq_some_iff.mp hvalue
      rcases conversion_cases hmem with ⟨hsensor, -⟩ | ⟨rfl, -, hv⟩
      · exact absurd hsensor (by decide)
      · rw [if_pos hb, hv]
  | none =>
      rw [if_neg]
      intro hpv
      have haccepts : Block.pv.Accepts (splitFrame text) := by simpa using List.find?_some hpv
      have hdict := decodeFrame_of_accepts haccepts (by simp)
      rw [haccepts.matcher_eq] at hdict
      rw [frameValue, hdict, Option.map_some, Option.bind_some, Dict.get_dropNone] at hvalue
      simp [Block.keys, Block.conversions, Dict.ofList] at hvalue

theorem isSwitchOn_ofList (f : Field) : isSwitchOn (.str (String.ofList f)) = decide (f = ['2']) := by
  have hstr : String.ofList f = "2" ↔ f = ['2'] := by
    rw [← String.toList_inj, String.toList_ofList]
    rfl
  simp [isSwitchOn, solarChargingSwitchOn, hstr]

/-- The switch reading is the sixth field of the last PV frame. -/
theorem lastValue_switch (texts : List (List Char)) :
    (lastValue "solar_charging_switch" texts).map (normalise "solar_charging_switch") =
      (latestPv texts).map fun text => .bool (decide ((splitFrame text).getD 5 [] = ['2'])) := by
  rw [lastValue, latestPv]
  induction texts.reverse with
  | nil => rfl
  | cons text rest ih =>
      rw [List.findSome?_cons, List.find?_cons, frameValue_switch]
      by_cases hpv : claimant (splitFrame text) = some .pv
      · simp [hpv, normalise, isSwitchOn_ofList]
      · simp [hpv, ih]

/-- What a longer run has for a telemetry key, by what the shorter one had. -/
theorem get_after_append {k : String} (hk : IsTelemetryKey k) (deviceId : String)
    (events later : List NetworkCallback) :
    (Bridge.after deviceId (events ++ later)).state.get k =
      ((lastValue k (ingestedFrames deviceId later)).map (normalise k)).or
        ((Bridge.after deviceId events).state.get k) := by
  rw [Bridge.after, List.foldl_append, get_foldl_handle hk]
  rfl

theorem shape_after (deviceId : String) (events : List NetworkCallback) :
    Shape (Bridge.after deviceId events).state := by
  rw [Bridge.after]
  induction events using List.reverseRecOn with
  | nil => exact shape_init
  | append_singleton events cb ih =>
      rw [List.foldl_append]
      exact ih.foldl_perform (isProper_action deviceId cb)

/-- **The device store.**  Over any sequence of network callbacks: the store has its
shape, also while a callback is under way; the switch reading is on exactly when the
sixth field of the last ingested PV frame is `2`; and a telemetry key, once there,
stays, and changes only to a value that a later frame of its own block carries. -/
theorem store_shape_and_provenance (deviceId : String) (events : List NetworkCallback) :
    (∀ (cb : NetworkCallback) (n : ℕ),
      Shape (((cb.action deviceId).effects.take n).foldl Bridge.perform
        (Bridge.after deviceId events)).state) ∧
    (∀ v, (Bridge.after deviceId events).state.get "solar_charging_switch" = some v ↔
      ∃ text, latestPv (ingestedFrames deviceId events) = some text ∧
        v = .bool (decide ((splitFrame text).getD 5 [] = ['2']))) ∧
    ∀ (k : String) (v : Json) (later : List NetworkCallback), IsTelemetryKey k →
      (Bridge.after deviceId events).state.get k = some v →
      ∃ v', (Bridge.after deviceId (events ++ later)).state.get k = some v' ∧
        (v' ≠ v → ∃ text ∈ ingestedFrames deviceId later, ∃ b raw,
          claimant (splitFrame text) = some b ∧ k ∈ b.keys ∧ frameValue k text = some raw ∧
            v' = normalise k raw) := by
  refine ⟨?_, ?_, ?_⟩
  · intro cb n
    apply (shape_after deviceId events).foldl_perform
    exact fun e he => isProper_action deviceId cb e (List.mem_of_mem_take he)
  · intro v
    rw [get_after (.inr (by decide)), lastValue_switch, Option.map_eq_some_iff]
    simp only [eq_comm]
  · intro k v later hk hv
    have hrun := get_after_append hk deviceId events later
    rw [hv] at hrun
    cases hlast : lastValue k (ingestedFrames deviceId later) with
    | none =>
        rw [hlast] at hrun
        exact ⟨v, hrun, fun hne => absurd rfl hne⟩
    | some raw =>
        rw [hlast] at hrun
        obtain ⟨text, htext, hraw⟩ := exists_of_lastValue hlast
        obtain ⟨b, hb, hmem⟩ := frameValue_eq_some_iff.mp hraw
        exact ⟨_, hrun, fun _ => ⟨text, htext, b, raw, hb, (List.of_mem_zip hmem).1, hraw, rfl⟩⟩

/-- A push with a PV frame whose sixth field is `2`, and the device going offline
afterwards: the switch reading stays on. -/
theorem store_shape_and_provenance_pv :
    let push : NetworkCallback := .message
      ⟨"dtu/1/pub/event/dev_prop_post",
        .ok (.obj [("c", .int 1), ("b", .obj [("ct", .arr [.obj [("cn", .str "Mpod"),
          ("co", .str "KDI2NC4zIDA1LjEgMDEzNDcgMDAwMDAuMCA2NSAyIDAwMDEwIDAwMDAN")]])])]),
        ⟨"token", "nonce", .plain⟩⟩
    ∃ v, (Bridge.after "1" ([push] ++ [.disconnect])).state.get "solar_charging_switch" = some v ∧
      v = .bool true := by
  intro push
  obtain ⟨-, hswitch, hstays⟩ := store_shape_and_provenance "1" [push]
  have hlatest : latestPv (ingestedFrames "1" [push]) =
      some "(264.3 05.1 01347 00000.0 65 2 00010 0000\r".toList := by decide +kernel
  have hon : (Bridge.after "1" [push]).state.get "solar_charging_switch" = some (.bool true) := by
    rw [hswitch]
    exact ⟨_, hlatest, rfl⟩
  obtain ⟨v, hv, hchange⟩ := hstays _ _ [.disconnect] (.inr (by decide)) hon
  refine ⟨v, hv, ?_⟩
  by_contra hne
  obtain ⟨text, htext, -⟩ := hchange hne
  cases htext

end SotRwb1
