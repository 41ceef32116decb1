import SotRwb1.System.Online
import SotRwb1.System.Progress

/-!
# What the sensors show

A sensor reads its key in the coordinator's data at any moment: also while the
network thread is in the middle of a callback, before a notification ran, or
between a refresh and its storing.  What it shows is still its value after some of
the callbacks received so far, each handled to its end in order; their number never
goes back, and once the network is quiet it is all of them.

## Main definitions

* `sensorNativeValue`, `binarySensorIsOn`, `onlineIsOn` — the entities.
* `callbacksIn` — the callbacks of a history, and `state_refines`.
* `Observed`, `observe` — how many callbacks the data has seen.
* `telemetry_shown`, `telemetry_converges`, `sensors_advance`.
-/

namespace SotRwb1

open PyLib

/-! ## The entities -/

/-- `(data or {}).get(key)`. -/
def coordinatorGet (data : Option (Dict String Json)) (key : String) : Json :=
  (data.bind fun d => d.get key).getD .null

/-- `RWB1Sensor.native_value`. -/
def sensorNativeValue (data : Option (Dict String Json)) (key : String) : Json :=
  coordinatorGet data key

/-- `RWB1BinarySensor.is_on`. -/
def binarySensorIsOn (data : Option (Dict String Json)) (key : String) : Json :=
  coordinatorGet data key

/-- `RWB1OnlineBinarySensor.is_on`. -/
def onlineIsOn (data : Option (Dict String Json)) : Bool := (coordinatorGet data "online").truthy

/-! ## The network thread runs its callbacks in order -/

/-- The callback an event begins. -/
def Event.callback : Event → Option NetworkCallback
  | network cb => some cb
  | _ => none

/-- The callbacks received in a history. -/
def callbacksIn (history : List (World × Event)) : List NetworkCallback :=
  history.filterMap fun p => p.2.callback

theorem callbacksIn_concat (history : List (World × Event)) (w : World) (e : Event) :
    callbacksIn (history ++ [(w, e)]) = callbacksIn history ++ e.callback.toList := by
  rw [callbacksIn, List.filterMap_append]
  cases hcb : e.callback <;> simp [callbacksIn, hcb]

/-- The state after effects depends on the state before them only. -/
theorem state_foldl_perform (effects : List Effect) {b b' : Bridge} (h : b.state = b'.state) :
    (effects.foldl Bridge.perform b).state = (effects.foldl Bridge.perform b').state := by
  induction effects generalizing b b' with
  | nil => exact h
  | cons effect rest ih =>
      apply ih
      cases effect with
      | setState key value => exact congrArg (fun state => state.set key value) h
      | setConnected | subscribe | publish | callSoon => exact h

theorem bridge_perform (w : World) (effect : Effect) :
    (w.perform effect).bridge = w.bridge.perform effect := by
  cases effect <;> rfl

/-- Once the running callback has performed the rest of its effects, the state is that
of the callbacks received, each handled to its end. -/
def Refines (deviceId : String) (history : List (World × Event)) (w : World) : Prop :=
  (w.thread.foldl Bridge.perform w.bridge).state =
    (Bridge.after deviceId (callbacksIn history)).state

theorem after_concat (deviceId : String) (events : List NetworkCallback) (cb : NetworkCallback) :
    Bridge.after deviceId (events ++ [cb]) = (Bridge.after deviceId events).handle deviceId cb := by
  rw [Bridge.after, List.foldl_append]
  rfl

theorem Refines.step {deviceId : String} {history : List (World × Event)} {w w' : World} {e : Event}
    (h : Refines deviceId history w) (hstep : (machine deviceId).step w e = some w') :
    Refines deviceId (history ++ [(w, e)]) w' := by
  rw [Refines, callbacksIn_concat]
  rcases thread_step hstep with ⟨cb, rfl, hidle, hthread⟩ | ⟨rfl, effect, hthread⟩ |
    ⟨hsame, hnetwork, hother⟩
  · rw [Refines, hidle] at h
    rw [hthread]
    change _ = (Bridge.after deviceId (callbacksIn history ++ [cb])).state
    rw [after_concat, Bridge.handle]
    exact state_foldl_perform _ ((state_step hstep (by simp)).trans h)
  · have hhead : w.thread.head? = some effect := by
      rw [hthread]
      rfl
    obtain ⟨rest, hsplit, hperformed⟩ := thread_performs hstep hhead
    have hbridge : w'.bridge = w.bridge.perform effect := by
      rw [hperformed]
      exact bridge_perform _ effect
    rw [Refines, hthread, List.foldl_cons, ← hbridge] at h
    simpa [Event.callback] using h
  · have hnone : e.callback = none := by
      cases e with
      | network cb => exact absurd rfl (hnetwork cb)
      | thread | loop | refresh | store | start | await | timeout | cancel => rfl
    rw [hsame, hnone, Option.toList_none, List.append_nil]
    exact (state_foldl_perform _ (state_step hstep hother)).trans h

/-- **The interleaved network thread refines the sequence of its callbacks.** -/
theorem state_refines {deviceId : String} {restored : Shown} {ok : World → Event → Prop}
    {history : List (World × Event)} {w : World}
    (h : (machine deviceId).Run ok (World.init restored) history w) :
    Refines deviceId history w := by
  have hinit : Refines deviceId [] (World.init restored) := rfl
  apply h.historyInvariant (Refines deviceId) hinit
  intro history s e s' hs _ hstep
  exact hs.step hstep

/-! ## What the entities of a key show after some callbacks -/

/-- A sensor shows the value of the last frame that has one, the switch what the last
PV frame says, and the online sensor what the last callback that bears on it says. -/
structure ReadsAs (deviceId : String) (data : Option (Dict String Json)) (key : String)
    (events : List NetworkCallback) : Prop where
  sensor : key ∈ sensorDefinitions → sensorNativeValue data key =
    (lastValue key (ingestedFrames deviceId events)).getD .null
  switch : key ∈ binarySensorDefinitions → binarySensorIsOn data key =
    ((latestPv (ingestedFrames deviceId events)).map fun text =>
      .bool (decide ((splitFrame text).getD 5 [] = ['2']))).getD .null
  online : key = "online" → onlineIsOn data =
    (events.filterMap (NetworkCallback.report deviceId)).getLast?.getD false

/-- The data agrees with the state after these callbacks on a key, or nothing was
stored and they left the key as constructed. -/
def Agrees (deviceId : String) (data : Option (Dict String Json)) (key : String)
    (events : List NetworkCallback) : Prop :=
  (∃ d, data = some d ∧ d.get key = (Bridge.after deviceId events).state.get key) ∨
    data = none ∧ (Bridge.after deviceId events).state.get key = Bridge.init.state.get key

/-- On a telemetry key, data that agrees has its value or none. -/
theorem Agrees.coordinatorGet_eq {deviceId : String} {data : Option (Dict String Json)}
    {key : String} {events : List NetworkCallback} (h : Agrees deviceId data key events)
    (hkey : IsTelemetryKey key) : coordinatorGet data key =
      ((lastValue key (ingestedFrames deviceId events)).map (normalise key)).getD .null := by
  rw [← get_after hkey]
  rcases h with ⟨d, rfl, hget⟩ | ⟨rfl, hinit⟩
  · rw [coordinatorGet, Option.bind_some, hget]
  · have hnone : Bridge.init.state.get key = none := by
      simp [Bridge.init, Dict.ofList, Dict.get_set, hkey.ne.1]
    rw [hinit, hnone]
    rfl

theorem Agrees.readsAs {deviceId : String} {data : Option (Dict String Json)} {key : String}
    {events : List NetworkCallback} (h : Agrees deviceId data key events) :
    ReadsAs deviceId data key events := by
  constructor
  case sensor =>
    intro hkey
    rw [sensorNativeValue, h.coordinatorGet_eq (.inl hkey)]
    have hid : normalise key = id := by
      funext v
      exact if_neg (isSensor_ne hkey).2.2
    rw [hid, Option.map_id, id]
  case switch =>
    intro hkey
    rw [binarySensorIsOn, h.coordinatorGet_eq (.inr hkey)]
    cases List.mem_singleton.mp hkey
    rw [lastValue_switch]
  case online =>
    rintro rfl
    have honline := get_online_foldl deviceId .init events
    rw [← Bridge.after] at honline
    have hstart : Bridge.init.state.get "online" = some (.bool false) := rfl
    rw [hstart] at honline
    rcases h with ⟨d, rfl, hget⟩ | ⟨rfl, hinit⟩
    · rw [onlineIsOn, coordinatorGet, Option.bind_some, hget, honline]
      cases (events.filterMap (NetworkCallback.report deviceId)).getLast? with
      | none => rfl
      | some up => cases up <;> rfl
    · rw [hinit, hstart] at honline
      cases hlast : (events.filterMap (NetworkCallback.report deviceId)).getLast? with
      | none => rfl
      | some up =>
          rw [hlast] at honline
          cases honline
          rfl

/-- No entity reads the time stamp of events. -/
theorem readsAs_of_agrees {deviceId : String} {data : Option (Dict String Json)} {key : String}
    {events : List NetworkCallback} (h : key ≠ "last_event" → Agrees deviceId data key events) :
    ReadsAs deviceId data key events := by
  by_cases hstamp : key = "last_event"
  · subst hstamp
    exact ⟨fun hkey => absurd hkey (by decide), fun hkey => absurd hkey (by decide),
      fun hkey => absurd hkey (by decide)⟩
  · exact (h hstamp).readsAs

/-! ## Quiet moments -/

/-- Between callbacks, data that shows a key agrees with all the callbacks received. -/
theorem agrees_of_shows {deviceId : String} {history : List (World × Event)} {w : World}
    (hrefines : Refines deviceId history w) (hidle : w.thread = []) {keys : String → Prop}
    (hshows : w.shows (.on keys)) {key : String} (hkey : keys key) :
    Agrees deviceId w.data key (callbacksIn history) := by
  rw [Refines, hidle, List.foldl_nil] at hrefines
  rcases hshows with ⟨d, hdata, hsame⟩ | ⟨hnone, hsame⟩
  · exact .inl ⟨d, hdata, by rw [hsame key hkey, hrefines]⟩
  · exact .inr ⟨hnone, by rw [← hrefines, hsame key hkey]⟩

/-- With no callback under way and no notification queued, the data agrees with all the
callbacks received; on the keys that an event post writes, if the acknowledgements of
event posts could be encoded. -/
theorem agrees_quiet {deviceId : String} {restored : Shown} {history : List (World × Event)}
    {w : World} (h : (machine deviceId).Run PushAssumptions (World.init restored) history w)
    (hidle : w.thread = []) (hqueue : .callback .notify ∉ w.ready) {key : String}
    (hencodes : key = "online" ∨ key = "last_event" →
      ∀ p ∈ history, p.2.encodesEvent deviceId = true) :
    Agrees deviceId w.data key (callbacksIn history) := by
  have hsettles : ∀ p ∈ history, p.2.Settles deviceId (.on (key = ·)) := by
    intro p hp
    cases he : p.2 with
    | network cb =>
        intro hkeys
        have hevent := hencodes hkeys p hp
        rw [he] at hevent
        exact hevent
    | thread | loop | refresh | store | start | await | timeout | cancel => trivial
  have hinv := delivered_run h (fun _ _ hok => hok) hsettles
  exact agrees_of_shows (state_refines h) hidle (hinv.shows hidle hqueue) rfl

/-- **Telemetry is shown.**  In every state a run reaches in which no refresh was
overtaken, if no callback is under way and no notification is queued, every sensor shows
the value of the last frame received that has one, the switch what the last PV frame
says, and, if the acknowledgements of event posts could be encoded, the online sensor what
the last callback that bears on it says. -/
theorem telemetry_shown {deviceId : String} {restored : Shown} {history : List (World × Event)}
    {w : World} (h : (machine deviceId).Run PushAssumptions (World.init restored) history w)
    (hidle : w.thread = []) (hqueue : .callback .notify ∉ w.ready) (key : String)
    (hencodes : key = "online" → ∀ p ∈ history, p.2.encodesEvent deviceId = true) :
    ReadsAs deviceId w.data key (callbacksIn history) := by
  refine readsAs_of_agrees fun hread => agrees_quiet h hidle hqueue ?_
  rintro (honline | hstamp)
  · exact hencodes honline
  · exact absurd hstamp hread

/-- A push with a PV frame, handled and notified. -/
def pvEvents : List Event :=
  [.network (.message ⟨"dtu/x/pub/event/dev_prop_post",
      .ok (.obj [("c", .int 1), ("b", .obj [("ct", .arr [.obj [("cn", .str "Mpod"),
        ("co", .str "KDI2NC4zIDA1LjEgMDEzNDcgMDAwMDAuMCA2NSAyIDAwMDEwIDAwMDAN")]])])]),
      ⟨"token", "nonce", .plain⟩⟩),
    .thread, .thread, .thread, .thread, .thread, .thread, .thread, .loop]

set_option maxRecDepth 10000 in
/-- The power sensor shows the third field of the frame. -/
theorem telemetry_shown_pv :
    ∃ history w, (machine "x").Run PushAssumptions (World.init fun _ => none) history w ∧
      sensorNativeValue w.data "pv_power" = .int 1347 := by
  have hreplay : ((machine "x").replay PushAssumptions (World.init fun _ => none)
      pvEvents).any (fun r => r.2.thread.isEmpty && r.2.ready.isEmpty &&
        (lastValue "pv_power" (ingestedFrames "x" (callbacksIn r.1))).bind Json.asInt ==
          some 1347) = true := by decide +kernel
  obtain ⟨r, hr, htest⟩ := (Option.any_eq_true _ _).mp hreplay
  simp only [Bool.and_eq_true, List.isEmpty_iff, beq_iff_eq] at htest
  obtain ⟨⟨hthread, hready⟩, hvalue⟩ := htest
  have hrun := Machine.Run.nil.replay hr
  refine ⟨_, _, hrun, ?_⟩
  have hsensor := (telemetry_shown hrun hthread (by simp [hready]) "pv_power"
    (fun honline => absurd honline (by decide))).sensor (by decide)
  obtain ⟨v, hlast, hint⟩ := Option.bind_eq_some_iff.mp hvalue
  rw [hsensor, List.nil_append, hlast, Option.getD_some]
  cases v with
  | int n =>
      cases hint
      rfl
  | bool b => cases b <;> cases hint
  | null | float | str | arr | obj => cases hint

theorem callbacksIn_quiet {deviceId : String} {restored : Shown} {ok : World → Event → Prop}
    {x : (machine deviceId).Execution ok (World.init restored)} {n : ℕ}
    (hquiet : ∀ j ≥ n, ∀ cb, x.event j ≠ some (.network cb)) {k : ℕ} (hk : n ≤ k) :
    callbacksIn (x.history k) = callbacksIn (x.history n) := by
  induction k, hk using Nat.le_induction with
  | base => rfl
  | succ k hk ih =>
      rw [Machine.Execution.history]
      cases hevent : x.event k with
      | none => simpa using ih
      | some e =>
          have hnone : e.callback = none := by
            cases e with
            | network cb => exact absurd hevent (hquiet k hk cb)
            | thread | loop | refresh | store | start | await | timeout | cancel => rfl
          rw [Option.map_some, Option.toList_some, callbacksIn_concat, hnone, Option.toList_none,
            List.append_nil, ih]

/-- The callbacks received are those of the events. -/
theorem callbacksIn_history {deviceId : String} {restored : Shown} {ok : World → Event → Prop}
    (x : (machine deviceId).Execution ok (World.init restored)) (n : ℕ) :
    callbacksIn (x.history n) =
      (List.range n).filterMap fun j => (x.event j).bind Event.callback := by
  induction n with
  | zero => rfl
  | succ n ih =>
      rw [Machine.Execution.history, List.range_succ, List.filterMap_append, ← ih]
      cases hevent : x.event n with
      | none => simp [hevent]
      | some e => cases hcb : e.callback <;> simp [callbacksIn_concat, hevent, hcb]

/-- **Telemetry converges.**  In a fair execution in which no refresh is overtaken, once no
more network callbacks begin, every sensor comes to show what all the messages received
say, and goes on to; the online sensor, if the acknowledgements of event posts can be
encoded. -/
theorem telemetry_converges {deviceId : String} {restored : Shown}
    {x : (machine deviceId).Execution PushAssumptions (World.init restored)} {n : ℕ}
    (hfair : Fair x) (hquiet : ∀ j ≥ n, ∀ cb, x.event j ≠ some (.network cb)) :
    ∃ m ≥ n, ∀ k ≥ m, ∀ key,
      (key = "online" → ∀ j e, x.event j = some e → e.encodesEvent deviceId = true) →
        ReadsAs deviceId (x.state k).data key (callbacksIn (x.history n)) := by
  -- the keys whose writes are followed by a notification
  let keys : String → Prop := fun key => key = "online" ∨ key = "last_event" →
    ∀ j e, x.event j = some e → e.encodesEvent deviceId = true
  have hsettles : ∀ j e, x.event j = some e → e.Settles deviceId (.on keys) := by
    intro j e he
    cases e with
    | network cb =>
        rintro (honline | hstamp)
        · exact honline (.inl rfl) j _ he
        · exact hstamp (.inr rfl) j _ he
    | thread | loop | refresh | store | start | await | timeout | cancel => trivial
  obtain ⟨final, m, hm, hrests⟩ := rests_synced hfair (fun _ _ hok => hok) hsettles hquiet
  refine ⟨m, hm, ?_⟩
  intro k hk key hencodes
  obtain ⟨⟨hidle, -⟩, hsynced⟩ := hrests k hk
  rw [← callbacksIn_quiet hquiet (hm.trans hk)]
  refine readsAs_of_agrees fun hread =>
    agrees_of_shows (state_refines (x.run k)) hidle hsynced.1 ?_
  rintro (honline | hstamp)
  · exact hencodes honline
  · exact absurd hstamp hread

/-- The callbacks of the push are the ones received, and they have a value. -/
theorem lastValue_pvEvents {ok : World → Event → Prop}
    {x : (machine "x").Execution ok (World.init fun _ => none)}
    (hevents : ∀ n, x.event n = pvEvents[n]?) :
    lastValue "pv_power" (ingestedFrames "x" (callbacksIn (x.history 9))) = some (.int 1347) := by
  have hvalue : (lastValue "pv_power" (ingestedFrames "x" ((List.range 9).filterMap fun j =>
      (pvEvents[j]?).bind Event.callback))).bind Json.asInt = some 1347 := by decide +kernel
  rw [callbacksIn_history]
  simp only [hevents]
  obtain ⟨v, hlast, hint⟩ := Option.bind_eq_some_iff.mp hvalue
  rw [hlast]
  cases v with
  | int n => exact congrArg (some ∘ Json.int) (Option.some.inj hint)
  | bool b => cases b <;> cases hint
  | null | float | str | arr | obj => cases hint

theorem quiet_pvEvents {ok : World → Event → Prop}
    {x : (machine "x").Execution ok (World.init fun _ => none)}
    (hevents : ∀ n, x.event n = pvEvents[n]?) : ∀ j ≥ 9, ∀ cb, x.event j ≠ some (.network cb) := by
  intro j hj cb
  rw [hevents, List.getElem?_eq_none hj]
  simp

set_option maxRecDepth 10000 in
/-- After the push the power sensor shows its value for good. -/
theorem telemetry_converges_pv :
    ∃ x : (machine "x").Execution PushAssumptions (World.init fun _ => none),
      ∃ m, ∀ k ≥ m, sensorNativeValue (x.state k).data "pv_power" = .int 1347 := by
  obtain ⟨x, hfair, hevents, -⟩ := exists_fair "x" PushAssumptions pvEvents (fun _ => true)
    (by decide +kernel)
  obtain ⟨m, -, hshows⟩ := telemetry_converges hfair (quiet_pvEvents hevents)
  refine ⟨x, m, ?_⟩
  intro k hk
  have hreads := hshows k hk "pv_power" fun honline => absurd honline (by decide)
  rw [hreads.sensor (by decide), lastValue_pvEvents hevents]
  rfl

/-! ## A callback writes each key at most once -/

/-- The key an effect writes. -/
def Effect.writtenKey : Effect → Option String
  | setState key _ => some key
  | _ => none

/-- The keys effects write, in order. -/
def writtenKeys (effects : List Effect) : List String := effects.filterMap Effect.writtenKey

theorem writtenKeys_append (es es' : List Effect) :
    writtenKeys (es ++ es') = writtenKeys es ++ writtenKeys es' := List.filterMap_append

theorem writtenKeys_outward {deviceId : String} {es : List Effect}
    (h : ∀ e ∈ es, e.IsOutward deviceId) : writtenKeys es = [] := by
  rw [writtenKeys, List.filterMap_eq_nil_iff]
  intro e he
  cases e with
  | setState key value => exact (h _ he).elim
  | setConnected | subscribe | publish | callSoon => rfl

theorem writtenKeys_updateState (values : Dict String Json) :
    writtenKeys (updateState values) = values.keys := by
  have hsome : (Effect.writtenKey ∘ fun kv : String × Json => Effect.setState kv.1 kv.2) =
      some ∘ Prod.fst := rfl
  rw [writtenKeys, updateState, List.filterMap_map, hsome, List.filterMap_eq_map, Dict.keys]

/-- The values a body brings are telemetry. -/
theorem isTelemetryKey_of_decodedValues {body : Json} {values : Dict String Json}
    (h : decodedValues body = some values) {key : String} (hkey : (values.get key).isSome) :
    IsTelemetryKey key := by
  obtain ⟨v, hv⟩ := Option.isSome_iff_exists.mp hkey
  have hlast := get_decodedValues body key
  rw [h, Option.bind_some, hv] at hlast
  obtain ⟨text, -, hvalue⟩ := exists_of_lastValue hlast.symm
  obtain ⟨b, -, hmem⟩ := frameValue_eq_some_iff.mp hvalue
  rcases conversion_cases hmem with ⟨hsensor, -⟩ | ⟨-, rfl, -⟩
  · exact .inl hsensor
  · exact .inr (by decide)

theorem nodup_ingestTelemetry (body : Json) :
    (writtenKeys (ingestTelemetry body).effects).Nodup := by
  rw [effects_ingestTelemetry]
  cases hvalues : decodedValues body with
  | none => exact List.nodup_nil
  | some values =>
      have hnot : ∀ key ∈ (deriveBinaryState values).keys, IsTelemetryKey key := by
        intro key hkey
        rw [Dict.mem_keys_iff, get_deriveBinaryState] at hkey
        exact isTelemetryKey_of_decodedValues hvalues (by simpa using hkey)
      have hrest : (writtenKeys ([.setState "online" (.bool true)] ++
          (if (bodyStamp body).truthy then [.setState "last_telemetry" (bodyStamp body)] else []) ++
          [.callSoon .notify])).Sublist ["online", "last_telemetry"] := by
        cases (bodyStamp body).truthy <;> simp [writtenKeys, Effect.writtenKey]
      change (writtenKeys (telemetryEffects values (bodyStamp body))).Nodup
      rw [telemetryEffects, List.append_assoc, List.append_assoc, writtenKeys_append,
        writtenKeys_updateState, ← List.append_assoc, List.nodup_append]
      refine ⟨(deriveBinaryState values).nodup, hrest.nodup (by decide), ?_⟩
      intro key hkey key' hkey' heq
      subst heq
      obtain ⟨honline, hmetadata⟩ := (hnot key hkey).ne
      have hmem := hrest.subset hkey'
      simp only [List.mem_cons, List.not_mem_nil, or_false] at hmem
      rcases hmem with rfl | rfl
      · exact honline rfl
      · exact hmetadata (by decide)

/-- **Each network callback writes each key at most once.** -/
theorem nodup_action (deviceId : String) (cb : NetworkCallback) :
    (writtenKeys (cb.action deviceId).effects).Nodup := by
  cases cb with
  | connect rc draws =>
      rw [NetworkCallback.action, effects_onConnect]
      split <;> exact List.nodup_nil
  | disconnect => exact List.nodup_singleton "online"
  | message m =>
      obtain ⟨outward, houtward, heffects⟩ := effects_onMessage deviceId m
      rw [NetworkCallback.action, heffects, writtenKeys_append, writtenKeys_outward houtward,
        List.append_nil, Message.writes]
      split
      · exact nodup_ingestTelemetry _
      · exact nodup_ingestTelemetry _
      · simp [writtenKeys, Effect.writtenKey]
      · simp [writtenKeys, Effect.writtenKey]
      · exact List.nodup_nil

/-! ## How far the data is -/

/-- How many of the callbacks received show in a key of the bridge's state: all of
them, without the running one while it has its write to come. -/
def written (key : String) (w : World) (received : ℕ) : ℕ :=
  if key ∈ writtenKeys w.thread then received - 1 else received

/-- How many callbacks have been received, show in the snapshot of a refresh, and show
in the coordinator's data. -/
structure Observed where
  received : ℕ
  taken : ℕ
  stored : ℕ

/-- Follow a key through a step: a callback is received; a refresh takes a snapshot,
and has it stored; a notification stores the state. -/
def observe (key : String) (seen : Observed) (step : World × Event) : Observed :=
  match step.2 with
  | .network _ => { seen with received := seen.received + 1 }
  | .refresh _ => { seen with taken := written key step.1 seen.received }
  | .store => { seen with stored := seen.taken }
  | .loop =>
      match step.1.ready.head? with
      | some (.callback .notify) => { seen with stored := written key step.1 seen.received }
      | _ => seen
  | _ => seen

/-- What a history has shown of a key. -/
def observed (key : String) (history : List (World × Event)) : Observed :=
  history.foldl (observe key) ⟨0, 0, 0⟩

/-- The state shows the callbacks that have written the key, and snapshot and data agree
with the state after some of these. -/
structure Tracks (deviceId : String) (key : String) (events : List NetworkCallback)
    (seen : Observed) (w : World) : Prop where
  received : seen.received = events.length
  nodup : (writtenKeys w.thread).Nodup
  state : w.bridge.state.get key =
    (Bridge.after deviceId (events.take (written key w seen.received))).state.get key
  taken : ∀ snapshot, w.refreshed = some snapshot → seen.stored ≤ seen.taken ∧
    seen.taken ≤ written key w seen.received ∧
    snapshot.get key = (Bridge.after deviceId (events.take seen.taken)).state.get key
  stored : seen.stored ≤ written key w seen.received
  agrees : Agrees deviceId w.data key (events.take seen.stored)

theorem written_le (key : String) (w : World) (received : ℕ) :
    received - 1 ≤ written key w received ∧ written key w received ≤ received := by
  rw [written]
  split <;> omega

theorem written_idle (key : String) {w : World} (h : w.thread = []) (received : ℕ) :
    written key w received = received := by
  rw [written, h, if_neg (by simp [writtenKeys])]

theorem written_of_thread (key : String) {w w' : World} (h : w'.thread = w.thread) (received : ℕ) :
    written key w' received = written key w received := by
  rw [written, written, h]

/-- Effects that do not write a key leave it alone. -/
theorem get_foldl_unwritten {key : String} {effects : List Effect}
    (h : key ∉ writtenKeys effects) (b : Bridge) :
    (effects.foldl Bridge.perform b).state.get key = b.state.get key := by
  induction effects generalizing b with
  | nil => rfl
  | cons effect rest ih =>
      cases effect with
      | setState key' value =>
          have hcons : writtenKeys (.setState key' value :: rest) = key' :: writtenKeys rest := rfl
          rw [hcons, List.mem_cons, not_or] at h
          rw [List.foldl_cons, ih h.2]
          exact Dict.get_set_of_ne _ _ h.1
      | setConnected | subscribe | publish | callSoon => exact ih h _

namespace Tracks

variable {deviceId : String} {key : String} {events : List NetworkCallback} {seen : Observed}
  {w w' : World}

theorem init (deviceId : String) (key : String) (restored : Shown) :
    Tracks deviceId key [] ⟨0, 0, 0⟩ (World.init restored) where
  received := rfl
  nodup := List.nodup_nil
  state := by
    rw [written_idle key rfl]
    rfl
  taken := by
    intro snapshot hsnapshot
    cases hsnapshot
  stored := Nat.zero_le _
  agrees := .inr ⟨rfl, rfl⟩

/-- A step that leaves thread, state, snapshot and data alone. -/
theorem of_same (h : Tracks deviceId key events seen w) (hthread : w'.thread = w.thread)
    (hstate : w'.bridge.state = w.bridge.state) (hrefreshed : w'.refreshed = w.refreshed)
    (hdata : w'.data = w.data) : Tracks deviceId key events seen w' := by
  have hwritten := written_of_thread key hthread seen.received
  constructor
  case received => exact h.received
  case nodup => rw [hthread]; exact h.nodup
  case state => rw [hwritten, hstate]; exact h.state
  case taken => rw [hwritten, hrefreshed]; exact h.taken
  case stored => rw [hwritten]; exact h.stored
  case agrees => rw [hdata]; exact h.agrees

/-- A callback is received. -/
theorem network (h : Tracks deviceId key events seen w) {cb : NetworkCallback}
    (hidle : w.thread = []) :
    Tracks deviceId key (events ++ [cb]) { seen with received := seen.received + 1 }
      { w with thread := (cb.action deviceId).effects } := by
  have hbefore := written_idle key hidle seen.received
  have hafter := (written_le key { w with thread := (cb.action deviceId).effects }
    (seen.received + 1)).1
  -- what a prefix of the earlier callbacks says does not change
  have htake : ∀ n ≤ seen.received, (events ++ [cb]).take n = events.take n := by
    intro n hn
    exact List.take_append_of_le_length (hn.trans_eq h.received)
  have hstate := h.state
  have hstored := h.stored
  rw [hbefore] at hstate hstored
  constructor
  case received => simp [h.received]
  case nodup => exact nodup_action deviceId cb
  case state =>
    dsimp only
    by_cases hwrites : key ∈ writtenKeys (cb.action deviceId).effects
    · rw [written, if_pos hwrites, Nat.add_sub_cancel, htake _ le_rfl]
      exact hstate
    · rw [written, if_neg hwrites, h.received, List.take_of_length_le (by simp), after_concat,
        Bridge.handle, get_foldl_unwritten hwrites, hstate, h.received, List.take_length]
  case taken =>
    intro snapshot hsnapshot
    obtain ⟨hle, htaken, hget⟩ := h.taken snapshot hsnapshot
    rw [hbefore] at htaken
    exact ⟨hle, by dsimp only; omega, by rw [htake _ htaken]; exact hget⟩
  case stored => dsimp only; omega
  case agrees =>
    dsimp only
    rw [htake _ hstored]
    exact h.agrees

/-- The network thread performs an effect. -/
theorem thread (h : Tracks deviceId key events seen w) {effect : Effect} {rest : List Effect}
    (hthread : w.thread = effect :: rest)
    (hrefines : ((rest.foldl Bridge.perform (w.bridge.perform effect)).state =
      (Bridge.after deviceId events).state)) :
    Tracks deviceId key events seen (({ w with thread := rest } : World).perform effect) := by
  have hnodup := h.nodup
  have hstate := h.state
  have hthread' : (({ w with thread := rest } : World).perform effect).thread = rest := by
    cases effect <;> rfl
  have hrefreshed : (({ w with thread := rest } : World).perform effect).refreshed =
      w.refreshed := by
    cases effect <;> rfl
  have hdata : (({ w with thread := rest } : World).perform effect).data = w.data := by
    cases effect <;> rfl
  have hsub : (writtenKeys rest).Sublist (writtenKeys w.thread) := by
    rw [hthread]
    exact (List.sublist_cons_self effect rest).filterMap _
  have hwritten : written key w seen.received ≤
      written key (({ w with thread := rest } : World).perform effect) seen.received := by
    rw [written, written, hthread']
    split
    · split <;> omega
    · rename_i hnot
      rw [if_neg fun hmem => hnot (hsub.subset hmem)]
  constructor
  case received => exact h.received
  case nodup =>
    rw [hthread']
    exact hnodup.sublist hsub
  case state =>
    rw [bridge_perform, written, hthread']
    dsimp only
    by_cases hwrites : key ∈ writtenKeys rest
    · -- the write of the key is still to come
      rw [written, if_pos (hsub.subset hwrites)] at hstate
      rw [if_pos hwrites, ← hstate]
      cases effect with
      | setState key' value =>
          have hcons : writtenKeys w.thread = key' :: writtenKeys rest := by
            rw [hthread]
            rfl
          rw [hcons, List.nodup_cons] at hnodup
          apply Dict.get_set_of_ne
          rintro rfl
          exact hnodup.1 hwrites
      | setConnected | subscribe | publish | callSoon => rfl
    · rw [if_neg hwrites, h.received, List.take_length, ← hrefines, get_foldl_unwritten hwrites]
  case taken =>
    rw [hrefreshed]
    intro snapshot hsnapshot
    obtain ⟨hle, htaken, hget⟩ := h.taken snapshot hsnapshot
    exact ⟨hle, htaken.trans hwritten, hget⟩
  case stored => exact h.stored.trans hwritten
  case agrees =>
    rw [hdata]
    exact h.agrees

/-- A job of the loop: a notification has the data show what the state shows. -/
theorem loop (h : Tracks deviceId key events seen w) {job : Job} {rest : List Job}
    (hready : w.ready = job :: rest) (hfree : w.refreshed = none)
    (hresult : JobResult { w with ready := rest } job w') :
    Tracks deviceId key events (observe key seen (w, .loop)) w' ∧
      seen.stored ≤ (observe key seen (w, .loop)).stored := by
  have hseen : job ≠ .callback .notify → observe key seen (w, .loop) = seen := by
    intro hjob
    rw [observe]
    dsimp only
    rw [hready]
    split
    · rename_i heq
      cases heq
      exact absurd rfl hjob
    · rfl
  cases hresult with
  | notify =>
      have hobserve : observe key seen (w, .loop) =
          { seen with stored := written key w seen.received } := by
        rw [observe]
        dsimp only
        rw [hready]
        rfl
      rw [hobserve]
      refine ⟨⟨h.received, h.nodup, h.state, ?_, le_rfl, .inl ⟨_, rfl, h.state⟩⟩, h.stored⟩
      intro snapshot hsnapshot
      cases hfree.symm.trans hsnapshot
  | connect | missed | unknown | wakeNone | typeError =>
      rw [hseen (by simp)]
      exact ⟨h.of_same rfl rfl rfl rfl, le_rfl⟩
  | complete t co id task =>
      rw [hseen (by simp)]
      exact ⟨h.of_same rfl rfl rfl rfl, le_rfl⟩
  | wake id task =>
      rw [hseen (by simp)]
      exact ⟨h.of_same rfl rfl rfl rfl, le_rfl⟩

/-- One step, and the data never goes back. -/
theorem step (h : Tracks deviceId key events seen w) {e : Event}
    (hrefines : (w'.thread.foldl Bridge.perform w'.bridge).state =
      (Bridge.after deviceId (events ++ e.callback.toList)).state)
    (hok : PushAssumptions w e) (hstep : (machine deviceId).step w e = some w') :
    Tracks deviceId key (events ++ e.callback.toList) (observe key seen (w, e)) w' ∧
      seen.stored ≤ (observe key seen (w, e)).stored := by
  cases step_result hstep with
  | network cb idle => exact ⟨h.network idle, le_rfl⟩
  | thread effect rest performing =>
      simp only [Event.callback, Option.toList_none, List.append_nil] at hrefines ⊢
      refine ⟨h.thread performing ?_, le_rfl⟩
      rw [bridge_perform] at hrefines
      cases effect <;> exact hrefines
  | loop job rest queued _ result =>
      simp only [Event.callback, Option.toList_none, List.append_nil]
      exact h.loop queued hok result
  | refresh draws published free =>
      simp only [Event.callback, Option.toList_none, List.append_nil]
      refine ⟨⟨h.received, h.nodup, h.state, ?_, h.stored, h.agrees⟩, le_rfl⟩
      intro snapshot hsnapshot
      cases hsnapshot
      exact ⟨h.stored, le_rfl, h.state⟩
  | refreshFails draws =>
      simp only [Event.callback, Option.toList_none, List.append_nil]
      refine ⟨⟨h.received, h.nodup, h.state, ?_, h.stored, h.agrees⟩, le_rfl⟩
      intro snapshot hsnapshot
      have hfree : w.refreshed = none := hok
      cases hfree.symm.trans hsnapshot
  | store snapshot refreshed =>
      simp only [Event.callback, Option.toList_none, List.append_nil]
      obtain ⟨hle, htaken, hget⟩ := h.taken snapshot refreshed
      refine ⟨⟨h.received, h.nodup, h.state, ?_, htaken, .inl ⟨_, rfl, hget⟩⟩, hle⟩
      intro snapshot hsnapshot
      cases hsnapshot
  | startFails | register | refuse | wait | timeout | cancel | takeReply =>
      simp only [Event.callback, Option.toList_none, List.append_nil]
      exact ⟨h.of_same rfl rfl rfl rfl, le_rfl⟩

end Tracks

/-! ## The sensors never go back -/

theorem observed_concat (key : String) (history : List (World × Event)) (w : World) (e : Event) :
    observed key (history ++ [(w, e)]) = observe key (observed key history) (w, e) := by
  rw [observed, List.foldl_append]
  rfl

theorem tracks_observed {deviceId : String} {restored : Shown} {history : List (World × Event)}
    {w : World} (h : (machine deviceId).Run PushAssumptions (World.init restored) history w)
    (key : String) : Tracks deviceId key (callbacksIn history) (observed key history) w := by
  have hinv : Refines deviceId history w ∧
      Tracks deviceId key (callbacksIn history) (observed key history) w := by
    apply h.historyInvariant (fun history w => Refines deviceId history w ∧
      Tracks deviceId key (callbacksIn history) (observed key history) w)
    · exact ⟨rfl, .init deviceId key restored⟩
    · intro history s e s' hs hok hstep
      have hrefines := hs.1.step hstep
      refine ⟨hrefines, ?_⟩
      rw [Refines, callbacksIn_concat] at hrefines
      rw [callbacksIn_concat, observed_concat]
      exact (hs.2.step hrefines hok hstep).1
  exact hinv.2

/-- **Sensors advance.**  In every execution in which no refresh is overtaken, at every
moment each sensor shows what a first part of the callbacks received so far says,
and this part never becomes shorter. -/
theorem sensors_advance {deviceId : String} {restored : Shown}
    (x : (machine deviceId).Execution PushAssumptions (World.init restored)) (key : String) :
    ∃ seen : ℕ → ℕ, Monotone seen ∧ ∀ n, seen n ≤ (callbacksIn (x.history n)).length ∧
      ReadsAs deviceId (x.state n).data key ((callbacksIn (x.history n)).take (seen n)) := by
  refine ⟨fun n => (observed key (x.history n)).stored, ?_, ?_⟩
  · apply monotone_nat_of_le_succ
    intro n
    rw [Machine.Execution.history]
    cases hevent : x.event n with
    | none => simp
    | some e =>
        have hrefines := state_refines (x.run (n + 1))
        rw [Refines, Machine.Execution.history, hevent, Option.map_some, Option.toList_some,
          callbacksIn_concat] at hrefines
        rw [Option.map_some, Option.toList_some, observed_concat]
        exact ((tracks_observed (x.run n) key).step hrefines (x.admissible n e hevent)
          (x.step n e hevent)).2
  · intro n
    have htracks := tracks_observed (x.run n) key
    refine ⟨?_, htracks.agrees.readsAs⟩
    exact (htracks.stored.trans (written_le key _ _).2).trans_eq htracks.received

set_option maxRecDepth 10000 in
/-- Once the power sensor shows the push, it goes on to. -/
theorem sensors_advance_pv :
    ∃ x : (machine "x").Execution PushAssumptions (World.init fun _ => none),
      ∀ n ≥ 9, sensorNativeValue (x.state n).data "pv_power" = .int 1347 := by
  obtain ⟨x, -, hevents, htest⟩ := exists_fair "x" PushAssumptions pvEvents
    (fun state => (sensorNativeValue (state 9).data "pv_power").truthy) (by decide +kernel)
  obtain ⟨seen, hmono, hreads⟩ := sensors_advance x "pv_power"
  -- at moment 9 the sensor shows something, so it has seen the push
  have hseen : 0 < seen 9 := by
    by_contra hzero
    have hnothing := (hreads 9).2.sensor (by decide)
    rw [Nat.eq_zero_of_not_pos hzero] at hnothing
    rw [hnothing] at htest
    cases htest
  refine ⟨x, ?_⟩
  intro n hn
  have hall : (callbacksIn (x.history n)).length ≤ seen n := by
    have hone : (callbacksIn (x.history 9)).length = 1 := by
      rw [callbacksIn_history]
      simp only [hevents]
      rfl
    rw [callbacksIn_quiet (quiet_pvEvents hevents) hn, hone]
    exact hseen.trans_le (hmono hn)
  rw [(hreads n).2.sensor (by decide), List.take_of_length_le hall,
    callbacksIn_quiet (quiet_pvEvents hevents) hn, lastValue_pvEvents hevents]
  rfl

end SotRwb1
