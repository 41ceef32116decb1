import SotRwb1.System.Telemetry

/-!
# What the device registry is told

Every entity describes its device from the identity in the coordinator's data, which an
identity message replaces as a whole.  The description is that of the last identity
message seen so far; a list or dictionary in place of the MAC address cannot be put into
a set, and then asking for it raises.

## Main definitions

* `DeviceInfo`, `deviceInfo` — the property of the entities.
* `lastIdentity`, `describe` — the last identity message, and what it says.
* `device_info_described`.
-/

namespace SotRwb1

open PyLib

/-! ## The property -/

/-- The registry's record, as far as it depends on the device. -/
structure DeviceInfo where
  identifiers : List (String × String)
  name : String
  manufacturer : String
  model : Json
  swVersion : Json
  connections : List (String × Json)

/-- The set of the one pair of the address, or the empty set. -/
def macConnections (mac : Json) : Except PyError (List (String × Json)) :=
  if mac.truthy then
    if mac.hashable then .ok [("mac", mac)] else .error .typeError
  else .ok []

/-- `RWB1Entity.device_info`. -/
def deviceInfo (deviceId : String) (data : Option (Dict String Json)) :
    Except PyError DeviceInfo := do
  let identity := (coordinatorGet data "identity").or (.obj [])
  let mac ← identity.getAttr "mac"
  let model ← identity.getAttr "model"
  let firmware ← identity.getAttr "firmware"
  let connections ← macConnections mac
  pure {
    identifiers := [("sot_rwb1", deviceId)]
    name := "RWB1 DTU " ++ deviceId
    manufacturer := "Easun / Solar of Things"
    model := model.or (.str "RWB1")
    swVersion := firmware
    connections := connections }

/-! ## What the messages say -/

/-- The body of an identity message that is handled. -/
def NetworkCallback.identity (deviceId : String) : NetworkCallback → Option (List (String × Json))
  | message m =>
      match m.routed deviceId with
      | some (.dtuPropPost, .obj body) => some body
      | _ => none
  | _ => none

/-- The body of the last identity message. -/
def lastIdentity (deviceId : String) (events : List NetworkCallback) :
    Option (List (String × Json)) :=
  (events.filterMap (NetworkCallback.identity deviceId)).getLast?

/-- A field of a body. -/
def bodyField (body : List (String × Json)) (key : String) : Json := (body.lookup key).getD .null

/-- What an identity message says: the device, its model and firmware, and its address
unless it is missing or empty.  A list or dictionary with anything in it is refused. -/
def describe (deviceId : String) (identity : Option (List (String × Json))) :
    Except PyError DeviceInfo :=
  let body := identity.getD []
  match bodyField body "mc" with
  | .arr (_ :: _) | .obj (_ :: _) => .error .typeError
  | mac => .ok {
      identifiers := [("sot_rwb1", deviceId)]
      name := "RWB1 DTU " ++ deviceId
      manufacturer := "Easun / Solar of Things"
      model := if (bodyField body "md").truthy then bodyField body "md" else .str "RWB1"
      swVersion := bodyField body "sv"
      connections := if mac.truthy then [("mac", mac)] else [] }

/-- What the bridge keeps of an identity message. -/
def identityValue (body : List (String × Json)) : Json :=
  .obj [("model", bodyField body "md"), ("firmware", bodyField body "sv"),
    ("mac", bodyField body "mc"), ("ip", bodyField body "ip")]

theorem get_identity_ingest (b : Bridge) (body : Json) :
    (ingest b body).state.get "identity" = b.state.get "identity" := by
  rw [ingest, effects_ingestTelemetry]
  cases hvalues : decodedValues body with
  | none => rfl
  | some values =>
      have hkey : values.get "identity" = none := by
        by_contra hsome
        have htelemetry := isTelemetryKey_of_decodedValues hvalues
          (Option.isSome_iff_ne_none.mpr hsome)
        exact htelemetry.ne.2 (by decide)
      simp [get_perform_telemetryEffects, hkey]

/-- Identity messages replace what is kept, and nothing else touches it. -/
theorem get_identity_handle (deviceId : String) (b : Bridge) (cb : NetworkCallback) :
    (b.handle deviceId cb).state.get "identity" =
      match cb.identity deviceId with
      | some body => some (identityValue body)
      | none => b.state.get "identity" := by
  cases cb with
  | connect rc draws =>
      exact congrArg (fun state => state.get "identity") (handle_connect deviceId b rc draws).2
  | disconnect => exact Dict.get_set_of_ne _ _ (by decide)
  | message m =>
      rw [state_handle_message, NetworkCallback.identity, Message.writes]
      cases m.routed deviceId with
      | none => rfl
      | some routed =>
          obtain ⟨route, body⟩ := routed
          cases route with
          | propPost | rpcReply => exact get_identity_ingest b body
          | unhandled => rfl
          | eventPost =>
              cases body with
              | obj fields => simp [Bridge.perform, Dict.get_set]
              | null | bool | int | float | str | arr => rfl
          | dtuPropPost =>
              cases body with
              | obj fields => exact Dict.get_set_self _ _ _
              | null | bool | int | float | str | arr => rfl

theorem get_identity_after (deviceId : String) (events : List NetworkCallback) :
    (Bridge.after deviceId events).state.get "identity" =
      (lastIdentity deviceId events).map identityValue := by
  induction events using List.reverseRecOn with
  | nil => rfl
  | append_singleton events cb ih =>
      rw [after_concat, get_identity_handle, ih, lastIdentity, lastIdentity, List.filterMap_append]
      cases hidentity : cb.identity deviceId with
      | none => simp [hidentity]
      | some body => simp [hidentity]

/-! ## The description -/

/-- Data that agrees with the callbacks on the identity has what the last one said. -/
theorem Agrees.identity_eq {deviceId : String} {data : Option (Dict String Json)}
    {events : List NetworkCallback} (h : Agrees deviceId data "identity" events) :
    coordinatorGet data "identity" =
      ((lastIdentity deviceId events).map identityValue).getD .null := by
  rw [← get_identity_after]
  rcases h with ⟨d, rfl, hget⟩ | ⟨rfl, hinit⟩
  · rw [coordinatorGet, Option.bind_some, hget]
  · rw [hinit]
    rfl

theorem macConnections_of_hashable {mac : Json} (h : mac.hashable = true) :
    macConnections mac = .ok (if mac.truthy then [("mac", mac)] else []) := by
  rw [macConnections, if_pos h]
  split <;> rfl

theorem macConnections_eq (mac : Json) :
    macConnections mac =
      match mac with
      | .arr (_ :: _) | .obj (_ :: _) => .error .typeError
      | mac => .ok (if mac.truthy then [("mac", mac)] else []) := by
  cases mac with
  | arr items => cases items <;> rfl
  | obj fields => cases fields <;> rfl
  | null | bool | int | float | str => exact macConnections_of_hashable rfl

/-- The property computes the description. -/
theorem deviceInfo_eq {deviceId : String} {data : Option (Dict String Json)}
    {identity : Option (List (String × Json))}
    (h : coordinatorGet data "identity" = (identity.map identityValue).getD .null) :
    deviceInfo deviceId data = describe deviceId identity := by
  rw [deviceInfo, h]
  cases identity with
  | none => rfl
  | some body =>
      have hself : (identityValue body).or (.obj []) = identityValue body := rfl
      have hmac : (identityValue body).getAttr "mac" = .ok (bodyField body "mc") := rfl
      have hmodel : (identityValue body).getAttr "model" = .ok (bodyField body "md") := rfl
      have hfirmware : (identityValue body).getAttr "firmware" = .ok (bodyField body "sv") := rfl
      dsimp only [Option.map_some, Option.getD_some]
      rw [hself, hmac, hmodel, hfirmware, describe]
      dsimp only [Option.getD_some]
      simp only [bind, Except.bind]
      rw [macConnections_eq]
      cases bodyField body "mc" with
      | arr items => cases items <;> rfl
      | obj fields => cases fields <;> rfl
      | null | bool | int | float | str => rfl

/-- **The device is described.**  At every moment the description is that of the last
identity message among a first part of the callbacks received, and between callbacks,
with no notification queued, among all of them. -/
theorem device_info_described {deviceId : String} {restored : Shown}
    {history : List (World × Event)} {w : World}
    (h : (machine deviceId).Run PushAssumptions (World.init restored) history w) :
    (∃ n ≤ (callbacksIn history).length, deviceInfo deviceId w.data =
      describe deviceId (lastIdentity deviceId ((callbacksIn history).take n))) ∧
    (w.thread = [] → .callback .notify ∉ w.ready → deviceInfo deviceId w.data =
      describe deviceId (lastIdentity deviceId (callbacksIn history))) := by
  constructor
  · have htracks := tracks_observed h "identity"
    refine ⟨(observed "identity" history).stored, ?_, deviceInfo_eq htracks.agrees.identity_eq⟩
    exact (htracks.stored.trans (written_le _ _ _).2).trans_eq htracks.received
  · intro hidle hqueue
    have hagrees : Agrees deviceId w.data "identity" (callbacksIn history) :=
      agrees_quiet h hidle hqueue (by simp)
    exact deviceInfo_eq hagrees.identity_eq

/-- A list in place of the address: the entities cannot say what their device is. -/
theorem device_info_described_list :
    ∃ history w, (machine "x").Run PushAssumptions (World.init fun _ => none) history w ∧
      (deviceInfo "x" w.data).isOk = false := by
  have hreplay : ((machine "x").replay PushAssumptions (World.init fun _ => none)
      [.network (.message ⟨"dtu/x/pub/event/dtu_prop_post",
          .ok (.obj [("c", .int 21), ("b", .obj [("md", .str "RWB1"), ("mc", .arr [.int 1])])]),
          ⟨"token", "nonce", .plain⟩⟩), .thread, .thread, .loop]).any
      (fun r => r.2.thread.isEmpty && r.2.ready.isEmpty &&
        !(describe "x" (lastIdentity "x" (callbacksIn r.1))).isOk) = true := by
    decide +kernel
  obtain ⟨r, hr, htest⟩ := (Option.any_eq_true _ _).mp hreplay
  simp only [Bool.and_eq_true, List.isEmpty_iff, Bool.not_eq_true'] at htest
  obtain ⟨⟨hthread, hready⟩, hraises⟩ := htest
  have hrun := Machine.Run.nil.replay hr
  refine ⟨_, _, hrun, ?_⟩
  rw [(device_info_described hrun).2 hthread (by simp [hready]), List.nil_append]
  exact hraises

end SotRwb1
