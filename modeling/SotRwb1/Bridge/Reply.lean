import SotRwb1.Bridge.Ack

/-!
# The replies a message brings

A message on the reply route hands its payload to the call that waits for its token:
`None` for a dump that could be ingested, and otherwise the `co`, if there is one.
Nothing else a message does is of any concern to the calls.

## Main definitions

* `answerOf`, `Message.answer` — the payload of a body, and of a message.
* `filterMap_onMessage` — what a message does apart from writing and publishing.
-/

namespace SotRwb1

open PyLib

/-- What the handler of a reply hands over to `_resolve_pending`: `None` for a dump
it could ingest, and otherwise the `co`, if there is one. -/
def answerOf (body : Json) : Option Json :=
  match body with
  | .obj fields =>
      match (fields.lookup "ct").getD .null with
      | .arr entries => if entries.all Json.isObj then some .null else none
      | _ => fields.lookup "co"
  | _ => none

/-- The reply a message brings: its token and the payload. -/
def Message.answer (deviceId : String) (m : Message) : Option (Json × Json) :=
  match m.loaded with
  | .ok (.obj fields) =>
      match routeOf (topicSuffix deviceId m.topic) ((fields.lookup "c").getD .null) with
      | .rpcReply => (answerOf (bodyOf fields)).map fun co => ((fields.lookup "t").getD .null, co)
      | _ => none
  | _ => none

section

variable {β : Type} {p : Effect → Option β}

theorem filterMap_ack (hpublish : ∀ topic env, p (.publish topic env) = none) (topic : String)
    (fields : List (String × Json)) (draws : Draws) :
    (ack topic (.obj fields) draws).effects.filterMap p = [] := by
  cases hack : ackWritable fields draws.encoder with
  | true =>
      rw [ack_of_writable hack]
      simp [hpublish]
  | false =>
      obtain ⟨e, he⟩ := ack_of_not_writable hack topic
      rw [he]
      rfl

theorem filterMap_handleEventPost (hstate : ∀ key value, p (.setState key value) = none)
    (hpublish : ∀ topic env, p (.publish topic env) = none) (hnotify : p (.callSoon .notify) = none)
    (deviceId : String) (body : Json) (fields : List (String × Json)) (draws : Draws) :
    (handleEventPost deviceId body fields draws).effects.filterMap p = [] := by
  cases body with
  | obj bodyFields =>
      cases hack : ackWritable fields draws.encoder with
      | true =>
          rw [handleEventPost_of_writable hack]
          simp [eventEffects, hstate, hpublish, hnotify]
      | false =>
          obtain ⟨e, he⟩ := handleEventPost_of_not_writable hack deviceId bodyFields
          rw [he]
          simp [eventEffects, hstate]
  | null | bool | int | float | str | arr => rfl

theorem filterMap_ingestIdentity (hstate : ∀ key value, p (.setState key value) = none)
    (hnotify : p (.callSoon .notify) = none) (body : Json) :
    (ingestIdentity body).effects.filterMap p = [] := by
  cases body with
  | obj fields => simp [ingestIdentity, hstate, hnotify]
  | null | bool | int | float | str | arr => rfl

/-- The handler of a reply schedules its answer, if it has one. -/
theorem filterMap_handleRpcReply (hstate : ∀ key value, p (.setState key value) = none)
    (hnotify : p (.callSoon .notify) = none) (token body : Json) :
    (handleRpcReply token body).effects.filterMap p =
      ((answerOf body).bind fun co => p (.callSoon (.resolvePending token co))).toList := by
  cases body with
  | obj fields =>
      have htotal := ingestTelemetry_total_iff (.obj fields)
      rw [handleRpcReply, Json.getAttr_obj, Handler.ofExcept_ok_bind, answerOf]
      rw [Json.getAttr_obj] at htotal
      cases hct : (fields.lookup "ct").getD .null with
      | arr entries =>
          have hiff : (ingestTelemetry (.obj fields)).Total ↔ entries.all Json.isObj = true := by
            rw [htotal, hct, List.all_eq_true]
            simp [Json.isObj]
          dsimp only
          rw [Handler.effects_bind, List.filterMap_append,
            filterMap_ingestTelemetry hstate hnotify, List.nil_append]
          cases hresult : (ingestTelemetry (.obj fields)).result with
          | ok u =>
              rw [if_pos (hiff.mp ⟨u, hresult⟩)]
              cases hp : p (.callSoon (.resolvePending token .null)) <;> simp [hp]
          | error err =>
              have hraises : ¬ (ingestTelemetry (.obj fields)).Total := by
                intro h
                obtain ⟨u, hu⟩ := h
                rw [hresult] at hu
                cases hu
              rw [if_neg fun hall => hraises (hiff.mpr hall)]
              rfl
      | null | bool | int | float | str | obj =>
          dsimp only
          cases fields.lookup "co" with
          | none => rfl
          | some co => cases hp : p (.callSoon (.resolvePending token co)) <;> simp [hp]
  | null | bool | int | float | str | arr => rfl

/-- **What a message has the loop do**, apart from notifying: process the reply it brings. -/
theorem filterMap_onMessage (hstate : ∀ key value, p (.setState key value) = none)
    (hpublish : ∀ topic env, p (.publish topic env) = none) (hnotify : p (.callSoon .notify) = none)
    (deviceId : String) (m : Message) :
    (onMessage deviceId m).effects.filterMap p =
      ((m.answer deviceId).bind fun reply =>
        p (.callSoon (.resolvePending reply.1 reply.2))).toList := by
  obtain ⟨topic, loaded, draws⟩ := m
  cases loaded with
  | error e => cases e <;> rfl
  | ok data =>
      cases data with
      | obj fields =>
          rw [effects_onMessage_obj, dispatch_obj, Message.answer]
          dsimp only
          cases routeOf (topicSuffix deviceId topic) ((fields.lookup "c").getD .null) with
          | propPost =>
              dsimp only
              rw [Handler.effects_bind, List.filterMap_append,
                filterMap_ingestTelemetry hstate hnotify, List.nil_append]
              split
              · exact filterMap_ack hpublish _ _ _
              · rfl
          | eventPost => exact filterMap_handleEventPost hstate hpublish hnotify _ _ _ _
          | dtuPropPost => exact filterMap_ingestIdentity hstate hnotify _
          | rpcReply =>
              dsimp only
              rw [filterMap_handleRpcReply hstate hnotify, Option.bind_map]
              rfl
          | unhandled => rfl
      | null | bool | int | float | str | arr => rfl

end

end SotRwb1
