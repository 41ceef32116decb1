import SotRwb1.Bridge.Dispatch
import SotRwb1.Protocol.Channels

/-!
# Acknowledging the dongle's pushes

A push on one of the two event topics is answered on the reply topic of its kind
exactly when the body is empty or a dictionary, the entries of a channel list are
dictionaries, an event post does not carry the command code of a telemetry post, and
the answer can be encoded.  Otherwise the handler raises before it answers, or answers
on the other topic.

## Main definitions

* `Push` — the two kinds of push, with their topics.
* `Push.reply` — the answer a push is owed.
* `Push.Answerable` — the condition under which it is given.
-/

namespace SotRwb1

open PyLib

/-- The pushes the dongle wants acknowledged. -/
inductive Push where
  | propPost
  | eventPost
  deriving DecidableEq

namespace Push

/-- The topic suffix a push arrives on. -/
def suffix : Push → String
  | propPost => pubEventPropPost
  | eventPost => pubEventEventPost

/-- The topic its reply goes to. -/
def replyTopic (deviceId : String) : Push → String
  | propPost => topicPropPostReply deviceId
  | eventPost => topicEventPostReply deviceId

/-- A push as it arrives: on its topic, with a payload that parses to a JSON
object. -/
def message (deviceId : String) (p : Push) (fields : List (String × Json)) (draws : Draws) :
    Message :=
  ⟨pubPrefix deviceId ++ p.suffix, .ok (.obj fields), draws⟩

/-- The answer owed to a push with token `t` and index `i`: its command code, or
`0` if it has none, the same token, the next index, an empty body and `e = 0`. -/
def reply (deviceId : String) (p : Push) (fields : List (String × Json)) (t : String) (i : ℤ)
    (draws : Draws) : String × Json :=
  (p.replyTopic deviceId,
    .obj [("c", (fields.lookup "c").getD (.int 0)), ("t", .str t), ("s", .str draws.nonce),
      ("i", .int (i + 1)), ("b", .obj []), ("e", .int 0)])

/-- The push can be answered: its body is missing, falsy or a dictionary; for a
telemetry post every entry of a channel list is a dictionary, for an event post the
command code is not the telemetry post's; the command code can be written inside a
dictionary, and the next index has no more digits than `str` converts. -/
def Answerable (p : Push) (fields : List (String × Json)) (i : ℤ) (encoder : Encoder) : Prop :=
  (bodyOf fields).isObj = true ∧
    (match p with
    | propPost => ∀ entries, (bodyOf fields).getAttr "ct" = .ok (.arr entries) →
        ∀ e ∈ entries, e.isObj = true
    | eventPost => ((fields.lookup "c").getD .null).eqInt cmdDevPropPost = false) ∧
    writable (encoder.limit - 1) ((fields.lookup "c").getD (.int 0)) = true ∧
    (Nat.digits 10 (i + 1).natAbs).length ≤ maxStrDigits

end Push

/-- The messages a callback publishes. -/
def publishedBy (a : Action) : List (String × Json) := a.effects.filterMap Effect.published

theorem topicPropPostReply_ne (deviceId : String) :
    topicPropPostReply deviceId ≠ topicEventPostReply deviceId := by
  intro h
  have hlist := congrArg String.toList h
  simp only [topicPropPostReply, topicEventPostReply, String.toList_append] at hlist
  exact absurd (List.append_cancel_left hlist) (by decide)

/-- The acknowledgement of an envelope with a token and an integer index. -/
theorem ackEnvelope_eq {fields : List (String × Json)} {t : String} {i : ℤ} (draws : Draws)
    (ht : fields.lookup "t" = some (.str t)) (hne : t ≠ "")
    (hi : fields.lookup "i" = some (.int i)) :
    ackEnvelope fields draws =
      .obj [("c", (fields.lookup "c").getD (.int 0)), ("t", .str t), ("s", .str draws.nonce),
        ("i", .int (i + 1)), ("b", .obj []), ("e", .int 0)] := by
  simp [ackEnvelope, buildEnvelope, ht, hi, replyIndex, Json.asInt, Json.truthy, hne]

/-- With a token and an integer index, the command code and the next index decide
whether the acknowledgement can be encoded. -/
theorem ackWritable_iff {fields : List (String × Json)} {t : String} {i : ℤ} (encoder : Encoder)
    (ht : fields.lookup "t" = some (.str t)) (hi : fields.lookup "i" = some (.int i)) :
    ackWritable fields encoder = true ↔
      writable (encoder.limit - 1) ((fields.lookup "c").getD (.int 0)) = true ∧
        (Nat.digits 10 (i + 1).natAbs).length ≤ maxStrDigits := by
  simp [ackWritable, ht, hi, replyIndex, Json.asInt, writable_int, writable_str]

/-- An index whose successor cannot be written. -/
theorem not_ackWritable {fields : List (String × Json)} {i : ℤ}
    (hi : fields.lookup "i" = some (.int i)) (h : ∀ limit, writable limit (.int (i + 1)) = false)
    (encoder : Encoder) : ackWritable fields encoder = false := by
  simp [ackWritable, hi, replyIndex, Json.asInt, h]

/-! ## Ingestion publishes nothing -/

theorem publishedBy_ingestTelemetry (body : Json) : publishedBy (ingestTelemetry body) = [] :=
  filterMap_ingestTelemetry (fun _ _ => rfl) rfl body

/-- Ingestion returns exactly on a dictionary whose channels are dictionaries. -/
theorem ingestTelemetry_total_iff (body : Json) :
    (ingestTelemetry body).Total ↔ body.isObj = true ∧
      ∀ entries, body.getAttr "ct" = .ok (.arr entries) → ∀ e ∈ entries, e.isObj = true := by
  cases body with
  | obj fields =>
      have hobj : (Json.obj fields).isObj = true := rfl
      cases hct : (fields.lookup "ct").getD .null with
      | arr entries =>
          have hattr : (Json.obj fields).getAttr "ct" = .ok (.arr entries) := by
            rw [Json.getAttr_obj, hct]
          rw [ingestTelemetry_of_arr hattr (Json.getAttr_obj _ _), hattr]
          constructor
          · intro htotal
            refine ⟨rfl, ?_⟩
            intro entries' heq e he
            cases heq
            by_contra hbad
            obtain ⟨err, herr⟩ := decodeCt_of_not_isObj ⟨e, he, by simpa using hbad⟩
            obtain ⟨u, hu⟩ := htotal
            rw [ingestEntries, herr] at hu
            cases hu
          · intro h
            rw [ingestEntries, decodeCt_of_isObj (h.2 entries rfl)]
            dsimp only
            split
            · exact Handler.total_pure _
            · exact Handler.total_emits _
      | null | bool | int | float | str | obj =>
          rw [ingestTelemetry_of_not_arr (Json.getAttr_obj _ _) (by simp [hct])]
          exact ⟨fun _ => ⟨rfl, by simp [hct]⟩, fun _ => Handler.total_pure _⟩
  | null | bool | int | float | str | arr =>
      rw [ingestTelemetry_of_not_isObj rfl]
      constructor
      · intro htotal
        obtain ⟨u, hu⟩ := htotal
        cases hu
      · intro h
        cases h.1

/-! ## The branches -/

theorem publishedBy_ack (topic : String) (fields : List (String × Json)) (draws : Draws) :
    publishedBy (ack topic (.obj fields) draws) =
      if ackWritable fields draws.encoder then [(topic, ackEnvelope fields draws)] else [] := by
  cases hack : ackWritable fields draws.encoder with
  | true =>
      rw [ack_of_writable hack]
      rfl
  | false =>
      obtain ⟨e, he⟩ := ack_of_not_writable hack topic
      rw [he]
      rfl

/-- Acknowledging after an action that publishes nothing: it happens exactly when the
action returns and the acknowledgement can be encoded. -/
theorem publishedBy_then_ack {m : Action} (h : publishedBy m = []) (topic : String)
    (fields : List (String × Json)) (draws : Draws) :
    (m.Total ∧ ackWritable fields draws.encoder = true →
      publishedBy (m >>= fun _ => ack topic (.obj fields) draws) =
        [(topic, ackEnvelope fields draws)]) ∧
    (¬ (m.Total ∧ ackWritable fields draws.encoder = true) →
      publishedBy (m >>= fun _ => ack topic (.obj fields) draws) = []) := by
  have hack := publishedBy_ack topic fields draws
  obtain ⟨es, r⟩ := m
  have hes : es.filterMap Effect.published = [] := h
  cases r with
  | error e =>
      refine ⟨fun hboth => ?_, fun _ => h⟩
      obtain ⟨⟨u, hu⟩, -⟩ := hboth
      cases hu
  | ok u =>
      have hsplit :
          publishedBy ((⟨es, .ok u⟩ : Action) >>= fun _ => ack topic (.obj fields) draws) =
            publishedBy (ack topic (.obj fields) draws) := by
        rw [publishedBy, Handler.effects_bind, List.filterMap_append, hes, List.nil_append,
          publishedBy]
      rw [hsplit, hack]
      refine ⟨fun hboth => if_pos hboth.2, fun hnot => if_neg ?_⟩
      exact fun hwritable => hnot ⟨⟨u, rfl⟩, hwritable⟩

theorem publishedBy_handleEventPost (deviceId : String) (body : Json)
    (fields : List (String × Json)) (draws : Draws) :
    publishedBy (handleEventPost deviceId body fields draws) =
      if body.isObj && ackWritable fields draws.encoder then
        [(topicEventPostReply deviceId, ackEnvelope fields draws)]
      else [] := by
  cases body with
  | obj bodyFields =>
      cases hack : ackWritable fields draws.encoder with
      | true =>
          rw [handleEventPost_of_writable hack]
          rfl
      | false =>
          obtain ⟨e, he⟩ := handleEventPost_of_not_writable hack deviceId bodyFields
          rw [he]
          rfl
  | null | bool | int | float | str | arr => rfl

theorem publishedBy_onMessage (deviceId : String) (p : Push) (fields : List (String × Json))
    (draws : Draws) :
    publishedBy (onMessage deviceId (p.message deviceId fields draws)) =
      publishedBy (dispatch deviceId p.suffix (.obj fields) draws) := by
  rw [publishedBy, Push.message, effects_onMessage_obj, topicSuffix_pubPrefix, publishedBy]

theorem routeOf_suffix (p : Push) (c : Json) :
    routeOf p.suffix c =
      match p with
      | .propPost => .propPost
      | .eventPost => if c.eqInt cmdDevPropPost then .propPost else .eventPost := by
  cases p with
  | propPost => simp [routeOf, Push.suffix]
  | eventPost =>
      have hne : pubEventEventPost ≠ pubEventPropPost := by decide
      simp [routeOf, Push.suffix, hne]

/-- A push whose acknowledgement cannot be encoded is answered on no topic. -/
theorem publishedBy_of_not_writable {fields : List (String × Json)} {draws : Draws}
    (h : ackWritable fields draws.encoder = false) (deviceId : String) (p : Push) :
    publishedBy (onMessage deviceId (p.message deviceId fields draws)) = [] := by
  have hprop := (publishedBy_then_ack (publishedBy_ingestTelemetry (bodyOf fields))
    (topicPropPostReply deviceId) fields draws).2 fun hboth => by simp [h] at hboth
  rw [publishedBy_onMessage, dispatch_obj, routeOf_suffix]
  cases p with
  | propPost => exact hprop
  | eventPost =>
      cases hc : ((fields.lookup "c").getD .null).eqInt cmdDevPropPost with
      | true => exact hprop
      | false =>
          simp only [Bool.false_eq_true, if_false]
          rw [publishedBy_handleEventPost, h, Bool.and_false, if_neg Bool.false_ne_true]

/-- **Acknowledgement.**  A push whose payload is an object with a non-empty
string token and an integer index is answered with exactly one message, the reply
it is owed, if and only if it is answerable. -/
theorem push_acknowledged_iff (deviceId : String) (p : Push) (fields : List (String × Json))
    (t : String) (i : ℤ) (draws : Draws) (ht : fields.lookup "t" = some (.str t)) (hne : t ≠ "")
    (hi : fields.lookup "i" = some (.int i)) :
    publishedBy (onMessage deviceId (p.message deviceId fields draws)) =
        [p.reply deviceId fields t i draws] ↔
      p.Answerable fields i draws.encoder := by
  have hack := ackEnvelope_eq draws ht hne hi
  have hprop := publishedBy_then_ack (publishedBy_ingestTelemetry (bodyOf fields))
    (topicPropPostReply deviceId) fields draws
  have htotal := ingestTelemetry_total_iff (bodyOf fields)
  rw [publishedBy_onMessage, dispatch_obj, routeOf_suffix]
  cases p with
  | propPost =>
      simp only [Push.Answerable, Push.reply, Push.replyTopic, ← hack]
      rw [← and_assoc, ← htotal, ← ackWritable_iff draws.encoder ht hi]
      constructor
      · intro hpub
        by_contra hnot
        rw [hprop.2 hnot] at hpub
        cases hpub
      · exact hprop.1
  | eventPost =>
      simp only [Push.Answerable, Push.reply, Push.replyTopic, ← hack]
      rw [← ackWritable_iff draws.encoder ht hi]
      cases hc : ((fields.lookup "c").getD .null).eqInt cmdDevPropPost with
      | true =>
          -- the push is taken for a telemetry post, and answered as one if at all
          simp only [if_true, Bool.true_eq_false, false_and, and_false, iff_false]
          by_cases hboth : (ingestTelemetry (bodyOf fields)).Total ∧
              ackWritable fields draws.encoder = true
          · rw [hprop.1 hboth]
            intro h
            exact topicPropPostReply_ne deviceId (congrArg Prod.fst (List.cons.inj h).1)
          · rw [hprop.2 hboth]
            intro h
            cases h
      | false =>
          simp only [Bool.false_eq_true, if_false, true_and]
          rw [publishedBy_handleEventPost]
          cases (bodyOf fields).isObj <;> cases ackWritable fields draws.encoder <;> simp

/-- A telemetry post with an ordinary body and index: it is answered. -/
theorem push_acknowledged_example :
    publishedBy (onMessage "x" (Push.propPost.message "x"
      [("c", .int 1), ("t", .str "a"), ("i", .int 101), ("b", .obj [("ct", .arr [.obj []])])]
      ⟨"token", "nonce", .plain⟩)) =
        [Push.propPost.reply "x" [("c", .int 1), ("t", .str "a"), ("i", .int 101),
          ("b", .obj [("ct", .arr [.obj []])])] "a" 101 ⟨"token", "nonce", .plain⟩] :=
  (push_acknowledged_iff "x" .propPost _ "a" 101 ⟨"token", "nonce", .plain⟩ rfl (by decide)
    rfl).mpr
    ⟨rfl, by
      intro entries h e he
      cases h
      rw [List.mem_singleton.mp he]
      rfl, rfl, by decide +kernel⟩

/-- A telemetry post with an entry that is not a dictionary is not answered at
all, an event post with command code 1 is answered on the other topic, and one with
an index of 4300 nines is not answered either: the next index has a digit too many. -/
theorem push_unacknowledged :
    publishedBy (onMessage "x" (Push.propPost.message "x"
      [("c", .int 1), ("t", .str "a"), ("i", .int 101), ("b", .obj [("ct", .arr [.null])])]
      ⟨"token", "nonce", .plain⟩)) = [] ∧
    (publishedBy (onMessage "x" (Push.eventPost.message "x"
      [("c", .int 1), ("t", .str "a"), ("i", .int 101), ("b", .obj [])]
      ⟨"token", "nonce", .plain⟩))).map Prod.fst = ["dtu/x/sub/event/dev_prop_post_reply"] ∧
    publishedBy (onMessage "x" (Push.eventPost.message "x"
      [("c", .int 2), ("t", .str "a"), ("i", .int (10 ^ 4300 - 1)), ("b", .obj [])]
      ⟨"token", "nonce", .plain⟩)) = [] := by
  have hlong : ∀ limit, writable limit (.int (10 ^ 4300 - 1 + 1)) = false := by
    intro limit
    rw [sub_add_cancel]
    exact not_writable_pow le_rfl limit
  exact ⟨rfl, by decide +kernel,
    publishedBy_of_not_writable (not_ackWritable rfl hlong _) "x" .eventPost⟩

end SotRwb1
