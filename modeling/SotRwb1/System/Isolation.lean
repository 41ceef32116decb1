import SotRwb1.Lib.Topic
import SotRwb1.Setup.ConfigFlow
import SotRwb1.System.Store

/-!
# Device isolation

The broker delivers to a bridge the messages whose topic its subscription matches.
Two bridges on one broker are isolated when neither wildcards nor separators in their
ids make one's subscription reach into the other's topics.

## Main definitions

* `Nested` — an id that lies in the `pub` subtree of another.
* `delivered`, `apartFrom` — the events that reach a bridge, or have nothing to do
  with a device.
* `Isolated` — no topic, message or state of one device reaches the other.
-/

namespace SotRwb1

open Mqtt PyLib

/-! ## Subscriptions -/

/-- The second id begins, level by level, with the first and `pub`. -/
def Nested (id₁ id₂ : String) : Prop := (id₁ ++ "/pub/").toList <+: (id₂ ++ "/").toList

instance (id₁ id₂ : String) : Decidable (Nested id₁ id₂) :=
  inferInstanceAs (Decidable ((id₁ ++ "/pub/").toList <+: (id₂ ++ "/").toList))

/-- The subscription matches the topics at or below its root. -/
theorem topicMatches_pub_iff {id₁ : String} (h : Plain id₁.toList) (id₂ rest : String) :
    topicMatches (topicPubWildcard id₁) (pubPrefix id₂ ++ rest) = true ↔
      (id₁ ++ "/pub/").toList <+: (id₂ ++ "/pub/" ++ rest ++ "/").toList := by
  have hroot : (topicPubWildcard id₁).toList = ("dtu/" ++ id₁ ++ "/pub").toList ++ ['/', '#'] := by
    simp [topicPubWildcard]
  have hplain : Plain ("dtu/" ++ id₁ ++ "/pub").toList := by
    simp only [String.toList_append, plain_append_iff]
    exact ⟨⟨by decide, h⟩, by decide⟩
  have hleft : ("dtu/" ++ id₁ ++ "/pub").toList ++ ['/'] =
      "dtu/".toList ++ (id₁ ++ "/pub/").toList := by simp
  have hright : (pubPrefix id₂ ++ rest).toList ++ ['/'] =
      "dtu/".toList ++ (id₂ ++ "/pub/" ++ rest ++ "/").toList := by simp [pubPrefix]
  rw [topicMatches, hroot, matchLevels_subtree_iff hplain, hleft, hright,
    List.prefix_append_right_inj]

/-- When two `pub` subtrees of different ids meet, one id is nested in the other. -/
theorem nested_of_isPrefix {id₁ id₂ : String} (hne : id₁ ≠ id₂)
    (h : (id₁ ++ "/pub/").toList <+: (id₂ ++ "/pub/").toList) : Nested id₁ id₂ := by
  have hlevels : ∀ id : String, levels (id ++ "/pub").toList = levels id.toList ++ [['p', 'u', 'b']] := by
    intro id
    have hpub : levels ['p', 'u', 'b'] = [['p', 'u', 'b']] := levels_of_notMem (by decide)
    rw [← hpub, ← levels_append_cons, String.toList_append]
    rfl
  have hslash : ∀ id : String, (id ++ "/pub/").toList = (id ++ "/pub").toList ++ ['/'] := by simp
  rw [hslash, hslash, ← levels_isPrefix_iff, hlevels id₂, List.prefix_concat_iff] at h
  rcases h with heq | h
  · rw [hlevels] at heq
    have hid := levels_injective (List.append_cancel_right heq)
    exact absurd (String.toList_inj.mp hid) hne
  · rw [levels_isPrefix_iff, ← hslash] at h
    simpa [Nested] using h

/-- The subscription of one id stays out of the topics of another exactly when
neither is nested in the other. -/
theorem unmatched_iff {id₁ id₂ : String} (h : Plain id₁.toList) (hne : id₁ ≠ id₂) :
    (∀ rest, topicMatches (topicPubWildcard id₁) (pubPrefix id₂ ++ rest) = false) ↔
      ¬Nested id₁ id₂ ∧ ¬Nested id₂ id₁ := by
  simp only [← Bool.not_eq_true, topicMatches_pub_iff h]
  constructor
  · intro hnone
    constructor
    · intro hnested
      apply hnone ""
      refine hnested.trans ⟨"pub//".toList, ?_⟩
      simp
    · rintro ⟨rest, hrest⟩
      apply hnone (String.ofList rest ++ "pub")
      refine ⟨[], ?_⟩
      have heq := congrArg (· ++ "pub/".toList) hrest
      simpa using heq.symm
  · rintro ⟨hnested, hnested'⟩ rest hmatch
    have hown : (id₂ ++ "/pub/").toList <+: (id₂ ++ "/pub/" ++ rest ++ "/").toList :=
      ⟨(rest ++ "/").toList, by simp⟩
    rcases List.prefix_or_prefix_of_prefix hmatch hown with hpre | hpre
    · exact hnested (nested_of_isPrefix hne hpre)
    · exact hnested' (nested_of_isPrefix hne.symm hpre)

/-! ## What a bridge hears -/

/-- The events that reach a bridge: the broker delivers what its subscription matches. -/
def delivered (deviceId : String) : Event → Bool
  | .network (.message m) => topicMatches (topicPubWildcard deviceId) m.topic
  | _ => true

/-- The events that are no publication under the `pub` topics of a device. -/
def apartFrom (deviceId : String) : Event → Bool
  | .network (.message m) => !(pubPrefix deviceId).toList.isPrefixOf m.topic.toList
  | _ => true

/-- What a subscription does not match is not delivered. -/
theorem apartFrom_of_delivered {id₁ id₂ : String}
    (h : ∀ rest, topicMatches (topicPubWildcard id₁) (pubPrefix id₂ ++ rest) = false) (e : Event)
    (he : delivered id₁ e = true) : apartFrom id₂ e = true := by
  unfold apartFrom
  split
  · rename_i m
    rw [Bool.not_eq_true', Bool.eq_false_iff, ne_eq, List.isPrefixOf_iff_prefix]
    rintro ⟨rest, hrest⟩
    have htopic : m.topic = pubPrefix id₂ ++ String.ofList rest := by
      rw [← String.toList_inj, String.toList_append, String.toList_ofList, hrest]
    rw [delivered, htopic, h] at he
    cases he
  · rfl

/-! ## What a bridge publishes -/

theorem publish_notMem_telemetryEffects (values : Dict String Json) (ts : Json) (topic : String)
    (env : Json) : .publish topic env ∉ telemetryEffects values ts := by
  simp only [telemetryEffects, updateState, List.mem_append, List.mem_map, List.mem_singleton]
  rintro (((⟨kv, -, hkv⟩ | h) | h) | h)
  · cases hkv
  · cases h
  · split at h <;> simp at h
  · cases h

theorem publish_notMem_writes (deviceId : String) (m : Message) (topic : String) (env : Json) :
    .publish topic env ∉ m.writes deviceId := by
  have hingest : ∀ body, .publish topic env ∉ (ingestTelemetry body).effects := by
    intro body
    rw [effects_ingestTelemetry]
    split
    · exact publish_notMem_telemetryEffects _ _ topic env
    · exact List.not_mem_nil
  rw [Message.writes]
  split
  · exact hingest _
  · exact hingest _
  · simp
  · simp
  · exact List.not_mem_nil

/-- A network callback publishes on the topics of its device. -/
theorem mem_publishTopics_of_action {deviceId : String} {cb : NetworkCallback} {topic : String}
    {env : Json} (h : .publish topic env ∈ (cb.action deviceId).effects) :
    topic ∈ publishTopics deviceId := by
  cases cb with
  | connect rc draws =>
      rw [NetworkCallback.action, effects_onConnect] at h
      split at h
      · simp only [List.mem_cons, reduceCtorEq, Effect.publish.injEq, List.not_mem_nil, false_or,
          or_false] at h
        rw [h.1]
        simp [publishTopics]
      · simp at h
  | disconnect => simp [NetworkCallback.action, effects_onDisconnect] at h
  | message m =>
      obtain ⟨outward, houtward, heffects⟩ := effects_onMessage deviceId m
      rw [NetworkCallback.action, heffects, List.mem_append] at h
      rcases h with h | h
      · exact absurd h (publish_notMem_writes deviceId m topic env)
      · exact houtward _ h

/-- Nothing but topics of the device is published, or about to be by the network thread. -/
structure OnTopics (deviceId : String) (w : World) : Prop where
  published : ∀ e ∈ w.bridge.published, e.1 ∈ publishTopics deviceId
  thread : ∀ topic env, .publish topic env ∈ w.thread → topic ∈ publishTopics deviceId

/-- A job publishes nothing and leaves the network thread alone. -/
theorem job_published {w w' : World} {job : Job} (h : JobResult w job w') :
    w'.bridge.published = w.bridge.published ∧ w'.thread = w.thread := by
  cases h <;> exact ⟨rfl, rfl⟩

theorem OnTopics.publish {deviceId : String} {w w' : World} (h : OnTopics deviceId w)
    {topic : String} {env : Json} (htopic : topic ∈ publishTopics deviceId)
    (hpublished : w'.bridge.published = w.bridge.published ++ [(topic, env)])
    (hthread : w'.thread = w.thread) : OnTopics deviceId w' := by
  refine ⟨?_, hthread ▸ h.thread⟩
  intro e he
  rw [hpublished, List.mem_append, List.mem_singleton] at he
  rcases he with he | rfl
  · exact h.published e he
  · exact htopic

theorem OnTopics.step {deviceId : String} {w w' : World} {e : Event} (h : OnTopics deviceId w)
    (hstep : (machine deviceId).step w e = some w') : OnTopics deviceId w' := by
  have hrequest : topicRpcRequest deviceId ∈ publishTopics deviceId := by simp [publishTopics]
  cases step_result hstep with
  | network cb => exact ⟨h.published, fun _ _ hmem => mem_publishTopics_of_action hmem⟩
  | thread effect rest hthread =>
      have hrest : OnTopics deviceId { w with thread := rest } :=
        ⟨h.published, fun topic env hmem =>
          h.thread topic env (hthread ▸ List.mem_cons_of_mem effect hmem)⟩
      cases effect with
      | publish topic env =>
          have htopic := h.thread topic env (hthread ▸ List.mem_cons_self)
          exact hrest.publish htopic rfl rfl
      | setConnected | setState | subscribe | callSoon => exact ⟨hrest.published, hrest.thread⟩
  | loop job rest hqueued w' hjob =>
      obtain ⟨hpublished, hthread⟩ := job_published hjob
      exact ⟨hpublished ▸ h.published, hthread ▸ h.thread⟩
  | refresh draws published hfree =>
      change World.step deviceId w (.refresh draws) = some _ at hstep
      rw [World.step, if_neg (by simp [hfree])] at hstep
      split at hstep
      · cases hstep
        exact h.publish hrequest rfl rfl
      · rw [← Option.some.inj hstep]
        exact h
  | register id caller token ci draws => exact h.publish hrequest rfl rfl
  | refreshFails | startFails => exact h
  | store | refuse | wait | takeReply | timeout | cancel => exact ⟨h.published, h.thread⟩

/-- What a bridge publishes is legal: in no run does it publish on a topic with a
wildcard. -/
def PublishesPlain (deviceId : String) : Prop :=
  ∀ restored history w,
    (machine deviceId).Run (fun _ _ => True) (World.init restored) history w →
      ∀ e ∈ w.bridge.published, Plain e.1.toList

theorem plain_publishTopics {deviceId topic : String} (h : Plain deviceId.toList)
    (htopic : topic ∈ publishTopics deviceId) : Plain topic.toList := by
  have hbetween : ∀ pre post : String, Plain pre.toList → Plain post.toList →
      Plain (pre ++ deviceId ++ post).toList := by
    intro pre post hpre hpost
    simp only [String.toList_append, plain_append_iff]
    exact ⟨⟨hpre, h⟩, hpost⟩
  simp only [publishTopics, List.mem_cons, List.not_mem_nil, or_false] at htopic
  rcases htopic with rfl | rfl | rfl <;> exact hbetween _ _ (by decide) (by decide)

/-- Already the dump request after the first handshake tells. -/
theorem publishesPlain_iff (deviceId : String) :
    PublishesPlain deviceId ↔ Plain deviceId.toList := by
  constructor
  · intro h
    let draws : Draws := ⟨"token", "nonce", .plain⟩
    have hreplay : ∃ later w, (machine deviceId).replay (fun _ _ => True)
        (World.init fun _ => none)
        [.network (.connect 0 draws), .thread, .thread, .thread, .thread] = some (later, w) ∧
          ∃ env, w.bridge.published = [(topicRpcRequest deviceId, env)] :=
      ⟨_, _, rfl, _, rfl⟩
    obtain ⟨later, w, hreplay, env, hpublished⟩ := hreplay
    have hplain := h _ _ _ (Machine.Run.nil.replay hreplay) (topicRpcRequest deviceId, env)
      (by simp [hpublished])
    simp only [topicRpcRequest, String.toList_append, plain_append_iff] at hplain
    exact hplain.1.2
  · intro h restored history w hrun e he
    have hon : OnTopics deviceId w := by
      refine hrun.invariant _ ⟨by simp [World.init, Bridge.init], by simp [World.init]⟩ ?_
      intro s e s' hs _ hstep
      exact hs.step hstep
    exact plain_publishTopics h (hon.published e he)

/-! ## Isolation -/

/-- The bridge of the first id is isolated from the device of the second. -/
structure Isolated (id₁ id₂ : String) : Prop where
  /-- No topic below the second id's `pub` is matched. -/
  unmatched : ∀ rest, topicMatches (topicPubWildcard id₁) (pubPrefix id₂ ++ rest) = false
  /-- Traces that differ only in publications there lead to the same state. -/
  unaffected : ∀ (restored : Shown) (trace trace' : List Event),
    trace.filter (apartFrom id₂) = trace'.filter (apartFrom id₂) →
    (machine id₁).reached (World.init restored) (trace.filter (delivered id₁)) =
      (machine id₁).reached (World.init restored) (trace'.filter (delivered id₁))
  publishes₁ : PublishesPlain id₁
  publishes₂ : PublishesPlain id₂

theorem isolated_of_plain {id₁ id₂ : String} (hne : id₁ ≠ id₂) (h₁ : Plain id₁.toList)
    (h₂ : Plain id₂.toList) (hnested : ¬Nested id₁ id₂ ∧ ¬Nested id₂ id₁) : Isolated id₁ id₂ := by
  have hunmatched := (unmatched_iff h₁ hne).mpr hnested
  refine ⟨hunmatched, ?_, (publishesPlain_iff _).mpr h₁, (publishesPlain_iff _).mpr h₂⟩
  intro restored trace trace' htrace
  exact Machine.reached_filter_eq (apartFrom_of_delivered hunmatched) htrace

/-- An id without a separator is nested in no other. -/
theorem not_nested_of_notMem {id₁ id₂ : String} (h : '/' ∉ id₂.toList) : ¬Nested id₁ id₂ := by
  intro hnested
  have hle := List.Sublist.count_le '/' (List.IsPrefix.sublist hnested)
  simp only [String.toList_append, List.count_append, List.count_eq_zero_of_not_mem h] at hle
  have hone : List.count '/' "/".toList = 1 := by decide
  have htwo : List.count '/' "/pub/".toList = 2 := by decide
  omega

/-- Different DTU numbers are isolated. -/
theorem isolated_of_numeric {id₁ id₂ : String} (hne : id₁ ≠ id₂)
    (h₁ : ∀ c ∈ id₁.toList, c.isDigit = true) (h₂ : ∀ c ∈ id₂.toList, c.isDigit = true) :
    Isolated id₁ id₂ := by
  have hplain : ∀ id : String, (∀ c ∈ id.toList, c.isDigit = true) →
      Plain id.toList ∧ '/' ∉ id.toList := by
    intro id hid
    refine ⟨⟨?_, ?_⟩, ?_⟩ <;> exact fun hmem => absurd (hid _ hmem) (by decide)
  obtain ⟨hplain₁, hslash₁⟩ := hplain id₁ h₁
  obtain ⟨hplain₂, hslash₂⟩ := hplain id₂ h₂
  exact isolated_of_plain hne hplain₁ hplain₂
    ⟨not_nested_of_notMem hslash₂, not_nested_of_notMem hslash₁⟩

/-- **Device isolation.**  Two different accepted ids are isolated if and only if
neither has a wildcard and neither is nested in the other. -/
theorem isolated_iff (id₁ id₂ : AcceptedId) (hne : id₁ ≠ id₂) :
    Isolated id₁ id₂ ↔
      Plain id₁.val.toList ∧ Plain id₂.val.toList ∧ ¬Nested id₁ id₂ ∧ ¬Nested id₂ id₁ := by
  have hval : id₁.val ≠ id₂.val := fun heq => hne (Subtype.ext heq)
  constructor
  · intro h
    have hplain₁ := (publishesPlain_iff _).mp h.publishes₁
    have hplain₂ := (publishesPlain_iff _).mp h.publishes₂
    exact ⟨hplain₁, hplain₂, (unmatched_iff hplain₁ hval).mp h.unmatched⟩
  · rintro ⟨hplain₁, hplain₂, hnested⟩
    exact isolated_of_plain hval hplain₁ hplain₂ hnested

/-- Two DTU numbers are isolated. -/
theorem isolated_iff_numbers : Isolated "1001" "1002" :=
  (isolated_iff ⟨"1001", (accepted_iff _).mpr ⟨"1001", by decide +kernel⟩⟩
    ⟨"1002", (accepted_iff _).mpr ⟨"1002", by decide +kernel⟩⟩ (by simp)).mpr
    ⟨by decide, by decide, not_nested_of_notMem (by decide), not_nested_of_notMem (by decide)⟩

/-- The flow accepts `1/pub/2` beside `1`, whose subscription matches its event posts. -/
theorem nested_ids_not_isolated :
    ¬∀ id₁ id₂ : AcceptedId, id₁ ≠ id₂ → Isolated id₁ id₂ := by
  intro h
  have hisolated := h ⟨"1", (accepted_iff _).mpr ⟨"1", by decide +kernel⟩⟩
    ⟨"1/pub/2", (accepted_iff _).mpr ⟨"1/pub/2", by decide +kernel⟩⟩ (by simp)
  have hmatch := hisolated.unmatched "event/dev_event_post"
  revert hmatch
  decide +kernel

end SotRwb1
