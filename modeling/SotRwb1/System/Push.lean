import SotRwb1.System.World

/-!
# No state update is lost

The network thread writes the state key by key and schedules a notification after
its last write; the loop takes snapshots when a notification runs and when the
coordinator refreshes.  In every state a run reaches, a notification is still to
come or the coordinator's data is the state.

Only the acknowledgement of an event post stands between writes and their
notification: that it can be encoded is assumed, where the keys it writes matter.

## Main definitions

* `View` — what is looked at: the whole state, or some keys.
* `Settling` — every write of a callback is followed by its notification.
* `PushAssumptions` — a refresh is stored before the loop goes on.
* `DeliveryAssumptions` — and the acknowledgement of every event post can be encoded.
* `Delivered` — the invariant.
-/

namespace SotRwb1

open PyLib

/-! ## Views of the state -/

/-- When two states look the same, and the keys this depends on. -/
structure View where
  keys : String → Prop
  same : Dict String Json → Dict String Json → Prop
  refl : ∀ state, same state state
  set_other : ∀ data state key value, ¬ keys key → same data state →
    same data (state.set key value)

/-- The whole state. -/
def View.whole : View where
  keys := fun _ => True
  same := Eq
  refl := fun _ => rfl
  set_other := fun _ _ _ _ hkey _ => (hkey trivial).elim

/-- The values of some keys. -/
def View.on (keys : String → Prop) : View where
  keys := keys
  same := fun data state => ∀ k, keys k → data.get k = state.get k
  refl := fun _ _ _ => rfl
  set_other := by
    intro data state key value hkey hsame k hk
    have hne : k ≠ key := by
      rintro rfl
      exact hkey hk
    rw [Dict.get_set_of_ne _ _ hne, hsame k hk]

/-! ## Callbacks notify after their last write -/

/-- Every write to the keys of the view is followed by a notification. -/
def Settling (v : View) : List Effect → Prop
  | [] => True
  | .setState key _ :: rest => (v.keys key → .callSoon .notify ∈ rest) ∧ Settling v rest
  | _ :: rest => Settling v rest

variable {v : View}

theorem Settling.append {es es' : List Effect} (h : Settling v es) (h' : Settling v es') :
    Settling v (es ++ es') := by
  induction es with
  | nil => exact h'
  | cons effect rest ih =>
      cases effect with
      | setState key value => exact ⟨fun hkey => List.mem_append_left _ (h.1 hkey), ih h.2⟩
      | setConnected | subscribe | publish | callSoon => exact ih h

/-- Anything settles if a notification ends it. -/
theorem settling_notify (es : List Effect) : Settling v (es ++ [.callSoon .notify]) := by
  induction es with
  | nil => trivial
  | cons effect rest ih =>
      cases effect with
      | setState key value => exact ⟨fun _ => by simp, ih⟩
      | setConnected | subscribe | publish | callSoon => exact ih

theorem settling_bind {m : Action} {f : PUnit → Action} (hm : Settling v m.effects)
    (hf : ∀ u, Settling v (f u).effects) : Settling v (m >>= f).effects := by
  rw [Handler.effects_bind]
  apply hm.append
  split
  · exact hf _
  · trivial

theorem settling_ingestTelemetry (body : Json) : Settling v (ingestTelemetry body).effects := by
  rcases ingestTelemetry_cases body with ⟨e, hraise⟩ | hnothing | ⟨values, ts, hvalues⟩
  · rw [hraise]
    trivial
  · rw [hnothing]
    trivial
  · rw [hvalues]
    exact settling_notify _

theorem settling_handleRpcReply (token body : Json) :
    Settling v (handleRpcReply token body).effects := by
  cases body with
  | obj fields =>
      rw [handleRpcReply, Json.getAttr_obj, Handler.ofExcept_ok_bind]
      split
      · exact settling_bind (settling_ingestTelemetry _) fun _ => trivial
      · split <;> trivial
      · trivial
  | null | bool | int | float | str | arr => trivial

theorem settling_ack (topic : String) (fields : List (String × Json)) (draws : Draws) :
    Settling v (ack topic (.obj fields) draws).effects := by
  cases hack : ackWritable fields draws.encoder with
  | true =>
      rw [ack_of_writable hack]
      trivial
  | false =>
      obtain ⟨e, he⟩ := ack_of_not_writable hack topic
      rw [he]
      trivial

/-- An event post settles if its acknowledgement can be encoded, or in a view of other keys
than it writes. -/
theorem settling_handleEventPost (deviceId : String) (body : Json)
    {fields : List (String × Json)} {draws : Draws}
    (h : (v.keys "online" ∨ v.keys "last_event") → ackWritable fields draws.encoder = true) :
    Settling v (handleEventPost deviceId body fields draws).effects := by
  cases body with
  | obj bodyFields =>
      cases hack : ackWritable fields draws.encoder with
      | true =>
          rw [handleEventPost_of_writable hack]
          exact settling_notify [_, _, _]
      | false =>
          rw [hack] at h
          obtain ⟨e, he⟩ := handleEventPost_of_not_writable hack deviceId bodyFields
          rw [he]
          refine ⟨fun honline => ?_, fun hevent => ?_, trivial⟩
          · cases h (.inl honline)
          · cases h (.inr hevent)
  | null | bool | int | float | str | arr => trivial

/-- In this view the network callback notifies after its last write: it is no event post,
its acknowledgement can be encoded, or the view is of other keys. -/
def NetworkCallback.Settles (deviceId : String) (v : View) (cb : NetworkCallback) : Prop :=
  (v.keys "online" ∨ v.keys "last_event") → cb.encodesEvent deviceId = true

/-- Every network callback notifies after its last write. -/
theorem settling_action {deviceId : String} {cb : NetworkCallback} (h : cb.Settles deviceId v) :
    Settling v (cb.action deviceId).effects := by
  cases cb with
  | connect rc draws =>
      rw [NetworkCallback.action, effects_onConnect]
      split <;> trivial
  | disconnect => exact settling_notify [_, _]
  | message m =>
      obtain ⟨topic, loaded, draws⟩ := m
      rw [NetworkCallback.action]
      cases loaded with
      | error e => cases e <;> trivial
      | ok data =>
          cases data with
          | obj fields =>
              rw [effects_onMessage_obj, dispatch_obj]
              split
              · exact settling_bind (settling_ingestTelemetry _) fun _ => settling_ack _ _ _
              · rename_i hroute
                apply settling_handleEventPost
                intro hkeys
                exact ackWritable_of_encodesOn (h hkeys) hroute
              · cases bodyOf fields with
                | obj bodyFields => exact settling_notify [_]
                | null | bool | int | float | str | arr => trivial
              · exact settling_handleRpcReply _ _
              · trivial
          | null | bool | int | float | str | arr => trivial

/-! ## The invariant -/

/-- While a refresh has returned its snapshot, the loop does nothing before it is
stored; the network thread goes on. -/
def PushAssumptions (w : World) : Event → Prop
  | .network _ => True
  | .thread => True
  | .store => True
  | _ => w.refreshed = none

instance : ∀ (w : World) (e : Event), Decidable (PushAssumptions w e)
  | _, .network _ => .isTrue trivial
  | _, .thread => .isTrue trivial
  | _, .store => .isTrue trivial
  | w, .loop => inferInstanceAs (Decidable (w.refreshed = none))
  | w, .refresh _ => inferInstanceAs (Decidable (w.refreshed = none))
  | w, .start _ _ _ _ _ => inferInstanceAs (Decidable (w.refreshed = none))
  | w, .await _ => inferInstanceAs (Decidable (w.refreshed = none))
  | w, .timeout _ => inferInstanceAs (Decidable (w.refreshed = none))
  | w, .cancel _ => inferInstanceAs (Decidable (w.refreshed = none))

/-- If the event begins the handling of an event post, the acknowledgement can be
encoded. -/
def Event.encodesEvent (deviceId : String) : Event → Bool
  | .network cb => cb.encodesEvent deviceId
  | _ => true

/-- If the event begins a network callback, it notifies after its last write in this view. -/
def Event.Settles (deviceId : String) (v : View) : Event → Prop
  | .network cb => cb.Settles deviceId v
  | _ => True

theorem Event.settles_of_encodes {deviceId : String} {e : Event}
    (h : e.encodesEvent deviceId = true) : e.Settles deviceId v := by
  cases e with
  | network cb => exact fun _ => h
  | thread | loop | refresh | store | start | await | timeout | cancel => trivial

/-- A refresh is stored before the loop goes on, and encoding the acknowledgements of
event posts does not raise. -/
def DeliveryAssumptions (deviceId : String) (w : World) (e : Event) : Prop :=
  PushAssumptions w e ∧ e.encodesEvent deviceId = true

instance (deviceId : String) (w : World) (e : Event) :
    Decidable (DeliveryAssumptions deviceId w e) :=
  inferInstanceAs (Decidable (_ ∧ _))

/-- A notification is queued, or the running callback will schedule one. -/
def World.notified (w : World) : Prop :=
  .callback .notify ∈ w.ready ∨ .callSoon .notify ∈ w.thread

/-- In this view the coordinator's data is the state, or nothing was stored and the state is
as constructed. -/
def World.shows (v : View) (w : World) : Prop :=
  (∃ d, w.data = some d ∧ v.same d w.bridge.state) ∨
    w.data = none ∧ v.same Bridge.init.state w.bridge.state

/-- The data shows the state, and so will a snapshot that is about to be stored. -/
def World.synced (v : View) (w : World) : Prop :=
  w.shows v ∧ ∀ snapshot, w.refreshed = some snapshot → v.same snapshot w.bridge.state

/-- The running callback will notify after its last write, and a notification is
to come or the data is up to date. -/
structure Delivered (v : View) (w : World) : Prop where
  settling : Settling v w.thread
  delivered : w.notified ∨ w.synced v

/-- A step of the loop that touches neither state nor snapshots and drops no
notification. -/
structure SamePush (w w' : World) : Prop where
  state : w'.bridge.state = w.bridge.state
  thread : w'.thread = w.thread
  refreshed : w'.refreshed = w.refreshed
  data : w'.data = w.data
  ready : .callback .notify ∈ w.ready → .callback .notify ∈ w'.ready

theorem synced_of_same {w w' : World} (h : w.synced v) (hsame : SamePush w w') : w'.synced v := by
  rw [World.synced, World.shows, hsame.state, hsame.refreshed, hsame.data]
  exact h

/-- Writing another key than those of the view keeps the data up to date. -/
theorem synced_set_other {w : World} (h : w.synced v) {key : String} (hkey : ¬ v.keys key)
    (value : Json) : (w.perform (.setState key value)).synced v := by
  refine ⟨?_, fun snapshot hsnapshot => v.set_other _ _ _ _ hkey (h.2 snapshot hsnapshot)⟩
  rcases h.1 with ⟨d, hdata, hsame⟩ | ⟨hnone, hsame⟩
  · exact .inl ⟨d, hdata, v.set_other _ _ _ _ hkey hsame⟩
  · exact .inr ⟨hnone, v.set_other _ _ _ _ hkey hsame⟩

theorem Delivered.of_same {w w' : World} (h : Delivered v w) (hsame : SamePush w w') :
    Delivered v w' := by
  refine ⟨by rw [hsame.thread]; exact h.settling, ?_⟩
  rcases h.delivered with (hready | hthread) | hsynced
  · exact .inl (.inl (hsame.ready hready))
  · exact .inl (.inr (by rw [hsame.thread]; exact hthread))
  · right
    exact synced_of_same hsynced hsame

theorem SamePush.setWaiter (w : World) (id : ℕ) (task : Task) (waiter : Waiter Json) :
    SamePush w (w.setWaiter id task waiter) := by
  refine ⟨rfl, rfl, rfl, rfl, ?_⟩
  intro hready
  rw [World.setWaiter]
  dsimp only
  split
  · exact List.mem_append_left _ hready
  · exact hready

theorem SamePush.finish (w : World) (id : ℕ) (task : Task) (reply : Except CallError Json) :
    SamePush w (w.finish id task reply) := ⟨rfl, rfl, rfl, rfl, fun hready => hready⟩

/-- One effect of the network thread. -/
theorem Delivered.thread {w : World} {effect : Effect} {rest : List Effect} (h : Delivered v w)
    (hthread : w.thread = effect :: rest) :
    Delivered v (({ w with thread := rest } : World).perform effect) := by
  have hsettling := h.settling
  rw [hthread] at hsettling
  cases effect with
  | setState key value =>
      refine ⟨hsettling.2, ?_⟩
      by_cases hkey : v.keys key
      · exact .inl (.inr (hsettling.1 hkey))
      · rcases h.delivered with (hready | hcoming) | hsynced
        · exact .inl (.inl hready)
        · rw [hthread, List.mem_cons] at hcoming
          rcases hcoming with heq | hcoming
          · cases heq
          · exact .inl (.inr hcoming)
        · have hrest : ({ w with thread := rest } : World).synced v := hsynced
          exact .inr (synced_set_other hrest hkey value)
  | callSoon cb =>
      refine ⟨hsettling, ?_⟩
      rcases h.delivered with (hready | hcoming) | hsynced
      · exact .inl (.inl (List.mem_append_left _ hready))
      · rw [hthread, List.mem_cons] at hcoming
        rcases hcoming with heq | hcoming
        · cases heq
          exact .inl (.inl (List.mem_append_right _ (List.mem_singleton_self _)))
        · exact .inl (.inr hcoming)
      · exact .inr hsynced
  | setConnected | subscribe | publish =>
      refine ⟨hsettling, ?_⟩
      rcases h.delivered with (hready | hcoming) | hsynced
      · exact .inl (.inl hready)
      · rw [hthread, List.mem_cons] at hcoming
        rcases hcoming with heq | hcoming
        · cases heq
        · exact .inl (.inr hcoming)
      · exact .inr hsynced

/-- A job that leaves the rest of the queue, while no snapshot waits to be stored. -/
theorem Delivered.dequeue {w : World} {job : Job} {rest : List Job} (h : Delivered v w)
    (hready : w.ready = job :: rest) (hjob : job ≠ .callback .notify) :
    Delivered v { w with ready := rest } := by
  refine ⟨h.settling, ?_⟩
  rcases h.delivered with (hqueued | hcoming) | hsynced
  · rw [hready, List.mem_cons] at hqueued
    rcases hqueued with heq | hqueued
    · exact absurd heq.symm hjob
    · exact .inl (.inl hqueued)
  · exact .inl (.inr hcoming)
  · exact .inr hsynced

/-- One job of the loop: a notification stores the state, any other leaves state and
snapshots alone. -/
theorem Delivered.loop {w w' : World} {job : Job} {rest : List Job} (h : Delivered v w)
    (hready : w.ready = job :: rest) (hrefreshed : w.refreshed = none)
    (hresult : JobResult { w with ready := rest } job w') : Delivered v w' := by
  cases hresult with
  | notify =>
      refine ⟨h.settling, .inr ⟨.inl ⟨_, rfl, v.refl _⟩, ?_⟩⟩
      intro snapshot hsnapshot
      cases hrefreshed.symm.trans hsnapshot
  | connect | missed | unknown | wakeNone => exact h.dequeue hready (by simp)
  | typeError =>
      exact (h.dequeue hready (by simp)).of_same ⟨rfl, rfl, rfl, rfl, fun hready => hready⟩
  | complete t co id task => exact (h.dequeue hready (by simp)).of_same (.setWaiter _ id task _)
  | wake id task => exact (h.dequeue hready (by simp)).of_same (.finish _ id task _)

/-- **The invariant.**  Every admissible step that settles keeps updates delivered. -/
theorem Delivered.step {deviceId : String} {w w' : World} {e : Event} (h : Delivered v w)
    (hok : PushAssumptions w e) (hsettles : e.Settles deviceId v)
    (hstep : (machine deviceId).step w e = some w') : Delivered v w' := by
  cases step_result hstep with
  | network cb idle =>
      refine ⟨settling_action hsettles, ?_⟩
      rcases h.delivered with (hready | hcoming) | hsynced
      · exact .inl (.inl hready)
      · rw [idle] at hcoming
        cases hcoming
      · exact .inr hsynced
  | thread effect rest performing => exact h.thread performing
  | loop job rest queued w' result => exact h.loop queued hok result
  | refresh draws published free =>
      refine ⟨h.settling, ?_⟩
      rcases h.delivered with hnotified | hsynced
      · exact .inl hnotified
      · refine .inr ⟨hsynced.1, ?_⟩
        intro snapshot hsnapshot
        cases hsnapshot
        exact v.refl _
  | refreshFails | startFails => exact h
  | store snapshot refreshed =>
      refine ⟨h.settling, ?_⟩
      rcases h.delivered with hnotified | hsynced
      · exact .inl hnotified
      · exact .inr ⟨.inl ⟨_, rfl, hsynced.2 snapshot refreshed⟩, by simp⟩
  | register | refuse => exact h.of_same ⟨rfl, rfl, rfl, rfl, fun hready => hready⟩
  | wait id task | timeout id task | cancel id task => exact h.of_same (.setWaiter w id task _)
  | takeReply id task => exact h.of_same (.finish w id task _)

theorem Delivered.init (v : View) (restored : Shown) : Delivered v (World.init restored) :=
  ⟨trivial, .inr ⟨.inr ⟨rfl, v.refl _⟩, by intro snapshot hsnapshot; cases hsnapshot⟩⟩

/-- With no callback under way and no notification queued, the data shows the state. -/
theorem Delivered.shows {w : World} (h : Delivered v w) (hidle : w.thread = [])
    (hqueue : .callback .notify ∉ w.ready) : w.shows v := by
  rcases h.delivered with (hready | hcoming) | hsynced
  · exact absurd hready hqueue
  · rw [hidle] at hcoming
    cases hcoming
  · exact hsynced.1

/-- A run in which every network callback settles keeps updates delivered. -/
theorem delivered_run {deviceId : String} {restored : Shown} {ok : World → Event → Prop}
    {history : List (World × Event)} {w : World}
    (h : (machine deviceId).Run ok (World.init restored) history w)
    (hpush : ∀ w e, ok w e → PushAssumptions w e)
    (hsettles : ∀ p ∈ history, p.2.Settles deviceId v) : Delivered v w := by
  have hinv : (∀ p ∈ history, p.2.Settles deviceId v) → Delivered v w := by
    apply h.historyInvariant
      (fun history w => (∀ p ∈ history, p.2.Settles deviceId v) → Delivered v w)
    · exact fun _ => .init v restored
    · intro history s e s' hs hok hstep hsettles
      have hbefore := hs fun p hp => hsettles p (List.mem_append_left _ hp)
      exact hbefore.step (hpush s e hok) (hsettles (s, e) (by simp)) hstep
  exact hinv hsettles

theorem shows_whole_iff {w : World} :
    w.shows .whole ↔
      w.data = some w.bridge.state ∨ w.data = none ∧ w.bridge.state = Bridge.init.state := by
  rw [World.shows]
  constructor
  · rintro (⟨d, hdata, rfl⟩ | ⟨hnone, hinit⟩)
    · exact .inl hdata
    · exact .inr ⟨hnone, hinit.symm⟩
  · rintro (hdata | ⟨hnone, hinit⟩)
    · exact .inl ⟨_, hdata, rfl⟩
    · exact .inr ⟨hnone, hinit.symm⟩

/-- **Delivery.**  In every state a run reaches, if no network callback is under way
and no notification is queued, the coordinator's data is the state, or nothing
was ever stored and the state is as constructed. -/
theorem state_delivered {deviceId : String} {restored : Shown}
    {history : List (World × Event)} {w : World}
    (h : (machine deviceId).Run (DeliveryAssumptions deviceId) (World.init restored) history w)
    (hidle : w.thread = []) (hqueue : .callback .notify ∉ w.ready) :
    w.data = some w.bridge.state ∨ w.data = none ∧ w.bridge.state = Bridge.init.state := by
  have hinv : Delivered .whole w := by
    apply h.invariant (Delivered .whole) (.init .whole restored)
    intro s e s' hs hok hstep
    exact hs.step hok.1 (Event.settles_of_encodes hok.2) hstep
  exact shows_whole_iff.mp (hinv.shows hidle hqueue)

/-- A refresh in the middle of an event post: its snapshot is stored after the
writes of the post, and the notification stores the state again. -/
def eventEvents : List Event :=
  [.network (.connect 0 ⟨"token", "nonce", .plain⟩), .thread, .thread, .thread, .thread, .loop,
    .network (.message ⟨"dtu/x/pub/event/dev_event_post", .ok (.obj [("t", .str "push")]),
      ⟨"token", "nonce", .plain⟩⟩),
    .refresh ⟨"token", "nonce", .plain⟩, .thread, .thread, .thread, .thread, .store, .loop]

set_option maxRecDepth 10000 in
/-- After the event post the coordinator's data is the state. -/
theorem state_delivered_event :
    ∃ history w, (machine "x").Run (DeliveryAssumptions "x") (World.init fun _ => none) history w ∧
      w.data.isSome = true ∧ w.data = some w.bridge.state := by
  have hreplay : ((machine "x").replay (DeliveryAssumptions "x") (World.init fun _ => none)
      eventEvents).any (fun r => r.2.thread.isEmpty && r.2.ready.isEmpty && r.2.data.isSome) =
        true := by decide +kernel
  obtain ⟨r, hr, hquiet⟩ := (Option.any_eq_true _ _).mp hreplay
  simp only [Bool.and_eq_true, List.isEmpty_iff] at hquiet
  obtain ⟨⟨hthread, hready⟩, hdata⟩ := hquiet
  have hrun := Machine.Run.nil.replay hr
  refine ⟨_, _, hrun, hdata, ?_⟩
  rcases state_delivered hrun hthread (by simp [hready]) with hsynced | ⟨hnone, -⟩
  · exact hsynced
  · rw [hnone] at hdata
    cases hdata

end SotRwb1
