import SotRwb1.System.Display

/-!
# Display and dongle agree

The bridge is put on a link with the dongle: requests travel to it in order, it
applies or refuses each write and answers, and its replies travel back in order.
Nothing is lost and no call times out.  When no write of an entity is under way,
the entity shows the argument of the last write the dongle applied.

The argument follows an answer through its stages: on the way back, scheduled by
the network thread, queued on the loop, and as a queued wake-up.  The display,
with all answers under way carried out in this order, is what the dongle applied.

## Main definitions

* `Link`, `Link.step`, `LinkAssumptions` — the bridge and the dongle.
* `Answer`, `Aligned` — the answers under way, and the invariant.
-/

namespace SotRwb1

open PyLib

/-! ## The link -/

/-- A reply the dongle means as a refusal: it contains `NAK`. -/
def Refuses (co : Json) : Prop := ∃ text, decodeCo co = .ok text ∧ hasNak text = true

instance : DecidablePred Refuses := fun co => decidableText co _

/-- A request on its way to the dongle, with the number and issuer of its call. -/
structure Request where
  id : ℕ
  caller : Caller
  env : Json

/-- The token of a request. -/
def Request.token (r : Request) : Json :=
  match r.env with
  | .obj fields => (fields.lookup "t").getD .null
  | _ => .null

/-- The dongle's answer to a request. -/
def Request.reply (r : Request) (deviceId : String) (co : Json) (draws : Draws) : Message :=
  ⟨pubPrefix deviceId ++ pubServiceRpcReply,
    .ok (.obj [("c", .int cmdDevRpc), ("t", r.token), ("b", .obj [("co", co)])]), draws⟩

/-- The dongle's settings once it applied a write. -/
def Caller.apply (caller : Caller) (setting : Shown) : Shown :=
  match caller with
  | control e value => Function.update setting e (some value)
  | press => setting
  | read _ => setting

/-- Whether a call is the write of a control entity. -/
def Caller.isControl : Caller → Bool
  | control _ _ => true
  | press => false
  | read _ => false

/-- The bridge, the requests on their way to the dongle, the replies on their way
back, and for every entity the argument of the last write the dongle applied, or
what the entity showed at the start. -/
structure Link where
  world : World
  requests : List Request
  replies : List Message
  setting : Shown

/-- The start: nothing is on its way, and nothing was applied. -/
def Link.init (restored : Shown) : Link := ⟨World.init restored, [], [], restored⟩

/-- The steps: a call starts and begins to wait; the dongle applies or refuses the
oldest request; the oldest reply reaches the bridge; the bridge takes another step. -/
inductive LinkEvent where
  | call (id : ℕ) (caller : Caller) (token : String) (draws : Draws)
  | dongle (applies : Bool) (co : Json) (draws : Draws)
  | deliver
  | bridge (e : Event)

/-- A call that publishes its request puts it on the link. -/
def Link.step (deviceId : String) (s : Link) : LinkEvent → Option Link
  | .call id caller token draws =>
      ((machine deviceId).step s.world (.start id caller token draws none)).map fun w =>
        { s with
          world := ((machine deviceId).step w (.await id)).getD w
          requests := s.requests ++
            (w.bridge.published.drop s.world.bridge.published.length).map fun m =>
              ⟨id, caller, m.2⟩ }
  | .dongle applies co draws =>
      match s.requests with
      | r :: rest =>
          some { s with
            requests := rest
            replies := s.replies ++ [r.reply deviceId co draws]
            setting := if applies then r.caller.apply s.setting else s.setting }
      | [] => none
  | .deliver =>
      match s.replies with
      | m :: rest =>
          ((machine deviceId).step s.world (.network (.message m))).map fun w =>
            { s with world := w, replies := rest }
      | [] => none
  | .bridge e => ((machine deviceId).step s.world e).map fun w => { s with world := w }

/-- The bridge on its link. -/
def linkMachine (deviceId : String) : Machine Link LinkEvent := ⟨Link.step deviceId⟩

/-- The replies on their way: received ones, then those on the link. -/
def Link.coming (deviceId : String) (s : Link) : List (String × Json) :=
  s.world.replies ++ s.replies.flatMap fun m => (NetworkCallback.message m).replies deviceId

/-- A call draws a token that no pending request and no reply on its way has.  The
dongle answers a control write it applies with `ACK`, and one it refuses with `NAK`.
Other messages bring no reply to a pending request; no call times out or is
cancelled. -/
def LinkAssumptions (deviceId : String) (s : Link) : LinkEvent → Prop
  | .call _ _ token _ => s.world.bridge.pending.get token = none ∧ token ≠ "" ∧
      ∀ reply ∈ s.coming deviceId, reply.1 ≠ token
  | .dongle applies co _ => (s.requests.head?.any fun r => r.caller.isControl) = true →
      if applies then Acknowledges co else Refuses co
  | .deliver => True
  | .bridge (.network cb) => ∀ reply ∈ cb.replies deviceId,
      s.world.bridge.pending.get reply.1 = none
  | .bridge .thread => True
  | .bridge .loop => True
  | .bridge (.refresh _) => True
  | .bridge .store => True
  | .bridge _ => False

instance (deviceId : String) :
    ∀ (s : Link) (e : LinkEvent), Decidable (LinkAssumptions deviceId s e)
  | s, .call _ _ token _ =>
      inferInstanceAs (Decidable (s.world.bridge.pending.get token = none ∧ token ≠ "" ∧
        ∀ reply ∈ s.coming deviceId, reply.1 ≠ token))
  | s, .dongle applies co _ =>
      inferInstanceAs (Decidable ((s.requests.head?.any fun r => r.caller.isControl) = true →
        if applies then Acknowledges co else Refuses co))
  | _, .deliver => .isTrue trivial
  | s, .bridge (.network cb) =>
      inferInstanceAs (Decidable (∀ reply ∈ cb.replies deviceId,
        s.world.bridge.pending.get reply.1 = none))
  | _, .bridge .thread => .isTrue trivial
  | _, .bridge .loop => .isTrue trivial
  | _, .bridge (.refresh _) => .isTrue trivial
  | _, .bridge .store => .isTrue trivial
  | _, .bridge (.start _ _ _ _ _) => .isFalse id
  | _, .bridge (.await _) => .isFalse id
  | _, .bridge (.timeout _) => .isFalse id
  | _, .bridge (.cancel _) => .isFalse id

/-! ## Replies on their way -/

/-- The steps that leave calls and replies alone. -/
theorem quiet_step {deviceId : String} {w w' : World} {e : Event}
    (h : (machine deviceId).step w e = some w')
    (he : e = .thread ∨ (∃ draws, e = .refresh draws) ∨ e = .store) :
    SameCalls w w' ∧ w'.replies = w.replies := by
  cases step_result h with
  | thread effect rest performing =>
      have hsame := SameCalls.perform { w with thread := rest } effect
      exact ⟨⟨hsame.tasks, hsame.pending, hsame.wakeIds, hsame.shown⟩,
        replies_perform w effect rest performing⟩
  | refresh | refreshFails | store => exact ⟨⟨rfl, rfl, rfl, rfl⟩, rfl⟩
  | network | loop | register | refuse | startFails | wait | takeReply | timeout | cancel =>
      simp at he

/-- The dongle's answer brings its reply, and nothing else. -/
theorem replies_reply {r : Request} {token : String} (htoken : r.token = .str token)
    (deviceId : String) (co : Json) (draws : Draws) :
    (NetworkCallback.message (r.reply deviceId co draws)).replies deviceId = [(token, co)] := by
  rw [NetworkCallback.replies, Message.answer, Request.reply, htoken]
  dsimp only
  rw [topicSuffix_pubPrefix]
  rfl

/-! ## Answers under way -/

/-- An answer on its way to its call. -/
structure Answer where
  id : ℕ
  token : String
  caller : Caller
  co : Json

/-- A call that waits, undisturbed. -/
def waitingTask (token : String) (caller : Caller) (future : Future Json) : Task :=
  ⟨token, caller, ⟨future, true, false, false, false⟩, none⟩

/-- What the entities show once the call has its answer. -/
def Answer.settle (shown : Shown) (a : Answer) : Shown := a.caller.conclude shown (.ok a.co)

/-- A pending request waits for this reply. -/
def World.awaits (w : World) (reply : String × Json) : Bool :=
  (w.bridge.pending.get reply.1).isSome

theorem awaits_of_get {w : World} {reply : String × Json} {id : ℕ}
    (h : w.bridge.pending.get reply.1 = some id) : w.awaits reply = true := by
  rw [World.awaits, h]
  rfl

theorem awaits_congr {w w' : World} (h : w'.bridge.pending = w.bridge.pending) :
    w'.awaits = w.awaits := by
  funext reply
  rw [World.awaits, World.awaits, h]

/-- The calls with an answer or a request under way. -/
def Link.underWay (s : Link) (woken coming : List Answer) : List ℕ :=
  (woken ++ coming).map (·.id) ++ s.requests.map (·.id)

/-- The answers in `woken` have their wake-ups queued, those in `coming` follow, and
then the requests; every running call has one of these; and the display becomes
the dongle's settings when the answers are carried out in order. -/
structure Aligned (deviceId : String) (s : Link) (woken coming : List Answer) : Prop where
  wakeIds : s.world.wakeIds = woken.map (·.id)
  replies : (s.coming deviceId).filter s.world.awaits = coming.map fun a => (a.token, a.co)
  completed : ∀ a ∈ woken,
    s.world.tasks a.id = some (waitingTask a.token a.caller (.result a.co))
  pending : ∀ a ∈ coming, s.world.tasks a.id = some (waitingTask a.token a.caller .pending)
  asked : ∀ r ∈ s.requests, ∃ token, r.token = .str token ∧
    s.world.tasks r.id = some (waitingTask token r.caller .pending)
  nodup : (s.underWay woken coming).Nodup
  covered : ∀ id task, s.world.running id = some task → id ∈ s.underWay woken coming
  agrees : (woken ++ coming).foldl Answer.settle s.world.shown = s.setting

variable {deviceId : String} {s : Link} {woken coming : List Answer}

theorem Aligned.init (deviceId : String) (restored : Shown) :
    Aligned deviceId (Link.init restored) [] [] where
  wakeIds := rfl
  replies := rfl
  completed := by simp
  pending := by simp
  asked := by simp [Link.init]
  nodup := List.nodup_nil
  covered := by simp [Link.init, World.init, World.running]
  agrees := rfl

/-- The calls are left alone, and so are the replies they wait for. -/
theorem Aligned.frame (h : Aligned deviceId s woken coming) {w' : World} {replies' : List Message}
    (hsame : SameCalls s.world w')
    (hreplies : (Link.coming deviceId { s with world := w', replies := replies' }).filter
      s.world.awaits = (s.coming deviceId).filter s.world.awaits) :
    Aligned deviceId { s with world := w', replies := replies' } woken coming where
  wakeIds := hsame.wakeIds.trans h.wakeIds
  replies := by
    rw [awaits_congr hsame.pending]
    exact hreplies.trans h.replies
  completed := by simpa only [hsame.tasks] using h.completed
  pending := by simpa only [hsame.tasks] using h.pending
  asked := by simpa only [hsame.tasks] using h.asked
  nodup := h.nodup
  covered := by
    intro id task hrun
    apply h.covered id task
    rw [World.running, ← hsame.tasks]
    exact hrun
  agrees := by simpa only [hsame.shown] using h.agrees

/-- A call with an answer or a request under way runs. -/
theorem Aligned.exists_running (h : Aligned deviceId s woken coming) {id : ℕ}
    (hid : id ∈ s.underWay woken coming) :
    ∃ token caller future, s.world.running id = some (waitingTask token caller future) := by
  rcases List.mem_append.mp hid with hid | hid
  · obtain ⟨a, ha, rfl⟩ := List.mem_map.mp hid
    rcases List.mem_append.mp ha with ha | ha
    · exact ⟨_, _, _, running_eq_some_iff.mpr ⟨h.completed a ha, rfl⟩⟩
    · exact ⟨_, _, _, running_eq_some_iff.mpr ⟨h.pending a ha, rfl⟩⟩
  · obtain ⟨r, hr, rfl⟩ := List.mem_map.mp hid
    obtain ⟨token, -, htask⟩ := h.asked r hr
    exact ⟨_, _, _, running_eq_some_iff.mpr ⟨htask, rfl⟩⟩

/-! ## The dongle -/

/-- A call that waits, undisturbed, is running under its token. -/
theorem get_of_waiting {w : World} (hcons : Consistent w) {id : ℕ} {token : String}
    {caller : Caller} {future : Future Json}
    (htask : w.tasks id = some (waitingTask token caller future)) :
    w.bridge.pending.get token = some id :=
  (hcons.table token id).mpr ⟨_, running_eq_some_iff.mpr ⟨htask, rfl⟩, rfl⟩

/-- The answer of the dongle makes the entities show what it applied. -/
theorem conclude_verdict (caller : Caller) (shown : Shown) {applies : Bool} {co : Json}
    (h : caller.isControl = true → if applies then Acknowledges co else Refuses co) :
    caller.conclude shown (.ok co) = if applies then caller.apply shown else shown := by
  cases caller with
  | press | read => cases applies <;> rfl
  | control e value =>
      rw [Caller.conclude, Entity.finish_shown]
      cases applies with
      | true =>
          have hack : Acknowledges co := h rfl
          rw [if_pos ((asyncWriteSetting_eq_ok_iff _).mpr ⟨co, rfl, .inl hack⟩)]
          rfl
      | false =>
          obtain ⟨text, htext, hnak⟩ : Refuses co := h rfl
          have herror : asyncWriteSetting (.ok co) ≠ .ok () := by
            simp [asyncWriteSetting, coIsNak, htext, Except.map, hnak]
          rw [if_neg herror]
          exact Function.update_eq_self e shown

/-- The dongle answers the oldest request. -/
theorem Aligned.dongle (hcons : Consistent s.world) (h : Aligned deviceId s woken coming)
    {r : Request} {rest : List Request} (hrequests : s.requests = r :: rest) {applies : Bool}
    {co : Json} (draws : Draws)
    (hok : r.caller.isControl = true → if applies then Acknowledges co else Refuses co) :
    ∃ a, Aligned deviceId
      { s with
        requests := rest
        replies := s.replies ++ [r.reply deviceId co draws]
        setting := if applies then r.caller.apply s.setting else s.setting }
      woken (coming ++ [a]) := by
  obtain ⟨token, htoken, htask⟩ := h.asked r (by simp [hrequests])
  let a : Answer := ⟨r.id, token, r.caller, co⟩
  have hunderWay : (woken ++ (coming ++ [a])).map (·.id) ++ rest.map (·.id) =
      s.underWay woken coming := by
    simp [Link.underWay, hrequests, a]
  refine ⟨a, ?_⟩
  constructor
  case wakeIds => exact h.wakeIds
  case replies =>
    have hawaits : s.world.awaits (token, co) = true := awaits_of_get (get_of_waiting hcons htask)
    have hcoming : Link.coming deviceId
        { s with replies := s.replies ++ [r.reply deviceId co draws] } =
          s.coming deviceId ++ [(token, co)] := by
      rw [Link.coming, Link.coming, List.flatMap_append, ← List.append_assoc,
        List.flatMap_singleton, replies_reply htoken]
    change (Link.coming deviceId { s with
      replies := s.replies ++ [r.reply deviceId co draws] }).filter s.world.awaits = _
    rw [hcoming, List.filter_append, h.replies, List.map_append, List.filter_cons_of_pos hawaits]
    rfl
  case completed => exact h.completed
  case pending =>
    intro a ha
    rcases List.mem_append.mp ha with ha | ha
    · exact h.pending a ha
    · rw [List.mem_singleton.mp ha]
      exact htask
  case asked =>
    intro r' hr'
    apply h.asked
    rw [hrequests]
    exact List.mem_cons_of_mem r hr'
  case nodup =>
    rw [Link.underWay, hunderWay]
    exact h.nodup
  case covered =>
    intro id task hrun
    rw [Link.underWay, hunderWay]
    exact h.covered id task hrun
  case agrees =>
    rw [← List.append_assoc, List.foldl_append, h.agrees]
    exact conclude_verdict r.caller s.setting hok

/-! ## Calls -/

/-- A call put its request on the link and waits. -/
theorem Aligned.request (h : Aligned deviceId s woken coming) {w' : World} {id : ℕ}
    {caller : Caller} {token : String} {env : Json} (hfresh : s.world.tasks id = none)
    (htoken : (Request.mk id caller env).token = .str token)
    (hnew : ∀ reply ∈ s.coming deviceId, reply.1 ≠ token)
    (htasks : w'.tasks =
      Function.update s.world.tasks id (some (waitingTask token caller .pending)))
    (hpending : w'.bridge.pending = s.world.bridge.pending.set token id)
    (hwakeIds : w'.wakeIds = s.world.wakeIds) (hreplies : w'.replies = s.world.replies)
    (hshown : w'.shown = s.world.shown) :
    Aligned deviceId { s with world := w', requests := s.requests ++ [⟨id, caller, env⟩] }
      woken coming := by
  have hkept : ∀ {id' : ℕ} {task : Task}, s.world.tasks id' = some task →
      w'.tasks id' = some task := by
    intro id' task htask
    have hid : id' ≠ id := by
      intro hid
      rw [hid, hfresh] at htask
      cases htask
    rw [htasks, Function.update_of_ne hid, htask]
  have hunderWay : ∀ requests : List Request, requests = s.requests ++ [⟨id, caller, env⟩] →
      (woken ++ coming).map (·.id) ++ requests.map (·.id) = s.underWay woken coming ++ [id] := by
    intro requests hrequests
    simp [hrequests, Link.underWay]
  constructor
  case wakeIds => exact hwakeIds.trans h.wakeIds
  case replies =>
    rw [← h.replies, Link.coming, Link.coming, hreplies]
    apply List.filter_congr
    intro reply hreply
    rw [World.awaits, World.awaits, hpending, Dict.get_set_of_ne _ _ (hnew reply hreply)]
  case completed =>
    intro a ha
    exact hkept (h.completed a ha)
  case pending =>
    intro a ha
    exact hkept (h.pending a ha)
  case asked =>
    intro r hr
    rcases List.mem_append.mp hr with hr | hr
    · obtain ⟨token', htoken', htask⟩ := h.asked r hr
      exact ⟨token', htoken', hkept htask⟩
    · rw [List.mem_singleton.mp hr]
      exact ⟨token, htoken, by rw [htasks, Function.update_self]⟩
  case nodup =>
    rw [Link.underWay, hunderWay _ rfl]
    refine List.nodup_append.mpr ⟨h.nodup, List.nodup_singleton id, ?_⟩
    intro id' hid' id'' hid'' heq
    rw [List.mem_singleton.mp hid''] at heq
    obtain ⟨_, _, _, hrun⟩ := h.exists_running hid'
    rw [heq, World.running, hfresh] at hrun
    cases hrun
  case covered =>
    intro id' task hrun
    rw [Link.underWay, hunderWay _ rfl, List.mem_append, List.mem_singleton]
    rcases (running_update htasks).mp hrun with ⟨hid, -, -⟩ | ⟨-, hrun⟩
    · exact .inr hid
    · exact .inl (h.covered id' task hrun)
  case agrees =>
    rw [hshown]
    exact h.agrees

/-- A call that registered begins to wait. -/
theorem await_register (w : World) (id : ℕ) (caller : Caller) (token ci : String)
    (draws : Draws) :
    (machine deviceId).step (w.register deviceId id caller token ci draws) (.await id) =
      some ((w.register deviceId id caller token ci draws).setWaiter id
        ⟨token, caller, .init, none⟩ ⟨.pending, true, false, false, false⟩) := by
  have hrun : (w.register deviceId id caller token ci draws).running id =
      some ⟨token, caller, .init, none⟩ :=
    running_eq_some_iff.mpr ⟨Function.update_self _ _ _, rfl⟩
  change (w.register deviceId id caller token ci draws).step deviceId (.await id) = _
  rw [World.step, hrun]
  rfl

/-- A call starts and begins to wait, or raises before its request. -/
theorem Aligned.call (h : Aligned deviceId s woken coming) {id : ℕ} {caller : Caller}
    {token : String} {draws : Draws} (htoken : token ≠ "")
    (hnew : ∀ reply ∈ s.coming deviceId, reply.1 ≠ token) {s' : Link}
    (hstep : s.step deviceId (.call id caller token draws) = some s') :
    Aligned deviceId s' woken coming := by
  rw [Link.step, Option.map_eq_some_iff] at hstep
  obtain ⟨w, hstart, rfl⟩ := hstep
  cases step_result hstart with
  | register _ _ _ ci _ fresh =>
      rw [await_register]
      have hwait := WaiterChange.setWaiter (s.world.register deviceId id caller token ci draws) id
        ⟨token, caller, .init, none⟩ ⟨.pending, true, false, false, false⟩
      have hpublished : (s.world.register deviceId id caller token ci draws).bridge.published.drop
          s.world.bridge.published.length =
            [(topicRpcRequest deviceId, rpcEnvelope ci token draws)] := by
        rw [World.register, List.drop_left]
      rw [hpublished]
      have hrequest : (Request.mk id caller (rpcEnvelope ci token draws)).token = .str token := by
        simp [Request.token, rpcEnvelope, buildEnvelope, Json.truthy, htoken, List.lookup_cons]
      exact h.request fresh hrequest hnew (hwait.tasks.trans (Function.update_idem _ _ _))
        hwait.pending hwait.wakeIds (replies_setWaiter _ _ _ _) hwait.shown
  | startFails _ _ _ _ _ fresh =>
      have hunstarted : (machine deviceId).step s.world (.await id) = none := by
        simp [machine, World.step, World.running, fresh]
      simpa [hunstarted] using h

/-! ## The loop -/

/-- The answers other than one under way belong to other calls. -/
theorem ne_of_nodup_underWay {before after : List ℕ} {a : ℕ} (h : (before ++ a :: after).Nodup)
    {b : ℕ} (hb : b ∈ before ∨ b ∈ after) : b ≠ a := by
  rw [List.nodup_middle, List.nodup_cons, List.mem_append] at h
  intro hba
  exact h.1 (hba ▸ hb)

/-- The oldest reply completes the future of its call. -/
theorem Aligned.complete {a : Answer} (hcons : Consistent s.world)
    (h : Aligned deviceId s woken (a :: coming)) {w' : World} {task : Task}
    (htask : s.world.tasks a.id = some task)
    (hreplies : s.world.replies = (a.token, a.co) :: w'.replies)
    (hchange : WaiterChange s.world a.id task { task.waiter with future := .result a.co } w') :
    Aligned deviceId { s with world := w' } (woken ++ [a]) coming := by
  have hpending := h.pending a List.mem_cons_self
  rw [htask] at hpending
  cases hpending
  have hunderWay : Link.underWay { s with world := w' } (woken ++ [a]) coming =
      s.underWay woken (a :: coming) := by
    simp [Link.underWay]
  have hnodup := h.nodup
  rw [Link.underWay, List.map_append, List.append_assoc] at hnodup
  have hkept : ∀ {id : ℕ} {task : Task}, s.world.tasks id = some task →
      (id ∈ woken.map (·.id) ∨ id ∈ coming.map (·.id) ++ s.requests.map (·.id)) →
      w'.tasks id = some task := by
    intro id task htask' hid
    rw [hchange.tasks, Function.update_of_ne (ne_of_nodup_underWay hnodup hid), htask']
  constructor
  case wakeIds =>
    rw [hchange.wakeIds, h.wakeIds, List.map_append]
    rfl
  case replies =>
    have hawaits : s.world.awaits (a.token, a.co) = true :=
      awaits_of_get (get_of_waiting hcons htask)
    have hrest := h.replies
    rw [Link.coming, hreplies, List.cons_append, List.filter_cons_of_pos hawaits] at hrest
    rw [awaits_congr hchange.pending]
    exact List.tail_eq_of_cons_eq hrest
  case completed =>
    intro b hb
    rcases List.mem_append.mp hb with hb | hb
    · exact hkept (h.completed b hb) (.inl (List.mem_map_of_mem hb))
    · rw [List.mem_singleton.mp hb, hchange.tasks, Function.update_self]
      rfl
  case pending =>
    intro b hb
    exact hkept (h.pending b (List.mem_cons_of_mem a hb))
      (.inr (List.mem_append_left _ (List.mem_map_of_mem hb)))
  case asked =>
    intro r hr
    obtain ⟨token, htoken, hr'⟩ := h.asked r hr
    exact ⟨token, htoken, hkept hr' (.inr (List.mem_append_right _ (List.mem_map_of_mem hr)))⟩
  case nodup =>
    rw [hunderWay]
    exact h.nodup
  case covered =>
    intro id task hrun
    rw [hunderWay]
    rcases (running_update hchange.tasks).mp hrun with ⟨rfl, -, -⟩ | ⟨-, hrun⟩
    · simp [Link.underWay]
    · exact h.covered id task hrun
  case agrees =>
    rw [hchange.shown, List.append_assoc]
    exact h.agrees

/-- The oldest wake-up ends its call with its answer. -/
theorem Aligned.wake {a : Answer} (hcons : Consistent s.world)
    (h : Aligned deviceId s (a :: woken) coming) {w' : World} {task : Task}
    (htask : s.world.tasks a.id = some task)
    (hreplies : w'.replies = s.world.replies) (hwakeIds : s.world.wakeIds = a.id :: w'.wakeIds)
    (hend : CallEnd s.world a.id task w') :
    Aligned deviceId { s with world := w' } woken coming := by
  have hcompleted := h.completed a List.mem_cons_self
  rw [htask] at hcompleted
  cases hcompleted
  have hnodup : (a.id :: s.underWay woken coming).Nodup := h.nodup
  rw [List.nodup_cons] at hnodup
  have hkept : ∀ {id : ℕ} {task : Task}, s.world.tasks id = some task →
      id ∈ s.underWay woken coming → w'.tasks id = some task := by
    intro id task htask' hid
    have hne : id ≠ a.id := fun heq => hnodup.1 (heq ▸ hid)
    rw [hend.tasks, Function.update_of_ne hne, htask']
  constructor
  case wakeIds =>
    have hrest := h.wakeIds
    rw [hwakeIds] at hrest
    exact List.tail_eq_of_cons_eq hrest
  case replies =>
    rw [← h.replies, Link.coming, Link.coming, hreplies]
    apply List.filter_congr
    intro reply hreply
    rw [World.awaits, World.awaits, hend.pending, Dict.get_erase]
    split
    · rename_i heq
      have htoken : reply.1 = a.token := heq
      -- a reply to this call would be an answer to come, but this call is answered
      have hget := get_of_waiting hcons htask
      have hawaits : s.world.awaits reply = true := awaits_of_get (by rw [htoken, hget])
      have hmem : reply ∈ coming.map fun a => (a.token, a.co) := by
        rw [← h.replies]
        exact List.mem_filter.mpr ⟨hreply, hawaits⟩
      obtain ⟨b, hb, rfl⟩ := List.mem_map.mp hmem
      have hpending := h.pending b hb
      have hgetb := get_of_waiting hcons hpending
      rw [show b.token = a.token from htoken, hget] at hgetb
      rw [← Option.some.inj hgetb, htask] at hpending
      have hfuture : Future.result a.co = .pending :=
        congrArg (fun task : Task => task.waiter.future) (Option.some.inj hpending)
      cases hfuture
    · rfl
  case completed =>
    intro b hb
    apply hkept (h.completed b (List.mem_cons_of_mem a hb))
    exact List.mem_append_left _ (List.mem_map_of_mem (List.mem_append_left _ hb))
  case pending =>
    intro b hb
    apply hkept (h.pending b hb)
    exact List.mem_append_left _ (List.mem_map_of_mem (List.mem_append_right _ hb))
  case asked =>
    intro r hr
    obtain ⟨token, htoken, hr'⟩ := h.asked r hr
    exact ⟨token, htoken, hkept hr' (List.mem_append_right _ (List.mem_map_of_mem hr))⟩
  case nodup => exact hnodup.2
  case covered =>
    intro id task hrun
    rcases (running_update hend.tasks).mp hrun with ⟨-, -, hended⟩ | ⟨hid, hrun⟩
    · cases hended
    · exact (List.mem_cons.mp (h.covered id task hrun)).resolve_left hid
  case agrees =>
    rw [hend.shown]
    exact h.agrees

/-- A job of the loop carries one answer on, or none. -/
theorem Aligned.loop (hcons : Consistent s.world) (h : Aligned deviceId s woken coming)
    {w' : World} (hstep : (machine deviceId).step s.world .loop = some w') :
    ∃ woken' coming', Aligned deviceId { s with world := w' } woken' coming' := by
  obtain ⟨hreplies, hhead⟩ : s.world.replies = (replyOf s.world .loop).toList ++ w'.replies ∧
      ∀ id, s.world.ready.head? = some (.wake id) → replyOf s.world .loop = none := by
    cases step_result hstep with
    | loop job rest queued _ result =>
        rw [replyOf_loop queued]
        refine ⟨replies_loop queued result, ?_⟩
        intro id hid
        rw [queued] at hid
        cases hid
        rfl
  have hcoming : s.coming deviceId = (replyOf s.world .loop).toList ++
      Link.coming deviceId { s with world := w' } := by
    rw [Link.coming, Link.coming, hreplies, List.append_assoc]
  -- a reply at the head that a request waits for is that of the oldest answer to come
  have holdest : ∀ t co id, replyOf s.world .loop = some (t, co) →
      s.world.bridge.pending.get t = some id →
      ∃ a coming', coming = a :: coming' ∧ a.id = id ∧ a.token = t ∧ a.co = co := by
    intro t co id hco hget
    have hawaits : s.world.awaits (t, co) = true := awaits_of_get hget
    have hall := h.replies
    rw [hcoming, hco, Option.toList_some, List.singleton_append,
      List.filter_cons_of_pos hawaits] at hall
    cases coming with
    | nil => cases hall
    | cons a coming' =>
        obtain ⟨rfl, rfl⟩ := Prod.mk.inj (List.head_eq_of_cons_eq hall)
        rw [get_of_waiting hcons (h.pending a List.mem_cons_self)] at hget
        exact ⟨a, coming', rfl, Option.some.inj hget, rfl, rfl⟩
  cases step_cases hstep with
  | frame same _ missed =>
      refine ⟨woken, coming, h.frame same ?_⟩
      rw [hcoming]
      cases hco : replyOf s.world .loop with
      | none => rfl
      | some reply =>
          cases hget : s.world.bridge.pending.get reply.1 with
          | none =>
              rw [Option.toList_some, List.singleton_append, List.filter_cons_of_neg]
              simp [World.awaits, hget]
          | some id =>
              obtain ⟨a, coming', rfl, rfl, -, -⟩ := holdest reply.1 reply.2 id hco hget
              have hdone := missed reply.1 reply.2 hco a.id hget _ (h.pending a List.mem_cons_self)
              cases hdone
  | complete t co id task _ reply get task_eq _ change =>
      obtain ⟨a, coming', rfl, rfl, rfl, rfl⟩ := holdest t co id reply get
      rw [reply] at hreplies
      exact ⟨woken ++ [a], coming', h.complete hcons task_eq hreplies change⟩
  | wake id task _ head running callEnd wakeIds =>
      cases woken with
      | nil =>
          rw [h.wakeIds] at wakeIds
          cases wakeIds
      | cons a woken' =>
          have hid : a.id = id := by
            have heq := wakeIds
            rw [h.wakeIds] at heq
            exact List.head_eq_of_cons_eq heq
          subst hid
          rw [hhead a.id head] at hreplies
          exact ⟨woken', coming,
            h.wake hcons (running_eq_some_iff.mp running).1 hreplies.symm wakeIds callEnd⟩
  | wakeNone id _ head running _ _ _ => exact absurd running (hcons.head_running head)
  | start _ _ _ _ _ event => cases event
  | wait _ _ event => cases event
  | interrupt _ _ _ event => rcases event with ⟨he, -⟩ | ⟨he, -⟩ <;> cases he
  | takeReply _ _ event => cases event

/-! ## Runs -/

/-- Every admissible step keeps the answers aligned. -/
theorem Aligned.step {e : LinkEvent} {s' : Link} (hcons : Consistent s.world)
    (h : Aligned deviceId s woken coming) (hok : LinkAssumptions deviceId s e)
    (hstep : s.step deviceId e = some s') :
    ∃ woken' coming', Aligned deviceId s' woken' coming' := by
  cases e with
  | call id caller token draws => exact ⟨woken, coming, h.call hok.2.1 hok.2.2 hstep⟩
  | dongle applies co draws =>
      rw [Link.step] at hstep
      split at hstep
      · rename_i r rest hrequests
        cases hstep
        obtain ⟨a, haligned⟩ := h.dongle hcons hrequests draws
          (fun hcontrol => hok (by simp [hrequests, hcontrol]))
        exact ⟨woken, coming ++ [a], haligned⟩
      · cases hstep
  | deliver =>
      rw [Link.step] at hstep
      split at hstep
      · rename_i m rest hreplies
        obtain ⟨w', hnetwork, rfl⟩ := Option.map_eq_some_iff.mp hstep
        obtain ⟨hsame, hreceived⟩ := replies_network hnetwork
        refine ⟨woken, coming, h.frame hsame ?_⟩
        rw [Link.coming, Link.coming, hreceived, hreplies, List.flatMap_cons, List.append_assoc]
      · cases hstep
  | bridge e =>
      rw [Link.step] at hstep
      obtain ⟨w', hbridge, rfl⟩ := Option.map_eq_some_iff.mp hstep
      cases e with
      | network cb =>
          obtain ⟨hsame, hreceived⟩ := replies_network hbridge
          refine ⟨woken, coming, h.frame hsame ?_⟩
          have hother : (cb.replies deviceId).filter s.world.awaits = [] := by
            rw [List.filter_eq_nil_iff]
            intro reply hreply
            simp [World.awaits, hok reply hreply]
          rw [Link.coming, Link.coming, hreceived, List.append_assoc, List.filter_append,
            List.filter_append, hother, List.nil_append, ← List.filter_append]
      | loop => exact h.loop hcons hbridge
      | thread | refresh | store =>
          obtain ⟨hsame, hreplies⟩ := quiet_step hbridge (by simp)
          exact ⟨woken, coming, h.frame hsame (by rw [Link.coming, Link.coming, hreplies])⟩
      | start | await | timeout | cancel => exact absurd hok id

end SotRwb1
