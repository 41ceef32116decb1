import SotRwb1.Bridge.Reply
import SotRwb1.Protocol.Command
import SotRwb1.System.Rpc

/-!
# How a write fails

A write returns, or it raises the one error its callers convert.  Whatever reaches
the future of its request is decoded without a guard: a dump with the token of the
request hands over `None`, and a `co` is handed over as it came.  So the write has
one face as long as the first reply that answers it can be decoded.

`writeSetting` follows one call apart from the others; `outcome_eq_asyncRpc` ties
it to the calls of a run.

## Main definitions

* `afterReply` — the future of a request after a reply.
* `asyncRpc`, `writeSetting` — one call from its connection test to its end.
* `OneFace`, `Readable`, `AnsweredReadably` — the outcomes a write may have, and when it has them.
* `ReceivedReply`, `AnswerReceived`, `AnswersTraced` — the replies a run received, and
  the invariant.
-/

namespace SotRwb1

open PyLib

/-! ## One call -/

/-- `_resolve_pending`, as the future of the request with this token sees it. -/
def resolve (token : String) (future : Future Json) (reply : String × Json) : Future Json :=
  if reply.1 = token ∧ future.done = false then .result reply.2 else future

/-- The future of a request after a reply with its token. -/
def afterReply (token : String) (future : Future Json) (body : Json) : Future Json :=
  ((handleRpcReply (.str token) body).effects.filterMap Effect.reply).foldl (resolve token) future

/-- `_async_rpc` on its own.  The replies with its token come in this order, and the
timer fires when they leave its future open. -/
def asyncRpc (connected : Bool) (token : String) (inbound : List Json) : Except CallError Json :=
  if connected then
    let waiter : Waiter Json :=
      ⟨inbound.foldl (afterReply token) .pending, true, false, false, false⟩
    (if waiter.woken then waiter else waiter.timeOut).outcome.mapError .ofInterruption
  else .error .writeError

/-- `async_write_setting` on its own. -/
def writeSetting (connected : Bool) (token channel value : String) (inbound : List Json) :
    Except CallError Unit :=
  match buildWriteCi channel value with
  | .error e => .error (.python e)
  | .ok _ => asyncWriteSetting (asyncRpc connected token inbound)

/-- The write returns normally or raises `RWB1WriteError`. -/
def OneFace (outcome : Except CallError Unit) : Prop :=
  outcome = .ok () ∨ outcome = .error .writeError

/-- A string that is ASCII and closes its base64 quanta. -/
def Readable (co : Json) : Prop :=
  ∃ s, co = .str s ∧ IsAscii s.toList ∧ (Base64.decode s.toList).isSome = true

/-- Of the replies, the first that answers the request is no dump and has a readable
`co`. -/
def AnsweredReadably (inbound : List Json) : Prop :=
  ∀ answer, inbound.findSome? answerOf = some answer → Readable answer

/-! ## Judging an answer -/

theorem isOk_decodeCo_iff (co : Json) : (decodeCo co).isOk = true ↔ Readable co := by
  cases co with
  | str s =>
      have hascii : s.toList.all (·.toNat < 128) = true ↔ IsAscii s.toList := by
        simp [IsAscii]
      rw [decodeCo]
      constructor
      · intro hok
        split at hok
        · rename_i hall
          refine ⟨s, rfl, hascii.mp hall, ?_⟩
          cases hraw : Base64.decode s.toList with
          | none =>
              rw [hraw] at hok
              cases hok
          | some raw => rfl
        · cases hok
      · intro hread
        obtain ⟨s', hs, hall, hraw⟩ := hread
        cases hs
        obtain ⟨raw, hraw⟩ := Option.isSome_iff_exists.mp hraw
        rw [if_pos (hascii.mpr hall), hraw]
        rfl
  | null | bool | int | float | arr | obj =>
      constructor
      · intro hok
        cases hok
      · intro hread
        obtain ⟨s, hs, -⟩ := hread
        cases hs

/-- An answer that cannot be decoded raises what `decode_co` raises. -/
theorem oneFace_answer_iff (co : Json) : OneFace (asyncWriteSetting (.ok co)) ↔ Readable co := by
  rw [← isOk_decodeCo_iff, OneFace, asyncWriteSetting, coIsNak, coIsAck]
  cases hco : decodeCo co with
  | error e => simp [Except.map, Except.isOk, Except.toBool]
  | ok text => cases hnak : hasNak text <;> simp [Except.map, Except.isOk, Except.toBool, hnak]

/-! ## The answer of a reply -/

/-- The first answer completes the future of its request. -/
theorem afterReply_eq (token : String) (future : Future Json) (body : Json) :
    afterReply token future body =
      match answerOf body with
      | some co => if future.done then future else .result co
      | none => future := by
  rw [afterReply, filterMap_handleRpcReply (fun _ _ => rfl) rfl]
  cases answerOf body with
  | none => rfl
  | some co => cases hdone : future.done <;> simp [Effect.reply, Job.reply, resolve, hdone]

theorem foldl_afterReply_result (token : String) (co : Json) (inbound : List Json) :
    inbound.foldl (afterReply token) (.result co) = .result co := by
  induction inbound with
  | nil => rfl
  | cons body rest ih =>
      have hafter : afterReply token (.result co) body = .result co := by
        rw [afterReply_eq]
        cases answerOf body <;> rfl
      rw [List.foldl_cons, hafter, ih]

theorem foldl_afterReply (token : String) (inbound : List Json) :
    inbound.foldl (afterReply token) .pending =
      match inbound.findSome? answerOf with
      | some co => .result co
      | none => .pending := by
  induction inbound with
  | nil => rfl
  | cons body rest ih =>
      rw [List.foldl_cons, afterReply_eq, List.findSome?_cons]
      cases hanswer : answerOf body with
      | none => exact ih
      | some co => exact foldl_afterReply_result token co rest

/-- A call returns its first answer, and without one it is a write error. -/
theorem asyncRpc_eq (connected : Bool) (token : String) (inbound : List Json) :
    asyncRpc connected token inbound =
      match inbound.findSome? answerOf with
      | some co => if connected then .ok co else .error .writeError
      | none => .error .writeError := by
  rw [asyncRpc, foldl_afterReply]
  cases connected <;> cases inbound.findSome? answerOf <;> rfl

/-! ## The callers -/

/-- `async_press` of the clear-fault button around its write. -/
def asyncPress (outcome : Except CallError Unit) : Except CallError Unit :=
  match outcome with
  | .error .writeError => .error .homeAssistantError
  | outcome => outcome

/-- A caller returns normally or raises `HomeAssistantError`. -/
def Converted (outcome : Except CallError Unit) : Prop :=
  outcome = .ok () ∨ outcome = .error .homeAssistantError

/-- No write raises the callers' own error. -/
theorem asyncWriteSetting_ne {reply : Except CallError Json}
    (h : reply ≠ .error .homeAssistantError) :
    asyncWriteSetting reply ≠ .error .homeAssistantError := by
  cases reply with
  | error e =>
      intro heq
      rw [asyncWriteSetting, Except.error.injEq] at heq
      exact h (congrArg Except.error heq)
  | ok co =>
      rw [asyncWriteSetting]
      cases coIsNak co with
      | error e => simp
      | ok nak => cases nak <;> cases coIsAck co <;> simp

/-- A caller converts the one error of a write and no other. -/
theorem converted_asyncPress_iff {outcome : Except CallError Unit}
    (h : outcome ≠ .error .homeAssistantError) : Converted (asyncPress outcome) ↔ OneFace outcome := by
  rw [Converted, OneFace, asyncPress.eq_def]
  cases outcome with
  | ok u => simp
  | error e => cases e <;> simp_all

theorem converted_finish_iff {e : Entity} (shown : Option e.Value) (value : e.Value)
    {reply : Except CallError Json} (h : reply ≠ .error .homeAssistantError) :
    Converted (Entity.finish shown value reply).2 ↔ OneFace (asyncWriteSetting reply) := by
  rw [← converted_asyncPress_iff (asyncWriteSetting_ne h), Entity.finish, asyncPress.eq_def]
  cases asyncWriteSetting reply with
  | ok u => rfl
  | error err => cases err <;> rfl

/-- ASCII text always makes a payload. -/
theorem writeSetting_eq {channel value : String} (hc : IsAscii channel.toList)
    (hv : IsAscii value.toList) (connected : Bool) (token : String) (inbound : List Json) :
    writeSetting connected token channel value inbound =
      asyncWriteSetting (asyncRpc connected token inbound) := by
  obtain ⟨ci, hci, -⟩ := buildWriteCi_eq_ok hc hv
  rw [writeSetting, hci]

/-- **Write failures have one face.**  For every connection state, ASCII channel and
value, and every list of replies that carry the token of the request in time, the
write returns normally or raises `RWB1WriteError`, and its caller returns normally or
raises `HomeAssistantError`, exactly if the first reply that answers it on a
connection is no dump and has a readable `co`. -/
theorem writeSetting_oneFace_iff (connected : Bool) (token : String) {channel value : String}
    (hc : IsAscii channel.toList) (hv : IsAscii value.toList) (inbound : List Json) :
    (OneFace (writeSetting connected token channel value inbound) ↔
      (connected = true → AnsweredReadably inbound)) ∧
    (Converted (asyncPress (writeSetting connected token channel value inbound)) ↔
      (connected = true → AnsweredReadably inbound)) ∧
    ∀ (e : Entity) (shown : Option e.Value) (v : e.Value),
      Converted (Entity.finish shown v (asyncRpc connected token inbound)).2 ↔
        (connected = true → AnsweredReadably inbound) := by
  have hrpc := asyncRpc_eq connected token inbound
  have hne : asyncRpc connected token inbound ≠ .error .homeAssistantError := by
    rw [hrpc]
    cases inbound.findSome? answerOf <;> cases connected <;> simp
  have hface : OneFace (asyncWriteSetting (asyncRpc connected token inbound)) ↔
      (connected = true → AnsweredReadably inbound) := by
    rw [hrpc, AnsweredReadably]
    cases hanswer : inbound.findSome? answerOf with
    | none => exact iff_of_true (.inr rfl) (by simp)
    | some co =>
        cases connected with
        | false => exact iff_of_true (.inr rfl) (by simp)
        | true => simpa using oneFace_answer_iff co
  rw [writeSetting_eq hc hv]
  exact ⟨hface, (converted_asyncPress_iff (asyncWriteSetting_ne hne)).trans hface,
    fun e shown v => (converted_finish_iff shown v hne).trans hface⟩

/-- A write that the dongle acknowledges. -/
theorem writeSetting_oneFace_iff_ack :
    OneFace (writeSetting true "token" "PBFT" "28.0" [.obj [("co", .str "KEFDSw0=")]]) := by
  refine (writeSetting_oneFace_iff true "token" (by decide) (by decide) _).1.mpr ?_
  intro _ answer hanswer
  cases hanswer
  exact ⟨_, rfl, by decide, by decide⟩

/-- A dump with the token of the write, and a number as `co`: both end the write with
a `TypeError`.  A `co` that is not ASCII ends it with a `ValueError`. -/
theorem dump_reply_raises :
    IsAscii "PBFT".toList ∧ IsAscii "28.0".toList ∧
    ¬ OneFace (writeSetting true "token" "PBFT" "28.0" [.obj [("ct", .arr [])]]) ∧
    writeSetting true "token" "PBFT" "28.0" [.obj [("ct", .arr [])]] =
      .error (.python .typeError) ∧
    writeSetting true "token" "PBFT" "28.0" [.obj [("co", .int 5)]] =
      .error (.python .typeError) ∧
    writeSetting true "token" "PBFT" "28.0" [.obj [("co", .str "é")]] =
      .error (.python .valueError) := by
  have hc : IsAscii "PBFT".toList := by decide
  have hv : IsAscii "28.0".toList := by decide
  simp only [writeSetting_eq hc hv, asyncRpc_eq]
  refine ⟨hc, hv, ?_, rfl, rfl, rfl⟩
  intro hface
  rcases hface with hface | hface <;> cases hface

/-! ## Calls of a run -/

variable {deviceId : String}

/-- A message with this token and body is in the history. -/
def ReceivedReply (history : List (World × Event)) (token : String) (body : Json) : Prop :=
  ∃ s ∈ history, ∃ m fields, s.2 = .network (.message m) ∧ m.loaded = .ok (.obj fields) ∧
    (fields.lookup "t").getD .null = .str token ∧ bodyOf fields = body

/-- The history holds a reply with this token that answers with this `co`. -/
def AnswerReceived (history : List (World × Event)) (token : String) (co : Json) : Prop :=
  ∃ body, ReceivedReply history token body ∧ answerOf body = some co

theorem AnswerReceived.later {history : List (World × Event)} {token : String} {co : Json}
    (h : AnswerReceived history token co) (s : World × Event) :
    AnswerReceived (history ++ [s]) token co := by
  obtain ⟨body, ⟨earlier, hmem, hreceived⟩, hanswer⟩ := h
  exact ⟨body, ⟨earlier, List.mem_append_left _ hmem, hreceived⟩, hanswer⟩

/-- An answer a network callback brings was in the message it handles. -/
theorem answerReceived_of_mem_replies {history : List (World × Event)} {w : World}
    {cb : NetworkCallback} {token : String} {co : Json}
    (h : (token, co) ∈ cb.replies deviceId) :
    AnswerReceived (history ++ [(w, .network cb)]) token co := by
  cases cb with
  | connect | disconnect => cases h
  | message m =>
      rw [NetworkCallback.replies, Option.mem_toList, Option.bind_eq_some_iff] at h
      obtain ⟨⟨token', co'⟩, hanswer, hstring⟩ := h
      rw [Message.answer] at hanswer
      split at hanswer
      · rename_i fields hloaded
        split at hanswer
        · obtain ⟨payload, hpayload, heq⟩ := Option.map_eq_some_iff.mp hanswer
          cases heq
          rw [stringReply] at hstring
          dsimp only at hstring
          split at hstring
          · rename_i t htoken
            cases hstring
            refine ⟨bodyOf fields, ⟨_, List.mem_append_right _ List.mem_cons_self, ?_⟩, hpayload⟩
            exact ⟨m, fields, rfl, hloaded, htoken, rfl⟩
          · cases hstring
        · cases hanswer
      · cases hanswer

/-- The replies under way and the results of the futures are answers of messages in
the history. -/
structure AnswersTraced (history : List (World × Event)) (w : World) : Prop where
  replies : ∀ token co, (token, co) ∈ w.replies → AnswerReceived history token co
  results : ∀ id task co, w.tasks id = some task → task.waiter.future = .result co →
    AnswerReceived history task.token co

theorem AnswersTraced.init (restored : Shown) : AnswersTraced [] (World.init restored) where
  replies := by simp [World.init, World.replies]
  results := by simp [World.init]

/-- The results stay answers of the history when one call is replaced by one whose
result is. -/
theorem AnswersTraced.results_update {history : List (World × Event)} {w w' : World} {e : Event}
    (h : AnswersTraced history w) {id : ℕ} {task : Task}
    (htasks : w'.tasks = Function.update w.tasks id (some task))
    (hresult : ∀ co, task.waiter.future = .result co → AnswerReceived history task.token co) :
    ∀ id' task' co, w'.tasks id' = some task' → task'.waiter.future = .result co →
      AnswerReceived (history ++ [(w, e)]) task'.token co := by
  intro id' task' co htask' hfuture
  rcases (tasks_update htasks).mp htask' with ⟨-, rfl⟩ | ⟨-, htask'⟩
  · exact (hresult co hfuture).later _
  · exact (h.results id' task' co htask' hfuture).later _

/-- The reply a step has the loop process was under way. -/
theorem mem_replies_of_replyOf {w : World} {e : Event} {reply : String × Json}
    (h : replyOf w e = some reply) : reply ∈ w.replies := by
  cases e with
  | loop =>
      rw [replyOf, Option.bind_eq_some_iff] at h
      obtain ⟨job, hhead, hreply⟩ := h
      exact List.mem_append_left _
        (List.mem_filterMap.mpr ⟨job, List.mem_of_head? hhead, hreply⟩)
  | network | thread | refresh | store | start | await | timeout | cancel => cases h

/-- Every step keeps the answers traced. -/
theorem AnswersTraced.step {history : List (World × Event)} {w w' : World} {e : Event}
    (hcons : Consistent w) (h : AnswersTraced history w)
    (hstep : (machine deviceId).step w e = some w') : AnswersTraced (history ++ [(w, e)]) w' := by
  constructor
  case replies =>
    intro token co hreply
    rcases mem_replies_step hstep hreply with hold | ⟨cb, rfl, hnew⟩
    · exact (h.replies token co hold).later _
    · exact answerReceived_of_mem_replies hnew
  case results =>
    cases step_cases hstep with
    | frame same _ _ =>
        intro id task co htask hfuture
        rw [same.tasks] at htask
        exact (h.results id task co htask hfuture).later _
    | start id caller token draws refusal _ _ tasks _ _ _ =>
        exact h.results_update tasks (by simp [Waiter.init])
    | complete t co id task _ reply get task_eq _ change =>
        refine h.results_update change.tasks ?_
        intro co' hco'
        obtain ⟨-, htoken⟩ := hcons.noneLeft.running_of_get get task_eq
        cases hco'
        rw [htoken]
        exact h.replies t co (mem_replies_of_replyOf reply)
    | wait id task _ running _ _ change =>
        exact h.results_update change.tasks fun co =>
          h.results id task co (running_eq_some_iff.mp running).1
    | interrupt id task waiter event running _ change =>
        refine h.results_update change.tasks ?_
        intro co hco
        have hfuture : waiter.future = task.waiter.interrupt.future := by
          rcases event with ⟨-, rfl⟩ | ⟨-, rfl⟩ <;> rfl
        rcases task.waiter.future_interrupt with hsame | ⟨-, hcancelled⟩
        · exact h.results id task co (running_eq_some_iff.mp running).1
            (hsame ▸ hfuture ▸ hco)
        · rw [hfuture, hcancelled] at hco
          cases hco
    | takeReply id task _ running _ _ callEnd _ =>
        exact h.results_update callEnd.tasks fun co =>
          h.results id task co (running_eq_some_iff.mp running).1
    | wake id task _ _ running callEnd _ =>
        exact h.results_update callEnd.tasks fun co =>
          h.results id task co (running_eq_some_iff.mp running).1
    | wakeNone id _ _ _ tasks _ _ =>
        intro id' task co htask hfuture
        rw [tasks] at htask
        exact (h.results id' task co htask hfuture).later _

/-- The answers of a run are traced. -/
theorem AnswersTraced.run {restored : Shown} {history : List (World × Event)} {w : World}
    (h : (machine deviceId).Run RpcAssumptions (World.init restored) history w) :
    Consistent w ∧ AnswersTraced history w := by
  refine h.historyInvariant (fun history w => Consistent w ∧ AnswersTraced history w)
    ⟨.init restored, .init restored⟩ ?_
  intro history s e s' hinv hok hstep
  exact ⟨hinv.1.step hok hstep, hinv.2.step hinv.1 hstep⟩

/-- **One call of many.**  In a run, a call that nobody cancelled ends as it would
alone, with replies from the history. -/
theorem outcome_eq_asyncRpc {restored : Shown} {history : List (World × Event)} {w : World}
    (h : (machine deviceId).Run RpcAssumptions (World.init restored) history w) {id : ℕ}
    {task : Task} {reply : Except CallError Json} (htask : w.tasks id = some task)
    (hended : task.ended = some reply) (hcancelled : task.waiter.cancelled = false) :
    ∃ inbound, (∀ body ∈ inbound, ReceivedReply history task.token body) ∧
      reply = asyncRpc true task.token inbound := by
  obtain ⟨hcons, htraced⟩ := AnswersTraced.run h
  obtain ⟨hreply, hdone⟩ := hcons.ended id task reply htask hended
  rw [Task.outcome] at hreply
  rcases Waiter.outcome_of_not_cancelled (hcons.sound id task htask) hdone hcancelled with
    ⟨co, hfuture, houtcome⟩ | houtcome
  · obtain ⟨body, hreceived, hanswer⟩ := htraced.results id task co htask hfuture
    refine ⟨[body], by simpa using hreceived, ?_⟩
    rw [hreply, houtcome, asyncRpc_eq, List.findSome?_cons, hanswer]
    rfl
  · refine ⟨[], by simp, ?_⟩
    rw [hreply, houtcome, asyncRpc_eq]
    rfl

/-- In a run in which every answer to a call is readable, what a write makes of the
end of the call has one face. -/
theorem oneFace_of_run {restored : Shown} {history : List (World × Event)} {w : World}
    (h : (machine deviceId).Run RpcAssumptions (World.init restored) history w) {id : ℕ}
    {task : Task} {reply : Except CallError Json} (htask : w.tasks id = some task)
    (hended : task.ended = some reply) (hcancelled : task.waiter.cancelled = false)
    (hreadable : ∀ co, AnswerReceived history task.token co → Readable co) :
    OneFace (asyncWriteSetting reply) := by
  obtain ⟨inbound, hreceived, rfl⟩ := outcome_eq_asyncRpc h htask hended hcancelled
  rw [asyncRpc_eq]
  cases hanswer : inbound.findSome? answerOf with
  | none => exact .inr rfl
  | some co =>
      obtain ⟨body, hmem, hco⟩ := List.exists_of_findSome?_eq_some hanswer
      exact (oneFace_answer_iff co).mpr (hreadable co ⟨body, hreceived body hmem, hco⟩)

end SotRwb1
