import SotRwb1.Bridge.Reply
import SotRwb1.System.World

/-!
# What a step does to the calls

Of a step only a few things matter to calls: the table, the calls themselves, the
wake-ups in the loop's queue, and what the entities show.  `step_cases` lists all
a step can do to them, and every invariant of calls is derived from it.

## Main definitions

* `wakeIds` — the calls whose wake-up is queued, in order.
* `replyOf` — the reply a step has the loop process.
* `CallChange`, `step_cases` — the effect of a step on the calls.
* `NetworkCallback.replies` — the replies a network callback brings.
* `World.replies`, `replies_step` — the replies received and not processed.
* `Task.Later`, `later_step` — what a step keeps of a call.
-/

namespace SotRwb1

open PyLib

/-- The call a job wakes. -/
def Job.wakeId : Job → Option ℕ
  | wake id => some id
  | callback _ => none

/-- The calls whose wake-up is queued, in order. -/
def World.wakeIds (w : World) : List ℕ := w.ready.filterMap Job.wakeId

/-- The token and payload of the reply a job processes.  A token that is not a
string is in no table. -/
def Job.reply : Job → Option (String × Json)
  | callback (.resolvePending (.str t) co) => some (t, co)
  | _ => none

/-- The reply an event has the loop process. -/
def replyOf (w : World) (e : Event) : Option (String × Json) :=
  match e with
  | .loop => w.ready.head?.bind Job.reply
  | _ => none

/-- Nothing changed for the calls. -/
structure SameCalls (w w' : World) : Prop where
  tasks : w'.tasks = w.tasks
  pending : w'.bridge.pending = w.bridge.pending
  wakeIds : w'.wakeIds = w.wakeIds
  shown : w'.shown = w.shown

/-- A call's wait changed, and its wake-up was scheduled if it came to be woken. -/
structure WaiterChange (w : World) (id : ℕ) (task : Task) (waiter : Waiter Json) (w' : World) :
    Prop where
  tasks : w'.tasks = Function.update w.tasks id (some { task with waiter := waiter })
  pending : w'.bridge.pending = w.bridge.pending
  wakeIds : w'.wakeIds =
    if waiter.woken && !task.waiter.woken then w.wakeIds ++ [id] else w.wakeIds
  shown : w'.shown = w.shown

/-- A call ended as its wait came out. -/
structure CallEnd (w : World) (id : ℕ) (task : Task) (w' : World) : Prop where
  tasks : w'.tasks = Function.update w.tasks id (some { task with ended := some task.outcome })
  pending : w'.bridge.pending = w.bridge.pending.erase task.token
  shown : w'.shown = task.caller.conclude w.shown task.outcome

/-- What a step does to the calls. -/
inductive CallChange (w : World) (e : Event) (w' : World) : Prop
  /-- Nothing; a reply that was processed found no call, or one already completed. -/
  | frame (same : SameCalls w w')
      (fresh : ∀ id caller token draws refusal, e = .start id caller token draws refusal →
        w.tasks id = none)
      (missed : ∀ t co, replyOf w e = some (t, co) → ∀ id, w.bridge.pending.get t = some id →
        ∀ task, w.tasks id = some task → task.waiter.future.done = true)
  /-- A call started; with a refusal its `publish` raised. -/
  | start (id : ℕ) (caller : Caller) (token : String) (draws : Draws) (refusal : Option PyError)
      (event : e = .start id caller token draws refusal) (fresh : w.tasks id = none)
      (tasks : w'.tasks = Function.update w.tasks id
        (some ⟨token, caller, .init, refusal.map fun err => .error (.python err)⟩))
      (pending : w'.bridge.pending = w.bridge.pending.set token id)
      (wakeIds : w'.wakeIds = w.wakeIds) (shown : w'.shown = w.shown)
  /-- A reply completed the future of its call. -/
  | complete (t : String) (co : Json) (id : ℕ) (task : Task) (event : e = .loop)
      (reply : replyOf w e = some (t, co)) (get : w.bridge.pending.get t = some id)
      (task_eq : w.tasks id = some task) (isOpen : task.waiter.future = .pending)
      (change : WaiterChange w id task { task.waiter with future := .result co } w')
  /-- A call began to wait. -/
  | wait (id : ℕ) (task : Task) (event : e = .await id) (running : w.running id = some task)
      (idle : task.waiter.waiting = false) (isOpen : task.waiter.future = .pending)
      (change : WaiterChange w id task { task.waiter with waiting := true } w')
  /-- A waiting call timed out or was cancelled. -/
  | interrupt (id : ℕ) (task : Task) (waiter : Waiter Json)
      (event : e = .timeout id ∧ waiter = task.waiter.timeOut ∨
        e = .cancel id ∧ waiter = task.waiter.cancel)
      (running : w.running id = some task) (waiting : task.waiter.waiting = true)
      (change : WaiterChange w id task waiter w')
  /-- A call found its reply when it was about to wait. -/
  | takeReply (id : ℕ) (task : Task) (event : e = .await id) (running : w.running id = some task)
      (idle : task.waiter.waiting = false) (isDone : task.waiter.future.done = true)
      (callEnd : CallEnd w id task w') (wakeIds : w'.wakeIds = w.wakeIds)
  /-- The wake-up of a call ran. -/
  | wake (id : ℕ) (task : Task) (event : e = .loop) (head : w.ready.head? = some (.wake id))
      (running : w.running id = some task) (callEnd : CallEnd w id task w')
      (wakeIds : w.wakeIds = id :: w'.wakeIds)
  /-- A wake-up found no running call. -/
  | wakeNone (id : ℕ) (event : e = .loop) (head : w.ready.head? = some (.wake id))
      (running : w.running id = none) (tasks : w'.tasks = w.tasks)
      (pending : w'.bridge.pending = w.bridge.pending) (shown : w'.shown = w.shown)

/-! ## The cases of a step -/

theorem WaiterChange.setWaiter (w : World) (id : ℕ) (task : Task) (waiter : Waiter Json) :
    WaiterChange w id task waiter (w.setWaiter id task waiter) where
  tasks := rfl
  pending := rfl
  wakeIds := by
    rw [World.setWaiter, World.wakeIds]
    dsimp only
    split
    · rw [List.filterMap_append]
      rfl
    · rfl
  shown := rfl

theorem CallEnd.finish (w : World) (id : ℕ) (task : Task) :
    CallEnd w id task (w.finish id task task.outcome) := ⟨rfl, rfl, rfl⟩

/-- The change of a wait is the same seen from a world with the same calls. -/
theorem WaiterChange.of_same {w w₁ w' : World} {id : ℕ} {task : Task} {waiter : Waiter Json}
    (hsame : SameCalls w w₁) (h : WaiterChange w₁ id task waiter w') :
    WaiterChange w id task waiter w' where
  tasks := by rw [h.tasks, hsame.tasks]
  pending := by rw [h.pending, hsame.pending]
  wakeIds := by rw [h.wakeIds, hsame.wakeIds]
  shown := by rw [h.shown, hsame.shown]

theorem SameCalls.perform (w : World) (effect : Effect) : SameCalls w (w.perform effect) := by
  cases effect with
  | callSoon cb => exact ⟨rfl, rfl, by simp [World.wakeIds, World.perform, Job.wakeId], rfl⟩
  | setConnected | setState | subscribe | publish => exact ⟨rfl, rfl, rfl, rfl⟩

/-- A callback taken from the queue wakes no call. -/
theorem SameCalls.dequeue {w : World} {cb : Callback} {rest : List Job}
    (h : w.ready = .callback cb :: rest) : SameCalls w { w with ready := rest } :=
  ⟨rfl, rfl, by simp [World.wakeIds, h, Job.wakeId, List.filterMap_cons], rfl⟩

theorem replyOf_loop {w : World} {job : Job} {rest : List Job} (h : w.ready = job :: rest) :
    replyOf w .loop = job.reply := by
  rw [replyOf, h]
  rfl

/-- A step without a reply that leaves the calls alone and starts none. -/
theorem CallChange.quiet {w w' : World} {e : Event} (same : SameCalls w w')
    (hstart : ∀ id caller token draws refusal, e ≠ .start id caller token draws refusal)
    (hreply : replyOf w e = none) : CallChange w e w' := by
  apply CallChange.frame same
  · intro id caller token draws refusal he
    exact absurd he (hstart id caller token draws refusal)
  · intro t co h
    rw [hreply] at h
    cases h

/-- A job that leaves the calls alone and processes no reply. -/
theorem CallChange.quietJob {w w' : World} {cb : Callback} {rest : List Job}
    (hready : w.ready = .callback cb :: rest) (hsame : SameCalls { w with ready := rest } w')
    (hreply : (Job.callback cb).reply = none) : CallChange w .loop w' := by
  have hdequeue : SameCalls w { w with ready := rest } := SameCalls.dequeue hready
  refine .quiet ⟨?_, ?_, ?_, ?_⟩ (by simp) ((replyOf_loop hready).trans hreply)
  · exact hsame.tasks.trans hdequeue.tasks
  · exact hsame.pending.trans hdequeue.pending
  · exact hsame.wakeIds.trans hdequeue.wakeIds
  · exact hsame.shown.trans hdequeue.shown

/-- What a job does to the calls. -/
theorem CallChange.loop {w w' : World} {job : Job} {rest : List Job}
    (hready : w.ready = job :: rest) (h : JobResult { w with ready := rest } job w') :
    CallChange w .loop w' := by
  cases h with
  | notify | connect => exact .quietJob hready ⟨rfl, rfl, rfl, rfl⟩ rfl
  | complete t co id task get task_eq isOpen =>
      exact .complete t co id task rfl (replyOf_loop hready) get task_eq isOpen
        (.of_same (SameCalls.dequeue hready) (.setWaiter _ id task _))
  | missed t co done =>
      apply CallChange.frame (SameCalls.dequeue hready) (by simp)
      intro t' co' heq id hget task htask
      rw [replyOf_loop hready] at heq
      cases heq
      exact done id task hget htask
  | unknown token co noStr | typeError token co noStr =>
      refine .quietJob hready ⟨rfl, rfl, rfl, rfl⟩ ?_
      cases token with
      | str t => exact absurd rfl (noStr t)
      | null | bool | int | float | arr | obj => rfl
  | wake id task running =>
      have hrun : w.running id = some task := running
      apply CallChange.wake id task rfl (by rw [hready]; rfl) hrun ⟨rfl, rfl, rfl⟩
      rw [World.wakeIds, hready]
      rfl
  | wakeNone id running =>
      have hrun : w.running id = none := running
      exact .wakeNone id rfl (by rw [hready]; rfl) hrun rfl rfl rfl

/-- Everything a step can do to the calls. -/
theorem step_cases {deviceId : String} {w w' : World} {e : Event}
    (h : (machine deviceId).step w e = some w') : CallChange w e w' := by
  cases step_result h with
  | network | refresh | refreshFails | store => exact .quiet ⟨rfl, rfl, rfl, rfl⟩ (by simp) rfl
  | thread effect rest performing =>
      have hsame := SameCalls.perform { w with thread := rest } effect
      exact .quiet ⟨hsame.tasks, hsame.pending, hsame.wakeIds, hsame.shown⟩ (by simp) rfl
  | loop job rest queued _ result => exact .loop queued result
  | register id caller token ci draws fresh =>
      exact .start id caller token draws none rfl fresh rfl rfl rfl rfl
  | refuse id caller token draws err fresh =>
      exact .start id caller token draws (some err) rfl fresh rfl rfl rfl rfl
  | startFails id caller token draws refusal fresh =>
      exact .frame ⟨rfl, rfl, rfl, rfl⟩ (fun id' _ _ _ _ he => by cases he; exact fresh)
        (fun _ _ he => by cases he)
  | wait id task running idle isOpen =>
      exact .wait id task rfl running idle isOpen (.setWaiter w id task _)
  | takeReply id task running idle isDone =>
      exact .takeReply id task rfl running idle isDone (.finish w id task) rfl
  | timeout id task running waiting =>
      exact .interrupt id task _ (.inl ⟨rfl, rfl⟩) running waiting (.setWaiter w id task _)
  | cancel id task running waiting =>
      exact .interrupt id task _ (.inr ⟨rfl, rfl⟩) running waiting (.setWaiter w id task _)

/-! ## Replies the bridge has received -/

/-- The reply an effect schedules for processing. -/
def Effect.reply : Effect → Option (String × Json)
  | callSoon cb => (Job.callback cb).reply
  | _ => none

/-- The reply with this token and payload, if the token can be in a table. -/
def stringReply (reply : Json × Json) : Option (String × Json) :=
  match reply.1 with
  | .str t => some (t, reply.2)
  | _ => none

/-- The replies a network callback brings. -/
def NetworkCallback.replies (deviceId : String) : NetworkCallback → List (String × Json)
  | message m => ((m.answer deviceId).bind stringReply).toList
  | _ => []

/-- A network callback schedules the replies it brings for processing. -/
theorem filterMap_reply_action (deviceId : String) (cb : NetworkCallback) :
    (cb.action deviceId).effects.filterMap Effect.reply = cb.replies deviceId := by
  cases cb with
  | connect rc draws =>
      rw [NetworkCallback.action, effects_onConnect]
      split <;> rfl
  | disconnect => rfl
  | message m =>
      rw [NetworkCallback.action, filterMap_onMessage (fun _ _ => rfl) (fun _ _ => rfl) rfl,
        NetworkCallback.replies]
      congr 2
      funext reply
      obtain ⟨token, co⟩ := reply
      cases token <;> rfl

/-- The replies queued on the loop and those the network thread will schedule. -/
def World.replies (w : World) : List (String × Json) :=
  w.ready.filterMap Job.reply ++ w.thread.filterMap Effect.reply

theorem replies_setWaiter (w : World) (id : ℕ) (task : Task) (waiter : Waiter Json) :
    (w.setWaiter id task waiter).replies = w.replies := by
  rw [World.setWaiter, World.replies, World.replies]
  dsimp only [World.setTask]
  split
  · rw [List.filterMap_append]
    simp [Job.reply]
  · rfl

theorem replies_job {w w' : World} {job : Job} (h : JobResult w job w') :
    w'.replies = w.replies := by
  cases h with
  | complete t co id task => exact replies_setWaiter w id task _
  | notify | connect | missed | unknown | typeError | wake | wakeNone => rfl

/-- The network thread hands its replies over one by one. -/
theorem replies_perform (w : World) (effect : Effect) (rest : List Effect)
    (h : w.thread = effect :: rest) :
    (({ w with thread := rest } : World).perform effect).replies = w.replies := by
  rw [World.replies, World.replies, h]
  cases effect with
  | callSoon cb =>
      simp only [World.perform, List.filterMap_append, List.append_assoc]
      rw [List.append_cancel_left_eq, List.filterMap_cons]
      cases hreply : (Job.callback cb).reply <;> simp [Effect.reply, hreply]
  | setConnected | setState | subscribe | publish => rfl

theorem replies_loop {w w' : World} {job : Job} {rest : List Job} (h : w.ready = job :: rest)
    (hresult : JobResult { w with ready := rest } job w') :
    w.replies = job.reply.toList ++ w'.replies := by
  rw [replies_job hresult, World.replies, World.replies, h, List.filterMap_cons]
  cases job.reply <;> rfl

/-- A network callback adds the replies it brings. -/
theorem replies_network {deviceId : String} {w w' : World} {cb : NetworkCallback}
    (h : (machine deviceId).step w (.network cb) = some w') :
    SameCalls w w' ∧ w'.replies = w.replies ++ cb.replies deviceId := by
  cases step_result h with
  | network cb idle =>
      refine ⟨⟨rfl, rfl, rfl, rfl⟩, ?_⟩
      rw [← filterMap_reply_action]
      simp [World.replies, idle]

/-- The replies an event brings: those of the network callback it begins. -/
def Event.replies (deviceId : String) : Event → List (String × Json)
  | .network cb => cb.replies deviceId
  | _ => []

/-- **A step and the replies**: it has at most one processed, and adds those it brings. -/
theorem replies_step {deviceId : String} {w w' : World} {e : Event}
    (h : (machine deviceId).step w e = some w') :
    (replyOf w e).toList ++ w'.replies = w.replies ++ e.replies deviceId := by
  cases step_result h with
  | network cb idle => exact (replies_network h).2
  | thread effect rest performing =>
      rw [replies_perform w effect rest performing]
      exact (List.append_nil _).symm
  | loop job rest queued _ result =>
      rw [replyOf_loop queued, replies_loop queued result]
      exact (List.append_nil _).symm
  | wait | timeout | cancel =>
      rw [replies_setWaiter]
      exact (List.append_nil _).symm
  | refresh | refreshFails | store | register | refuse | startFails | takeReply =>
      exact (List.append_nil _).symm

/-- A step brings no replies but those of a network callback. -/
theorem mem_replies_step {deviceId : String} {w w' : World} {e : Event}
    (h : (machine deviceId).step w e = some w') {reply : String × Json}
    (hreply : reply ∈ w'.replies) :
    reply ∈ w.replies ∨ ∃ cb, e = .network cb ∧ reply ∈ cb.replies deviceId := by
  have hmem : reply ∈ w.replies ++ e.replies deviceId := by
    rw [← replies_step h]
    exact List.mem_append_right _ hreply
  rcases List.mem_append.mp hmem with hold | hnew
  · exact .inl hold
  · cases e with
    | network cb => exact .inr ⟨cb, rfl, hnew⟩
    | thread | loop | refresh | store | start | await | timeout | cancel => cases hnew

/-! ## Calls go on -/

/-- A call returns only the result of its future. -/
theorem Task.outcome_of_ok {task : Task} {co : Json} (h : task.outcome = .ok co) :
    task.waiter.future = .result co ∧ task.waiter.mustCancel = false := by
  apply Waiter.outcome_of_ok
  rw [Task.outcome] at h
  cases hw : task.waiter.outcome with
  | ok a =>
      rw [hw] at h
      cases h
      rfl
  | error err =>
      rw [hw] at h
      cases h

/-- The same call later: a completed future and an end stay as they are. -/
structure Task.Later (task task' : Task) : Prop where
  token : task'.token = task.token
  caller : task'.caller = task.caller
  future : task.waiter.future.done = true → task'.waiter.future = task.waiter.future
  ended : ∀ reply, task.ended = some reply → task'.ended = some reply

theorem Task.Later.refl (task : Task) : task.Later task :=
  ⟨rfl, rfl, fun _ => rfl, fun _ hended => hended⟩

/-- After a step every call is there, later. -/
theorem later_step {deviceId : String} {w w' : World} {e : Event}
    (h : (machine deviceId).step w e = some w') {id : ℕ} {task : Task}
    (htask : w.tasks id = some task) :
    ∃ task', w'.tasks id = some task' ∧ task.Later task' := by
  -- a step that replaces one call
  have hreplace : ∀ {id₀ : ℕ} {task₀ task₁ : Task}, w.tasks id₀ = some task₀ →
      w'.tasks = Function.update w.tasks id₀ (some task₁) → task₀.Later task₁ →
      ∃ task', w'.tasks id = some task' ∧ task.Later task' := by
    intro id₀ task₀ task₁ htask₀ htasks hlater
    by_cases hid : id = id₀
    · subst hid
      rw [htask] at htask₀
      cases htask₀
      exact ⟨task₁, by rw [htasks, Function.update_self], hlater⟩
    · exact ⟨task, by rw [htasks, Function.update_of_ne hid, htask], .refl task⟩
  cases step_cases h with
  | frame same _ _ => exact ⟨task, by rw [same.tasks, htask], .refl task⟩
  | start id₀ caller token draws refusal _ fresh tasks _ _ _ =>
      refine ⟨task, ?_, .refl task⟩
      rw [tasks, Function.update_of_ne _, htask]
      intro hid
      rw [hid, fresh] at htask
      cases htask
  | complete t co id₀ task₀ _ _ _ task_eq isOpen change =>
      refine hreplace task_eq change.tasks ⟨rfl, rfl, ?_, fun _ hended => hended⟩
      intro hdone
      rw [isOpen] at hdone
      cases hdone
  | wait id₀ task₀ _ running _ _ change =>
      exact hreplace (running_eq_some_iff.mp running).1 change.tasks
        ⟨rfl, rfl, fun _ => rfl, fun _ hended => hended⟩
  | interrupt id₀ task₀ waiter event running _ change =>
      refine hreplace (running_eq_some_iff.mp running).1 change.tasks
        ⟨rfl, rfl, ?_, fun _ hended => hended⟩
      intro hdone
      have hfuture : waiter.future = task₀.waiter.interrupt.future := by
        rcases event with ⟨-, rfl⟩ | ⟨-, rfl⟩ <;> rfl
      rcases task₀.waiter.future_interrupt with hsame | ⟨hpending, -⟩
      · exact hfuture.trans hsame
      · rw [hpending] at hdone
        cases hdone
  | takeReply id₀ task₀ _ running _ _ callEnd _ =>
      obtain ⟨htask₀, hended⟩ := running_eq_some_iff.mp running
      exact hreplace htask₀ callEnd.tasks ⟨rfl, rfl, fun _ => rfl, by simp [hended]⟩
  | wake id₀ task₀ _ _ running callEnd _ =>
      obtain ⟨htask₀, hended⟩ := running_eq_some_iff.mp running
      exact hreplace htask₀ callEnd.tasks ⟨rfl, rfl, fun _ => rfl, by simp [hended]⟩
  | wakeNone id₀ _ _ _ tasks _ _ => exact ⟨task, by rw [tasks, htask], .refl task⟩

end SotRwb1
