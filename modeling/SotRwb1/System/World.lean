import Mathlib.Logic.Function.Basic
import SotRwb1.Bridge.Dispatch
import SotRwb1.Control
import SotRwb1.Lib.Machine
import SotRwb1.Lib.Waiter

/-!
# The bridge inside Home Assistant

Two threads meet here.  The network thread runs one callback at a time and
performs its effects one by one; the event loop runs the jobs of its queue in
order, and between them the steps of user calls and of the coordinator's refresh.

A call is `_async_rpc` with its caller around it.  It registers its token and
publishes its request in one step, then begins to wait; it ends when its task
runs again.  Completing the future of the connection handshake is left out: no
call, entity or snapshot depends on it.

## Main definitions

* `Task`, `Caller`, `Job` — calls and the jobs of the loop.
* `World`, `World.init` — the state of both threads.
* `Event`, `World.step`, `machine` — the steps.
* `JobResult`, `StepResult` — all that a job or a step can do.
-/

namespace SotRwb1

open PyLib

/-! ## Calls -/

/-- Who issued a call: an entity writing a value, the clear-fault button, or a
read of a channel. -/
inductive Caller where
  | control (e : Entity) (value : e.Value)
  | press
  | read (channel : String)

/-- The payload of a call's request. -/
def Caller.ci : Caller → Except CallError String
  | control e value =>
      match e.command value with
      | .ok (channel, valueStr) => (buildWriteCi channel valueStr).mapError .python
      | .error err => .error err
  | press => (buildWriteCi faultClearChannel "").mapError .python
  | read channel => (buildReadCi channel).mapError .python

/-- What every entity shows. -/
abbrev Shown := (e : Entity) → Option e.Value

/-- What the entities show at start-up, restored from what was stored. -/
def restoredShown (stored : (e : Entity) → e.Stored) : Shown := fun e => e.restored (stored e)

/-- What the entities show once a call ended in this way. -/
def Caller.conclude (caller : Caller) (shown : Shown) (reply : Except CallError Json) : Shown :=
  match caller with
  | control e value => Function.update shown e (Entity.finish (shown e) value reply).1
  | press => shown
  | read _ => shown

/-- A call that registered: its token, its issuer, the wait for its reply, and how
it ended. -/
structure Task where
  token : String
  caller : Caller
  waiter : Waiter Json
  ended : Option (Except CallError Json)

/-- A timeout is reported as a write error. -/
def CallError.ofInterruption : Interruption → CallError
  | .timeoutError => .writeError
  | .cancelledError => .cancelledError

/-- How the call ends when its task runs again. -/
def Task.outcome (task : Task) : Except CallError Json :=
  task.waiter.outcome.mapError .ofInterruption

/-- The request of a call. -/
def rpcEnvelope (ci token : String) (draws : Draws) : Json :=
  buildEnvelope (.int cmdDevRpc) (.obj [("ci", .str ci), ("no", .int 0), ("rs", .int 0)])
    (.int iRpcReadwrite) (.str token) none draws

/-! ## The state -/

/-- A job in the loop's queue. -/
inductive Job where
  | callback (cb : Callback)
  | wake (id : ℕ)

/-- The bridge, the loop's queue, the rest of the running network callback, the
snapshot a refresh has returned and not stored yet, the coordinator's data, the
calls by number, what the entities show, and the exceptions raised by jobs. -/
structure World where
  bridge : Bridge
  ready : List Job
  thread : List Effect
  refreshed : Option (Dict String Json)
  data : Option (Dict String Json)
  tasks : ℕ → Option Task
  shown : Shown
  jobErrors : List PyError

/-- The start: the bridge as constructed, its notifier registered, nothing
stored, and the entities showing what they restored. -/
def World.init (restored : Shown) : World :=
  ⟨.init, [], [], none, none, fun _ => none, restored, []⟩

namespace World

variable (w : World)

/-- Perform one effect of a network callback. -/
def perform : Effect → World
  | .callSoon cb => { w with ready := w.ready ++ [.callback cb] }
  | effect => { w with bridge := w.bridge.perform effect }

/-- Replace a call. -/
def setTask (id : ℕ) (task : Task) : World :=
  { w with tasks := Function.update w.tasks id (some task) }

/-- Replace the wait of a call; the wake-up of its task is scheduled when it comes
to be woken. -/
def setWaiter (id : ℕ) (task : Task) (waiter : Waiter Json) : World :=
  { w.setTask id { task with waiter := waiter } with
    ready := if waiter.woken && !task.waiter.woken then w.ready ++ [.wake id] else w.ready }

/-- End a call: its table entry goes, and its caller concludes. -/
def finish (id : ℕ) (task : Task) (reply : Except CallError Json) : World :=
  { w.setTask id { task with ended := some reply } with
    bridge := { w.bridge with pending := w.bridge.pending.erase task.token }
    shown := task.caller.conclude w.shown reply }

/-- The rest of `_resolve_pending` once the future is found. -/
def complete (id : ℕ) (task : Task) (co : Json) : World :=
  if task.waiter.future.done then w
  else
    match task.waiter.future.setResult co with
    | .ok future => w.setWaiter id task { task.waiter with future := future }
    | .error err => { w with jobErrors := w.jobErrors ++ [err] }

/-- `_resolve_pending`: look the token up and complete its future.  A token that
cannot be a dictionary key raises; one that is no string is not in the table. -/
def resolvePending (token co : Json) : World :=
  match token with
  | .str t =>
      match w.bridge.pending.get t with
      | some id =>
          match w.tasks id with
          | some task => w.complete id task co
          | none => w
      | none => w
  | .arr _ => { w with jobErrors := w.jobErrors ++ [.typeError] }
  | .obj _ => { w with jobErrors := w.jobErrors ++ [.typeError] }
  | _ => w

/-- The running call with this number. -/
def running (id : ℕ) : Option Task := (w.tasks id).filter fun task => task.ended.isNone

/-- Run the task of a call again. -/
def resume (id : ℕ) : World :=
  match w.running id with
  | some task => w.finish id task task.outcome
  | none => w

/-- Run a job of the loop. -/
def runJob : Job → World
  | .callback .notify => { w with data := some w.bridge.state }
  | .callback (.resolveConnect _) => w
  | .callback (.resolvePending token co) => w.resolvePending token co
  | .wake id => w.resume id

end World

/-! ## Steps -/

/-- The callbacks of the network thread. -/
inductive NetworkCallback where
  | connect (rc : ℤ) (draws : Draws)
  | disconnect
  | message (m : Message)

/-- The handler of a network callback. -/
def NetworkCallback.action (deviceId : String) : NetworkCallback → Action
  | connect rc draws => onConnect deviceId rc draws
  | disconnect => onDisconnect
  | message m => onMessage deviceId m

/-- If the callback handles an event post, the acknowledgement can be encoded. -/
def NetworkCallback.encodesEvent (deviceId : String) : NetworkCallback → Bool
  | message m => m.encodesOn deviceId .eventPost
  | _ => true

/-- The steps: a network callback begins or performs an effect; the loop runs a
job; a refresh takes a snapshot or has it stored; a call starts, begins to wait,
times out or is cancelled.  A call may start with a `publish` that raises. -/
inductive Event where
  | network (cb : NetworkCallback)
  | thread
  | loop
  | refresh (draws : Draws)
  | store
  | start (id : ℕ) (caller : Caller) (token : String) (draws : Draws) (refusal : Option PyError)
  | await (id : ℕ)
  | timeout (id : ℕ)
  | cancel (id : ℕ)

namespace World

variable (deviceId : String) (w : World)

/-- A call registers its token and publishes its request. -/
def register (id : ℕ) (caller : Caller) (token ci : String) (draws : Draws) : World :=
  { w.setTask id ⟨token, caller, .init, none⟩ with
    bridge := { w.bridge with
      pending := w.bridge.pending.set token id
      published := w.bridge.published ++
        [(topicRpcRequest deviceId, rpcEnvelope ci token draws)] } }

/-- A call registers its token and fails to publish its request: the exception
leaves the call before its `try` block. -/
def registerRefused (id : ℕ) (caller : Caller) (token : String) (err : PyError) : World :=
  { w.setTask id ⟨token, caller, .init, some (.error (.python err))⟩ with
    bridge := { w.bridge with pending := w.bridge.pending.set token id } }

/-- A call starts: without payload or connection it raises at once. -/
def start (id : ℕ) (caller : Caller) (token : String) (draws : Draws)
    (refusal : Option PyError) : World :=
  match caller.ci with
  | .error _ => w
  | .ok ci =>
      if w.bridge.connected then
        match refusal with
        | none => w.register deviceId id caller token ci draws
        | some err => w.registerRefused id caller token err
      else w

/-- A registered call begins to wait, or takes its reply if it is there already. -/
def beginWait (id : ℕ) (task : Task) : World :=
  if task.waiter.future.done then w.finish id task task.outcome
  else w.setWaiter id task { task.waiter with waiting := true }

/-- `none` when the event cannot happen: the network thread is busy or idle, the
queue is empty, the number is taken, or the call is not at that point. -/
def step : Event → Option World
  | .network cb =>
      if w.thread.isEmpty then some { w with thread := (cb.action deviceId).effects } else none
  | .thread =>
      match w.thread with
      | effect :: rest => some ({ w with thread := rest }.perform effect)
      | [] => none
  | .loop =>
      match w.ready with
      | job :: rest => some ({ w with ready := rest }.runJob job)
      | [] => none
  | .refresh draws =>
      if w.refreshed.isSome then none
      else if w.bridge.connected then
        some { w with
          bridge := { w.bridge with
            published := w.bridge.published ++
              [(topicRpcRequest deviceId,
                buildEnvelope (.int cmdDevRpc) (.obj []) (.int iRpcDump) .null none draws)] }
          refreshed := some w.bridge.state }
      else some w
  | .store => w.refreshed.map fun snapshot => { w with data := some snapshot, refreshed := none }
  | .start id caller token draws refusal =>
      if (w.tasks id).isNone then some (w.start deviceId id caller token draws refusal) else none
  | .await id =>
      (w.running id).bind fun task =>
        if task.waiter.waiting then none else some (w.beginWait id task)
  | .timeout id =>
      (w.running id).bind fun task =>
        if task.waiter.waiting && !task.waiter.expired then
          some (w.setWaiter id task task.waiter.timeOut)
        else none
  | .cancel id =>
      (w.running id).bind fun task =>
        if task.waiter.waiting then some (w.setWaiter id task task.waiter.cancel) else none

end World

/-- The bridge of a device inside Home Assistant. -/
def machine (deviceId : String) : Machine World Event := ⟨World.step deviceId⟩

/-! ## What jobs and steps come to -/

theorem running_eq_some_iff {w : World} {id : ℕ} {task : Task} :
    w.running id = some task ↔ w.tasks id = some task ∧ task.ended = none := by
  simp [World.running, Option.filter_eq_some_iff]

/-- The state after a job. -/
inductive JobResult (w : World) : Job → World → Prop
  | notify : JobResult w (.callback .notify) { w with data := some w.bridge.state }
  | connect (refused : Bool) : JobResult w (.callback (.resolveConnect refused)) w
  | complete (t : String) (co : Json) (id : ℕ) (task : Task)
      (get : w.bridge.pending.get t = some id) (task_eq : w.tasks id = some task)
      (isOpen : task.waiter.future = .pending) :
      JobResult w (.callback (.resolvePending (.str t) co))
        (w.setWaiter id task { task.waiter with future := .result co })
  /-- The token belongs to no call, or its future is completed already. -/
  | missed (t : String) (co : Json)
      (done : ∀ id task, w.bridge.pending.get t = some id → w.tasks id = some task →
        task.waiter.future.done = true) :
      JobResult w (.callback (.resolvePending (.str t) co)) w
  | unknown (token co : Json) (noStr : ∀ t, token ≠ .str t) :
      JobResult w (.callback (.resolvePending token co)) w
  | typeError (token co : Json) (noStr : ∀ t, token ≠ .str t) :
      JobResult w (.callback (.resolvePending token co))
        { w with jobErrors := w.jobErrors ++ [.typeError] }
  | wake (id : ℕ) (task : Task) (running : w.running id = some task) :
      JobResult w (.wake id) (w.finish id task task.outcome)
  | wakeNone (id : ℕ) (running : w.running id = none) : JobResult w (.wake id) w

theorem job_result (w : World) (job : Job) : JobResult w job (w.runJob job) := by
  cases job with
  | wake id =>
      rw [World.runJob, World.resume]
      cases hrun : w.running id with
      | none => exact .wakeNone id hrun
      | some task => exact .wake id task hrun
  | callback cb =>
      cases cb with
      | notify => exact .notify
      | resolveConnect refused => exact .connect refused
      | resolvePending token co =>
          rw [World.runJob]
          cases token with
          | null | bool | int | float => exact .unknown _ co (by simp)
          | arr | obj => exact .typeError _ co (by simp)
          | str t =>
              rw [World.resolvePending]
              cases hget : w.bridge.pending.get t with
              | none => exact .missed t co (by simp [hget])
              | some id =>
                  dsimp only
                  cases htask : w.tasks id with
                  | none =>
                      apply JobResult.missed
                      intro id' task hget' htask'
                      rw [hget] at hget'
                      cases hget'
                      rw [htask] at htask'
                      cases htask'
                  | some task =>
                      dsimp only
                      rw [World.complete]
                      cases hdone : task.waiter.future.done with
                      | true =>
                          apply JobResult.missed
                          intro id' task' hget' htask'
                          rw [hget] at hget'
                          cases hget'
                          rw [htask] at htask'
                          cases htask'
                          exact hdone
                      | false =>
                          have hopen := Future.done_eq_false_iff.mp hdone
                          simp only [hopen, Bool.false_eq_true, if_false, Future.setResult]
                          exact .complete t co id task hget htask hopen

/-- The state after each event that can happen. -/
inductive StepResult (deviceId : String) (w : World) : Event → World → Prop
  | network (cb : NetworkCallback) (idle : w.thread = []) :
      StepResult deviceId w (.network cb) { w with thread := (cb.action deviceId).effects }
  | thread (effect : Effect) (rest : List Effect) (performing : w.thread = effect :: rest) :
      StepResult deviceId w .thread (({ w with thread := rest } : World).perform effect)
  | loop (job : Job) (rest : List Job) (queued : w.ready = job :: rest) (w' : World)
      (result : JobResult { w with ready := rest } job w') : StepResult deviceId w .loop w'
  | refresh (draws : Draws) (published : List (String × Json)) (free : w.refreshed = none) :
      StepResult deviceId w (.refresh draws)
        { w with
          bridge := { w.bridge with published := published }
          refreshed := some w.bridge.state }
  /-- Without a connection a refresh raises. -/
  | refreshFails (draws : Draws) : StepResult deviceId w (.refresh draws) w
  | store (snapshot : Dict String Json) (refreshed : w.refreshed = some snapshot) :
      StepResult deviceId w .store { w with data := some snapshot, refreshed := none }
  | register (id : ℕ) (caller : Caller) (token ci : String) (draws : Draws)
      (fresh : w.tasks id = none) :
      StepResult deviceId w (.start id caller token draws none)
        (w.register deviceId id caller token ci draws)
  | refuse (id : ℕ) (caller : Caller) (token : String) (draws : Draws) (err : PyError)
      (fresh : w.tasks id = none) :
      StepResult deviceId w (.start id caller token draws (some err))
        (w.registerRefused id caller token err)
  /-- A call without payload or connection raises before it registers. -/
  | startFails (id : ℕ) (caller : Caller) (token : String) (draws : Draws)
      (refusal : Option PyError) (fresh : w.tasks id = none) :
      StepResult deviceId w (.start id caller token draws refusal) w
  | wait (id : ℕ) (task : Task) (running : w.running id = some task)
      (idle : task.waiter.waiting = false) (isOpen : task.waiter.future = .pending) :
      StepResult deviceId w (.await id) (w.setWaiter id task { task.waiter with waiting := true })
  | takeReply (id : ℕ) (task : Task) (running : w.running id = some task)
      (idle : task.waiter.waiting = false) (isDone : task.waiter.future.done = true) :
      StepResult deviceId w (.await id) (w.finish id task task.outcome)
  | timeout (id : ℕ) (task : Task) (running : w.running id = some task)
      (waiting : task.waiter.waiting = true) :
      StepResult deviceId w (.timeout id) (w.setWaiter id task task.waiter.timeOut)
  | cancel (id : ℕ) (task : Task) (running : w.running id = some task)
      (waiting : task.waiter.waiting = true) :
      StepResult deviceId w (.cancel id) (w.setWaiter id task task.waiter.cancel)

/-- Everything a step can do. -/
theorem step_result {deviceId : String} {w w' : World} {e : Event}
    (h : (machine deviceId).step w e = some w') : StepResult deviceId w e w' := by
  change w.step deviceId e = some w' at h
  cases e with
  | network cb =>
      rw [World.step] at h
      split at h
      · rename_i hidle
        cases h
        exact .network cb (List.isEmpty_iff.mp hidle)
      · cases h
  | thread =>
      rw [World.step] at h
      split at h
      · rename_i effect rest hthread
        cases h
        exact .thread effect rest hthread
      · cases h
  | loop =>
      rw [World.step] at h
      split at h
      · rename_i job rest hready
        cases h
        exact .loop job rest hready _ (job_result _ job)
      · cases h
  | refresh draws =>
      rw [World.step] at h
      split at h
      · cases h
      · rename_i hrefreshed
        split at h <;> cases h
        · exact .refresh draws _ (by simpa using hrefreshed)
        · exact .refreshFails draws
  | store =>
      rw [World.step, Option.map_eq_some_iff] at h
      obtain ⟨snapshot, hrefreshed, rfl⟩ := h
      exact .store snapshot hrefreshed
  | start id caller token draws refusal =>
      rw [World.step] at h
      split at h
      · rename_i hisNone
        have hfresh : w.tasks id = none := by simpa using hisNone
        cases h
        rw [World.start]
        split
        · exact .startFails id caller token draws refusal hfresh
        · split
          · cases refusal with
            | none => exact .register id caller token _ draws hfresh
            | some err => exact .refuse id caller token draws err hfresh
          · exact .startFails id caller token draws refusal hfresh
      · cases h
  | await id =>
      rw [World.step, Option.bind_eq_some_iff] at h
      obtain ⟨task, hrun, h⟩ := h
      split at h
      · cases h
      · rename_i hidle
        have hidle : task.waiter.waiting = false := by simpa using hidle
        cases h
        rw [World.beginWait]
        cases hdone : task.waiter.future.done with
        | true => exact .takeReply id task hrun hidle hdone
        | false => exact .wait id task hrun hidle (Future.done_eq_false_iff.mp hdone)
  | timeout id =>
      rw [World.step, Option.bind_eq_some_iff] at h
      obtain ⟨task, hrun, h⟩ := h
      split at h
      · rename_i hguard
        cases h
        exact .timeout id task hrun (Bool.and_eq_true_iff.mp hguard).1
      · cases h
  | cancel id =>
      rw [World.step, Option.bind_eq_some_iff] at h
      obtain ⟨task, hrun, h⟩ := h
      split at h
      · rename_i hwaiting
        cases h
        exact .cancel id task hrun hwaiting
      · cases h

end SotRwb1
