import SotRwb1.Bridge.Reply
import SotRwb1.Lib.Liveness
import SotRwb1.Setup.Start
import SotRwb1.System.World

/-!
# The connection handshake

`async_start` waits for the future that `_resolve_connect` completes.  The network
thread answers it through the loop's queue: each CONNACK schedules one
`_resolve_connect`, and the first that the loop runs decides, unless the timer of
`wait_for`, which is that of Python 3.12 and later, or a cancellation comes before
the task runs again.  Reconnections, messages and lost connections may come at any
time.

The wait begins before the loop runs anything else, so a start is waiting from the
first state on.  What other callbacks do to the bridge is left out.

## Main definitions

* `Handshake`, `StartEvent`, `handshake` — a start with both threads.
* `startReport` — what a start does, told from its history.
* `start_reports`, `starts_end`.
-/

namespace SotRwb1

open PyLib

/-! ## The start of a bridge -/

/-- A job in the loop's queue while a start waits. -/
inductive StartJob where
  | callback (cb : Callback)
  | wake

/-- The topics subscribed to, the rest of the running network callback, the loop's
queue, the wait for the CONNACK, how it ended, and the exceptions raised by jobs. -/
structure Handshake where
  subscribed : List String
  thread : List Effect
  ready : List StartJob
  waiter : Waiter (Except SetupError Unit)
  ended : Option (Except SetupError Unit)
  jobErrors : List PyError

/-- The start: the network loop runs and the task waits. -/
def Handshake.init : Handshake := ⟨[], [], [], { Waiter.init with waiting := true }, none, []⟩

/-- What `_resolve_connect` completes the future with. -/
def connackAnswer (refused : Bool) : Except SetupError Unit :=
  if refused then .error .connectionError else .ok ⟨⟩

/-- The exception an interruption raises in the start. -/
def SetupError.ofInterruption : Interruption → SetupError
  | .timeoutError => .timeoutError
  | .cancelledError => .cancelledError

/-- How the wait ends when the task runs again: a refusal raises as well. -/
def waitResult (waiter : Waiter (Except SetupError Unit)) : Except SetupError Unit :=
  match waiter.outcome with
  | .ok answer => answer
  | .error interruption => .error (.ofInterruption interruption)

namespace Handshake

variable (s : Handshake)

/-- Perform one effect of a network callback. -/
def perform : Effect → Handshake
  | .callSoon cb => { s with ready := s.ready ++ [.callback cb] }
  | .subscribe topic => { s with subscribed := s.subscribed ++ [topic] }
  | _ => s

/-- Replace the wait; the wake-up is scheduled when it comes to be woken. -/
def setWaiter (waiter : Waiter (Except SetupError Unit)) : Handshake :=
  { s with
    waiter := waiter
    ready := if waiter.woken && !s.waiter.woken then s.ready ++ [.wake] else s.ready }

/-- `_resolve_connect`: a future that is done is left alone. -/
def resolveConnect (refused : Bool) : Handshake :=
  if s.waiter.future.done then s
  else
    match s.waiter.future.setResult (connackAnswer refused) with
    | .ok future => s.setWaiter { s.waiter with future := future }
    | .error err => { s with jobErrors := s.jobErrors ++ [err] }

/-- Run the task of the start again. -/
def resume : Handshake :=
  match s.ended with
  | none => { s with ended := some (waitResult s.waiter) }
  | some _ => s

/-- Run a job of the loop. -/
def runJob : StartJob → Handshake
  | .callback (.resolveConnect refused) => s.resolveConnect refused
  | .callback _ => s
  | .wake => s.resume

end Handshake

/-- The steps: a network callback begins or performs an effect; the loop runs a job;
the timer of the start fires, or somebody cancels it. -/
inductive StartEvent where
  | network (cb : NetworkCallback)
  | thread
  | loop
  | timeout
  | cancel

/-- `none` when the event cannot happen: the network thread is busy or idle, the queue
is empty, or the start has ended.  The timer fires once. -/
def Handshake.step (deviceId : String) (s : Handshake) : StartEvent → Option Handshake
  | .network cb =>
      if s.thread.isEmpty then some { s with thread := (cb.action deviceId).effects } else none
  | .thread =>
      match s.thread with
      | effect :: rest => some ({ s with thread := rest }.perform effect)
      | [] => none
  | .loop =>
      match s.ready with
      | job :: rest => some ({ s with ready := rest }.runJob job)
      | [] => none
  | .timeout =>
      if s.ended.isNone && !s.waiter.expired then some (s.setWaiter s.waiter.timeOut) else none
  | .cancel => if s.ended.isNone then some (s.setWaiter s.waiter.cancel) else none

/-- The start of a bridge, with both threads. -/
def handshake (deviceId : String) : Machine Handshake StartEvent := ⟨Handshake.step deviceId⟩

/-! ## What jobs and steps come to -/

/-- The state after a job. -/
inductive StartJobResult (s : Handshake) : StartJob → Handshake → Prop
  | answer (refused : Bool) (isOpen : s.waiter.future = .pending) :
      StartJobResult s (.callback (.resolveConnect refused))
        (s.setWaiter { s.waiter with future := .result (connackAnswer refused) })
  | late (refused : Bool) (isDone : s.waiter.future.done = true) :
      StartJobResult s (.callback (.resolveConnect refused)) s
  | other (cb : Callback) (noAnswer : ∀ refused, cb ≠ .resolveConnect refused) :
      StartJobResult s (.callback cb) s
  | wake (running : s.ended = none) :
      StartJobResult s .wake { s with ended := some (waitResult s.waiter) }
  | wakeNone (connack : Except SetupError Unit) (finished : s.ended = some connack) :
      StartJobResult s .wake s

theorem start_job_result (s : Handshake) (job : StartJob) :
    StartJobResult s job (s.runJob job) := by
  cases job with
  | wake =>
      rw [Handshake.runJob, Handshake.resume]
      cases hended : s.ended with
      | none => exact .wake hended
      | some connack => exact .wakeNone connack hended
  | callback cb =>
      cases cb with
      | notify | resolvePending => exact .other _ (by simp)
      | resolveConnect refused =>
          rw [Handshake.runJob, Handshake.resolveConnect]
          cases hdone : s.waiter.future.done with
          | true => exact .late refused hdone
          | false =>
              have hopen := Future.done_eq_false_iff.mp hdone
              simp only [hopen, Bool.false_eq_true, if_false, Future.setResult]
              exact .answer refused hopen

/-- The state after each event that can happen. -/
inductive StartResult (deviceId : String) (s : Handshake) : StartEvent → Handshake → Prop
  | network (cb : NetworkCallback) (idle : s.thread = []) :
      StartResult deviceId s (.network cb) { s with thread := (cb.action deviceId).effects }
  | thread (effect : Effect) (rest : List Effect) (performing : s.thread = effect :: rest) :
      StartResult deviceId s .thread (({ s with thread := rest } : Handshake).perform effect)
  | loop (job : StartJob) (rest : List StartJob) (queued : s.ready = job :: rest) (s' : Handshake)
      (result : StartJobResult { s with ready := rest } job s') : StartResult deviceId s .loop s'
  | timeout (running : s.ended = none) :
      StartResult deviceId s .timeout (s.setWaiter s.waiter.timeOut)
  | cancel (running : s.ended = none) :
      StartResult deviceId s .cancel (s.setWaiter s.waiter.cancel)

/-- Everything a step can do. -/
theorem start_result {deviceId : String} {s s' : Handshake} {e : StartEvent}
    (h : (handshake deviceId).step s e = some s') : StartResult deviceId s e s' := by
  change s.step deviceId e = some s' at h
  cases e with
  | network cb =>
      rw [Handshake.step] at h
      split at h
      · rename_i hidle
        cases h
        exact .network cb (List.isEmpty_iff.mp hidle)
      · cases h
  | thread =>
      rw [Handshake.step] at h
      split at h
      · rename_i effect rest hthread
        cases h
        exact .thread effect rest hthread
      · cases h
  | loop =>
      rw [Handshake.step] at h
      split at h
      · rename_i job rest hready
        cases h
        exact .loop job rest hready _ (start_job_result _ job)
      · cases h
  | timeout =>
      rw [Handshake.step] at h
      split at h
      · rename_i hrunning
        cases h
        rw [Bool.and_eq_true, Option.isNone_iff_eq_none] at hrunning
        exact .timeout hrunning.1
      · cases h
  | cancel =>
      rw [Handshake.step] at h
      split at h
      · rename_i hrunning
        cases h
        exact .cancel (Option.isNone_iff_eq_none.mp hrunning)
      · cases h

/-! ## The wait and its end -/

/-- The wait is sound, a wake-up is queued when the future is done and not before, and
an end is how the wait ended. -/
structure Handshake.Coherent (s : Handshake) : Prop where
  waiting : s.waiter.waiting = true
  sound : s.waiter.Sound
  queued : s.ended = none → s.waiter.future.done = true → .wake ∈ s.ready
  done : .wake ∈ s.ready → s.waiter.future.done = true
  ended : ∀ connack, s.ended = some connack →
    s.waiter.future.done = true ∧ connack = waitResult s.waiter
  calm : s.jobErrors = []

namespace Handshake

variable {deviceId : String} {s s' : Handshake} {e : StartEvent}

theorem Coherent.init : Handshake.init.Coherent where
  waiting := rfl
  sound := Waiter.Sound.init.wait
  queued := by simp [Handshake.init, Waiter.init, Future.done]
  done := by simp [Handshake.init]
  ended := by simp [Handshake.init]
  calm := rfl

/-- The future of a start that has not ended comes to be done. -/
theorem Coherent.setWaiter (h : s.Coherent) (hrunning : s.ended = none)
    {waiter : Waiter (Except SetupError Unit)} (hwaiting : waiter.waiting = true)
    (hdone : waiter.future.done = true) (hsound : waiter.Sound) :
    (s.setWaiter waiter).Coherent where
  waiting := hwaiting
  sound := hsound
  queued := by
    intro _ _
    cases hbefore : s.waiter.woken with
    | true =>
        rw [Waiter.woken, Bool.and_eq_true] at hbefore
        have hmem := h.queued hrunning hbefore.2
        rw [Handshake.setWaiter]
        dsimp only
        split
        · exact List.mem_append_left _ hmem
        · exact hmem
    | false =>
        have hwoken : waiter.woken = true := by
          rw [Waiter.woken, hwaiting, hdone]
          rfl
        simp [Handshake.setWaiter, hwoken, hbefore]
  done := fun _ => hdone
  ended := by
    intro connack hended
    change s.ended = some connack at hended
    rw [hrunning] at hended
    cases hended
  calm := h.calm

/-- A job that is no wake-up leaves the queue. -/
theorem Coherent.pop (h : s.Coherent) {cb : Callback} {rest : List StartJob}
    (hready : s.ready = .callback cb :: rest) :
    ({ s with ready := rest } : Handshake).Coherent where
  waiting := h.waiting
  sound := h.sound
  queued := by
    intro hrunning hdone
    have hmem := h.queued hrunning hdone
    simpa [hready] using hmem
  done := by
    intro hmem
    apply h.done
    rw [hready]
    exact List.mem_cons_of_mem _ hmem
  ended := h.ended
  calm := h.calm

/-- **The invariant.** -/
theorem Coherent.step (h : s.Coherent) (hstep : (handshake deviceId).step s e = some s') :
    s'.Coherent := by
  cases start_result hstep with
  | network cb idle => exact ⟨h.waiting, h.sound, h.queued, h.done, h.ended, h.calm⟩
  | thread effect rest performing =>
      cases effect with
      | callSoon cb =>
          refine ⟨h.waiting, h.sound, ?_, ?_, h.ended, h.calm⟩
          · intro hrunning hdone
            exact List.mem_append_left _ (h.queued hrunning hdone)
          · intro hmem
            apply h.done
            simpa [Handshake.perform] using hmem
      | setConnected | setState | subscribe | publish =>
          exact ⟨h.waiting, h.sound, h.queued, h.done, h.ended, h.calm⟩
  | loop job rest queued _ result =>
      cases result with
      | answer refused isOpen =>
          have hrunning : s.ended = none := by
            cases hended : s.ended with
            | none => rfl
            | some connack =>
                have hdone := (h.ended connack hended).1
                change s.waiter.future = .pending at isOpen
                rw [isOpen] at hdone
                cases hdone
          exact (h.pop queued).setWaiter hrunning h.waiting rfl (h.sound.setResult isOpen _)
      | late => exact h.pop queued
      | other => exact h.pop queued
      | wake running =>
          have hdone := h.done (by rw [queued]; exact List.mem_cons_self)
          refine ⟨h.waiting, h.sound, by simp, fun _ => hdone, ?_, h.calm⟩
          intro connack hended
          cases hended
          exact ⟨hdone, rfl⟩
      | wakeNone connack finished =>
          have hdone := h.done (by rw [queued]; exact List.mem_cons_self)
          refine ⟨h.waiting, h.sound, ?_, fun _ => hdone, h.ended, h.calm⟩
          intro hrunning
          change s.ended = none at hrunning
          change s.ended = some connack at finished
          rw [hrunning] at finished
          cases finished
  | timeout running =>
      exact h.setWaiter running (s.waiter.waiting_interrupt.trans h.waiting)
        s.waiter.done_interrupt (.timeOut s.waiter)
  | cancel running =>
      exact h.setWaiter running (s.waiter.waiting_interrupt.trans h.waiting)
        s.waiter.done_interrupt (.cancel s.waiter)

end Handshake

/-! ## The answers of the broker -/

/-- The answer a callback of the loop gives. -/
def Callback.answer : Callback → Option Bool
  | resolveConnect refused => some refused
  | _ => none

/-- The answer a job gives. -/
def StartJob.answer : StartJob → Option Bool
  | callback cb => cb.answer
  | wake => none

/-- The answer an effect schedules. -/
def Effect.answer (effect : Effect) : Option Bool := effect.scheduled.bind Callback.answer

/-- The return code of a CONNACK. -/
def StartEvent.returnCode : StartEvent → Option ℤ
  | network (.connect rc _) => some rc
  | _ => none

/-- The return codes of the CONNACKs so far. -/
def connacks (history : List (Handshake × StartEvent)) : List ℤ :=
  history.filterMap fun p => p.2.returnCode

/-- The answers the loop has not processed, in order. -/
def Handshake.coming (s : Handshake) : List Bool :=
  s.ready.filterMap StartJob.answer ++ s.thread.filterMap Effect.answer

/-- No message answers the handshake. -/
theorem filterMap_answer_onMessage (deviceId : String) (m : Message) :
    (onMessage deviceId m).effects.filterMap Effect.answer = [] := by
  rw [filterMap_onMessage (fun _ _ => rfl) (fun _ _ => rfl) rfl]
  cases m.answer deviceId <;> rfl

/-- A network callback answers as its CONNACK says. -/
theorem filterMap_answer_action (deviceId : String) (cb : NetworkCallback) :
    (cb.action deviceId).effects.filterMap Effect.answer =
      ((StartEvent.network cb).returnCode.map fun rc => decide (rc ≠ 0)).toList := by
  cases cb with
  | connect rc draws =>
      rw [NetworkCallback.action, effects_onConnect]
      by_cases hrc : rc = 0
      · rw [if_pos hrc, hrc]
        rfl
      · rw [if_neg hrc]
        simp [StartEvent.returnCode, Effect.answer, Effect.scheduled, Callback.answer, hrc]
  | disconnect => rfl
  | message m => exact filterMap_answer_onMessage deviceId m

/-- Replacing the wait leaves the answers to come. -/
theorem Handshake.coming_setWaiter (s : Handshake) (waiter : Waiter (Except SetupError Unit)) :
    (s.setWaiter waiter).coming = s.coming := by
  rw [Handshake.coming, Handshake.coming, Handshake.setWaiter]
  dsimp only
  split
  · rw [List.filterMap_append]
    simp [StartJob.answer]
  · rfl

/-- Performing an effect puts its answer behind those in the queue. -/
theorem Handshake.coming_perform {s : Handshake} {effect : Effect} {rest : List Effect}
    (hthread : s.thread = effect :: rest) :
    (({ s with thread := rest } : Handshake).perform effect).coming = s.coming := by
  rw [Handshake.coming, Handshake.coming, hthread]
  cases effect with
  | callSoon cb =>
      rw [Handshake.perform, List.filterMap_append, List.append_assoc]
      cases cb <;> rfl
  | setConnected | setState | subscribe | publish => rfl

/-- Whether the timer fired. -/
def StartEvent.isTimeout : StartEvent → Bool
  | timeout => true
  | _ => false

/-- Whether somebody cancelled the start. -/
def StartEvent.isCancel : StartEvent → Bool
  | cancel => true
  | _ => false

/-- The future has the first of the answers processed so far. -/
structure FirstAnswer (taken : List Bool) (future : Future (Except SetupError Unit)) : Prop where
  pending : future = .pending → taken = []
  result : ∀ answer, future = .result answer →
    ∃ refused, taken.head? = some refused ∧ answer = connackAnswer refused

/-- The answers processed and to come are those of the CONNACKs, the future has the
first of those processed, and the interruptions are those of the history. -/
structure Told (history : List (Handshake × StartEvent)) (s : Handshake) : Prop where
  heard : ∃ taken, taken ++ s.coming = (connacks history).map (fun rc => decide (rc ≠ 0)) ∧
    FirstAnswer taken s.waiter.future
  expired : s.waiter.expired = history.any fun p => p.2.isTimeout
  cancelled : s.waiter.cancelled = history.any fun p => p.2.isCancel

theorem connacks_append (history : List (Handshake × StartEvent)) (s : Handshake)
    (e : StartEvent) :
    connacks (history ++ [(s, e)]) = connacks history ++ e.returnCode.toList := by
  rw [connacks, List.filterMap_append]
  cases h : e.returnCode <;> simp [connacks, h]

theorem FirstAnswer.more {taken : List Bool} {future : Future (Except SetupError Unit)}
    (h : FirstAnswer taken future) (hdone : future.done = true) (more : List Bool) :
    FirstAnswer (taken ++ more) future where
  pending hpending := by
    rw [hpending] at hdone
    cases hdone
  result answer hanswer := by
    obtain ⟨refused, hhead, heq⟩ := h.result answer hanswer
    exact ⟨refused, by rw [List.head?_append, hhead]; rfl, heq⟩

theorem FirstAnswer.interrupt {taken : List Bool} {waiter : Waiter (Except SetupError Unit)}
    (h : FirstAnswer taken waiter.future) : FirstAnswer taken waiter.interrupt.future := by
  rcases waiter.future_interrupt with hsame | ⟨-, hcancelled⟩
  · rw [hsame]
    exact h
  · rw [hcancelled]
    exact ⟨by simp, by simp⟩

theorem Told.init : Told [] Handshake.init where
  heard := ⟨[], rfl, ⟨fun _ => rfl, by simp [Handshake.init, Waiter.init]⟩⟩
  expired := rfl
  cancelled := rfl

/-- A step that meets no CONNACK and no interruption. -/
theorem Told.quiet {s s' : Handshake} {e : StartEvent} {history : List (Handshake × StartEvent)}
    (h : Told history s) (hcode : e.returnCode = none) (htimeout : e.isTimeout = false)
    (hcancel : e.isCancel = false) (hexpired : s'.waiter.expired = s.waiter.expired)
    (hcancelled : s'.waiter.cancelled = s.waiter.cancelled)
    (hheard : ∀ taken, FirstAnswer taken s.waiter.future →
      ∃ taken', taken' ++ s'.coming = taken ++ s.coming ∧ FirstAnswer taken' s'.waiter.future) :
    Told (history ++ [(s, e)]) s' := by
  obtain ⟨taken, hsplit, hfirst⟩ := h.heard
  obtain ⟨taken', hsame, hfirst'⟩ := hheard taken hfirst
  refine ⟨⟨taken', ?_, hfirst'⟩, ?_, ?_⟩
  · rw [hsame, hsplit, connacks_append, hcode, Option.toList_none, List.append_nil]
  · simp [hexpired, h.expired, htimeout]
  · simp [hcancelled, h.cancelled, hcancel]

/-- An interruption changes the flags alone. -/
theorem Told.interrupt {s : Handshake} {e : StartEvent}
    {history : List (Handshake × StartEvent)} (h : Told history s) (hcode : e.returnCode = none)
    {waiter : Waiter (Except SetupError Unit)}
    (hfuture : waiter.future = s.waiter.interrupt.future)
    (hexpired : waiter.expired = (s.waiter.expired || e.isTimeout))
    (hcancelled : waiter.cancelled = (s.waiter.cancelled || e.isCancel)) :
    Told (history ++ [(s, e)]) (s.setWaiter waiter) := by
  obtain ⟨taken, hsplit, hfirst⟩ := h.heard
  refine ⟨⟨taken, ?_, ?_⟩, ?_, ?_⟩
  · rw [s.coming_setWaiter, hsplit, connacks_append, hcode, Option.toList_none, List.append_nil]
  · change FirstAnswer taken waiter.future
    rw [hfuture]
    exact hfirst.interrupt
  · change waiter.expired = _
    rw [hexpired, h.expired]
    simp
  · change waiter.cancelled = _
    rw [hcancelled, h.cancelled]
    simp

/-- What a job of the loop does to the answers. -/
theorem Told.job {s s' : Handshake} {job : StartJob} {rest : List StartJob}
    {history : List (Handshake × StartEvent)} (h : Told history s) (hready : s.ready = job :: rest)
    (hjob : StartJobResult { s with ready := rest } job s') :
    Told (history ++ [(s, .loop)]) s' := by
  have hcoming : s.coming =
      job.answer.toList ++ ({ s with ready := rest } : Handshake).coming := by
    rw [Handshake.coming, hready]
    cases hanswer : job.answer <;> simp [Handshake.coming, hanswer]
  cases hjob with
  | answer refused isOpen =>
      refine h.quiet rfl rfl rfl rfl rfl ?_
      intro taken hfirst
      refine ⟨[refused], ?_, ⟨?_, ?_⟩⟩
      · rw [Handshake.coming_setWaiter, hcoming, hfirst.pending isOpen]
        rfl
      · intro hpending
        cases hpending
      · intro answer hanswer
        cases hanswer
        exact ⟨refused, rfl, rfl⟩
  | late refused isDone =>
      refine h.quiet rfl rfl rfl rfl rfl ?_
      intro taken hfirst
      refine ⟨taken ++ [refused], ?_, hfirst.more isDone [refused]⟩
      rw [hcoming, List.append_assoc]
      rfl
  | other cb noAnswer =>
      refine h.quiet rfl rfl rfl rfl rfl ?_
      intro taken hfirst
      refine ⟨taken, ?_, hfirst⟩
      rw [hcoming]
      cases cb with
      | notify | resolvePending => rfl
      | resolveConnect refused => exact absurd rfl (noAnswer refused)
  | wake | wakeNone =>
      refine h.quiet rfl rfl rfl rfl rfl ?_
      intro taken hfirst
      exact ⟨taken, by rw [hcoming]; rfl, hfirst⟩

/-- **The ledger of answers and interruptions.** -/
theorem Told.step {deviceId : String} {s s' : Handshake} {e : StartEvent}
    {history : List (Handshake × StartEvent)} (h : Told history s)
    (hstep : (handshake deviceId).step s e = some s') : Told (history ++ [(s, e)]) s' := by
  cases start_result hstep with
  | network cb idle =>
      obtain ⟨taken, hsplit, hfirst⟩ := h.heard
      refine ⟨⟨taken, ?_, hfirst⟩, ?_, ?_⟩
      · rw [connacks_append, List.map_append, ← hsplit, List.append_assoc, Handshake.coming,
          Handshake.coming, idle, filterMap_answer_action]
        cases hcode : (StartEvent.network cb).returnCode <;> simp
      · rw [List.any_append, ← h.expired]
        simp [StartEvent.isTimeout]
      · rw [List.any_append, ← h.cancelled]
        simp [StartEvent.isCancel]
  | thread effect rest performing =>
      have hwaiter : (({ s with thread := rest } : Handshake).perform effect).waiter =
          s.waiter := by
        cases effect <;> rfl
      refine h.quiet rfl rfl rfl (by rw [hwaiter]) (by rw [hwaiter]) ?_
      intro taken hfirst
      refine ⟨taken, by rw [Handshake.coming_perform performing], ?_⟩
      rw [hwaiter]
      exact hfirst
  | loop job rest queued _ result => exact h.job queued result
  | timeout running =>
      refine h.interrupt rfl rfl (Bool.or_true _).symm ?_
      rw [Waiter.timeOut, s.waiter.flags_interrupt.2]
      exact (Bool.or_false _).symm
  | cancel running =>
      refine h.interrupt rfl rfl ?_ (Bool.or_true _).symm
      rw [Waiter.cancel, s.waiter.flags_interrupt.1]
      exact (Bool.or_false _).symm

/-! ## The subscription -/

/-- The answer to a good CONNACK follows the subscription. -/
structure Announced (deviceId : String) (s : Handshake) : Prop where
  thread : ∀ before after, s.thread = before ++ .callSoon (.resolveConnect false) :: after →
    topicPubWildcard deviceId ∈ s.subscribed ∨ .subscribe (topicPubWildcard deviceId) ∈ before
  ready : .callback (.resolveConnect false) ∈ s.ready → topicPubWildcard deviceId ∈ s.subscribed
  result : s.waiter.future = .result (.ok ⟨⟩) → topicPubWildcard deviceId ∈ s.subscribed

theorem Announced.init (deviceId : String) : Announced deviceId Handshake.init where
  thread := by simp [Handshake.init]
  ready := by simp [Handshake.init]
  result := by simp [Handshake.init, Waiter.init]

/-- A network callback subscribes before it answers. -/
theorem subscribe_mem_of_action {deviceId : String} {cb : NetworkCallback}
    {before after : List Effect}
    (h : (cb.action deviceId).effects = before ++ .callSoon (.resolveConnect false) :: after) :
    .subscribe (topicPubWildcard deviceId) ∈ before := by
  have hanswer := filterMap_answer_action deviceId cb
  have hmem : Effect.callSoon (.resolveConnect false) ∈ (cb.action deviceId).effects := by
    rw [h]
    simp
  cases cb with
  | connect rc draws =>
      rw [NetworkCallback.action, effects_onConnect] at h hmem
      by_cases hrc : rc = 0
      · rw [if_pos hrc] at h
        -- the answer is the third effect
        cases before with
        | nil => cases h
        | cons first before =>
            cases before with
            | nil => cases h
            | cons second before =>
                obtain ⟨hsecond, -⟩ := List.cons.inj (List.cons.inj h).2
                rw [← hsecond]
                exact List.mem_cons_of_mem _ List.mem_cons_self
      · rw [if_neg hrc] at hmem
        simp at hmem
  | disconnect => simp [NetworkCallback.action, effects_onDisconnect] at hmem
  | message m =>
      have hnone := List.filterMap_eq_nil_iff.mp (filterMap_answer_onMessage deviceId m) _ hmem
      cases hnone

theorem Announced.setWaiter {deviceId : String} {s : Handshake} (h : Announced deviceId s)
    (waiter : Waiter (Except SetupError Unit))
    (hresult : waiter.future = .result (.ok ⟨⟩) → topicPubWildcard deviceId ∈ s.subscribed) :
    Announced deviceId (s.setWaiter waiter) where
  thread := h.thread
  ready := by
    intro hmem
    apply h.ready
    rw [Handshake.setWaiter] at hmem
    dsimp only at hmem
    split at hmem
    · simpa using hmem
    · exact hmem
  result := hresult

theorem Announced.interrupt {deviceId : String} {s : Handshake} (h : Announced deviceId s)
    (waiter : Waiter (Except SetupError Unit))
    (hfuture : waiter.future = s.waiter.interrupt.future) :
    Announced deviceId (s.setWaiter waiter) := by
  apply h.setWaiter
  intro hresult
  rcases s.waiter.future_interrupt with hsame | ⟨-, hcancelled⟩
  · exact h.result (by rw [← hsame, ← hfuture, hresult])
  · rw [hfuture, hcancelled] at hresult
    cases hresult

theorem Announced.step {deviceId : String} {s s' : Handshake} {e : StartEvent}
    (h : Announced deviceId s) (hstep : (handshake deviceId).step s e = some s') :
    Announced deviceId s' := by
  cases start_result hstep with
  | network cb idle =>
      exact ⟨fun _ _ hsplit => .inr (subscribe_mem_of_action hsplit), h.ready, h.result⟩
  | thread effect rest performing =>
      -- what the rest of the callback may rely on
      have hrest : ∀ before after, rest = before ++ .callSoon (.resolveConnect false) :: after →
          topicPubWildcard deviceId ∈ s.subscribed ∨
            effect = .subscribe (topicPubWildcard deviceId) ∨
              .subscribe (topicPubWildcard deviceId) ∈ before := by
        intro before after hsplit
        have hthread := h.thread (effect :: before) after (by rw [performing, hsplit]; rfl)
        simpa [eq_comm] using hthread
      cases effect with
      | subscribe topic =>
          refine ⟨?_, ?_, ?_⟩
          · intro before after hsplit
            rcases hrest before after hsplit with hmem | heq | hmem
            · exact .inl (List.mem_append_left _ hmem)
            · cases heq
              exact .inl (List.mem_append_right _ List.mem_cons_self)
            · exact .inr hmem
          · exact fun hmem => List.mem_append_left _ (h.ready hmem)
          · exact fun hresult => List.mem_append_left _ (h.result hresult)
      | callSoon cb =>
          refine ⟨?_, ?_, h.result⟩
          · intro before after hsplit
            rcases hrest before after hsplit with hmem | heq | hmem
            · exact .inl hmem
            · cases heq
            · exact .inr hmem
          · intro hmem
            rw [Handshake.perform, List.mem_append, List.mem_singleton] at hmem
            rcases hmem with hmem | heq
            · exact h.ready hmem
            · cases heq
              rcases h.thread [] rest performing with hmem | hmem
              · exact hmem
              · cases hmem
      | setConnected | setState | publish =>
          refine ⟨?_, h.ready, h.result⟩
          intro before after hsplit
          rcases hrest before after hsplit with hmem | heq | hmem
          · exact .inl hmem
          · cases heq
          · exact .inr hmem
  | loop job rest queued _ result =>
      have hpop : Announced deviceId { s with ready := rest } :=
        ⟨h.thread, fun hmem => h.ready (by rw [queued]; exact List.mem_cons_of_mem _ hmem),
          h.result⟩
      cases result with
      | answer refused isOpen =>
          apply hpop.setWaiter
          intro hresult
          cases refused with
          | false => exact h.ready (by rw [queued]; exact List.mem_cons_self)
          | true => cases hresult
      | late | other | wakeNone => exact hpop
      | wake => exact ⟨hpop.thread, hpop.ready, hpop.result⟩
  | timeout running => exact h.interrupt _ rfl
  | cancel running => exact h.interrupt _ rfl

/-! ## What a start reports -/

/-- What a start does, told from its history.  A cancellation leaves the network loop
running; a timeout or a refusal stops it. -/
def startReport (c : Client) (history : List (Handshake × StartEvent)) : Setup Unit :=
  if history.any fun p => p.2.isCancel then ⟨[.loopStart c], .error .cancelledError⟩
  else if !(history.any fun p => p.2.isTimeout) && (connacks history).head? == some 0 then
    ⟨[.loopStart c], .ok ⟨⟩⟩
  else ⟨[.loopStart c, .loopStop c], .error .connectionError⟩

/-- The end of a wait shows in the report of the start. -/
theorem asyncStart_of_told {s : Handshake} {history : List (Handshake × StartEvent)}
    (hcoherent : s.Coherent) (htold : Told history s) {connack : Except SetupError Unit}
    (hended : s.ended = some connack) (c : Client) :
    asyncStart c ⟨.ok ⟨⟩, connack⟩ = startReport c history := by
  obtain ⟨hdone, rfl⟩ := hcoherent.ended connack hended
  rw [asyncStart_eq, startReport, ← htold.cancelled, ← htold.expired, waitResult]
  rcases Waiter.outcome_cases hcoherent.sound hdone with
    ⟨hcancelled, houtcome⟩ | ⟨hcancelled, hexpired, houtcome⟩ |
      ⟨hcancelled, hexpired, answer, hresult, houtcome⟩
  · rw [houtcome, hcancelled]
    rfl
  · rw [houtcome, hcancelled, hexpired]
    rfl
  · -- the answer is that of the first CONNACK
    obtain ⟨taken, hsplit, hfirst⟩ := htold.heard
    obtain ⟨refused, hhead, rfl⟩ := hfirst.result answer hresult
    have hconnack := congrArg List.head? hsplit
    rw [List.head?_append, hhead, List.head?_map] at hconnack
    obtain ⟨rc, hrc, hrefused⟩ := Option.map_eq_some_iff.mp hconnack.symm
    rw [houtcome, hcancelled, hexpired, hrc]
    cases refused with
    | false =>
        rw [decide_eq_false_iff_not, not_not] at hrefused
        rw [hrefused]
        rfl
    | true =>
        rw [decide_eq_true_iff] at hrefused
        simp [connackAnswer, hrefused, SetupError.isOSError, SetupError.reported,
          SetupError.cleanup]

variable {deviceId : String} {ok : Handshake → StartEvent → Prop}
  {history : List (Handshake × StartEvent)} {s : Handshake}

/-- **A start reports what happened.**  Whatever CONNACKs, messages, lost connections,
timeouts and cancellations meet, a start that has ended was cancelled, or returns
because the first CONNACK was good and the timer had not fired, or stopped the loop and
raised; it returns only after the subscription, and no job of the loop raises. -/
theorem start_reports (h : (handshake deviceId).Run ok Handshake.init history s) (c : Client) :
    s.jobErrors = [] ∧ ∀ connack, s.ended = some connack →
      asyncStart c ⟨.ok ⟨⟩, connack⟩ = startReport c history ∧
        (connack = .ok ⟨⟩ → topicPubWildcard deviceId ∈ s.subscribed) := by
  have hcoherent : s.Coherent :=
    h.invariant Handshake.Coherent .init fun _ _ _ hs _ hstep => hs.step hstep
  have htold : Told history s :=
    h.historyInvariant Told .init fun _ _ _ _ hs _ hstep => hs.step hstep
  have hannounced : Announced deviceId s :=
    h.invariant (Announced deviceId) (.init deviceId) fun _ _ _ hs _ hstep => hs.step hstep
  refine ⟨hcoherent.calm, ?_⟩
  intro connack hended
  refine ⟨asyncStart_of_told hcoherent htold hended c, ?_⟩
  rintro rfl
  apply hannounced.result
  have hwait := (hcoherent.ended _ hended).2
  rw [waitResult] at hwait
  split at hwait
  · rename_i answer houtcome
    rw [hwait]
    exact (Waiter.outcome_of_ok houtcome).1
  · cases hwait

/-- A good CONNACK whose answer is queued when the timer fires. -/
def lateEvents : List StartEvent :=
  [.network (.connect 0 ⟨"dump", "nonce", .plain⟩), .thread, .thread, .thread, .timeout, .loop,
    .loop]

/-- A client on the default port. -/
def lateClient : Client := ⟨0, "host", 1883, "x", "x", none, false⟩

set_option maxRecDepth 10000 in
/-- The start raises although the broker accepted it. -/
theorem start_reports_late :
    ∃ history s, (handshake "x").Run (fun _ _ => True) Handshake.init history s ∧
      connacks history = [0] ∧ s.jobErrors = [] ∧
      asyncStart lateClient ⟨.ok ⟨⟩, .error .timeoutError⟩ = startReport lateClient history := by
  have hreplay : ((handshake "x").replay (fun _ _ => True) Handshake.init lateEvents).any
      (fun r => connacks r.1 = [0] ∧ r.2.ended = some (.error .timeoutError)) = true := by
    decide +kernel
  obtain ⟨r, hreplayed, htest⟩ := (Option.any_eq_true _ _).mp hreplay
  obtain ⟨hconnacks, hended⟩ := of_decide_eq_true htest
  have hrun := Machine.Run.nil.replay hreplayed
  obtain ⟨hcalm, hreports⟩ := start_reports hrun lateClient
  exact ⟨r.1, r.2, hrun, hconnacks, hcalm, (hreports _ hended).1⟩

/-! ## Every start ends -/

theorem isPrefix_setWaiter (s : Handshake) (waiter : Waiter (Except SetupError Unit)) :
    s.ready <+: (s.setWaiter waiter).ready := by
  rw [Handshake.setWaiter]
  dsimp only
  split
  · exact List.prefix_append _ _
  · exact List.prefix_rfl

/-- The loop serves its jobs in order. -/
theorem queue_startReady (deviceId : String) :
    (handshake deviceId).Queue Handshake.ready .loop where
  grows := by
    intro s e s' hother hstep
    cases start_result hstep with
    | loop => exact absurd rfl hother
    | network => exact List.prefix_rfl
    | thread effect =>
        cases effect with
        | callSoon cb => exact List.prefix_append _ _
        | setConnected | setState | subscribe | publish => exact List.prefix_rfl
    | timeout | cancel => exact isPrefix_setWaiter s _
  serves := by
    intro s s' hstep
    cases start_result hstep with
    | loop job rest queued _ result =>
        rw [queued]
        cases result with
        | answer => exact isPrefix_setWaiter { s with ready := rest } _
        | late | other | wake | wakeNone => exact List.prefix_rfl
  enabled := by
    intro s hne
    cases hready : s.ready with
    | nil => exact absurd hready hne
    | cons job rest =>
        change (s.step deviceId .loop).isSome
        rw [Handshake.step, hready]
        rfl

/-- The end of a start stays. -/
theorem Handshake.ended_stays {s s' : Handshake} {e : StartEvent}
    (hstep : (handshake deviceId).step s e = some s') {connack : Except SetupError Unit}
    (h : s.ended = some connack) : s'.ended = some connack := by
  cases start_result hstep with
  | network => exact h
  | thread effect => cases effect <;> exact h
  | loop job rest queued _ result =>
      cases result with
      | answer | late | other | wakeNone => exact h
      | wake running =>
          change s.ended = none at running
          rw [running] at h
          cases h
  | timeout running | cancel running =>
      rw [running] at h
      cases h

/-- The timer completes the future. -/
theorem Handshake.done_timeout {s s' : Handshake}
    (hstep : (handshake deviceId).step s .timeout = some s') :
    s'.waiter.future.done = true := by
  cases start_result hstep with
  | timeout running => exact s.waiter.done_interrupt

/-- Running the wake-up ends the start. -/
theorem Handshake.ended_wake {s s' : Handshake}
    (hstep : (handshake deviceId).step s .loop = some s') (hhead : s.ready.head? = some .wake) :
    ∃ connack, s'.ended = some connack := by
  cases start_result hstep with
  | loop job rest queued _ result =>
      rw [queued] at hhead
      cases hhead
      cases result with
      | wake running => exact ⟨_, rfl⟩
      | wakeNone connack finished => exact ⟨connack, finished⟩

variable {x : (handshake deviceId).Execution ok Handshake.init}

theorem coherent_at (x : (handshake deviceId).Execution ok Handshake.init) (n : ℕ) :
    (x.state n).Coherent :=
  x.invariant Handshake.Coherent .init (fun _ _ _ hs _ hstep => hs.step hstep) n

/-- The future comes to be done: the timer fires if nothing else happens. -/
theorem exists_done (htimeout : x.Fair .timeout) : ∃ n, (x.state n).waiter.future.done = true := by
  have hopen : (x.state 0).waiter.future = .pending := by
    rw [x.start]
    rfl
  obtain ⟨m, -, hdone | ⟨-, hevent⟩⟩ :=
    x.exists_taken (P := fun s => s.waiter.future = .pending)
      (Q := fun s => s.waiter.future.done = true) htimeout hopen
      (by
        intro m _ hpending
        obtain ⟨-, hexpired, -⟩ := (coherent_at x m).sound.calm hpending
        have hrunning : (x.state m).ended = none := by
          cases hended : (x.state m).ended with
          | none => rfl
          | some connack =>
              have hdone := ((coherent_at x m).ended connack hended).1
              rw [hpending] at hdone
              cases hdone
        change ((x.state m).step deviceId .timeout).isSome
        simp [Handshake.step, hrunning, hexpired])
      (by
        intro m _ e _ _ _
        cases hdone : (x.state (m + 1)).waiter.future.done with
        | true => exact .inr rfl
        | false => exact .inl (Future.done_eq_false_iff.mp hdone))
  · exact ⟨m, hdone⟩
  · exact ⟨m + 1, Handshake.done_timeout (x.step m .timeout hevent)⟩

/-- **Every start ends.**  If the loop goes on and the timer fires, a start ends,
whatever the broker and the network thread do, and it reports what happened. -/
theorem starts_end (hloop : x.Fair .loop) (htimeout : x.Fair .timeout) (c : Client) :
    ∃ connack n, ∀ m ≥ n, (x.state m).ended = some connack ∧
      asyncStart c ⟨.ok ⟨⟩, connack⟩ = startReport c (x.history m) := by
  obtain ⟨n, hdone⟩ := exists_done htimeout
  have hends : ∃ m connack, (x.state m).ended = some connack := by
    cases hended : (x.state n).ended with
    | some connack => exact ⟨n, connack, hended⟩
    | none =>
        have hwake := (coherent_at x n).queued hended hdone
        obtain ⟨m, -, hhead, hevent⟩ := (queue_startReady deviceId).exists_served hloop hwake
        exact ⟨m + 1, Handshake.ended_wake (x.step m _ hevent) hhead⟩
  obtain ⟨n, connack, hended⟩ := hends
  refine ⟨connack, n, ?_⟩
  intro m hm
  have hstays : (x.state m).ended = some connack :=
    x.stays (P := fun s => s.ended = some connack) hended
      (fun k _ e hevent hk => Handshake.ended_stays (x.step k e hevent) hk) hm
  have htold : Told (x.history m) (x.state m) :=
    (x.run m).historyInvariant Told .init fun _ _ _ _ hs _ hstep => hs.step hstep
  exact ⟨hstays, asyncStart_of_told (coherent_at x m) htold hstays c⟩

set_option maxRecDepth 10000 in
/-- The start that the timer beat ends. -/
theorem starts_end_late :
    ∃ x : (handshake "x").Execution (fun _ _ => True) Handshake.init,
      (∀ n, x.event n = lateEvents[n]?) ∧
      ∃ connack n, ∀ m ≥ n, (x.state m).ended = some connack ∧
        asyncStart lateClient ⟨.ok ⟨⟩, connack⟩ = startReport lateClient (x.history m) := by
  have hreplay : ((handshake "x").replay (fun _ _ => True) Handshake.init lateEvents).any
      (fun r => r.2.ready.isEmpty && r.2.ended.isSome) = true := by decide +kernel
  obtain ⟨r, hreplayed, htest⟩ := (Option.any_eq_true _ _).mp hreplay
  simp only [Bool.and_eq_true, List.isEmpty_iff] at htest
  obtain ⟨hready, hended⟩ := htest
  have hrun := Machine.Run.nil.replay hreplayed
  have hstep : ∀ e, (handshake "x").step r.2 e = r.2.step "x" e := fun _ => rfl
  refine ⟨hrun.execution, ?_, starts_end (hrun.fair_execution ?_) (hrun.fair_execution ?_) _⟩
  · intro n
    rw [← Machine.events_replay hreplayed, List.getElem?_map]
    rfl
  · rw [hstep, Handshake.step, hready]
  · obtain ⟨connack, hsome⟩ := Option.isSome_iff_exists.mp hended
    rw [hstep, Handshake.step, hsome]
    rfl

end SotRwb1
