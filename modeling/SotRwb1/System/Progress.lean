import SotRwb1.Lib.Liveness
import SotRwb1.System.Ledger
import SotRwb1.System.Push
import SotRwb1.System.Rpc

/-!
# Progress

What happens eventually, when both threads go on, a call that runs gets its turn
and a timer that is set fires: every call ends, every write of the network thread
reaches the coordinator, and every message is acknowledged and every reply
processed.  Replies may come in any order or not at all, tokens may clash, and
publishing may raise.

## Main definitions

* `Fair` — the executions in which both threads, the calls and the timers go on.
* `Queued` — the wake-up of every woken call is queued.
* `calls_end`, `writes_delivered`, `data_converges`, `callbacks_complete`.
-/

namespace SotRwb1

open PyLib

variable {deviceId : String} {ok : World → Event → Prop} {restored : Shown}

/-- Both threads, the calls and their timers go on. -/
structure Fair (x : (machine deviceId).Execution ok (World.init restored)) : Prop where
  thread : x.Fair .thread
  loop : x.Fair .loop
  await : ∀ id, x.Fair (.await id)
  timeout : ∀ id, x.Fair (.timeout id)

/-! ## The two queues -/

theorem ready_perform (w : World) (effect : Effect) : w.ready <+: (w.perform effect).ready := by
  cases effect with
  | callSoon cb => exact List.prefix_append _ _
  | setConnected | setState | subscribe | publish => exact List.prefix_rfl

theorem ready_setWaiter (w : World) (id : ℕ) (task : Task) (waiter : Waiter Json) :
    w.ready <+: (w.setWaiter id task waiter).ready := by
  rw [World.setWaiter]
  dsimp only
  split
  · exact List.prefix_append _ _
  · exact List.prefix_rfl

/-- A job may append jobs. -/
theorem ready_job {w w' : World} {job : Job} (h : JobResult w job w') : w.ready <+: w'.ready := by
  cases h with
  | complete t co id task => exact ready_setWaiter w id task _
  | notify | connect | missed | unknown | typeError | wake | wakeNone => exact List.prefix_rfl

/-- The loop serves its jobs in order. -/
theorem queue_ready (deviceId : String) : (machine deviceId).Queue World.ready .loop where
  grows := by
    intro w e w' hother hstep
    cases step_result hstep with
    | loop => exact absurd rfl hother
    | thread effect rest => exact ready_perform { w with thread := rest } effect
    | wait id task | timeout id task | cancel id task => exact ready_setWaiter w id task _
    | network | refresh | refreshFails | store | register | refuse | startFails | takeReply =>
        exact List.prefix_rfl
  serves := by
    intro w w' hstep
    cases step_result hstep with
    | loop job rest queued _ result =>
        rw [queued]
        exact ready_job result
  enabled := by
    intro w hne
    cases hready : w.ready with
    | nil => exact absurd hready hne
    | cons job rest =>
        change (w.step deviceId .loop).isSome
        rw [World.step, hready]
        rfl

/-- The network thread performs the effects of its callback in order. -/
theorem queue_thread (deviceId : String) : (machine deviceId).Queue World.thread .thread where
  grows := by
    intro w e w' hother hstep
    rcases thread_step hstep with ⟨cb, -, hidle, -⟩ | ⟨he, -⟩ | ⟨hsame, -⟩
    · rw [hidle]
      exact List.nil_prefix
    · exact absurd he hother
    · rw [hsame]
  serves := by
    intro w w' hstep
    rcases thread_step hstep with ⟨cb, he, -⟩ | ⟨-, effect, hthread⟩ | ⟨-, -, hother⟩
    · cases he
    · rw [hthread]
      exact List.prefix_rfl
    · exact absurd rfl hother
  enabled := by
    intro w hne
    cases hthread : w.thread with
    | nil => exact absurd hthread hne
    | cons effect rest =>
        change (w.step deviceId .thread).isSome
        rw [World.step, hthread]
        rfl

/-! ## Executions that come to rest -/

/-- A run that leaves no call, job or effect behind is fair when it stops. -/
theorem fair_of_quiet {history : List (World × Event)} {w : World}
    (h : (machine deviceId).Run ok (World.init restored) history w)
    (hfresh : ∀ p ∈ history, FreshTokens p.1 p.2) (hthread : w.thread = []) (hready : w.ready = [])
    (hpending : w.bridge.pending.isEmpty = true) : Fair h.execution := by
  have hinv : (∀ p ∈ history, FreshTokens p.1 p.2) → InFlight w := by
    apply h.historyInvariant (fun history w => (∀ p ∈ history, FreshTokens p.1 p.2) → InFlight w)
    · exact fun _ => .init restored
    · intro history s e s' hs _ hstep hfresh
      have hbefore := hs fun p hp => hfresh p (List.mem_append_left _ hp)
      exact hbefore.step (hfresh (s, e) (by simp)) hstep
  have hnone : ∀ id, w.running id = none := by
    intro id
    cases hrun : w.running id with
    | none => rfl
    | some task =>
        have hget := hinv hfresh id task hrun
        rw [(Dict.isEmpty_iff _).mp hpending] at hget
        cases hget
  have hstep : ∀ e, (machine deviceId).step w e = w.step deviceId e := fun _ => rfl
  constructor
  case thread => exact h.fair_execution (by rw [hstep, World.step, hthread])
  case loop => exact h.fair_execution (by rw [hstep, World.step, hready])
  case await =>
    intro id
    exact h.fair_execution (by rw [hstep, World.step, hnone id]; rfl)
  case timeout =>
    intro id
    exact h.fair_execution (by rw [hstep, World.step, hnone id]; rfl)

/-- A replay that leaves nothing behind, stopped. -/
theorem exists_fair (deviceId : String) (ok : World → Event → Prop)
    [∀ w e, Decidable (ok w e)] (events : List Event) (test : (ℕ → World) → Bool)
    (h : ((machine deviceId).replay ok (World.init fun _ => none) events).any (fun r =>
      r.1.all (fun p => decide (FreshTokens p.1 p.2)) && r.2.thread.isEmpty &&
        r.2.ready.isEmpty && r.2.bridge.pending.isEmpty &&
        test (Machine.Run.stateAt r.1 r.2)) = true) :
    ∃ x : (machine deviceId).Execution ok (World.init fun _ => none),
      Fair x ∧ (∀ n, x.event n = events[n]?) ∧ test x.state = true := by
  obtain ⟨r, hreplay, hquiet⟩ := (Option.any_eq_true _ _).mp h
  simp only [Bool.and_eq_true, List.all_eq_true, decide_eq_true_eq, List.isEmpty_iff] at hquiet
  obtain ⟨⟨⟨⟨hfresh, hthread⟩, hready⟩, hpending⟩, htest⟩ := hquiet
  have hrun := Machine.Run.nil.replay hreplay
  refine ⟨hrun.execution, fair_of_quiet hrun hfresh hthread hready hpending, ?_, htest⟩
  intro n
  rw [← Machine.events_replay hreplay, List.getElem?_map]
  rfl

/-! ## Every call ends -/

/-- The call ended. -/
def World.Ended (id : ℕ) (w : World) : Prop :=
  ∃ task reply, w.tasks id = some task ∧ task.ended = some reply

theorem ended_step {w w' : World} {e : Event} (hstep : (machine deviceId).step w e = some w')
    {id : ℕ} (h : w.Ended id) : w'.Ended id := by
  obtain ⟨task, reply, htask, hended⟩ := h
  obtain ⟨task', htask', hlater⟩ := later_step hstep htask
  exact ⟨task', reply, htask', hlater.ended reply hended⟩

/-- What a step does to the wait of a running call that does not end: nothing, the
reply comes, it begins to wait, or it is interrupted. -/
inductive WaitMove (id : ℕ) (waiter : Waiter Json) (e : Event) : Waiter Json → Prop
  | same : WaitMove id waiter e waiter
  | reply (co : Json) (isOpen : waiter.future = .pending) :
      WaitMove id waiter e { waiter with future := .result co }
  | wait (event : e = .await id) (isOpen : waiter.future = .pending) :
      WaitMove id waiter e { waiter with waiting := true }
  | interrupt (waiting : waiter.waiting = true) (waiter' : Waiter Json)
      (woken : waiter'.woken = true) (sound : waiter'.Sound) : WaitMove id waiter e waiter'

/-- A running call goes on; a move that wakes it queues its wake-up. -/
structure GoesOn (w' : World) (id : ℕ) (task : Task) (e : Event) (task' : Task) : Prop where
  running : w'.running id = some task'
  move : WaitMove id task.waiter e task'.waiter
  queued : task'.waiter.woken = true → task.waiter.woken = true ∨ .wake id ∈ w'.ready

theorem mem_wakeIds {w : World} {id : ℕ} : id ∈ w.wakeIds ↔ .wake id ∈ w.ready := by
  rw [World.wakeIds, List.mem_filterMap]
  constructor
  · intro hmem
    obtain ⟨job, hjob, hid⟩ := hmem
    cases job with
    | wake id' =>
        cases hid
        exact hjob
    | callback cb => cases hid
  · intro hmem
    exact ⟨_, hmem, rfl⟩

/-- The wait of a running call was replaced. -/
theorem WaiterChange.goesOn {w w' : World} {e : Event} {id : ℕ} {task : Task}
    {waiter : Waiter Json} (h : WaiterChange w id task waiter w') (hended : task.ended = none)
    (hmove : WaitMove id task.waiter e waiter) :
    GoesOn w' id task e { task with waiter := waiter } := by
  refine ⟨(running_update h.tasks).mpr (.inl ⟨rfl, rfl, hended⟩), hmove, ?_⟩
  intro hwoken
  have hwakeIds := h.wakeIds
  cases hbefore : task.waiter.woken with
  | true => exact .inl rfl
  | false =>
      have hwaiter : waiter.woken = true := hwoken
      right
      rw [← mem_wakeIds, hwakeIds]
      simp [hwaiter, hbefore]

/-- **One step of a running call**: it ends or goes on. -/
theorem running_step {w w' : World} {e : Event} (hstep : (machine deviceId).step w e = some w')
    {id : ℕ} {task : Task} (hrun : w.running id = some task) :
    w'.Ended id ∨ ∃ task', GoesOn w' id task e task' := by
  obtain ⟨htask, hended⟩ := running_eq_some_iff.mp hrun
  -- a step that leaves this call as it is
  have hkept : w'.tasks id = w.tasks id → ∃ task', GoesOn w' id task e task' := by
    intro htasks
    have hrun' : w'.running id = some task :=
      running_eq_some_iff.mpr ⟨htasks.trans htask, hended⟩
    exact ⟨task, hrun', .same, .inl⟩
  -- a step that replaces the wait of a call
  have hmoved : ∀ {id' : ℕ} {task' : Task} {waiter : Waiter Json}, w.tasks id' = some task' →
      WaiterChange w id' task' waiter w' → WaitMove id' task'.waiter e waiter →
      ∃ task', GoesOn w' id task e task' := by
    intro id' task' waiter htask' hchange hmove
    by_cases hid : id = id'
    · subst hid
      rw [htask] at htask'
      cases htask'
      exact ⟨_, hchange.goesOn hended hmove⟩
    · exact hkept (by rw [hchange.tasks, Function.update_of_ne hid])
  -- a step that ends a call
  have hends : ∀ {id' : ℕ} {task' : Task}, CallEnd w id' task' w' →
      w'.Ended id ∨ ∃ task', GoesOn w' id task e task' := by
    intro id' task' hend
    by_cases hid : id = id'
    · subst hid
      exact .inl ⟨_, _, by rw [hend.tasks, Function.update_self], rfl⟩
    · exact .inr (hkept (by rw [hend.tasks, Function.update_of_ne hid]))
  cases step_cases hstep with
  | frame same _ _ => exact .inr (hkept (by rw [same.tasks]))
  | start id' caller token draws refusal _ fresh tasks _ _ _ =>
      have hid : id ≠ id' := by
        intro hid
        rw [← hid, htask] at fresh
        cases fresh
      exact .inr (hkept (by rw [tasks, Function.update_of_ne hid]))
  | complete t co id' task' _ _ _ task_eq isOpen change =>
      exact .inr (hmoved task_eq change (.reply co isOpen))
  | wait id' task' event running _ isOpen change =>
      exact .inr (hmoved (running_eq_some_iff.mp running).1 change (.wait event isOpen))
  | interrupt id' task' waiter event running waiting change =>
      have hinterrupted : waiter.woken = true ∧ waiter.Sound := by
        rcases event with ⟨-, rfl⟩ | ⟨-, rfl⟩
        · exact ⟨task'.waiter.woken_timeOut waiting, .timeOut task'.waiter⟩
        · exact ⟨task'.waiter.woken_cancel waiting, .cancel task'.waiter⟩
      exact .inr (hmoved (running_eq_some_iff.mp running).1 change
        (.interrupt waiting waiter hinterrupted.1 hinterrupted.2))
  | takeReply _ _ _ _ _ _ callEnd _ => exact hends callEnd
  | wake _ _ _ _ _ callEnd _ => exact hends callEnd
  | wakeNone _ _ _ _ tasks _ _ => exact .inr (hkept (by rw [tasks]))

/-- A running call was running, or it is new. -/
theorem running_before {w w' : World} {e : Event} (hstep : (machine deviceId).step w e = some w')
    {id : ℕ} {task' : Task} (hrun' : w'.running id = some task') :
    task'.waiter = .init ∨ ∃ task, w.running id = some task ∧ GoesOn w' id task e task' := by
  obtain ⟨htask', hended'⟩ := running_eq_some_iff.mp hrun'
  cases htask : w.tasks id with
  | some task =>
      cases hended : task.ended with
      | some reply =>
          obtain ⟨task₁, reply₁, htask₁, hended₁⟩ := ended_step hstep ⟨task, reply, htask, hended⟩
          rw [htask'] at htask₁
          cases htask₁
          rw [hended'] at hended₁
          cases hended₁
      | none =>
          have hrun := running_eq_some_iff.mpr ⟨htask, hended⟩
          rcases running_step hstep hrun with ⟨task₁, reply₁, htask₁, hended₁⟩ | ⟨task₁, hgoes⟩
          · rw [htask'] at htask₁
            cases htask₁
            rw [hended'] at hended₁
            cases hended₁
          · have heq := hgoes.running
            rw [hrun'] at heq
            cases heq
            exact .inr ⟨task, hrun, hgoes⟩
  | none =>
      -- only a start makes a call
      have hnone : ∀ {id₀ : ℕ} {task₀ task₁ : Task}, w.tasks id₀ = some task₀ →
          w'.tasks = Function.update w.tasks id₀ (some task₁) → False := by
        intro id₀ task₀ task₁ htask₀ htasks
        rw [htasks, Function.update_of_ne, htask] at htask'
        · cases htask'
        · intro hid
          rw [← hid, htask] at htask₀
          cases htask₀
      cases step_cases hstep with
      | start id₀ caller token draws refusal _ _ tasks _ _ _ =>
          rcases (tasks_update tasks).mp htask' with ⟨-, rfl⟩ | ⟨-, hsome⟩
          · exact .inl rfl
          · rw [htask] at hsome
            cases hsome
      | frame same _ _ =>
          rw [same.tasks, htask] at htask'
          cases htask'
      | wakeNone _ _ _ _ tasks _ _ =>
          rw [tasks, htask] at htask'
          cases htask'
      | complete t co id₀ task₀ _ _ _ task_eq _ change => exact (hnone task_eq change.tasks).elim
      | wait id₀ task₀ _ running _ _ change =>
          exact (hnone (running_eq_some_iff.mp running).1 change.tasks).elim
      | interrupt id₀ task₀ _ _ running _ change =>
          exact (hnone (running_eq_some_iff.mp running).1 change.tasks).elim
      | takeReply id₀ task₀ _ running _ _ callEnd _ =>
          exact (hnone (running_eq_some_iff.mp running).1 callEnd.tasks).elim
      | wake id₀ task₀ _ _ running callEnd _ =>
          exact (hnone (running_eq_some_iff.mp running).1 callEnd.tasks).elim

/-- Running the wake-up of a call ends it. -/
theorem ended_wake {w w' : World} {id : ℕ} {task : Task}
    (hstep : (machine deviceId).step w .loop = some w') (hhead : w.ready.head? = some (.wake id))
    (htask : w.tasks id = some task) : w'.Ended id := by
  cases hended : task.ended with
  | some reply => exact ended_step hstep ⟨task, reply, htask, hended⟩
  | none =>
      have hrun := running_eq_some_iff.mpr ⟨htask, hended⟩
      cases step_result hstep with
      | loop job rest queued _ result =>
          rw [queued] at hhead
          cases hhead
          cases result with
          | wake _ task' running =>
              have hend := CallEnd.finish { w with ready := rest } id task'
              exact ⟨_, _, by rw [hend.tasks, Function.update_self], rfl⟩
          | wakeNone _ running =>
              have hnone : w.running id = none := running
              rw [hrun] at hnone
              cases hnone

/-- Waits of running calls are sound, and the wake-up of every woken call is queued. -/
structure Queued (w : World) : Prop where
  sound : ∀ id task, w.running id = some task → task.waiter.Sound
  queued : ∀ id task, w.running id = some task → task.waiter.woken = true → .wake id ∈ w.ready

theorem Queued.init (restored : Shown) : Queued (World.init restored) where
  sound := by simp [World.init, World.running]
  queued := by simp [World.init, World.running]

/-- A queued wake-up stays until it runs. -/
theorem wake_stays {w w' : World} {e : Event} (hstep : (machine deviceId).step w e = some w')
    {id : ℕ} {task task' : Task} (hrun : w.running id = some task)
    (hrun' : w'.running id = some task') (hqueued : .wake id ∈ w.ready) : .wake id ∈ w'.ready := by
  by_cases hloop : e = .loop
  · subst hloop
    cases hready : w.ready with
    | nil =>
        rw [hready] at hqueued
        cases hqueued
    | cons job rest =>
        have htail := (queue_ready deviceId).serves w w' hstep
        rw [hready, List.mem_cons] at hqueued
        rcases hqueued with rfl | hqueued
        · -- the wake-up runs, so the call no longer does
          obtain ⟨task₁, reply, htask₁, hended₁⟩ :=
            ended_wake hstep (by rw [hready]; rfl) (running_eq_some_iff.mp hrun).1
          obtain ⟨htask', hended'⟩ := running_eq_some_iff.mp hrun'
          rw [htask'] at htask₁
          cases htask₁
          rw [hended'] at hended₁
          cases hended₁
        · rw [hready] at htail
          exact htail.subset hqueued
  · exact ((queue_ready deviceId).grows w e w' hloop hstep).subset hqueued

theorem WaitMove.sound {id : ℕ} {waiter waiter' : Waiter Json} {e : Event}
    (h : WaitMove id waiter e waiter') (hsound : waiter.Sound) : waiter'.Sound := by
  cases h with
  | same => exact hsound
  | reply co isOpen => exact hsound.setResult isOpen co
  | wait event isOpen => exact hsound.wait
  | interrupt waiting waiter' woken sound => exact sound

/-- **The invariant**, whatever tokens are drawn and whether or not publishing raises. -/
theorem Queued.step {w w' : World} {e : Event} (h : Queued w)
    (hstep : (machine deviceId).step w e = some w') : Queued w' := by
  constructor
  case sound =>
    intro id task' hrun'
    rcases running_before hstep hrun' with hinit | ⟨task, hrun, hgoes⟩
    · rw [hinit]
      exact .init
    · exact hgoes.move.sound (h.sound id task hrun)
  case queued =>
    intro id task' hrun' hwoken'
    rcases running_before hstep hrun' with hinit | ⟨task, hrun, hgoes⟩
    · rw [hinit] at hwoken'
      cases hwoken'
    · rcases hgoes.queued hwoken' with hwoken | hqueued
      · exact wake_stays hstep hrun hrun' (h.queued id task hrun hwoken)
      · exact hqueued

/-! The three phases of a running call: it goes on towards its wait, it waits, and it
is woken. -/

/-- The call runs, and its wait is in this phase. -/
def World.InPhase (id : ℕ) (phase : Waiter Json → Prop) (w : World) : Prop :=
  ∃ task, w.running id = some task ∧ phase task.waiter

variable {x : (machine deviceId).Execution ok (World.init restored)} {n id : ℕ}

theorem queued_at (x : (machine deviceId).Execution ok (World.init restored)) (n : ℕ) :
    Queued (x.state n) :=
  x.invariant Queued (.init restored) (fun _ _ _ h _ hstep => h.step hstep) n

/-- While no `publish` raises, every entry of the table belongs to a running call. -/
theorem noneLeft_at (x : (machine deviceId).Execution ok (World.init restored))
    (hnever : ∀ j e, x.event j = some e → ¬ PublishRaises (x.state j) e) (n : ℕ) :
    NoneLeft (x.state n) := by
  have hinit : NoneLeft (x.state 0) := by
    rw [x.start]
    exact .init restored
  apply x.stays hinit _ (Nat.zero_le n)
  intro k _ e hevent hk
  exact hk.step (hnever k e hevent) (x.step k e hevent)

/-- A woken call ends. -/
theorem ends_of_woken (hfair : Fair x)
    (h : (x.state n).InPhase id fun waiter => waiter.woken = true) :
    ∃ m ≥ n, (x.state m).Ended id := by
  obtain ⟨task, hrun, hwoken⟩ := h
  obtain ⟨m, hm, hhead, hevent⟩ := (queue_ready deviceId).exists_served hfair.loop
    ((queued_at x n).queued id task hrun hwoken)
  -- the call is still there when its wake-up runs
  have hthere : ((x.state m).tasks id).isSome := by
    apply x.stays (P := fun w => (w.tasks id).isSome) _ _ hm
    · rw [(running_eq_some_iff.mp hrun).1]
      rfl
    · intro k _ e hevent hk
      obtain ⟨task, htask⟩ := Option.isSome_iff_exists.mp hk
      obtain ⟨task', htask', -⟩ := later_step (x.step k e hevent) htask
      rw [htask']
      rfl
  obtain ⟨task', htask'⟩ := Option.isSome_iff_exists.mp hthere
  exact ⟨m + 1, by omega, ended_wake (x.step m _ hevent) hhead htask'⟩

/-- The call ended or its wake-up is to come. -/
def World.Resolved (id : ℕ) (w : World) : Prop :=
  w.Ended id ∨ w.InPhase id fun waiter => waiter.woken = true

theorem ends_of_resolved (hfair : Fair x) (h : (x.state n).Resolved id) :
    ∃ m ≥ n, (x.state m).Ended id := by
  rcases h with hended | hwoken
  · exact ⟨n, le_rfl, hended⟩
  · exact ends_of_woken hfair hwoken

/-- An open wait stays open or the call is woken. -/
theorem WaitMove.waits {waiter waiter' : Waiter Json} {e : Event}
    (h : WaitMove id waiter e waiter') (hwaiting : waiter.waiting = true)
    (hopen : waiter.future = .pending) :
    (waiter'.waiting = true ∧ waiter'.future = .pending) ∨ waiter'.woken = true := by
  cases h with
  | same => exact .inl ⟨hwaiting, hopen⟩
  | reply co => exact .inr (by simp [Waiter.woken, Future.done, hwaiting])
  | wait => exact .inl ⟨rfl, hopen⟩
  | interrupt _ waiter' woken => exact .inr woken

/-- The timer wakes a waiting call. -/
theorem woken_timeout {w w' : World} {task : Task}
    (hstep : (machine deviceId).step w (.timeout id) = some w') (hrun : w.running id = some task) :
    w'.InPhase id fun waiter => waiter.woken = true := by
  cases step_result hstep with
  | timeout _ task' running waiting =>
      rw [hrun] at running
      cases running
      have hchange := WaiterChange.setWaiter w id task task.waiter.timeOut
      have hended := (running_eq_some_iff.mp hrun).2
      exact ⟨_, (running_update hchange.tasks).mpr (.inl ⟨rfl, rfl, hended⟩),
        task.waiter.woken_timeOut waiting⟩

/-- A call that waits is answered, interrupted or times out, and ends. -/
theorem ends_of_waiting (hfair : Fair x)
    (h : (x.state n).InPhase id fun waiter => waiter.waiting = true ∧ waiter.future = .pending) :
    ∃ m ≥ n, (x.state m).Ended id := by
  obtain ⟨m, hm, hresolved | ⟨⟨task, hrun, -⟩, hevent⟩⟩ :=
    x.exists_taken (Q := World.Resolved id) (hfair.timeout id) h
    (by
      -- the timer of an open wait has not fired
      intro m _ hwaits
      obtain ⟨task, hrun, hwaiting, hopen⟩ := hwaits
      obtain ⟨-, hexpired, -⟩ := ((queued_at x m).sound id task hrun).calm hopen
      change ((x.state m).step deviceId (.timeout id)).isSome
      simp [World.step, hrun, hwaiting, hexpired])
    (by
      intro m _ e hevent _ hwaits
      obtain ⟨task, hrun, hwaiting, hopen⟩ := hwaits
      rcases running_step (x.step m e hevent) hrun with hended | ⟨task', hgoes⟩
      · exact .inr (.inl hended)
      · rcases hgoes.move.waits hwaiting hopen with hwaits | hwoken
        · exact .inl ⟨task', hgoes.running, hwaits⟩
        · exact .inr (.inr ⟨task', hgoes.running, hwoken⟩))
  · obtain ⟨m', hm', hended⟩ := ends_of_resolved hfair hresolved
    exact ⟨m', hm.trans hm', hended⟩
  · have hwoken := woken_timeout (x.step m _ hevent) hrun
    obtain ⟨m', hm', hended⟩ := ends_of_woken hfair hwoken
    exact ⟨m', by omega, hended⟩

/-- The call begins to wait, or it has its reply and ends. -/
theorem await_step {w w' : World} {task : Task}
    (hstep : (machine deviceId).step w (.await id) = some w') (hrun : w.running id = some task) :
    w'.Ended id ∨ w'.InPhase id fun waiter => waiter.waiting = true ∧ waiter.future = .pending := by
  cases step_result hstep with
  | wait _ task' running idle isOpen =>
      rw [hrun] at running
      cases running
      have hchange := WaiterChange.setWaiter w id task { task.waiter with waiting := true }
      have hended := (running_eq_some_iff.mp hrun).2
      exact .inr ⟨_, (running_update hchange.tasks).mpr (.inl ⟨rfl, rfl, hended⟩), rfl, isOpen⟩
  | takeReply _ task' running =>
      have hend := CallEnd.finish w id task'
      exact .inl ⟨_, _, by rw [hend.tasks, Function.update_self], rfl⟩

/-- A call that has not begun to wait does so or ends. -/
theorem ends_of_idle (hfair : Fair x)
    (h : (x.state n).InPhase id fun waiter => waiter.waiting = false) :
    ∃ m ≥ n, (x.state m).Ended id := by
  obtain ⟨m, hm, hended | ⟨⟨task, hrun, -⟩, hevent⟩⟩ :=
    x.exists_taken (Q := World.Ended id) (hfair.await id) h
    (by
      intro m _ hidle
      obtain ⟨task, hrun, hidle⟩ := hidle
      change ((x.state m).step deviceId (.await id)).isSome
      simp [World.step, hrun, hidle])
    (by
      intro m _ e hevent hother hidle
      obtain ⟨task, hrun, hidle⟩ := hidle
      rcases running_step (x.step m e hevent) hrun with hended | ⟨task', hgoes⟩
      · exact .inr hended
      · refine .inl ⟨task', hgoes.running, ?_⟩
        have hmove := hgoes.move
        generalize task'.waiter = waiter' at hmove
        cases hmove with
        | same | reply => exact hidle
        | wait event => exact absurd event hother
        | interrupt waiting =>
            rw [hidle] at waiting
            cases waiting)
  · exact ⟨m, hm, hended⟩
  · rcases await_step (x.step m _ hevent) hrun with hended | hwaits
    · exact ⟨m + 1, by omega, hended⟩
    · obtain ⟨m', hm', hended⟩ := ends_of_waiting hfair hwaits
      exact ⟨m', by omega, hended⟩

/-- Every call that runs ends. -/
theorem ends_of_running (hfair : Fair x) {task : Task} (hrun : (x.state n).running id = some task) :
    ∃ m ≥ n, (x.state m).Ended id := by
  cases hwaiting : task.waiter.waiting with
  | false => exact ends_of_idle hfair ⟨task, hrun, hwaiting⟩
  | true =>
      cases hdone : task.waiter.future.done with
      | true =>
          exact ends_of_woken hfair ⟨task, hrun, Bool.and_eq_true_iff.mpr ⟨hwaiting, hdone⟩⟩
      | false =>
          exact ends_of_waiting hfair ⟨task, hrun, hwaiting, Future.done_eq_false_iff.mp hdone⟩

/-- Every call that started ends for good. -/
theorem ends_for_good (hfair : Fair x) (hstarted : ((x.state n).tasks id).isSome) :
    ∃ m ≥ n, ∀ k ≥ m, (x.state k).Ended id := by
  obtain ⟨task, htask⟩ := Option.isSome_iff_exists.mp hstarted
  have hends : ∃ m ≥ n, (x.state m).Ended id := by
    cases hended : task.ended with
    | some reply => exact ⟨n, le_rfl, task, reply, htask, hended⟩
    | none => exact ends_of_running hfair (running_eq_some_iff.mpr ⟨htask, hended⟩)
  obtain ⟨m, hm, hended⟩ := hends
  refine ⟨m, hm, ?_⟩
  intro k hk
  apply x.stays hended _ hk
  intro j _ e hevent hj
  exact ended_step (x.step j e hevent) hj

/-- While no `publish` raises, an ended call has no entry. -/
theorem no_entry_of_ended (hnever : ∀ j e, x.event j = some e → ¬ PublishRaises (x.state j) e)
    (hended : (x.state n).Ended id) (t : String) : (x.state n).bridge.pending.get t ≠ some id := by
  intro hget
  obtain ⟨task₁, hrun, -⟩ := noneLeft_at x hnever n t id hget
  obtain ⟨task₂, reply, htask₂, hended₂⟩ := hended
  obtain ⟨htask₁, hended₁⟩ := running_eq_some_iff.mp hrun
  rw [htask₁] at htask₂
  cases htask₂
  rw [hended₁] at hended₂
  cases hended₂

/-- **Calls end.**  In a fair execution every call that started ends and stays ended;
if no `publish` raises, its entry in the table is gone for good. -/
theorem calls_end (hfair : Fair x) (hstarted : ((x.state n).tasks id).isSome) :
    ∃ m ≥ n, ∀ k ≥ m, (x.state k).Ended id ∧
      ((∀ j e, x.event j = some e → ¬ PublishRaises (x.state j) e) →
        ∀ t, (x.state k).bridge.pending.get t ≠ some id) := by
  obtain ⟨m, hm, hends⟩ := ends_for_good hfair hstarted
  exact ⟨m, hm, fun k hk => ⟨hends k hk, fun hnever => no_entry_of_ended hnever (hends k hk)⟩⟩

/-- Where calls publish, no `publish` raises. -/
theorem not_publishRaises {w : World} {e : Event} (h : RpcAssumptions w e) :
    ¬ PublishRaises w e := by
  intro hraises
  cases e with
  | start id caller token draws refusal =>
      obtain ⟨-, -, hrefusal⟩ := hraises
      rw [h.2] at hrefusal
      cases hrefusal
  | network | thread | loop | refresh | store | await | timeout | cancel => exact hraises

/-- A press starts, waits and times out, and its wake-up runs. -/
def endingEvents : List Event := timeoutEvents ++ [.loop]

set_option maxRecDepth 10000 in
/-- A press that nobody answers ends, and its entry is gone. -/
theorem calls_end_press :
    ∃ x : (machine "x").Execution RpcAssumptions (World.init fun _ => none),
      ((x.state 7).running 0).isSome ∧ ∃ m, ∀ k ≥ m, (x.state k).Ended 0 ∧
        ∀ t, (x.state k).bridge.pending.get t ≠ some 0 := by
  obtain ⟨x, hfair, -, hrunning⟩ := exists_fair "x" RpcAssumptions endingEvents
    (fun state => ((state 7).running 0).isSome) (by decide +kernel)
  obtain ⟨task, htask⟩ := Option.isSome_iff_exists.mp hrunning
  have hstarted : ((x.state 7).tasks 0).isSome := by
    rw [(running_eq_some_iff.mp htask).1]
    rfl
  obtain ⟨m, -, hends⟩ := calls_end hfair hstarted
  refine ⟨x, hrunning, m, fun k hk => ⟨(hends k hk).1, (hends k hk).2 ?_⟩⟩
  intro j e hevent
  exact not_publishRaises (x.admissible j e hevent)

/-- The event starts a call. -/
def Event.starts : Event → Bool
  | start _ _ _ _ _ => true
  | _ => false

/-- Only the start of a call enters a token in the table. -/
theorem pending_shrinks {w w' : World} {e : Event} (hstep : (machine deviceId).step w e = some w')
    (hstarts : e.starts = false) {t : String} (hget : w'.bridge.pending.get t = some id) :
    w.bridge.pending.get t = some id := by
  have hend : ∀ {id' : ℕ} {task : Task}, CallEnd w id' task w' →
      w.bridge.pending.get t = some id := by
    intro id' task hend
    rw [hend.get_pending] at hget
    split at hget
    · cases hget
    · exact hget
  cases step_cases hstep with
  | frame same _ _ => rwa [same.pending] at hget
  | start _ _ _ _ _ event _ _ _ _ _ =>
      rw [event] at hstarts
      cases hstarts
  | complete _ _ _ _ _ _ _ _ _ change => rwa [change.pending] at hget
  | wait _ _ _ _ _ _ change => rwa [change.pending] at hget
  | interrupt _ _ _ _ _ _ change => rwa [change.pending] at hget
  | takeReply _ _ _ _ _ _ callEnd _ => exact hend callEnd
  | wake _ _ _ _ _ callEnd _ => exact hend callEnd
  | wakeNone _ _ _ _ _ pending _ => rwa [pending] at hget

/-- **The table drains.**  In a fair execution without a raising `publish`, once no more
calls start the table of pending requests becomes empty and stays so. -/
theorem pending_drains (hfair : Fair x)
    (hnever : ∀ j e, x.event j = some e → ¬ PublishRaises (x.state j) e)
    (hquiet : ∀ j ≥ n, ∀ e, x.event j = some e → e.starts = false) :
    ∃ m ≥ n, ∀ k ≥ m, (x.state k).bridge.pending.isEmpty = true := by
  -- the calls of the entries at `n` have ended from some moment on
  obtain ⟨m, hm, hgone⟩ := Machine.exists_forall_mem (n := n)
    (l := (x.state n).bridge.pending.entries)
    (P := fun entry k => ∀ t, (x.state k).bridge.pending.get t ≠ some entry.2) (by
      intro entry hentry
      have hget := (Dict.get_eq_some_iff _ entry.1 entry.2).mpr hentry
      obtain ⟨task, hrun, -⟩ := noneLeft_at x hnever n _ _ hget
      have hstarted : ((x.state n).tasks entry.2).isSome := by
        rw [(running_eq_some_iff.mp hrun).1]
        rfl
      obtain ⟨m, hm, hends⟩ := ends_for_good hfair hstarted
      exact ⟨m, hm, fun k hk => no_entry_of_ended hnever (hends k hk)⟩)
  refine ⟨m, hm, ?_⟩
  intro k hk
  rw [Dict.isEmpty_iff]
  intro t
  cases hget : (x.state k).bridge.pending.get t with
  | none => rfl
  | some id =>
      -- an entry at `k` was there at `n`
      have hback : (x.state k).bridge.pending.get t = some id →
          (x.state n).bridge.pending.get t = some id := by
        apply x.stays (P := fun w => w.bridge.pending.get t = some id →
          (x.state n).bridge.pending.get t = some id) _ _ (hm.trans hk)
        · exact fun h => h
        · intro j hj e hevent hback hget
          exact hback (pending_shrinks (x.step j e hevent) (hquiet j hj e hevent) hget)
      have hentry := (Dict.get_eq_some_iff _ t id).mp (hback hget)
      exact absurd hget (hgone k hk (t, id) hentry t)

set_option maxRecDepth 10000 in
/-- The same press: the table had its entry and drains. -/
theorem pending_drains_press :
    ∃ x : (machine "x").Execution RpcAssumptions (World.init fun _ => none),
      (x.state 7).bridge.pending.get "press" = some 0 ∧
        ∃ m, ∀ k ≥ m, (x.state k).bridge.pending.isEmpty = true := by
  obtain ⟨x, hfair, hevents, hentry⟩ := exists_fair "x" RpcAssumptions endingEvents
    (fun state => (state 7).bridge.pending.get "press" == some 0) (by decide +kernel)
  have hquiet : ∀ j ≥ 7, ∀ e, x.event j = some e → e.starts = false := by
    intro j hj e hevent
    rw [hevents, ← Nat.sub_add_cancel hj, Nat.add_comm, ← List.getElem?_drop] at hevent
    have hstarts : ∀ e ∈ endingEvents.drop 7, e.starts = false := by
      simp [endingEvents, timeoutEvents, connectEvents, Event.starts]
    exact hstarts e (List.mem_of_getElem? hevent)
  obtain ⟨m, -, hdrains⟩ := pending_drains (n := 7) hfair
    (fun j e hevent => not_publishRaises (x.admissible j e hevent)) hquiet
  exact ⟨x, beq_iff_eq.mp hentry, m, hdrains⟩

/-! ## Writes reach the coordinator -/

theorem settling_step {v : View} {w w' : World} {e : Event} (hsettles : e.Settles deviceId v)
    (hstep : (machine deviceId).step w e = some w') (h : Settling v w.thread) :
    Settling v w'.thread := by
  rcases thread_step hstep with ⟨cb, rfl, -, hthread⟩ | ⟨-, effect, hthread⟩ | ⟨hthread, -⟩
  · rw [hthread]
    exact settling_action hsettles
  · rw [hthread] at h
    cases effect with
    | setState key value => exact h.2
    | setConnected | subscribe | publish | callSoon => exact h
  · rw [hthread]
    exact h

theorem settling_at {v : View} (x : (machine deviceId).Execution ok (World.init restored))
    (hsettles : ∀ j e, x.event j = some e → e.Settles deviceId v) (n : ℕ) :
    Settling v (x.state n).thread := by
  apply x.stays (P := fun w => Settling v w.thread) _ _ (Nat.zero_le n)
  · rw [x.start]
    trivial
  · intro j _ e hevent hj
    exact settling_step (hsettles j e hevent) (x.step j e hevent) hj

/-- Performing an effect. -/
theorem thread_performs {w w' : World} {effect : Effect}
    (hstep : (machine deviceId).step w .thread = some w') (hhead : w.thread.head? = some effect) :
    ∃ rest, w.thread = effect :: rest ∧
      w' = ({ w with thread := rest } : World).perform effect := by
  cases step_result hstep with
  | thread effect' rest performing =>
      rw [performing] at hhead
      cases hhead
      exact ⟨rest, performing, rfl⟩

/-- Running a job. -/
theorem loop_runs {w w' : World} {job : Job} (hstep : (machine deviceId).step w .loop = some w')
    (hhead : w.ready.head? = some job) :
    ∃ rest, w.ready = job :: rest ∧ JobResult { w with ready := rest } job w' := by
  cases step_result hstep with
  | loop job' rest queued _ result =>
      rw [queued] at hhead
      cases hhead
      exact ⟨rest, queued, result⟩

/-- A callback that the network thread will schedule runs on the loop. -/
theorem callback_runs (hfair : Fair x) {cb : Callback}
    (h : .callSoon cb ∈ (x.state n).thread) :
    ∃ m > n, (x.state m).ready.head? = some (.callback cb) ∧ x.event m = some .loop := by
  obtain ⟨m, hm, hhead, hevent⟩ := (queue_thread deviceId).exists_served hfair.thread h
  obtain ⟨rest, -, hperformed⟩ := thread_performs (x.step m _ hevent) hhead
  have hqueued : .callback cb ∈ (x.state (m + 1)).ready := by
    rw [hperformed]
    exact List.mem_append_right _ (List.mem_singleton_self _)
  obtain ⟨m', hm', hserved⟩ := (queue_ready deviceId).exists_served hfair.loop hqueued
  exact ⟨m', by omega, hserved⟩

/-- A notification stores the state. -/
theorem notify_stores {w w' : World} (hstep : (machine deviceId).step w .loop = some w')
    (hhead : w.ready.head? = some (.callback .notify)) :
    w'.data = some w.bridge.state ∧ w'.bridge.state = w.bridge.state ∧
      w'.refreshed = w.refreshed := by
  obtain ⟨rest, -, hresult⟩ := loop_runs hstep hhead
  cases hresult with
  | notify => exact ⟨rfl, rfl, rfl⟩

/-- The effect writes to the state. -/
def Effect.writes : Effect → Bool
  | setState _ _ => true
  | _ => false

/-- **Writes are delivered.**  In a fair execution every write of the network thread to
the state is followed by a moment where the coordinator's data is the state; for the keys
that an event post writes, if the acknowledgements of event posts can be encoded. -/
theorem writes_delivered (hfair : Fair x) {key : String} {value : Json}
    (hencodes : key = "online" ∨ key = "last_event" →
      ∀ j e, x.event j = some e → e.encodesEvent deviceId = true)
    (hevent : x.event n = some .thread)
    (hwrite : (x.state n).thread.head? = some (.setState key value)) :
    ∃ m > n, (x.state m).data = some (x.state m).bridge.state := by
  obtain ⟨rest, hthread, hperformed⟩ := thread_performs (x.step n _ hevent) hwrite
  have hsettles : ∀ j e, x.event j = some e → e.Settles deviceId (.on (key = ·)) := by
    intro j e he
    cases e with
    | network cb => exact fun hkeys => hencodes hkeys j _ he
    | thread | loop | refresh | store | start | await | timeout | cancel => trivial
  have hsettling := settling_at x hsettles n
  rw [hthread] at hsettling
  have hcoming : .callSoon .notify ∈ (x.state (n + 1)).thread := by
    rw [hperformed]
    exact hsettling.1 rfl
  obtain ⟨m, hm, hhead, hloop⟩ := callback_runs hfair hcoming
  obtain ⟨hdata, hstate, -⟩ := notify_stores (x.step m _ hloop) hhead
  exact ⟨m + 1, by omega, by rw [hdata, hstate]⟩

set_option maxRecDepth 10000 in
/-- A write of an event post, while a refresh is under way. -/
theorem writes_delivered_event :
    ∃ x : (machine "x").Execution (DeliveryAssumptions "x") (World.init fun _ => none),
      ∃ key value,
        (x.state 8).thread.head? = some (.setState key value) ∧
          ∃ m > 8, (x.state m).data = some (x.state m).bridge.state := by
  obtain ⟨x, hfair, hevents, hwrite⟩ := exists_fair "x" (DeliveryAssumptions "x") eventEvents
    (fun state => (state 8).thread.head?.any Effect.writes) (by decide +kernel)
  obtain ⟨effect, hhead, hwrites⟩ := (Option.any_eq_true _ _).mp hwrite
  cases effect with
  | setState key value =>
      exact ⟨x, key, value, hhead,
        writes_delivered hfair (fun _ j e he => (x.admissible j e he).2) (hevents 8) hhead⟩
  | setConnected | subscribe | publish | callSoon => cases hwrites

/-! ## The data converges -/

/-- Only the network thread writes to the state. -/
theorem state_step {w w' : World} {e : Event} (hstep : (machine deviceId).step w e = some w')
    (hother : e ≠ .thread) : w'.bridge.state = w.bridge.state := by
  cases step_result hstep with
  | thread => exact absurd rfl hother
  | loop job rest _ _ result => cases result <;> rfl
  | network | refresh | refreshFails | store | register | refuse | startFails | wait | takeReply
    | timeout | cancel => rfl

/-- The network thread is idle, and the state is this one. -/
def World.Rests (final : Dict String Json) (w : World) : Prop :=
  w.thread = [] ∧ w.bridge.state = final

/-- While no network callback begins, the network thread and the state rest. -/
theorem rests_step {final : Dict String Json} {w w' : World} {e : Event} (h : w.Rests final)
    (hquiet : ∀ cb, e ≠ .network cb) (hstep : (machine deviceId).step w e = some w') :
    w'.Rests final := by
  rcases thread_step hstep with ⟨cb, he, -⟩ | ⟨-, effect, hthread⟩ | ⟨hsame, -, hother⟩
  · exact absurd he (hquiet cb)
  · rw [h.1] at hthread
    cases hthread
  · exact ⟨hsame.trans h.1, (state_step hstep hother).trans h.2⟩

/-- While the network thread rests the coordinator keeps the state. -/
theorem synced_step {v : View} {w w' : World} {e : Event} (h : w.synced v)
    (hidle : w.thread = []) (hok : PushAssumptions w e)
    (hstep : (machine deviceId).step w e = some w') : w'.synced v := by
  cases step_result hstep with
  | network | refreshFails | startFails => exact h
  | thread effect rest performing =>
      rw [performing] at hidle
      cases hidle
  | loop job rest queued _ result =>
      cases result with
      | notify =>
          refine ⟨.inl ⟨_, rfl, v.refl _⟩, ?_⟩
          intro snapshot hsnapshot
          have hfree : w.refreshed = none := hok
          cases hfree.symm.trans hsnapshot
      | connect | missed | unknown | typeError | wakeNone => exact h
      | complete t co id task =>
          have hdequeued : ({ w with ready := rest } : World).synced v := h
          exact synced_of_same hdequeued (.setWaiter _ id task _)
      | wake id task => exact h
  | refresh draws published free =>
      refine ⟨h.1, ?_⟩
      intro snapshot hsnapshot
      cases hsnapshot
      exact v.refl _
  | store snapshot refreshed => exact ⟨.inl ⟨_, rfl, h.2 snapshot refreshed⟩, by simp⟩
  | register | refuse => exact synced_of_same h ⟨rfl, rfl, rfl, rfl, fun hready => hready⟩
  | wait id task | timeout id task | cancel id task =>
      exact synced_of_same h (.setWaiter w id task _)
  | takeReply id task => exact synced_of_same h (.finish w id task _)

/-- Once no network callback begins, the network thread comes to rest. -/
theorem thread_rests (hfair : Fair x) (hquiet : ∀ j ≥ n, ∀ cb, x.event j ≠ some (.network cb)) :
    ∃ m ≥ n, (x.state m).thread = [] := by
  generalize hthread : (x.state n).thread = effects
  induction effects generalizing n with
  | nil => exact ⟨n, le_rfl, hthread⟩
  | cons effect rest ih =>
      obtain ⟨m, hm, hfalse | ⟨hkept, hevent⟩⟩ :=
        x.exists_taken (P := fun w => w.thread = effect :: rest) (Q := fun _ => False)
        hfair.thread hthread
        (by
          intro m _ hm
          apply (queue_thread deviceId).enabled
          rw [hm]
          exact List.cons_ne_nil _ _)
        (by
          intro m hm e hevent hother hkept
          rcases thread_step (x.step m e hevent) with ⟨cb, rfl, -⟩ | ⟨he, -⟩ | ⟨hsame, -⟩
          · exact absurd hevent (hquiet m hm cb)
          · exact absurd he hother
          · exact .inl (hsame.trans hkept))
      · exact hfalse.elim
      · have hhead : (x.state m).thread.head? = some effect := by
          rw [hkept]
          rfl
        obtain ⟨rest', hsplit, hperformed⟩ := thread_performs (x.step m _ hevent) hhead
        rw [hkept] at hsplit
        cases hsplit
        have hrest : (x.state (m + 1)).thread = rest := by
          rw [hperformed]
          cases effect <;> rfl
        obtain ⟨m', hm', hidle⟩ := ih (fun j hj => hquiet j (by omega)) hrest
        exact ⟨m', by omega, hidle⟩

theorem delivered_at {v : View} (x : (machine deviceId).Execution ok (World.init restored))
    (hpush : ∀ w e, ok w e → PushAssumptions w e)
    (hsettles : ∀ j e, x.event j = some e → e.Settles deviceId v) (n : ℕ) :
    Delivered v (x.state n) := by
  apply x.stays (P := Delivered v) _ _ (Nat.zero_le n)
  · rw [x.start]
    exact .init v restored
  · intro j _ e hevent hj
    exact hj.step (hpush _ _ (x.admissible j e hevent)) (hsettles j e hevent) (x.step j e hevent)

/-- Once no more network callbacks begin, the network thread and the state rest for
good, and the coordinator has the state. -/
theorem rests_synced {v : View} (hfair : Fair x) (hpush : ∀ w e, ok w e → PushAssumptions w e)
    (hsettles : ∀ j e, x.event j = some e → e.Settles deviceId v)
    (hquiet : ∀ j ≥ n, ∀ cb, x.event j ≠ some (.network cb)) :
    ∃ final, ∃ m ≥ n, ∀ k ≥ m, (x.state k).Rests final ∧ (x.state k).synced v := by
  obtain ⟨m, hm, hidle⟩ := thread_rests hfair hquiet
  have hrests : ∀ k ≥ m, (x.state k).Rests (x.state m).bridge.state := by
    intro k hk
    apply x.stays (P := World.Rests (x.state m).bridge.state) ⟨hidle, rfl⟩ _ hk
    intro j hj e hevent hj'
    refine rests_step hj' ?_ (x.step j e hevent)
    rintro cb rfl
    exact hquiet j (hm.trans hj) cb hevent
  -- a notification is still queued, or the data is the state already
  have hsynced : ∃ m' ≥ m, (x.state m').synced v := by
    rcases (delivered_at x hpush hsettles m).delivered with (hready | hcoming) | hsynced
    · obtain ⟨m', hm', hhead, hloop⟩ := (queue_ready deviceId).exists_served hfair.loop hready
      obtain ⟨hdata, hstate, hrefreshed⟩ := notify_stores (x.step m' _ hloop) hhead
      have hfree : (x.state m').refreshed = none := hpush _ _ (x.admissible m' _ hloop)
      refine ⟨m' + 1, by omega, .inl ⟨_, hdata, by rw [hstate]; exact v.refl _⟩, ?_⟩
      intro snapshot hsnapshot
      rw [hrefreshed, hfree] at hsnapshot
      cases hsnapshot
    · rw [hidle] at hcoming
      cases hcoming
    · exact ⟨m, le_rfl, hsynced⟩
  obtain ⟨m', hm', hsynced⟩ := hsynced
  refine ⟨(x.state m).bridge.state, m', hm.trans hm', ?_⟩
  intro k hk
  refine ⟨hrests k (hm'.trans hk), ?_⟩
  apply x.stays (P := World.synced v) hsynced _ hk
  intro j hj e hevent hj'
  exact synced_step hj' (hrests j (hm'.trans hj)).1 (hpush _ _ (x.admissible j e hevent))
    (x.step j e hevent)

/-- **Convergence.**  In a fair execution in which no refresh is overtaken and the
acknowledgements of event posts can be encoded, once no more network callbacks begin the
state stops changing and the coordinator's data becomes the state and stays so, unless
nothing was ever stored. -/
theorem data_converges
    {x : (machine deviceId).Execution (DeliveryAssumptions deviceId) (World.init restored)}
    (hfair : Fair x) (hquiet : ∀ j ≥ n, ∀ cb, x.event j ≠ some (.network cb)) :
    ∃ final, ∃ m ≥ n, ∀ k ≥ m, (x.state k).bridge.state = final ∧
      ((x.state k).data = some final ∨
        (x.state k).data = none ∧ final = Bridge.init.state) := by
  obtain ⟨final, m, hm, hrests⟩ := rests_synced (v := .whole) hfair (fun _ _ hok => hok.1)
    (fun j e he => Event.settles_of_encodes (x.admissible j e he).2) hquiet
  refine ⟨final, m, hm, ?_⟩
  intro k hk
  obtain ⟨⟨-, hstate⟩, hsynced⟩ := hrests k hk
  rw [← hstate]
  exact ⟨rfl, shows_whole_iff.mp hsynced.1⟩

set_option maxRecDepth 10000 in
/-- After an event post, with a refresh under way, the coordinator has the state for
good. -/
theorem data_converges_event :
    ∃ x : (machine "x").Execution (DeliveryAssumptions "x") (World.init fun _ => none),
      ∃ final m, ∀ k ≥ m, (x.state k).bridge.state = final ∧ (x.state k).data = some final := by
  obtain ⟨x, hfair, hevents, hstored⟩ := exists_fair "x" (DeliveryAssumptions "x") eventEvents
    (fun state => (state 14).data.isSome) (by decide +kernel)
  have hover : ∀ j ≥ 14, x.event j = none := by
    intro j hj
    rw [hevents]
    exact List.getElem?_eq_none hj
  obtain ⟨final, m, hm, hfinal⟩ := data_converges (n := 14) hfair (by simp +contextual [hover])
  refine ⟨x, final, m, ?_⟩
  intro k hk
  obtain ⟨hstate, hdata | ⟨hnone, -⟩⟩ := hfinal k hk
  · exact ⟨hstate, hdata⟩
  · -- what is stored is not taken away
    have hstays : (x.state k).data.isSome := by
      apply x.stays (P := fun w => w.data.isSome) hstored _ (hm.trans hk)
      intro j hj e hevent
      rw [hover j hj] at hevent
      cases hevent
    rw [hnone] at hstays
    cases hstays

/-! ## Every message is dealt with -/

theorem published_stays {m : ℕ} (hm : n ≤ m) {message : String × Json}
    (h : message ∈ (x.state n).bridge.published) : message ∈ (x.state m).bridge.published := by
  apply x.stays (P := fun w => message ∈ w.bridge.published) h _ hm
  intro k _ e hevent hk
  rw [published_step (x.step k e hevent)]
  exact List.mem_append_left _ hk

/-- **Network callbacks complete.**  In a fair execution the acknowledgement a network
callback owes, if it can be encoded, is published, and the reply its message brings is
processed by the loop. -/
theorem callbacks_complete (hfair : Fair x) {cb : NetworkCallback}
    (hevent : x.event n = some (.network cb)) :
    (∀ ack, cb.owedAck deviceId = some ack →
      ∃ m > n, ∀ k ≥ m, ack ∈ (x.state k).bridge.published) ∧
    ∀ reply ∈ cb.replies deviceId, ∃ m > n, ∃ e, x.event m = some e ∧
      replyOf (x.state m) e = some reply := by
  have hthread : (x.state (n + 1)).thread = (cb.action deviceId).effects := by
    rcases thread_step (x.step n _ hevent) with ⟨cb', he, -, hthread⟩ | ⟨he, -⟩ | ⟨-, hother, -⟩
    · cases he
      exact hthread
    · cases he
    · exact absurd rfl (hother cb)
  constructor
  · intro ack howed
    have hmem : ack ∈ publishedBy (cb.action deviceId) := by
      rcases publishedBy_action deviceId cb with hack | ⟨-, -, hnone⟩
      · rw [hack, howed]
        exact List.mem_singleton_self ack
      · rw [hnone] at howed
        cases howed
    obtain ⟨effect, heffect, hpublished⟩ := List.mem_filterMap.mp hmem
    rw [← hthread] at heffect
    obtain ⟨m, hm, hhead, hperforming⟩ :=
      (queue_thread deviceId).exists_served hfair.thread heffect
    refine ⟨m + 1, by omega, fun k hk => published_stays hk ?_⟩
    rw [published_step (x.step m _ hperforming), publishedIn, hhead]
    exact List.mem_append_right _ (by simp [hpublished])
  · intro reply hreply
    rw [← filterMap_reply_action] at hreply
    obtain ⟨effect, heffect, hscheduled⟩ := List.mem_filterMap.mp hreply
    cases effect with
    | callSoon callback =>
        rw [← hthread] at heffect
        obtain ⟨m, hm, hhead, hloop⟩ := callback_runs hfair heffect
        refine ⟨m, by omega, .loop, hloop, ?_⟩
        rw [replyOf, hhead]
        exact hscheduled
    | setConnected | setState | subscribe | publish => cases hscheduled

/-- A telemetry post, and a reply to a press that is under way. -/
def repliedEvents : List Event :=
  [.network (.connect 0 ⟨"dump", "nonce", .plain⟩), .thread, .thread, .thread, .thread, .loop,
    .start 0 .press "press" ⟨"token", "nonce", .plain⟩ none, .await 0,
    .network (.message ⟨"dtu/x/pub/event/dev_prop_post",
      .ok (.obj [("t", .str "post"), ("i", .int 101)]), ⟨"ack", "nonce", .plain⟩⟩), .thread,
    .network (.message ⟨"dtu/x/pub/service/dev_rpc_reply",
      .ok (.obj [("t", .str "press"), ("b", .obj [("co", .str "co")])]), ⟨"ack", "nonce", .plain⟩⟩),
    .thread, .loop, .loop]

set_option maxRecDepth 10000 in
/-- The post is acknowledged, and the reply is processed. -/
theorem callbacks_complete_press :
    ∃ x : (machine "x").Execution RpcAssumptions (World.init fun _ => none),
      (∃ m > 8, ∀ k ≥ m, ("dtu/x/sub/event/dev_prop_post_reply",
        ackEnvelope [("t", .str "post"), ("i", .int 101)] ⟨"ack", "nonce", .plain⟩) ∈
          (x.state k).bridge.published) ∧
      ∃ m > 10, ∃ e, x.event m = some e ∧ replyOf (x.state m) e = some ("press", .str "co") := by
  obtain ⟨x, hfair, hevents, -⟩ := exists_fair "x" RpcAssumptions repliedEvents
    (fun _ => true) (by decide +kernel)
  have hreplies : (NetworkCallback.message ⟨"dtu/x/pub/service/dev_rpc_reply",
      .ok (.obj [("t", .str "press"), ("b", .obj [("co", .str "co")])]),
      ⟨"ack", "nonce", .plain⟩⟩).replies "x" = [("press", .str "co")] := rfl
  refine ⟨x, (callbacks_complete hfair (hevents 8)).1 _ rfl,
    (callbacks_complete hfair (hevents 10)).2 _ ?_⟩
  rw [hreplies]
  exact List.mem_singleton_self _

end SotRwb1
