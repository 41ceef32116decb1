import SotRwb1.System.Pending

/-!
# RPC correlation

The table of pending requests, the futures of the calls and the queued wake-ups
agree in every state a run reaches, whatever the order of replies, timeouts and
cancellations.  With the history of the run, the future of a call holds the first
reply with its token that the loop processed after the call registered.

## Main definitions

* `RpcAssumptions` — tokens are fresh and publishing does not raise.
* `Consistent` — the invariant of table, futures and wake-ups.
* `firstReply` — the first reply to a call, read off the history.
* `Answered` — the invariant that ties futures to first replies.
-/

namespace SotRwb1

open PyLib

/-- A call draws a token that no pending request has, and publishes. -/
def RpcAssumptions (w : World) : Event → Prop
  | .start _ _ token _ refusal => w.bridge.pending.get token = none ∧ refusal = none
  | _ => True

instance : ∀ (w : World) (e : Event), Decidable (RpcAssumptions w e)
  | _, .start _ _ _ _ _ => inferInstanceAs (Decidable (_ ∧ _))
  | _, .network _ => .isTrue trivial
  | _, .thread => .isTrue trivial
  | _, .loop => .isTrue trivial
  | _, .refresh _ => .isTrue trivial
  | _, .store => .isTrue trivial
  | _, .await _ => .isTrue trivial
  | _, .timeout _ => .isTrue trivial
  | _, .cancel _ => .isTrue trivial

/-! ## Table, futures and wake-ups -/

/-- The table holds exactly the running calls; waits are sound; a call ends as its
wait came out; and the queued wake-ups are those of the running calls with a
completed future. -/
structure Consistent (w : World) : Prop where
  table : ∀ t id, w.bridge.pending.get t = some id ↔
    ∃ task, w.running id = some task ∧ task.token = t
  sound : ∀ id task, w.tasks id = some task → task.waiter.Sound
  ended : ∀ id task reply, w.tasks id = some task → task.ended = some reply →
    reply = task.outcome ∧ task.waiter.future.done = true
  nodup : w.wakeIds.Nodup
  woken : ∀ id, id ∈ w.wakeIds ↔ ∃ task, w.running id = some task ∧ task.waiter.woken = true

theorem Consistent.init (restored : Shown) : Consistent (World.init restored) where
  table := by simp [World.init, Bridge.init, World.running]
  sound := by simp [World.init]
  ended := by simp [World.init]
  nodup := by simp [World.init, World.wakeIds]
  woken := by simp [World.init, World.wakeIds, World.running]

theorem Consistent.of_same {w w' : World} (h : Consistent w) (hsame : SameCalls w w') :
    Consistent w' := by
  have hrunning := running_eq_of_tasks hsame.tasks
  constructor
  case table => simpa only [hsame.pending, hrunning] using h.table
  case sound => simpa only [hsame.tasks] using h.sound
  case ended => simpa only [hsame.tasks] using h.ended
  case nodup => simpa only [hsame.wakeIds] using h.nodup
  case woken => simpa only [hsame.wakeIds, hrunning] using h.woken

theorem Consistent.inFlight {w : World} (h : Consistent w) : InFlight w :=
  ((table_iff w).mp h.table).1

theorem Consistent.noneLeft {w : World} (h : Consistent w) : NoneLeft w :=
  ((table_iff w).mp h.table).2

/-- Waits stay sound when one call is replaced by one whose wait is. -/
theorem Consistent.sound_update {w w' : World} (h : Consistent w) {id : ℕ} {task : Task}
    (htasks : w'.tasks = Function.update w.tasks id (some task)) (hsound : task.waiter.Sound) :
    ∀ id' task', w'.tasks id' = some task' → task'.waiter.Sound := by
  intro id' task' htask'
  rcases (tasks_update htasks).mp htask' with ⟨-, rfl⟩ | ⟨-, htask'⟩
  · exact hsound
  · exact h.sound id' task' htask'

/-- Ended calls stay as their waits came out when one call is replaced by such a one. -/
theorem Consistent.ended_update {w w' : World} (h : Consistent w) {id : ℕ} {task : Task}
    (htasks : w'.tasks = Function.update w.tasks id (some task))
    (hended : ∀ reply, task.ended = some reply →
      reply = task.outcome ∧ task.waiter.future.done = true) :
    ∀ id' task' reply, w'.tasks id' = some task' → task'.ended = some reply →
      reply = task'.outcome ∧ task'.waiter.future.done = true := by
  intro id' task' reply htask' hended'
  rcases (tasks_update htasks).mp htask' with ⟨-, rfl⟩ | ⟨-, htask'⟩
  · exact hended reply hended'
  · exact h.ended id' task' reply htask' hended'

theorem Consistent.start {w w' : World} (h : Consistent w) {id : ℕ} {caller : Caller}
    {token : String} (hfresh : w.tasks id = none) (htoken : w.bridge.pending.get token = none)
    (htasks : w'.tasks = Function.update w.tasks id (some ⟨token, caller, .init, none⟩))
    (hpending : w'.bridge.pending = w.bridge.pending.set token id)
    (hwakeIds : w'.wakeIds = w.wakeIds) : Consistent w' := by
  constructor
  case table =>
    exact (table_iff w').mpr ⟨h.inFlight.start htoken htasks hpending,
      h.noneLeft.start hfresh rfl htasks hpending⟩
  case sound => exact h.sound_update htasks .init
  case ended => exact h.ended_update htasks (by simp)
  case nodup =>
    rw [hwakeIds]
    exact h.nodup
  case woken =>
    intro id'
    rw [hwakeIds, h.woken]
    simp only [running_update htasks]
    constructor
    · intro hrun
      obtain ⟨task, hrun, hwoken⟩ := hrun
      refine ⟨task, .inr ⟨?_, hrun⟩, hwoken⟩
      intro hid
      exact running_ne_some hfresh task (hid ▸ hrun)
    · intro hrun
      rcases hrun with ⟨task, ⟨rfl, rfl, -⟩ | ⟨-, hrun⟩, hwoken⟩
      · cases hwoken
      · exact ⟨task, hrun, hwoken⟩

/-- The wait of a running call may change as long as it stays sound and a call
that was woken stays so. -/
theorem Consistent.waiterChange {w w' : World} (h : Consistent w) {id : ℕ} {task : Task}
    {waiter : Waiter Json} (hrun : w.running id = some task) (hsound : waiter.Sound)
    (hkeep : task.waiter.woken = true → waiter.woken = true)
    (hchange : WaiterChange w id task waiter w') : Consistent w' := by
  have hended := (running_eq_some_iff.mp hrun).2
  have hwokenBefore : id ∈ w.wakeIds ↔ task.waiter.woken = true := by
    rw [h.woken, hrun]
    simp
  have hmem : ∀ id', id' ∈ w'.wakeIds ↔
      (id' = id ∧ waiter.woken = true) ∨ (id' ≠ id ∧ id' ∈ w.wakeIds) := by
    intro id'
    rw [hchange.wakeIds]
    by_cases hid : id' = id
    · subst hid
      cases hnew : waiter.woken <;> cases hold : task.waiter.woken <;>
        simp_all
    · cases hnew : waiter.woken <;> cases hold : task.waiter.woken <;> simp [hid]
  constructor
  case table =>
    have htask := (running_eq_some_iff.mp hrun).1
    exact (table_iff w').mpr ⟨h.inFlight.waiterChange htask hchange,
      h.noneLeft.waiterChange htask hchange⟩
  case sound => exact h.sound_update hchange.tasks hsound
  case ended => exact h.ended_update hchange.tasks (by simp [hended])
  case nodup =>
    rw [hchange.wakeIds]
    split
    · rename_i hwake
      rw [Bool.and_eq_true, Bool.not_eq_true'] at hwake
      refine List.nodup_append.mpr ⟨h.nodup, List.nodup_singleton id, ?_⟩
      intro a ha b hb hab
      rw [List.mem_singleton] at hb
      rw [hab, hb, hwokenBefore, hwake.2] at ha
      cases ha
    · exact h.nodup
  case woken =>
    intro id'
    rw [hmem, h.woken]
    simp only [running_update hchange.tasks]
    constructor
    · intro hwake
      rcases hwake with ⟨rfl, hwoken⟩ | ⟨hid, task', hrun', hwoken⟩
      · exact ⟨_, .inl ⟨rfl, rfl, hended⟩, hwoken⟩
      · exact ⟨task', .inr ⟨hid, hrun'⟩, hwoken⟩
    · intro hrun'
      rcases hrun' with ⟨task', ⟨rfl, rfl, -⟩ | ⟨hid, hrun'⟩, hwoken⟩
      · exact .inl ⟨rfl, hwoken⟩
      · exact .inr ⟨hid, task', hrun', hwoken⟩

/-- A running call with a completed future may end. -/
theorem Consistent.callEnd {w w' : World} (h : Consistent w) {id : ℕ} {task : Task}
    (hrun : w.running id = some task) (hdone : task.waiter.future.done = true)
    (hnodup : w'.wakeIds.Nodup)
    (hmem : ∀ id', id' ∈ w'.wakeIds ↔ id' ≠ id ∧ id' ∈ w.wakeIds)
    (hend : CallEnd w id task w') : Consistent w' := by
  constructor
  case table =>
    exact (table_iff w').mpr ⟨h.inFlight.callEnd hrun hend, h.noneLeft.callEnd hrun hend⟩
  case sound =>
    exact h.sound_update hend.tasks (h.sound id task (running_eq_some_iff.mp hrun).1)
  case ended =>
    apply h.ended_update hend.tasks
    intro reply hreply
    cases hreply
    exact ⟨rfl, hdone⟩
  case nodup => exact hnodup
  case woken =>
    intro id'
    rw [hmem, h.woken]
    simp only [running_update hend.tasks]
    constructor
    · intro hwake
      obtain ⟨hid, task', hrun', hwoken⟩ := hwake
      exact ⟨task', .inr ⟨hid, hrun'⟩, hwoken⟩
    · intro hrun'
      rcases hrun' with ⟨task', ⟨-, -, hended⟩ | ⟨hid, hrun'⟩, hwoken⟩
      · cases hended
      · exact ⟨hid, task', hrun', hwoken⟩

/-- No wake-up is queued for a call that does not run. -/
theorem Consistent.head_running {w : World} (h : Consistent w) {id : ℕ}
    (hhead : w.ready.head? = some (.wake id)) : w.running id ≠ none := by
  have hmem : id ∈ w.wakeIds := by
    rw [World.wakeIds, List.mem_filterMap]
    exact ⟨.wake id, List.mem_of_head? hhead, rfl⟩
  obtain ⟨task, hrun, -⟩ := (h.woken id).mp hmem
  simp [hrun]

/-- **The invariant.**  Every admissible step keeps table, futures and wake-ups
consistent. -/
theorem Consistent.step {deviceId : String} {w w' : World} {e : Event} (h : Consistent w)
    (hok : RpcAssumptions w e) (hstep : (machine deviceId).step w e = some w') :
    Consistent w' := by
  cases step_cases hstep with
  | frame same _ _ => exact h.of_same same
  | start id caller token draws refusal event fresh tasks pending wakeIds _ =>
      subst event
      obtain ⟨htoken, rfl⟩ := hok
      exact h.start fresh htoken tasks pending wakeIds
  | complete t co id task _ _ get task_eq isOpen change =>
      obtain ⟨hrun, -⟩ := h.noneLeft.running_of_get get task_eq
      apply h.waiterChange hrun _ _ change
      · exact (h.sound id task task_eq).setResult isOpen co
      · intro hwoken
        simp [Waiter.woken, isOpen, Future.done] at hwoken
  | wait id task _ running _ isOpen change =>
      apply h.waiterChange running _ _ change
      · exact (h.sound id task (running_eq_some_iff.mp running).1).wait
      · intro hwoken
        simp [Waiter.woken, isOpen, Future.done] at hwoken
  | interrupt id task waiter event running waiting change =>
      have hdone : waiter.woken = true ∧ waiter.Sound := by
        rcases event with ⟨-, rfl⟩ | ⟨-, rfl⟩
        · exact ⟨task.waiter.woken_timeOut waiting, .timeOut task.waiter⟩
        · exact ⟨task.waiter.woken_cancel waiting, .cancel task.waiter⟩
      exact h.waiterChange running hdone.2 (fun _ => hdone.1) change
  | takeReply id task _ running idle isDone callEnd wakeIds =>
      have hnot : id ∉ w.wakeIds := by
        rw [h.woken, running]
        simp [Waiter.woken, idle]
      apply h.callEnd running isDone (by rw [wakeIds]; exact h.nodup) _ callEnd
      intro id'
      rw [wakeIds]
      refine ⟨fun hmem => ⟨?_, hmem⟩, And.right⟩
      intro hid
      exact hnot (hid ▸ hmem)
  | wake id task _ _ running callEnd wakeIds =>
      have hnodup := h.nodup
      rw [wakeIds, List.nodup_cons] at hnodup
      have hwoken : task.waiter.woken = true := by
        have hmem := (h.woken id).mp (by rw [wakeIds]; simp)
        simpa [running] using hmem
      apply h.callEnd running (Bool.and_eq_true_iff.mp hwoken).2 hnodup.2 _ callEnd
      intro id'
      rw [wakeIds, List.mem_cons]
      constructor
      · intro hmem
        exact ⟨fun hid => hnodup.1 (hid ▸ hmem), .inr hmem⟩
      · intro hmem
        rcases hmem with ⟨hid, hid' | hmem⟩
        · exact absurd hid' hid
        · exact hmem
  | wakeNone id _ head running _ _ _ => exact absurd running (h.head_running head)

/-! ## First replies -/

/-- Follow one call through a history: the token it registered, and the first
reply with that token that was processed since. -/
def watch (id : ℕ) (seen : Option (String × Option Json)) (step : World × Event) :
    Option (String × Option Json) :=
  match step.2 with
  | .start id' _ token _ _ => if id' = id then some (token, none) else seen
  | e =>
      match seen, replyOf step.1 e with
      | some (token, none), some (t, co) => if t = token then some (token, some co) else seen
      | _, _ => seen

/-- The token of a call and the first reply to it. -/
def watched (id : ℕ) (history : List (World × Event)) : Option (String × Option Json) :=
  history.foldl (watch id) none

/-- The first reply with the call's token that the loop processed after the call
registered. -/
def firstReply (id : ℕ) (history : List (World × Event)) : Option Json :=
  (watched id history).bind Prod.snd

theorem watched_concat (id : ℕ) (history : List (World × Event)) (w : World) (e : Event) :
    watched id (history ++ [(w, e)]) = watch id (watched id history) (w, e) := by
  rw [watched, List.foldl_append]
  rfl

theorem watch_start (id : ℕ) (seen : Option (String × Option Json)) (w : World)
    (caller : Caller) (token : String) (draws : Draws) (refusal : Option PyError) :
    watch id seen (w, .start id caller token draws refusal) = some (token, none) := by
  simp [watch]

/-- A step that neither starts the call nor processes a reply with its token, or
comes after its first reply, changes nothing. -/
theorem watch_eq_seen {id : ℕ} {token : String} {reply : Option Json} {w : World} {e : Event}
    (hstart : ∀ caller token draws refusal, e ≠ .start id caller token draws refusal)
    (hreply : reply = none → ∀ co, replyOf w e ≠ some (token, co)) :
    watch id (some (token, reply)) (w, e) = some (token, reply) := by
  unfold watch
  split
  · rename_i id' caller token' draws refusal he
    have hid : id' ≠ id := by
      intro hid
      subst hid
      exact hstart _ _ _ _ he
    rw [if_neg hid]
  · split
    · rename_i heq hr
      cases heq
      split
      · rename_i ht
        subst ht
        exact absurd hr (hreply rfl _)
      · rfl
    · rfl

theorem watch_reply {id : ℕ} {token : String} {co : Json} {w : World}
    (h : replyOf w .loop = some (token, co)) :
    watch id (some (token, none)) (w, .loop) = some (token, some co) := by
  simp [watch, h]

/-- A call that registered is watched under its token; while its future is open no
reply was processed, and a result is the first reply. -/
def Answered (history : List (World × Event)) (w : World) : Prop :=
  ∀ id task, w.tasks id = some task → ∃ reply, watched id history = some (task.token, reply) ∧
    (task.waiter.future = .pending → reply = none) ∧
    (∀ co, task.waiter.future = .result co → reply = some co)

/-- A step leaves a call answered if it leaves its future alone and brings no reply
to it while the future is open. -/
theorem answered_frame {history : List (World × Event)} {w : World} {e : Event} {id : ℕ}
    {task : Task} (h : Answered history w) (htask : w.tasks id = some task)
    (hstart : ∀ caller token draws refusal, e ≠ .start id caller token draws refusal)
    (hmissed : ∀ co, replyOf w e = some (task.token, co) → task.waiter.future.done = true) :
    ∃ reply, watched id (history ++ [(w, e)]) = some (task.token, reply) ∧
      (task.waiter.future = .pending → reply = none) ∧
      (∀ co, task.waiter.future = .result co → reply = some co) := by
  obtain ⟨reply, hwatched, hopen, hresult⟩ := h id task htask
  rw [watched_concat, hwatched]
  by_cases hnew : reply = none ∧ ∃ co, replyOf w e = some (task.token, co)
  · obtain ⟨rfl, co, hco⟩ := hnew
    have he : e = .loop := by
      cases e <;> first | rfl | cases hco
    subst he
    have hdone := hmissed co hco
    refine ⟨some co, watch_reply hco, ?_, ?_⟩
    · intro hpending
      rw [hpending] at hdone
      cases hdone
    · intro co' hco'
      cases hresult co' hco'
  · refine ⟨reply, watch_eq_seen hstart ?_, hopen, hresult⟩
    intro hnone co hco
    exact hnew ⟨hnone, co, hco⟩

theorem Answered.init (restored : Shown) : Answered [] (World.init restored) := by
  intro id task htask
  cases htask

/-- A step that starts no call, brings no reply and changes one call keeps the calls
answered if it leaves that call's future alone or cancels it. -/
theorem Answered.update {history : List (World × Event)} {w w' : World} {e : Event} {id : ℕ}
    {task task' : Task} (h : Answered history w)
    (hstart : ∀ id caller token draws refusal, e ≠ .start id caller token draws refusal)
    (hnone : replyOf w e = none) (htask : w.tasks id = some task)
    (htasks : w'.tasks = Function.update w.tasks id (some task')) (htoken : task'.token = task.token)
    (hfuture : task'.waiter.future = task.waiter.future ∨
      task.waiter.future = .pending ∧ task'.waiter.future = .cancelled) :
    Answered (history ++ [(w, e)]) w' := by
  intro id₁ task₁ htask₁
  rcases (tasks_update htasks).mp htask₁ with ⟨rfl, rfl⟩ | ⟨-, htask₁⟩
  · obtain ⟨reply, hwatched, hopen, hresult⟩ :=
      answered_frame h htask (hstart id₁) (by simp [hnone])
    refine ⟨reply, htoken ▸ hwatched, ?_⟩
    rcases hfuture with hsame | ⟨-, hcancelled⟩
    · rw [hsame]
      exact ⟨hopen, hresult⟩
    · simp [hcancelled]
  · exact answered_frame h htask₁ (hstart id₁) (by simp [hnone])

/-- Every admissible step keeps the calls answered. -/
theorem Answered.step {deviceId : String} {history : List (World × Event)} {w w' : World}
    {e : Event} (hcons : Consistent w) (h : Answered history w) (hok : RpcAssumptions w e)
    (hstep : (machine deviceId).step w e = some w') : Answered (history ++ [(w, e)]) w' := by
  cases step_cases hstep with
  | frame same fresh missed =>
      intro id task htask
      rw [same.tasks] at htask
      apply answered_frame h htask
      · intro caller token draws refusal he
        rw [fresh id caller token draws refusal he] at htask
        cases htask
      · intro co hco
        cases hended : task.ended with
        | some reply => exact (hcons.ended id task reply htask hended).2
        | none =>
            have hrun := running_eq_some_iff.mpr ⟨htask, hended⟩
            exact missed _ co hco id ((hcons.table _ id).mpr ⟨task, hrun, rfl⟩) task htask
  | start id caller token draws refusal event fresh tasks _ _ _ =>
      subst event
      obtain ⟨-, rfl⟩ := hok
      intro id' task htask
      rcases (tasks_update tasks).mp htask with ⟨rfl, rfl⟩ | ⟨hid, htask⟩
      · refine ⟨none, ?_, fun _ => rfl, by simp [Waiter.init]⟩
        rw [watched_concat, watch_start]
      · apply answered_frame h htask
        · intro caller' token' draws' refusal' he
          cases he
          exact hid rfl
        · intro co hco
          cases hco
  | complete t co id task event reply get task_eq isOpen change =>
      subst event
      obtain ⟨hrun, htoken⟩ := hcons.noneLeft.running_of_get get task_eq
      intro id' task' htask'
      rcases (tasks_update change.tasks).mp htask' with ⟨rfl, rfl⟩ | ⟨hid, htask'⟩
      · obtain ⟨seen, hwatched, hnone, -⟩ := h id' task task_eq
        rw [hnone isOpen, htoken] at hwatched
        refine ⟨some co, ?_, by simp, by simp⟩
        rw [watched_concat, hwatched, htoken, watch_reply reply]
      · apply answered_frame h htask' (by simp)
        intro co' hco'
        rw [reply] at hco'
        cases hended : task'.ended with
        | some r => exact (hcons.ended id' task' r htask' hended).2
        | none =>
            have hrun' := running_eq_some_iff.mpr ⟨htask', hended⟩
            have hsame : task'.token = task.token := by
              rw [htoken]
              exact (congrArg Prod.fst (Option.some.inj hco')).symm
            exact absurd (hcons.inFlight.unique hrun' hrun hsame) hid
  | wait id task event running _ _ change =>
      subst event
      have htask := (running_eq_some_iff.mp running).1
      exact h.update (by simp) rfl htask change.tasks rfl (.inl rfl)
  | interrupt id task waiter event running _ change =>
      have htask := (running_eq_some_iff.mp running).1
      rcases event with ⟨rfl, rfl⟩ | ⟨rfl, rfl⟩
      · exact h.update (by simp) rfl htask change.tasks rfl task.waiter.future_interrupt
      · exact h.update (by simp) rfl htask change.tasks rfl task.waiter.future_interrupt
  | takeReply id task event running _ _ callEnd _ =>
      subst event
      have htask := (running_eq_some_iff.mp running).1
      exact h.update (by simp) rfl htask callEnd.tasks rfl (.inl rfl)
  | wake id task event head running callEnd _ =>
      subst event
      have htask := (running_eq_some_iff.mp running).1
      have hreply : replyOf w .loop = none := by rw [replyOf, head]; rfl
      exact h.update (by simp) hreply htask callEnd.tasks rfl (.inl rfl)
  | wakeNone id _ head running _ _ _ => exact absurd running (hcons.head_running head)

/-! ## Errors of jobs -/

/-- The only error a job raises is that of a token that cannot be a key. -/
theorem jobErrors_step {deviceId : String} {w w' : World} {e : Event}
    (h : (machine deviceId).step w e = some w') :
    w'.jobErrors = w.jobErrors ∨ w'.jobErrors = w.jobErrors ++ [.typeError] := by
  cases step_result h with
  | thread effect rest performing => cases effect <;> exact .inl rfl
  | loop job rest queued w' result =>
      cases result with
      | typeError => exact .inr rfl
      | notify | connect | complete | missed | unknown | wake | wakeNone => exact .inl rfl
  | network | refresh | refreshFails | store | register | refuse | startFails | wait | takeReply |
      timeout | cancel => exact .inl rfl

/-! ## The result -/

/-- The call has returned `co`, or it returns `co` when its task runs next: it is
about to wait, or its wake-up is queued. -/
def Returns (deviceId : String) (w : World) (id : ℕ) (task : Task) (co : Json) : Prop :=
  task.ended = some (.ok co) ∨
    (task.ended = none ∧
      ((task.waiter.waiting = false ∧
          (machine deviceId).step w (.await id) = some (w.finish id task (.ok co))) ∨
        (.wake id ∈ w.ready ∧ ∀ rest, w.ready = .wake id :: rest →
          (machine deviceId).step w .loop =
            some (({ w with ready := rest } : World).finish id task (.ok co)))))

theorem Task.outcome_eq_ok_iff {task : Task} (h : task.waiter.Sound) (co : Json) :
    task.outcome = .ok co ↔ task.waiter.future = .result co ∧ task.waiter.expired = false ∧
      task.waiter.cancelled = false := by
  rw [← Waiter.outcome_eq_ok_iff h, Task.outcome]
  cases task.waiter.outcome <;> simp [Except.mapError]

/-- An undisturbed call that had its first reply returns it. -/
theorem returns_of_firstReply {deviceId : String} {history : List (World × Event)} {w : World}
    (hcons : Consistent w) (hanswered : Answered history w) {id : ℕ} {task : Task} {co : Json}
    (htask : w.tasks id = some task) (hreply : firstReply id history = some co)
    (hexpired : task.waiter.expired = false) (hcancelled : task.waiter.cancelled = false) :
    Returns deviceId w id task co := by
  obtain ⟨reply, hwatched, hopen, hresult⟩ := hanswered id task htask
  have hsound := hcons.sound id task htask
  have hfirst : reply = some co := by
    rw [firstReply, hwatched] at hreply
    exact hreply
  have hfuture : task.waiter.future = .result co := by
    cases hf : task.waiter.future with
    | pending =>
        rw [hopen hf] at hfirst
        cases hfirst
    | cancelled =>
        have hflag := hsound.disturbed.mp (.inl hf)
        rw [hexpired, hcancelled] at hflag
        simp at hflag
    | result co' =>
        rw [hresult co' hf, Option.some.injEq] at hfirst
        rw [hfirst]
  have houtcome : task.outcome = .ok co :=
    (Task.outcome_eq_ok_iff hsound co).mpr ⟨hfuture, hexpired, hcancelled⟩
  cases hended : task.ended with
  | some r =>
      left
      rw [hended, (hcons.ended id task r htask hended).1, houtcome]
  | none =>
      right
      have hrun := running_eq_some_iff.mpr ⟨htask, hended⟩
      refine ⟨hended, ?_⟩
      cases hwaiting : task.waiter.waiting with
      | false =>
          left
          refine ⟨rfl, ?_⟩
          change w.step deviceId (.await id) = _
          simp [World.step, hrun, hwaiting, World.beginWait, hfuture, Future.done, houtcome]
      | true =>
          right
          have hwoken : id ∈ w.wakeIds := by
            refine (hcons.woken id).mpr ⟨task, hrun, ?_⟩
            simp [Waiter.woken, hwaiting, hfuture, Future.done]
          constructor
          · obtain ⟨job, hjob, hid⟩ := List.mem_filterMap.mp hwoken
            cases job with
            | callback cb => cases hid
            | wake id' =>
                cases hid
                exact hjob
          · intro rest hready
            have hrunning : ({ w with ready := rest } : World).running id = some task := hrun
            change w.step deviceId .loop = _
            rw [World.step, hready]
            dsimp only
            rw [World.runJob, World.resume, hrunning, ← houtcome]

/-- A reply that finds no call, or a call that had its first reply, leaves every
call as it is. -/
theorem tasks_of_stale_reply {deviceId : String} {history : List (World × Event)}
    {w w' : World} (hcons : Consistent w) (hanswered : Answered history w) {token co : Json}
    {rest : List Job} (hready : w.ready = .callback (.resolvePending token co) :: rest)
    (hstep : (machine deviceId).step w .loop = some w')
    (hstale : ∀ t id task, token = .str t → w.tasks id = some task → task.ended = none →
      task.token = t → (firstReply id history).isSome) :
    w'.tasks = w.tasks := by
  have hreplyOf : replyOf w .loop = (Job.callback (.resolvePending token co)).reply :=
    replyOf_loop hready
  cases step_cases hstep with
  | frame same _ _ => exact same.tasks
  | start _ _ _ _ _ event => cases event
  | complete t co' id task _ reply get task_eq isOpen _ =>
      obtain ⟨hrun, htoken⟩ := hcons.noneLeft.running_of_get get task_eq
      have hstr : token = .str t := by
        rw [hreplyOf] at reply
        cases token with
        | str t' =>
            cases reply
            rfl
        | null | bool | int | float | arr | obj => cases reply
      have hsome := hstale t id task hstr task_eq (running_eq_some_iff.mp hrun).2 htoken
      obtain ⟨seen, hwatched, hopen, -⟩ := hanswered id task task_eq
      rw [firstReply, hwatched, hopen isOpen] at hsome
      cases hsome
  | wait _ _ event => cases event
  | interrupt _ _ _ event => rcases event with ⟨he, -⟩ | ⟨he, -⟩ <;> cases he
  | takeReply _ _ event => cases event
  | wake id _ _ head =>
      rw [hready] at head
      cases head
  | wakeNone _ _ _ _ tasks _ _ => exact tasks

/-- The invariants hold in every state a run reaches. -/
theorem rpc_invariants {deviceId : String} {restored : Shown}
    {history : List (World × Event)} {w : World}
    (h : (machine deviceId).Run RpcAssumptions (World.init restored) history w) :
    Consistent w ∧ Answered history w ∧ .invalidStateError ∉ w.jobErrors := by
  refine h.historyInvariant
    (fun history w => Consistent w ∧ Answered history w ∧ .invalidStateError ∉ w.jobErrors)
    ⟨.init restored, .init restored, by simp [World.init]⟩ ?_
  intro history s e s' hinv hok hstep
  obtain ⟨hcons, hanswered, herrors⟩ := hinv
  refine ⟨hcons.step hok hstep, hanswered.step hcons hok hstep, ?_⟩
  rcases jobErrors_step hstep with heq | heq <;> rw [heq]
  · exact herrors
  · simp [herrors]

/-- Over any run, the replies the loop processed, followed by those still under way,
are the replies of the messages received, in their order. -/
theorem replies_processed {deviceId : String} {restored : Shown} {ok : World → Event → Prop}
    {history : List (World × Event)} {w : World}
    (h : (machine deviceId).Run ok (World.init restored) history w) :
    (history.filterMap fun p => replyOf p.1 p.2) ++ w.replies =
      history.flatMap fun p => p.2.replies deviceId := by
  apply h.historyInvariant (fun history w => (history.filterMap fun p => replyOf p.1 p.2) ++
    w.replies = history.flatMap fun p => p.2.replies deviceId) rfl
  intro history s e s' hledger _ hstep
  have hprocessed : [(s, e)].filterMap (fun p => replyOf p.1 p.2) = (replyOf s e).toList := by
    cases hreply : replyOf s e <;> simp [hreply]
  rw [List.filterMap_append, List.flatMap_append, ← hledger, List.flatMap_singleton, hprocessed,
    List.append_assoc, replies_step hstep, List.append_assoc]

/-- **RPC correlation.**  In every state a run reaches: the table holds exactly the
tokens of the calls that started and did not end; a call returned only the first
reply with its token that was processed after it registered, and an undisturbed
call that had such a reply returns it; a reply without such a call, or after the
first, changes no call; no job ever completes a completed future; and the replies
processed are those of the messages received, each with the `co` of its body, or `None`
for a dump. -/
theorem rpc_correlation {deviceId : String} {restored : Shown}
    {history : List (World × Event)} {w : World}
    (h : (machine deviceId).Run RpcAssumptions (World.init restored) history w) :
    (∀ t, t ∈ w.bridge.pending.keys ↔
      ∃ id task, w.tasks id = some task ∧ task.ended = none ∧ task.token = t) ∧
    (∀ id task co, w.tasks id = some task → task.ended = some (.ok co) →
      firstReply id history = some co) ∧
    (∀ id task co, w.tasks id = some task → firstReply id history = some co →
      task.waiter.expired = false → task.waiter.cancelled = false →
      Returns deviceId w id task co) ∧
    (∀ token co rest w', w.ready = .callback (.resolvePending token co) :: rest →
      (machine deviceId).step w .loop = some w' →
      (∀ t id task, token = .str t → w.tasks id = some task → task.ended = none →
        task.token = t → (firstReply id history).isSome) →
      w'.tasks = w.tasks) ∧
    (.invalidStateError ∉ w.jobErrors ∧
      ∀ e w', (machine deviceId).step w e = some w' → ∀ id task, w.tasks id = some task →
        task.waiter.future.done = true →
        ∃ task', w'.tasks id = some task' ∧ task'.waiter.future = task.waiter.future) ∧
    (history.filterMap fun p => replyOf p.1 p.2) ++ w.replies =
      history.flatMap fun p => p.2.replies deviceId := by
  obtain ⟨hcons, hanswered, herrors⟩ := rpc_invariants h
  refine ⟨?_, ?_, ?_, ?_, ⟨herrors, ?_⟩, replies_processed h⟩
  · intro t
    rw [Dict.mem_keys_iff, Option.isSome_iff_exists]
    simp only [hcons.table, running_eq_some_iff, and_assoc]
  · intro id task co htask hended
    obtain ⟨reply, hwatched, -, hresult⟩ := hanswered id task htask
    have houtcome := (hcons.ended id task _ htask hended).1
    have hfuture := ((Task.outcome_eq_ok_iff (hcons.sound id task htask) co).mp houtcome.symm).1
    rw [firstReply, hwatched, hresult co hfuture]
    rfl
  · intro id task co htask hreply hexpired hcancelled
    exact returns_of_firstReply hcons hanswered htask hreply hexpired hcancelled
  · intro token co rest w' hready hstep hstale
    exact tasks_of_stale_reply hcons hanswered hready hstep hstale
  · intro e w' hstep id task htask hdone
    obtain ⟨task', htask', hlater⟩ := later_step hstep htask
    exact ⟨task', htask', hlater.future hdone⟩

/-- A press of the clear-fault button: connect, start and wait, receive the reply,
and run the three jobs of the queue. -/
def pressEvents : List Event :=
  [.network (.connect 0 ⟨"token", "nonce", .plain⟩), .thread, .thread, .thread, .thread,
    .start 0 .press "press" ⟨"token", "nonce", .plain⟩ none, .await 0,
    .network (.message ⟨"dtu/x/pub/service/dev_rpc_reply",
      .ok (.obj [("t", .str "press"), ("b", .obj [("co", .str "KEFDSw0=")])]),
      ⟨"token", "nonce", .plain⟩⟩),
    .thread, .loop, .loop, .loop]

set_option maxRecDepth 10000 in
/-- The call of the button returns, and what it returns is its first reply. -/
theorem rpc_correlation_press :
    ∃ history w, (machine "x").Run RpcAssumptions (World.init fun _ => none) history w ∧
      ∃ task, w.tasks 0 = some task ∧ task.ended = some (.ok (.str "KEFDSw0=")) ∧
        firstReply 0 history = some (.str "KEFDSw0=") := by
  have hreplay : ((machine "x").replay RpcAssumptions (World.init fun _ => none)
      pressEvents).isSome = true := by decide +kernel
  have hended : ((machine "x").replay RpcAssumptions (World.init fun _ => none)
      pressEvents).bind (fun r => (r.2.tasks 0).bind Task.ended) =
        some (.ok (.str "KEFDSw0=")) := by rfl
  obtain ⟨r, hr⟩ := Option.isSome_iff_exists.mp hreplay
  rw [hr, Option.bind_some] at hended
  obtain ⟨task, htask, hended⟩ := Option.bind_eq_some_iff.mp hended
  have hrun := Machine.Run.nil.replay hr
  exact ⟨_, _, hrun, task, htask, hended, (rpc_correlation hrun).2.1 0 task _ htask hended⟩

end SotRwb1
