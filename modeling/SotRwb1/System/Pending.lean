import SotRwb1.System.Calls

/-!
# The table of pending requests

A call enters its token in the table, publishes, and only then begins the `try`
whose `finally` takes the token out again.  Every end of a wait passes through
there, and takes this entry and no other, whatever the other calls do meanwhile.
An exception of `publish` does not, and its entry stays.

## Main definitions

* `InFlight`, `NoneLeft` — running calls have entries, entries have running calls.
* `FreshTokens`, `PublishRaises` — the assumption, and the exceptional start.
* `EndsCall` — the steps that end a call.
* `EndsCleanly` — the entry of the call is gone and all others are as they were.
-/

namespace SotRwb1

open PyLib

/-! ## The calls after one was replaced -/

/-- The calls after one call was replaced. -/
theorem tasks_update {w w' : World} {id : ℕ} {task : Task}
    (h : w'.tasks = Function.update w.tasks id (some task)) {id' : ℕ} {task' : Task} :
    w'.tasks id' = some task' ↔
      (id' = id ∧ task' = task) ∨ (id' ≠ id ∧ w.tasks id' = some task') := by
  rw [h]
  by_cases hid : id' = id
  · subst hid
    simp [eq_comm]
  · simp [hid]

/-- A number without a call runs none. -/
theorem running_ne_some {w : World} {id : ℕ} (h : w.tasks id = none) (task : Task) :
    w.running id ≠ some task := by
  intro hrun
  rw [running_eq_some_iff, h] at hrun
  cases hrun.1

/-- The running calls after one call was replaced. -/
theorem running_update {w w' : World} {id : ℕ} {task : Task}
    (h : w'.tasks = Function.update w.tasks id (some task)) {id' : ℕ} {task' : Task} :
    w'.running id' = some task' ↔
      (id' = id ∧ task' = task ∧ task.ended = none) ∨ (id' ≠ id ∧ w.running id' = some task') := by
  rw [running_eq_some_iff, running_eq_some_iff, tasks_update h]
  constructor
  · intro hrun
    rcases hrun with ⟨⟨rfl, rfl⟩ | ⟨hid, htask⟩, hended⟩
    · exact .inl ⟨rfl, rfl, hended⟩
    · exact .inr ⟨hid, htask, hended⟩
  · intro hrun
    rcases hrun with ⟨rfl, rfl, hended⟩ | ⟨hid, htask, hended⟩
    · exact ⟨.inl ⟨rfl, rfl⟩, hended⟩
    · exact ⟨.inr ⟨hid, htask⟩, hended⟩

/-! ## The table -/

/-- Every running call has its entry. -/
def InFlight (w : World) : Prop :=
  ∀ id task, w.running id = some task → w.bridge.pending.get task.token = some id

/-- Every entry belongs to a running call. -/
def NoneLeft (w : World) : Prop :=
  ∀ t id, w.bridge.pending.get t = some id → ∃ task, w.running id = some task ∧ task.token = t

/-- The table holds exactly the running calls. -/
theorem table_iff (w : World) :
    (∀ t id, w.bridge.pending.get t = some id ↔ ∃ task, w.running id = some task ∧ task.token = t) ↔
      InFlight w ∧ NoneLeft w := by
  constructor
  · intro h
    exact ⟨fun id task hrun => (h task.token id).mpr ⟨task, hrun, rfl⟩, fun t id => (h t id).mp⟩
  · intro h t id
    refine ⟨h.2 t id, ?_⟩
    intro howner
    rcases howner with ⟨task, hrun, rfl⟩
    exact h.1 id task hrun

/-- The call of an entry runs, under the token of the entry. -/
theorem NoneLeft.running_of_get {w : World} (h : NoneLeft w) {t : String} {id : ℕ} {task : Task}
    (hget : w.bridge.pending.get t = some id) (htask : w.tasks id = some task) :
    w.running id = some task ∧ task.token = t := by
  obtain ⟨task', hrun, htoken⟩ := h t id hget
  have htask' := (running_eq_some_iff.mp hrun).1
  rw [htask] at htask'
  cases htask'
  exact ⟨hrun, htoken⟩

/-- A token belongs to at most one running call. -/
theorem InFlight.unique {w : World} (h : InFlight w) {id id' : ℕ} {task task' : Task}
    (hrun : w.running id = some task) (hrun' : w.running id' = some task')
    (htoken : task.token = task'.token) : id = id' := by
  have hget := h id task hrun
  rw [htoken, h id' task' hrun'] at hget
  exact (Option.some.inj hget).symm

theorem running_eq_of_tasks {w w' : World} (h : w'.tasks = w.tasks) (id : ℕ) :
    w'.running id = w.running id := by
  rw [World.running, h, World.running]

theorem InFlight.of_eq {w w' : World} (h : InFlight w) (htasks : w'.tasks = w.tasks)
    (hpending : w'.bridge.pending = w.bridge.pending) : InFlight w' := by
  intro id task hrun
  rw [running_eq_of_tasks htasks] at hrun
  rw [hpending]
  exact h id task hrun

theorem NoneLeft.of_eq {w w' : World} (h : NoneLeft w) (htasks : w'.tasks = w.tasks)
    (hpending : w'.bridge.pending = w.bridge.pending) : NoneLeft w' := by
  intro t id hget
  rw [hpending] at hget
  rw [running_eq_of_tasks htasks]
  exact h t id hget

theorem InFlight.start {w w' : World} (h : InFlight w) {id : ℕ} {task : Task}
    (htoken : w.bridge.pending.get task.token = none)
    (htasks : w'.tasks = Function.update w.tasks id (some task))
    (hpending : w'.bridge.pending = w.bridge.pending.set task.token id) : InFlight w' := by
  intro id' task' hrun
  rw [hpending, Dict.get_set]
  rcases (running_update htasks).mp hrun with ⟨rfl, rfl, -⟩ | ⟨-, hrun⟩
  · exact if_pos rfl
  · have hget := h id' task' hrun
    rw [if_neg, hget]
    intro heq
    rw [heq, htoken] at hget
    cases hget

theorem NoneLeft.start {w w' : World} (h : NoneLeft w) {id : ℕ} {task : Task}
    (hfresh : w.tasks id = none) (hended : task.ended = none)
    (htasks : w'.tasks = Function.update w.tasks id (some task))
    (hpending : w'.bridge.pending = w.bridge.pending.set task.token id) : NoneLeft w' := by
  intro t id' hget
  rw [hpending, Dict.get_set] at hget
  split at hget
  · rename_i ht
    cases hget
    exact ⟨task, (running_update htasks).mpr (.inl ⟨rfl, rfl, hended⟩), ht.symm⟩
  · obtain ⟨task', hrun, htoken⟩ := h t id' hget
    refine ⟨task', (running_update htasks).mpr (.inr ⟨?_, hrun⟩), htoken⟩
    intro hid
    exact running_ne_some hfresh task' (hid ▸ hrun)

theorem InFlight.waiterChange {w w' : World} (h : InFlight w) {id : ℕ} {task : Task}
    {waiter : Waiter Json} (htask : w.tasks id = some task)
    (hchange : WaiterChange w id task waiter w') : InFlight w' := by
  intro id' task' hrun
  rw [hchange.pending]
  rcases (running_update hchange.tasks).mp hrun with ⟨rfl, rfl, hended⟩ | ⟨-, hrun⟩
  · exact h id' task (running_eq_some_iff.mpr ⟨htask, hended⟩)
  · exact h id' task' hrun

theorem NoneLeft.waiterChange {w w' : World} (h : NoneLeft w) {id : ℕ} {task : Task}
    {waiter : Waiter Json} (htask : w.tasks id = some task)
    (hchange : WaiterChange w id task waiter w') : NoneLeft w' := by
  intro t id' hget
  rw [hchange.pending] at hget
  obtain ⟨task', hrun, htoken⟩ := h t id' hget
  by_cases hid : id' = id
  · subst hid
    obtain ⟨htask', hended⟩ := running_eq_some_iff.mp hrun
    rw [htask] at htask'
    cases htask'
    exact ⟨_, (running_update hchange.tasks).mpr (.inl ⟨rfl, rfl, hended⟩), htoken⟩
  · exact ⟨task', (running_update hchange.tasks).mpr (.inr ⟨hid, hrun⟩), htoken⟩

/-- The end of a call takes its entry and no other. -/
theorem CallEnd.get_pending {w w' : World} {id : ℕ} {task : Task} (h : CallEnd w id task w')
    (t : String) :
    w'.bridge.pending.get t = if t = task.token then none else w.bridge.pending.get t := by
  rw [h.pending, Dict.get_erase]

theorem InFlight.callEnd {w w' : World} (h : InFlight w) {id : ℕ} {task : Task}
    (hrun : w.running id = some task) (hend : CallEnd w id task w') : InFlight w' := by
  intro id' task' hrun'
  rcases (running_update hend.tasks).mp hrun' with ⟨-, -, hended⟩ | ⟨hid, hrun'⟩
  · cases hended
  · rw [hend.get_pending, if_neg, h id' task' hrun']
    intro htoken
    exact hid (h.unique hrun' hrun htoken)

theorem NoneLeft.callEnd {w w' : World} (h : NoneLeft w) {id : ℕ} {task : Task}
    (hrun : w.running id = some task) (hend : CallEnd w id task w') : NoneLeft w' := by
  intro t id' hget
  rw [hend.get_pending] at hget
  split at hget
  · cases hget
  · rename_i ht
    obtain ⟨task', hrun', htoken⟩ := h t id' hget
    refine ⟨task', (running_update hend.tasks).mpr (.inr ⟨?_, hrun'⟩), htoken⟩
    intro hid
    rw [hid, hrun] at hrun'
    cases hrun'
    exact ht htoken.symm

/-! ## The end of a call -/

/-- A call draws a token that no pending request has. -/
def FreshTokens (w : World) : Event → Prop
  | .start _ _ token _ _ => w.bridge.pending.get token = none
  | _ => True

instance : ∀ (w : World) (e : Event), Decidable (FreshTokens w e)
  | w, .start _ _ token _ _ => inferInstanceAs (Decidable (w.bridge.pending.get token = none))
  | _, .network _ => .isTrue trivial
  | _, .thread => .isTrue trivial
  | _, .loop => .isTrue trivial
  | _, .refresh _ => .isTrue trivial
  | _, .store => .isTrue trivial
  | _, .await _ => .isTrue trivial
  | _, .timeout _ => .isTrue trivial
  | _, .cancel _ => .isTrue trivial

/-- A call with a payload starts on a connection, and its `publish` raises. -/
def PublishRaises (w : World) : Event → Prop
  | .start _ caller _ _ refusal =>
      w.bridge.connected = true ∧ (∃ ci, caller.ci = .ok ci) ∧ refusal.isSome = true
  | _ => False

/-- The step ends a call with this number and token: one that ran, or one that starts
and raises. -/
inductive EndsCall (w : World) (e : Event) (w' : World) (id : ℕ) (token : String) : Prop
  | running (task : Task) (running : w.running id = some task) (token_eq : task.token = token)
      (ended : w'.running id = none)
  | starting (caller : Caller) (draws : Draws) (refusal : Option PyError)
      (event : e = .start id caller token draws refusal) (ended : w'.running id = none)

/-- The table holds no entry for the token, and the entries of the other calls are as
they were. -/
structure EndsCleanly (w w' : World) (id : ℕ) (token : String) : Prop where
  gone : w'.bridge.pending.get token = none
  others : ∀ t id', id' ≠ id →
    (w'.bridge.pending.get t = some id' ↔ w.bridge.pending.get t = some id')

/-! ## The start of a call -/

/-- A call starts by one of four branches. -/
theorem start_cases {deviceId : String} {w w' : World} {id : ℕ} {caller : Caller} {token : String}
    {draws : Draws} {refusal : Option PyError}
    (h : (machine deviceId).step w (.start id caller token draws refusal) = some w') :
    w.tasks id = none ∧
      ((w' = w ∧ ¬ PublishRaises w (.start id caller token draws refusal)) ∨
        (∃ ci, refusal = none ∧ w' = w.register deviceId id caller token ci draws) ∨
        (∃ err, PublishRaises w (.start id caller token draws refusal) ∧
          w' = w.registerRefused id caller token err)) := by
  change w.step deviceId (.start id caller token draws refusal) = some w' at h
  rw [World.step] at h
  split at h
  · rename_i hfresh
    cases h
    refine ⟨by simpa using hfresh, ?_⟩
    rw [World.start]
    cases hci : caller.ci with
    | error e => exact .inl ⟨rfl, by simp [PublishRaises, hci]⟩
    | ok ci =>
        cases hconnected : w.bridge.connected with
        | false => exact .inl ⟨rfl, by simp [PublishRaises, hconnected]⟩
        | true =>
            cases refusal with
            | none => exact .inr (.inl ⟨ci, rfl, rfl⟩)
            | some err =>
                exact .inr (.inr ⟨err, ⟨hconnected, ⟨ci, hci⟩, rfl⟩, rfl⟩)
  · cases h

/-! ## The end of a running call -/

/-- A call that is replaced by one that has not ended still runs. -/
theorem exists_running_update {w w' : World} {id id₀ : ℕ} {task task₀ : Task}
    (hrun : w.running id = some task)
    (htasks : w'.tasks = Function.update w.tasks id₀ (some task₀))
    (hsame : id = id₀ → task₀.ended = none) : ∃ task', w'.running id = some task' := by
  by_cases hid : id = id₀
  · exact ⟨task₀, (running_update htasks).mpr (.inl ⟨hid, rfl, hsame hid⟩)⟩
  · exact ⟨task, (running_update htasks).mpr (.inr ⟨hid, hrun⟩)⟩

/-- A running call ends only as its wait came out. -/
theorem callEnd_of_running {deviceId : String} {w w' : World} {e : Event} {id : ℕ} {task : Task}
    (hstep : (machine deviceId).step w e = some w') (hrun : w.running id = some task)
    (hended : w'.running id = none) : CallEnd w id task w' ∧ ¬ PublishRaises w e := by
  have hstill : (∃ task', w'.running id = some task') → CallEnd w id task w' ∧
      ¬ PublishRaises w e := by
    intro hrunning
    rcases hrunning with ⟨task', hrun'⟩
    rw [hended] at hrun'
    cases hrun'
  have hchange : ∀ {id₀ : ℕ} {task₀ : Task} {waiter : Waiter Json},
      w.tasks id₀ = some task₀ → WaiterChange w id₀ task₀ waiter w' →
      ∃ task', w'.running id = some task' := by
    intro id₀ task₀ waiter htask₀ change
    refine exists_running_update hrun change.tasks ?_
    intro heq
    subst heq
    obtain ⟨htask, hnotEnded⟩ := running_eq_some_iff.mp hrun
    rw [htask₀] at htask
    cases htask
    exact hnotEnded
  have hend : ∀ {id₀ : ℕ} {task₀ : Task}, w.running id₀ = some task₀ → CallEnd w id₀ task₀ w' →
      ¬ PublishRaises w e → CallEnd w id task w' ∧ ¬ PublishRaises w e := by
    intro id₀ task₀ hrun₀ callEnd hnot
    by_cases hid : id = id₀
    · subst hid
      rw [hrun] at hrun₀
      cases hrun₀
      exact ⟨callEnd, hnot⟩
    · exact hstill (exists_running_update hrun callEnd.tasks fun h => absurd h hid)
  cases step_cases hstep with
  | frame same _ _ => exact hstill ⟨task, by rw [running_eq_of_tasks same.tasks, hrun]⟩
  | start id₀ caller token draws refusal _ fresh tasks _ _ _ =>
      refine hstill (exists_running_update hrun tasks ?_)
      intro hid
      exact absurd (hid ▸ hrun) (running_ne_some fresh task)
  | complete t co id₀ task₀ _ _ _ task_eq _ change => exact hstill (hchange task_eq change)
  | wait id₀ task₀ _ running _ _ change =>
      exact hstill (hchange (running_eq_some_iff.mp running).1 change)
  | interrupt id₀ task₀ waiter _ running _ change =>
      exact hstill (hchange (running_eq_some_iff.mp running).1 change)
  | takeReply id₀ task₀ event running _ _ callEnd _ =>
      subst event
      exact hend running callEnd fun hraises => hraises
  | wake id₀ task₀ event _ running callEnd _ =>
      subst event
      exact hend running callEnd fun hraises => hraises
  | wakeNone id₀ _ _ _ tasks _ _ =>
      exact hstill ⟨task, by rw [running_eq_of_tasks tasks, hrun]⟩

/-- The end of a running call takes its entry and leaves the others. -/
theorem endsCleanly_of_callEnd {w w' : World} (h : InFlight w) {id : ℕ} {task : Task}
    (hrun : w.running id = some task) (hend : CallEnd w id task w') :
    EndsCleanly w w' id task.token where
  gone := by rw [hend.get_pending, if_pos rfl]
  others := by
    intro t id' hid
    rw [hend.get_pending]
    by_cases ht : t = task.token
    · have hget := h id task hrun
      rw [ht, hget]
      simp [hid.symm]
    · rw [if_neg ht]

/-- A call ends cleanly unless it ends because its `publish` raised. -/
theorem endsCleanly_iff {deviceId : String} {w w' : World} {e : Event} (h : InFlight w)
    (hok : FreshTokens w e) (hstep : (machine deviceId).step w e = some w') {id : ℕ}
    {token : String} (hends : EndsCall w e w' id token) :
    EndsCleanly w w' id token ↔ ¬ PublishRaises w e := by
  cases hends with
  | running task hrun htoken hended =>
      subst htoken
      obtain ⟨hend, hnot⟩ := callEnd_of_running hstep hrun hended
      exact iff_of_true (endsCleanly_of_callEnd h hrun hend) hnot
  | starting caller draws refusal event hended =>
      subst event
      obtain ⟨-, ⟨rfl, hnot⟩ | ⟨ci, -, rfl⟩ | ⟨err, hraises, rfl⟩⟩ := start_cases hstep
      · exact iff_of_true ⟨hok, fun _ _ _ => Iff.rfl⟩ hnot
      · have hrun : (w.register deviceId id caller token ci draws).running id =
            some ⟨token, caller, .init, none⟩ :=
          (running_update rfl).mpr (.inl ⟨rfl, rfl, rfl⟩)
        rw [hrun] at hended
        cases hended
      · refine iff_of_false ?_ (not_not.mpr hraises)
        intro hclean
        have hgone := hclean.gone
        rw [World.registerRefused, Dict.get_set_self] at hgone
        cases hgone

/-! ## Runs -/

theorem InFlight.init (restored : Shown) : InFlight (World.init restored) := by
  simp [InFlight, World.init, World.running]

theorem NoneLeft.init (restored : Shown) : NoneLeft (World.init restored) := by
  simp [NoneLeft, World.init, Bridge.init]

/-- With fresh tokens every running call keeps its entry. -/
theorem InFlight.step {deviceId : String} {w w' : World} {e : Event} (h : InFlight w)
    (hok : FreshTokens w e) (hstep : (machine deviceId).step w e = some w') : InFlight w' := by
  cases step_cases hstep with
  | frame same _ _ => exact h.of_eq same.tasks same.pending
  | start id caller token draws refusal event _ tasks pending _ _ =>
      subst event
      refine h.start ?_ tasks pending
      exact hok
  | complete t co id task _ _ _ task_eq _ change => exact h.waiterChange task_eq change
  | wait id task _ running _ _ change =>
      exact h.waiterChange (running_eq_some_iff.mp running).1 change
  | interrupt id task waiter _ running _ change =>
      exact h.waiterChange (running_eq_some_iff.mp running).1 change
  | takeReply id task _ running _ _ callEnd _ => exact h.callEnd running callEnd
  | wake id task _ _ running callEnd _ => exact h.callEnd running callEnd
  | wakeNone id _ _ _ tasks pending _ => exact h.of_eq tasks pending

/-- While no `publish` raises, no entry is left over. -/
theorem NoneLeft.step {deviceId : String} {w w' : World} {e : Event} (h : NoneLeft w)
    (hnot : ¬ PublishRaises w e) (hstep : (machine deviceId).step w e = some w') :
    NoneLeft w' := by
  cases step_cases hstep with
  | frame same _ _ => exact h.of_eq same.tasks same.pending
  | start id caller token draws refusal event fresh tasks pending _ _ =>
      subst event
      obtain ⟨-, ⟨rfl, -⟩ | ⟨ci, rfl, -⟩ | ⟨err, hraises, -⟩⟩ := start_cases hstep
      · rw [tasks, Function.update_self] at fresh
        cases fresh
      · exact h.start fresh rfl tasks pending
      · exact absurd hraises hnot
  | complete t co id task _ _ _ task_eq _ change => exact h.waiterChange task_eq change
  | wait id task _ running _ _ change =>
      exact h.waiterChange (running_eq_some_iff.mp running).1 change
  | interrupt id task waiter _ running _ change =>
      exact h.waiterChange (running_eq_some_iff.mp running).1 change
  | takeReply id task _ running _ _ callEnd _ => exact h.callEnd running callEnd
  | wake id task _ _ running callEnd _ => exact h.callEnd running callEnd
  | wakeNone id _ _ _ tasks pending _ => exact h.of_eq tasks pending

/-- **No pending entry outlives its call.**  In every state a run with fresh tokens
reaches, a call that ends leaves the table right exactly if it did not end because its
`publish` raised; and as long as no `publish` raised, the table holds exactly the
running calls. -/
theorem pending_entry_gone_iff {deviceId : String} {restored : Shown}
    {history : List (World × Event)} {w : World}
    (h : (machine deviceId).Run FreshTokens (World.init restored) history w) :
    (∀ e w' id token, FreshTokens w e → (machine deviceId).step w e = some w' →
      EndsCall w e w' id token → (EndsCleanly w w' id token ↔ ¬ PublishRaises w e)) ∧
    ((∀ s ∈ history, ¬ PublishRaises s.1 s.2) →
      ∀ t id, w.bridge.pending.get t = some id ↔
        ∃ task, w.running id = some task ∧ task.token = t) := by
  have hinv : InFlight w ∧ ((∀ s ∈ history, ¬ PublishRaises s.1 s.2) → NoneLeft w) := by
    refine h.historyInvariant
      (fun history w => InFlight w ∧ ((∀ s ∈ history, ¬ PublishRaises s.1 s.2) → NoneLeft w))
      ⟨.init restored, fun _ => .init restored⟩ ?_
    intro history s e s' hinv hok hstep
    refine ⟨hinv.1.step hok hstep, ?_⟩
    intro hnone
    refine (hinv.2 ?_).step (hnone (s, e) (by simp)) hstep
    intro earlier hearlier
    exact hnone earlier (by simp [hearlier])
  constructor
  · intro e w' id token hok hstep hends
    exact endsCleanly_iff hinv.1 hok hstep hends
  · intro hnone
    exact (table_iff w).mpr ⟨hinv.1, hinv.2 hnone⟩

/-- The bridge connects, as far as the flag. -/
def connectEvents : List Event := [.network (.connect 0 ⟨"token", "nonce", .plain⟩), .thread]

/-- A press starts, waits and times out. -/
def timeoutEvents : List Event :=
  connectEvents ++ [.thread, .thread, .thread, .loop,
    .start 0 .press "press" ⟨"token", "nonce", .plain⟩ none, .await 0, .timeout 0]

set_option maxRecDepth 10000 in
/-- A press that times out: the wake-up of its task takes its entry. -/
theorem pending_entry_gone_iff_timeout :
    ∃ history w w', (machine "x").Run FreshTokens (World.init fun _ => none) history w ∧
      (machine "x").step w .loop = some w' ∧ w.bridge.pending.get "press" = some 0 ∧
      EndsCleanly w w' 0 "press" := by
  obtain ⟨history, w, w', hrun, hstep, htest⟩ := Machine.Run.exists_of_replay_step
    (machine "x") FreshTokens (World.init fun _ => none) timeoutEvents .loop
    (fun w w' => w.bridge.pending.get "press" = some 0 ∧
      (w.running 0).map Task.token = some "press" ∧ (w'.running 0).isNone) (by decide +kernel)
  obtain ⟨hentry, htoken, hended⟩ := of_decide_eq_true htest
  obtain ⟨task, hrunning, htoken⟩ := Option.map_eq_some_iff.mp htoken
  have hends : EndsCall w .loop w' 0 "press" :=
    .running task hrunning htoken (Option.isNone_iff_eq_none.mp hended)
  exact ⟨history, w, w', hrun, hstep, hentry,
    ((pending_entry_gone_iff hrun).1 .loop w' 0 "press" trivial hstep hends).mpr
      fun hraises => hraises⟩

set_option maxRecDepth 10000 in
/-- On a topic with a wildcard `publish` raises, and the entry of the press stays. -/
theorem refused_publish_leaves_entry :
    ∃ history w w', (machine "+").Run FreshTokens (World.init fun _ => none) history w ∧
      FreshTokens w (.start 0 .press "press" ⟨"token", "nonce", .plain⟩ (some .valueError)) ∧
      (machine "+").step w (.start 0 .press "press" ⟨"token", "nonce", .plain⟩ (some .valueError)) =
        some w' ∧
      EndsCall w (.start 0 .press "press" ⟨"token", "nonce", .plain⟩ (some .valueError)) w' 0
        "press" ∧
      w'.bridge.pending.get "press" = some 0 ∧ ¬ EndsCleanly w w' 0 "press" := by
  obtain ⟨history, w, w', hrun, hstep, htest⟩ := Machine.Run.exists_of_replay_step
    (machine "+") FreshTokens (World.init fun _ => none) connectEvents
    (.start 0 .press "press" ⟨"token", "nonce", .plain⟩ (some .valueError))
    (fun w w' => w.bridge.pending.get "press" = none ∧
      w'.bridge.pending.get "press" = some 0 ∧ (w'.running 0).isNone) (by decide +kernel)
  obtain ⟨hfresh, hentry, hended⟩ := of_decide_eq_true htest
  refine ⟨history, w, w', hrun, hfresh, hstep, ?_, hentry, ?_⟩
  · exact .starting .press _ _ rfl (Option.isNone_iff_eq_none.mp hended)
  · intro hclean
    rw [hclean.gone] at hentry
    cases hentry

end SotRwb1
