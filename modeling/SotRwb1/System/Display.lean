import SotRwb1.System.Rpc

/-!
# What the entities show

An entity takes over the value of a write when the write returns, and a write
returns on every reply that decodes without `NAK`.  A reply that says neither `ACK`
nor `NAK` is only logged, so an entity may show a value the dongle never
acknowledged; in runs without such replies to control writes it shows only its
restored value or an acknowledged one.

## Main definitions

* `writeReply` — the reply a control write runs on with.
* `Conclusive` — the condition on a step under which the display is sound.
* `Shows` — an entity shows its restored value or an acknowledged one.
-/

namespace SotRwb1

open PyLib

/-- The call whose task runs on in a step. -/
def resumed (w : World) : Event → Option Task
  | .await id => w.running id
  | .loop => (w.ready.head?.bind Job.wakeId).bind w.running
  | _ => none

/-- The reply with which a control write runs on in a step: the result of its
future, unless its wait was interrupted. -/
def writeReply (w : World) (e : Event) : Option Json :=
  (resumed w e).bind fun task =>
    match task.caller, task.waiter.future, task.waiter.mustCancel with
    | .control _ _, .result co, false => some co
    | _, _, _ => none

/-- No control write runs on with a reply that says neither `ACK` nor `NAK`. -/
def Conclusive (w : World) (e : Event) : Prop := ∀ co ∈ writeReply w e, ¬ Ambiguous co

instance (w : World) (e : Event) : Decidable (Conclusive w e) :=
  inferInstanceAs (Decidable (∀ co ∈ writeReply w e, ¬ Ambiguous co))

/-! ## The end of a call -/

/-- What a call that ended in this way changes on the display: nothing, or it was a
control write with a reply without `NAK`, and its entity shows its value. -/
theorem conclude_cases (caller : Caller) (shown : Shown) (reply : Except CallError Json) :
    caller.conclude shown reply = shown ∨
      ∃ e value co, caller = .control e value ∧ reply = .ok co ∧
        (Acknowledges co ∨ Ambiguous co) ∧
        caller.conclude shown reply = Function.update shown e (some value) := by
  cases caller with
  | press | read => exact .inl rfl
  | control e value =>
      rw [Caller.conclude, Entity.finish_shown]
      split
      · rename_i hreturns
        obtain ⟨co, rfl, hco⟩ := (asyncWriteSetting_eq_ok_iff reply).mp hreturns
        exact .inr ⟨e, value, co, rfl, rfl, hco, rfl⟩
      · exact .inl (Function.update_eq_self e shown)

/-- A control write of `e` ended on an acknowledgement, and `e` shows its value. -/
def AcknowledgedWrite (w w' : World) : Prop :=
  ∃ id task e value co, w.running id = some task ∧ task.caller = .control e value ∧
    Acknowledges co ∧
    w'.tasks = Function.update w.tasks id (some { task with ended := some (.ok co) }) ∧
    w'.shown = Function.update w.shown e (some value)

/-- The end of a call changes the display only for an acknowledged write. -/
theorem shown_callEnd {w w' : World} {e : Event} {id : ℕ} {task : Task}
    (hok : Conclusive w e) (hresumed : resumed w e = some task)
    (hrun : w.running id = some task) (hend : CallEnd w id task w') :
    w'.shown = w.shown ∨ AcknowledgedWrite w w' := by
  rcases conclude_cases task.caller w.shown task.outcome with
    hsame | ⟨e', value, co, hcaller, hreply, hco, hshown⟩
  · left
    rw [hend.shown, hsame]
  · right
    obtain ⟨hfuture, hmust⟩ := Task.outcome_of_ok hreply
    have htaken : writeReply w e = some co := by
      simp [writeReply, hresumed, hcaller, hfuture, hmust]
    have hack : Acknowledges co := by
      rcases hco with hack | hambiguous
      · exact hack
      · exact absurd hambiguous (hok co htaken)
    refine ⟨id, task, e', value, co, hrun, hcaller, hack, ?_, ?_⟩
    · rw [hend.tasks, hreply]
    · rw [hend.shown, hshown]

/-- **One step.**  A conclusive step leaves the display alone or ends an acknowledged
write. -/
theorem shown_step {deviceId : String} {w w' : World} {e : Event} (hok : Conclusive w e)
    (hstep : (machine deviceId).step w e = some w') :
    w'.shown = w.shown ∨ AcknowledgedWrite w w' := by
  cases step_cases hstep with
  | frame same _ _ => exact .inl same.shown
  | start _ _ _ _ _ _ _ _ _ _ shown => exact .inl shown
  | complete _ _ _ _ _ _ _ _ _ change => exact .inl change.shown
  | wait _ _ _ _ _ _ change => exact .inl change.shown
  | interrupt _ _ _ _ _ _ change => exact .inl change.shown
  | takeReply id task event running _ _ callEnd _ =>
      subst event
      exact shown_callEnd hok running running callEnd
  | wake id task event head running callEnd _ =>
      subst event
      refine shown_callEnd hok ?_ running callEnd
      simp [resumed, head, Job.wakeId, running]
  | wakeNone _ _ _ _ _ _ shown => exact .inl shown

/-! ## Runs -/

/-- An entity shows what it restored, or the value of a write that got an
acknowledgement for its reply. -/
def Shows (restored : Shown) (w : World) (e : Entity) : Prop :=
  w.shown e = restored e ∨
    ∃ id task value co, w.tasks id = some task ∧ task.caller = .control e value ∧
      task.ended = some (.ok co) ∧ Acknowledges co ∧ w.shown e = some value

theorem Shows.step {deviceId : String} {restored : Shown} {w w' : World} {ev : Event}
    {e : Entity} (h : Shows restored w e) (hok : Conclusive w ev)
    (hstep : (machine deviceId).step w ev = some w') : Shows restored w' e := by
  have hkept : w'.shown e = w.shown e → Shows restored w' e := by
    intro hsame
    rcases h with hrestored | ⟨id, task, value, co, htask, hcaller, hended, hack, hshown⟩
    · exact .inl (hsame.trans hrestored)
    · obtain ⟨task', htask', hlater⟩ := later_step hstep htask
      exact .inr ⟨id, task', value, co, htask', hlater.caller.trans hcaller,
        hlater.ended _ hended, hack, hsame.trans hshown⟩
  rcases shown_step hok hstep with
    hsame | ⟨id, task, e', value, co, -, hcaller, hack, htasks, hshown⟩
  · exact hkept (by rw [hsame])
  · by_cases he : e = e'
    · subst he
      refine .inr ⟨id, { task with ended := some (.ok co) }, value, co, ?_, hcaller, rfl, hack, ?_⟩
      · rw [htasks, Function.update_self]
      · rw [hshown, Function.update_self]
    · apply hkept
      rw [hshown, Function.update_of_ne he]

/-- **The display.**  In every state of a conclusive run each entity shows what it
restored at start-up or the value of an acknowledged write, and a step changes the
display only by ending an acknowledged write. -/
theorem shown_acknowledged {deviceId : String} {stored : (e : Entity) → e.Stored}
    {history : List (World × Event)} {w : World}
    (h : (machine deviceId).Run Conclusive (World.init (restoredShown stored)) history w) :
    (∀ e, Shows (restoredShown stored) w e) ∧
    (∀ ev w', Conclusive w ev → (machine deviceId).step w ev = some w' →
      w'.shown = w.shown ∨ AcknowledgedWrite w w') := by
  constructor
  · intro e
    apply h.invariant (fun w => Shows (restoredShown stored) w e) (.inl rfl)
    intro w ev w' hshows hok hstep
    exact hshows.step hok hstep
  · intro ev w' hok hstep
    exact shown_step hok hstep

/-- The buzzer switch. -/
def buzzer : Entity := .switch (.prefixKind "a" "buzzer")

/-- Nothing was stored. -/
def nothingStored : (e : Entity) → e.Stored
  | .number _ => none
  | .select _ => none
  | .switch _ => none

/-- The buzzer is switched on and the reply to its write is `co`: connect, start and
wait, receive the reply, and run the three jobs of the queue. -/
def buzzerEvents (co : String) : List Event :=
  [.network (.connect 0 ⟨"token", "nonce", .plain⟩), .thread, .thread, .thread, .thread,
    .start 0 (.control buzzer true) "write" ⟨"token", "nonce", .plain⟩ none, .await 0,
    .network (.message ⟨"dtu/x/pub/service/dev_rpc_reply",
      .ok (.obj [("t", .str "write"), ("b", .obj [("co", .str co)])]), ⟨"token", "nonce", .plain⟩⟩),
    .thread, .loop, .loop, .loop]

/-- The start with nothing stored. -/
def blankWorld : World := World.init (restoredShown nothingStored)

set_option maxRecDepth 10000 in
/-- With the reply `(ACK` and a carriage return the buzzer shows that it is on. -/
theorem shown_acknowledged_buzzer :
    ∃ history w, (machine "x").Run Conclusive blankWorld history w ∧
      w.shown buzzer = some true ∧ Shows (restoredShown nothingStored) w buzzer := by
  have hreplay : ((machine "x").replay Conclusive blankWorld
      (buzzerEvents "KEFDSw0=")).isSome = true := by decide +kernel
  have hshown : ((machine "x").replay Conclusive blankWorld
      (buzzerEvents "KEFDSw0=")).bind (fun r => r.2.shown buzzer) = some true := by rfl
  obtain ⟨r, hr⟩ := Option.isSome_iff_exists.mp hreplay
  rw [hr, Option.bind_some] at hshown
  have hrun := Machine.Run.nil.replay hr
  exact ⟨_, _, hrun, hshown, (shown_acknowledged hrun).1 buzzer⟩

set_option maxRecDepth 10000 in
/-- With the reply `(` and a carriage return, which says neither `ACK` nor `NAK`, it
shows the same. -/
theorem shown_unacknowledged :
    ∃ history w, (machine "x").Run RpcAssumptions blankWorld history w ∧
      w.shown buzzer = some true ∧ ¬ Shows (restoredShown nothingStored) w buzzer := by
  have hreplay : ((machine "x").replay RpcAssumptions blankWorld
      (buzzerEvents "KA0=")).isSome = true := by decide +kernel
  have hshown : ((machine "x").replay RpcAssumptions blankWorld
      (buzzerEvents "KA0=")).bind (fun r => r.2.shown buzzer) = some true := by rfl
  have hended : ((machine "x").replay RpcAssumptions blankWorld
      (buzzerEvents "KA0=")).bind (fun r => (r.2.tasks 0).bind Task.ended) =
        some (.ok (.str "KA0=")) := by rfl
  have hother : ∀ id, ((machine "x").replay RpcAssumptions blankWorld
      (buzzerEvents "KA0=")).bind (fun r => (r.2.tasks (id + 1)).bind Task.ended) = none := by
    intro id
    rfl
  obtain ⟨r, hr⟩ := Option.isSome_iff_exists.mp hreplay
  simp only [hr, Option.bind_some] at hshown hended hother
  refine ⟨_, _, Machine.Run.nil.replay hr, hshown, ?_⟩
  intro hshows
  rcases hshows with hrestored | ⟨id, task, value, co, htask, -, hreply, hack, -⟩
  · rw [hshown] at hrestored
    cases hrestored
  · cases id with
    | zero =>
        rw [htask, Option.bind_some, hreply] at hended
        cases hended
        revert hack
        decide +kernel
    | succ id =>
        have hnone := hother id
        rw [htask, Option.bind_some, hreply] at hnone
        cases hnone

end SotRwb1
