import SotRwb1.Lib.Json

/-!
# A task waiting for one future

The part of asyncio that `await wait_for(future, timeout)` rests on, for a task
that does nothing else.  Completing or cancelling a future that a task waits for
schedules the wake-up of the task; interrupting a task whose future is already
completed sets a flag that the wake-up turns into an exception.  A timeout is an
interruption that `wait_for` reports as `TimeoutError`, unless the task was
cancelled as well.

This is `wait_for` as it is since Python 3.12.  That of 3.11 waits in a task of its own
and returns a result that arrives as the timer fires.

## Main definitions

* `Future`, `Future.setResult` — a future and its completion.
* `Waiter` — a task and the future it waits for.
* `Waiter.interrupt`, `Waiter.outcome` — interruption, and the end of the wait.
* `Waiter.Sound` — the invariant of a waiter's life.
-/

namespace PyLib

universe u

/-- A future. -/
inductive Future (α : Type u) where
  | pending
  | result (a : α)
  | cancelled

namespace Future

variable {α : Type u}

/-- `future.done()`. -/
def done : Future α → Bool
  | pending => false
  | result _ => true
  | cancelled => true

/-- `future.set_result(a)`: a future is completed once. -/
def setResult (f : Future α) (a : α) : Except PyError (Future α) :=
  match f with
  | pending => .ok (result a)
  | result _ => .error .invalidStateError
  | cancelled => .error .invalidStateError

@[simp] theorem done_eq_false_iff {f : Future α} : f.done = false ↔ f = pending := by
  cases f <;> simp [done]

end Future

/-- The exceptions that end a wait. -/
inductive Interruption where
  | timeoutError
  | cancelledError
  deriving DecidableEq

/-- A task, its future, whether it has begun to wait, and the interruptions it
received. -/
structure Waiter (α : Type u) where
  future : Future α
  waiting : Bool
  mustCancel : Bool
  expired : Bool
  cancelled : Bool

namespace Waiter

variable {α : Type u} {w : Waiter α} {a : α}

/-- A task that has created its future and runs on. -/
def init : Waiter α := ⟨.pending, false, false, false, false⟩

/-- Whether the task's wake-up is scheduled. -/
def woken (w : Waiter α) : Bool := w.waiting && w.future.done

/-- `task.cancel()` on a waiting task: cancel the future if it is pending, else
have the wake-up raise. -/
def interrupt (w : Waiter α) : Waiter α :=
  match w.future with
  | .pending => { w with future := .cancelled }
  | _ => { w with mustCancel := true }

/-- The timer of `wait_for` fires. -/
def timeOut (w : Waiter α) : Waiter α := { w.interrupt with expired := true }

/-- Somebody cancels the task. -/
def cancel (w : Waiter α) : Waiter α := { w.interrupt with cancelled := true }

/-- How the wait ends when the task runs again. -/
def outcome (w : Waiter α) : Except Interruption α :=
  match w.future, w.mustCancel with
  | .result a, false => .ok a
  | _, _ => .error (if w.expired && !w.cancelled then .timeoutError else .cancelledError)

/-- A waiter's flags agree with its future: an open future has met no
interruption, and an interruption shows in the future or in the flag. -/
structure Sound (w : Waiter α) : Prop where
  calm : w.future = .pending → w.mustCancel = false ∧ w.expired = false ∧ w.cancelled = false
  disturbed : (w.future = .cancelled ∨ w.mustCancel = true) ↔
    (w.expired = true ∨ w.cancelled = true)

theorem Sound.init : (Waiter.init : Waiter α).Sound :=
  ⟨by simp [Waiter.init], by simp [Waiter.init]⟩

theorem interrupt_ne_pending (w : Waiter α) : w.interrupt.future ≠ .pending := by
  unfold interrupt
  cases w.future <;> simp

theorem done_interrupt (w : Waiter α) : w.interrupt.future.done = true := by
  rw [← Bool.not_eq_false, Future.done_eq_false_iff]
  exact w.interrupt_ne_pending

theorem waiting_interrupt (w : Waiter α) : w.interrupt.waiting = w.waiting := by
  unfold interrupt
  cases w.future <;> rfl

theorem flags_interrupt (w : Waiter α) :
    w.interrupt.expired = w.expired ∧ w.interrupt.cancelled = w.cancelled := by
  unfold interrupt
  cases w.future <;> exact ⟨rfl, rfl⟩

/-- An interruption cancels an open future and leaves any other alone. -/
theorem future_interrupt (w : Waiter α) :
    w.interrupt.future = w.future ∨ w.future = .pending ∧ w.interrupt.future = .cancelled := by
  unfold interrupt
  cases hf : w.future <;> simp

/-- An interrupted task runs again. -/
theorem woken_timeOut (w : Waiter α) (h : w.waiting = true) : w.timeOut.woken = true := by
  rw [woken, timeOut, Bool.and_eq_true]
  exact ⟨w.waiting_interrupt.trans h, w.done_interrupt⟩

theorem woken_cancel (w : Waiter α) (h : w.waiting = true) : w.cancel.woken = true := by
  rw [woken, cancel, Bool.and_eq_true]
  exact ⟨w.waiting_interrupt.trans h, w.done_interrupt⟩

theorem interrupt_shows (w : Waiter α) :
    w.interrupt.future = .cancelled ∨ w.interrupt.mustCancel = true := by
  unfold interrupt
  cases w.future <;> simp

theorem Sound.timeOut (w : Waiter α) : w.timeOut.Sound where
  calm h := absurd h w.interrupt_ne_pending
  disturbed := ⟨fun _ => .inl rfl, fun _ => w.interrupt_shows⟩

theorem Sound.cancel (w : Waiter α) : w.cancel.Sound where
  calm h := absurd h w.interrupt_ne_pending
  disturbed := ⟨fun _ => .inr rfl, fun _ => w.interrupt_shows⟩

/-- Completing an open future keeps a waiter sound. -/
theorem Sound.setResult (h : w.Sound) (hopen : w.future = .pending) (a : α) :
    ({ w with future := .result a } : Waiter α).Sound := by
  obtain ⟨hmust, hexpired, hcancelled⟩ := h.calm hopen
  exact ⟨by simp, by simp [hmust, hexpired, hcancelled]⟩

/-- Beginning to wait does not touch the flags. -/
theorem Sound.wait (h : w.Sound) : ({ w with waiting := true } : Waiter α).Sound :=
  ⟨h.calm, h.disturbed⟩

/-- A wait returns only the result of its future. -/
theorem outcome_of_ok (h : w.outcome = .ok a) : w.future = .result a ∧ w.mustCancel = false := by
  cases hf : w.future <;> cases hm : w.mustCancel <;> simp_all [outcome]

/-- A wait returns the result of its future, unless it was interrupted. -/
theorem outcome_eq_ok_iff (h : w.Sound) :
    w.outcome = .ok a ↔ w.future = .result a ∧ w.expired = false ∧ w.cancelled = false := by
  have hdisturbed := h.disturbed
  unfold outcome
  cases hf : w.future with
  | pending => simp
  | cancelled => simp
  | result b =>
      cases hm : w.mustCancel with
      | true =>
          rw [hf, hm] at hdisturbed
          simp only [reduceCtorEq, or_true, true_iff] at hdisturbed
          rcases hdisturbed with hflag | hflag <;> simp [hflag]
      | false =>
          rw [hf, hm] at hdisturbed
          simp only [reduceCtorEq, Bool.false_eq_true, or_self, false_iff, not_or,
            Bool.not_eq_true] at hdisturbed
          simp [hdisturbed]

/-- A wait that nobody cancelled returns its result or times out. -/
theorem outcome_of_not_cancelled (h : w.Sound) (hdone : w.future.done = true)
    (hcancelled : w.cancelled = false) :
    (∃ a, w.future = .result a ∧ w.outcome = .ok a) ∨ w.outcome = .error .timeoutError := by
  by_cases hflag : w.future = .cancelled ∨ w.mustCancel = true
  · right
    have hexpired : w.expired = true := by simpa [hcancelled] using h.disturbed.mp hflag
    unfold outcome
    split
    · rename_i hresult hmust
      simp [hresult, hmust] at hflag
    · simp [hexpired, hcancelled]
  · left
    rw [not_or, Bool.not_eq_true] at hflag
    cases hf : w.future with
    | pending =>
        rw [hf] at hdone
        cases hdone
    | cancelled => exact absurd hf hflag.1
    | result a => exact ⟨a, rfl, by rw [outcome, hf, hflag.2]⟩

/-- How a wait ends: a cancellation goes before a timeout, and both before a result. -/
theorem outcome_cases (h : w.Sound) (hdone : w.future.done = true) :
    w.cancelled = true ∧ w.outcome = .error .cancelledError ∨
      w.cancelled = false ∧ w.expired = true ∧ w.outcome = .error .timeoutError ∨
      w.cancelled = false ∧ w.expired = false ∧ ∃ a, w.future = .result a ∧ w.outcome = .ok a := by
  cases hcancelled : w.cancelled with
  | true =>
      refine .inl ⟨rfl, ?_⟩
      cases houtcome : w.outcome with
      | ok a =>
          have hcalm := ((outcome_eq_ok_iff h).mp houtcome).2.2
          rw [hcancelled] at hcalm
          cases hcalm
      | error interruption =>
          unfold outcome at houtcome
          split at houtcome
          · cases houtcome
          · rw [hcancelled, Bool.not_true, Bool.and_false] at houtcome
            exact houtcome.symm
  | false =>
      right
      rcases outcome_of_not_cancelled h hdone hcancelled with ⟨a, hresult, houtcome⟩ | houtcome
      · exact .inr ⟨rfl, ((outcome_eq_ok_iff h).mp houtcome).2.1, a, hresult, houtcome⟩
      · refine .inl ⟨rfl, ?_, houtcome⟩
        unfold outcome at houtcome
        split at houtcome
        · cases houtcome
        · split at houtcome
          · rename_i hexpired
            exact (Bool.and_eq_true _ _ ▸ hexpired).1
          · cases houtcome

end Waiter
end PyLib
