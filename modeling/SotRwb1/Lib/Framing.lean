import Mathlib.Data.List.Infix

/-!
# Cutting a stream at a terminator

A receiver collects symbols and cuts at the first terminator in front of which
what it has collected passes a test.  Messages may contain the terminator: what
matters is that the test fails in front of each one inside.  Then the receiver
recovers any sequence of messages, and none is a proper prefix of another.

## Main definitions

* `Receiver`, `Receiver.feed`, `Receiver.run` — the receiver.
* `Delimited` — a message that is accepted as a whole and nowhere before.
* `Receiver.run_messages`, `Delimited.eq_of_isPrefix` — the two consequences.
-/

universe u

/-- The symbols since the last cut, and the messages cut off so far. -/
structure Receiver (α : Type u) where
  unconsumed : List α
  received : List (List α)
  deriving DecidableEq

variable {α : Type u}

/-- The message passes the test, and no part of it in front of a terminator
does. -/
structure Delimited (stop : α) (accepts : List α → Bool) (message : List α) : Prop where
  accepted : accepts message = true
  inner : ∀ front, front ++ [stop] <+: message → accepts front = false

namespace Receiver

variable [DecidableEq α] (stop : α) (accepts : List α → Bool)

/-- Take one symbol. -/
def feed (r : Receiver α) (a : α) : Receiver α :=
  if a = stop ∧ accepts r.unconsumed = true then ⟨[], r.received ++ [r.unconsumed]⟩
  else ⟨r.unconsumed ++ [a], r.received⟩

/-- Take a stream. -/
def run (r : Receiver α) (stream : List α) : Receiver α := stream.foldl (feed stop accepts) r

variable {stop accepts}

/-- Nothing is cut inside a message. -/
theorem run_inside {front back : List α}
    (h : ∀ pre, pre ++ [stop] <+: front ++ back → accepts pre = false)
    (received : List (List α)) :
    run stop accepts ⟨front, received⟩ back = ⟨front ++ back, received⟩ := by
  induction back generalizing front with
  | nil => simp [run]
  | cons a back ih =>
      have hfeed : feed stop accepts ⟨front, received⟩ a = ⟨front ++ [a], received⟩ := by
        rw [feed, if_neg]
        rintro ⟨rfl, haccepts⟩
        rw [h front ⟨back, by simp⟩] at haccepts
        cases haccepts
      have hassoc : front ++ a :: back = front ++ [a] ++ back := by simp
      have hrest := @ih (front ++ [a]) (by rwa [hassoc] at h)
      rw [run, List.foldl_cons, hfeed]
      rwa [hassoc]

theorem run_message {message : List α} (h : Delimited stop accepts message)
    (received : List (List α)) :
    run stop accepts ⟨[], received⟩ (message ++ [stop]) = ⟨[], received ++ [message]⟩ := by
  have hinside := @run_inside _ _ _ _ [] message (by simpa using h.inner) received
  rw [run] at hinside
  rw [run, List.foldl_append, hinside]
  simp [feed, h.accepted]

/-- **Recovery.**  Delimited messages, each followed by the terminator, are
received one by one with nothing left over. -/
theorem run_messages {messages : List (List α)}
    (h : ∀ message ∈ messages, Delimited stop accepts message) (received : List (List α)) :
    run stop accepts ⟨[], received⟩ (messages.flatMap fun message => message ++ [stop]) =
      ⟨[], received ++ messages⟩ := by
  induction messages generalizing received with
  | nil => simp [run]
  | cons message rest ih =>
      have hfirst := run_message (h message (by simp)) received
      have hrest := ih (fun m hm => h m (by simp [hm])) (received ++ [message])
      rw [run] at hfirst hrest
      rw [run, List.flatMap_cons, List.foldl_append, hfirst, hrest, List.append_assoc,
        List.singleton_append]

end Receiver

/-- No delimited message with its terminator is a proper prefix of another. -/
theorem Delimited.eq_of_isPrefix {stop : α} {accepts : List α → Bool} {m m' : List α}
    (h : Delimited stop accepts m) (h' : Delimited stop accepts m')
    (hpre : m ++ [stop] <+: m' ++ [stop]) : m = m' := by
  rcases List.prefix_concat_iff.mp hpre with heq | hinside
  · exact List.append_cancel_right heq
  · have hrejected := h'.inner m hinside
    rw [h.accepted] at hrejected
    cases hrejected
