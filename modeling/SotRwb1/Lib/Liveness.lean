import Mathlib.Data.Nat.Init
import SotRwb1.Lib.Machine

/-!
# Infinite executions, fairness and progress

An `Execution` of a machine goes on for ever; at some moments nothing happens, so
a run that stops is one too.  It is fair to an event if the event happens whenever
it could happen from some moment on.

Progress is proved moment by moment.  `Execution.exists_taken` is the rule for one
fair event: what holds until the event happens leads to a moment where it happens.
`QueueOf.exists_served` is the rule for queues, by induction on the items in front: an
item of a queue that keeps being served at the head is served.

## Main definitions

* `Execution`, `Execution.Fair` — infinite executions and weak fairness.
* `Run.execution` — a run that stays where it ended.
* `QueueOf`, `Queue` — what the steps of a machine do to a queue.
-/

universe u v w

namespace Machine

variable {σ : Type u} {ε : Type v}

/-- An infinite execution from `s₀`; no event means that nothing happens. -/
structure Execution (M : Machine σ ε) (ok : σ → ε → Prop) (s₀ : σ) where
  state : ℕ → σ
  event : ℕ → Option ε
  start : state 0 = s₀
  idle : ∀ n, event n = none → state (n + 1) = state n
  admissible : ∀ n e, event n = some e → ok (state n) e
  step : ∀ n e, event n = some e → M.step (state n) e = some (state (n + 1))

variable {M : Machine σ ε} {ok : σ → ε → Prop} {s₀ s : σ}

namespace Execution

variable (x : M.Execution ok s₀)

/-- The event can happen at moment `n`. -/
def Enabled (e : ε) (n : ℕ) : Prop := (M.step (x.state n) e).isSome

/-- An event that can happen from some moment on happens. -/
def Fair (e : ε) : Prop := ∀ n, (∀ m ≥ n, x.Enabled e m) → ∃ m ≥ n, x.event m = some e

/-! ## Executions and runs -/

/-- The events before moment `n`, each with the state it happened in. -/
def history : ℕ → List (σ × ε)
  | 0 => []
  | n + 1 => history n ++ ((x.event n).map fun e => (x.state n, e)).toList

/-- What an execution has done so far is a run. -/
theorem run (n : ℕ) : Run M ok s₀ (x.history n) (x.state n) := by
  induction n with
  | zero =>
      rw [x.start]
      exact .nil
  | succ n ih =>
      rw [history]
      cases hevent : x.event n with
      | none => simpa [x.idle n hevent] using ih
      | some e => exact ih.snoc (x.admissible n e hevent) (x.step n e hevent)

/-- An invariant of the runs holds at every moment. -/
theorem invariant (I : σ → Prop) (h0 : I s₀)
    (hstep : ∀ s e s', I s → ok s e → M.step s e = some s' → I s') (n : ℕ) : I (x.state n) :=
  (x.run n).invariant I h0 hstep

variable {x}

/-- What every event of the execution keeps from moment `n` on stays true. -/
theorem stays {P : σ → Prop} {n : ℕ} (hn : P (x.state n))
    (hkeep : ∀ k ≥ n, ∀ e, x.event k = some e → P (x.state k) → P (x.state (k + 1)))
    {m : ℕ} (hm : n ≤ m) : P (x.state m) := by
  induction m, hm using Nat.le_induction with
  | base => exact hn
  | succ k hk ih =>
      cases hevent : x.event k with
      | none => rwa [x.idle k hevent]
      | some e => exact hkeep k hk e hevent ih

/-- **The rule for one fair event.**  If every other event keeps `P` or makes `Q`
true, and the event can happen while `P` holds, then `Q` comes true or the event
happens while `P` holds. -/
theorem exists_taken {P Q : σ → Prop} {e : ε} (hfair : x.Fair e) {n : ℕ} (hn : P (x.state n))
    (henabled : ∀ m ≥ n, P (x.state m) → x.Enabled e m)
    (hkeep : ∀ m ≥ n, ∀ e', x.event m = some e' → e' ≠ e → P (x.state m) →
      P (x.state (m + 1)) ∨ Q (x.state (m + 1))) :
    ∃ m ≥ n, Q (x.state m) ∨ P (x.state m) ∧ x.event m = some e := by
  by_contra hnever
  rw [not_exists] at hnever
  -- then `P` holds for ever, and fairness has the event happen
  have hP : ∀ m ≥ n, P (x.state m) := by
    intro m hm
    induction m, hm using Nat.le_induction with
    | base => exact hn
    | succ k hk ih =>
        cases hevent : x.event k with
        | none => rwa [x.idle k hevent]
        | some e' =>
            have hne : e' ≠ e := by
              intro heq
              subst heq
              exact hnever k ⟨hk, .inr ⟨ih, hevent⟩⟩
            rcases hkeep k hk e' hevent hne ih with hkept | hQ
            · exact hkept
            · exact absurd ⟨by omega, .inl hQ⟩ (hnever (k + 1))
  obtain ⟨m, hm, hevent⟩ := hfair n fun m hm => henabled m hm (hP m hm)
  exact hnever m ⟨hm, .inr ⟨hP m hm, hevent⟩⟩

end Execution

/-- What each item of a list comes to for good, all of them come to. -/
theorem exists_forall_mem {α : Type w} {n : ℕ} {P : α → ℕ → Prop} {l : List α}
    (h : ∀ a ∈ l, ∃ m ≥ n, ∀ k ≥ m, P a k) : ∃ m ≥ n, ∀ k ≥ m, ∀ a ∈ l, P a k := by
  induction l with
  | nil => exact ⟨n, Nat.le_refl n, by simp⟩
  | cons a rest ih =>
      obtain ⟨m, hm, hhead⟩ := h a List.mem_cons_self
      obtain ⟨m', hm', hrest⟩ := ih fun b hb => h b (List.mem_cons_of_mem a hb)
      refine ⟨max m m', by omega, ?_⟩
      intro k hk
      rw [List.forall_mem_cons]
      exact ⟨hhead k (by omega), hrest k (by omega)⟩

/-! ## Queues -/

/-- The steps treat `queue` as a queue: a serving event takes its head and may append,
all others only append. -/
structure QueueOf {α : Type w} (M : Machine σ ε) (queue : σ → List α) (serves : ε → Prop) :
    Prop where
  grows : ∀ s e s', ¬ serves e → M.step s e = some s' → queue s <+: queue s'
  pops : ∀ s e s', serves e → M.step s e = some s' → (queue s).tail <+: queue s'

/-- While an item waits, a serving event comes at last. -/
def Execution.KeepsServing {α : Type w} (x : M.Execution ok s₀) (queue : σ → List α)
    (serves : ε → Prop) : Prop :=
  ∀ n, (∀ m ≥ n, queue (x.state m) ≠ []) → ∃ m ≥ n, ∃ e, serves e ∧ x.event m = some e

variable {α : Type w} {queue : σ → List α} {serves : ε → Prop} {x : M.Execution ok s₀}

/-- The front of the queue waits until its head is served. -/
theorem QueueOf.exists_serving (hqueue : M.QueueOf queue serves)
    (hkeeps : x.KeepsServing queue serves) {n : ℕ} {front : List α} (hne : front ≠ [])
    (hn : front <+: queue (x.state n)) :
    ∃ m ≥ n, front <+: queue (x.state m) ∧ ∃ e, serves e ∧ x.event m = some e := by
  by_contra hnever
  rw [not_exists] at hnever
  -- then the front stays for ever, and something has to be served
  have hfront : ∀ m ≥ n, front <+: queue (x.state m) := by
    intro m hm
    induction m, hm using Nat.le_induction with
    | base => exact hn
    | succ k hk ih =>
        cases hevent : x.event k with
        | none => rwa [x.idle k hevent]
        | some e =>
            have hother : ¬ serves e := fun hserves => hnever k ⟨hk, ih, e, hserves, hevent⟩
            exact ih.trans (hqueue.grows _ e _ hother (x.step k e hevent))
  have hwaits : ∀ m ≥ n, queue (x.state m) ≠ [] := by
    intro m hm hnil
    have hprefix := hfront m hm
    rw [hnil, List.prefix_nil] at hprefix
    exact hne hprefix
  obtain ⟨m, hm, hserved⟩ := hkeeps n hwaits
  exact hnever m ⟨hm, hfront m hm, hserved⟩

/-- **Every item is served.**  An item in the queue is at its head when it is served,
after those in front of it. -/
theorem QueueOf.exists_served (hqueue : M.QueueOf queue serves)
    (hkeeps : x.KeepsServing queue serves) {n : ℕ} {a : α} (hn : a ∈ queue (x.state n)) :
    ∃ m ≥ n, (queue (x.state m)).head? = some a ∧ ∃ e, serves e ∧ x.event m = some e := by
  obtain ⟨front, back, hsplit⟩ := List.append_of_mem hn
  -- the induction is on the number of items in front
  have hfront : front ++ [a] <+: queue (x.state n) := by
    rw [hsplit]
    exact ⟨back, by simp⟩
  clear hn hsplit back
  induction front generalizing n with
  | nil =>
      obtain ⟨m, hm, ⟨more, hmore⟩, hevent⟩ := hqueue.exists_serving hkeeps (by simp) hfront
      exact ⟨m, hm, by rw [← hmore]; rfl, hevent⟩
  | cons b rest ih =>
      obtain ⟨m, hm, ⟨more, hmore⟩, e, hserves, hevent⟩ :=
        hqueue.exists_serving hkeeps (by simp) hfront
      have hserved : rest ++ [a] <+: queue (x.state (m + 1)) := by
        apply List.IsPrefix.trans _ (hqueue.pops _ e _ hserves (x.step m e hevent))
        rw [← hmore]
        exact ⟨more, by simp⟩
      obtain ⟨m', hm', hhead⟩ := ih hserved
      exact ⟨m', by omega, hhead⟩

/-- A queue that one event serves; it can happen while an item waits. -/
structure Queue {α : Type w} (M : Machine σ ε) (queue : σ → List α) (serve : ε) : Prop where
  grows : ∀ s e s', e ≠ serve → M.step s e = some s' → queue s <+: queue s'
  serves : ∀ s s', M.step s serve = some s' → (queue s).tail <+: queue s'
  enabled : ∀ s, queue s ≠ [] → (M.step s serve).isSome

variable {serve : ε}

theorem Queue.queueOf (hqueue : M.Queue queue serve) : M.QueueOf queue (· = serve) where
  grows s e s' hother hstep := hqueue.grows s e s' hother hstep
  pops := by
    rintro s e s' rfl hstep
    exact hqueue.serves s s' hstep

/-- A fair serving event keeps serving. -/
theorem Queue.keepsServing (hqueue : M.Queue queue serve) (hfair : x.Fair serve) :
    x.KeepsServing queue (· = serve) := by
  intro n hwaits
  obtain ⟨m, hm, hevent⟩ := hfair n fun m hm => hqueue.enabled _ (hwaits m hm)
  exact ⟨m, hm, serve, rfl, hevent⟩

/-- A fair event serves every item. -/
theorem Queue.exists_served (hqueue : M.Queue queue serve) (hfair : x.Fair serve) {n : ℕ} {a : α}
    (hn : a ∈ queue (x.state n)) :
    ∃ m ≥ n, (queue (x.state m)).head? = some a ∧ x.event m = some serve := by
  obtain ⟨m, hm, hhead, e, rfl, hevent⟩ :=
    hqueue.queueOf.exists_served (hqueue.keepsServing hfair) hn
  exact ⟨m, hm, hhead, hevent⟩

/-! ## Runs that stop -/

namespace Run

variable {history : List (σ × ε)}

/-- The state of a run at moment `n`, and its last state from its end on. -/
def stateAt (history : List (σ × ε)) (s : σ) (n : ℕ) : σ := ((history[n]?).map Prod.fst).getD s

theorem stateAt_zero (h : Run M ok s₀ history s) : stateAt history s 0 = s₀ := by
  induction h with
  | nil => rfl
  | @snoc history s s' e hrun _ _ ih =>
      cases history with
      | nil => exact ih
      | cons p rest => exact ih

theorem stateAt_of_length_le {n : ℕ} (h : history.length ≤ n) : stateAt history s n = s := by
  rw [stateAt, List.getElem?_eq_none_iff.mpr h]
  rfl

/-- Each event of a run leads to the next state. -/
theorem step_stateAt (h : Run M ok s₀ history s) {n : ℕ} {p : σ × ε}
    (hget : history[n]? = some p) :
    ok p.1 p.2 ∧ M.step p.1 p.2 = some (stateAt history s (n + 1)) := by
  induction h with
  | nil => simp at hget
  | @snoc history s s' e hrun hok hstep ih =>
      rcases Nat.lt_trichotomy n history.length with hlt | heq | hgt
      · rw [List.getElem?_append_left hlt] at hget
        obtain ⟨hok', hstep'⟩ := ih hget
        refine ⟨hok', hstep'.trans ?_⟩
        rcases Nat.lt_or_ge (n + 1) history.length with hin | hout
        · rw [stateAt, stateAt, List.getElem?_append_left hin, List.getElem?_eq_getElem hin]
          rfl
        · have hend : n + 1 = history.length := by omega
          rw [stateAt_of_length_le hout, stateAt, hend, List.getElem?_concat_length]
          rfl
      · rw [heq, List.getElem?_concat_length] at hget
        cases hget
        refine ⟨hok, ?_⟩
        rw [stateAt_of_length_le (by simp [heq]), hstep]
      · rw [List.getElem?_eq_none_iff.mpr (by simp; omega)] at hget
        cases hget

/-- A run that stays in its last state for ever. -/
def execution (h : Run M ok s₀ history s) : M.Execution ok s₀ where
  state := stateAt history s
  event n := (history[n]?).map Prod.snd
  start := h.stateAt_zero
  idle := by
    intro n hnone
    have hout : history.length ≤ n := by simpa using hnone
    rw [stateAt_of_length_le hout, stateAt_of_length_le (by omega)]
  admissible := by
    intro n e hevent
    obtain ⟨p, hget, rfl⟩ := Option.map_eq_some_iff.mp hevent
    rw [stateAt, hget]
    exact (h.step_stateAt hget).1
  step := by
    intro n e hevent
    obtain ⟨p, hget, rfl⟩ := Option.map_eq_some_iff.mp hevent
    have hstate : stateAt history s n = p.1 := by
      rw [stateAt, hget]
      rfl
    rw [hstate]
    exact (h.step_stateAt hget).2

/-- A run that stops is fair to what cannot happen at its end. -/
theorem fair_execution (h : Run M ok s₀ history s) {e : ε} (hend : M.step s e = none) :
    h.execution.Fair e := by
  intro n henabled
  have hlater := henabled (max n history.length) (Nat.le_max_left _ _)
  rw [Execution.Enabled] at hlater
  change (M.step (stateAt history s (max n history.length)) e).isSome = true at hlater
  rw [stateAt_of_length_le (Nat.le_max_right _ _), hend] at hlater
  cases hlater

end Run
end Machine
