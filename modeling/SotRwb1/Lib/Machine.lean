import Mathlib.Data.List.Basic

/-!
# Machines and their runs

A `Machine σ ε` is a partial transition function: `step s e` is the state after
event `e`, or `none` when `e` cannot happen in `s`.  `Run M ok s₀ history s` says
that the events of `history` lead from `s₀` to `s`; a history pairs each event
with the state it happened in.  Each event is admissible for `ok` in its state:
`ok` is where a development writes its assumptions on the environment.

`Run.invariant` and `Run.historyInvariant` are the two induction rules: for a
property of states, and for a property of states together with their history;
`Run.ledger` is the one for a log.
`Machine.reached` is the state at the end of a trace, for statements that compare
two traces.
-/

universe u v w

/-- A transition system with a partial step function. -/
structure Machine (σ : Type u) (ε : Type v) where
  step : σ → ε → Option σ

namespace Machine

variable {σ : Type u} {ε : Type v}

/-- The runs of a machine from `s₀` whose events are all admissible. -/
inductive Run (M : Machine σ ε) (ok : σ → ε → Prop) (s₀ : σ) : List (σ × ε) → σ → Prop
  | nil : Run M ok s₀ [] s₀
  | snoc {history : List (σ × ε)} {s s' : σ} {e : ε} :
      Run M ok s₀ history s → ok s e → M.step s e = some s' →
        Run M ok s₀ (history ++ [(s, e)]) s'

variable {M : Machine σ ε} {ok : σ → ε → Prop} {s₀ s s' : σ} {history : List (σ × ε)}

/-- What holds initially and is kept by every admissible step holds of every
state a run reaches. -/
theorem Run.invariant (I : σ → Prop) (h0 : I s₀)
    (hstep : ∀ s e s', I s → ok s e → M.step s e = some s' → I s')
    (h : Run M ok s₀ history s) : I s := by
  induction h with
  | nil => exact h0
  | snoc _ hok hs ih => exact hstep _ _ _ ih hok hs

/-- The same rule for a property of the state and the history that led to it. -/
theorem Run.historyInvariant (I : List (σ × ε) → σ → Prop) (h0 : I [] s₀)
    (hstep : ∀ history s e s', I history s → ok s e → M.step s e = some s' →
      I (history ++ [(s, e)]) s')
    (h : Run M ok s₀ history s) : I history s := by
  induction h with
  | nil => exact h0
  | snoc _ hok hs ih => exact hstep _ _ _ _ ih hok hs

/-- A log that every step extends by what `emits` says holds, in order, all that was
emitted along the run.  `I` is an invariant the steps may rely on. -/
theorem Run.ledger {α : Type w} (I : σ → Prop) (log : σ → List α) (emits : σ → ε → List α)
    (h0 : I s₀) (hlog : log s₀ = [])
    (hstep : ∀ s e s', I s → ok s e → M.step s e = some s' →
      I s' ∧ log s' = log s ++ emits s e)
    (h : Run M ok s₀ history s) : log s = history.flatMap fun p => emits p.1 p.2 := by
  have hboth : I s ∧ log s = history.flatMap fun p => emits p.1 p.2 := by
    induction h with
    | nil => exact ⟨h0, hlog⟩
    | snoc _ hok hs ih =>
        obtain ⟨hI, hemits⟩ := hstep _ _ _ ih.1 hok hs
        exact ⟨hI, by rw [hemits, ih.2, List.flatMap_append, List.flatMap_singleton]⟩
  exact hboth.2

/-- Replay events from a state, as long as each is admissible and possible. -/
def replay (M : Machine σ ε) (ok : σ → ε → Prop) [∀ s e, Decidable (ok s e)] :
    σ → List ε → Option (List (σ × ε) × σ)
  | s, [] => some ([], s)
  | s, e :: rest =>
      if ok s e then
        match M.step s e with
        | some s' => (replay M ok s' rest).map fun r => ((s, e) :: r.1, r.2)
        | none => none
      else none

/-- What a replay reaches, a run reaches. -/
theorem Run.replay [∀ s e, Decidable (ok s e)] {events : List ε} {later : List (σ × ε)}
    (h : Run M ok s₀ history s) (hreplay : M.replay ok s events = some (later, s')) :
    Run M ok s₀ (history ++ later) s' := by
  induction events generalizing s history later with
  | nil =>
      cases hreplay
      simpa using h
  | cons e rest ih =>
      rw [Machine.replay] at hreplay
      split at hreplay
      · rename_i hok
        split at hreplay
        · rename_i s₁ hstep
          obtain ⟨r, hr, heq⟩ := Option.map_eq_some_iff.mp hreplay
          cases heq
          have hrun := ih (h.snoc hok hstep) hr
          simpa using hrun
        · cases hreplay
      · cases hreplay

/-- A replay is one of its events. -/
theorem events_replay [∀ s e, Decidable (ok s e)] {events : List ε} {later : List (σ × ε)}
    (hreplay : M.replay ok s events = some (later, s')) : later.map Prod.snd = events := by
  induction events generalizing s later with
  | nil =>
      cases hreplay
      rfl
  | cons e rest ih =>
      rw [Machine.replay] at hreplay
      split at hreplay
      · split at hreplay
        · obtain ⟨r, hr, heq⟩ := Option.map_eq_some_iff.mp hreplay
          cases heq
          exact congrArg (e :: ·) (ih hr)
        · cases hreplay
      · cases hreplay

variable (M ok s₀) in
/-- A test of the states around the event that follows a replay holds around that
event in a run. -/
theorem Run.exists_of_replay_step [∀ s e, Decidable (ok s e)] (events : List ε) (e : ε)
    (test : σ → σ → Bool)
    (h : (M.replay ok s₀ events).any (fun r => (M.step r.2 e).any (test r.2)) = true) :
    ∃ history s s', Run M ok s₀ history s ∧ M.step s e = some s' ∧ test s s' = true := by
  obtain ⟨r, hreplay, hany⟩ := (Option.any_eq_true _ _).mp h
  obtain ⟨s', hstep, htest⟩ := (Option.any_eq_true _ _).mp hany
  exact ⟨_, r.2, s', Run.nil.replay hreplay, hstep, htest⟩

/-! ## Traces -/

/-- The state a trace leads to, if each of its events can happen. -/
def reached (M : Machine σ ε) (s : σ) (trace : List ε) : Option σ := trace.foldlM M.step s

/-- A machine that hears only events in `p`, all of them in `q`, does not tell apart
traces that agree on `q`. -/
theorem reached_filter_eq {p q : ε → Bool} (hpq : ∀ e, p e = true → q e = true)
    {trace trace' : List ε} (h : trace.filter q = trace'.filter q) :
    M.reached s (trace.filter p) = M.reached s (trace'.filter p) := by
  have hthrough : ∀ events : List ε, (events.filter q).filter p = events.filter p := by
    intro events
    rw [List.filter_filter]
    apply List.filter_congr
    intro e _
    cases hp : p e with
    | false => rfl
    | true => exact hpq e hp
  rw [← hthrough trace, h, hthrough]

end Machine
