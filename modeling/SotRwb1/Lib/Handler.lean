import Mathlib.Data.List.Basic

/-!
# Handlers: effects that survive an exception

A `Handler ε χ α` performs a list of effects and then returns a value or raises.
Unlike a transaction, the effects performed before an exception stay: this is
the semantics of an imperative callback whose exception is caught outside.

`Clean m` says that `m` performs nothing when it raises.  A computation without
effects is clean, so is one that never raises, and a clean computation may be
followed by one that never raises.

## Main definitions

* `Handler`, `Handler.emit`, `Handler.raise`, `Handler.ofExcept`.
* `Handler.rescue`, `Handler.ensure` — `except` and `finally`.
* `Handler.Silent`, `Handler.Total`, `Handler.Clean`.
-/

universe u v w

/-- Effects performed, and the value returned or the exception raised. -/
@[ext] structure Handler (ε : Type u) (χ : Type v) (α : Type w) where
  effects : List ε
  result : Except χ α

namespace Handler

variable {ε : Type u} {χ : Type v} {α β : Type w}

/-- Return without effects. -/
def pure (a : α) : Handler ε χ α := ⟨[], .ok a⟩

/-- Run the continuation after a value; an exception skips it. -/
def bind (m : Handler ε χ α) (f : α → Handler ε χ β) : Handler ε χ β :=
  match m.result with
  | .ok a => ⟨m.effects ++ (f a).effects, (f a).result⟩
  | .error e => ⟨m.effects, .error e⟩

instance : Monad (Handler ε χ) where
  pure := pure
  bind := bind

/-- Perform one effect. -/
def emit (e : ε) : Handler ε χ PUnit := ⟨[e], .ok ⟨⟩⟩

/-- Perform effects in order. -/
def emits (es : List ε) : Handler ε χ PUnit := ⟨es, .ok ⟨⟩⟩

/-- Raise an exception. -/
def raise (e : χ) : Handler ε χ α := ⟨[], .error e⟩

/-- A pure computation that may raise. -/
def ofExcept (r : Except χ α) : Handler ε χ α := ⟨[], r⟩

/-- `try: m except Exception: log`. -/
def attempt (m : Handler ε χ PUnit) : Handler ε χ PUnit := ⟨m.effects, .ok ⟨⟩⟩

/-- `try: m except …`: what the clauses do with the exception of `m`. -/
def rescue (m : Handler ε χ α) (clauses : χ → Handler ε χ α) : Handler ε χ α :=
  match m.result with
  | .ok a => ⟨m.effects, .ok a⟩
  | .error e => ⟨m.effects ++ (clauses e).effects, (clauses e).result⟩

/-- `try: m finally: cleanup`: an exception of the cleanup replaces the outcome. -/
def ensure (m : Handler ε χ α) (cleanup : Handler ε χ Unit) : Handler ε χ α :=
  ⟨m.effects ++ cleanup.effects, cleanup.result.bind fun _ => m.result⟩

@[simp] theorem monad_pure_eq (a : α) : (Pure.pure a : Handler ε χ α) = ⟨[], .ok a⟩ := rfl

@[simp] theorem bind_ok (es : List ε) (a : α) (f : α → Handler ε χ β) :
    ((⟨es, .ok a⟩ : Handler ε χ α) >>= f) = ⟨es ++ (f a).effects, (f a).result⟩ := rfl

@[simp] theorem bind_error (es : List ε) (e : χ) (f : α → Handler ε χ β) :
    ((⟨es, .error e⟩ : Handler ε χ α) >>= f) = ⟨es, .error e⟩ := rfl

@[simp] theorem emit_eq (e : ε) : (emit e : Handler ε χ PUnit) = ⟨[e], .ok ⟨⟩⟩ := rfl

@[simp] theorem emits_eq (es : List ε) : (emits es : Handler ε χ PUnit) = ⟨es, .ok ⟨⟩⟩ := rfl

@[simp] theorem raise_eq (e : χ) : (raise e : Handler ε χ α) = ⟨[], .error e⟩ := rfl

@[simp] theorem ofExcept_eq (r : Except χ α) : (ofExcept r : Handler ε χ α) = ⟨[], r⟩ := rfl

@[simp] theorem rescue_ok (es : List ε) (a : α) (clauses : χ → Handler ε χ α) :
    (⟨es, .ok a⟩ : Handler ε χ α).rescue clauses = ⟨es, .ok a⟩ := rfl

@[simp] theorem rescue_error (es : List ε) (e : χ) (clauses : χ → Handler ε χ α) :
    (⟨es, .error e⟩ : Handler ε χ α).rescue clauses =
      ⟨es ++ (clauses e).effects, (clauses e).result⟩ := rfl

@[simp] theorem ensure_ok (m : Handler ε χ α) (es : List ε) :
    m.ensure ⟨es, .ok ⟨⟩⟩ = ⟨m.effects ++ es, m.result⟩ := rfl

theorem ofExcept_ok_bind (a : α) (f : α → Handler ε χ β) : (ofExcept (.ok a) >>= f) = f a := rfl

theorem ofExcept_error_bind (e : χ) (f : α → Handler ε χ β) :
    (ofExcept (.error e) >>= f) = raise e := rfl

/-- What a sequence performs: the continuation's effects follow a value. -/
theorem effects_bind (m : Handler ε χ α) (f : α → Handler ε χ β) :
    (m >>= f).effects = m.effects ++
      match m.result with
      | .ok a => (f a).effects
      | .error _ => [] := by
  obtain ⟨es, r⟩ := m
  cases r <;> simp

/-! ## Effects and exceptions -/

/-- No effects, whatever the result. -/
def Silent (m : Handler ε χ α) : Prop := m.effects = []

/-- Never raises. -/
def Total (m : Handler ε χ α) : Prop := ∃ a, m.result = .ok a

/-- No effects when it raises. -/
def Clean (m : Handler ε χ α) : Prop := ∀ e, m.result = .error e → m.effects = []

theorem Silent.clean {m : Handler ε χ α} (h : m.Silent) : m.Clean := fun _ _ => h

theorem Total.clean {m : Handler ε χ α} (h : m.Total) : m.Clean := by
  intro e he
  cases h with
  | intro a ha => rw [ha] at he; cases he

theorem total_emit (e : ε) : (emit e : Handler ε χ PUnit).Total := ⟨⟨⟩, rfl⟩

theorem total_emits (es : List ε) : (emits es : Handler ε χ PUnit).Total := ⟨⟨⟩, rfl⟩

theorem total_pure (a : α) : (Pure.pure a : Handler ε χ α).Total := ⟨a, rfl⟩

/-- A clean computation before one that never raises is clean. -/
theorem Clean.bind_total {m : Handler ε χ α} {f : α → Handler ε χ β} (hm : m.Clean)
    (hf : ∀ a, (f a).Total) : (m >>= f).Clean := by
  obtain ⟨es, r⟩ := m
  cases r with
  | error e => intro e' _; exact hm e rfl
  | ok a =>
      intro e he
      obtain ⟨b, hb⟩ := hf a
      rw [bind_ok, hb] at he
      cases he

end Handler
