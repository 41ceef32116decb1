import SotRwb1.Lib.Machine
import SotRwb1.Setup.ConfigFlow

/-!
# Set-up and unload of a config entry

An attempt to set the entry up awaits three things: the connection, the first refresh
and the platforms.  Each may raise or be cancelled.  Home Assistant attempts a set-up
while the entry is not loaded, and unloads it while it is.

The loop of a failed attempt is stopped only when the failure is an `OSError` of the
connection.  Attempts that fail in no other way leave at most one loop running.

## Main definitions

* `Attempt`, `asyncSetupEntry`, `asyncUnloadEntry`.
* `SetupResult` — all that an attempt can do.
* `Lifecycle`, `lifecycle` — the entry under its events.
* `OneLiveBridge`, `Attempt.Handled` — the property, and when it holds.
-/

namespace SotRwb1

/-! ## Set-up and unload -/

/-- How the steps awaited by an attempt end. -/
structure Attempt where
  dial : Dial
  refresh : Except SetupError Unit
  forward : Except SetupError Unit

/-- The coordinator opens the connection. -/
def asyncSetup (c : Client) (dial : Dial) : Setup Unit := asyncStart c dial

/-- The client an attempt constructs. -/
def EntryData.client (data : EntryData) (serial : ℕ) : Client :=
  ⟨serial, data.bridge data.deviceId⟩

/-- Connect, refresh, store the coordinator and forward the platforms. -/
def asyncSetupEntry (data : EntryData) (serial : ℕ) (a : Attempt) : Setup Bool := do
  Handler.rescue (asyncSetup (data.client serial) a.dial) fun err =>
    if err = .connectionError then Handler.raise .configEntryNotReady else Handler.raise err
  Handler.ofExcept a.refresh
  Handler.emit (.store (data.client serial))
  Handler.ofExcept a.forward
  pure true

/-- Unload the platforms, then drop the coordinator and stop its bridge. -/
def asyncUnloadEntry (stored : Option Client) (platforms : Except SetupError Bool) :
    Setup Bool := do
  let unloadOk ← Handler.ofExcept platforms
  if unloadOk then
    match stored with
    | some c =>
        Handler.emit .pop
        asyncStop c
    | none => Handler.raise .keyError
  pure unloadOk

/-- The exception a failed connection surfaces as. -/
def SetupError.surfaced (err : SetupError) : SetupError :=
  if err.isOSError then .configEntryNotReady else err

/-- What an attempt does, by where it ends. -/
inductive SetupResult (c : Client) (a : Attempt) : Setup Bool → Prop
  | unconnected (err : SetupError) (connectAsync : a.dial.connectAsync = .error err) :
      SetupResult c a ⟨err.cleanup c, .error err.surfaced⟩
  | refused (err : SetupError) (connectAsync : a.dial.connectAsync = .ok ⟨⟩)
      (connack : a.dial.connack = .error err) :
      SetupResult c a ⟨.loopStart c :: err.cleanup c, .error err.surfaced⟩
  | refreshFails (err : SetupError) (connectAsync : a.dial.connectAsync = .ok ⟨⟩)
      (connack : a.dial.connack = .ok ⟨⟩) (refresh : a.refresh = .error err) :
      SetupResult c a ⟨[.loopStart c], .error err⟩
  | forwardFails (err : SetupError) (connectAsync : a.dial.connectAsync = .ok ⟨⟩)
      (connack : a.dial.connack = .ok ⟨⟩) (refresh : a.refresh = .ok ⟨⟩)
      (forward : a.forward = .error err) :
      SetupResult c a ⟨[.loopStart c, .store c], .error err⟩
  | done (connectAsync : a.dial.connectAsync = .ok ⟨⟩) (connack : a.dial.connack = .ok ⟨⟩)
      (refresh : a.refresh = .ok ⟨⟩) (forward : a.forward = .ok ⟨⟩) :
      SetupResult c a ⟨[.loopStart c, .store c], .ok true⟩

theorem setup_result (data : EntryData) (serial : ℕ) (a : Attempt) :
    SetupResult (data.client serial) a (asyncSetupEntry data serial a) := by
  rw [asyncSetupEntry, asyncSetup, asyncStart_eq]
  cases hconnect : a.dial.connectAsync with
  | error err =>
      have heq := SetupResult.unconnected (c := data.client serial) err hconnect
      cases err <;> exact heq
  | ok u =>
      cases hconnack : a.dial.connack with
      | error err =>
          have heq := SetupResult.refused (c := data.client serial) err hconnect hconnack
          cases err <;> exact heq
      | ok u =>
          cases hrefresh : a.refresh with
          | error err => exact .refreshFails err hconnect hconnack hrefresh
          | ok u =>
              cases hforward : a.forward with
              | error err => exact .forwardFails err hconnect hconnack hrefresh hforward
              | ok u => exact .done hconnect hconnack hrefresh hforward

/-- An unload stops the bridge it drops, or leaves everything. -/
theorem unload_result (c : Client) (platforms : Except SetupError Bool) :
    asyncUnloadEntry (some c) platforms = ⟨[.pop, .disconnect c, .loopStop c], .ok true⟩ ∨
      ∃ result, asyncUnloadEntry (some c) platforms = ⟨[], result⟩ ∧ result ≠ .ok true := by
  cases platforms with
  | error err => exact .inr ⟨.error err, rfl, by simp⟩
  | ok unloadOk =>
      cases unloadOk with
      | true => exact .inl rfl
      | false => exact .inr ⟨.ok false, rfl, by simp⟩

theorem loopStart_notMem_unload (c : Client) (stored : Option Client)
    (platforms : Except SetupError Bool) :
    .loopStart c ∉ (asyncUnloadEntry stored platforms).effects := by
  cases platforms with
  | error err => exact List.not_mem_nil
  | ok unloadOk => cases unloadOk <;> cases stored <;> simp [asyncUnloadEntry]

/-! ## The entry -/

/-- The entry inside Home Assistant: its loops and its slot, whether it is loaded, and
how many bridges it has constructed. -/
structure Lifecycle where
  hass : Hass
  loaded : Bool
  created : ℕ

/-- The entry before its first set-up. -/
def Lifecycle.init : Lifecycle := ⟨⟨[], none⟩, false, 0⟩

/-- The events of an entry. -/
inductive LifecycleEvent where
  | setup (a : Attempt)
  | unload (platforms : Except SetupError Bool)

/-- Whether a call returned `True`. -/
def returnedTrue : Except SetupError Bool → Bool
  | .ok b => b
  | .error _ => false

namespace LifecycleEvent

variable (data : EntryData) (s : Lifecycle)

/-- The call Home Assistant makes. -/
def action : LifecycleEvent → Setup Bool
  | setup a => asyncSetupEntry data s.created a
  | unload platforms => asyncUnloadEntry s.hass.stored platforms

/-- Loops and slot after the first effects of the call. -/
def midway (e : LifecycleEvent) (n : ℕ) : Hass :=
  ((e.action data s).effects.take n).foldl Hass.perform s.hass

/-- Loops and slot after the call. -/
def after (e : LifecycleEvent) : Hass := (e.action data s).effects.foldl Hass.perform s.hass

end LifecycleEvent

/-- A set-up is attempted while the entry is not loaded, an unload while it is. -/
def Lifecycle.step (data : EntryData) (s : Lifecycle) (e : LifecycleEvent) : Option Lifecycle :=
  match e with
  | .setup _ =>
      if s.loaded then none
      else some ⟨e.after data s, returnedTrue (e.action data s).result, s.created + 1⟩
  | .unload _ =>
      if s.loaded then some ⟨e.after data s, !returnedTrue (e.action data s).result, s.created⟩
      else none

/-- The entry as a machine. -/
def lifecycle (data : EntryData) : Machine Lifecycle LifecycleEvent := ⟨Lifecycle.step data⟩

/-- Admissible events: the attempts are restricted, the unloads are not. -/
def Admits (P : Attempt → Prop) : Lifecycle → LifecycleEvent → Prop
  | _, .setup a => P a
  | _, .unload _ => True

/-- In every run whose attempts satisfy `P`: an attempt that does not return `True`
leaves its loop stopped and no coordinator, and at most one loop is running, also while
a call is under way.  All loops connect with the entry's one client id. -/
structure OneLiveBridge (data : EntryData) (P : Attempt → Prop) : Prop where
  released : ∀ history s, (lifecycle data).Run (Admits P) .init history s → s.loaded = false →
    ∀ a, P a → returnedTrue (asyncSetupEntry data s.created a).result = false →
      data.client s.created ∉ (LifecycleEvent.after data s (.setup a)).running ∧
        (LifecycleEvent.after data s (.setup a)).stored = none
  single : ∀ history s, (lifecycle data).Run (Admits P) .init history s →
    s.hass.running.length ≤ 1 ∧ ∀ e s', Admits P s e → (lifecycle data).step s e = some s' →
      ∀ n, (e.midway data s n).running.length ≤ 1
  shared : ∀ history s, (lifecycle data).Run (Admits P) .init history s →
    ∀ c ∈ s.hass.running, c.clientId = "sot_rwb1_ha_" ++ data.deviceId

/-! ## Loops -/

/-- The loops of `h` are at most that of `c`. -/
def Hass.RunsOnly (h : Hass) (c : Client) : Prop := h.running = [] ∨ h.running = [c]

theorem Hass.RunsOnly.length_le {h : Hass} {c : Client} (hc : h.RunsOnly c) :
    h.running.length ≤ 1 := by
  rcases hc with hc | hc <;> simp [hc]

/-- Only a start of another loop could make it more. -/
theorem Hass.RunsOnly.perform {h : Hass} {c : Client} (hc : h.RunsOnly c) {e : SetupEffect}
    (he : ∀ c', e = .loopStart c' → c' = c) : (h.perform e).RunsOnly c := by
  cases e with
  | loopStart c' =>
      obtain rfl := he c' rfl
      rcases hc with hc | hc <;> simp [Hass.perform, Hass.RunsOnly, hc]
  | loopStop c' =>
      rcases hc with hc | hc
      · simp [Hass.perform, Hass.RunsOnly, hc]
      · by_cases hne : c = c' <;> simp [Hass.perform, Hass.RunsOnly, hc, hne]
  | disconnect c' => exact hc
  | store c' => exact hc
  | pop => exact hc

theorem Hass.RunsOnly.foldl_perform {h : Hass} {c : Client} (hc : h.RunsOnly c)
    {effects : List SetupEffect} (heffects : ∀ c', .loopStart c' ∈ effects → c' = c) :
    (effects.foldl Hass.perform h).RunsOnly c := by
  induction effects generalizing h with
  | nil => exact hc
  | cons e rest ih =>
      have he : (h.perform e).RunsOnly c := by
        apply hc.perform
        rintro c' rfl
        exact heffects c' (by simp)
      exact ih he fun c' hc' => heffects c' (by simp [hc'])

/-- A loop that runs was running before or has been started. -/
theorem Hass.of_mem_running_foldl {h : Hass} {effects : List SetupEffect} {c : Client}
    (hc : c ∈ (effects.foldl Hass.perform h).running) :
    c ∈ h.running ∨ .loopStart c ∈ effects := by
  induction effects generalizing h with
  | nil => exact .inl hc
  | cons e rest ih =>
      rcases ih hc with hmem | hmem
      · cases e with
        | loopStart c' =>
            simp only [Hass.perform] at hmem
            split at hmem
            · exact .inl hmem
            · rcases List.mem_append.mp hmem with hmem | hmem
              · exact .inl hmem
              · obtain rfl := List.mem_singleton.mp hmem
                exact .inr List.mem_cons_self
        | loopStop c' => exact .inl (List.mem_of_mem_filter hmem)
        | disconnect | store | pop => exact .inl hmem
      · exact .inr (List.mem_cons_of_mem _ hmem)

theorem loopStart_notMem_cleanup (err : SetupError) (c c' : Client) :
    .loopStart c' ∉ err.cleanup c := by
  rw [SetupError.cleanup]
  split <;> simp

/-- An attempt starts no other loop than its own. -/
theorem SetupResult.eq_of_loopStart {c c' : Client} {a : Attempt} {m : Setup Bool}
    (h : SetupResult c a m) (hmem : .loopStart c' ∈ m.effects) : c' = c := by
  cases h with
  | unconnected err => exact absurd hmem (loopStart_notMem_cleanup err c c')
  | refused err =>
      rcases List.mem_cons.mp hmem with heq | hmem
      · cases heq
        rfl
      · exact absurd hmem (loopStart_notMem_cleanup err c c')
  | refreshFails | forwardFails | done => simpa using hmem

/-! ## One attempt -/

/-- The steps fail only where the code stops the loop or has not started it. -/
def Attempt.Handled (a : Attempt) : Prop :=
  match a.dial.connectAsync, a.dial.connack with
  | .error _, _ => True
  | .ok _, .error err => err.isOSError = true
  | .ok _, .ok _ => a.refresh = .ok ⟨⟩ ∧ a.forward = .ok ⟨⟩

/-- A handled attempt without other loops either fails and leaves nothing, or returns
`True` and leaves its bridge. -/
theorem SetupResult.of_handled {c : Client} {a : Attempt} {m : Setup Bool}
    (h : SetupResult c a m) (ha : a.Handled) :
    (returnedTrue m.result = false ∧ m.effects.foldl Hass.perform ⟨[], none⟩ = ⟨[], none⟩) ∨
      (returnedTrue m.result = true ∧
        m.effects.foldl Hass.perform ⟨[], none⟩ = ⟨[c], some c⟩) := by
  rw [Attempt.Handled] at ha
  cases h with
  | unconnected err hconnect =>
      left
      refine ⟨rfl, ?_⟩
      rw [SetupError.cleanup]
      split <;> rfl
  | refused err hconnect hconnack =>
      left
      rw [hconnect, hconnack] at ha
      simp [returnedTrue, SetupError.cleanup, show err.isOSError = true from ha, Hass.perform]
  | refreshFails err hconnect hconnack hrefresh =>
      rw [hconnect, hconnack] at ha
      simp [hrefresh] at ha
  | forwardFails err hconnect hconnack hrefresh hforward =>
      rw [hconnect, hconnack] at ha
      simp [hforward] at ha
  | done => exact .inr ⟨rfl, rfl⟩

/-- Any other attempt fails and leaves its loop running. -/
theorem SetupResult.of_not_handled {c : Client} {a : Attempt} {m : Setup Bool}
    (h : SetupResult c a m) (ha : ¬a.Handled) :
    returnedTrue m.result = false ∧ c ∈ (m.effects.foldl Hass.perform ⟨[], none⟩).running := by
  rw [Attempt.Handled] at ha
  cases h with
  | unconnected err hconnect => simp [hconnect] at ha
  | refused err hconnect hconnack =>
      rw [hconnect, hconnack] at ha
      simp [returnedTrue, SetupError.cleanup, show ¬err.isOSError = true from ha, Hass.perform]
  | refreshFails => exact ⟨rfl, by simp [Hass.perform]⟩
  | forwardFails => exact ⟨rfl, by simp [Hass.perform]⟩
  | done hconnect hconnack hrefresh hforward =>
      rw [hconnect, hconnack] at ha
      exact absurd ⟨hrefresh, hforward⟩ ha

/-! ## Runs -/

/-- Between two calls: exactly the bridge of the stored coordinator runs, and there is
one exactly when the entry is loaded. -/
structure Lifecycle.Tidy (s : Lifecycle) : Prop where
  running : s.hass.running = s.hass.stored.toList
  loaded : s.loaded = s.hass.stored.isSome

theorem Lifecycle.Tidy.hass_eq {s : Lifecycle} (h : s.Tidy) :
    (s.loaded = false ∧ s.hass = ⟨[], none⟩) ∨
      ∃ c, s.loaded = true ∧ s.hass = ⟨[c], some c⟩ := by
  obtain ⟨⟨running, stored⟩, loaded, created⟩ := s
  obtain ⟨hrunning, hloaded⟩ := h
  cases stored with
  | none => exact .inl ⟨hloaded, by simpa using hrunning⟩
  | some c => exact .inr ⟨c, hloaded, by simpa using hrunning⟩

variable {data : EntryData} {P : Attempt → Prop} {s s' : Lifecycle}

/-- From a tidy state there is an attempt without loops, or an unload of the one bridge. -/
theorem Lifecycle.Tidy.step_cases (h : s.Tidy) {e : LifecycleEvent}
    (hstep : (lifecycle data).step s e = some s') :
    (∃ a, e = .setup a ∧ s.hass = ⟨[], none⟩ ∧
      s' = ⟨e.after data s, returnedTrue (asyncSetupEntry data s.created a).result,
        s.created + 1⟩) ∨
    ∃ c platforms, e = .unload platforms ∧ s.hass = ⟨[c], some c⟩ ∧
      s' = ⟨e.after data s, !returnedTrue (asyncUnloadEntry (some c) platforms).result,
        s.created⟩ := by
  change s.step data e = some s' at hstep
  rcases h.hass_eq with ⟨hloaded, hhass⟩ | ⟨c, hloaded, hhass⟩
  · cases e with
    | setup a =>
        rw [Lifecycle.step, if_neg (by simp [hloaded])] at hstep
        cases hstep
        exact .inl ⟨a, rfl, hhass, rfl⟩
    | unload platforms =>
        rw [Lifecycle.step, if_neg (by simp [hloaded])] at hstep
        cases hstep
  · cases e with
    | setup a =>
        rw [Lifecycle.step, if_pos hloaded] at hstep
        cases hstep
    | unload platforms =>
        rw [Lifecycle.step, if_pos hloaded] at hstep
        cases hstep
        refine .inr ⟨c, platforms, rfl, hhass, ?_⟩
        rw [LifecycleEvent.action, hhass]

theorem Lifecycle.Tidy.step (h : s.Tidy) {e : LifecycleEvent}
    (he : Admits Attempt.Handled s e) (hstep : (lifecycle data).step s e = some s') : s'.Tidy := by
  rcases h.step_cases hstep with ⟨a, rfl, hhass, rfl⟩ | ⟨c, platforms, rfl, hhass, rfl⟩
  · have hresult := (setup_result data s.created a).of_handled he
    rw [LifecycleEvent.after, LifecycleEvent.action, hhass]
    rcases hresult with ⟨htrue, hafter⟩ | ⟨htrue, hafter⟩ <;> rw [htrue, hafter] <;>
      exact ⟨rfl, rfl⟩
  · rw [LifecycleEvent.after, LifecycleEvent.action, hhass]
    rcases unload_result c platforms with heq | ⟨result, heq, hresult⟩
    · rw [heq]
      exact ⟨by simp [Hass.perform], rfl⟩
    · rw [heq]
      refine ⟨rfl, ?_⟩
      cases result with
      | error err => rfl
      | ok unloadOk =>
          cases unloadOk with
          | true => exact absurd rfl hresult
          | false => rfl

theorem Lifecycle.Tidy.run {history : List (Lifecycle × LifecycleEvent)}
    (hP : ∀ a, P a → a.Handled) (h : (lifecycle data).Run (Admits P) .init history s) :
    s.Tidy := by
  apply h.invariant _ ⟨rfl, rfl⟩
  intro s e s' htidy he hstep
  refine htidy.step ?_ hstep
  cases e with
  | setup a => exact hP a he
  | unload platforms => trivial

/-- From a tidy state at most one loop runs during a call, whatever happens in it. -/
theorem Lifecycle.Tidy.midway (h : s.Tidy) {e : LifecycleEvent}
    (hstep : (lifecycle data).step s e = some s') (n : ℕ) :
    (e.midway data s n).running.length ≤ 1 := by
  rcases h.step_cases hstep with ⟨a, rfl, hhass, -⟩ | ⟨c, platforms, rfl, hhass, -⟩
  · have hnone : s.hass.RunsOnly (data.client s.created) := .inl (by rw [hhass])
    refine (hnone.foldl_perform ?_).length_le
    intro c' hmem
    exact (setup_result data s.created a).eq_of_loopStart (List.mem_of_mem_take hmem)
  · have hone : s.hass.RunsOnly c := .inr (by rw [hhass])
    refine (hone.foldl_perform ?_).length_le
    intro c' hmem
    exact absurd (List.mem_of_mem_take hmem) (loopStart_notMem_unload c' _ _)

/-- All loops of the entry use one client id, handled attempts or not. -/
theorem clientId_of_running {history : List (Lifecycle × LifecycleEvent)}
    (h : (lifecycle data).Run (Admits P) .init history s) :
    ∀ c ∈ s.hass.running, c.clientId = "sot_rwb1_ha_" ++ data.deviceId := by
  refine h.invariant
    (fun s => ∀ c ∈ s.hass.running, c.clientId = "sot_rwb1_ha_" ++ data.deviceId)
    (by simp [Lifecycle.init]) ?_
  intro s e s' hs _ hstep
  change s.step data e = some s' at hstep
  have hafter : ∀ c ∈ (e.after data s).running,
      c.clientId = "sot_rwb1_ha_" ++ data.deviceId := by
    intro c hc
    rcases Hass.of_mem_running_foldl hc with hc | hc
    · exact hs c hc
    · cases e with
      | setup a =>
          obtain rfl := (setup_result data s.created a).eq_of_loopStart hc
          rfl
      | unload platforms => exact absurd hc (loopStart_notMem_unload c _ _)
  cases e <;> rw [Lifecycle.step] at hstep <;> split at hstep <;> cases hstep <;> exact hafter

/-- **One live bridge.**  Runs keep the property if and only if their attempts fail only
where the code stops the loop: an attempt may be unable to start the connection, or be
refused or time out with an `OSError`, but nothing after the connection may fail. -/
theorem oneLiveBridge_iff (data : EntryData) (P : Attempt → Prop) :
    OneLiveBridge data P ↔ ∀ a, P a → a.Handled := by
  constructor
  · intro h a ha
    by_contra hnot
    obtain ⟨htrue, hmem⟩ := (setup_result data 0 a).of_not_handled hnot
    exact (h.released [] .init .nil rfl a ha htrue).1 hmem
  · intro hP
    refine ⟨?_, ?_, fun history s hrun => clientId_of_running hrun⟩
    · intro history s hrun hloaded a ha htrue
      have htidy := Lifecycle.Tidy.run hP hrun
      have hhass : s.hass = ⟨[], none⟩ := by
        rcases htidy.hass_eq with ⟨-, hhass⟩ | ⟨c, hloaded', -⟩
        · exact hhass
        · rw [hloaded] at hloaded'
          cases hloaded'
      rcases (setup_result data s.created a).of_handled (hP a ha) with
        ⟨-, hafter⟩ | ⟨htrue', -⟩
      · rw [LifecycleEvent.after, LifecycleEvent.action, hhass, hafter]
        exact ⟨List.not_mem_nil, rfl⟩
      · rw [htrue] at htrue'
        cases htrue'
    · intro history s hrun
      have htidy := Lifecycle.Tidy.run hP hrun
      refine ⟨?_, fun e s' _ hstep n => htidy.midway hstep n⟩
      rw [htidy.running]
      cases s.hass.stored <;> simp

/-- The platforms fail after the connection is up, and the set-up is tried again: two
loops are running, under one client id. -/
theorem failed_forward_leaks_loop : ¬∀ data, OneLiveBridge data fun _ => True := by
  intro h
  let data : EntryData := ⟨"192.168.1.2", some 1883, "1001", none, some "secret", some false⟩
  let dial : Dial := ⟨.ok ⟨⟩, .ok ⟨⟩⟩
  let failed : Lifecycle := ⟨⟨[data.client 0], some (data.client 0)⟩, false, 1⟩
  let retried : Lifecycle := ⟨⟨[data.client 0, data.client 1], some (data.client 1)⟩, true, 2⟩
  have hfailed : (lifecycle data).step .init
      (.setup ⟨dial, .ok ⟨⟩, .error .configEntryNotReady⟩) = some failed := rfl
  have hretried : (lifecycle data).step failed (.setup ⟨dial, .ok ⟨⟩, .ok ⟨⟩⟩) = some retried :=
    rfl
  have hany : ∀ s e, Admits (fun _ => True) s e := by
    intro s e
    cases e <;> trivial
  have hrun : (lifecycle data).Run (Admits fun _ => True) .init _ retried :=
    .snoc (.snoc .nil (hany _ _) hfailed) (hany _ _) hretried
  have htwo : retried.hass.running.length ≤ 1 := ((h data).single _ _ hrun).1
  exact absurd htwo (by decide)

end SotRwb1
