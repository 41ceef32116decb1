import SotRwb1.Setup.Installation

/-!
# The network loops of an installation

A broker drops a client when another one connects under the same id, so no two loops
that run at once may share one.  Set-ups that fail only where the code stops the loop
keep it so, however the calls and flow steps of all devices interleave.

## Main definitions

* `loopsOf` — the loops of one device, `Party.Tidy` — what its party leaves of them.
* `OneClientPerId`, `LoopsAccounted` — the properties of runs.
* `client_ids_distinct_iff`, `loops_accounted_iff` — when they hold.
-/

namespace SotRwb1

/-- The set-ups are restricted, all other events are not. -/
def InstallationEvent.Admitted (P : Attempt → Prop) : InstallationEvent → Prop
  | setup _ a => P a
  | submit _ _ | unload _ _ | proceed _ | remove _ => True

/-! ## The loops of one device -/

/-- The client an effect is about. -/
def SetupEffect.client : SetupEffect → Option Client
  | loopStart c | loopStop c | disconnect c | store c => some c
  | pop => none

/-- The loops that connect as a device. -/
def loopsOf (deviceId : String) (running : List Client) : List Client :=
  running.filter fun c => c.config.deviceId = deviceId

theorem mem_loopsOf {deviceId : String} {running : List Client} {c : Client} :
    c ∈ loopsOf deviceId running ↔ c ∈ running ∧ c.config.deviceId = deviceId := by
  simp [loopsOf]

variable {deviceId deviceId' : String} {h : Hass} {e : SetupEffect}

/-- An effect about a client of the device does to the device's loops what it does to all. -/
theorem loopsOf_perform (he : ∀ c ∈ e.client, c.config.deviceId = deviceId) :
    loopsOf deviceId (h.perform e).running =
      (Hass.perform ⟨loopsOf deviceId h.running, h.stored⟩ e).running := by
  cases e with
  | loopStart c =>
      have hid := he c rfl
      by_cases hc : c ∈ h.running
      · have hmem : c ∈ loopsOf deviceId h.running := mem_loopsOf.mpr ⟨hc, hid⟩
        simp [Hass.perform, hc, hmem]
      · have hmem : c ∉ loopsOf deviceId h.running := fun hmem => hc (mem_loopsOf.mp hmem).1
        rw [Hass.perform, Hass.perform, if_neg hc, if_neg hmem]
        simp [loopsOf, hid]
  | loopStop c =>
      rw [Hass.perform, Hass.perform, loopsOf, loopsOf, List.filter_filter, List.filter_filter]
      simp only [Bool.and_comm]
  | disconnect | store | pop => rfl

/-- It leaves the loops of other devices alone. -/
theorem loopsOf_perform_of_ne (he : ∀ c ∈ e.client, c.config.deviceId = deviceId)
    (hne : deviceId' ≠ deviceId) :
    loopsOf deviceId' (h.perform e).running = loopsOf deviceId' h.running := by
  cases e with
  | loopStart c =>
      have hid : c.config.deviceId ≠ deviceId' := by
        rw [he c rfl]
        exact hne.symm
      rw [Hass.perform]
      split
      · rfl
      · simp [loopsOf, hid]
  | loopStop c =>
      rw [Hass.perform, loopsOf, List.filter_filter]
      apply List.filter_congr
      intro c' _
      have hid := he c rfl
      by_cases hc' : c'.config.deviceId = deviceId'
      · have hcc : c' ≠ c := by
          rintro rfl
          exact hne (hc'.symm.trans hid)
        simp [hc', hcc]
      · simp [hc']
  | disconnect | store | pop => rfl

/-! ## One party -/

namespace Party

/-- What a party sees: the loops of its device, and its slot. -/
def view (p : Party) (running : List Client) : Hass := ⟨loopsOf p.deviceId running, p.stored⟩

/-- The same after the effects still to come. -/
def final (p : Party) (running : List Client) : Hass := p.rest.foldl Hass.perform (p.view running)

/-- An effect about a client of the party's device; a flow has no slot to change. -/
structure Performs (p : Party) (e : SetupEffect) : Prop where
  client : ∀ c ∈ e.client, c.config.deviceId = p.deviceId
  slot : (∃ userInput rest answer, p = .flow userInput rest answer) →
    ∀ h : Hass, (h.perform e).stored = h.stored

/-- At most one loop of the device runs and only its client is started again; when the
effects are done exactly the bridge of the stored coordinator runs, and there is one
exactly when the entry is loaded. -/
structure Tidy (p : Party) (running : List Client) : Prop where
  own : ∀ e ∈ p.rest, p.Performs e
  only : ∃ c, (p.view running).RunsOnly c ∧ ∀ c', .loopStart c' ∈ p.rest → c' = c
  loops : (p.final running).running = (p.final running).stored.toList
  loaded : p.loadedAfter = (p.final running).stored.isSome

variable {p : Party} {running running' : List Client}

/-- Only the loops of its device matter to a party. -/
theorem Tidy.congr (h : p.Tidy running)
    (heq : loopsOf p.deviceId running' = loopsOf p.deviceId running) : p.Tidy running' := by
  have hview : p.view running' = p.view running := by rw [view, view, heq]
  have hfinal : p.final running' = p.final running := by rw [final, final, hview]
  refine ⟨h.own, ?_, ?_, ?_⟩
  · rw [hview]
    exact h.only
  · rw [hfinal]
    exact h.loops
  · rw [hfinal]
    exact h.loaded

/-- With nothing to come, a party sees the loop of its slot and no other. -/
theorem Tidy.view_eq (h : p.Tidy running) (hrest : p.rest = []) :
    p.view running = ⟨p.stored.toList, p.stored⟩ ∧ p.loadedAfter = p.stored.isSome := by
  have hloops := h.loops
  have hloaded := h.loaded
  rw [final, hrest, List.foldl_nil] at hloops hloaded
  exact ⟨congrArg (Hass.mk · p.stored) hloops, hloaded⟩

/-- A party that has performed its next effect. -/
theorem Tidy.advance {q : Party} {e : SetupEffect} {rest : List SetupEffect}
    (h : p.Tidy running) (hrest : p.rest = e :: rest) (hrest' : q.rest = rest)
    (hperforms : ∀ e', p.Performs e' → q.Performs e')
    (hview : q.view running' = (p.view running).perform e)
    (hloaded : q.loadedAfter = p.loadedAfter) : q.Tidy running' := by
  have hfinal : q.final running' = p.final running := by
    rw [final, final, hview, hrest, hrest', List.foldl_cons]
  obtain ⟨c, honly, hstarts⟩ := h.only
  refine ⟨?_, ⟨c, ?_, ?_⟩, ?_, ?_⟩
  · intro e' he'
    rw [hrest'] at he'
    exact hperforms e' (h.own e' (by simp [hrest, he']))
  · rw [hview]
    apply honly.perform
    rintro c' rfl
    exact hstarts c' (by simp [hrest])
  · intro c' hc'
    rw [hrest'] at hc'
    exact hstarts c' (by simp [hrest, hc'])
  · rw [hfinal]
    exact h.loops
  · rw [hfinal, hloaded]
    exact h.loaded

/-- A party that touches one bridge, and leaves it running in its slot or leaves nothing. -/
theorem tidy_of_effects {c : Client} {b : Bool} (hid : c.config.deviceId = p.deviceId)
    (hrest : ∀ e ∈ p.rest, ∀ c' ∈ e.client, c' = c)
    (hslot : ∀ e ∈ p.rest, ∀ userInput rest answer, p = .flow userInput rest answer →
      ∀ h : Hass, (h.perform e).stored = h.stored)
    (honly : (p.view running).RunsOnly c) (hloaded : p.loadedAfter = b)
    (hfinal : p.final running = if b then ⟨[c], some c⟩ else ⟨[], none⟩) : p.Tidy running := by
  refine ⟨?_, ⟨c, honly, fun c' hc' => hrest _ hc' c' rfl⟩, ?_, ?_⟩
  · intro e he
    constructor
    case client =>
      intro c' hc'
      rw [hrest e he c' hc', hid]
    case slot =>
      rintro ⟨userInput, rest, answer, heq⟩
      exact hslot e he userInput rest answer heq
  · rw [hfinal]
    cases b <;> rfl
  · rw [hfinal, hloaded]
    cases b <;> rfl

/-- An entry at rest whose loop is that of its slot. -/
theorem tidy_idle {data : EntryData} {stored : Option Client} {loaded : Bool}
    (hloops : loopsOf data.deviceId running = stored.toList) (hloaded : loaded = stored.isSome) :
    (Party.entry data stored loaded none).Tidy running := by
  refine ⟨?_, ?_, hloops, hloaded⟩
  · intro e he
    cases he
  · cases stored with
    | none => exact ⟨data.client 0, .inl hloops, fun c' hc' => absurd hc' List.not_mem_nil⟩
    | some c => exact ⟨c, .inr hloops, fun c' hc' => absurd hc' List.not_mem_nil⟩

end Party

/-! ## The calls of a party -/

theorem client_of_mem_cleanup {err : SetupError} {c c' : Client} {e : SetupEffect}
    (he : e ∈ err.cleanup c) (hc' : c' ∈ e.client) : c' = c := by
  rw [SetupError.cleanup] at he
  split at he
  · obtain rfl := List.mem_singleton.mp he
    exact (Option.some.inj hc').symm
  · cases he

/-- A set-up touches only the bridge it constructs. -/
theorem SetupResult.client_eq {c c' : Client} {a : Attempt} {m : Setup Bool}
    (h : SetupResult c a m) {e : SetupEffect} (he : e ∈ m.effects) (hc' : c' ∈ e.client) :
    c' = c := by
  cases h with
  | unconnected err => exact client_of_mem_cleanup he hc'
  | refused err =>
      rcases List.mem_cons.mp he with rfl | he
      · exact (Option.some.inj hc').symm
      · exact client_of_mem_cleanup he hc'
  | refreshFails =>
      obtain rfl := List.mem_singleton.mp he
      exact (Option.some.inj hc').symm
  | forwardFails | done =>
      rcases List.mem_pair.mp he with rfl | rfl <;> exact (Option.some.inj hc').symm

/-- An unload touches only the bridge it drops. -/
theorem client_of_mem_unload {c c' : Client} {platforms : Except SetupError Bool} {e : SetupEffect}
    (he : e ∈ (asyncUnloadEntry (some c) platforms).effects) (hc' : c' ∈ e.client) : c' = c := by
  rcases unload_result c platforms with heq | ⟨result, heq, -⟩
  · rw [heq] at he
    rcases List.mem_cons.mp he with rfl | he
    · cases hc'
    · rcases List.mem_pair.mp he with rfl | rfl <;> exact (Option.some.inj hc').symm
  · rw [heq] at he
    cases he

theorem returnedTrue_eq_false {result : Except SetupError Bool} (h : result ≠ .ok true) :
    returnedTrue result = false := by
  cases result with
  | error err => rfl
  | ok b =>
      cases b with
      | false => rfl
      | true => exact absurd rfl h

variable {userInput : EntryData} {serial : ℕ} {dial : Dial}

/-- A flow step touches only its throwaway bridge and no slot. -/
theorem client_of_mem_validate {e : SetupEffect}
    (he : e ∈ (validate userInput serial dial).effects) :
    e.client = some (userInput.throwaway serial) ∧
      ∀ h : Hass, (h.perform e).stored = h.stored := by
  rw [effects_validate, asyncStart_eq] at he
  have hcleanup : ∀ err : SetupError, e ∈ err.cleanup (userInput.throwaway serial) →
      e = .loopStop (userInput.throwaway serial) := by
    intro err hmem
    rw [SetupError.cleanup] at hmem
    split at hmem
    · exact List.mem_singleton.mp hmem
    · cases hmem
  have hcases : e = .loopStart (userInput.throwaway serial) ∨
      e = .loopStop (userInput.throwaway serial) ∨
      e = .disconnect (userInput.throwaway serial) := by
    rcases List.mem_append.mp he with he | he
    · split at he
      · exact .inr (.inl (hcleanup _ he))
      · rcases List.mem_cons.mp he with rfl | he
        · exact .inl rfl
        · exact .inr (.inl (hcleanup _ he))
      · exact .inl (List.mem_singleton.mp he)
    · rcases List.mem_pair.mp he with rfl | rfl
      · exact .inr (.inr rfl)
      · exact .inr (.inl rfl)
  rcases hcases with rfl | rfl | rfl <;> exact ⟨rfl, fun h => rfl⟩

/-- A flow step that began without loops leaves none. -/
theorem foldl_validate :
    (validate userInput serial dial).effects.foldl Hass.perform ⟨[], none⟩ = ⟨[], none⟩ := by
  rw [effects_validate, asyncStart_eq]
  obtain ⟨connectAsync, connack⟩ := dial
  cases connectAsync with
  | error err => cases err <;> simp [SetupError.cleanup, SetupError.isOSError, Hass.perform]
  | ok u =>
      cases connack with
      | error err => cases err <;> simp [SetupError.cleanup, SetupError.isOSError, Hass.perform]
      | ok u => simp [Hass.perform]

/-! ## All parties -/

/-- Every party is tidy, and every loop connects as the device of one. -/
structure Installation.Tidy (s : Installation) : Prop where
  named : s.Named
  parties : ∀ p ∈ s.parties, p.Tidy s.running
  owned : ∀ c ∈ s.running, c.config.deviceId ∈ s.deviceIds

namespace Installation

variable {s s' : Installation} {i : ℕ} {p q : Party}

/-- Parties at different places have different ids. -/
theorem Named.deviceId_ne (h : s.Named) (hp : s.parties[i]? = some p) {j : ℕ}
    (hq : s.parties[j]? = some q) (hij : i ≠ j) : q.deviceId ≠ p.deviceId := by
  intro heq
  have hi : s.deviceIds[i]? = some p.deviceId := by simp [deviceIds, hp]
  have hj : s.deviceIds[j]? = some p.deviceId := by simp [deviceIds, hq, heq]
  obtain ⟨hlt, -⟩ := List.getElem?_eq_some_iff.mp hi
  exact hij ((List.getElem?_inj hlt h.distinct).mp (hi.trans hj.symm))

/-- One party changes, and no loops but those of its device. -/
theorem Tidy.set (h : s.Tidy) (hnamed : s'.Named) (hp : s.parties[i]? = some p)
    (hparties : s'.parties = s.parties.set i q) (hid : q.deviceId = p.deviceId)
    (hothers : ∀ deviceId ≠ p.deviceId,
      loopsOf deviceId s'.running = loopsOf deviceId s.running)
    (hq : q.Tidy s'.running) : s'.Tidy := by
  refine ⟨hnamed, ?_, ?_⟩
  · intro r hr
    rw [hparties] at hr
    obtain ⟨j, hj⟩ := List.mem_iff_getElem?.mp hr
    rw [List.getElem?_set] at hj
    split at hj
    · split at hj
      · cases hj
        exact hq
      · cases hj
    · rename_i hij
      apply (h.parties r (List.mem_of_getElem? hj)).congr
      exact hothers _ (h.named.deviceId_ne hp hj hij)
  · intro c hc
    rw [deviceIds, hparties, deviceIds_set hp hid]
    by_cases heq : c.config.deviceId = p.deviceId
    · rw [heq]
      exact List.mem_map_of_mem (List.mem_of_getElem? hp)
    · have hmem : c ∈ loopsOf c.config.deviceId s'.running := mem_loopsOf.mpr ⟨hc, rfl⟩
      rw [hothers _ heq] at hmem
      exact h.owned c (mem_loopsOf.mp hmem).1

/-- As no party but its own has them, an id that is new has no loops. -/
theorem Tidy.loopsOf_eq_nil (h : s.Tidy) {deviceId : String} (hnew : deviceId ∉ s.deviceIds) :
    loopsOf deviceId s.running = [] := by
  rw [List.eq_nil_iff_forall_not_mem]
  intro c hc
  obtain ⟨hmem, rfl⟩ := mem_loopsOf.mp hc
  exact hnew (h.owned c hmem)

theorem Tidy.append (h : s.Tidy) (hnamed : s'.Named) (hparties : s'.parties = s.parties ++ [p])
    (hrunning : s'.running = s.running) (hp : p.Tidy s.running) : s'.Tidy := by
  refine ⟨hnamed, ?_, ?_⟩
  · intro r hr
    rw [hparties] at hr
    rw [hrunning]
    rcases List.mem_append.mp hr with hr | hr
    · exact h.parties r hr
    · rw [List.mem_singleton.mp hr]
      exact hp
  · intro c hc
    rw [hrunning] at hc
    rw [deviceIds, hparties, List.map_append]
    exact List.mem_append_left _ (h.owned c hc)

/-- A party without loops leaves. -/
theorem Tidy.eraseIdx (h : s.Tidy) (hnamed : s'.Named) (hp : s.parties[i]? = some p)
    (hparties : s'.parties = s.parties.eraseIdx i) (hrunning : s'.running = s.running)
    (hnone : loopsOf p.deviceId s.running = []) : s'.Tidy := by
  refine ⟨hnamed, ?_, ?_⟩
  · intro r hr
    rw [hparties] at hr
    rw [hrunning]
    exact h.parties r (List.mem_of_mem_eraseIdx hr)
  · intro c hc
    rw [hrunning] at hc
    obtain ⟨r, hr, hid⟩ := List.mem_map.mp (h.owned c hc)
    obtain ⟨j, hj⟩ := List.mem_iff_getElem?.mp hr
    have hij : i ≠ j := by
      rintro rfl
      have hrp : p = r := Option.some.inj (hp.symm.trans hj)
      have hmem : c ∈ loopsOf p.deviceId s.running := mem_loopsOf.mpr ⟨hc, by rw [hrp, hid]⟩
      rw [hnone] at hmem
      cases hmem
    rw [deviceIds, hparties, ← hid]
    exact List.mem_map_of_mem (List.mem_eraseIdx_iff_getElem?.mpr ⟨j, hij.symm, hj⟩)

/-! ## Steps -/

/-- A flow step begins with no loop of its device and stops the one it starts. -/
theorem Tidy.joins (h : s.Tidy) {userInput : EntryData} {dial : Dial}
    {answer : Except SetupError FlowResult} (hnew : stripped userInput.deviceId ∉ s.deviceIds) :
    (Party.flow userInput (validate userInput s.created dial).effects answer).Tidy s.running := by
  have hnone := h.loopsOf_eq_nil hnew
  apply Party.tidy_of_effects (c := userInput.throwaway s.created) (b := false)
  case hid => rfl
  case hloaded => rfl
  case hrest =>
    intro e he c' hc'
    rw [(client_of_mem_validate he).1] at hc'
    exact (Option.some.inj hc').symm
  case hslot => exact fun e he _ _ _ _ => (client_of_mem_validate he).2
  case honly => exact .inl hnone
  case hfinal =>
    have hview : ∀ rest answer, (Party.flow userInput rest answer).view s.running =
        ⟨[], none⟩ := fun _ _ => congrArg (Hass.mk · none) hnone
    rw [Party.final, hview, Party.rest, foldl_validate]
    rfl

/-- A handled set-up begins with an entry that is not loaded. -/
theorem Tidy.setup (h : s.Tidy) {a : Attempt} (ha : a.Handled) {data : EntryData}
    {stored : Option Client} (hget : s.parties[i]? = some (.entry data stored false none)) :
    (Party.entry data stored false (some ⟨(asyncSetupEntry data s.created a).effects,
      returnedTrue (asyncSetupEntry data s.created a).result⟩)).Tidy s.running := by
  obtain ⟨hview, hloaded⟩ := (h.parties _ (List.mem_of_getElem? hget)).view_eq rfl
  cases stored with
  | some c => cases hloaded
  | none =>
      have hresult := setup_result data s.created a
      apply Party.tidy_of_effects (c := data.client s.created)
        (b := returnedTrue (asyncSetupEntry data s.created a).result)
      case hid => rfl
      case hloaded => rfl
      case hrest => exact fun e he c' hc' => hresult.client_eq he hc'
      case hslot =>
        intro e he userInput rest answer heq
        cases heq
      case honly => exact .inl (congrArg Hass.running hview)
      case hfinal =>
        have hview' : ∀ call, (Party.entry data none false call).view s.running =
            ⟨[], none⟩ := fun _ => hview
        rw [Party.final, hview', Party.rest, Option.map_some, Option.getD_some]
        rcases hresult.of_handled ha with ⟨htrue, hafter⟩ | ⟨htrue, hafter⟩ <;>
          rw [htrue, hafter] <;> rfl

/-- An unload begins with a loaded entry, whose one loop it stops if it succeeds. -/
theorem Tidy.unload (h : s.Tidy) {platforms : Except SetupError Bool} {data : EntryData}
    {stored : Option Client} (hget : s.parties[i]? = some (.entry data stored true none)) :
    (Party.entry data stored true (some ⟨(asyncUnloadEntry stored platforms).effects,
      !returnedTrue (asyncUnloadEntry stored platforms).result⟩)).Tidy s.running := by
  obtain ⟨hview, hloaded⟩ := (h.parties _ (List.mem_of_getElem? hget)).view_eq rfl
  cases stored with
  | none => cases hloaded
  | some c =>
      have hrunning : loopsOf data.deviceId s.running = [c] := congrArg Hass.running hview
      have hmem : c ∈ loopsOf data.deviceId s.running := by
        rw [hrunning]
        exact List.mem_singleton_self c
      have hview' : ∀ call, (Party.entry data (some c) true call).view s.running =
          ⟨[c], some c⟩ := fun _ => hview
      apply Party.tidy_of_effects (c := c)
        (b := !returnedTrue (asyncUnloadEntry (some c) platforms).result)
      case hid => exact (mem_loopsOf.mp hmem).2
      case hloaded => rfl
      case hrest => exact fun e he c' hc' => client_of_mem_unload he hc'
      case hslot =>
        intro e he userInput rest answer heq
        cases heq
      case honly => exact .inr hrunning
      case hfinal =>
        rw [Party.final, hview', Party.rest, Option.map_some, Option.getD_some]
        rcases unload_result c platforms with heq | ⟨result, heq, hresult⟩
        · simp [heq, Hass.perform, returnedTrue]
        · rw [heq, returnedTrue_eq_false hresult]
          rfl

/-- A party performs its next effect: the loops of other devices stay. -/
theorem Tidy.advance (h : s.Tidy) (hnamed : s'.Named) (hp : s.parties[i]? = some p)
    {e : SetupEffect} {rest : List SetupEffect} (hrest : p.rest = e :: rest)
    (hparties : s'.parties = s.parties.set i q) (hid : q.deviceId = p.deviceId)
    (hrunning : s'.running = (Hass.perform ⟨s.running, p.stored⟩ e).running)
    (hstored : p.Performs e → q.stored = (Hass.perform ⟨s.running, p.stored⟩ e).stored)
    (hrest' : q.rest = rest) (hperforms : ∀ e', p.Performs e' → q.Performs e')
    (hloaded : q.loadedAfter = p.loadedAfter) : s'.Tidy := by
  have htidy := h.parties p (List.mem_of_getElem? hp)
  have hown := htidy.own e (by simp [hrest])
  refine h.set hnamed hp hparties hid ?_ ?_
  · intro deviceId hne
    rw [hrunning]
    exact loopsOf_perform_of_ne hown.client hne
  · refine htidy.advance hrest hrest' hperforms ?_ hloaded
    have hloops : loopsOf q.deviceId s'.running =
        (Hass.perform ⟨loopsOf p.deviceId s.running, p.stored⟩ e).running := by
      rw [hid, hrunning, loopsOf_perform hown.client]
    have hslot : q.stored =
        (Hass.perform ⟨loopsOf p.deviceId s.running, p.stored⟩ e).stored := by
      rw [hstored hown]
      cases e <;> rfl
    rw [Party.view, hloops, hslot]
    rfl

/-- **One step.** -/
theorem Tidy.step (h : s.Tidy) {e : InstallationEvent}
    (he : e.Admitted Attempt.Handled)
    (hstep : installation.step s e = some s') : s'.Tidy := by
  have hnamed := h.named.step hstep
  cases installation_result hstep with
  | answered => exact h
  | joins dial userInput notConfigured notInProgress =>
      refine h.append hnamed rfl rfl (h.joins ?_)
      intro hmem
      rcases mem_deviceIds hmem with hmem | hmem
      · exact notConfigured hmem
      · exact notInProgress hmem
  | setup i a data stored get =>
      exact h.set hnamed get rfl rfl (fun _ _ => rfl) (h.setup he get)
  | unload i platforms data stored get =>
      exact h.set hnamed get rfl rfl (fun _ _ => rfl) (h.unload get)
  | flowPerforms i userInput e rest answer get =>
      refine h.advance hnamed get rfl rfl rfl rfl ?_ rfl ?_ rfl
      · exact fun hown => (hown.slot ⟨_, _, _, rfl⟩ ⟨s.running, none⟩).symm
      · exact fun e' he' => ⟨he'.client, fun _ => he'.slot ⟨_, _, _, rfl⟩⟩
  | creates i userInput title data get =>
      have hid : data.deviceId = stripped userInput.deviceId :=
        h.named.answer _ _ _ _ (List.mem_of_getElem? get)
      have hnone : loopsOf (stripped userInput.deviceId) s.running = [] :=
        congrArg Hass.running ((h.parties _ (List.mem_of_getElem? get)).view_eq rfl).1
      refine h.set hnamed get rfl hid (fun _ _ => rfl) (Party.tidy_idle ?_ rfl)
      rwa [hid]
  | ends i userInput answer get =>
      have hview := ((h.parties _ (List.mem_of_getElem? get)).view_eq rfl).1
      exact h.eraseIdx hnamed get rfl rfl (congrArg Hass.running hview)
  | callPerforms i data stored loaded e rest loadedAfter get =>
      refine h.advance hnamed get rfl rfl rfl rfl (fun _ => rfl) rfl ?_ rfl
      refine fun e' he' => ⟨he'.client, ?_⟩
      rintro ⟨userInput, rest', answer, heq⟩
      cases heq
  | returns i data stored loaded loadedAfter get =>
      obtain ⟨hview, hloaded⟩ := (h.parties _ (List.mem_of_getElem? get)).view_eq rfl
      exact h.set hnamed get rfl rfl (fun _ _ => rfl)
        (Party.tidy_idle (congrArg Hass.running hview) hloaded)
  | remove i data stored get =>
      obtain ⟨hview, hloaded⟩ := (h.parties _ (List.mem_of_getElem? get)).view_eq rfl
      cases stored with
      | some c => cases hloaded
      | none => exact h.eraseIdx hnamed get rfl rfl (congrArg Hass.running hview)

end Installation

/-! ## Runs -/

variable {history : List (Installation × InstallationEvent)} {s : Installation}

theorem installation_tidy {P : Attempt → Prop} (hP : ∀ a, P a → a.Handled)
    (h : installation.Run (fun _ e => e.Admitted P) .init history s) : s.Tidy := by
  apply h.invariant Installation.Tidy
  · exact ⟨.init, by simp [Installation.init], by simp [Installation.init]⟩
  · intro s e s' hs he hstep
    refine hs.step ?_ hstep
    cases e with
    | setup i a => exact hP a he
    | submit | unload | proceed | remove => trivial

/-- At most one loop connects as a device. -/
theorem Installation.Tidy.length_loopsOf_le (h : s.Tidy) (deviceId : String) :
    (loopsOf deviceId s.running).length ≤ 1 := by
  by_cases hmem : deviceId ∈ s.deviceIds
  · obtain ⟨p, hp, rfl⟩ := List.mem_map.mp hmem
    obtain ⟨c, honly, -⟩ := (h.parties p hp).only
    exact honly.length_le
  · simp [h.loopsOf_eq_nil hmem]

theorem clientId_inj {c c' : Client} :
    c.clientId = c'.clientId ↔ c.config.deviceId = c'.config.deviceId := by
  simp [Client.clientId, String.ext_iff]

theorem Installation.Tidy.nodup_clientId (h : s.Tidy) :
    (s.running.map Client.clientId).Nodup := by
  rw [List.nodup_iff_count_le_one]
  intro clientId
  rw [List.count_eq_countP, List.countP_map, List.countP_eq_length_filter]
  by_cases hmem : clientId ∈ s.running.map Client.clientId
  · obtain ⟨c, -, rfl⟩ := List.mem_map.mp hmem
    have hsame : s.running.filter ((· == c.clientId) ∘ Client.clientId) =
        loopsOf c.config.deviceId s.running := by
      apply List.filter_congr
      intro c' _
      rw [Function.comp_apply, beq_eq_decide, decide_eq_decide]
      exact clientId_inj
    rw [hsame]
    exact h.length_loopsOf_le c.config.deviceId
  · have hnone : s.running.filter ((· == clientId) ∘ Client.clientId) = [] := by
      rw [List.filter_eq_nil_iff]
      intro c hc
      have hne : c.clientId ≠ clientId := by
        rintro rfl
        exact hmem (List.mem_map_of_mem hc)
      simp [hne]
    simp [hnone]

/-! ## Set-ups that leave their loop -/

theorem SetupResult.effects_of_not_handled {c : Client} {a : Attempt} {m : Setup Bool}
    (h : SetupResult c a m) (ha : ¬a.Handled) :
    returnedTrue m.result = false ∧
      (m.effects = [.loopStart c] ∨ m.effects = [.loopStart c, .store c]) := by
  rw [Attempt.Handled] at ha
  cases h with
  | unconnected err hconnect => simp [hconnect] at ha
  | refused err hconnect hconnack =>
      rw [hconnect, hconnack] at ha
      exact ⟨rfl, .inl (by simp [SetupError.cleanup, show ¬err.isOSError = true from ha])⟩
  | refreshFails => exact ⟨rfl, .inl rfl⟩
  | forwardFails => exact ⟨rfl, .inr rfl⟩
  | done hconnect hconnack hrefresh hforward =>
      rw [hconnect, hconnack] at ha
      exact absurd ⟨hrefresh, hforward⟩ ha

/-- An attempt that is not handled leaves one more loop running, and an entry to be set
up again. -/
theorem exists_leak {P : Attempt → Prop} {a : Attempt} (ha : P a) (hnot : ¬a.Handled)
    {data : EntryData} {running : List Client} {created : ℕ} {stored : Option Client}
    (hnew : data.client created ∉ running)
    (h : installation.Run (fun _ e => e.Admitted P) .init history
      ⟨running, created, [.entry data stored false none]⟩) :
    ∃ history' stored', installation.Run (fun _ e => e.Admitted P) .init history'
      ⟨running ++ [data.client created], created + 1, [.entry data stored' false none]⟩ := by
  obtain ⟨hfalse, heffects⟩ := (setup_result data created a).effects_of_not_handled hnot
  have hadmitted : (InstallationEvent.setup 0 a).Admitted P := ha
  have hproceed : (InstallationEvent.proceed 0).Admitted P := trivial
  have hbegin : installation.step ⟨running, created, [.entry data stored false none]⟩ (.setup 0 a) =
      some ⟨running, created + 1, [.entry data stored false
        (some ⟨(asyncSetupEntry data created a).effects,
          returnedTrue (asyncSetupEntry data created a).result⟩)]⟩ := rfl
  rw [hfalse] at hbegin
  have hperform : Hass.perform ⟨running, stored⟩ (.loopStart (data.client created)) =
      ⟨running ++ [data.client created], stored⟩ := by
    rw [Hass.perform, if_neg hnew]
  have hstart : ∀ rest,
      installation.step
        ⟨running, created + 1,
          [.entry data stored false (some ⟨.loopStart (data.client created) :: rest, false⟩)]⟩
        (.proceed 0) =
      some ⟨running ++ [data.client created], created + 1,
        [.entry data stored false (some ⟨rest, false⟩)]⟩ := by
    intro rest
    have hstep : installation.step
        ⟨running, created + 1,
          [.entry data stored false (some ⟨.loopStart (data.client created) :: rest, false⟩)]⟩
        (.proceed 0) =
      some ⟨(Hass.perform ⟨running, stored⟩ (.loopStart (data.client created))).running,
        created + 1, [.entry data
          (Hass.perform ⟨running, stored⟩ (.loopStart (data.client created))).stored false
          (some ⟨rest, false⟩)]⟩ := rfl
    rwa [hperform] at hstep
  rcases heffects with heffects | heffects
  · rw [heffects] at hbegin
    exact ⟨_, _, ((h.snoc hadmitted hbegin).snoc hproceed (hstart [])).snoc hproceed rfl⟩
  · rw [heffects] at hbegin
    exact ⟨_, _, (((h.snoc hadmitted hbegin).snoc hproceed (hstart _)).snoc hproceed rfl).snoc
      hproceed rfl⟩

/-- The flow can always create a first entry. -/
theorem exists_entry (P : Attempt → Prop) :
    ∃ history, installation.Run (fun _ e => e.Admitted P) .init history
      ⟨[], 1, [.entry (formFor "1") none false none]⟩ := by
  let dial : Dial := ⟨.ok ⟨⟩, .ok ⟨⟩⟩
  have hsubmit : (InstallationEvent.submit dial (formFor "1")).Admitted P := trivial
  have hproceed : (InstallationEvent.proceed 0).Admitted P := trivial
  have hinit : installation.Run (fun _ e => e.Admitted P) .init [] .init := .nil
  exact ⟨_, ((((hinit.snoc hsubmit rfl).snoc hproceed rfl).snoc hproceed rfl).snoc hproceed
    rfl).snoc hproceed rfl⟩

/-! ## When the properties hold -/

/-- However the flows, set-ups and unloads of all entries interleave, no two running loops
share an MQTT client id, and each connects as the device of an entry or a flow step. -/
structure OneClientPerId (P : Attempt → Prop) : Prop where
  distinct : ∀ history s, installation.Run (fun _ e => e.Admitted P) .init history s →
    (s.running.map Client.clientId).Nodup
  owned : ∀ history s, installation.Run (fun _ e => e.Admitted P) .init history s →
    ∀ c ∈ s.running, ∃ p ∈ s.parties, c.clientId = "sot_rwb1_ha_" ++ p.deviceId

/-- **One client per id.**  It is so if and only if set-ups fail only where the code stops
the loop; flows and unloads may end in any way. -/
theorem client_ids_distinct_iff (P : Attempt → Prop) :
    OneClientPerId P ↔ ∀ a, P a → a.Handled := by
  constructor
  · intro h a ha
    by_contra hnot
    obtain ⟨history, hentry⟩ := exists_entry P
    obtain ⟨history', stored', honce⟩ := exists_leak ha hnot (by simp) hentry
    have hnew : (formFor "1").client 2 ∉ [(formFor "1").client 1] := by decide
    obtain ⟨history'', stored'', htwice⟩ := exists_leak ha hnot hnew honce
    have hsame : ¬([(formFor "1").client 1, (formFor "1").client 2].map
        Client.clientId).Nodup := by decide +kernel
    exact hsame (h.distinct _ _ htwice)
  · intro hP
    constructor
    case distinct => exact fun history s h => (installation_tidy hP h).nodup_clientId
    case owned =>
      intro history s h c hc
      obtain ⟨p, hp, hid⟩ := List.mem_map.mp ((installation_tidy hP h).owned c hc)
      exact ⟨p, hp, by rw [Client.clientId, hid]⟩

/-- While no call for an entry is under way, the loops that connect as its device are
that of its stored coordinator, and there is one exactly when the entry is loaded; none
connects as a device without an entry or flow step. -/
structure LoopsAccounted (P : Attempt → Prop) : Prop where
  idle : ∀ history s, installation.Run (fun _ e => e.Admitted P) .init history s →
    ∀ p ∈ s.parties, p.isIdle = true →
      loopsOf p.deviceId s.running = p.stored.toList ∧ p.loaded = p.stored.isSome
  gone : ∀ history s, installation.Run (fun _ e => e.Admitted P) .init history s →
    ∀ deviceId ∉ s.deviceIds, loopsOf deviceId s.running = []

/-- **All loops are accounted for** under the same condition. -/
theorem loops_accounted_iff (P : Attempt → Prop) :
    LoopsAccounted P ↔ ∀ a, P a → a.Handled := by
  constructor
  · intro h a ha
    by_contra hnot
    obtain ⟨history, hentry⟩ := exists_entry P
    obtain ⟨history', stored', honce⟩ := exists_leak ha hnot (by simp) hentry
    obtain ⟨hloops, hloaded⟩ := h.idle _ _ honce _ (List.mem_singleton_self _) rfl
    cases stored' with
    | none =>
        have hone : loopsOf "1" [(formFor "1").client 1] ≠ [] := by decide +kernel
        exact hone hloops
    | some c => cases hloaded
  · intro hP
    constructor
    case idle =>
      intro history s h p hp hidle
      cases p with
      | flow => cases hidle
      | entry data stored loaded call =>
          obtain rfl := Option.isNone_iff_eq_none.mp hidle
          obtain ⟨hview, hloaded⟩ := ((installation_tidy hP h).parties _ hp).view_eq rfl
          exact ⟨congrArg Hass.running hview, hloaded⟩
    case gone =>
      exact fun history s h deviceId hnew => (installation_tidy hP h).loopsOf_eq_nil hnew

end SotRwb1
