import Mathlib.Data.List.Nodup
import SotRwb1.Setup.Entry

/-!
# All the entries of an installation

Config flow steps and the set-ups and unloads of the entries run on one loop, where
they interleave at every await.

A party is a flow step under way or an entry; a step that creates its entry becomes
it.  Home Assistant aborts a flow whose unique id another flow has in progress, makes
one call at a time for an entry, and removes an entry that is not loaded.  An entry
whose unload has failed counts as loaded and is assumed to stay until a restart: Home
Assistant would let the user remove it at once and ask for the restart.

## Main definitions

* `Party`, `Installation`, `Installation.step`, `installation`.
* `InstallationResult` — all that a step can do.
* `Named`, `installation_named` — every party has its own device id.
-/

namespace SotRwb1

/-! ## Parties -/

/-- A set-up or unload under way: the effects still to come, and whether the entry is
loaded once they are done. -/
structure EntryCall where
  rest : List SetupEffect
  loadedAfter : Bool

/-- A flow step under way with the effects still to come and its answer, or an entry
with its slot in `hass.data`. -/
inductive Party where
  | flow (userInput : EntryData) (rest : List SetupEffect) (answer : Except SetupError FlowResult)
  | entry (data : EntryData) (stored : Option Client) (loaded : Bool) (call : Option EntryCall)

namespace Party

/-- The id the party has or asks for. -/
def deviceId : Party → String
  | flow userInput _ _ => stripped userInput.deviceId
  | entry data _ _ _ => data.deviceId

/-- The bridge of the stored coordinator. -/
def stored : Party → Option Client
  | flow _ _ _ => none
  | entry _ stored _ _ => stored

def loaded : Party → Bool
  | flow _ _ _ => false
  | entry _ _ loaded _ => loaded

/-- The effects still to come. -/
def rest : Party → List SetupEffect
  | flow _ rest _ => rest
  | entry _ _ _ call => (call.map (·.rest)).getD []

/-- Whether an entry is loaded when nothing is under way any more. -/
def loadedAfter : Party → Bool
  | flow _ _ _ => false
  | entry _ _ loaded call => (call.map (·.loadedAfter)).getD loaded

/-- An entry without a call under way. -/
def isIdle : Party → Bool
  | flow _ _ _ => false
  | entry _ _ _ call => call.isNone

end Party

/-! ## Steps -/

/-- The running network loops, the number of clients constructed, and the parties. -/
structure Installation where
  running : List Client
  created : ℕ
  parties : List Party

/-- Nothing is configured. -/
def Installation.init : Installation := ⟨[], 0, []⟩

/-- The events: the user submits the form, an entry is set up, unloaded or removed, and
a party performs its next effect or comes to its end. -/
inductive InstallationEvent where
  | submit (dial : Dial) (userInput : EntryData)
  | setup (i : ℕ) (a : Attempt)
  | unload (i : ℕ) (platforms : Except SetupError Bool)
  | proceed (i : ℕ)
  | remove (i : ℕ)

namespace Installation

variable (s : Installation)

/-- The unique ids of the entries. -/
def configured : List String :=
  s.parties.filterMap fun
    | .flow _ _ _ => none
    | .entry data _ _ _ => some data.deviceId

/-- The unique ids of the flows in progress. -/
def inProgress : List String :=
  s.parties.filterMap fun
    | .flow userInput _ _ => some (stripped userInput.deviceId)
    | .entry _ _ _ _ => none

/-- A party performs its next effect, or ends: a flow step leaves, or leaves its entry
in its place. -/
def proceed (i : ℕ) : Party → Option Installation
  | .flow userInput (e :: rest) answer =>
      some { s with
        running := (Hass.perform ⟨s.running, none⟩ e).running
        parties := s.parties.set i (.flow userInput rest answer) }
  | .flow _ [] (.ok (.createEntry _ data)) =>
      some { s with parties := s.parties.set i (.entry data none false none) }
  | .flow _ [] _ => some { s with parties := s.parties.eraseIdx i }
  | .entry data stored loaded (some ⟨e :: rest, loadedAfter⟩) =>
      some { s with
        running := (Hass.perform ⟨s.running, stored⟩ e).running
        parties := s.parties.set i (.entry data (Hass.perform ⟨s.running, stored⟩ e).stored loaded
          (some ⟨rest, loadedAfter⟩)) }
  | .entry data stored _ (some ⟨[], loadedAfter⟩) =>
      some { s with parties := s.parties.set i (.entry data stored loadedAfter none) }
  | .entry _ _ _ none => none

/-- A step of the flow that awaits nothing has answered at once.  Only an entry that is
not loaded is removed. -/
def step : InstallationEvent → Option Installation
  | .submit dial userInput =>
      if stripped userInput.deviceId ∈ s.inProgress then some s
      else
        let m := asyncStepUser s.configured s.created dial (some userInput)
        if m.effects.isEmpty then some s
        else some { s with
          created := s.created + 1
          parties := s.parties ++ [.flow userInput m.effects m.result] }
  | .setup i a =>
      match s.parties[i]? with
      | some (.entry data stored false none) =>
          let m := asyncSetupEntry data s.created a
          some { s with
            created := s.created + 1
            parties := s.parties.set i
              (.entry data stored false (some ⟨m.effects, returnedTrue m.result⟩)) }
      | _ => none
  | .unload i platforms =>
      match s.parties[i]? with
      | some (.entry data stored true none) =>
          let m := asyncUnloadEntry stored platforms
          some { s with
            parties := s.parties.set i
              (.entry data stored true (some ⟨m.effects, !returnedTrue m.result⟩)) }
      | _ => none
  | .proceed i => s.parties[i]?.bind (s.proceed i)
  | .remove i =>
      match s.parties[i]? with
      | some (.entry _ _ false none) => some { s with parties := s.parties.eraseIdx i }
      | _ => none

end Installation

/-- All entries and flows as a machine. -/
def installation : Machine Installation InstallationEvent := ⟨Installation.step⟩

/-- The form filled in for a device. -/
def formFor (deviceId : String) : EntryData :=
  ⟨"192.168.1.2", some 1883, deviceId, none, some "secret", some false⟩

/-! ## What a step comes to -/

/-- The bridge of a flow step. -/
def EntryData.throwaway (userInput : EntryData) (serial : ℕ) : Client :=
  ⟨serial, userInput.bridge (stripped userInput.deviceId)⟩

variable {userInput : EntryData} {serial : ℕ} {dial : Dial} {configured : List String}

theorem effects_validate : (validate userInput serial dial).effects =
    (asyncStart (userInput.throwaway serial) dial).effects ++
      [.disconnect (userInput.throwaway serial), .loopStop (userInput.throwaway serial)] := by
  rw [validate, ← EntryData.throwaway, asyncStop_eq, Handler.ensure_ok]
  generalize asyncStart (userInput.throwaway serial) dial = m
  obtain ⟨effects, result⟩ := m
  cases result with
  | ok u => rfl
  | error err =>
      rw [Handler.rescue_error]
      split <;> simp

/-- The step of the flow does what its validation does. -/
theorem effects_asyncStepUser (hnew : stripped userInput.deviceId ∉ configured) :
    (asyncStepUser configured serial dial (some userInput)).effects =
      (validate userInput serial dial).effects := by
  rw [asyncStepUser, if_neg hnew]
  generalize validate userInput serial dial = m
  obtain ⟨effects, result⟩ := m
  cases result with
  | ok u => simp
  | error err =>
      rw [Handler.bind_error, Handler.rescue_error]
      split
      · simp
      · split <;> simp

/-- All that a step can do. -/
inductive InstallationResult (s : Installation) : InstallationEvent → Installation → Prop
  | answered (dial : Dial) (userInput : EntryData) :
      InstallationResult s (.submit dial userInput) s
  | joins (dial : Dial) (userInput : EntryData)
      (notConfigured : stripped userInput.deviceId ∉ s.configured)
      (notInProgress : stripped userInput.deviceId ∉ s.inProgress) :
      InstallationResult s (.submit dial userInput) { s with
        created := s.created + 1
        parties := s.parties ++ [.flow userInput (validate userInput s.created dial).effects
          (asyncStepUser s.configured s.created dial (some userInput)).result] }
  | setup (i : ℕ) (a : Attempt) (data : EntryData) (stored : Option Client)
      (get : s.parties[i]? = some (.entry data stored false none)) :
      InstallationResult s (.setup i a) { s with
        created := s.created + 1
        parties := s.parties.set i (.entry data stored false
          (some ⟨(asyncSetupEntry data s.created a).effects,
            returnedTrue (asyncSetupEntry data s.created a).result⟩)) }
  | unload (i : ℕ) (platforms : Except SetupError Bool) (data : EntryData)
      (stored : Option Client) (get : s.parties[i]? = some (.entry data stored true none)) :
      InstallationResult s (.unload i platforms) { s with
        parties := s.parties.set i (.entry data stored true
          (some ⟨(asyncUnloadEntry stored platforms).effects,
            !returnedTrue (asyncUnloadEntry stored platforms).result⟩)) }
  | flowPerforms (i : ℕ) (userInput : EntryData) (e : SetupEffect) (rest : List SetupEffect)
      (answer : Except SetupError FlowResult)
      (get : s.parties[i]? = some (.flow userInput (e :: rest) answer)) :
      InstallationResult s (.proceed i) { s with
        running := (Hass.perform ⟨s.running, none⟩ e).running
        parties := s.parties.set i (.flow userInput rest answer) }
  | creates (i : ℕ) (userInput : EntryData) (title : String) (data : EntryData)
      (get : s.parties[i]? = some (.flow userInput [] (.ok (.createEntry title data)))) :
      InstallationResult s (.proceed i) { s with
        parties := s.parties.set i (.entry data none false none) }
  | ends (i : ℕ) (userInput : EntryData) (answer : Except SetupError FlowResult)
      (get : s.parties[i]? = some (.flow userInput [] answer)) :
      InstallationResult s (.proceed i) { s with parties := s.parties.eraseIdx i }
  | callPerforms (i : ℕ) (data : EntryData) (stored : Option Client) (loaded : Bool)
      (e : SetupEffect) (rest : List SetupEffect) (loadedAfter : Bool)
      (get : s.parties[i]? = some (.entry data stored loaded (some ⟨e :: rest, loadedAfter⟩))) :
      InstallationResult s (.proceed i) { s with
        running := (Hass.perform ⟨s.running, stored⟩ e).running
        parties := s.parties.set i (.entry data (Hass.perform ⟨s.running, stored⟩ e).stored loaded
          (some ⟨rest, loadedAfter⟩)) }
  | returns (i : ℕ) (data : EntryData) (stored : Option Client) (loaded loadedAfter : Bool)
      (get : s.parties[i]? = some (.entry data stored loaded (some ⟨[], loadedAfter⟩))) :
      InstallationResult s (.proceed i) { s with
        parties := s.parties.set i (.entry data stored loadedAfter none) }
  | remove (i : ℕ) (data : EntryData) (stored : Option Client)
      (get : s.parties[i]? = some (.entry data stored false none)) :
      InstallationResult s (.remove i) { s with parties := s.parties.eraseIdx i }

theorem installation_result {s s' : Installation} {e : InstallationEvent}
    (h : installation.step s e = some s') : InstallationResult s e s' := by
  change s.step e = some s' at h
  cases e with
  | submit dial userInput =>
      rw [Installation.step] at h
      split at h
      · cases h
        exact .answered dial userInput
      · rename_i hprogress
        dsimp only at h
        split at h
        · cases h
          exact .answered dial userInput
        · rename_i hawaits
          have hconfigured : stripped userInput.deviceId ∉ s.configured := by
            intro hmem
            rw [asyncStepUser, if_pos hmem] at hawaits
            exact hawaits rfl
          have hjoins := InstallationResult.joins dial userInput hconfigured hprogress
          rw [← effects_asyncStepUser hconfigured] at hjoins
          cases h
          exact hjoins
  | setup i a =>
      rw [Installation.step] at h
      split at h
      · rename_i data stored hget
        cases h
        exact .setup i a data stored hget
      · cases h
  | unload i platforms =>
      rw [Installation.step] at h
      split at h
      · rename_i data stored hget
        cases h
        exact .unload i platforms data stored hget
      · cases h
  | remove i =>
      rw [Installation.step] at h
      split at h
      · rename_i data stored hget
        cases h
        exact .remove i data stored hget
      · cases h
  | proceed i =>
      obtain ⟨p, hget, hproceed⟩ := Option.bind_eq_some_iff.mp h
      rw [Installation.proceed.eq_def] at hproceed
      split at hproceed <;> cases hproceed
      · exact .flowPerforms i _ _ _ _ hget
      · exact .creates i _ _ _ hget
      · exact .ends i _ _ hget
      · exact .callPerforms i _ _ _ _ _ _ hget
      · exact .returns i _ _ _ _ hget

/-! ## Device ids -/

namespace Installation

variable {s s' : Installation} {i : ℕ} {p q : Party}

/-- The ids the parties have or ask for. -/
def deviceIds (s : Installation) : List String := s.parties.map Party.deviceId

/-- An id in use is configured or in progress. -/
theorem mem_deviceIds {deviceId : String} (h : deviceId ∈ s.deviceIds) :
    deviceId ∈ s.configured ∨ deviceId ∈ s.inProgress := by
  obtain ⟨p, hp, rfl⟩ := List.mem_map.mp h
  cases p with
  | flow userInput rest answer => exact .inr (List.mem_filterMap.mpr ⟨_, hp, rfl⟩)
  | entry data stored loaded call => exact .inl (List.mem_filterMap.mpr ⟨_, hp, rfl⟩)

/-- No two parties have one device id, and the entry a flow step creates keeps its own. -/
structure Named (s : Installation) : Prop where
  distinct : s.deviceIds.Nodup
  answer : ∀ userInput rest title data,
    .flow userInput rest (.ok (.createEntry title data)) ∈ s.parties →
      data.deviceId = stripped userInput.deviceId

theorem Named.init : Installation.init.Named := ⟨List.nodup_nil, by simp [Installation.init]⟩

theorem deviceIds_set (hget : s.parties[i]? = some p) (hid : q.deviceId = p.deviceId) :
    (s.parties.set i q).map Party.deviceId = s.deviceIds := by
  rw [List.map_set, hid, deviceIds]
  apply List.ext_getElem?
  intro j
  rw [List.getElem?_set]
  split
  · rename_i hij
    subst hij
    obtain ⟨hlt, heq⟩ := List.getElem?_eq_some_iff.mp hget
    simp [hlt, heq]
  · rfl

theorem Named.set (h : s.Named) (hget : s.parties[i]? = some p)
    (hparties : s'.parties = s.parties.set i q) (hid : q.deviceId = p.deviceId)
    (hanswer : ∀ userInput rest title data,
      q = .flow userInput rest (.ok (.createEntry title data)) →
        data.deviceId = stripped userInput.deviceId) : s'.Named := by
  constructor
  case distinct =>
    rw [deviceIds, hparties, deviceIds_set hget hid]
    exact h.distinct
  case answer =>
    intro userInput rest title data hmem
    rw [hparties] at hmem
    rcases List.mem_or_eq_of_mem_set hmem with hmem | heq
    · exact h.answer userInput rest title data hmem
    · exact hanswer userInput rest title data heq.symm

theorem Named.append (h : s.Named) (hnew : p.deviceId ∉ s.deviceIds)
    (hparties : s'.parties = s.parties ++ [p])
    (hanswer : ∀ userInput rest title data,
      p = .flow userInput rest (.ok (.createEntry title data)) →
        data.deviceId = stripped userInput.deviceId) : s'.Named := by
  constructor
  case distinct =>
    rw [deviceIds, hparties, List.map_append, List.map_singleton, ← List.concat_eq_append]
    exact List.Nodup.concat hnew h.distinct
  case answer =>
    intro userInput rest title data hmem
    rw [hparties] at hmem
    rcases List.mem_append.mp hmem with hmem | hmem
    · exact h.answer userInput rest title data hmem
    · exact hanswer userInput rest title data (List.mem_singleton.mp hmem).symm

theorem Named.eraseIdx (h : s.Named) (hparties : s'.parties = s.parties.eraseIdx i) :
    s'.Named := by
  constructor
  case distinct =>
    rw [deviceIds, hparties]
    exact h.distinct.sublist ((List.eraseIdx_sublist s.parties i).map Party.deviceId)
  case answer =>
    intro userInput rest title data hmem
    rw [hparties] at hmem
    exact h.answer userInput rest title data (List.mem_of_mem_eraseIdx hmem)

/-- **One step.**  A flow joins only under an id that is neither configured nor in
progress. -/
theorem Named.step (h : s.Named) {e : InstallationEvent} (hstep : installation.step s e = some s') :
    s'.Named := by
  have hentry : ∀ {data stored loaded call} userInput rest title (data' : EntryData),
      Party.entry data stored loaded call = .flow userInput rest (.ok (.createEntry title data')) →
        data'.deviceId = stripped userInput.deviceId := by
    intro data stored loaded call userInput rest title data' heq
    cases heq
  cases installation_result hstep with
  | answered => exact h
  | joins dial userInput notConfigured notInProgress =>
      refine h.append (p := .flow userInput _ _) ?_ rfl ?_
      · intro hmem
        rcases mem_deviceIds hmem with hmem | hmem
        · exact notConfigured hmem
        · exact notInProgress hmem
      · intro userInput' rest title data heq
        obtain ⟨rfl, -, hanswer⟩ := Party.flow.inj heq
        rw [(of_createEntry hanswer).1]
  | setup i a data stored get => exact h.set get rfl rfl hentry
  | unload i platforms data stored get => exact h.set get rfl rfl hentry
  | flowPerforms i userInput e rest answer get =>
      refine h.set get rfl rfl ?_
      intro userInput' rest' title data heq
      obtain ⟨rfl, -, rfl⟩ := Party.flow.inj heq
      exact h.answer _ _ _ _ (List.mem_of_getElem? get)
  | creates i userInput title data get =>
      exact h.set get rfl (h.answer _ _ _ _ (List.mem_of_getElem? get)) hentry
  | ends => exact h.eraseIdx rfl
  | callPerforms i data stored loaded e rest loadedAfter get => exact h.set get rfl rfl hentry
  | returns i data stored loaded loadedAfter get => exact h.set get rfl rfl hentry
  | remove => exact h.eraseIdx rfl

end Installation

/-- In every run the parties have distinct device ids. -/
theorem installation_named {ok : Installation → InstallationEvent → Prop}
    {history : List (Installation × InstallationEvent)} {s : Installation}
    (h : installation.Run ok .init history s) : s.Named :=
  h.invariant Installation.Named .init fun _ _ _ hs _ hstep => hs.step hstep

end SotRwb1
