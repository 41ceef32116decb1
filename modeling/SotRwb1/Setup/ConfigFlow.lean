import SotRwb1.Lib.Text
import SotRwb1.Setup.Start

/-!
# The config flow

One step asks for the broker and the device, tries a throwaway connection, and
creates the entry.  The device id is stripped; nothing else about it is checked.

The client refuses to subscribe to a filter with `#`, or with `+` beside other characters
of a level, in the device id, so no throwaway connection of such an id comes up and the
flow never accepts it.  How a connection ends is a parameter here, so the ids below
include those.

## Main definitions

* `validate`, `FlowResult`, `asyncStepUser`.
* `Accepted`, `AcceptedId` — the device ids of the entries it creates.
-/

namespace SotRwb1

/-- `s.strip()`. -/
def stripped (s : String) : String := String.ofList (PyLib.strip s.toList)

/-- Open a throwaway connection; the bridge is stopped however that ends. -/
def validate (data : EntryData) (serial : ℕ) (dial : Dial) : Setup Unit :=
  let c : Client := ⟨serial, data.bridge (stripped data.deviceId)⟩
  Handler.ensure
    ((asyncStart c dial).rescue fun err =>
      if err = .connectionError then Handler.raise .cannotConnect else Handler.raise err)
    (asyncStop c)

/-- What the step answers: the form with an error, the end of the flow, or an entry. -/
inductive FlowResult where
  | showForm (error : Option String)
  | abort (reason : String)
  | createEntry (title : String) (data : EntryData)

/-- The step, given the ids of the entries there are.  A cancellation is no `Exception`
and leaves it. -/
def asyncStepUser (configured : List String) (serial : ℕ) (dial : Dial)
    (userInput : Option EntryData) : Setup FlowResult :=
  match userInput with
  | none => pure (.showForm none)
  | some userInput =>
      let deviceId := stripped userInput.deviceId
      if deviceId ∈ configured then pure (.abort "already_configured")
      else
        Handler.rescue
          (do
            validate userInput serial dial
            pure (.createEntry ("RWB1 DTU " ++ deviceId) { userInput with deviceId := deviceId }))
          fun err =>
            if err = .cannotConnect then pure (.showForm (some "cannot_connect"))
            else if err = .cancelledError then Handler.raise err
            else pure (.showForm (some "unknown"))

/-! ## The throwaway connection -/

/-- Validation passes exactly when the connection comes up. -/
theorem result_validate_eq_ok_iff (data : EntryData) (serial : ℕ) (dial : Dial) :
    (validate data serial dial).result = .ok ⟨⟩ ↔
      dial.connectAsync = .ok ⟨⟩ ∧ dial.connack = .ok ⟨⟩ := by
  obtain ⟨connectAsync, connack⟩ := dial
  simp only [validate, asyncStop_eq, Handler.ensure_ok, asyncStart_eq]
  cases connectAsync with
  | error err =>
      simp only [Handler.rescue_error]
      split <;> simp
  | ok u =>
      cases connack with
      | error err =>
          simp only [Handler.rescue_error]
          split <;> simp
      | ok u' => simp

/-! ## Accepted ids -/

/-- The device ids of the entries the flow can create, if every connection may come
up. -/
def Accepted (deviceId : String) : Prop :=
  ∃ (configured : List String) (serial : ℕ) (dial : Dial) (userInput : EntryData) (title : String)
    (data : EntryData),
    (asyncStepUser configured serial dial (some userInput)).result =
      .ok (.createEntry title data) ∧ data.deviceId = deviceId

/-- An accepted device id. -/
abbrev AcceptedId := {deviceId : String // Accepted deviceId}

/-- An entry keeps what was entered, with the id stripped; the id is new, and the
connection came up. -/
theorem of_createEntry {configured : List String} {serial : ℕ} {dial : Dial}
    {userInput data : EntryData} {title : String}
    (h : (asyncStepUser configured serial dial (some userInput)).result =
      .ok (.createEntry title data)) :
    data = { userInput with deviceId := stripped userInput.deviceId } ∧
      data.deviceId ∉ configured ∧ dial.connectAsync = .ok ⟨⟩ ∧ dial.connack = .ok ⟨⟩ := by
  rw [← result_validate_eq_ok_iff userInput serial dial]
  rw [asyncStepUser] at h
  split at h
  · cases h
  · rename_i hnew
    cases hvalid : validate userInput serial dial with
    | mk effects result =>
        rw [hvalid] at h
        cases result with
        | error err =>
            rw [Handler.bind_error, Handler.rescue_error] at h
            dsimp only at h
            split at h
            · cases h
            · split at h <;> cases h
        | ok u =>
            cases h
            exact ⟨rfl, hnew, rfl⟩

/-- Every stripped text is accepted, and nothing else. -/
theorem accepted_iff (deviceId : String) : Accepted deviceId ↔ ∃ s, deviceId = stripped s := by
  constructor
  · rintro ⟨configured, serial, dial, userInput, title, data, h, rfl⟩
    obtain ⟨rfl, -, -⟩ := of_createEntry h
    exact ⟨userInput.deviceId, rfl⟩
  · rintro ⟨s, rfl⟩
    refine ⟨[], 0, ⟨.ok ⟨⟩, .ok ⟨⟩⟩, ⟨"broker", none, s, none, none, none⟩, "RWB1 DTU " ++ stripped s,
      ⟨"broker", none, stripped s, none, none, none⟩, ?_, rfl⟩
    rw [asyncStepUser]
    simp [validate, asyncStart_eq]

end SotRwb1
