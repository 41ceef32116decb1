import SotRwb1.Const
import SotRwb1.Lib.Handler

/-!
# Starting and stopping a bridge

A bridge owns one client, whose network loop is a thread that `async_start` starts
and `async_stop` stops.  What happens outside comes in as a `Dial`: whether
`connect_async` raises, and how the wait for the first CONNACK ends.

Each action is a `Handler` over the network loops and the entry's slot in `hass.data`.
The push callback and the other fields of a coordinator are left out.

## Main definitions

* `EntryData`, `BridgeConfig`, `Client` — what a bridge is made from.
* `SetupError`, `SetupEffect`, `Hass` — what set-up code raises and does.
* `asyncStart`, `asyncStop`.
-/

namespace SotRwb1

/-! ## Bridges -/

/-- What the user enters and a config entry stores. -/
structure EntryData where
  host : String
  port : Option ℤ
  deviceId : String
  username : Option String
  password : Option String
  tls : Option Bool
  deriving DecidableEq

/-- What a bridge is constructed from. -/
structure BridgeConfig where
  host : String
  port : ℤ
  deviceId : String
  username : String
  password : Option String
  tls : Bool
  deriving DecidableEq

/-- The bridge of an entry.  A missing or empty user name defaults to the device id. -/
def EntryData.bridge (data : EntryData) (deviceId : String) : BridgeConfig where
  host := data.host
  port := data.port.getD defaultPort
  deviceId := deviceId
  username :=
    match data.username with
    | some username => if username.isEmpty then deviceId else username
    | none => deviceId
  password := data.password
  tls := data.tls.getD defaultTls

/-- A client, told from the others by its number. -/
structure Client where
  serial : ℕ
  config : BridgeConfig
  deriving DecidableEq

/-- The id under which a client connects to the broker. -/
def Client.clientId (c : Client) : String := "sot_rwb1_ha_" ++ c.config.deviceId

/-! ## Exceptions and effects -/

/-- Exceptions during set-up, as far as the handlers tell them apart. -/
inductive SetupError where
  | timeoutError
  | connectionError
  | osError
  | keyError
  | cannotConnect
  | configEntryNotReady
  | cancelledError
  | other (name : String)
  deriving DecidableEq

/-- Instances of `OSError`. -/
def SetupError.isOSError : SetupError → Bool
  | timeoutError => true
  | connectionError => true
  | osError => true
  | _ => false

/-- What set-up code does to its surroundings. -/
inductive SetupEffect where
  | loopStart (c : Client)
  | loopStop (c : Client)
  | disconnect (c : Client)
  | store (c : Client)
  | pop

/-- The running network loops, and the bridge of the coordinator that `hass.data`
holds for the entry. -/
structure Hass where
  running : List Client
  stored : Option Client

/-- Starting a loop that runs already does nothing; a disconnected client keeps its
loop until it is stopped. -/
def Hass.perform (h : Hass) : SetupEffect → Hass
  | .loopStart c => { h with running := if c ∈ h.running then h.running else h.running ++ [c] }
  | .loopStop c => { h with running := h.running.filter (· ≠ c) }
  | .disconnect _ => h
  | .store c => { h with stored := some c }
  | .pop => { h with stored := none }

/-- Set-up code in progress. -/
abbrev Setup := Handler SetupEffect SetupError

/-! ## Start and stop -/

/-- How the two calls that connect end: `connect_async`, and the wait for the
CONNACK, which a refusal ends with a `ConnectionError`. -/
structure Dial where
  connectAsync : Except SetupError Unit
  connack : Except SetupError Unit

/-- Connect and wait for the CONNACK.  The loop is stopped after a timeout and after
an `OSError`, not after any other exception. -/
def asyncStart (c : Client) (dial : Dial) : Setup Unit :=
  Handler.rescue
    (do
      Handler.ofExcept dial.connectAsync
      Handler.emit (.loopStart c)
      Handler.ofExcept dial.connack)
    fun err =>
      if err = .timeoutError then do
        Handler.emit (.loopStop c)
        Handler.raise .connectionError
      else if err.isOSError then do
        Handler.emit (.loopStop c)
        Handler.raise .connectionError
      else Handler.raise err

/-- Disconnect, then stop the loop. -/
def asyncStop (c : Client) : Setup Unit := do
  Handler.emit (.disconnect c)
  Handler.emit (.loopStop c)

/-! ## What they do -/

/-- The exception a start reports. -/
def SetupError.reported (err : SetupError) : SetupError :=
  if err.isOSError then .connectionError else err

/-- The loop is stopped again when the exception is an `OSError`. -/
def SetupError.cleanup (err : SetupError) (c : Client) : List SetupEffect :=
  if err.isOSError then [.loopStop c] else []

/-- Everything a start can do: fail before the loop runs, fail with the loop running,
or succeed. -/
theorem asyncStart_eq (c : Client) (dial : Dial) :
    asyncStart c dial =
      match dial.connectAsync, dial.connack with
      | .error err, _ => ⟨err.cleanup c, .error err.reported⟩
      | .ok _, .error err => ⟨.loopStart c :: err.cleanup c, .error err.reported⟩
      | .ok _, .ok _ => ⟨[.loopStart c], .ok ⟨⟩⟩ := by
  rw [asyncStart]
  obtain ⟨connectAsync, connack⟩ := dial
  cases connectAsync with
  | error err => cases err <;> rfl
  | ok u =>
      cases connack with
      | error err => cases err <;> rfl
      | ok u => rfl

@[simp] theorem asyncStop_eq (c : Client) :
    asyncStop c = ⟨[.disconnect c, .loopStop c], .ok ⟨⟩⟩ := rfl

end SotRwb1
