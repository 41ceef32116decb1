import SotRwb1.Protocol.Codec

/-!
# Control entities

A number, select or switch entity turns the value a user asks for into a channel
and a value string, has the bridge write it, and shows the value once the write
returns.  This module holds the parts that do not wait: the command of a write,
the judgement of its reply, and the value restored at start-up.

## Main definitions

* `Entity`, `Entity.Value` — the three entity classes and what each shows.
* `Entity.command` — the channel and value of a write.
* `asyncWriteSetting` — the judgement of the reply a write waited for.
* `Entity.finish` — what the entity shows after a write ended.
* `Entity.restored` — what the entity shows at start-up.
-/

namespace SotRwb1

open PyLib

/-- How a call fails: the two exceptions of the integration, cancellation of its
task, and anything else Python raises. -/
inductive CallError where
  | writeError
  | homeAssistantError
  | cancelledError
  | python (e : PyError)
  deriving DecidableEq

/-! ## Commands -/

/-- A number setting formats its value; only a `ValueError` is turned into the
error Home Assistant shows. -/
def numberCommand (d : NumberSetting) (value : PyFloat) : Except CallError (String × String) :=
  match formatValue d.fmt value d.step5 with
  | .ok valueStr => .ok (d.channel, valueStr)
  | .error .valueError => .error .homeAssistantError
  | .error e => .error (.python e)

/-- A select setting looks its label up. -/
def selectCommand (d : SelectSetting) (option : String) : Except CallError (String × String) :=
  match d.options.lookup option with
  | some raw => .ok (d.channel, raw)
  | none => .error .homeAssistantError

/-- A switch setting puts the state in the channel's prefix or in the value. -/
def switchCommand (d : SwitchSetting) (turnOn : Bool) : String × String :=
  match d with
  | .prefixKind suffix _ => ((if turnOn then "PE" else "PD") ++ suffix, "")
  | .digitKind channel on off _ => (channel, if turnOn then on else off)

/-- Every channel the integration can write to. -/
def exposedChannels : List String :=
  numberSettingDefinitions.map (·.channel) ++ selectSettingDefinitions.map (·.channel) ++
    switchSettingDefinitions.flatMap
      (fun d => [(switchCommand d true).1, (switchCommand d false).1]) ++
    [faultClearChannel]

/-- A control entity of one of the three platforms. -/
inductive Entity where
  | number (d : NumberSetting)
  | select (d : SelectSetting)
  | switch (d : SwitchSetting)
  deriving DecidableEq

namespace Entity

/-- What an entity shows: `native_value`, `current_option` or `is_on`. -/
def Value : Entity → Type
  | number _ => PyFloat
  | select _ => String
  | switch _ => Bool

/-- The channel and value string of a write. -/
def command : (e : Entity) → e.Value → Except CallError (String × String)
  | number d, value => numberCommand d value
  | select d, option => selectCommand d option
  | switch d, turnOn => .ok (switchCommand d turnOn)

end Entity

/-! ## Replies -/

/-- The rest of `async_write_setting` once the call returned or raised: a reply
with `NAK` is a write error, and a reply without `ACK` is only logged. -/
def asyncWriteSetting (reply : Except CallError Json) : Except CallError Unit :=
  match reply with
  | .error e => .error e
  | .ok co =>
      match coIsNak co with
      | .error e => .error (.python e)
      | .ok true => .error .writeError
      | .ok false =>
          match coIsAck co with
          | .error e => .error (.python e)
          | .ok _ => .ok ()

/-- The entity around a write: a write error is shown as a Home Assistant error,
any other exception passes, and only a normal return sets the shown value. -/
def Entity.finish {e : Entity} (shown : Option e.Value) (value : e.Value)
    (reply : Except CallError Json) : Option e.Value × Except CallError Unit :=
  match asyncWriteSetting reply with
  | .ok () => (some value, .ok ())
  | .error .writeError => (shown, .error .homeAssistantError)
  | .error err => (shown, .error err)

/-- A reply the dongle means as success: it contains `ACK` and not `NAK`. -/
def Acknowledges (co : Json) : Prop :=
  ∃ text, decodeCo co = .ok text ∧ hasAck text = true ∧ hasNak text = false

/-- A reply that says neither `ACK` nor `NAK`. -/
def Ambiguous (co : Json) : Prop :=
  ∃ text, decodeCo co = .ok text ∧ hasAck text = false ∧ hasNak text = false

/-- What is asked of the text of a reply can be decided. -/
def decidableText (co : Json) (p : List Char → Prop) [DecidablePred p] :
    Decidable (∃ text, decodeCo co = .ok text ∧ p text) :=
  match h : decodeCo co with
  | .ok text => decidable_of_iff (p text) (by simp)
  | .error e => .isFalse (by simp)

instance : DecidablePred Acknowledges := fun co => decidableText co _

instance : DecidablePred Ambiguous := fun co => decidableText co _

/-- A write returns normally exactly on a reply that decodes without `NAK`. -/
theorem asyncWriteSetting_eq_ok_iff (reply : Except CallError Json) :
    asyncWriteSetting reply = .ok () ↔
      ∃ co, reply = .ok co ∧ (Acknowledges co ∨ Ambiguous co) := by
  cases reply with
  | error e => simp [asyncWriteSetting]
  | ok co =>
      cases hco : decodeCo co with
      | error e => simp [asyncWriteSetting, coIsNak, hco, Except.map, Acknowledges, Ambiguous]
      | ok text =>
          cases hnak : hasNak text <;> cases hack : hasAck text <;>
            simp [asyncWriteSetting, coIsNak, coIsAck, hco, Except.map, Acknowledges, Ambiguous,
              hnak, hack]

theorem Entity.finish_shown {e : Entity} (shown : Option e.Value) (value : e.Value)
    (reply : Except CallError Json) :
    (Entity.finish shown value reply).1 =
      if asyncWriteSetting reply = .ok () then some value else shown := by
  unfold Entity.finish
  cases h : asyncWriteSetting reply with
  | ok u => rfl
  | error err => cases err <;> simp

/-! ## Start-up -/

/-- `native_value` restored from the last stored number data. -/
def numberRestored (last : Option (Option PyFloat)) : Option PyFloat := last.join

/-- `current_option` restored: only a known label is taken over. -/
def selectRestored (d : SelectSetting) (last : Option String) : Option String :=
  last.filter fun state => (d.options.lookup state).isSome

/-- `is_on` restored: only `on` and `off` are taken over. -/
def switchRestored (last : Option String) : Option Bool :=
  match last with
  | some state => if state = "on" ∨ state = "off" then some (state = "on") else none
  | none => none

namespace Entity

/-- What Home Assistant stored of an entity, if anything: the number data with its
native value, or the state. -/
def Stored : Entity → Type
  | number _ => Option (Option PyFloat)
  | select _ => Option String
  | switch _ => Option String

/-- What an entity shows when it is added. -/
def restored : (e : Entity) → e.Stored → Option e.Value
  | number _, last => numberRestored last
  | select d, last => selectRestored d last
  | switch _, last => switchRestored last

end Entity
end SotRwb1
