import SotRwb1.Lib.Dict
import SotRwb1.Protocol.Codec

/-!
# Telemetry frames

A telemetry text is `(<fields>\r`.  The channel alias that comes with it is
scrambled, so `decodeFrame` recognises the block from the shape of its fields:
the matchers are tried in order and the first that accepts names the values.
`decodeCt` folds the entries of one push or dump into a dictionary.

The regular expressions are lists of `Piece`s.  A failed conversion is a `none`
value, which `decodeFrame` drops.

## Main definitions

* `splitFrame` — the fields of a text.
* `Block`, `Block.matcher`, `matchers` — the six matchers and their order.
* `decodeFrame`, `decodeCt` — one text, one `ct` array.
* `deriveBinaryState` — the switch reading as a boolean.
-/

namespace SotRwb1

open PyLib

/-- One space-separated field of a frame. -/
abbrev Field := List Char

/-! ## Field shapes -/

def reVolt3 : List Piece := [.exactly 3 isDecimal, .lit '.', .exactly 1 isDecimal]

def re2Dot1 : List Piece := [.exactly 2 isDecimal, .lit '.', .exactly 1 isDecimal]

def reInt2 : List Piece := [.exactly 2 isDecimal]

def reInt3 : List Piece := [.exactly 3 isDecimal]

def rePvdot : List Piece := [.atLeast 4 isDecimal, .lit '.', .exactly 1 isDecimal]

def reTime : List Piece := [.exactly 2 isDecimal, .lit ':', .exactly 2 isDecimal]

def reDate6 : List Piece := [.exactly 6 isDecimal]

def reSigned : List Piece := [.exactly 1 fun c => c == '+' || c == '-', .atLeast 1 isDecimal]

def reLongmask : List Piece := [.atLeast 8 isDecimal]

/-- `float(s)`, or `None`. -/
def toFloat (s : Field) : Option Json := (pyFloat s).map fun x => .float x.inRange

/-- `int(s)`, or `None`. -/
def toInt (s : Field) : Option Json := (pyInt s).map .int

/-- `(a b c\r` to `a`, `b`, `c`. -/
def splitFrame (text : List Char) : List Field :=
  let inner :=
    match strip text with
    | '(' :: rest => rest
    | stripped => stripped
  splitSpaces (rstripChars ['\r', '\n'] inner)

/-! ## Matchers

A read `f[k]` is `f.getD k []`; the length test of the matcher keeps it in
range. -/

/-- What a matcher returns: the converted fields under their keys. -/
abbrev Readings := Dict String (Option Json)

def matchEnergy (f : List Field) : Option Readings :=
  if 6 ≤ f.length && reMatch reDate6 (f.getD 0 []) && reMatch reTime (f.getD 1 []) then
    some (.ofList
      [("energy_today", toFloat (f.getD 2 [])),
       ("energy_week", toFloat (f.getD 3 [])),
       ("energy_year", toFloat (f.getD 4 [])),
       ("energy_total", toFloat (f.getD 5 []))])
  else none

def matchPv (f : List Field) : Option Readings :=
  if 7 ≤ f.length && reMatch reVolt3 (f.getD 0 []) && reMatch rePvdot (f.getD 3 []) then
    some (.ofList
      [("pv_voltage", toFloat (f.getD 0 [])),
       ("pv_current", toFloat (f.getD 1 [])),
       ("pv_power", toInt (f.getD 2 [])),
       ("solar_charging_switch", some (.str (String.ofList (f.getD 5 []))))])
  else none

def matchLoad (f : List Field) : Option Readings :=
  if f.length == 9 && reMatch reVolt3 (f.getD 0 []) && reMatch re2Dot1 (f.getD 1 []) &&
      isDigit (f.getD 2 []) && isDigit (f.getD 3 []) then
    some (.ofList
      [("output_voltage", toFloat (f.getD 0 [])),
       ("output_frequency", toFloat (f.getD 1 [])),
       ("output_apparent_power", toInt (f.getD 2 [])),
       ("output_active_power", toInt (f.getD 3 [])),
       ("load_percent", toInt (f.getD 4 []))])
  else none

def matchGrid (f : List Field) : Option Readings :=
  if f.length == 10 && reMatch reVolt3 (f.getD 0 []) && reMatch reSigned (f.getD 6 []) then
    some (.ofList
      [("grid_voltage", toFloat (f.getD 0 [])),
       ("grid_frequency", toFloat (f.getD 1 [])),
       ("grid_power", toInt (f.getD 6 []))])
  else none

def matchBattery (f : List Field) : Option Readings :=
  if 5 ≤ f.length && reMatch reInt2 (f.getD 0 []) && reMatch reVolt3 (f.getD 1 []) then
    some (.ofList
      [("battery_count_series", toInt (f.getD 0 [])),
       ("battery_voltage", toFloat (f.getD 1 [])),
       ("battery_soc", toInt (f.getD 2 [])),
       ("battery_charge_current", toInt (f.getD 3 [])),
       ("battery_discharge_current", toInt (f.getD 4 []))])
  else none

def matchTemperature (f : List Field) : Option Readings :=
  if 8 ≤ f.length && (f.take 7).all (reMatch reInt3) && reMatch reLongmask (f.getLastD []) then
    some (.ofList [("inverter_temperature", toInt (f.getD 0 []))])
  else none

/-- The six kinds of telemetry block. -/
inductive Block where
  | energy
  | pv
  | load
  | grid
  | battery
  | temperature
  deriving DecidableEq

/-- The matcher of a block. -/
def Block.matcher : Block → List Field → Option Readings
  | energy => matchEnergy
  | pv => matchPv
  | load => matchLoad
  | grid => matchGrid
  | battery => matchBattery
  | temperature => matchTemperature

/-- The order the matchers are tried in. -/
def matchers : List Block := [.energy, .pv, .load, .grid, .battery, .temperature]

/-! ## Decoding -/

/-- Decode one text with the matchers in a given order. -/
def decodeFrameWith (order : List Block) (text : List Char) : Option (Dict String Json) :=
  let fields := splitFrame text
  if fields.isEmpty then none
  else (order.findSome? fun b => b.matcher fields).map Dict.dropNone

/-- Decode one telemetry text into named values, or `none` if unmatched. -/
def decodeFrame (text : List Char) : Option (Dict String Json) := decodeFrameWith matchers text

/-- What one `ct` entry amounts to: nothing, values, or an alias to log. -/
inductive Reading where
  | skipped
  | decoded (values : Dict String Json)
  | unmatched (cn : Json)

/-- The body of the loop over a `ct` array, up to its effect on the accumulators. -/
def readEntry (entry : Json) : Except PyError Reading := do
  let co ← entry.getAttr "co"
  if !co.truthy then return .skipped
  match decodeCo co with
  | .error .valueError => return .unmatched (← entry.getDefault "cn" (.str "?"))
  | .error .typeError => return .unmatched (← entry.getDefault "cn" (.str "?"))
  | .error err => throw err
  | .ok text =>
      match decodeFrame text with
      | some decoded =>
          if decoded.isEmpty then return .unmatched (← entry.getDefault "cn" (.str "?"))
          else return .decoded decoded
      | none => return .unmatched (← entry.getDefault "cn" (.str "?"))

/-- The accumulators of `decodeCt`: the values and the unmatched aliases. -/
abbrev Decoded := Dict String Json × List Json

/-- `values.update(..)` or `unmatched.append(..)`. -/
def Reading.apply (acc : Decoded) : Reading → Decoded
  | skipped => acc
  | decoded values => (acc.1.update values, acc.2)
  | unmatched cn => (acc.1, acc.2 ++ [cn])

/-- Decode a `ct` array into a flat value dictionary and the unmatched aliases. -/
def decodeCt (ct : List Json) : Except PyError Decoded :=
  ct.foldlM (fun acc entry => (readEntry entry).map (Reading.apply acc)) (.empty, [])

/-- `str(raw) in SOLAR_CHARGING_SWITCH_ON`: the members are digit strings, which
only a string or an integer prints as. -/
def isSwitchOn : Json → Bool
  | .str s => solarChargingSwitchOn.contains s
  | .int n => solarChargingSwitchOn.contains (toString n)
  | _ => false

/-- Normalise raw enumeration telemetry into booleans. -/
def deriveBinaryState (values : Dict String Json) : Dict String Json :=
  match values.get "solar_charging_switch" with
  | some raw => values.set "solar_charging_switch" (.bool (isSwitchOn raw))
  | none => values

end SotRwb1
