import Mathlib.Data.List.Infix
import SotRwb1.Lib.Base64
import SotRwb1.Lib.JsonText
import SotRwb1.Lib.Utf8
import SotRwb1.Const

/-!
# The wire codec

Envelopes, the checksummed `ci` payload of a write, the base64 `co` of a reply,
and the formatting of setting values.  Functions that raise return `Except`.
Random tokens and nonces are not computed here: a `Draws` carries what
`gen_token()` and `gen_nonce()` return, and what writing the envelope depends on.

## Main definitions

* `crc16Xmodem` — the write checksum.
* `buildEnvelope`, `encodeEnvelope`, `parseEnvelope` — the JSON envelope.
* `buildReadCi`, `buildWriteCi` — request payloads.
* `decodeCo`, `coIsAck`, `coIsNak` — reply payloads.
* `formatValue` — a setting value on the wire.
-/

namespace SotRwb1

open PyLib

/-! ## Checksum -/

/-- One iteration of the inner loop: shift, add the polynomial when bit 15 was
set, keep sixteen bits. -/
def crcShift (crc : ℕ) : ℕ :=
  (if crc &&& 0x8000 ≠ 0 then (crc <<< 1) ^^^ 0x1021 else crc <<< 1) &&& 0xFFFF

/-- CRC-16/XMODEM: polynomial `0x1021`, initial value `0`. -/
def crc16Xmodem (data : List UInt8) : ℕ :=
  data.foldl (fun crc byte => crcShift^[8] (crc ^^^ (byte.toNat <<< 8))) 0

/-! ## Envelopes -/

/-- What the random source returns while one envelope is built, and the encoder it is
written with. -/
structure Draws where
  token : String
  nonce : String
  encoder : Encoder

/-- Assemble an outgoing envelope; a missing or falsy token is drawn, and `e` is
only set on replies. -/
def buildEnvelope (c body i : Json) (token : Json) (e : Option ℤ) (draws : Draws) : Json :=
  .obj ([("c", c), ("t", if token.truthy then token else .str draws.token),
    ("s", .str draws.nonce), ("i", i), ("b", body)] ++
    match e with
    | some n => [("e", .int n)]
    | none => [])

/-- `encode_envelope(env)`, for an interpreter that goes this deep and writes floats
like this. -/
def encodeEnvelope (repr : PyFloat → List Char) (limit : ℕ) (env : Json) :
    Except PyError (List UInt8) :=
  (dumps repr limit env).map encodeUtf8

/-- The payload an envelope is published as. -/
def Draws.encode (draws : Draws) (env : Json) : Except PyError (List UInt8) :=
  encodeEnvelope draws.encoder.repr draws.encoder.limit env

/-- Parse an incoming payload, given what `json.loads` does with it: only an
object is an envelope, and malformed text is no envelope. -/
def parseEnvelope (loaded : Except PyError Json) : Except PyError (Option Json) :=
  match loaded with
  | .ok data => .ok (if data.isObj then some data else none)
  | .error .valueError => .ok none
  | .error .typeError => .ok none
  | .error err => .error err

/-! ## Request and reply payloads -/

/-- `s.encode("ascii")`. -/
def encodeAscii (s : List Char) : Except PyError (List UInt8) :=
  if s.all (·.toNat < 128) then .ok (s.map fun c => UInt8.ofNat c.toNat) else .error .valueError

/-- `raw.decode("ascii", "replace")`. -/
def decodeAscii (raw : List UInt8) : List Char :=
  raw.map fun b => if b.toNat < 128 then Char.ofNat b.toNat else '\uFFFD'

/-- `n.to_bytes(2, "big")`. -/
def toBytes2 (n : ℕ) : Except PyError (List UInt8) :=
  if n < 2 ^ 16 then .ok [UInt8.ofNat (n / 256), UInt8.ofNat (n % 256)] else .error .overflowError

/-- A read request: the channel and a carriage return, without checksum. -/
def buildReadCi (channel : String) : Except PyError String := do
  let frame ← encodeAscii (channel.toList ++ ['\r'])
  return String.ofList (Base64.encode frame)

/-- A write request: channel, value, big-endian checksum of both, carriage return. -/
def buildWriteCi (channel value : String) : Except PyError String := do
  let data ← encodeAscii (channel.toList ++ value.toList)
  let crc ← toBytes2 (crc16Xmodem data)
  return String.ofList (Base64.encode (data ++ crc ++ [0x0D]))

/-- The text of a `co`.  Anything but a string is a `TypeError`; a string that is
not ASCII or leaves a base64 quantum open is a `ValueError`. -/
def decodeCo (co : Json) : Except PyError (List Char) :=
  match co with
  | .str s =>
      if s.toList.all (·.toNat < 128) then
        match Base64.decode s.toList with
        | some raw => .ok (decodeAscii raw)
        | none => .error .valueError
      else .error .valueError
  | _ => .error .typeError

/-- `word in text`. -/
def occursIn (word text : List Char) : Bool := word <:+: text

def hasAck (text : List Char) : Bool := occursIn ['A', 'C', 'K'] text

def hasNak (text : List Char) : Bool := occursIn ['N', 'A', 'K'] text

/-- Whether a write reply indicates success. -/
def coIsAck (co : Json) : Except PyError Bool := (decodeCo co).map hasAck

/-- Whether a write reply indicates rejection. -/
def coIsNak (co : Json) : Except PyError Bool := (decodeCo co).map hasNak

/-! ## Setting values -/

/-- `int(round(value))`. -/
def intRound : PyFloat → Except PyError ℤ
  | .finite q => .ok (roundHalfEven q)
  | .infinite _ => .error .overflowError
  | .nan => .error .valueError

/-- `f"{value:.{places}f}"`. -/
def formatFloat (places : ℕ) : PyFloat → List Char
  | .finite q => formatFixed places q
  | .infinite negative => if negative then ['-', 'i', 'n', 'f'] else ['i', 'n', 'f']
  | .nan => ['n', 'a', 'n']

/-- Encode a setting value; a value off the step of 5 is refused when `step5` is
set, and so is an unknown format. -/
def formatValue (fmt : String) (value : PyFloat) (step5 : Bool) : Except PyError String := do
  if step5 then
    let n ← intRound value
    if n % 5 ≠ 0 then throw .valueError
  if fmt = "v1" then return String.ofList (formatFloat 1 value)
  if fmt = "v2" then return String.ofList (formatFloat 2 value)
  if fmt = "i3" then return String.ofList (formatPadded 3 (← intRound value))
  if fmt = "i4" then return String.ofList (formatPadded 4 (← intRound value))
  throw .valueError

end SotRwb1
