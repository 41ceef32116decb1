import Mathlib.Data.List.Basic

/-!
# Base64

The standard base64 encoding, and the lenient decoder of Python's
`base64.b64decode` without validation: characters outside the alphabet are
skipped, padding ends the text only where a quantum can be closed, and a text
that leaves a quantum open is refused.

`decode_encode` is the round trip.

## Main definitions

* `encode` — bytes to characters, with padding.
* `decode` — characters to bytes, `none` for a `binascii.Error`.
-/

namespace Base64

def alphabet : List Char :=
  "ABCDEFGHIJKLMNOPQRSTUVWXYZabcdefghijklmnopqrstuvwxyz0123456789+/".toList

/-- The character of a six-bit value. -/
def sextetChar (v : ℕ) : Char := alphabet.getD v '='

/-- The six-bit value of a character of the alphabet. -/
def charSextet (c : Char) : Option ℕ := alphabet.idxOf? c

/-- Three bytes at a time, the last quantum padded with `=`. -/
def encode : List UInt8 → List Char
  | [] => []
  | [a] => [sextetChar (a.toNat / 4), sextetChar (a.toNat % 4 * 16), '=', '=']
  | [a, b] =>
      [sextetChar (a.toNat / 4), sextetChar (a.toNat % 4 * 16 + b.toNat / 16),
        sextetChar (b.toNat % 16 * 4), '=']
  | a :: b :: c :: rest =>
      sextetChar (a.toNat / 4) :: sextetChar (a.toNat % 4 * 16 + b.toNat / 16) ::
        sextetChar (b.toNat % 16 * 4 + c.toNat / 64) :: sextetChar (c.toNat % 64) :: encode rest

/-- The decoder's loop: `quad` characters of the current quantum are read, `left`
are the bits of it not yet emitted, `pads` the padding seen since. -/
def decodeLoop (quad left pads : ℕ) : List Char → Option (List UInt8)
  | [] => if quad = 0 then some [] else none
  | c :: rest =>
      if c = '=' then
        if 2 ≤ quad then
          if 4 ≤ quad + (pads + 1) then some [] else decodeLoop quad left (pads + 1) rest
        else decodeLoop quad left pads rest
      else
        match charSextet c with
        | none => decodeLoop quad left pads rest
        | some v =>
            if quad = 0 then decodeLoop 1 v 0 rest
            else if quad = 1 then
              (decodeLoop 2 (v % 16) 0 rest).map (UInt8.ofNat (left * 4 + v / 16) :: ·)
            else if quad = 2 then
              (decodeLoop 3 (v % 4) 0 rest).map (UInt8.ofNat (left * 16 + v / 4) :: ·)
            else (decodeLoop 0 0 0 rest).map (UInt8.ofNat (left * 64 + v) :: ·)

/-- `binascii.a2b_base64`. -/
def decode (s : List Char) : Option (List UInt8) := decodeLoop 0 0 0 s

/-! ## Round trip -/

theorem charSextet_sextetChar {v : ℕ} (hv : v < 64) :
    sextetChar v ≠ '=' ∧ charSextet (sextetChar v) = some v := by
  have h : ∀ w : Fin 64, sextetChar w ≠ '=' ∧ charSextet (sextetChar w) = some w.val := by
    decide +kernel
  exact h ⟨v, hv⟩

section quantum

variable {v : ℕ} (hv : v < 64) (left pads : ℕ) (rest : List Char)
include hv

theorem decodeLoop_first :
    decodeLoop 0 left pads (sextetChar v :: rest) = decodeLoop 1 v 0 rest := by
  have h := charSextet_sextetChar hv
  rw [decodeLoop, if_neg h.1, h.2]
  rfl

theorem decodeLoop_second :
    decodeLoop 1 left pads (sextetChar v :: rest) =
      (decodeLoop 2 (v % 16) 0 rest).map (UInt8.ofNat (left * 4 + v / 16) :: ·) := by
  have h := charSextet_sextetChar hv
  rw [decodeLoop, if_neg h.1, h.2]
  rfl

theorem decodeLoop_third :
    decodeLoop 2 left pads (sextetChar v :: rest) =
      (decodeLoop 3 (v % 4) 0 rest).map (UInt8.ofNat (left * 16 + v / 4) :: ·) := by
  have h := charSextet_sextetChar hv
  rw [decodeLoop, if_neg h.1, h.2]
  rfl

theorem decodeLoop_fourth :
    decodeLoop 3 left pads (sextetChar v :: rest) =
      (decodeLoop 0 0 0 rest).map (UInt8.ofNat (left * 64 + v) :: ·) := by
  have h := charSextet_sextetChar hv
  rw [decodeLoop, if_neg h.1, h.2]
  rfl

end quantum

theorem ofNat_eq {a : UInt8} {n : ℕ} (h : n = a.toNat) : UInt8.ofNat n = a := by
  rw [h, UInt8.ofNat_toNat]

/-- Decoding gives back the encoded bytes. -/
theorem decode_encode (bs : List UInt8) : decode (encode bs) = some bs := by
  unfold decode
  induction bs using encode.induct with
  | case1 => rfl
  | case2 a =>
      have ha := a.toNat_lt
      have hbyte : UInt8.ofNat (a.toNat / 4 * 4 + a.toNat % 4 * 16 / 16) = a := ofNat_eq (by omega)
      rw [encode, decodeLoop_first (by omega), decodeLoop_second (by omega), hbyte]
      rfl
  | case3 a b =>
      have ha := a.toNat_lt
      have hb := b.toNat_lt
      have hbyte₁ : UInt8.ofNat (a.toNat / 4 * 4 + (a.toNat % 4 * 16 + b.toNat / 16) / 16) = a :=
        ofNat_eq (by omega)
      have hbyte₂ : UInt8.ofNat ((a.toNat % 4 * 16 + b.toNat / 16) % 16 * 16 +
          b.toNat % 16 * 4 / 4) = b := ofNat_eq (by omega)
      rw [encode, decodeLoop_first (by omega), decodeLoop_second (by omega),
        decodeLoop_third (by omega), hbyte₁, hbyte₂]
      rfl
  | case4 a b c rest ih =>
      have ha := a.toNat_lt
      have hb := b.toNat_lt
      have hc := c.toNat_lt
      have hbyte₁ : UInt8.ofNat (a.toNat / 4 * 4 + (a.toNat % 4 * 16 + b.toNat / 16) / 16) = a :=
        ofNat_eq (by omega)
      have hbyte₂ : UInt8.ofNat ((a.toNat % 4 * 16 + b.toNat / 16) % 16 * 16 +
          (b.toNat % 16 * 4 + c.toNat / 64) / 4) = b := ofNat_eq (by omega)
      have hbyte₃ : UInt8.ofNat ((b.toNat % 16 * 4 + c.toNat / 64) % 4 * 64 + c.toNat % 64) = c :=
        ofNat_eq (by omega)
      rw [encode, decodeLoop_first (by omega), decodeLoop_second (by omega),
        decodeLoop_third (by omega), decodeLoop_fourth (by omega), ih, hbyte₁, hbyte₂, hbyte₃]
      rfl

end Base64
