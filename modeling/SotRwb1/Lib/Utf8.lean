import Mathlib.Tactic.Ring
import SotRwb1.Lib.Text

/-!
# UTF-8

`decodeUtf8` undoes the encoding of every text.  On bytes that are no UTF-8 it never
invents an ASCII character: each one it returns stands for a byte of its own.

## Main definitions

* `encodeUtf8`, `decodeUtf8_encodeUtf8` — `text.encode("utf-8")` and the round trip.
* `countP_decodeUtf8` — ASCII characters come from ASCII bytes.
-/

namespace PyLib

/-- `text.encode("utf-8")`. -/
def encodeUtf8 (text : List Char) : List UInt8 := text.flatMap String.utf8EncodeChar

/-! ## One byte -/

theorem toNat_ofNat_byte {n : ℕ} (h : n < 256) : (UInt8.ofNat n).toNat = n := by
  rw [UInt8.toNat_ofNat']
  omega

theorem decodeUtf8From_ascii {b : UInt8} (h : b.toNat < 0x80) (rest : List UInt8) :
    decodeUtf8From 0 [] (b :: rest) = Char.ofNat b.toNat :: decodeUtf8From 0 [] rest := by
  have hlead : utf8Lead b.toNat = some (b.toNat, []) := if_pos h
  rw [decodeUtf8From, hlead]

theorem decodeUtf8From_lead {b : UInt8} {v : ℕ} {range : ℕ × ℕ} {ranges : List (ℕ × ℕ)}
    (h : utf8Lead b.toNat = some (v, range :: ranges)) (rest : List UInt8) :
    decodeUtf8From 0 [] (b :: rest) = decodeUtf8From v (range :: ranges) rest := by
  rw [decodeUtf8From, h]

theorem decodeUtf8From_next {b : UInt8} {v low high : ℕ} {range : ℕ × ℕ}
    {ranges : List (ℕ × ℕ)} (hlow : low ≤ b.toNat) (hhigh : b.toNat ≤ high) (rest : List UInt8) :
    decodeUtf8From v ((low, high) :: range :: ranges) (b :: rest) =
      decodeUtf8From (v * 64 + b.toNat % 64) (range :: ranges) rest := by
  rw [decodeUtf8From]
  simp only [hlow, hhigh, and_self, if_true, List.isEmpty_cons, Bool.false_eq_true, if_false]

theorem decodeUtf8From_last {b : UInt8} {v low high : ℕ} (hlow : low ≤ b.toNat)
    (hhigh : b.toNat ≤ high) (rest : List UInt8) :
    decodeUtf8From v [(low, high)] (b :: rest) =
      Char.ofNat (v * 64 + b.toNat % 64) :: decodeUtf8From 0 [] rest := by
  rw [decodeUtf8From]
  simp only [hlow, hhigh, and_self, if_true, List.isEmpty_nil]

/-! ## Round trip -/

/-- The bytes of a character, by its code point. -/
theorem utf8EncodeChar_eq (c : Char) :
    String.utf8EncodeChar c =
      if c.toNat ≤ 0x7F then [UInt8.ofNat c.toNat]
      else if c.toNat ≤ 0x7FF then
        [UInt8.ofNat (c.toNat / 64 % 0x20 + 0xC0), UInt8.ofNat (c.toNat % 0x40 + 0x80)]
      else if c.toNat ≤ 0xFFFF then
        [UInt8.ofNat (c.toNat / 4096 % 0x10 + 0xE0), UInt8.ofNat (c.toNat / 64 % 0x40 + 0x80),
          UInt8.ofNat (c.toNat % 0x40 + 0x80)]
      else
        [UInt8.ofNat (c.toNat / 262144 % 0x08 + 0xF0), UInt8.ofNat (c.toNat / 4096 % 0x40 + 0x80),
          UInt8.ofNat (c.toNat / 64 % 0x40 + 0x80), UInt8.ofNat (c.toNat % 0x40 + 0x80)] := rfl

/-- What the lead byte of two announces: nothing overlong. -/
theorem utf8Lead_two : ∀ n < 0x1E, utf8Lead (n + 0xC2) = some (n + 2, [(0x80, 0xBF)]) := by
  decide

/-- What the lead byte of three announces: nothing overlong and no surrogate. -/
theorem utf8Lead_three : ∀ n < 0x10, utf8Lead (n + 0xE0) =
    some (n, [(if n = 0 then 0xA0 else 0x80, if n = 0xD then 0x9F else 0xBF), (0x80, 0xBF)]) := by
  decide

/-- What the lead byte of four announces: nothing overlong and nothing out of range. -/
theorem utf8Lead_four : ∀ n < 5, utf8Lead (n + 0xF0) =
    some (n, [(if n = 0 then 0x90 else 0x80, if n = 4 then 0x8F else 0xBF), (0x80, 0xBF),
      (0x80, 0xBF)]) := by
  decide

/-- The bytes of a character are read as this character. -/
theorem decodeUtf8From_encodeChar (c : Char) (rest : List UInt8) :
    decodeUtf8From 0 [] (String.utf8EncodeChar c ++ rest) = c :: decodeUtf8From 0 [] rest := by
  have hvalid : c.toNat < 0xD800 ∨ 0xDFFF < c.toNat ∧ c.toNat < 0x110000 := c.valid
  have hchar : ∀ n, n = c.toNat → Char.ofNat n = c := by
    rintro n rfl
    exact Char.ofNat_toNat c
  rw [utf8EncodeChar_eq]
  split
  · have hbyte := toNat_ofNat_byte (n := c.toNat) (by omega)
    rw [List.singleton_append, decodeUtf8From_ascii (by omega), hchar _ hbyte]
  split
  · have ha := toNat_ofNat_byte (n := c.toNat / 64 % 0x20 + 0xC0) (by omega)
    have hb := toNat_ofNat_byte (n := c.toNat % 0x40 + 0x80) (by omega)
    have hlead := utf8Lead_two (c.toNat / 64 % 0x20 - 2) (by omega)
    have hfirst : c.toNat / 64 % 0x20 - 2 + 0xC2 = c.toNat / 64 % 0x20 + 0xC0 := by omega
    rw [hfirst, ← ha] at hlead
    rw [List.cons_append, List.singleton_append, decodeUtf8From_lead hlead,
      decodeUtf8From_last (by omega) (by omega), hb, hchar]
    omega
  split
  · have ha := toNat_ofNat_byte (n := c.toNat / 4096 % 0x10 + 0xE0) (by omega)
    have hb := toNat_ofNat_byte (n := c.toNat / 64 % 0x40 + 0x80) (by omega)
    have hc := toNat_ofNat_byte (n := c.toNat % 0x40 + 0x80) (by omega)
    have hlead := utf8Lead_three (c.toNat / 4096 % 0x10) (by omega)
    rw [← ha] at hlead
    rw [List.cons_append, List.cons_append, List.singleton_append, decodeUtf8From_lead hlead,
      decodeUtf8From_next (by rw [hb]; split <;> omega) (by rw [hb]; split <;> omega),
      decodeUtf8From_last (by omega) (by omega), hb, hc, hchar]
    omega
  · have ha := toNat_ofNat_byte (n := c.toNat / 262144 % 0x08 + 0xF0) (by omega)
    have hb := toNat_ofNat_byte (n := c.toNat / 4096 % 0x40 + 0x80) (by omega)
    have hc := toNat_ofNat_byte (n := c.toNat / 64 % 0x40 + 0x80) (by omega)
    have hd := toNat_ofNat_byte (n := c.toNat % 0x40 + 0x80) (by omega)
    have hlead := utf8Lead_four (c.toNat / 262144 % 0x08) (by omega)
    rw [← ha] at hlead
    rw [List.cons_append, List.cons_append, List.cons_append, List.singleton_append,
      decodeUtf8From_lead hlead,
      decodeUtf8From_next (by rw [hb]; split <;> omega) (by rw [hb]; split <;> omega),
      decodeUtf8From_next (by omega) (by omega), decodeUtf8From_last (by omega) (by omega), hb, hc,
      hd, hchar]
    omega

/-- **Round trip.**  Decoding undoes encoding. -/
theorem decodeUtf8_encodeUtf8 (text : List Char) : decodeUtf8 (encodeUtf8 text) = text := by
  induction text with
  | nil => rfl
  | cons c text ih =>
      rw [decodeUtf8, encodeUtf8] at ih ⊢
      rw [List.flatMap_cons, decodeUtf8From_encodeChar, ih]

/-! ## ASCII characters -/

/-- In the middle of a character, whatever bytes complete it, it is none of ASCII. -/
def AboveAscii (value : ℕ) : List (ℕ × ℕ) → Prop
  | [] => True
  | (low, high) :: ranges =>
      0x80 ≤ low ∧ high < 0xC0 ∧ 0x80 ≤ (value * 64 + low % 64) * 64 ^ ranges.length ∧
        ∀ range ∈ ranges, range = (0x80, 0xBF)

/-- The last byte of a character, when the bytes before it say enough. -/
theorem aboveAscii_last {value : ℕ} (h : 2 ≤ value) : AboveAscii value [(0x80, 0xBF)] := by
  rw [AboveAscii, List.length_nil, pow_zero, mul_one]
  refine ⟨by omega, by omega, by omega, by simp⟩

theorem aboveAscii_cons {value low high : ℕ} {ranges : List (ℕ × ℕ)} (hlow : 0x80 ≤ low)
    (hhigh : high < 0xC0) (hvalue : 0x80 ≤ (value * 64 + low % 64) * 64)
    (hranges : ∀ range ∈ ranges, range = (0x80, 0xBF)) (hne : ranges ≠ []) :
    AboveAscii value ((low, high) :: ranges) := by
  obtain ⟨range, tail, rfl⟩ := List.exists_cons_of_ne_nil hne
  rw [AboveAscii, List.length_cons, pow_succ']
  refine ⟨hlow, hhigh, ?_, hranges⟩
  calc 0x80 ≤ (value * 64 + low % 64) * 64 * 1 := by omega
    _ ≤ (value * 64 + low % 64) * 64 * 64 ^ tail.length :=
        Nat.mul_le_mul_left _ (Nat.one_le_pow _ _ (by omega))
    _ = (value * 64 + low % 64) * (64 * 64 ^ tail.length) := by ring

theorem aboveAscii_utf8Lead {b v : ℕ} {range : ℕ × ℕ} {ranges : List (ℕ × ℕ)}
    (h : utf8Lead b = some (v, range :: ranges)) : AboveAscii v (range :: ranges) := by
  rw [utf8Lead] at h
  split at h
  · cases h
  split at h
  · cases h
  split at h
  · simp only [Option.some.injEq, Prod.mk.injEq, List.cons.injEq] at h
    obtain ⟨rfl, rfl, rfl⟩ := h
    exact aboveAscii_last (by omega)
  split at h
  · simp only [Option.some.injEq, Prod.mk.injEq, List.cons.injEq] at h
    obtain ⟨rfl, rfl, rfl⟩ := h
    split
    · exact aboveAscii_cons (by omega) (by omega) (by omega) (by simp) (by simp)
    split
    · exact aboveAscii_cons (by omega) (by omega) (by omega) (by simp) (by simp)
    · exact aboveAscii_cons (by omega) (by omega) (by omega) (by simp) (by simp)
  split at h
  · simp only [Option.some.injEq, Prod.mk.injEq, List.cons.injEq] at h
    obtain ⟨rfl, rfl, rfl⟩ := h
    split
    · exact aboveAscii_cons (by omega) (by omega) (by omega) (by simp) (by simp)
    split
    · exact aboveAscii_cons (by omega) (by omega) (by omega) (by simp) (by simp)
    · exact aboveAscii_cons (by omega) (by omega) (by omega) (by simp) (by simp)
  · cases h

/-- Only an ASCII byte is a character alone. -/
theorem ascii_of_utf8Lead {b v : ℕ} (h : utf8Lead b = some (v, [])) : b < 0x80 := by
  rw [utf8Lead] at h
  split at h
  · assumption
  split at h
  · cases h
  split at h
  · simp at h
  split at h
  · simp at h
  split at h
  · simp at h
  · cases h

/-- A continuation byte adds at least what the least one adds. -/
theorem AboveAscii.value_le {value low high : ℕ} {ranges : List (ℕ × ℕ)}
    (h : AboveAscii value ((low, high) :: ranges)) {b : ℕ} (hlow : low ≤ b) (hhigh : b ≤ high) :
    0x80 ≤ (value * 64 + b % 64) * 64 ^ ranges.length := by
  obtain ⟨hfrom, hto, habove, -⟩ := h
  have hmod : low % 64 ≤ b % 64 := by omega
  exact habove.trans (Nat.mul_le_mul_right _ (by omega))

theorem AboveAscii.next {value low high : ℕ} {range : ℕ × ℕ} {ranges : List (ℕ × ℕ)}
    (h : AboveAscii value ((low, high) :: range :: ranges)) {b : ℕ} (hlow : low ≤ b)
    (hhigh : b ≤ high) : AboveAscii (value * 64 + b % 64) (range :: ranges) := by
  have habove := h.value_le hlow hhigh
  obtain ⟨-, -, -, hranges⟩ := h
  obtain rfl := hranges range (by simp)
  refine ⟨by decide, by decide, ?_, fun r hr => hranges r (by simp [hr])⟩
  rw [List.length_cons, pow_succ'] at habove
  calc 0x80 ≤ (value * 64 + b % 64) * (64 * 64 ^ ranges.length) := habove
    _ = ((value * 64 + b % 64) * 64 + 0x80 % 64) * 64 ^ ranges.length := by ring

/-- Code points from this one on are no ASCII characters. -/
theorem ofNat_above {p : Char → Bool} (hp : ∀ c, p c = true → 0 < c.toNat ∧ c.toNat < 0x80)
    {n : ℕ} (h : 0x80 ≤ n) : p (Char.ofNat n) = false := by
  rw [← Bool.not_eq_true]
  intro hn
  obtain ⟨hpos, hlt⟩ := hp _ hn
  by_cases hvalid : n.isValidChar
  · have hchar : Char.ofNat n = Char.ofNatAux n hvalid := dif_pos hvalid
    rw [hchar] at hlt
    exact absurd hlt (Nat.not_lt.mpr h)
  · have hchar : Char.ofNat n = '\x00' := dif_neg hvalid
    rw [hchar] at hpos
    cases hpos

/-- A class of ASCII characters has as many members in the text as among the bytes. -/
theorem countP_decodeUtf8From {p : Char → Bool}
    (hp : ∀ c, p c = true → 0 < c.toNat ∧ c.toNat < 0x80) (value : ℕ) (expected : List (ℕ × ℕ))
    (h : AboveAscii value expected) (payload : List UInt8) :
    (decodeUtf8From value expected payload).countP p =
      payload.countP fun b => p (Char.ofNat b.toNat) := by
  have hreplacement : p '\uFFFD' = false := ofNat_above hp (n := 0xFFFD) (by decide)
  induction payload generalizing value expected with
  | nil =>
      rw [decodeUtf8From]
      split
      · rfl
      · simp [hreplacement]
  | cons b rest ih =>
      have hstart := ih 0 [] (by trivial)
      have hlead : (decodeUtf8From 0 [] (b :: rest)).countP p =
          (b :: rest).countP fun b => p (Char.ofNat b.toNat) := by
        by_cases hascii : b.toNat < 0x80
        · rw [decodeUtf8From_ascii hascii, List.countP_cons, List.countP_cons, hstart]
        · rw [List.countP_cons_of_neg (by simp [ofNat_above hp (not_lt.mp hascii)])]
          cases hb : utf8Lead b.toNat with
          | none =>
              rw [decodeUtf8From, hb]
              dsimp only
              rw [List.countP_cons_of_neg (by simp [hreplacement]), hstart]
          | some announced =>
              obtain ⟨v, _ | ⟨range, ranges⟩⟩ := announced
              · exact absurd (ascii_of_utf8Lead hb) hascii
              · rw [decodeUtf8From_lead hb]
                exact ih _ _ (aboveAscii_utf8Lead hb)
      cases expected with
      | nil => exact hlead
      | cons range ranges =>
          obtain ⟨low, high⟩ := range
          rw [decodeUtf8From]
          split
          · rename_i hrange
            have hb : p (Char.ofNat b.toNat) = false := ofNat_above hp (h.1.trans hrange.1)
            rw [List.countP_cons_of_neg (by simp [hb])]
            split
            · rename_i hlast
              obtain rfl := List.isEmpty_iff.mp hlast
              have habove := h.value_le hrange.1 hrange.2
              rw [List.countP_cons_of_neg, hstart]
              rw [ofNat_above hp (by simpa using habove)]
              simp
            · rename_i hmore
              obtain ⟨range, tail, rfl⟩ :=
                List.exists_cons_of_ne_nil (mt List.isEmpty_iff.mpr hmore)
              exact ih _ _ (h.next hrange.1 hrange.2)
          · rw [List.countP_cons_of_neg (by simp [hreplacement])]
            exact hlead

/-- **ASCII.**  Decoding yields as many characters of a class within ASCII as there are
bytes that stand for one. -/
theorem countP_decodeUtf8 {p : Char → Bool}
    (hp : ∀ c, p c = true → 0 < c.toNat ∧ c.toNat < 0x80) (payload : List UInt8) :
    (decodeUtf8 payload).countP p = payload.countP fun b => p (Char.ofNat b.toNat) :=
  countP_decodeUtf8From hp 0 [] (by trivial) payload

end PyLib
