import Mathlib.Data.List.DropRight

/-!
# Python text

A text is a list of characters.  This module holds the parts of Python's `str`
that a field-based decoder uses: the character classes behind `\d`, `isdigit`
and `isspace` (Unicode 16), stripping, splitting on the space character,
`re.match` for patterns `^…$` that are a concatenation of counted character
classes, and decoding from UTF-8 with replacement.

## Main definitions

* `decodeUtf8` — `bytes.decode("utf-8", "replace")`.
* `decimalValue`, `isDecimal`, `isDigit`, `isSpace` — character classes.
* `strip`, `rstripChars`, `splitSpaces` — trimming and splitting.
* `Piece`, `fullMatch`, `reMatch` — counted classes and `re.match`.
-/

namespace PyLib

/-! ## UTF-8 -/

/-- What a first byte announces: the bits it contributes and the ranges of the bytes
that are to follow; `none` when no character starts with it. -/
def utf8Lead (b : ℕ) : Option (ℕ × List (ℕ × ℕ)) :=
  if b < 0x80 then some (b, [])
  else if b < 0xC2 then none
  else if b < 0xE0 then some (b - 0xC0, [(0x80, 0xBF)])
  else if b < 0xF0 then
    some (b - 0xE0, [if b = 0xE0 then (0xA0, 0xBF) else if b = 0xED then (0x80, 0x9F)
      else (0x80, 0xBF), (0x80, 0xBF)])
  else if b < 0xF5 then
    some (b - 0xF0, [if b = 0xF0 then (0x90, 0xBF) else if b = 0xF4 then (0x80, 0x8F)
      else (0x80, 0xBF), (0x80, 0xBF), (0x80, 0xBF)])
  else none

/-- Decode from the middle of a character: the bits read so far and the ranges still
to follow.  What breaks off is replaced, and the byte that broke it off is read anew. -/
def decodeUtf8From (value : ℕ) (expected : List (ℕ × ℕ)) : List UInt8 → List Char
  | [] => if expected.isEmpty then [] else ['\uFFFD']
  | b :: rest =>
      let lead :=
        match utf8Lead b.toNat with
        | some (v, []) => Char.ofNat v :: decodeUtf8From 0 [] rest
        | some (v, ranges) => decodeUtf8From v ranges rest
        | none => '\uFFFD' :: decodeUtf8From 0 [] rest
      match expected with
      | [] => lead
      | (low, high) :: ranges =>
          if low ≤ b.toNat ∧ b.toNat ≤ high then
            if ranges.isEmpty then
              Char.ofNat (value * 64 + b.toNat % 64) :: decodeUtf8From 0 [] rest
            else decodeUtf8From (value * 64 + b.toNat % 64) ranges rest
          else '\uFFFD' :: lead

/-- `payload.decode("utf-8", "replace")`. -/
def decodeUtf8 (payload : List UInt8) : List Char := decodeUtf8From 0 [] payload

/-- ASCII bytes are their own characters. -/
theorem decodeUtf8_ascii {payload : List UInt8} (h : ∀ b ∈ payload, b.toNat < 128) :
    decodeUtf8 payload = payload.map fun b => Char.ofNat b.toNat := by
  induction payload with
  | nil => rfl
  | cons b rest ih =>
      have hlead : utf8Lead b.toNat = some (b.toNat, []) := if_pos (h b (by simp))
      have hrest := ih fun b' hb' => h b' (by simp [hb'])
      rw [decodeUtf8, decodeUtf8From, hlead, List.map_cons, ← hrest]
      rfl

/-- A character of each length, and bytes that break off, are overlong, or stand for
no character. -/
example : decodeUtf8 [0x7A, 0xC3, 0xA9, 0xE2, 0x82, 0xAC, 0xF0, 0x9F, 0x98, 0x80, 0xE2, 0x82, 0x7A,
    0xC0, 0xAF, 0xED, 0xA0, 0x80, 0xF0, 0x9F] =
      [0x7A, 0xE9, 0x20AC, 0x1F600, 0xFFFD, 0x7A, 0xFFFD, 0xFFFD, 0xFFFD, 0xFFFD, 0xFFFD,
        0xFFFD].map Char.ofNat := by
  decide

/-! ## Character classes -/

/-- The code points of the zeros of the decimal digits (category `Nd`); the
other nine digits of a script follow its zero. -/
def decimalZeros : List ℕ :=
  [0x30, 0x660, 0x6F0, 0x7C0, 0x966, 0x9E6, 0xA66, 0xAE6, 0xB66, 0xBE6, 0xC66, 0xCE6, 0xD66,
   0xDE6, 0xE50, 0xED0, 0xF20, 0x1040, 0x1090, 0x17E0, 0x1810, 0x1946, 0x19D0, 0x1A80, 0x1A90,
   0x1B50, 0x1BB0, 0x1C40, 0x1C50, 0xA620, 0xA8D0, 0xA900, 0xA9D0, 0xA9F0, 0xAA50, 0xABF0,
   0xFF10, 0x104A0, 0x10D30, 0x10D40, 0x11066, 0x110F0, 0x11136, 0x111D0, 0x112F0, 0x11450,
   0x114D0, 0x11650, 0x116C0, 0x116D0, 0x116DA, 0x11730, 0x118E0, 0x11950, 0x11BF0, 0x11C50,
   0x11D50, 0x11DA0, 0x11F50, 0x16130, 0x16A60, 0x16AC0, 0x16B50, 0x16D70, 0x1CCF0, 0x1D7CE,
   0x1D7D8, 0x1D7E2, 0x1D7EC, 0x1D7F6, 0x1E140, 0x1E2F0, 0x1E4F0, 0x1E5F1, 0x1E950, 0x1FBF0]

/-- The value of a decimal digit of any script. -/
def decimalValue (c : Char) : Option ℕ :=
  (decimalZeros.find? fun z => z ≤ c.toNat && c.toNat < z + 10).map fun z => c.toNat - z

/-- The class `\d` of a `str` pattern. -/
def isDecimal (c : Char) : Bool := (decimalValue c).isSome

/-- Digits that are not decimal: superscripts, circled digits and the like. -/
def otherDigits : List (ℕ × ℕ) :=
  [(0xB2, 0xB3), (0xB9, 0xB9), (0x1369, 0x1371), (0x19DA, 0x19DA), (0x2070, 0x2070),
   (0x2074, 0x2079), (0x2080, 0x2089), (0x2460, 0x2468), (0x2474, 0x247C), (0x2488, 0x2490),
   (0x24EA, 0x24EA), (0x24F5, 0x24FD), (0x24FF, 0x24FF), (0x2776, 0x277E), (0x2780, 0x2788),
   (0x278A, 0x2792), (0x10A40, 0x10A43), (0x10E60, 0x10E68), (0x11052, 0x1105A),
   (0x1F100, 0x1F10A)]

def inRanges (ranges : List (ℕ × ℕ)) (c : Char) : Bool :=
  ranges.any fun r => r.1 ≤ c.toNat && c.toNat ≤ r.2

/-- `str.isdigit` on one character. -/
def isDigitChar (c : Char) : Bool := isDecimal c || inRanges otherDigits c

/-- `s.isdigit()`: false on the empty text. -/
def isDigit (s : List Char) : Bool := !s.isEmpty && s.all isDigitChar

/-- `str.isspace` on one character. -/
def isSpace (c : Char) : Bool :=
  inRanges [(0x9, 0xD), (0x1C, 0x20), (0x85, 0x85), (0xA0, 0xA0), (0x1680, 0x1680),
    (0x2000, 0x200A), (0x2028, 0x2029), (0x202F, 0x202F), (0x205F, 0x205F), (0x3000, 0x3000)] c

/-! ## Trimming and splitting -/

/-- `s.strip()`. -/
def strip (s : List Char) : List Char := (s.dropWhile isSpace).rdropWhile isSpace

/-- `s.rstrip(chars)`. -/
def rstripChars (chars s : List Char) : List Char := s.rdropWhile (chars.contains ·)

/-- `[f for f in s.split(" ") if f]`. -/
def splitSpaces (s : List Char) : List (List Char) := (s.splitOn ' ').filter (!·.isEmpty)

theorem rdropWhile_append_of_all {p : Char → Bool} (s : List Char) {tail : List Char}
    (h : ∀ c ∈ tail, p c = true) : (s ++ tail).rdropWhile p = s.rdropWhile p := by
  induction tail using List.reverseRecOn with
  | nil => simp
  | append_singleton init c ih =>
      rw [← List.append_assoc, List.rdropWhile_concat_pos _ _ _ (h c (by simp))]
      exact ih fun c hc => h c (by simp [hc])

/-- Stripping removes trailing whitespace and keeps a text that neither starts
nor ends in whitespace. -/
theorem strip_append {s tail : List Char} (htail : ∀ c ∈ tail, isSpace c = true)
    (hhead : ∀ c ∈ s.head?, isSpace c = false)
    (hlast : ∀ hs : s ≠ [], isSpace (s.getLast hs) = false) (hne : s ≠ []) :
    strip (s ++ tail) = s := by
  obtain ⟨a, rest, rfl⟩ := List.exists_cons_of_ne_nil hne
  have ha : isSpace a = false := hhead a rfl
  rw [strip, List.cons_append, List.dropWhile_cons_of_neg (by simp [ha]), ← List.cons_append,
    rdropWhile_append_of_all _ htail, List.rdropWhile_eq_self_iff]
  intro hs
  simp [hlast hs]

/-- Fields without spaces come back from their text. -/
theorem splitSpaces_intercalate {fields : List (List Char)}
    (hspace : ∀ f ∈ fields, ' ' ∉ f) (hfull : ∀ f ∈ fields, f ≠ []) (hne : fields ≠ []) :
    splitSpaces ([' '].intercalate fields) = fields := by
  rw [splitSpaces, List.splitOn_intercalate ' ' hspace hne, List.filter_eq_self]
  intro f hf
  simp [hfull f hf]

/-! ## Counted character classes -/

/-- A piece of a pattern: a character class with an exact or a least count. -/
inductive Piece where
  | exactly (n : ℕ) (cls : Char → Bool)
  | atLeast (n : ℕ) (cls : Char → Bool)

/-- A literal character. -/
def Piece.lit (c : Char) : Piece := .exactly 1 (· == c)

/-- Whether the pieces, one after the other, cover the whole text. -/
def fullMatch : List Piece → List Char → Bool
  | [], s => s.isEmpty
  | .exactly n cls :: rest, s =>
      n ≤ s.length && (s.take n).all cls && fullMatch rest (s.drop n)
  | .atLeast n cls :: rest, s =>
      (List.range (s.length + 1)).any fun k =>
        n ≤ k && (s.take k).all cls && fullMatch rest (s.drop k)

/-- `re.match` for a pattern `^…$`: without `re.MULTILINE` the final `$` also
holds just before a trailing newline. -/
def reMatch (pattern : List Piece) (s : List Char) : Bool :=
  fullMatch pattern s || (s.getLast? == some '\n' && fullMatch pattern s.dropLast)

theorem fullMatch_nil_iff (s : List Char) : fullMatch [] s = true ↔ s = [] := by
  simp [fullMatch]

theorem fullMatch_exactly_iff (n : ℕ) (cls : Char → Bool) (rest : List Piece) (s : List Char) :
    fullMatch (.exactly n cls :: rest) s = true ↔
      ∃ a b, s = a ++ b ∧ a.length = n ∧ (∀ c ∈ a, cls c = true) ∧ fullMatch rest b = true := by
  simp only [fullMatch, Bool.and_eq_true, decide_eq_true_eq, List.all_eq_true]
  constructor
  · rintro ⟨⟨hn, hall⟩, hrest⟩
    exact ⟨s.take n, s.drop n, (List.take_append_drop n s).symm, by simp [hn], hall, hrest⟩
  · rintro ⟨a, b, rfl, rfl, hall, hrest⟩
    simpa using ⟨hall, hrest⟩

theorem fullMatch_atLeast_iff (n : ℕ) (cls : Char → Bool) (rest : List Piece) (s : List Char) :
    fullMatch (.atLeast n cls :: rest) s = true ↔
      ∃ a b, s = a ++ b ∧ n ≤ a.length ∧ (∀ c ∈ a, cls c = true) ∧ fullMatch rest b = true := by
  simp only [fullMatch, List.any_eq_true, List.mem_range, Bool.and_eq_true, decide_eq_true_eq,
    List.all_eq_true]
  constructor
  · rintro ⟨k, hk, ⟨hn, hall⟩, hrest⟩
    refine ⟨s.take k, s.drop k, (List.take_append_drop k s).symm, ?_, hall, hrest⟩
    rw [List.length_take]
    omega
  · rintro ⟨a, b, rfl, hn, hall, hrest⟩
    refine ⟨a.length, ?_, ⟨hn, ?_⟩, ?_⟩
    · rw [List.length_append]
      omega
    · simpa using hall
    · simpa using hrest

theorem fullMatch_exactly_append {n : ℕ} {cls : Char → Bool} {rest : List Piece} {a b : List Char}
    (hlen : a.length = n) (ha : ∀ c ∈ a, cls c = true) (hb : fullMatch rest b = true) :
    fullMatch (.exactly n cls :: rest) (a ++ b) = true :=
  (fullMatch_exactly_iff n cls rest (a ++ b)).mpr ⟨a, b, rfl, hlen, ha, hb⟩

theorem fullMatch_atLeast_append {n : ℕ} {cls : Char → Bool} {rest : List Piece} {a b : List Char}
    (hlen : n ≤ a.length) (ha : ∀ c ∈ a, cls c = true) (hb : fullMatch rest b = true) :
    fullMatch (.atLeast n cls :: rest) (a ++ b) = true :=
  (fullMatch_atLeast_iff n cls rest (a ++ b)).mpr ⟨a, b, rfl, hlen, ha, hb⟩

theorem fullMatch_lit_cons {c : Char} {rest : List Piece} {b : List Char}
    (hb : fullMatch rest b = true) : fullMatch (.lit c :: rest) (c :: b) = true :=
  fullMatch_exactly_append (a := [c]) rfl (by simp) hb

theorem reMatch_iff (pattern : List Piece) (s : List Char) :
    reMatch pattern s = true ↔
      ∃ t, fullMatch pattern t = true ∧ (s = t ∨ s = t ++ ['\n']) := by
  simp only [reMatch, Bool.or_eq_true, Bool.and_eq_true, beq_iff_eq]
  constructor
  · rintro (h | ⟨hlast, h⟩)
    · exact ⟨s, h, .inl rfl⟩
    · exact ⟨s.dropLast, h, .inr (List.dropLast_append_getLast? _ hlast).symm⟩
  · rintro ⟨t, h, rfl | rfl⟩
    · exact .inl h
    · exact .inr (by simpa using h)

theorem reMatch_of_fullMatch {pattern : List Piece} {s : List Char}
    (h : fullMatch pattern s = true) : reMatch pattern s = true :=
  (reMatch_iff pattern s).mpr ⟨s, h, .inl rfl⟩

end PyLib
