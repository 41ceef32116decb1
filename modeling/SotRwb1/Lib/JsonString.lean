import SotRwb1.Lib.Dict

/-!
# JSON string literals

The writer escapes every character outside printable ASCII; one above the basic
plane becomes two surrogates.  The reader turns a literal into code units and joins
the surrogates that follow one another; half a pair is no character, and is read as
the replacement character here.

## Main definitions

* `escapeString` — a text as a literal.
* `scanUnits`, `joinSurrogates`, `scanString` — a literal as a text.
* `scanString_escaped` — the second undoes the first.
-/

namespace PyLib

/-! ## Escapes -/

/-- The code units of a character. -/
def utf16 (c : Char) : List ℕ :=
  if c.toNat < 0x10000 then [c.toNat]
  else [0xD800 + (c.toNat - 0x10000) / 0x400, 0xDC00 + (c.toNat - 0x10000) % 0x400]

/-- A code unit as four hexadecimal digits. -/
def escapeUnit (n : ℕ) : List Char :=
  ['\\', 'u', Nat.digitChar (n / 0x1000), Nat.digitChar (n / 0x100 % 16),
    Nat.digitChar (n / 16 % 16), Nat.digitChar (n % 16)]

/-- The characters with an escape of one letter, and the letter. -/
def shortEscapes : List (Char × Char) :=
  [('\\', '\\'), ('"', '"'), ('\x08', 'b'), ('\x0c', 'f'), ('\n', 'n'), ('\r', 'r'), ('\t', 't')]

/-- A character inside a string literal. -/
def escapeChar (c : Char) : List Char :=
  match shortEscapes.lookup c with
  | some letter => ['\\', letter]
  | none => if 0x20 ≤ c.toNat ∧ c.toNat < 0x7F then [c] else (utf16 c).flatMap escapeUnit

/-- A text as a string literal. -/
def escapeString (s : String) : List Char := '"' :: s.toList.flatMap escapeChar ++ ['"']

/-- The value of a hexadecimal digit, of either case. -/
def hexValue (c : Char) : Option ℕ :=
  if '0' ≤ c ∧ c ≤ '9' then some (c.toNat - 0x30)
  else if 'a' ≤ c ∧ c ≤ 'f' then some (c.toNat - 0x57)
  else if 'A' ≤ c ∧ c ≤ 'F' then some (c.toNat - 0x37)
  else none

/-- The code unit of four hexadecimal digits. -/
def hexUnit (a b c d : Char) : Option ℕ := do
  return ((← hexValue a) * 16 + (← hexValue b)) * 0x100 + (← hexValue c) * 16 + (← hexValue d)

/-- The letters after a backslash, with the character each stands for. -/
def letterEscapes : List (Char × Char) :=
  [('"', '"'), ('\\', '\\'), ('/', '/'), ('b', '\x08'), ('f', '\x0c'), ('n', '\n'), ('r', '\r'),
    ('t', '\t')]

/-- The code units of a string literal after its opening quote, and what follows it. -/
def scanUnits : List Char → Option (List ℕ × List Char)
  | [] => none
  | '"' :: rest => some ([], rest)
  | '\\' :: 'u' :: a :: b :: c :: d :: rest =>
      match hexUnit a b c d with
      | some n => (scanUnits rest).map fun r => (n :: r.1, r.2)
      | none => none
  | '\\' :: c :: rest =>
      match letterEscapes.lookup c with
      | some c' => (scanUnits rest).map fun r => (c'.toNat :: r.1, r.2)
      | none => none
  | c :: rest =>
      if c.toNat < 0x20 then none else (scanUnits rest).map fun r => (c.toNat :: r.1, r.2)

def IsHighSurrogate (n : ℕ) : Prop := 0xD800 ≤ n ∧ n < 0xDC00

def IsLowSurrogate (n : ℕ) : Prop := 0xDC00 ≤ n ∧ n < 0xE000

instance (n : ℕ) : Decidable (IsHighSurrogate n) := inferInstanceAs (Decidable (_ ∧ _))

instance (n : ℕ) : Decidable (IsLowSurrogate n) := inferInstanceAs (Decidable (_ ∧ _))

/-- The character of a code unit that is not part of a pair. -/
def unitChar (n : ℕ) : Char := if n.isValidChar then Char.ofNat n else '\uFFFD'

/-- Join the surrogates that follow one another. -/
def joinSurrogates : List ℕ → List Char
  | [] => []
  | [n] => [unitChar n]
  | n :: m :: rest =>
      if IsHighSurrogate n ∧ IsLowSurrogate m then
        Char.ofNat (0x10000 + (n - 0xD800) * 0x400 + (m - 0xDC00)) :: joinSurrogates rest
      else unitChar n :: joinSurrogates (m :: rest)

/-- A string literal after its opening quote. -/
def scanString (s : List Char) : Option (String × List Char) :=
  (scanUnits s).map fun r => (String.ofList (joinSurrogates r.1), r.2)

theorem hexValue_digitChar : ∀ {n : ℕ}, n < 16 → hexValue (Nat.digitChar n) = some n := by
  decide

theorem hexUnit_escapeUnit {n : ℕ} (h : n < 0x10000) :
    hexUnit (Nat.digitChar (n / 0x1000)) (Nat.digitChar (n / 0x100 % 16))
      (Nat.digitChar (n / 16 % 16)) (Nat.digitChar (n % 16)) = some n := by
  have hsum : (n / 0x1000 * 16 + n / 0x100 % 16) * 0x100 + n / 16 % 16 * 16 + n % 16 = n := by
    omega
  rw [hexUnit, hexValue_digitChar (by omega), hexValue_digitChar (by omega),
    hexValue_digitChar (by omega), hexValue_digitChar (by omega)]
  exact congrArg some hsum

theorem scanUnits_escapeUnit {n : ℕ} (h : n < 0x10000) (rest : List Char) :
    scanUnits (escapeUnit n ++ rest) = (scanUnits rest).map fun r => (n :: r.1, r.2) := by
  simp only [escapeUnit, List.cons_append, List.nil_append, scanUnits, hexUnit_escapeUnit h]

theorem utf16_lt (c : Char) : ∀ n ∈ utf16 c, n < 0x10000 := by
  intro n hn
  have hvalid : c.toNat < 0xD800 ∨ 0xDFFF < c.toNat ∧ c.toNat < 0x110000 := c.valid
  rw [utf16] at hn
  split at hn
  · rw [List.mem_singleton.mp hn]
    assumption
  · simp only [List.mem_cons, List.not_mem_nil, or_false] at hn
    omega

theorem scanUnits_flatMap_escapeUnit {units : List ℕ} (h : ∀ n ∈ units, n < 0x10000)
    (rest : List Char) :
    scanUnits (units.flatMap escapeUnit ++ rest) =
      (scanUnits rest).map fun r => (units ++ r.1, r.2) := by
  induction units with
  | nil => simp
  | cons n units ih =>
      rw [List.flatMap_cons, List.append_assoc, scanUnits_escapeUnit (h n (by simp)),
        ih fun m hm => h m (by simp [hm]), Option.map_map]
      rfl

/-- A printable character that needs no escape stands for itself. -/
theorem scanUnits_printable {c : Char} (hshort : shortEscapes.lookup c = none)
    (hprintable : 0x20 ≤ c.toNat) (rest : List Char) :
    scanUnits (c :: rest) = (scanUnits rest).map fun r => (c.toNat :: r.1, r.2) := by
  have hquote : c ≠ '"' := by
    rintro rfl
    cases hshort
  have hbackslash : c ≠ '\\' := by
    rintro rfl
    cases hshort
  rw [scanUnits, if_neg (by omega)]
  · exact hquote
  · intro a b c' d rest' hc
    exact absurd hc hbackslash
  · intro c' rest' hc
    exact absurd hc hbackslash

theorem scanUnits_short {c letter : Char} (h : shortEscapes.lookup c = some letter)
    (rest : List Char) :
    scanUnits ('\\' :: letter :: rest) = (scanUnits rest).map fun r => (c.toNat :: r.1, r.2) := by
  have hmem : (c, letter) ∈ shortEscapes := (Dict.lookup_eq_some_iff_mem (by decide)).mp h
  simp only [shortEscapes, List.mem_cons, Prod.mk.injEq, List.not_mem_nil, or_false] at hmem
  rcases hmem with ⟨rfl, rfl⟩ | ⟨rfl, rfl⟩ | ⟨rfl, rfl⟩ | ⟨rfl, rfl⟩ | ⟨rfl, rfl⟩ | ⟨rfl, rfl⟩ |
    ⟨rfl, rfl⟩ <;> rfl

theorem scanUnits_escapeChar (c : Char) (rest : List Char) :
    scanUnits (escapeChar c ++ rest) = (scanUnits rest).map fun r => (utf16 c ++ r.1, r.2) := by
  have hsingle : c.toNat < 0x10000 → utf16 c = [c.toNat] := fun h => if_pos h
  rw [escapeChar]
  cases hshort : shortEscapes.lookup c with
  | some letter =>
      have hmem : (c, letter) ∈ shortEscapes := (Dict.lookup_eq_some_iff_mem (by decide)).mp hshort
      have hsmall : ∀ e ∈ shortEscapes, e.1.toNat < 0x10000 := by decide
      rw [hsingle (hsmall _ hmem)]
      exact scanUnits_short hshort rest
  | none =>
      dsimp only
      split
      · rename_i hprintable
        rw [hsingle (by omega)]
        exact scanUnits_printable hshort hprintable.1 rest
      · exact scanUnits_flatMap_escapeUnit (utf16_lt c) rest

theorem scanUnits_escaped (s rest : List Char) :
    scanUnits (s.flatMap escapeChar ++ '"' :: rest) = some (s.flatMap utf16, rest) := by
  induction s with
  | nil => rfl
  | cons c s ih =>
      rw [List.flatMap_cons, List.append_assoc, scanUnits_escapeChar, ih]
      rfl

theorem joinSurrogates_of_not_high {n : ℕ} (h : ¬ IsHighSurrogate n) (units : List ℕ) :
    joinSurrogates (n :: units) = unitChar n :: joinSurrogates units := by
  cases units with
  | nil => rfl
  | cons m rest => rw [joinSurrogates, if_neg fun hpair => h hpair.1]

/-- The units of a character are read as this character. -/
theorem joinSurrogates_utf16 (c : Char) (units : List ℕ) :
    joinSurrogates (utf16 c ++ units) = c :: joinSurrogates units := by
  have hvalid : c.toNat.isValidChar := c.valid
  have hrange : c.toNat < 0xD800 ∨ 0xDFFF < c.toNat ∧ c.toNat < 0x110000 := hvalid
  rw [utf16]
  split
  · rw [List.singleton_append, joinSurrogates_of_not_high, unitChar, if_pos hvalid,
      Char.ofNat_toNat]
    rw [IsHighSurrogate]
    omega
  · have hpair : IsHighSurrogate (0xD800 + (c.toNat - 0x10000) / 0x400) ∧
        IsLowSurrogate (0xDC00 + (c.toNat - 0x10000) % 0x400) := by
      rw [IsHighSurrogate, IsLowSurrogate]
      omega
    have hjoined : 0x10000 + (0xD800 + (c.toNat - 0x10000) / 0x400 - 0xD800) * 0x400 +
        (0xDC00 + (c.toNat - 0x10000) % 0x400 - 0xDC00) = c.toNat := by
      omega
    rw [List.cons_append, List.singleton_append, joinSurrogates, if_pos hpair, hjoined,
      Char.ofNat_toNat]

theorem joinSurrogates_flatMap_utf16 (s : List Char) : joinSurrogates (s.flatMap utf16) = s := by
  induction s with
  | nil => rfl
  | cons c s ih => rw [List.flatMap_cons, joinSurrogates_utf16, ih]

/-- A text comes back from its literal. -/
theorem scanString_escaped (s : String) (rest : List Char) :
    scanString (s.toList.flatMap escapeChar ++ '"' :: rest) = some (s, rest) := by
  rw [scanString, scanUnits_escaped, Option.map_some, joinSurrogates_flatMap_utf16,
    String.ofList_toList]

end PyLib
