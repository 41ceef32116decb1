import Mathlib.Data.Nat.Digits.Defs
import Mathlib.Data.Rat.Floor
import SotRwb1.Lib.Text

/-!
# Python numerals

`int(s)` and `float(s)` as Python's documentation gives their grammar: optional
surrounding whitespace, an optional sign, digits of any script with single
underscores between them, and for `float` a fraction, an exponent, and the
words `inf`, `infinity` and `nan`.  A float is taken as the number it denotes,
so a finite one is a rational, and one out of range an infinity; `int` refuses
numerals of more than 4300 digits.

In the other direction, `formatFixed` and `formatPadded` are the format
specifications `.1f`, `.2f`, `03d` and `04d`, and `roundHalfEven` is `round`.

## Main definitions

* `PyFloat` — a float: a rational, an infinity or NaN.
* `pyInt`, `pyFloat`, `PyFloat.inRange` — the conversions.
* `natOfDigits` — the number a digit list denotes.
* `roundHalfEven`, `formatFixed`, `formatPadded` — rounding and formatting.
-/

namespace PyLib

/-- A Python float, up to the rounding of finite values. -/
inductive PyFloat where
  | finite (q : ℚ)
  | infinite (negative : Bool)
  | nan
  deriving DecidableEq

/-! ## Reading -/

/-- The whitespace `int` and `float` skip: C whitespace in the ASCII range,
Python whitespace above it. -/
def isNumberSpace (c : Char) : Bool :=
  if c.toNat < 127 then inRanges [(0x9, 0xD), (0x20, 0x20)] c else isSpace c

/-- The text without surrounding number whitespace. -/
def numberStrip (s : List Char) : List Char :=
  (s.dropWhile isNumberSpace).rdropWhile isNumberSpace

/-- Split off a sign; the flag says whether it was a minus. -/
def splitSign : List Char → Bool × List Char
  | '+' :: rest => (false, rest)
  | '-' :: rest => (true, rest)
  | s => (false, s)

/-- `digit (["_"] digit)*` read off the front: the digit values and the rest. -/
def digitPart : List Char → List ℕ × List Char
  | [] => ([], [])
  | c :: '_' :: c' :: rest =>
      match decimalValue c with
      | none => ([], c :: '_' :: c' :: rest)
      | some d =>
          if isDecimal c' then (d :: (digitPart (c' :: rest)).1, (digitPart (c' :: rest)).2)
          else ([d], '_' :: c' :: rest)
  | c :: rest =>
      match decimalValue c with
      | none => ([], c :: rest)
      | some d => (d :: (digitPart rest).1, (digitPart rest).2)

/-- The number a list of digits denotes, most significant digit first. -/
def natOfDigits (ds : List ℕ) : ℕ := ds.foldl (fun n d => 10 * n + d) 0

/-- `sys.int_info.default_max_str_digits`. -/
def maxStrDigits : ℕ := 4300

def applySign (negative : Bool) (n : ℕ) : ℤ := if negative then -(n : ℤ) else n

/-- `int(s)`, with `none` for a `ValueError`. -/
def pyInt (s : List Char) : Option ℤ :=
  let signed := splitSign (numberStrip s)
  match digitPart signed.2 with
  | (ds, []) =>
      if ds = [] ∨ maxStrDigits < ds.length then none
      else some (applySign signed.1 (natOfDigits ds))
  | _ => none

/-- `whole.frac` as a rational. -/
def decimalOf (whole frac : List ℕ) : ℚ :=
  natOfDigits whole + natOfDigits frac / 10 ^ frac.length

/-- `[digitpart] "." digitpart | digitpart ["."]` read off the front. -/
def pointNumber (s : List Char) : Option (ℚ × List Char) :=
  match digitPart s with
  | (whole, '.' :: rest) =>
      match digitPart rest with
      | (frac, rest') =>
          if whole = [] ∧ frac = [] then none else some (decimalOf whole frac, rest')
  | (whole, rest) => if whole = [] then none else some (decimalOf whole [], rest)

/-- The exponent that ends a numeral: `0` when there is none. -/
def exponentPart (s : List Char) : Option ℤ :=
  match s with
  | [] => some 0
  | c :: rest =>
      if c = 'e' ∨ c = 'E' then
        match digitPart (splitSign rest).2 with
        | (ds, []) => if ds = [] then none else some (applySign (splitSign rest).1 (natOfDigits ds))
        | _ => none
      else none

/-- The number `float(s)` reads, whatever its size, with `none` for a `ValueError`. -/
def pyFloat (s : List Char) : Option PyFloat :=
  let signed := splitSign (numberStrip s)
  let word := signed.2.map Char.toLower
  if word = ['i', 'n', 'f'] ∨ word = ['i', 'n', 'f', 'i', 'n', 'i', 't', 'y'] then
    some (.infinite signed.1)
  else if word = ['n', 'a', 'n'] then some .nan
  else
    match pointNumber signed.2 with
    | none => none
    | some (q, rest) =>
        match exponentPart rest with
        | none => none
        | some e => some (.finite ((if signed.1 then -q else q) * (10 : ℚ) ^ e))

/-- From this magnitude on a number is rounded to an infinity: it lies half way between
the largest float and the next power of two. -/
def floatLimit : ℚ := (2 ^ 1024 - 2 ^ 970 : ℕ)

/-- The float a number that was read becomes: an infinity when it is out of range. -/
def PyFloat.inRange : PyFloat → PyFloat
  | finite q => if floatLimit ≤ q ∨ q ≤ -floatLimit then infinite (q < 0) else finite q
  | infinite negative => infinite negative
  | nan => nan

theorem PyFloat.inRange_finite {q : ℚ} (hlow : -floatLimit < q) (hhigh : q < floatLimit) :
    (finite q).inRange = finite q := by
  rw [inRange, if_neg]
  rintro (h | h)
  · exact absurd hhigh (not_lt.mpr h)
  · exact absurd hlow (not_lt.mpr h)

/-! ## Writing -/

/-- Rounding to the nearest integer, ties to the even one. -/
def roundHalfEven (q : ℚ) : ℤ :=
  let f := ⌊q⌋
  let r := q - f
  if r < 1 / 2 then f else if 1 / 2 < r then f + 1 else if f % 2 = 0 then f else f + 1

/-- At least `width` digits of a natural number, padded with zeros on the left. -/
def padDigits (width n : ℕ) : List Char :=
  let ds := (Nat.digits 10 n).reverse.map fun d => Char.ofNat (0x30 + d)
  List.replicate (width - ds.length) '0' ++ ds

/-- The format specification `.{places}f` on a finite value.  The sign is that
of the value, so a negative value that rounds to zero is written `-0.0`. -/
def formatFixed (places : ℕ) (q : ℚ) : List Char :=
  let ds := padDigits (places + 1) (roundHalfEven (|q| * 10 ^ places)).toNat
  (if q < 0 then ['-'] else []) ++ ds.take (ds.length - places) ++ '.' ::
    ds.drop (ds.length - places)

/-- The format specification `0{width}d`: the sign counts towards the width. -/
def formatPadded (width : ℕ) (n : ℤ) : List Char :=
  if n < 0 then '-' :: padDigits (width - 1) n.natAbs else padDigits width n.natAbs

/-! ## Plain numerals

Texts made of ASCII digits, and what the conversions make of them. -/

/-- The ASCII digit of a value below ten. -/
def asciiDigit (d : Fin 10) : Char := Char.ofNat (0x30 + d)

/-- A list of digits as text. -/
def plain (ds : List (Fin 10)) : List Char := ds.map asciiDigit

/-- The number a list of digits denotes. -/
def plainNat (ds : List (Fin 10)) : ℕ := natOfDigits (ds.map Fin.val)

/-- The text of a decimal: digits, and a point and more digits if there is a
fraction. -/
def plainDecimal (whole : List (Fin 10)) (frac : Option (List (Fin 10))) : List Char :=
  plain whole ++
    match frac with
    | some ds => '.' :: plain ds
    | none => []

/-- The number a decimal denotes. -/
def plainRat (whole : List (Fin 10)) (frac : Option (List (Fin 10))) : ℚ :=
  match frac with
  | some ds => plainNat whole + plainNat ds / 10 ^ ds.length
  | none => plainNat whole

theorem decimalValue_asciiDigit (d : Fin 10) : decimalValue (asciiDigit d) = some d.val := by
  revert d
  decide

theorem isDecimal_asciiDigit (d : Fin 10) : isDecimal (asciiDigit d) = true := by
  simp [isDecimal, decimalValue_asciiDigit]

theorem isNumberSpace_asciiDigit (d : Fin 10) : isNumberSpace (asciiDigit d) = false := by
  revert d
  decide

theorem isSpace_asciiDigit (d : Fin 10) : isSpace (asciiDigit d) = false := by
  revert d
  decide

theorem toLower_asciiDigit (d : Fin 10) :
    (asciiDigit d).toLower ≠ 'i' ∧ (asciiDigit d).toLower ≠ 'n' := by
  revert d
  decide

theorem asciiDigit_ne (d : Fin 10) :
    asciiDigit d ≠ '_' ∧ asciiDigit d ≠ '+' ∧ asciiDigit d ≠ '-' := by
  revert d
  decide

@[simp] theorem plain_nil : plain [] = [] := rfl

@[simp] theorem plain_cons (d : Fin 10) (ds : List (Fin 10)) :
    plain (d :: ds) = asciiDigit d :: plain ds := rfl

@[simp] theorem length_plain (ds : List (Fin 10)) : (plain ds).length = ds.length := by
  simp [plain]

theorem forall_mem_plain {p : Char → Bool} {b : Bool} (h : ∀ d, p (asciiDigit d) = b)
    (ds : List (Fin 10)) : ∀ c ∈ plain ds, p c = b := by
  intro c hc
  obtain ⟨d, -, rfl⟩ := List.mem_map.mp hc
  exact h d

theorem forall_mem_plainDecimal {p : Char → Bool} {b : Bool} (h : ∀ d, p (asciiDigit d) = b)
    (hpoint : p '.' = b) (whole : List (Fin 10)) (frac : Option (List (Fin 10))) :
    ∀ c ∈ plainDecimal whole frac, p c = b := by
  intro c hc
  cases frac with
  | none =>
      simp only [plainDecimal, List.append_nil] at hc
      exact forall_mem_plain h whole c hc
  | some ds =>
      rw [plainDecimal, List.mem_append, List.mem_cons] at hc
      rcases hc with hc | rfl | hc
      · exact forall_mem_plain h whole c hc
      · exact hpoint
      · exact forall_mem_plain h ds c hc

/-- A digit that no underscore follows is read alone. -/
theorem digitPart_cons {c : Char} {d : ℕ} {rest : List Char} (hc : decimalValue c = some d)
    (hrest : ∀ c' ∈ rest.head?, c' ≠ '_') :
    digitPart (c :: rest) = (d :: (digitPart rest).1, (digitPart rest).2) := by
  rw [digitPart]
  · rw [hc]
  · intro c' rest' heq
    subst heq
    exact hrest '_' rfl rfl

theorem digitPart_of_not_decimal {c : Char} (hc : decimalValue c = none) (rest : List Char) :
    digitPart (c :: rest) = ([], c :: rest) := by
  rw [digitPart.eq_def]
  split
  · rename_i heq
    cases heq
  · rename_i heq
    cases heq
    rw [hc]
  · rename_i heq
    cases heq
    rw [hc]

/-- Digits are read up to the first character that is neither a digit nor an
underscore. -/
theorem digitPart_plain (ds : List (Fin 10)) (rest : List Char)
    (hrest : ∀ c ∈ rest.head?, decimalValue c = none ∧ c ≠ '_') :
    digitPart (plain ds ++ rest) = (ds.map Fin.val, rest) := by
  induction ds with
  | nil =>
      cases rest with
      | nil => rfl
      | cons c tail => exact digitPart_of_not_decimal (hrest c rfl).1 tail
  | cons d ds ih =>
      rw [plain_cons, List.cons_append, digitPart_cons (decimalValue_asciiDigit d), ih]
      · rfl
      · intro c hc
        cases ds with
        | nil => exact (hrest c hc).2
        | cons d' ds' =>
            have : c = asciiDigit d' := by simpa using hc.symm
            rw [this]
            exact (asciiDigit_ne d').1

theorem numberStrip_eq_self {s : List Char} (h : ∀ c ∈ s, isNumberSpace c = false) :
    numberStrip s = s := by
  have hdrop : s.dropWhile isNumberSpace = s := by
    cases s with
    | nil => rfl
    | cons c rest => simp [h c (by simp)]
  rw [numberStrip, hdrop, List.rdropWhile_eq_self_iff]
  intro hs
  simp [h _ (List.getLast_mem hs)]

theorem splitSign_plain_append {ds : List (Fin 10)} (hne : ds ≠ []) (rest : List Char) :
    splitSign (plain ds ++ rest) = (false, plain ds ++ rest) := by
  cases ds with
  | nil => exact absurd rfl hne
  | cons d ds' =>
      rw [plain_cons, List.cons_append, splitSign]
      · intro rest' heq
        exact (asciiDigit_ne d).2.1 (List.cons.inj heq).1
      · intro rest' heq
        exact (asciiDigit_ne d).2.2 (List.cons.inj heq).1

/-- The sign character of an integer. -/
def signChar (negative : Bool) : Char := if negative then '-' else '+'

theorem splitSign_signChar (negative : Bool) (rest : List Char) :
    splitSign (signChar negative :: rest) = (negative, rest) := by
  cases negative <;> rfl

/-- `int` on plain digits. -/
theorem pyInt_plain {ds : List (Fin 10)} (hne : ds ≠ []) (hlen : ds.length ≤ maxStrDigits) :
    pyInt (plain ds) = some (plainNat ds : ℤ) := by
  have hsign := splitSign_plain_append hne []
  have hdigits := digitPart_plain ds [] (by simp)
  rw [List.append_nil] at hsign hdigits
  rw [pyInt, numberStrip_eq_self (forall_mem_plain isNumberSpace_asciiDigit ds), hsign]
  simp only [hdigits, List.map_eq_nil_iff, hne, List.length_map, false_or, Nat.not_lt.mpr hlen,
    if_false]
  rfl

/-- `int` on a sign and plain digits. -/
theorem pyInt_signed (negative : Bool) {ds : List (Fin 10)} (hne : ds ≠ [])
    (hlen : ds.length ≤ maxStrDigits) :
    pyInt (signChar negative :: plain ds) = some (applySign negative (plainNat ds)) := by
  have hdigits := digitPart_plain ds [] (by simp)
  rw [List.append_nil] at hdigits
  have hstrip : numberStrip (signChar negative :: plain ds) = signChar negative :: plain ds := by
    apply numberStrip_eq_self
    intro c hc
    rcases List.mem_cons.mp hc with rfl | hc
    · cases negative <;> decide
    · exact forall_mem_plain isNumberSpace_asciiDigit ds c hc
  rw [pyInt, hstrip, splitSign_signChar]
  simp only [hdigits, List.map_eq_nil_iff, hne, List.length_map, false_or, Nat.not_lt.mpr hlen,
    if_false]
  rfl

/-- The number at the front of a decimal is the whole of it. -/
theorem pointNumber_plainDecimal {whole : List (Fin 10)} (hne : whole ≠ [])
    (frac : Option (List (Fin 10))) :
    pointNumber (plainDecimal whole frac) = some (plainRat whole frac, []) := by
  cases frac with
  | none =>
      have hdigits := digitPart_plain whole [] (by simp)
      simp only [pointNumber, plainDecimal, hdigits, List.map_eq_nil_iff, hne, if_false]
      simp [decimalOf, plainRat, plainNat, natOfDigits]
  | some ds =>
      have hwhole := digitPart_plain whole ('.' :: plain ds)
        (by intro c hc; cases hc; decide)
      have hfrac := digitPart_plain ds [] (by simp)
      rw [List.append_nil] at hfrac
      simp only [pointNumber, plainDecimal, hwhole, hfrac, List.map_eq_nil_iff, hne, false_and,
        if_false]
      simp [decimalOf, plainRat, plainNat]

/-- A plain decimal is none of the words `float` accepts. -/
theorem map_toLower_plainDecimal_ne {whole : List (Fin 10)} (hne : whole ≠ [])
    (frac : Option (List (Fin 10))) {c : Char} (hc : c = 'i' ∨ c = 'n') (rest : List Char) :
    (plainDecimal whole frac).map Char.toLower ≠ c :: rest := by
  obtain ⟨d, ds, rfl⟩ := List.exists_cons_of_ne_nil hne
  intro heq
  rw [plainDecimal.eq_def, plain_cons, List.cons_append, List.map_cons, List.cons.injEq] at heq
  rcases hc with rfl | rfl
  · exact (toLower_asciiDigit d).1 heq.1
  · exact (toLower_asciiDigit d).2 heq.1

/-- What `float` makes of a sign and a plain decimal, once they are told apart. -/
theorem pyFloat_of_splitSign {s : List Char} {negative : Bool} {whole : List (Fin 10)}
    {frac : Option (List (Fin 10))} (hne : whole ≠ [])
    (hsign : splitSign (numberStrip s) = (negative, plainDecimal whole frac)) :
    pyFloat s =
      some (.finite (if negative then -plainRat whole frac else plainRat whole frac)) := by
  rw [pyFloat, hsign]
  simp only [map_toLower_plainDecimal_ne hne frac (.inl rfl),
    map_toLower_plainDecimal_ne hne frac (.inr rfl), or_self, if_false,
    pointNumber_plainDecimal hne, exponentPart]
  simp

/-- `float` on a plain decimal. -/
theorem pyFloat_plainDecimal {whole : List (Fin 10)} (hne : whole ≠ [])
    (frac : Option (List (Fin 10))) :
    pyFloat (plainDecimal whole frac) = some (.finite (plainRat whole frac)) := by
  have hstrip : numberStrip (plainDecimal whole frac) = plainDecimal whole frac :=
    numberStrip_eq_self
      (forall_mem_plainDecimal isNumberSpace_asciiDigit (by decide) whole frac)
  have hsign : splitSign (plainDecimal whole frac) = (false, plainDecimal whole frac) :=
    splitSign_plain_append hne _
  exact pyFloat_of_splitSign hne (by rw [hstrip, hsign])

/-- `float` on a sign and a plain decimal. -/
theorem pyFloat_signed (negative : Bool) {whole : List (Fin 10)} (hne : whole ≠ [])
    (frac : Option (List (Fin 10))) :
    pyFloat (signChar negative :: plainDecimal whole frac) =
      some (.finite (if negative then -plainRat whole frac else plainRat whole frac)) := by
  have hstrip : numberStrip (signChar negative :: plainDecimal whole frac) =
      signChar negative :: plainDecimal whole frac := by
    apply numberStrip_eq_self
    intro c hc
    rcases List.mem_cons.mp hc with rfl | hc
    · cases negative <;> decide
    · exact forall_mem_plainDecimal isNumberSpace_asciiDigit (by decide) whole frac c hc
  exact pyFloat_of_splitSign hne (by rw [hstrip, splitSign_signChar])

/-- `float` on a minus sign and a plain decimal. -/
theorem pyFloat_neg_plainDecimal {whole : List (Fin 10)} (hne : whole ≠ [])
    (frac : Option (List (Fin 10))) :
    pyFloat ('-' :: plainDecimal whole frac) = some (.finite (-plainRat whole frac)) :=
  pyFloat_signed true hne frac

end PyLib
