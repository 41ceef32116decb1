import Mathlib.Data.List.Forall2
import SotRwb1.Lib.Decimal
import SotRwb1.Lib.Json
import SotRwb1.Lib.JsonString

/-!
# JSON text

`json.dumps(x, separators=(",", ":"))` and `json.loads`.  The writer refuses an
integer of more digits than `str` converts, the reader a numeral of more digits than
`int` reads.  Both follow nested values down to the interpreter's recursion limit.
The text of a float is a parameter of the writer.

What the writer emits, the reader reads back: `loads_dumps`, for values without
floats whose dictionaries bind a key once.

## Main definitions

* `dumps`, `loads` — the writer and the reader.
* `Json.Portable` — the values for which they are inverse.
* `Reads` — a reader takes exactly this text.
* `writable`, `Encoder` — the values the writer takes, and what it depends on.
-/

namespace PyLib

/-! ## Numerals -/

/-- The whole part of a numeral: a zero, or digits that do not begin with one. -/
def scanWhole : List Char → Option (List Char × List Char)
  | [] => none
  | c :: rest =>
      if c = '0' then some ([c], rest)
      else if c.isDigit then some ((c :: rest).span Char.isDigit)
      else none

/-- A point and digits, if they follow. -/
def scanFraction (s : List Char) : List Char × List Char :=
  match s with
  | '.' :: rest =>
      if (rest.takeWhile Char.isDigit).isEmpty then ([], s)
      else ('.' :: rest.takeWhile Char.isDigit, rest.dropWhile Char.isDigit)
  | _ => ([], s)

/-- A sign, if it follows. -/
def scanSign : List Char → List Char × List Char
  | '+' :: rest => (['+'], rest)
  | '-' :: rest => (['-'], rest)
  | s => ([], s)

/-- An exponent, if it follows. -/
def scanExponent (s : List Char) : List Char × List Char :=
  match s with
  | c :: rest =>
      let signed := scanSign rest
      if (c = 'e' ∨ c = 'E') ∧ (signed.2.takeWhile Char.isDigit).isEmpty = false then
        (c :: signed.1 ++ signed.2.takeWhile Char.isDigit, signed.2.dropWhile Char.isDigit)
      else ([], s)
  | [] => ([], [])

/-- A reader: a value and the text after it. -/
abbrev Scanner (α : Type) := List Char → Except PyError (α × List Char)

/-- A minus, if it follows. -/
def scanMinus : List Char → List Char × List Char
  | '-' :: rest => (['-'], rest)
  | s => ([], s)

/-- A number after its sign: a float when it has a fraction or an exponent, else an
integer. -/
def scanUnsigned (sign s : List Char) : Except PyError (Json × List Char) :=
  match scanWhole s with
  | none => .error .valueError
  | some (whole, rest) =>
      let fraction := scanFraction rest
      let exponent := scanExponent fraction.2
      let numeral := sign ++ whole ++ fraction.1 ++ exponent.1
      if fraction.1.isEmpty && exponent.1.isEmpty then
        match pyInt numeral with
        | some n => .ok (.int n, exponent.2)
        | none => .error .valueError
      else
        match pyFloat numeral with
        | some x => .ok (.float x.inRange, exponent.2)
        | none => .error .valueError

/-- A number. -/
def scanNumber : Scanner Json := fun s => scanUnsigned (scanMinus s).1 (scanMinus s).2

/-- `int.__repr__`. -/
def intRepr (n : ℤ) : Except PyError (List Char) :=
  if maxStrDigits < (Nat.digits 10 n.natAbs).length then .error .valueError
  else .ok (formatPadded 1 n)

/-- What may follow a value: the end, or a character that goes on with the document. -/
def EndsValue (rest : List Char) : Prop := ∀ c ∈ rest.head?, c = ',' ∨ c = ']' ∨ c = '}'

theorem endsValue_nil : EndsValue [] := by simp [EndsValue]

theorem endsValue_cons {c : Char} (h : c = ',' ∨ c = ']' ∨ c = '}') (rest : List Char) :
    EndsValue (c :: rest) := by
  intro c' hc'
  cases hc'
  exact h

theorem isDigit_asciiDigit (d : Fin 10) : (asciiDigit d).isDigit = true := by
  revert d
  decide

theorem asciiDigit_eq_zero_iff (d : Fin 10) : asciiDigit d = '0' ↔ d = 0 := by
  revert d
  decide

/-- A digit string ends where a value ends. -/
theorem span_plain (ds : List (Fin 10)) {rest : List Char} (h : EndsValue rest) :
    (plain ds ++ rest).span Char.isDigit = (plain ds, rest) := by
  have hdigits : ∀ c ∈ plain ds, c.isDigit = true := forall_mem_plain isDigit_asciiDigit ds
  have hrest : rest.dropWhile Char.isDigit = rest ∧ rest.takeWhile Char.isDigit = [] := by
    cases rest with
    | nil => exact ⟨rfl, rfl⟩
    | cons c tail =>
        have hc : c.isDigit = false := by
          rcases h c rfl with rfl | rfl | rfl <;> rfl
        simp [hc]
  rw [List.span_eq_takeWhile_dropWhile, List.takeWhile_append_of_pos hdigits,
    List.dropWhile_append_of_pos hdigits, hrest.1, hrest.2, List.append_nil]

/-- A number without padding is zero or does not begin with a zero. -/
theorem padDigits_head {width n : ℕ} (hwidth : width ≤ 1) {ds : List (Fin 10)}
    (h : padDigits width n = plain ds) : n = 0 ∨ ∀ d ∈ ds.head?, d ≠ 0 := by
  by_cases hn : n = 0
  · exact .inl hn
  · right
    have hne : Nat.digits 10 n ≠ [] := Nat.digits_ne_nil_iff_ne_zero.mpr hn
    have hlen : width - (Nat.digits 10 n).length = 0 := by
      have := List.length_pos_iff.mpr hne
      omega
    intro d hd hzero
    have hlast := Nat.getLast_digit_ne_zero 10 hn
    obtain ⟨tail, rfl⟩ : ∃ tail, ds = d :: tail := by
      cases ds with
      | nil => cases hd
      | cons d' tail =>
          cases hd
          exact ⟨tail, rfl⟩
    have hhead : ((Nat.digits 10 n).reverse.map fun d => Char.ofNat (0x30 + d)).head? =
        some (asciiDigit d) := by
      have hreverse := congrArg List.head? h
      simpa [padDigits, hlen] using hreverse
    rw [List.head?_map, List.head?_reverse, List.getLast?_eq_some_getLast hne, Option.map_some,
      Option.some.injEq, hzero] at hhead
    have hlt : (Nat.digits 10 n).getLast hne < 10 :=
      Nat.digits_lt_base (by norm_num) (List.getLast_mem hne)
    have hzero' := (asciiDigit_eq_zero_iff ⟨(Nat.digits 10 n).getLast hne, hlt⟩).mp hhead
    exact hlast (congrArg Fin.val hzero')

/-- A digit string without a leading zero, or the zero. -/
structure Unpadded (ds : List (Fin 10)) : Prop where
  nonempty : ds ≠ []
  zero : ds.head? = some 0 → ds = [0]

/-- The digits of a number that is not padded; only the zero needs a width. -/
theorem exists_unpadded (width n : ℕ) (hwidth : width ≤ 1) (hzero : n = 0 → width = 1) :
    ∃ ds : List (Fin 10), padDigits width n = plain ds ∧ plainNat ds = n ∧
      ds.length = max width (Nat.digits 10 n).length ∧ Unpadded ds := by
  obtain ⟨ds, hds, hvalue, hlen⟩ := exists_plain_padDigits width n
  refine ⟨ds, hds, hvalue, hlen, ?_, ?_⟩
  · rintro rfl
    by_cases hn : n = 0
    · subst hn
      simp [hzero rfl] at hlen
    · have hpos := List.length_pos_iff.mpr (Nat.digits_ne_nil_iff_ne_zero (b := 10).mpr hn)
      rw [List.length_nil] at hlen
      omega
  · intro hhead
    rcases padDigits_head hwidth hds with rfl | hne
    · rw [hzero rfl, Nat.digits_zero, List.length_nil] at hlen
      obtain ⟨d, rfl⟩ := List.length_eq_one_iff.mp hlen
      cases hhead
      rfl
    · exact absurd rfl (hne 0 hhead)

theorem scanWhole_plain {ds : List (Fin 10)} (hds : Unpadded ds) {rest : List Char}
    (hrest : EndsValue rest) : scanWhole (plain ds ++ rest) = some (plain ds, rest) := by
  obtain ⟨d, tail, rfl⟩ := List.exists_cons_of_ne_nil hds.nonempty
  by_cases hd : d = 0
  · subst hd
    obtain rfl : tail = [] := by simpa using hds.zero rfl
    rfl
  · have hspan := span_plain (d :: tail) hrest
    rw [plain_cons, List.cons_append] at hspan ⊢
    rw [scanWhole, if_neg (mt (asciiDigit_eq_zero_iff d).mp hd), if_pos (isDigit_asciiDigit d),
      hspan]

theorem scanFraction_of_endsValue {rest : List Char} (h : EndsValue rest) :
    scanFraction rest = ([], rest) := by
  cases rest with
  | nil => rfl
  | cons c tail => rcases h c rfl with rfl | rfl | rfl <;> rfl

theorem scanExponent_of_endsValue {rest : List Char} (h : EndsValue rest) :
    scanExponent rest = ([], rest) := by
  cases rest with
  | nil => rfl
  | cons c tail => rcases h c rfl with rfl | rfl | rfl <;> rfl

theorem scanUnsigned_plain {sign : List Char} {ds : List (Fin 10)} {n : ℤ} (hds : Unpadded ds)
    (hread : pyInt (sign ++ plain ds) = some n) {rest : List Char} (hrest : EndsValue rest) :
    scanUnsigned sign (plain ds ++ rest) = .ok (.int n, rest) := by
  simp [scanUnsigned, scanWhole_plain hds hrest, scanFraction_of_endsValue hrest,
    scanExponent_of_endsValue hrest, hread]

/-- The text of an integer is a sign and digits, and `int` reads it. -/
theorem exists_plain_intRepr {n : ℤ} {text : List Char} (h : intRepr n = .ok text) :
    ∃ sign ds, (sign = [] ∨ sign = ['-']) ∧ Unpadded ds ∧ text = sign ++ plain ds ∧
      pyInt text = some n := by
  have hlimit : 1 ≤ maxStrDigits := by decide
  rw [intRepr] at h
  split at h
  · cases h
  rename_i hlong
  cases h
  rw [formatPadded]
  split
  · obtain ⟨ds, hds, hvalue, hlen, hunpadded⟩ :=
      exists_unpadded (1 - 1) n.natAbs (by omega) (by omega)
    have hread : pyInt ('-' :: plain ds) = some (applySign true (plainNat ds)) :=
      pyInt_signed true hunpadded.nonempty (by omega)
    have hn : -(n.natAbs : ℤ) = n := by omega
    rw [hvalue, applySign, if_pos rfl, hn] at hread
    rw [hds]
    exact ⟨['-'], ds, .inr rfl, hunpadded, rfl, hread⟩
  · obtain ⟨ds, hds, hvalue, hlen, hunpadded⟩ :=
      exists_unpadded 1 n.natAbs le_rfl (fun _ => rfl)
    have hread : pyInt (plain ds) = some (plainNat ds : ℤ) :=
      pyInt_plain hunpadded.nonempty (by omega)
    have hn : (n.natAbs : ℤ) = n := by omega
    rw [hvalue, hn] at hread
    rw [hds]
    exact ⟨[], ds, .inl rfl, hunpadded, rfl, hread⟩

theorem scanMinus_plain {sign : List Char} (hsign : sign = [] ∨ sign = ['-'])
    {ds : List (Fin 10)} (hds : Unpadded ds) (rest : List Char) :
    scanMinus (sign ++ plain ds ++ rest) = (sign, plain ds ++ rest) := by
  obtain ⟨d, tail, rfl⟩ := List.exists_cons_of_ne_nil hds.nonempty
  rcases hsign with rfl | rfl
  · rw [List.nil_append, plain_cons, List.cons_append, scanMinus]
    intro rest' heq
    exact (asciiDigit_ne d).2.2 (List.cons.inj heq).1
  · rfl

/-- An integer comes back from its digits. -/
theorem scanNumber_intRepr {n : ℤ} {text rest : List Char} (h : intRepr n = .ok text)
    (hrest : EndsValue rest) : scanNumber (text ++ rest) = .ok (.int n, rest) := by
  obtain ⟨sign, ds, hsign, hds, rfl, hread⟩ := exists_plain_intRepr h
  rw [scanNumber, scanMinus_plain hsign hds]
  exact scanUnsigned_plain hds hread hrest

/-! ## Values -/

def isJsonSpace (c : Char) : Bool := c == ' ' || c == '\t' || c == '\n' || c == '\r'

/-- Skip whitespace. -/
def skipSpace (s : List Char) : List Char := s.dropWhile isJsonSpace

/-- The words that are values. -/
def constants : List (List Char × Json) :=
  [(['n', 'u', 'l', 'l'], .null), (['t', 'r', 'u', 'e'], .bool true),
    (['f', 'a', 'l', 's', 'e'], .bool false), (['N', 'a', 'N'], .float .nan),
    (['I', 'n', 'f', 'i', 'n', 'i', 't', 'y'], .float (.infinite false)),
    (['-', 'I', 'n', 'f', 'i', 'n', 'i', 't', 'y'], .float (.infinite true))]

/-- Elements with commas between them up to the closing character.  Each takes a
character at least, so the length of the text bounds their number. -/
def scanElements {α : Type} (close : Char) (element : Scanner α) : ℕ → Scanner (List α)
  | 0, _ => .error .valueError
  | fuel + 1, s =>
      match element s with
      | .error e => .error e
      | .ok (x, s) =>
          match skipSpace s with
          | [] => .error .valueError
          | c :: rest =>
              if c = close then .ok ([x], rest)
              else if c = ',' then
                (scanElements close element fuel (skipSpace rest)).map fun r => (x :: r.1, r.2)
              else .error .valueError

/-- A key, a colon and a value. -/
def scanMember (value : Scanner Json) : Scanner (String × Json)
  | '"' :: s =>
      match scanString s with
      | none => .error .valueError
      | some (key, s) =>
          match skipSpace s with
          | ':' :: s => (value (skipSpace s)).map fun r => ((key, r.1), r.2)
          | _ => .error .valueError
  | _ => .error .valueError

/-- A list after its opening bracket. -/
def scanArray (value : Scanner Json) : Scanner Json := fun s =>
  match skipSpace s with
  | ']' :: rest => .ok (.arr [], rest)
  | s => (scanElements ']' value s.length s).map fun r => (.arr r.1, r.2)

/-- A dictionary after its opening brace; a later binding of a key overrides. -/
def scanObject (value : Scanner Json) : Scanner Json := fun s =>
  match skipSpace s with
  | '}' :: rest => .ok (.obj [], rest)
  | s => (scanElements '}' (scanMember value) s.length s).map fun r =>
      (.obj (Dict.ofList r.1).entries, r.2)

/-- A value that is neither a text, a list nor a dictionary. -/
def scanAtom : Scanner Json := fun s =>
  match constants.find? fun word => word.1.isPrefixOf s with
  | some word => .ok (word.2, s.drop word.1.length)
  | none => scanNumber s

/-- A value, given how to go on inside a dictionary and inside a list. -/
def scanOnce (object array : Scanner Json) : Scanner Json
  | '"' :: s =>
      match scanString s with
      | some (text, rest) => .ok (.str text, rest)
      | none => .error .valueError
  | '{' :: s => object s
  | '[' :: s => array s
  | s => scanAtom s

/-- A value nested no deeper than the limit. -/
def scanValue : ℕ → Scanner Json
  | 0 => scanOnce (fun _ => .error .recursionError) (fun _ => .error .recursionError)
  | limit + 1 => scanOnce (scanObject (scanValue limit)) (scanArray (scanValue limit))

/-- `json.loads`, for an interpreter that goes this deep. -/
def loads (limit : ℕ) (text : List Char) : Except PyError Json :=
  if text.head? = some '\uFEFF' then .error .valueError
  else
    match scanValue limit (skipSpace text) with
    | .error e => .error e
    | .ok (x, rest) => if (skipSpace rest).isEmpty then .ok x else .error .valueError

/-- `json.dumps(x, separators=(",", ":"))`, for an interpreter that goes this deep and
writes floats like this. -/
def dumps (repr : PyFloat → List Char) : ℕ → Json → Except PyError (List Char)
  | _, .null => .ok ['n', 'u', 'l', 'l']
  | _, .bool b => .ok (if b then ['t', 'r', 'u', 'e'] else ['f', 'a', 'l', 's', 'e'])
  | _, .int n => intRepr n
  | _, .float x => .ok (repr x)
  | _, .str s => .ok (escapeString s)
  | 0, .arr _ => .error .recursionError
  | 0, .obj _ => .error .recursionError
  | limit + 1, .arr items =>
      (items.mapM (dumps repr limit)).map fun parts => '[' :: [','].intercalate parts ++ [']']
  | limit + 1, .obj fields =>
      (fields.mapM fun f => (dumps repr limit f.2).map fun text =>
        escapeString f.1 ++ ':' :: text).map fun parts => '{' :: [','].intercalate parts ++ ['}']

/-- No floats, and dictionaries that bind a key once. -/
inductive Json.Portable : Json → Prop
  | null : Portable .null
  | bool (b : Bool) : Portable (.bool b)
  | int (n : ℤ) : Portable (.int n)
  | str (s : String) : Portable (.str s)
  | arr {items : List Json} (items_portable : ∀ x ∈ items, Portable x) : Portable (.arr items)
  | obj {fields : List (String × Json)} (distinct : (fields.map Prod.fst).Nodup)
      (fields_portable : ∀ f ∈ fields, Portable f.2) : Portable (.obj fields)

/-! ## What was written is read -/

/-- The text begins like a value: not with whitespace, nor with a closing bracket. -/
def Starts (text : List Char) : Prop :=
  ∃ c tail, text = c :: tail ∧ isJsonSpace c = false ∧ c ≠ ']' ∧ c ≠ '}'

/-- The reader takes exactly this text, whatever follows, and returns this value. -/
structure Reads {α : Type} (scanner : Scanner α) (text : List Char) (x : α) : Prop where
  starts : Starts text
  scans : ∀ rest, EndsValue rest → scanner (text ++ rest) = .ok (x, rest)

theorem skipSpace_cons {c : Char} (h : isJsonSpace c = false) (s : List Char) :
    skipSpace (c :: s) = c :: s := by
  rw [skipSpace, List.dropWhile_cons_of_neg (by simp [h])]

theorem Starts.skipSpace {text : List Char} (h : Starts text) (rest : List Char) :
    skipSpace (text ++ rest) = text ++ rest := by
  obtain ⟨c, tail, rfl, hspace, -⟩ := h
  exact skipSpace_cons hspace _

theorem Starts.ne_nil {text : List Char} (h : Starts text) : text ≠ [] := by
  obtain ⟨c, tail, rfl, -⟩ := h
  exact List.cons_ne_nil c tail

/-- Elements with commas between them are read one by one. -/
theorem scanElements_intercalate {α : Type} {close : Char} (hclose : close = ']' ∨ close = '}')
    {element : Scanner α} {parts : List (List Char)} {xs : List α}
    (h : List.Forall₂ (Reads element) parts xs) (hne : parts ≠ []) {fuel : ℕ}
    (hfuel : parts.length ≤ fuel) (rest : List Char) :
    scanElements close element fuel ([','].intercalate parts ++ close :: rest) =
      .ok (xs, rest) := by
  have hcomma : ',' ≠ close := by rcases hclose with rfl | rfl <;> decide
  have hspace : isJsonSpace close = false := by rcases hclose with rfl | rfl <;> rfl
  induction h generalizing fuel with
  | nil => exact absurd rfl hne
  | @cons part x parts xs hpart hparts ih =>
      obtain ⟨fuel, rfl⟩ : ∃ n, fuel = n + 1 := ⟨fuel - 1, by rw [List.length_cons] at hfuel; omega⟩
      cases parts with
      | nil =>
          cases hparts
          rw [List.intercalate_singleton, scanElements,
            hpart.scans _ (endsValue_cons (.inr hclose) rest)]
          dsimp only
          rw [skipSpace_cons hspace]
          simp
      | cons part' parts' =>
          have hrest := ih (List.cons_ne_nil _ _) (Nat.le_of_succ_le_succ hfuel)
          have hstarts : Starts part' := by
            cases hparts with
            | cons hpart' _ => exact hpart'.starts
          have hskip : skipSpace ([','].intercalate (part' :: parts') ++ close :: rest) =
              [','].intercalate (part' :: parts') ++ close :: rest := by
            obtain ⟨c, tail, rfl, hc, -⟩ := hstarts
            rw [List.intercalate_cons_cons_left, List.cons_append]
            exact skipSpace_cons hc _
          rw [List.intercalate_cons_cons, List.append_assoc, List.append_assoc,
            List.singleton_append, scanElements, hpart.scans _ (endsValue_cons (.inl rfl) _)]
          dsimp only
          rw [skipSpace_cons rfl]
          dsimp only
          rw [if_neg hcomma, if_pos rfl, hskip, hrest]
          rfl

/-- There are no more elements than characters in front of the closing one. -/
theorem length_le_intercalate {parts : List (List Char)} (h : ∀ part ∈ parts, part ≠ []) :
    parts.length ≤ ([','].intercalate parts).length := by
  induction parts with
  | nil => simp
  | cons part parts ih =>
      have hpos := List.length_pos_iff.mpr (h part (by simp))
      have hrest := ih fun p hp => h p (by simp [hp])
      cases parts with
      | nil => rwa [List.intercalate_singleton]
      | cons part' parts' =>
          rw [List.intercalate_cons_cons, List.length_append, List.length_append]
          simp only [List.length_cons] at hrest ⊢
          omega

theorem exists_of_map_eq_ok {α β ε : Type} {f : α → β} {r : Except ε α} {b : β}
    (h : r.map f = .ok b) : ∃ a, r = .ok a ∧ f a = b := by
  cases r with
  | error e => cases h
  | ok a =>
      cases h
      exact ⟨a, rfl, rfl⟩

/-- What holds of each result of a sequence of computations that succeeds. -/
theorem forall₂_of_mapM {α β ε : Type} {f : α → Except ε β} {R : β → α → Prop} {xs : List α}
    (hstep : ∀ x ∈ xs, ∀ y, f x = .ok y → R y x) {ys : List β} (h : xs.mapM f = .ok ys) :
    List.Forall₂ R ys xs := by
  induction xs generalizing ys with
  | nil =>
      cases h
      exact .nil
  | cons x xs ih =>
      rw [List.mapM_cons] at h
      cases hx : f x with
      | error e =>
          rw [hx] at h
          cases h
      | ok y =>
          rw [hx] at h
          cases hxs : xs.mapM f with
          | error e =>
              rw [hxs] at h
              cases h
          | ok ys' =>
              rw [hxs] at h
              cases h
              exact .cons (hstep x (by simp) y hx) (ih (fun x' hx' => hstep x' (by simp [hx'])) hxs)

theorem forall_mem_of_forall₂ {α β : Type} {R : α → β → Prop} {P : α → Prop}
    (hP : ∀ a b, R a b → P a) {as : List α} {bs : List β} (h : List.Forall₂ R as bs) :
    ∀ a ∈ as, P a := by
  induction h with
  | nil => simp
  | @cons a b as bs hab _ ih =>
      rw [List.forall_mem_cons]
      exact ⟨hP a b hab, ih⟩

/-- No word begins like a number. -/
theorem constants_ne_plain {sign : List Char} (hsign : sign = [] ∨ sign = ['-'])
    {ds : List (Fin 10)} (hds : Unpadded ds) (rest : List Char) :
    constants.find? (fun word => word.1.isPrefixOf (sign ++ plain ds ++ rest)) = none := by
  have hwords : ∀ d : Fin 10, ∀ word ∈ constants,
      2 ≤ word.1.length ∧ word.1.take 1 ≠ [asciiDigit d] ∧ word.1.take 2 ≠ ['-', asciiDigit d] := by
    decide
  obtain ⟨d, tail, rfl⟩ := List.exists_cons_of_ne_nil hds.nonempty
  rw [List.find?_eq_none]
  intro word hword hprefix
  obtain ⟨hlen, hone, htwo⟩ := hwords d word hword
  obtain ⟨after, hafter⟩ := List.isPrefixOf_iff_prefix.mp hprefix
  rcases hsign with rfl | rfl
  · apply hone
    rw [← List.take_append_of_le_length (by omega), hafter]
    rfl
  · apply htwo
    rw [← List.take_append_of_le_length (by omega), hafter]
    rfl

theorem scanAtom_intRepr {n : ℤ} {text rest : List Char} (h : intRepr n = .ok text)
    (hrest : EndsValue rest) : scanAtom (text ++ rest) = .ok (.int n, rest) := by
  have hnumber := scanNumber_intRepr h hrest
  obtain ⟨sign, ds, hsign, hds, rfl, -⟩ := exists_plain_intRepr h
  rw [scanAtom, constants_ne_plain hsign hds]
  exact hnumber

/-- What begins with neither a quote nor a bracket is an atom. -/
theorem scanValue_atom (limit : ℕ) {s : List Char}
    (h : ∀ c ∈ s.head?, c ≠ '"' ∧ c ≠ '{' ∧ c ≠ '[') : scanValue limit s = scanAtom s := by
  have honce : ∀ object array : Scanner Json, scanOnce object array s = scanAtom s := by
    intro object array
    cases s with
    | nil => rfl
    | cons c tail =>
        obtain ⟨hquote, hbrace, hbracket⟩ := h c rfl
        rw [scanOnce]
        · exact fun _ heq => hquote (List.cons.inj heq).1
        · exact fun _ heq => hbrace (List.cons.inj heq).1
        · exact fun _ heq => hbracket (List.cons.inj heq).1
  cases limit with
  | zero => exact honce _ _
  | succ limit => exact honce _ _

theorem reads_int {limit : ℕ} {n : ℤ} {text : List Char} (h : intRepr n = .ok text) :
    Reads (scanValue limit) text (.int n) := by
  have hdigit : ∀ d : Fin 10, isJsonSpace (asciiDigit d) = false ∧ asciiDigit d ≠ ']' ∧
      asciiDigit d ≠ '}' ∧ asciiDigit d ≠ '"' ∧ asciiDigit d ≠ '{' ∧ asciiDigit d ≠ '[' := by
    decide
  have hhead : ∃ c tail, text = c :: tail ∧ (c = '-' ∨ ∃ d, c = asciiDigit d) := by
    obtain ⟨sign, ds, hsign, hds, rfl, -⟩ := exists_plain_intRepr h
    obtain ⟨d, tail, rfl⟩ := List.exists_cons_of_ne_nil hds.nonempty
    rcases hsign with rfl | rfl
    · exact ⟨asciiDigit d, plain tail, rfl, .inr ⟨d, rfl⟩⟩
    · exact ⟨'-', plain (d :: tail), rfl, .inl rfl⟩
  obtain ⟨c, tail, htext, hc⟩ := hhead
  have hclass : isJsonSpace c = false ∧ c ≠ ']' ∧ c ≠ '}' ∧ c ≠ '"' ∧ c ≠ '{' ∧ c ≠ '[' := by
    rcases hc with rfl | ⟨d, rfl⟩
    · decide
    · exact hdigit d
  constructor
  case starts => exact ⟨c, tail, htext, hclass.1, hclass.2.1, hclass.2.2.1⟩
  case scans =>
    intro rest hrest
    rw [scanValue_atom limit, scanAtom_intRepr h hrest]
    intro c' hc'
    rw [htext] at hc'
    cases hc'
    exact hclass.2.2.2

/-- A word is read as its value. -/
theorem reads_constant {limit : ℕ} {text : List Char} {x : Json}
    (h : (text, x) ∈ constants.take 3) : Reads (scanValue limit) text x := by
  simp only [constants, List.take_succ_cons, List.take_zero, List.mem_cons, Prod.mk.injEq,
    List.not_mem_nil, or_false] at h
  rcases h with ⟨rfl, rfl⟩ | ⟨rfl, rfl⟩ | ⟨rfl, rfl⟩ <;>
    exact ⟨⟨_, _, rfl, by decide⟩, fun rest _ => (scanValue_atom limit (by simp)).trans rfl⟩

theorem escapeString_append (s : String) (rest : List Char) :
    escapeString s ++ rest = '"' :: (s.toList.flatMap escapeChar ++ '"' :: rest) := by
  simp [escapeString]

theorem reads_str {limit : ℕ} (s : String) : Reads (scanValue limit) (escapeString s) (.str s) := by
  constructor
  case starts => exact ⟨'"', _, rfl, by decide⟩
  case scans =>
    intro rest _
    have honce : ∀ object array : Scanner Json,
        scanOnce object array (escapeString s ++ rest) = .ok (.str s, rest) := by
      intro object array
      rw [escapeString_append, scanOnce, scanString_escaped]
    cases limit with
    | zero => exact honce _ _
    | succ limit => exact honce _ _

/-- A key and its value. -/
theorem reads_member {value : Scanner Json} {key : String} {text : List Char} {x : Json}
    (h : Reads value text x) :
    Reads (scanMember value) (escapeString key ++ ':' :: text) (key, x) := by
  constructor
  case starts => exact ⟨'"', _, escapeString_append key _, by decide⟩
  case scans =>
    intro rest hrest
    have hcolon : isJsonSpace ':' = false := rfl
    rw [List.append_assoc, escapeString_append, scanMember, scanString_escaped]
    simp only [List.cons_append, skipSpace_cons hcolon]
    rw [h.starts.skipSpace, h.scans rest hrest]
    rfl

/-- The parts of a list or dictionary, between its brackets. -/
theorem scanElements_parts {α : Type} {close : Char} (hclose : close = ']' ∨ close = '}')
    {element : Scanner α} {parts : List (List Char)} {xs : List α}
    (h : List.Forall₂ (Reads element) parts xs) (hne : parts ≠ []) (rest : List Char) :
    scanElements close element ([','].intercalate parts ++ close :: rest).length
      ([','].intercalate parts ++ close :: rest) = .ok (xs, rest) := by
  apply scanElements_intercalate hclose h hne
  have hparts : ∀ part ∈ parts, part ≠ [] :=
    forall_mem_of_forall₂ (fun part x hpart => hpart.starts.ne_nil) h
  have hlen := length_le_intercalate hparts
  rw [List.length_append]
  omega

/-- The first part starts the text between the brackets. -/
theorem starts_intercalate {α : Type} {element : Scanner α} {parts : List (List Char)}
    {xs : List α} (h : List.Forall₂ (Reads element) parts xs) (hne : parts ≠ []) :
    Starts ([','].intercalate parts) := by
  cases h with
  | nil => exact absurd rfl hne
  | @cons part x parts xs hpart _ =>
      obtain ⟨c, tail, rfl, hc⟩ := hpart.starts
      cases parts with
      | nil => exact ⟨c, tail, List.intercalate_singleton, hc⟩
      | cons part' parts' =>
          rw [List.intercalate_cons_cons_left]
          exact ⟨c, _, rfl, hc⟩

theorem scanArray_parts {value : Scanner Json} {parts : List (List Char)} {items : List Json}
    (h : List.Forall₂ (Reads value) parts items) (rest : List Char) :
    scanArray value ([','].intercalate parts ++ ']' :: rest) = .ok (.arr items, rest) := by
  by_cases hne : parts = []
  · subst hne
    cases h
    rfl
  · have hscan := scanElements_parts (.inl rfl) h hne rest
    obtain ⟨c, tail, htext, hc, hbracket, -⟩ := starts_intercalate h hne
    rw [htext, List.cons_append] at hscan ⊢
    rw [scanArray, skipSpace_cons hc]
    split
    · rename_i heq
      exact absurd (List.cons.inj heq).1 hbracket
    · rw [hscan]
      rfl

theorem scanObject_parts {value : Scanner Json} {parts : List (List Char)}
    {fields : List (String × Json)} (h : List.Forall₂ (Reads (scanMember value)) parts fields)
    (hdistinct : (fields.map Prod.fst).Nodup) (rest : List Char) :
    scanObject value ([','].intercalate parts ++ '}' :: rest) = .ok (.obj fields, rest) := by
  by_cases hne : parts = []
  · subst hne
    cases h
    rfl
  · have hscan := scanElements_parts (.inr rfl) h hne rest
    obtain ⟨c, tail, htext, hc, -, hbrace⟩ := starts_intercalate h hne
    rw [htext, List.cons_append] at hscan ⊢
    rw [scanObject, skipSpace_cons hc]
    split
    · rename_i heq
      exact absurd (List.cons.inj heq).1 hbrace
    · rw [hscan]
      simp only [Except.map, Dict.entries_ofList hdistinct]

/-- Every text the writer emits is read as the value it was written for. -/
theorem reads_dumps {repr : PyFloat → List Char} {limit limit' : ℕ} (hlimit : limit ≤ limit')
    {x : Json} (hx : x.Portable) {text : List Char} (h : dumps repr limit x = .ok text) :
    Reads (scanValue limit') text x := by
  induction hx generalizing limit limit' text with
  | null =>
      rw [dumps] at h
      cases h
      exact reads_constant (by simp [constants])
  | bool b =>
      rw [dumps] at h
      cases h
      cases b <;> exact reads_constant (by simp [constants])
  | int n =>
      rw [dumps] at h
      exact reads_int h
  | str s =>
      rw [dumps] at h
      cases h
      exact reads_str s
  | @arr items _ ih =>
      cases limit with
      | zero => cases h
      | succ limit =>
          obtain ⟨deeper, rfl⟩ : ∃ n, limit' = n + 1 := ⟨limit' - 1, by omega⟩
          rw [dumps] at h
          obtain ⟨parts, hparts, rfl⟩ := exists_of_map_eq_ok h
          have hreads : List.Forall₂ (Reads (scanValue deeper)) parts items :=
            forall₂_of_mapM (fun x hx text htext => ih x hx (by omega) htext) hparts
          refine ⟨⟨'[', _, rfl, by decide⟩, ?_⟩
          intro rest _
          rw [List.append_assoc, List.cons_append, scanValue, scanOnce]
          exact scanArray_parts hreads rest
  | @obj fields hdistinct _ ih =>
      cases limit with
      | zero => cases h
      | succ limit =>
          obtain ⟨deeper, rfl⟩ : ∃ n, limit' = n + 1 := ⟨limit' - 1, by omega⟩
          rw [dumps] at h
          obtain ⟨parts, hparts, rfl⟩ := exists_of_map_eq_ok h
          have hreads : List.Forall₂ (Reads (scanMember (scanValue deeper))) parts fields := by
            refine forall₂_of_mapM ?_ hparts
            intro f hf part hpart
            obtain ⟨text, htext, rfl⟩ := exists_of_map_eq_ok hpart
            exact reads_member (ih f hf (by omega) htext)
          refine ⟨⟨'{', _, rfl, by decide⟩, ?_⟩
          intro rest _
          rw [List.append_assoc, List.cons_append, scanValue, scanOnce]
          exact scanObject_parts hreads hdistinct rest

/-! ## The writer's text is ASCII -/

/-- Every character is ASCII. -/
def Ascii (text : List Char) : Prop := ∀ c ∈ text, c.toNat < 128

theorem Ascii.cons {c : Char} {text : List Char} (hc : c.toNat < 128) (h : Ascii text) :
    Ascii (c :: text) := by
  intro c' hc'
  rcases List.mem_cons.mp hc' with rfl | hmem
  · exact hc
  · exact h c' hmem

theorem Ascii.append {text text' : List Char} (h : Ascii text) (h' : Ascii text') :
    Ascii (text ++ text') := by
  intro c hc
  rcases List.mem_append.mp hc with hmem | hmem
  · exact h c hmem
  · exact h' c hmem

theorem Ascii.intercalate {parts : List (List Char)} (h : ∀ part ∈ parts, Ascii part) :
    Ascii ([','].intercalate parts) := by
  induction parts with
  | nil => simp [Ascii]
  | cons part parts ih =>
      have hpart := h part (by simp)
      cases parts with
      | nil => rwa [List.intercalate_singleton]
      | cons part' parts' =>
          rw [List.intercalate_cons_cons]
          refine (hpart.append ?_).append (ih fun p hp => h p (by simp [hp]))
          simp [Ascii]

theorem ascii_plain (ds : List (Fin 10)) : Ascii (plain ds) := by
  have hdigit : ∀ d : Fin 10, (asciiDigit d).toNat < 128 := by decide
  intro c hc
  obtain ⟨d, -, rfl⟩ := List.mem_map.mp hc
  exact hdigit d

theorem ascii_intRepr {n : ℤ} {text : List Char} (h : intRepr n = .ok text) : Ascii text := by
  obtain ⟨sign, ds, hsign, -, rfl, -⟩ := exists_plain_intRepr h
  refine Ascii.append ?_ (ascii_plain ds)
  rcases hsign with rfl | rfl <;> simp [Ascii]

theorem ascii_escapeUnit {n : ℕ} (h : n < 0x10000) : Ascii (escapeUnit n) := by
  have hdigit : ∀ d < 16, (Nat.digitChar d).toNat < 128 := by decide
  intro c hc
  simp only [escapeUnit, List.mem_cons, List.not_mem_nil, or_false] at hc
  rcases hc with rfl | rfl | rfl | rfl | rfl | rfl
  · decide
  · decide
  · exact hdigit _ (by omega)
  · exact hdigit _ (by omega)
  · exact hdigit _ (by omega)
  · exact hdigit _ (by omega)

theorem ascii_escapeChar (c : Char) : Ascii (escapeChar c) := by
  rw [escapeChar]
  cases hshort : shortEscapes.lookup c with
  | some letter =>
      have hmem : (c, letter) ∈ shortEscapes := (Dict.lookup_eq_some_iff_mem (by decide)).mp hshort
      have hletters : ∀ e ∈ shortEscapes, e.2.toNat < 128 := by decide
      intro c' hc'
      rcases List.mem_cons.mp hc' with rfl | hc'
      · decide
      · rw [List.mem_singleton.mp hc']
        exact hletters _ hmem
  | none =>
      dsimp only
      split
      · intro c' hc'
        rw [List.mem_singleton.mp hc']
        omega
      · intro c' hc'
        obtain ⟨n, hn, hc'⟩ := List.mem_flatMap.mp hc'
        exact ascii_escapeUnit (utf16_lt c n hn) c' hc'

theorem ascii_escapeString (s : String) : Ascii (escapeString s) := by
  refine Ascii.append (.cons (by decide) ?_) (by simp [Ascii])
  intro c hc
  obtain ⟨c', -, hc⟩ := List.mem_flatMap.mp hc
  exact ascii_escapeChar c' c hc

theorem ascii_dumps {repr : PyFloat → List Char} {limit : ℕ} {x : Json} (hx : x.Portable)
    {text : List Char} (h : dumps repr limit x = .ok text) : Ascii text := by
  induction hx generalizing limit text with
  | null =>
      rw [dumps] at h
      cases h
      simp [Ascii]
  | bool b =>
      rw [dumps] at h
      cases h
      cases b <;> simp [Ascii]
  | int n =>
      rw [dumps] at h
      exact ascii_intRepr h
  | str s =>
      rw [dumps] at h
      cases h
      exact ascii_escapeString s
  | @arr items _ ih =>
      cases limit with
      | zero => cases h
      | succ limit =>
          rw [dumps] at h
          obtain ⟨parts, hparts, rfl⟩ := exists_of_map_eq_ok h
          have hascii : List.Forall₂ (fun text _ => Ascii text) parts items :=
            forall₂_of_mapM (fun x hx text htext => ih x hx htext) hparts
          have hparts := forall_mem_of_forall₂ (P := Ascii) (fun _ _ hpart => hpart) hascii
          exact Ascii.append (.cons (by decide) (.intercalate hparts)) (by simp [Ascii])
  | @obj fields _ _ ih =>
      cases limit with
      | zero => cases h
      | succ limit =>
          rw [dumps] at h
          obtain ⟨parts, hparts, rfl⟩ := exists_of_map_eq_ok h
          have hascii : List.Forall₂ (fun text _ => Ascii text) parts fields := by
            refine forall₂_of_mapM ?_ hparts
            intro f hf part hpart
            obtain ⟨text, htext, rfl⟩ := exists_of_map_eq_ok hpart
            exact (ascii_escapeString f.1).append (.cons (by decide) (ih f hf htext))
          have hparts := forall_mem_of_forall₂ (P := Ascii) (fun _ _ hpart => hpart) hascii
          exact Ascii.append (.cons (by decide) (.intercalate hparts)) (by simp [Ascii])

/-! ## Round trip -/

/-- **Round trip.**  What the writer emits, the reader reads back. -/
theorem loads_dumps {repr : PyFloat → List Char} {limit limit' : ℕ} (hlimit : limit ≤ limit')
    {x : Json} (hx : x.Portable) {text : List Char} (h : dumps repr limit x = .ok text) :
    loads limit' text = .ok x := by
  have hreads := reads_dumps hlimit hx h
  have hskip := hreads.starts.skipSpace []
  have hscan := hreads.scans [] endsValue_nil
  have hmark : text.head? ≠ some '\uFEFF' := by
    intro hhead
    have hlt := ascii_dumps hx h '\uFEFF' (List.mem_of_mem_head? hhead)
    exact absurd hlt (by decide)
  rw [List.append_nil] at hskip hscan
  rw [loads, if_neg hmark, hskip, hscan]
  rfl

/-! ## When the writer succeeds -/

/-- The values that can be written: nested no deeper than the limit, and without an
integer of more digits than `str` converts. -/
def writable : ℕ → Json → Bool
  | _, .int n => decide ((Nat.digits 10 n.natAbs).length ≤ maxStrDigits)
  | 0, .arr _ => false
  | 0, .obj _ => false
  | limit + 1, .arr items => items.all (writable limit)
  | limit + 1, .obj fields => fields.all fun f => writable limit f.2
  | _, _ => true

theorem writable_int (limit : ℕ) (n : ℤ) : writable limit (.int n) =
    decide ((Nat.digits 10 n.natAbs).length ≤ maxStrDigits) := by
  rw [writable]

/-- A power of ten with a digit too many. -/
theorem not_writable_pow {n : ℕ} (h : maxStrDigits ≤ n) (limit : ℕ) :
    writable limit (.int (10 ^ n)) = false := by
  have habs : ((10 : ℤ) ^ n).natAbs = 10 ^ n := Int.natAbs_pow 10 n
  rw [writable_int, decide_eq_false_iff_not, Nat.digits_length_le_iff (by norm_num), habs,
    not_lt]
  exact Nat.pow_le_pow_right (by norm_num) h

theorem writable_str (limit : ℕ) (s : String) : writable limit (.str s) = true := by
  cases limit <;> rfl

theorem isOk_map {α β ε : Type} (f : α → β) (r : Except ε α) : (r.map f).isOk = r.isOk := by
  cases r <;> rfl

theorem isOk_mapM {α β ε : Type} (f : α → Except ε β) (xs : List α) :
    (xs.mapM f).isOk = xs.all fun x => (f x).isOk := by
  induction xs with
  | nil => rfl
  | cons x xs ih =>
      rw [List.mapM_cons, List.all_cons, ← ih]
      cases f x with
      | error e => rfl
      | ok y => cases xs.mapM f <;> rfl

theorem isOk_intRepr (n : ℤ) :
    (intRepr n).isOk = decide ((Nat.digits 10 n.natAbs).length ≤ maxStrDigits) := by
  rw [intRepr]
  split
  · rename_i hlong
    rw [decide_eq_false (by omega)]
    rfl
  · rename_i hshort
    rw [decide_eq_true (by omega)]
    rfl

/-- A value is written exactly if it can be, however floats are written. -/
theorem isOk_dumps (repr : PyFloat → List Char) (limit : ℕ) (x : Json) :
    (dumps repr limit x).isOk = writable limit x := by
  induction limit generalizing x with
  | zero =>
      cases x with
      | int n => exact isOk_intRepr n
      | null | bool | float | str | arr | obj => rfl
  | succ limit ih =>
      cases x with
      | int n => exact isOk_intRepr n
      | arr items => rw [dumps, isOk_map, isOk_mapM, writable, funext ih]
      | obj fields => simp only [dumps, isOk_map, isOk_mapM, writable, ih]
      | null | bool | float | str => rfl

theorem exists_dumps {limit : ℕ} {x : Json} (h : writable limit x = true)
    (repr : PyFloat → List Char) : ∃ text, dumps repr limit x = .ok text := by
  have hok := isOk_dumps repr limit x
  rw [h] at hok
  cases hdumps : dumps repr limit x with
  | ok text => exact ⟨text, rfl⟩
  | error e =>
      rw [hdumps] at hok
      cases hok

/-- Falsy values are written: they are not nested and have one digit. -/
theorem writable_of_not_truthy {x : Json} (h : x.truthy = false) (limit : ℕ) :
    writable (limit + 1) x = true := by
  cases x with
  | int n =>
      obtain rfl : n = 0 := by simpa [Json.truthy] using h
      rfl
  | arr items =>
      obtain rfl : items = [] := by simpa [Json.truthy] using h
      rfl
  | obj fields =>
      obtain rfl : fields = [] := by simpa [Json.truthy] using h
      rfl
  | null | bool | float | str => rfl

/-- What writing a value depends on: how floats are written, and how deep the interpreter
goes; no interpreter stops before the second level. -/
structure Encoder where
  repr : PyFloat → List Char
  limit : ℕ
  deep : 2 ≤ limit

/-- The usual recursion limit; floats are left out. -/
def Encoder.plain : Encoder := ⟨fun _ => [], 1000, by decide⟩

end PyLib
