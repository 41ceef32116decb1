import SotRwb1.Lib.Decimal
import SotRwb1.Protocol.Fingerprint

/-!
# Documented frames decode to their values

`Documented` is the documented frame format: the six shapes, with arbitrary
digits and arbitrary contents in the fields a shape leaves open.  Its values are
read off the digits directly, independently of the decoder.

## Main definitions

* `Numeral`, `Decimal`, `Digits`, `Tenths`, `Token` — the parts of a shape.
* `Documented`, `Documented.fields`, `Documented.text` — the frames.
* `Documented.readings` — the values a frame carries, under their keys.
-/

namespace SotRwb1

open PyLib

/-! ## Parts of a frame -/

/-- A numeral of one to twelve digits. -/
structure Numeral where
  digits : List (Fin 10)
  nonempty : digits ≠ []
  short : digits.length ≤ 12

/-- An unsigned decimal, with or without a fraction. -/
structure Decimal where
  whole : Numeral
  frac : Option Numeral

/-- A fixed number of digits, at least one and at most twelve. -/
structure Digits (n : ℕ) where
  digits : List (Fin 10)
  length : digits.length = n
  bounds : 0 < n ∧ n ≤ 12

/-- A fixed number of digits, a point and one digit. -/
structure Tenths (n : ℕ) where
  whole : Digits n
  tenth : Fin 10

/-- At least so many digits. -/
structure DigitsFrom (n : ℕ) where
  digits : List (Fin 10)
  length : n ≤ digits.length
  nonempty : 0 < n

/-- Non-empty and without whitespace. -/
def Solid (f : Field) : Prop := f ≠ [] ∧ ∀ c ∈ f, isSpace c = false

/-- A field with arbitrary contents. -/
structure Token where
  text : Field
  solid : Solid text

def Numeral.text (x : Numeral) : Field := plain x.digits

def Numeral.value (x : Numeral) : ℕ := plainNat x.digits

def Decimal.text (x : Decimal) : Field := plainDecimal x.whole.digits (x.frac.map (·.digits))

def Decimal.value (x : Decimal) : ℚ := plainRat x.whole.digits (x.frac.map (·.digits))

def Digits.text {n : ℕ} (x : Digits n) : Field := plain x.digits

def Digits.value {n : ℕ} (x : Digits n) : ℕ := plainNat x.digits

def Tenths.text {n : ℕ} (x : Tenths n) : Field := plainDecimal x.whole.digits (some [x.tenth])

def Tenths.value {n : ℕ} (x : Tenths n) : ℚ := plainRat x.whole.digits (some [x.tenth])

def DigitsFrom.text {n : ℕ} (x : DigitsFrom n) : Field := plain x.digits

/-! ## Frames -/

/-- A frame of one of the six documented shapes. -/
inductive Documented where
  | energy (date : Digits 6) (hour minute : Digits 2) (today week year total : Decimal)
      (rest : List Token)
  | pv (voltage : Tenths 3) (current : Decimal) (power : Numeral) (marker : DigitsFrom 4)
      (markerTenth : Fin 10) (field4 switch : Token) (field6 : Tenths 3) (rest : List Token)
  | load (voltage : Tenths 3) (frequency : Tenths 2) (apparent active percent : Numeral)
      (field5 field6 field7 field8 : Token)
  | grid (voltage : Tenths 3) (frequency : Decimal) (field2 field3 : Digits 3)
      (field4 field5 : Token) (negative : Bool) (power : Numeral) (field7 field8 field9 : Token)
  | battery (series : Digits 2) (voltage : Tenths 3) (soc charge discharge : Numeral)
      (rest : List Token)
  | temperature (inverter : Digits 3) (field1 field2 field3 field4 field5 field6 : Digits 3)
      (rest : List Token) (mask : DigitsFrom 8)

namespace Documented

/-- The block a documented frame belongs to. -/
def block : Documented → Block
  | energy .. => .energy
  | pv .. => .pv
  | load .. => .load
  | grid .. => .grid
  | battery .. => .battery
  | temperature .. => .temperature

/-- The fields of a frame. -/
def fields : Documented → List Field
  | energy date hour minute today week year total rest =>
      [date.text, hour.text ++ ':' :: minute.text, today.text, week.text, year.text, total.text] ++
        rest.map (·.text)
  | pv voltage current power marker markerTenth field4 switch field6 rest =>
      [voltage.text, current.text, power.text, marker.text ++ '.' :: plain [markerTenth],
        field4.text, switch.text, field6.text] ++ rest.map (·.text)
  | load voltage frequency apparent active percent field5 field6 field7 field8 =>
      [voltage.text, frequency.text, apparent.text, active.text, percent.text, field5.text,
        field6.text, field7.text, field8.text]
  | grid voltage frequency field2 field3 field4 field5 negative power field7 field8 field9 =>
      [voltage.text, frequency.text, field2.text, field3.text, field4.text, field5.text,
        signChar negative :: power.text, field7.text, field8.text, field9.text]
  | battery series voltage soc charge discharge rest =>
      [series.text, voltage.text, soc.text, charge.text, discharge.text] ++ rest.map (·.text)
  | temperature inverter field1 field2 field3 field4 field5 field6 rest mask =>
      [inverter.text, field1.text, field2.text, field3.text, field4.text, field5.text,
        field6.text] ++ rest.map (·.text) ++ [mask.text]

/-- The text of a frame: an opening parenthesis, the fields joined by single
spaces, a carriage return. -/
def text (d : Documented) : List Char := '(' :: [' '].intercalate d.fields ++ ['\r']

/-- The values a frame carries, in the order of its block's keys. -/
def values : Documented → List Json
  | energy _ _ _ today week year total _ =>
      [.float (.finite today.value), .float (.finite week.value), .float (.finite year.value),
        .float (.finite total.value)]
  | pv voltage current power _ _ _ switch _ _ =>
      [.float (.finite voltage.value), .float (.finite current.value), .int power.value,
        .str (String.ofList switch.text)]
  | load voltage frequency apparent active percent .. =>
      [.float (.finite voltage.value), .float (.finite frequency.value), .int apparent.value,
        .int active.value, .int percent.value]
  | grid voltage frequency _ _ _ _ negative power .. =>
      [.float (.finite voltage.value), .float (.finite frequency.value),
        .int (applySign negative power.value)]
  | battery series voltage soc charge discharge _ =>
      [.int series.value, .float (.finite voltage.value), .int soc.value, .int charge.value,
        .int discharge.value]
  | temperature inverter .. => [.int inverter.value]

end Documented

/-! ## Conversions of the parts -/

theorem Digits.ne_nil {n : ℕ} (x : Digits n) : x.digits ≠ [] := by
  intro h
  have hlen := x.length
  have hpos := x.bounds.1
  rw [h, List.length_nil] at hlen
  omega

@[simp] theorem toInt_numeral (x : Numeral) : toInt x.text = some (.int x.value) := by
  have hlen : x.digits.length ≤ maxStrDigits := x.short.trans (by decide)
  rw [toInt, Numeral.text, pyInt_plain x.nonempty hlen]
  rfl

@[simp] theorem toInt_signed (negative : Bool) (x : Numeral) :
    toInt (signChar negative :: x.text) = some (.int (applySign negative x.value)) := by
  have hlen : x.digits.length ≤ maxStrDigits := x.short.trans (by decide)
  rw [toInt, Numeral.text, pyInt_signed negative x.nonempty hlen]
  rfl

@[simp] theorem toInt_digits {n : ℕ} (x : Digits n) : toInt x.text = some (.int x.value) := by
  have hlen : x.digits.length ≤ maxStrDigits := by
    rw [x.length]
    exact x.bounds.2.trans (by decide)
  rw [toInt, Digits.text, pyInt_plain x.ne_nil hlen]
  rfl

@[simp] theorem toFloat_decimal (x : Decimal) :
    toFloat x.text = some (.float (.finite x.value)) := by
  have hlen : x.whole.digits.length ≤ 308 := x.whole.short.trans (by decide)
  rw [toFloat, Decimal.text, pyFloat_plainDecimal x.whole.nonempty, Option.map_some,
    inRange_plainRat hlen]
  rfl

@[simp] theorem toFloat_tenths {n : ℕ} (x : Tenths n) :
    toFloat x.text = some (.float (.finite x.value)) := by
  have hlen : x.whole.digits.length ≤ 308 := by
    rw [x.whole.length]
    exact x.whole.bounds.2.trans (by decide)
  rw [toFloat, Tenths.text, pyFloat_plainDecimal x.whole.ne_nil, Option.map_some,
    inRange_plainRat hlen]
  rfl

/-- Every documented field converts. -/
theorem Documented.conversions_eq (d : Documented) :
    d.block.conversions d.fields = d.values.map some := by
  cases d <;> simp [block, Block.conversions, fields, values]

/-! ## Splitting -/

theorem solid_plain (ds : List (Fin 10)) (h : ds ≠ []) : Solid (plain ds) :=
  ⟨by simpa [plain] using h, forall_mem_plain isSpace_asciiDigit ds⟩

theorem solid_plainDecimal {whole : List (Fin 10)} (h : whole ≠ [])
    (frac : Option (List (Fin 10))) : Solid (plainDecimal whole frac) :=
  ⟨by simp [plainDecimal, plain, h],
    forall_mem_plainDecimal isSpace_asciiDigit (by decide) whole frac⟩

theorem solid_append {a b : Field} (ha : Solid a) (hb : ∀ c ∈ b, isSpace c = false) :
    Solid (a ++ b) := by
  refine ⟨by simp [ha.1], ?_⟩
  intro c hc
  rcases List.mem_append.mp hc with hc | hc
  · exact ha.2 c hc
  · exact hb c hc

theorem solid_cons {c : Char} {f : Field} (hc : isSpace c = false) (hf : Solid f) :
    Solid (c :: f) := by
  refine ⟨by simp, ?_⟩
  intro c' hc'
  rcases List.mem_cons.mp hc' with rfl | hc'
  · exact hc
  · exact hf.2 c' hc'

@[simp] theorem Numeral.solid (x : Numeral) : Solid x.text := solid_plain _ x.nonempty

@[simp] theorem Decimal.solid (x : Decimal) : Solid x.text :=
  solid_plainDecimal x.whole.nonempty _

@[simp] theorem Digits.solid {n : ℕ} (x : Digits n) : Solid x.text := solid_plain _ x.ne_nil

@[simp] theorem Tenths.solid {n : ℕ} (x : Tenths n) : Solid x.text :=
  solid_plainDecimal x.whole.ne_nil _

@[simp] theorem DigitsFrom.solid {n : ℕ} (x : DigitsFrom n) : Solid x.text := by
  apply solid_plain
  intro h
  have hlen := x.length
  have hpos := x.nonempty
  rw [h, List.length_nil] at hlen
  omega

attribute [simp] Token.solid

@[simp] theorem solid_time (hour minute : Digits 2) :
    Solid (hour.text ++ ':' :: minute.text) :=
  solid_append hour.solid (solid_cons (by decide) minute.solid).2

@[simp] theorem solid_marker (marker : DigitsFrom 4) (tenth : Fin 10) :
    Solid (marker.text ++ ['.', asciiDigit tenth]) :=
  solid_append marker.solid (solid_cons (by decide) (solid_plain [tenth] (by simp))).2

@[simp] theorem solid_signed (negative : Bool) (x : Numeral) :
    Solid (signChar negative :: x.text) :=
  solid_cons (by cases negative <;> decide) x.solid

theorem Documented.solid_fields (d : Documented) : ∀ f ∈ d.fields, Solid f := by
  cases d <;>
    simp only [fields, List.forall_mem_append, List.forall_mem_cons, List.forall_mem_map] <;>
    simp

theorem Documented.fields_ne_nil (d : Documented) : d.fields ≠ [] := by
  cases d <;> simp [fields]

/-- A joined text ends with its last field. -/
theorem intercalate_eq_append_getLast {fields : List Field} (hne : fields ≠ []) :
    ∃ front, [' '].intercalate fields = front ++ fields.getLast hne := by
  induction fields with
  | nil => exact absurd rfl hne
  | cons f rest ih =>
      cases rest with
      | nil => exact ⟨[], by simp⟩
      | cons g rest' =>
          obtain ⟨front, hfront⟩ := ih (by simp)
          refine ⟨f ++ ' ' :: front, ?_⟩
          rw [List.getLast_cons (by simp), List.append_assoc, List.cons_append, ← hfront]
          simp [List.intercalate, List.intersperse]

/-- A joined text ends in a character that is not whitespace. -/
theorem isSpace_getLast_intercalate {fields : List Field} (hne : fields ≠ [])
    (hsolid : ∀ f ∈ fields, Solid f) (h : [' '].intercalate fields ≠ []) :
    isSpace (([' '].intercalate fields).getLast h) = false := by
  obtain ⟨front, hfront⟩ := intercalate_eq_append_getLast hne
  have hlast := hsolid _ (List.getLast_mem hne)
  have heq : ([' '].intercalate fields).getLast h = (fields.getLast hne).getLast hlast.1 := by
    simp only [hfront]
    exact List.getLast_append_of_ne_nil _ hlast.1
  rw [heq]
  exact hlast.2 _ (List.getLast_mem hlast.1)

/-- The fields of a frame come back from its text. -/
theorem splitFrame_join {fields : List Field} (hne : fields ≠ [])
    (hsolid : ∀ f ∈ fields, Solid f) :
    splitFrame ('(' :: [' '].intercalate fields ++ ['\r']) = fields := by
  have hstrip : strip ('(' :: [' '].intercalate fields ++ ['\r']) =
      '(' :: [' '].intercalate fields := by
    apply strip_append
    · intro c hc
      rw [List.mem_singleton.mp hc]
      decide
    · intro c hc
      cases hc
      decide
    · intro hs
      by_cases h : [' '].intercalate fields = []
      · simp only [h, List.getLast_singleton]
        decide
      · rw [List.getLast_cons h]
        exact isSpace_getLast_intercalate hne hsolid h
    · simp
  have hrstrip : rstripChars ['\r', '\n'] ([' '].intercalate fields) =
      [' '].intercalate fields := by
    rw [rstripChars, List.rdropWhile_eq_self_iff]
    intro h hmem
    have hspace := isSpace_getLast_intercalate hne hsolid h
    rcases List.mem_pair.mp (by simpa using hmem) with heq | heq
    · rw [heq] at hspace
      exact absurd hspace (by decide)
    · rw [heq] at hspace
      exact absurd hspace (by decide)
  rw [splitFrame, hstrip]
  simp only [hrstrip]
  apply splitSpaces_intercalate _ _ hne
  · intro f hf hmem
    exact absurd ((hsolid f hf).2 ' ' hmem) (by decide)
  · intro f hf
    exact (hsolid f hf).1

theorem Documented.splitFrame_text (d : Documented) : splitFrame d.text = d.fields :=
  splitFrame_join d.fields_ne_nil d.solid_fields

/-! ## Shapes -/

theorem all_isDecimal_plain (ds : List (Fin 10)) : ∀ c ∈ plain ds, isDecimal c = true :=
  forall_mem_plain isDecimal_asciiDigit ds

theorem fullMatch_plain {n : ℕ} {ds : List (Fin 10)} (h : ds.length = n) :
    fullMatch [.exactly n isDecimal] (plain ds) = true := by
  have hlen : (plain ds).length = n := by rw [length_plain, h]
  have hmatch := fullMatch_exactly_append hlen (all_isDecimal_plain ds)
    ((fullMatch_nil_iff []).mpr rfl)
  rwa [List.append_nil] at hmatch

theorem fullMatch_plain_atLeast {n : ℕ} {ds : List (Fin 10)} (h : n ≤ ds.length) :
    fullMatch [.atLeast n isDecimal] (plain ds) = true := by
  have hlen : n ≤ (plain ds).length := by rwa [length_plain]
  have hmatch := fullMatch_atLeast_append hlen (all_isDecimal_plain ds)
    ((fullMatch_nil_iff []).mpr rfl)
  rwa [List.append_nil] at hmatch

theorem reMatch_digits {n : ℕ} (x : Digits n) : reMatch [.exactly n isDecimal] x.text = true :=
  reMatch_of_fullMatch (fullMatch_plain x.length)

theorem reMatch_tenths {n : ℕ} (x : Tenths n) :
    reMatch [.exactly n isDecimal, .lit '.', .exactly 1 isDecimal] x.text = true := by
  apply reMatch_of_fullMatch
  apply fullMatch_exactly_append _ (all_isDecimal_plain x.whole.digits)
  · exact fullMatch_lit_cons (fullMatch_plain rfl)
  · rw [length_plain, x.whole.length]

theorem reMatch_time (hour minute : Digits 2) :
    reMatch reTime (hour.text ++ ':' :: minute.text) = true := by
  apply reMatch_of_fullMatch
  apply fullMatch_exactly_append _ (all_isDecimal_plain hour.digits)
  · exact fullMatch_lit_cons (fullMatch_plain minute.length)
  · rw [length_plain, hour.length]

theorem reMatch_marker (marker : DigitsFrom 4) (tenth : Fin 10) :
    reMatch rePvdot (marker.text ++ '.' :: plain [tenth]) = true := by
  apply reMatch_of_fullMatch
  apply fullMatch_atLeast_append _ (all_isDecimal_plain marker.digits)
  · exact fullMatch_lit_cons (fullMatch_plain rfl)
  · rw [length_plain]
    exact marker.length

theorem reMatch_mask (mask : DigitsFrom 8) : reMatch reLongmask mask.text = true :=
  reMatch_of_fullMatch (fullMatch_plain_atLeast mask.length)

theorem reMatch_signed (negative : Bool) (x : Numeral) :
    reMatch reSigned (signChar negative :: x.text) = true := by
  apply reMatch_of_fullMatch
  apply fullMatch_exactly_append (a := [signChar negative]) rfl
  · cases negative <;> simp [signChar]
  · exact fullMatch_plain_atLeast (List.length_pos_of_ne_nil x.nonempty)

theorem isDigit_plain {ds : List (Fin 10)} (h : ds ≠ []) : isDigit (plain ds) = true := by
  rw [isDigit, Bool.and_eq_true, List.all_eq_true]
  refine ⟨by simpa [plain] using h, ?_⟩
  intro c hc
  rw [isDigitChar, all_isDecimal_plain ds c hc, Bool.true_or]

/-- The matcher of its block accepts a documented frame. -/
theorem Documented.accepts (d : Documented) : d.block.Accepts d.fields := by
  cases d with
  | energy date hour minute today week year total rest =>
      rw [block, accepts_energy_iff]
      exact ⟨by simp [fields], reMatch_digits date, reMatch_time hour minute⟩
  | pv voltage current power marker markerTenth field4 switch field6 rest =>
      rw [block, accepts_pv_iff]
      exact ⟨by simp [fields], reMatch_tenths voltage, reMatch_marker marker markerTenth⟩
  | load voltage frequency apparent active percent field5 field6 field7 field8 =>
      rw [block, accepts_load_iff]
      exact ⟨rfl, reMatch_tenths voltage, reMatch_tenths frequency, isDigit_plain apparent.nonempty,
        isDigit_plain active.nonempty⟩
  | grid voltage frequency field2 field3 field4 field5 negative power field7 field8 field9 =>
      rw [block, accepts_grid_iff]
      exact ⟨rfl, reMatch_tenths voltage, reMatch_signed negative power⟩
  | battery series voltage soc charge discharge rest =>
      rw [block, accepts_battery_iff]
      exact ⟨by simp [fields], reMatch_digits series, reMatch_tenths voltage⟩
  | temperature inverter field1 field2 field3 field4 field5 field6 rest mask =>
      rw [block, accepts_temperature_iff]
      refine ⟨by simp [fields], ?_, ?_⟩
      · intro s hs
        have hmem : s ∈ [inverter.text, field1.text, field2.text, field3.text, field4.text,
            field5.text, field6.text] := by simpa [fields] using hs
        simp only [List.mem_cons, List.not_mem_nil, or_false] at hmem
        rcases hmem with rfl | rfl | rfl | rfl | rfl | rfl | rfl <;> exact reMatch_digits _
      · rw [fields, List.getLastD_concat]
        exact reMatch_mask mask

/-- PV does not claim a documented grid frame: its field 3 is a plain integer. -/
theorem Documented.not_accepts_pv (d : Documented) (h : d.block = .grid) :
    ¬ Block.pv.Accepts d.fields := by
  cases d with
  | grid voltage frequency field2 field3 field4 field5 negative power field7 field8 field9 =>
      intro hpv
      have hmarker := isDigit_of_rePvdot ((accepts_pv_iff _).mp hpv).2.2
      rw [show (fields (grid voltage frequency field2 field3 field4 field5 negative power field7
        field8 field9)).getD 3 [] = plain field3.digits from rfl,
        isDigit_plain field3.ne_nil] at hmarker
      cases hmarker
  | energy | pv | load | battery | temperature => cases h

/-- **Documented frames.**  A documented frame decodes to exactly the keys of its
block, each bound to the value of its documented field, and to no key of another
block. -/
theorem decodeFrame_documented (d : Documented) :
    ∃ values, decodeFrame d.text = some values ∧
      values.entries = d.block.keys.zip d.values ∧
      values.keys = d.block.keys ∧
      ∀ b : Block, b ≠ d.block → ∀ k ∈ b.keys, values.get k = none := by
  have haccepts : d.block.Accepts (splitFrame d.text) := by
    rw [d.splitFrame_text]
    exact d.accepts
  have hpv : d.block = .grid → ¬ Block.pv.Accepts (splitFrame d.text) := by
    rw [d.splitFrame_text]
    exact d.not_accepts_pv
  have hdecode := decodeFrame_of_accepts haccepts hpv
  rw [haccepts.matcher_eq, d.splitFrame_text, d.conversions_eq, Option.map_some] at hdecode
  have hlen : d.block.keys.length = d.values.length := by
    have h := Block.length_conversions d.block d.fields
    rw [d.conversions_eq, List.length_map] at h
    exact h.symm
  have hentries : (Dict.ofList (d.block.keys.zip (d.values.map some))).dropNone.entries =
      d.block.keys.zip d.values := Dict.entries_dropNone_ofList d.block.nodup_keys hlen
  have hkeys : (Dict.ofList (d.block.keys.zip (d.values.map some))).dropNone.keys =
      d.block.keys := by
    rw [Dict.keys, hentries, List.map_fst_zip hlen.le]
  refine ⟨_, hdecode, hentries, hkeys, ?_⟩
  intro b hb k hk
  rw [← Option.not_isSome_iff_eq_none, ← Dict.mem_keys_iff, hkeys]
  intro hmem
  exact hb (Block.disjoint_keys hk hmem)

end SotRwb1
