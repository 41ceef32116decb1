import SotRwb1.Lib.Decimal
import SotRwb1.Lib.Literal
import SotRwb1.Protocol.Fingerprint

/-!
# Measured fields

The fields a block publishes as numbers.  Some are checked by a pattern, some go
to `float` or `int` as they are, and a pattern lets a final newline pass; so a
field can be published that is no plain decimal but reads as a number.

## Main definitions

* `frameValue` — the value a text has for a key.
* `Measured`, `Block.measured` — the measured fields of a block.
* `PlainDecimal` — a sign, digits, and a point and more digits.
* `PublishesPlainDecimals` — only plain decimals become measurements.
* `PlainlyWritten` — the frames of which this holds.
-/

namespace SotRwb1

open PyLib

/-! ## Values of a frame -/

/-- The value a text has for a key. -/
def frameValue (k : String) (text : List Char) : Option Json := (decodeFrame text).bind (·.get k)

/-- An integer or a float. -/
def IsNumber : Json → Prop
  | .int _ => True
  | .float _ => True
  | _ => False

/-- The values of a frame are the conversions of the block that claims it. -/
theorem frameValue_eq_some_iff {k : String} {v : Json} {text : List Char} :
    frameValue k text = some v ↔
      ∃ b, claimant (splitFrame text) = some b ∧
        (k, some v) ∈ b.keys.zip (b.conversions (splitFrame text)) := by
  have hblock : ∀ b, claimant (splitFrame text) = some b →
      (((b.matcher (splitFrame text)).map Dict.dropNone).bind (·.get k) = some v ↔
        (k, some v) ∈ b.keys.zip (b.conversions (splitFrame text))) := by
    intro b hb
    have haccepts : b.Accepts (splitFrame text) := by simpa using List.find?_some hb
    have hlen := b.length_conversions (splitFrame text)
    have hkeys : (b.keys.zip (b.conversions (splitFrame text))).map Prod.fst = b.keys :=
      List.map_fst_zip hlen.ge
    rw [haccepts.matcher_eq, Option.map_some, Option.bind_some, Dict.get_dropNone,
      Option.join_eq_some_iff, Dict.get_eq_some_iff,
      Dict.entries_ofList (by rw [hkeys]; exact b.nodup_keys)]
  have hframe : frameValue k text = (claimant (splitFrame text)).bind fun b =>
      ((b.matcher (splitFrame text)).map Dict.dropNone).bind (·.get k) := by
    rw [frameValue, decodeFrame, decodeFrameWith_eq, Option.bind_assoc]
    rfl
  rw [hframe, Option.bind_eq_some_iff]
  constructor
  · intro hconversion
    rcases hconversion with ⟨b, hb, hvalue⟩
    exact ⟨b, hb, (hblock b hb).mp hvalue⟩
  · intro hclaimed
    rcases hclaimed with ⟨b, hb, hmem⟩
    exact ⟨b, hb, (hblock b hb).mpr hmem⟩

/-! ## Measured fields -/

/-- The conversions of measured fields. -/
inductive Conversion where
  | float
  | int

/-- The conversion of a field. -/
def Conversion.convert : Conversion → Field → Option Json
  | float => toFloat
  | int => toInt

/-- The fields the conversion reads. -/
def Conversion.Reads : Conversion → Field → Prop
  | float => FloatLiteral
  | int => IntLiteral

/-- A measured field: its key, its conversion and its place. -/
structure Measured where
  key : String
  conversion : Conversion
  index : ℕ

/-- The measured fields of a block. -/
def Block.measured : Block → List Measured
  | energy => [⟨"energy_today", .float, 2⟩, ⟨"energy_week", .float, 3⟩, ⟨"energy_year", .float, 4⟩,
      ⟨"energy_total", .float, 5⟩]
  | pv => [⟨"pv_voltage", .float, 0⟩, ⟨"pv_current", .float, 1⟩, ⟨"pv_power", .int, 2⟩]
  | load => [⟨"output_voltage", .float, 0⟩, ⟨"output_frequency", .float, 1⟩,
      ⟨"output_apparent_power", .int, 2⟩, ⟨"output_active_power", .int, 3⟩,
      ⟨"load_percent", .int, 4⟩]
  | grid => [⟨"grid_voltage", .float, 0⟩, ⟨"grid_frequency", .float, 1⟩, ⟨"grid_power", .int, 6⟩]
  | battery => [⟨"battery_count_series", .int, 0⟩, ⟨"battery_voltage", .float, 1⟩,
      ⟨"battery_soc", .int, 2⟩, ⟨"battery_charge_current", .int, 3⟩,
      ⟨"battery_discharge_current", .int, 4⟩]
  | temperature => [⟨"inverter_temperature", .int, 0⟩]

/-- The field of a measurement. -/
def Measured.field (m : Measured) (f : List Field) : Field := f.getD m.index []

/-- The conversions of a block are those of its measured fields, and a PV frame has
one more value, which is text. -/
theorem mem_conversions_iff {b : Block} {f : List Field} {k : String} {c : Option Json} :
    (k, c) ∈ b.keys.zip (b.conversions f) ↔
      (∃ m ∈ b.measured, m.key = k ∧ m.conversion.convert (m.field f) = c) ∨
        (b = .pv ∧ k = "solar_charging_switch" ∧ some (.str (String.ofList (f.getD 5 []))) = c) := by
  cases b <;>
    simp [Block.keys, Block.conversions, Block.measured, Conversion.convert, Measured.field,
      or_assoc, eq_comm]

/-- A measurement is the conversion of its field. -/
theorem frameValue_of_mem_measured {text : List Char} {b : Block}
    (hb : claimant (splitFrame text) = some b) {m : Measured} (hm : m ∈ b.measured) :
    frameValue m.key text = m.conversion.convert (m.field (splitFrame text)) := by
  have hmem : (m.key, m.conversion.convert (m.field (splitFrame text))) ∈
      b.keys.zip (b.conversions (splitFrame text)) :=
    mem_conversions_iff.mpr (.inl ⟨m, hm, rfl, rfl⟩)
  ext v
  rw [frameValue_eq_some_iff]
  constructor
  · intro hconversion
    rcases hconversion with ⟨b', hb', hvalue⟩
    rw [hb, Option.some.injEq] at hb'
    subst hb'
    have hkeys : ((b.keys.zip (b.conversions (splitFrame text))).map Prod.fst).Nodup := by
      rw [List.map_fst_zip (b.length_conversions _).ge]
      exact b.nodup_keys
    exact (Prod.ext_iff.mp (List.inj_on_of_nodup_map hkeys hmem hvalue rfl)).2
  · intro hvalue
    exact ⟨b, hb, hvalue ▸ hmem⟩

/-- A number in a frame is the conversion of a measured field. -/
theorem exists_measured_of_frameValue {text : List Char} {k : String} {v : Json}
    (h : frameValue k text = some v) (hv : IsNumber v) :
    ∃ b, claimant (splitFrame text) = some b ∧ ∃ m ∈ b.measured, m.key = k ∧
      m.conversion.convert (m.field (splitFrame text)) = some v := by
  obtain ⟨b, hb, hmem⟩ := frameValue_eq_some_iff.mp h
  rcases mem_conversions_iff.mp hmem with hmeasured | ⟨-, -, htext⟩
  · exact ⟨b, hb, hmeasured⟩
  · cases htext
    exact hv.elim

/-! ## Plain decimals -/

/-- `[+-]?digits` or `[+-]?digits.digits`; the sign says whether it is a minus. -/
structure PlainDecimal where
  sign : Option Bool
  whole : List (Fin 10)
  frac : Option (List (Fin 10))
  whole_ne_nil : whole ≠ []
  frac_ne_nil : ∀ ds ∈ frac, ds ≠ []

namespace PlainDecimal

def text (p : PlainDecimal) : Field :=
  match p.sign with
  | some negative => signChar negative :: plainDecimal p.whole p.frac
  | none => plainDecimal p.whole p.frac

/-- The number a plain decimal denotes. -/
def value (p : PlainDecimal) : ℚ :=
  if p.sign = some true then -plainRat p.whole p.frac else plainRat p.whole p.frac

/-- `float` reads the number. -/
theorem pyFloat_text (p : PlainDecimal) : pyFloat p.text = some (.finite p.value) := by
  obtain ⟨sign, whole, frac, hwhole, hfrac⟩ := p
  cases sign with
  | none => simpa [text, value] using pyFloat_plainDecimal hwhole frac
  | some negative => simpa [text, value] using pyFloat_signed negative hwhole frac

theorem text_ne_nil (p : PlainDecimal) : p.text ≠ [] := by
  intro h
  have hread := p.pyFloat_text
  rw [h] at hread
  cases hread

end PlainDecimal

/-- The number a published value is. -/
def numberOf : Json → Option ℚ
  | .int n => some n
  | .float (.finite q) => some q
  | _ => none

/-! ## Conversions -/

/-- A field is converted exactly if the conversion reads it. -/
theorem isSome_convert_iff (c : Conversion) (s : Field) : (c.convert s).isSome ↔ c.Reads s := by
  cases c with
  | float => rw [Conversion.convert, toFloat, Option.isSome_map, isSome_pyFloat_iff]; rfl
  | int => rw [Conversion.convert, toInt, Option.isSome_map, isSome_pyInt_iff]; rfl

/-- The number is in the range of the conversion: a float must not be rounded to an
infinity. -/
def Conversion.InRange : Conversion → ℚ → Prop
  | float, q => -floatLimit < q ∧ q < floatLimit
  | int, _ => True

/-- What a plain decimal is converted to. -/
theorem convert_plain {c : Conversion} {p : PlainDecimal} {v : Json}
    (h : c.convert p.text = some v) :
    (c.InRange p.value → numberOf v = some p.value) ∧
      (¬ c.InRange p.value → ∃ negative, v = .float (.infinite negative)) := by
  cases c with
  | float =>
      rw [Conversion.convert, toFloat, p.pyFloat_text, Option.map_some, Option.some.injEq] at h
      subst h
      constructor
      · intro hrange
        rw [PyFloat.inRange_finite hrange.1 hrange.2]
        rfl
      · intro hrange
        refine ⟨_, congrArg Json.float (if_pos ?_)⟩
        rw [Conversion.InRange, not_and_or, not_lt, not_lt] at hrange
        exact hrange.symm
  | int =>
      obtain ⟨n, hn, rfl⟩ := Option.map_eq_some_iff.mp h
      have hread := pyFloat_of_pyInt hn
      rw [p.pyFloat_text, Option.some.injEq, PyFloat.finite.injEq] at hread
      exact ⟨fun _ => by rw [numberOf, hread], fun hrange => absurd trivial hrange⟩

/-! ## The result -/

/-- Only plain decimals become measurements: a number in the result is that of a
plain decimal among the fields, a measured field of any other form contributes no
key, and nothing published is NaN or infinite. -/
structure PublishesPlainDecimals (text : List Char) : Prop where
  values : ∀ k v, frameValue k text = some v → IsNumber v →
    ∃ p : PlainDecimal, p.text ∈ splitFrame text ∧ numberOf v = some p.value
  others : ∀ b, claimant (splitFrame text) = some b → ∀ m ∈ b.measured,
    (∀ p : PlainDecimal, p.text ≠ m.field (splitFrame text)) → frameValue m.key text = none
  finite : ∀ k x, frameValue k text = some (.float x) → ∃ q, x = .finite q

/-- Every measured field of the block that claims the frame, if its conversion reads
it at all, is a plain decimal whose number is in range. -/
def PlainlyWritten (text : List Char) : Prop :=
  ∀ b, claimant (splitFrame text) = some b → ∀ m ∈ b.measured,
    m.conversion.Reads (m.field (splitFrame text)) →
      ∃ p : PlainDecimal, p.text = m.field (splitFrame text) ∧ m.conversion.InRange p.value

/-- A field that is not empty is one of the fields. -/
theorem field_mem {m : Measured} {f : List Field} (h : m.field f ≠ []) : m.field f ∈ f := by
  rw [Measured.field, List.getD_eq_getElem?_getD] at *
  cases hget : f[m.index]? with
  | none =>
      rw [hget] at h
      exact absurd rfl h
  | some s => exact List.mem_of_getElem? hget

/-- **Measurements.**  A frame publishes only plain decimals exactly if none of its
measured fields is a numeral in a wider form. -/
theorem publishesPlainDecimals_iff (text : List Char) :
    PublishesPlainDecimals text ↔ PlainlyWritten text := by
  constructor
  · intro h b hb m hm hreads
    obtain ⟨v, hv⟩ := Option.isSome_iff_exists.mp ((isSome_convert_iff _ _).mpr hreads)
    have hvalue := (frameValue_of_mem_measured hb hm).trans hv
    by_contra hnone
    push Not at hnone
    by_cases hplain : ∃ p : PlainDecimal, p.text = m.field (splitFrame text)
    · obtain ⟨p, hp⟩ := hplain
      obtain ⟨negative, rfl⟩ := (convert_plain (hp ▸ hv)).2 (hnone p hp)
      obtain ⟨q, hq⟩ := h.finite _ _ hvalue
      cases hq
    · have hothers := h.others b hb m hm (not_exists.mp hplain)
      rw [hvalue] at hothers
      cases hothers
  · intro h
    have hmeasured : ∀ k v, frameValue k text = some v → IsNumber v →
        ∃ p : PlainDecimal, p.text ∈ splitFrame text ∧ numberOf v = some p.value := by
      intro k v hvalue hnumber
      obtain ⟨b, hb, m, hm, -, hconvert⟩ := exists_measured_of_frameValue hvalue hnumber
      obtain ⟨p, hp, hrange⟩ := h b hb m hm
        ((isSome_convert_iff _ _).mp (by rw [hconvert]; rfl))
      refine ⟨p, ?_, (convert_plain (hp ▸ hconvert)).1 hrange⟩
      have hne := p.text_ne_nil
      rw [hp] at hne ⊢
      exact field_mem hne
    constructor
    case values => exact hmeasured
    case others =>
      intro b hb m hm hother
      rw [frameValue_of_mem_measured hb hm, ← Option.not_isSome_iff_eq_none, isSome_convert_iff]
      intro hreads
      obtain ⟨p, hp, -⟩ := h b hb m hm hreads
      exact hother p hp
    case finite =>
      intro k x hvalue
      obtain ⟨p, -, hnumber⟩ := hmeasured k _ hvalue trivial
      cases x with
      | finite q => exact ⟨q, rfl⟩
      | infinite | nan => cases hnumber

/-- The energy of the day is the word `nan`. -/
theorem energyToday_nan_published : ¬ ∀ text, PublishesPlainDecimals text := by
  intro h
  have hnan : frameValue "energy_today"
      "(260620 23:15 nan 0256.4 0449.4 000000449.4 000000000000\r".toList =
        some (.float .nan) := by
    rw [frameValue_of_mem_measured (b := .energy) (m := ⟨"energy_today", .float, 2⟩)]
    · rfl
    · decide +kernel
    · simp [Block.measured]
  obtain ⟨q, hq⟩ := (h _).finite _ _ hnan
  cases hq

end SotRwb1
