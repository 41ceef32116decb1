import SotRwb1.Protocol.Setpoint

/-!
# Values that are no numbers

NaN and the infinities in front of `formatValue`.  An integer format and the check
for multiples of five round the value first, and rounding raises; a format with a
point writes whatever Python prints.  So the one exception the caller expects is
not raised for an infinity, nor for NaN without rounding.

## Main definitions

* `IsNumeral` — an optional minus, digits, and a point and decimals if there are any.
* `FailsFast` — the value is refused or written as a numeral.
* `Roundable` — the values of which this holds.
-/

namespace SotRwb1

open PyLib

/-- An optional minus, digits, and a point and this many decimals if there are any. -/
def IsNumeral (places : ℕ) (s : String) : Prop :=
  ∃ (sign : List Char) (ws fs : List (Fin 10)), (sign = [] ∨ sign = ['-']) ∧ ws ≠ [] ∧
    fs.length = places ∧
    s.toList = sign ++ plain ws ++ if places = 0 then [] else '.' :: plain fs

/-- The value is refused with the exception the caller expects, or written as a
numeral of the format. -/
def FailsFast (fmt : String) (value : PyFloat) (step5 : Bool) : Prop :=
  formatValue fmt value step5 = .error .valueError ∨
    ∃ whole places s, formatWidths fmt = some (whole, places) ∧
      formatValue fmt value step5 = .ok s ∧ IsNumeral places s

/-- A finite value, or NaN where it is rounded to an integer: by an integer format
or by the check for multiples of five. -/
def Roundable (fmt : String) (step5 : Bool) : PyFloat → Prop
  | .finite _ => True
  | .infinite _ => False
  | .nan => step5 = true ∨ fmt = "i3" ∨ fmt = "i4"

/-! ## Finite values -/

/-- A finite value is written as a numeral. -/
theorem isNumeral_settingText {whole places : ℕ} (hwhole : 0 < whole) (v : ℚ) :
    IsNumeral places (String.ofList (settingText whole places v)) := by
  have hsign : ∀ p : Prop, ∀ [Decidable p],
      (if p then ['-'] else []) = [] ∨ (if p then ['-'] else []) = ['-'] := by
    intro p _
    by_cases h : p <;> simp [h]
  rw [IsNumeral, String.toList_ofList, settingText]
  by_cases hplaces : places = 0
  · obtain ⟨ds, htext, -, hne⟩ := exists_plain_formatPadded hwhole (roundHalfEven v)
    exact ⟨_, ds, [], hsign (roundHalfEven v < 0), hne, hplaces.symm, by simp [hplaces, htext]⟩
  · obtain ⟨ws, fs, htext, hfs, hlen, -⟩ := exists_plain_formatFixed places v
    have hne : ws ≠ [] := by
      intro heq
      subst heq
      rw [List.length_nil] at hlen
      omega
    refine ⟨_, ws, fs, hsign (v < 0), hne, hfs, ?_⟩
    rw [if_neg hplaces, if_neg hplaces, htext, plainDecimal, List.append_assoc]

theorem failsFast_finite {fmt : String} (hfmt : fmt ∈ ["v1", "v2", "i3", "i4"]) (v : ℚ)
    (step5 : Bool) : FailsFast fmt (.finite v) step5 := by
  obtain ⟨whole, places, hwidths⟩ := exists_formatWidths hfmt
  rw [FailsFast, formatValue_finite hwidths]
  split
  · exact .inl rfl
  · exact .inr ⟨whole, places, _, hwidths, rfl, isNumeral_settingText (formatWidths_pos hwidths) v⟩

/-! ## The other values -/

/-- What Python prints for NaN and the infinities is no numeral. -/
theorem not_isNumeral_formatFloat {value : PyFloat} (hvalue : ∀ v, value ≠ .finite v)
    (places places' : ℕ) : ¬ IsNumeral places' (String.ofList (formatFloat places value)) := by
  intro h
  obtain ⟨sign, ws, fs, hsign, hne, -, htext⟩ := h
  obtain ⟨d, ds, rfl⟩ := List.exists_cons_of_ne_nil hne
  have hdigit : ∀ c, isDecimal c = false → ∀ d, c ≠ asciiDigit d := by
    intro c hc d hd
    rw [hd, isDecimal_asciiDigit] at hc
    cases hc
  rw [String.toList_ofList] at htext
  cases value with
  | finite v => exact hvalue v rfl
  | nan =>
      rcases hsign with rfl | rfl
      · exact hdigit 'n' (by decide) d (List.cons.inj htext).1
      · cases htext
  | infinite negative =>
      cases negative with
      | false =>
          rcases hsign with rfl | rfl
          · exact hdigit 'i' (by decide) d (List.cons.inj htext).1
          · cases htext
      | true =>
          rcases hsign with rfl | rfl
          · exact hdigit '-' (by decide) d (List.cons.inj htext).1
          · exact hdigit 'i' (by decide) d (List.cons.inj (List.cons.inj htext).2).1

/-- The check for multiples of five refuses NaN. -/
theorem formatValue_nan (fmt : String) : formatValue fmt .nan true = .error .valueError := rfl

/-- On an infinity it raises what the caller does not expect. -/
theorem formatValue_infinite (fmt : String) (negative : Bool) :
    formatValue fmt (.infinite negative) true = .error .overflowError := rfl

/-- Without the check a format with a point prints any value, and an integer format
rounds it. -/
theorem formatValue_special {fmt : String} (hfmt : fmt ∈ ["v1", "v2", "i3", "i4"])
    {value : PyFloat} (hvalue : ∀ v, value ≠ .finite v) :
    ((fmt = "v1" ∨ fmt = "v2") ∧ ∃ places,
      formatValue fmt value false = .ok (String.ofList (formatFloat places value))) ∨
    ((fmt = "i3" ∨ fmt = "i4") ∧ ∃ e, intRound value = .error e ∧
      formatValue fmt value false = .error e) := by
  have hround : ∃ e, intRound value = .error e := by
    cases value with
    | finite v => exact absurd rfl (hvalue v)
    | infinite negative => exact ⟨_, rfl⟩
    | nan => exact ⟨_, rfl⟩
  obtain ⟨e, he⟩ := hround
  simp only [List.mem_cons, List.not_mem_nil, or_false] at hfmt
  rcases hfmt with rfl | rfl | rfl | rfl
  · exact .inl ⟨.inl rfl, 1, rfl⟩
  · exact .inl ⟨.inr rfl, 2, rfl⟩
  · exact .inr ⟨.inl rfl, e, he, by simp [formatValue, he, bind, Except.bind]⟩
  · exact .inr ⟨.inr rfl, e, he, by simp [formatValue, he, bind, Except.bind]⟩

/-- A value that is not finite is refused, if at all, by rounding. -/
theorem failsFast_special_iff {fmt : String} (hfmt : fmt ∈ ["v1", "v2", "i3", "i4"])
    {value : PyFloat} (hvalue : ∀ v, value ≠ .finite v) :
    FailsFast fmt value false ↔
      (fmt = "i3" ∨ fmt = "i4") ∧ intRound value = .error .valueError := by
  rcases formatValue_special hfmt hvalue with ⟨hpoint, places, htext⟩ | ⟨hint, e, he, hraise⟩
  · rw [FailsFast, htext]
    constructor
    · intro hfails
      rcases hfails with hrefused | ⟨_, places', s, -, hs, hnumeral⟩
      · cases hrefused
      · cases hs
        exact absurd hnumeral (not_isNumeral_formatFloat hvalue places places')
    · intro hinteger
      rcases hinteger with ⟨rfl | rfl, -⟩
      · exact absurd hpoint (by decide)
      · exact absurd hpoint (by decide)
  · rw [FailsFast, hraise, he]
    constructor
    · intro hfails
      rcases hfails with hrefused | ⟨_, _, s, -, hs, -⟩
      · cases hrefused
        exact ⟨hint, rfl⟩
      · cases hs
    · intro hinteger
      rcases hinteger with ⟨-, hvalueError⟩
      left
      cases hvalueError
      rfl

/-- **Failing fast.**  A value is refused with the exception the caller expects or
written as a numeral exactly if it is finite, or NaN that is rounded. -/
theorem failsFast_iff (fmt : String) (hfmt : fmt ∈ ["v1", "v2", "i3", "i4"]) (value : PyFloat)
    (step5 : Bool) : FailsFast fmt value step5 ↔ Roundable fmt step5 value := by
  cases value with
  | finite v => exact ⟨fun _ => trivial, fun _ => failsFast_finite hfmt v step5⟩
  | infinite negative =>
      cases step5 with
      | true => simp [FailsFast, formatValue_infinite, Roundable]
      | false =>
          rw [failsFast_special_iff hfmt (by simp)]
          simp [intRound, Roundable]
  | nan =>
      cases step5 with
      | true => simp [FailsFast, formatValue_nan, Roundable]
      | false =>
          rw [failsFast_special_iff hfmt (by simp)]
          simp [intRound, Roundable]

/-- NaN for a setting with an integer format is refused. -/
theorem failsFast_iff_maxChargeCurrent : FailsFast "i3" .nan false :=
  (failsFast_iff "i3" (by simp) .nan false).mpr (.inr (.inl rfl))

/-- The float voltage, between its limits as far as comparisons tell, is sent as `nan`. -/
theorem floatVoltage_nan_sent :
    ¬ ∀ fmt ∈ ["v1", "v2", "i3", "i4"], ∀ value step5, FailsFast fmt value step5 := by
  intro h
  rcases h "v1" (by simp) .nan false with hrefused | ⟨_, places, s, -, hs, hnumeral⟩
  · cases hrefused
  · have hnan : s = String.ofList (formatFloat 1 .nan) := by
      cases hs
      rfl
    rw [hnan] at hnumeral
    exact not_isNumeral_formatFloat (by simp) 1 places hnumeral

end SotRwb1
