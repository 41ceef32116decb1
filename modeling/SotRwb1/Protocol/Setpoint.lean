import SotRwb1.Lib.Decimal
import SotRwb1.Protocol.Codec

/-!
# Setpoints

What `formatValue` writes for the number settings.  A value within the limits of a
setting keeps the width of its format and stays within the limits when it is
rounded, and rounding keeps order.  The check for multiples of five looks at the
rounded value, so a value near a multiple of five passes it and is replaced.

## Main definitions

* `formatWidths` — the formats, by their widths.
* `HasShape` — digits, and a point and decimals if there are any.
* `numberSent` — the number a written value denotes.
-/

namespace SotRwb1

open PyLib

/-- Digits in front of the point, and decimals, of each format. -/
def formatWidths (fmt : String) : Option (ℕ × ℕ) :=
  if fmt = "v1" then some (2, 1)
  else if fmt = "v2" then some (2, 2)
  else if fmt = "i3" then some (3, 0)
  else if fmt = "i4" then some (4, 0)
  else none

theorem formatWidths_pos {fmt : String} {whole places : ℕ}
    (h : formatWidths fmt = some (whole, places)) : 0 < whole := by
  unfold formatWidths at h
  split_ifs at h <;> cases h <;> decide

theorem formatWidths_le {fmt : String} {whole places : ℕ}
    (h : formatWidths fmt = some (whole, places)) : whole + places ≤ 4 := by
  unfold formatWidths at h
  split_ifs at h <;> cases h <;> decide

/-- This many digits, and a point and this many decimals if there are any. -/
def HasShape (whole places : ℕ) (s : String) : Prop :=
  ∃ ws fs : List (Fin 10), ws.length = whole ∧ fs.length = places ∧
    s.toList = plain ws ++ if places = 0 then [] else '.' :: plain fs

/-- The number a written value denotes. -/
def numberSent (s : String) : Option ℚ :=
  match pyFloat s.toList with
  | some (.finite q) => some q
  | _ => none

/-! ## What is written -/

/-- The text of a value that passed the check. -/
def settingText (whole places : ℕ) (v : ℚ) : List Char :=
  if places = 0 then formatPadded whole (roundHalfEven v) else formatFixed places v

/-- The check comes first; after it the flag plays no role. -/
theorem formatValue_checked (fmt : String) (v : ℚ) :
    formatValue fmt (.finite v) true =
      if roundHalfEven v % 5 ≠ 0 then .error .valueError
      else formatValue fmt (.finite v) false := by
  by_cases hmod : roundHalfEven v % 5 = 0
  · simp [formatValue, intRound, hmod, bind, Except.bind]
  · simp [formatValue, intRound, hmod, bind, Except.bind, throw, throwThe,
      MonadExceptOf.throw]

theorem formatValue_unchecked {fmt : String} {whole places : ℕ}
    (h : formatWidths fmt = some (whole, places)) (v : ℚ) :
    formatValue fmt (.finite v) false = .ok (String.ofList (settingText whole places v)) := by
  unfold formatWidths at h
  split at h
  · rename_i hfmt
    cases h
    subst hfmt
    rfl
  split at h
  · rename_i hfmt
    cases h
    subst hfmt
    rfl
  split at h
  · rename_i hfmt
    cases h
    subst hfmt
    rfl
  split at h
  · rename_i hfmt
    cases h
    subst hfmt
    rfl
  · cases h

/-- What passes the check is written, what does not is refused. -/
theorem formatValue_finite {fmt : String} {whole places : ℕ}
    (h : formatWidths fmt = some (whole, places)) (v : ℚ) (step5 : Bool) :
    formatValue fmt (.finite v) step5 =
      if step5 = true ∧ roundHalfEven v % 5 ≠ 0 then .error .valueError
      else .ok (String.ofList (settingText whole places v)) := by
  cases step5 with
  | false => simp [formatValue_unchecked h]
  | true => simp [formatValue_checked, formatValue_unchecked h]

theorem formatValue_eq_ok_iff {fmt : String} {whole places : ℕ}
    (h : formatWidths fmt = some (whole, places)) (v : ℚ) (step5 : Bool) (s : String) :
    formatValue fmt (.finite v) step5 = .ok s ↔
      (step5 = true → roundHalfEven v % 5 = 0) ∧ s.toList = settingText whole places v := by
  rw [formatValue_finite h]
  split
  · rename_i hfail
    simp [hfail.1, hfail.2]
  · rename_i hpass
    have hcheck : step5 = true → roundHalfEven v % 5 = 0 := by
      intro hstep
      by_contra hmod
      exact hpass ⟨hstep, hmod⟩
    rw [Except.ok.injEq]
    constructor
    · rintro rfl
      exact ⟨hcheck, String.toList_ofList⟩
    · rintro ⟨-, hs⟩
      rw [← hs, String.ofList_toList]

/-- A written value denotes the value rounded to the places of the format. -/
theorem pyFloat_settingText {fmt : String} {whole places : ℕ}
    (h : formatWidths fmt = some (whole, places)) (v : ℚ) :
    pyFloat (settingText whole places v) = some (.finite (roundedTo places v)) := by
  rw [settingText]
  split
  · rename_i hplaces
    rw [pyFloat_formatPadded (formatWidths_pos h), hplaces, roundedTo_zero]
  · exact pyFloat_formatFixed places v

theorem numberSent_of_eq_ok {fmt : String} {whole places : ℕ}
    (h : formatWidths fmt = some (whole, places)) {v : ℚ} {step5 : Bool} {s : String}
    (hs : formatValue fmt (.finite v) step5 = .ok s) :
    numberSent s = some (roundedTo places v) := by
  rw [numberSent, ((formatValue_eq_ok_iff h v step5 s).mp hs).2, pyFloat_settingText h]

/-- A value that is not negative and has as many digits as the format keeps its
shape. -/
theorem hasShape_of_settingText {whole places : ℕ} {v : ℚ} {s : String}
    (hs : s.toList = settingText whole places v) (hv : 0 ≤ v) (hwhole : 0 < whole)
    (hhigh : roundHalfEven (v * 10 ^ places) < 10 ^ (whole + places))
    (hlow : places ≠ 0 → 10 ^ (whole + places - 1) ≤ roundHalfEven (v * 10 ^ places)) :
    HasShape whole places s := by
  by_cases hplaces : places = 0
  · subst hplaces
    rw [pow_zero, mul_one, add_zero] at hhigh
    have hnonneg : 0 ≤ roundHalfEven v := roundHalfEven_nonneg hv
    obtain ⟨ds, hplain, -, hlen⟩ := exists_plain_padDigits whole (roundHalfEven v).natAbs
    have hdigits : (Nat.digits 10 (roundHalfEven v).natAbs).length ≤ whole := by
      rw [Nat.digits_length_le_iff (by norm_num)]
      zify
      rwa [abs_of_nonneg hnonneg]
    refine ⟨ds, [], by omega, rfl, ?_⟩
    rw [hs, settingText, if_pos rfl, formatPadded, if_neg (not_lt.mpr hnonneg), hplain,
      if_pos rfl, List.append_nil]
  · obtain ⟨ws, fs, htext, hfs, hlen, -⟩ := exists_plain_formatFixed places v
    rw [abs_of_nonneg hv] at hlen
    generalize hn : roundHalfEven (v * 10 ^ places) = n at *
    have hle : (Nat.digits 10 n.toNat).length ≤ whole + places := by
      rw [Nat.digits_length_le_iff (by norm_num)]
      zify
      rw [Int.toNat_of_nonneg (le_trans (by positivity) (hlow hplaces))]
      exact hhigh
    have hge : whole + places - 1 < (Nat.digits 10 n.toNat).length := by
      rw [Nat.lt_digits_length_iff (by norm_num)]
      zify
      rw [Int.toNat_of_nonneg (le_trans (by positivity) (hlow hplaces))]
      exact hlow hplaces
    refine ⟨ws, fs, by omega, hfs, ?_⟩
    rw [hs, settingText, if_neg hplaces, htext, if_neg (not_lt.mpr hv), List.nil_append,
      plainDecimal, if_neg hplaces]

/-! ## The number settings -/

/-- The limits of a setting, in units of the last place of its format, are whole
numbers that fit its width; only integer settings go in steps of five. -/
def NumberSetting.fits (d : NumberSetting) : Bool :=
  match formatWidths d.fmt with
  | some (whole, places) =>
      (d.min * 10 ^ places).den == 1 && (d.max * 10 ^ places).den == 1 &&
        decide (0 ≤ d.min) && decide (d.max * 10 ^ places < 10 ^ (whole + places)) &&
        (places == 0 || decide (10 ^ (whole + places - 1) ≤ d.min * 10 ^ places)) &&
        (!d.step5 || places == 0)
  | none => false

theorem numberSettingDefinitions_fit : numberSettingDefinitions.all NumberSetting.fits = true := by
  decide +kernel

/-- The limits of a setting in its format. -/
structure Limits (d : NumberSetting) (whole places : ℕ) (low high : ℤ) : Prop where
  widths : formatWidths d.fmt = some (whole, places)
  min_eq : d.min * 10 ^ places = low
  max_eq : d.max * 10 ^ places = high
  nonneg : 0 ≤ d.min
  high_lt : high < 10 ^ (whole + places)
  low_ge : places ≠ 0 → 10 ^ (whole + places - 1) ≤ low
  places_eq : d.step5 = true → places = 0

theorem exists_limits {d : NumberSetting} (hd : d ∈ numberSettingDefinitions) :
    ∃ whole places low high, Limits d whole places low high := by
  have hfits := List.all_eq_true.mp numberSettingDefinitions_fit d hd
  rw [NumberSetting.fits] at hfits
  split at hfits
  · rename_i whole places hwidths
    simp only [Bool.and_eq_true, Bool.or_eq_true, beq_iff_eq, decide_eq_true_eq,
      Bool.not_eq_true'] at hfits
    obtain ⟨⟨⟨⟨⟨hmin, hmax⟩, hnonneg⟩, hhigh⟩, hlow⟩, hstep⟩ := hfits
    have hminEq := (Rat.coe_int_num_of_den_eq_one hmin).symm
    have hmaxEq := (Rat.coe_int_num_of_den_eq_one hmax).symm
    refine ⟨whole, places, _, _, hwidths, hminEq, hmaxEq, hnonneg, ?_, ?_, ?_⟩
    · rw [hmaxEq] at hhigh
      exact_mod_cast hhigh
    · intro hne
      have hbound := hlow.resolve_left hne
      rw [hminEq] at hbound
      exact_mod_cast hbound
    · intro hfive
      exact hstep.resolve_left (by simp [hfive])
  · cases hfits

namespace Limits

variable {d : NumberSetting} {whole places : ℕ} {low high : ℤ}

theorem low_le (h : Limits d whole places low high) {v : ℚ} (hv : d.min ≤ v) :
    low ≤ roundHalfEven (v * 10 ^ places) := by
  have hscaled : d.min * 10 ^ places ≤ v * 10 ^ places := by gcongr
  have hround := roundHalfEven_mono hscaled
  rwa [h.min_eq, roundHalfEven_intCast] at hround

theorem le_high (h : Limits d whole places low high) {v : ℚ} (hv : v ≤ d.max) :
    roundHalfEven (v * 10 ^ places) ≤ high := by
  have hscaled : v * 10 ^ places ≤ d.max * 10 ^ places := by gcongr
  have hround := roundHalfEven_mono hscaled
  rwa [h.max_eq, roundHalfEven_intCast] at hround

/-- A rounded value between the scaled limits is between the limits. -/
theorem mem_range (h : Limits d whole places low high) {m : ℤ} (hlow : low ≤ m) (hhigh : m ≤ high) :
    d.min ≤ (m : ℚ) / 10 ^ places ∧ (m / 10 ^ places : ℚ) ≤ d.max := by
  have hpos : (0 : ℚ) < 10 ^ places := by positivity
  constructor
  · rw [le_div_iff₀ hpos, h.min_eq]
    exact_mod_cast hlow
  · rw [div_le_iff₀ hpos, h.max_eq]
    exact_mod_cast hhigh

end Limits

/-- **Setpoints.**  Within the limits of a setting, whatever is written has the
width of the format and denotes the value rounded to its places, ties to even; this
number is within the limits and a multiple of five where the setting asks for it;
and a larger value never gives a smaller number. -/
theorem setpoint_encoding : ∀ d ∈ numberSettingDefinitions, ∃ whole places,
    formatWidths d.fmt = some (whole, places) ∧
    (∀ (v : ℚ) (s : String), d.min ≤ v → v ≤ d.max →
      formatValue d.fmt (.finite v) d.step5 = .ok s →
      HasShape whole places s ∧ ∃ m : ℤ, IsNearestEven (v * 10 ^ places) m ∧
        numberSent s = some ((m : ℚ) / 10 ^ places) ∧
        d.min ≤ (m : ℚ) / 10 ^ places ∧ (m / 10 ^ places : ℚ) ≤ d.max ∧
        (d.step5 = true → ∃ k : ℤ, (m / 10 ^ places : ℚ) = 5 * k)) ∧
    (∀ (v v' : ℚ) (s s' : String) (n n' : ℚ), d.min ≤ v → v ≤ v' → v' ≤ d.max →
      formatValue d.fmt (.finite v) d.step5 = .ok s →
      formatValue d.fmt (.finite v') d.step5 = .ok s' →
      numberSent s = some n → numberSent s' = some n' → n ≤ n') := by
  intro d hd
  obtain ⟨whole, places, low, high, hlimits⟩ := exists_limits hd
  have hsent : ∀ (v : ℚ) (s : String), 0 ≤ v → formatValue d.fmt (.finite v) d.step5 = .ok s →
      numberSent s = some ((roundHalfEven (v * 10 ^ places) : ℚ) / 10 ^ places) := by
    intro v s hv hs
    rw [numberSent_of_eq_ok hlimits.widths hs, roundedTo_of_nonneg places hv]
  refine ⟨whole, places, hlimits.widths, ?_, ?_⟩
  · intro v s hmin hmax hs
    have hnonneg : 0 ≤ v := le_trans hlimits.nonneg hmin
    have hlow := hlimits.low_le hmin
    have hhigh := hlimits.le_high hmax
    obtain ⟨hcheck, htext⟩ := (formatValue_eq_ok_iff hlimits.widths v d.step5 s).mp hs
    have hrange := hlimits.mem_range hlow hhigh
    refine ⟨?_, _, isNearestEven_roundHalfEven _, hsent v s hnonneg hs, hrange.1, hrange.2, ?_⟩
    · exact hasShape_of_settingText htext hnonneg (formatWidths_pos hlimits.widths)
        (lt_of_le_of_lt hhigh hlimits.high_lt) fun hne => le_trans (hlimits.low_ge hne) hlow
    · intro hfive
      obtain ⟨k, hk⟩ := Int.dvd_of_emod_eq_zero (hcheck hfive)
      refine ⟨k, ?_⟩
      rw [hlimits.places_eq hfive, pow_zero, mul_one, div_one, hk]
      push_cast
      rfl
  · intro v v' s s' n n' hmin hle _ hs hs' hn hn'
    have hnonneg : 0 ≤ v := le_trans hlimits.nonneg hmin
    rw [hsent v s hnonneg hs, Option.some.injEq] at hn
    rw [hsent v' s' (le_trans hnonneg hle) hs', Option.some.injEq] at hn'
    have hscaled : v * 10 ^ places ≤ v' * 10 ^ places := by gcongr
    have hround := roundHalfEven_mono hscaled
    rw [← hn, ← hn']
    gcongr

/-- An equalization voltage half way between two steps. -/
theorem setpoint_encoding_equalizationVoltage :
    ∃ s, formatValue "v2" (.finite (5401 / 200)) false = .ok s ∧ HasShape 2 2 s ∧
      numberSent s = some 27 := by
  obtain ⟨whole, places, hwidths, hencoding, -⟩ :=
    setpoint_encoding ⟨"PBEQV", "equalization_voltage", "v2", 24, 30, false⟩
      (by simp [numberSettingDefinitions])
  cases hwidths
  have hwritten := formatValue_unchecked (show formatWidths "v2" = some (2, 2) from rfl) (5401 / 200)
  obtain ⟨hshape, m, hm, hsent, -⟩ := hencoding (5401 / 200) _ (by norm_num) (by norm_num) hwritten
  have htie : IsNearestEven (5401 / 200 * 10 ^ 2) 2700 := by
    refine ⟨by norm_num, fun _ => by decide⟩
  refine ⟨_, hwritten, hshape, ?_⟩
  rw [hsent, hm.unique htie]
  norm_num

/-! ## Steps of five -/

/-- The check does what it says for this value: it refuses the value unless it is a
multiple of five, and a value that passes is sent unchanged. -/
def ChecksStep (fmt : String) (v : ℚ) : Prop :=
  (formatValue fmt (.finite v) true = .error .valueError ↔ ¬ ∃ k : ℤ, v = 5 * k) ∧
    ∀ s, formatValue fmt (.finite v) true = .ok s → numberSent s = some v

/-- The nearest integer, ties to even, is a multiple of five other than the value. -/
def RoundsOntoFive (v : ℚ) : Prop := ∃ k : ℤ, v ≠ 5 * k ∧ IsNearestEven v (5 * k)

theorem roundedTo_five_mul (places : ℕ) (k : ℤ) : roundedTo places (5 * k) = 5 * k := by
  apply roundedTo_of_eq (n := 5 * k * 10 ^ places)
  push_cast
  ring

/-- A multiple of five is its own nearest integer. -/
theorem roundHalfEven_of_eq_five_mul {v : ℚ} {k : ℤ} (h : v = 5 * k) : roundHalfEven v = 5 * k := by
  rw [h, ← Int.cast_ofNat, ← Int.cast_mul, roundHalfEven_intCast]

/-- Rounding goes onto a multiple of five when the check passes for no good reason. -/
theorem roundsOntoFive_iff (v : ℚ) :
    RoundsOntoFive v ↔ roundHalfEven v % 5 = 0 ∧ ¬ ∃ k : ℤ, v = 5 * k := by
  constructor
  · rintro ⟨k, hne, hk⟩
    have hround := hk.roundHalfEven_eq
    refine ⟨by omega, ?_⟩
    rintro ⟨j, hj⟩
    have hjk : (5 * j : ℤ) = 5 * k := by rw [← roundHalfEven_of_eq_five_mul hj, hround]
    apply hne
    rw [hj]
    exact_mod_cast hjk
  · rintro ⟨hmod, hnone⟩
    obtain ⟨k, hk⟩ := Int.dvd_of_emod_eq_zero hmod
    exact ⟨k, fun hv => hnone ⟨k, hv⟩, hk ▸ isNearestEven_roundHalfEven v⟩

theorem formatValue_eq_error_iff {fmt : String} {whole places : ℕ}
    (h : formatWidths fmt = some (whole, places)) (v : ℚ) :
    formatValue fmt (.finite v) true = .error .valueError ↔ roundHalfEven v % 5 ≠ 0 := by
  rw [formatValue_finite h]
  by_cases hmod : roundHalfEven v % 5 = 0 <;> simp [hmod]

theorem exists_formatWidths {fmt : String} (hfmt : fmt ∈ ["v1", "v2", "i3", "i4"]) :
    ∃ whole places, formatWidths fmt = some (whole, places) := by
  simp only [List.mem_cons, List.not_mem_nil, or_false] at hfmt
  rcases hfmt with rfl | rfl | rfl | rfl
  · exact ⟨2, 1, rfl⟩
  · exact ⟨2, 2, rfl⟩
  · exact ⟨3, 0, rfl⟩
  · exact ⟨4, 0, rfl⟩

/-- **The check for multiples of five** is exact for a value unless rounding takes the
value onto a multiple of five that it is not. -/
theorem checksStep_iff (fmt : String) (hfmt : fmt ∈ ["v1", "v2", "i3", "i4"]) (v : ℚ) :
    ChecksStep fmt v ↔ ¬ RoundsOntoFive v := by
  obtain ⟨whole, places, hwidths⟩ := exists_formatWidths hfmt
  rw [ChecksStep, roundsOntoFive_iff, formatValue_eq_error_iff hwidths]
  constructor
  · rintro ⟨hexact, -⟩ ⟨hmod, hnone⟩
    exact hexact.mpr hnone hmod
  · intro hnot
    have hexact : roundHalfEven v % 5 ≠ 0 ↔ ¬ ∃ k : ℤ, v = 5 * k := by
      constructor
      · rintro hmod ⟨k, hk⟩
        have hround := roundHalfEven_of_eq_five_mul hk
        omega
      · intro hnone hmod
        exact hnot ⟨hmod, hnone⟩
    refine ⟨hexact, ?_⟩
    intro s hs
    have hmod := ((formatValue_eq_ok_iff hwidths v true s).mp hs).1 rfl
    obtain ⟨k, hk⟩ := not_not.mp fun hnone => hexact.mpr hnone hmod
    rw [numberSent_of_eq_ok hwidths hs, hk, roundedTo_five_mul]

/-- A state of charge of `24.6` is sent as `025`. -/
theorem startupSoc_rounds_onto_five :
    ¬ ∀ fmt ∈ ["v1", "v2", "i3", "i4"], ∀ v : ℚ, ChecksStep fmt v := by
  intro h
  have hround : roundHalfEven (123 / 5) = 25 := by
    apply IsNearestEven.roundHalfEven_eq
    norm_num [IsNearestEven, abs_of_neg]
  have hsent := (h "i3" (by simp) (123 / 5)).1.mpr
  rw [formatValue_eq_error_iff (show formatWidths "i3" = some (3, 0) from rfl), hround] at hsent
  have hnone : ¬ ∃ k : ℤ, (123 / 5 : ℚ) = 5 * k := by
    rintro ⟨k, hk⟩
    have hint : (123 : ℤ) = 25 * k := by
      have hq : (123 : ℚ) = 25 * k := by linarith
      exact_mod_cast hq
    omega
  exact hsent hnone (by decide)

/-- A start-up charge of 27 is refused, as it should be. -/
theorem checksStep_iff_startupSoc : ChecksStep "i3" 27 := by
  refine (checksStep_iff "i3" (by simp) 27).mpr ?_
  rintro ⟨k, -, hnear⟩
  have hself : (27 : ℤ) = 5 * k :=
    IsNearestEven.unique (by simpa using isNearestEven_intCast 27) hnear
  omega

end SotRwb1
