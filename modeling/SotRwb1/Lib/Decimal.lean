import Mathlib.Data.Nat.Digits.Lemmas
import Mathlib.Tactic.Linarith
import SotRwb1.Lib.Numeral

/-!
# Rounding, and written numerals read back

`roundHalfEven` picks the nearest integer and on ties the even one; this fixes it,
keeps order, and leaves integers alone.  A number written with `formatFixed` or
`formatPadded` is a plain decimal of known width, and `float` reads the rounded
number back.

## Main definitions

* `IsNearestEven` — what rounding to nearest, ties to even, is to return.
* `exists_plain_padDigits`, `pyFloat_formatFixed`, `pyFloat_formatPadded` — width
  and value of a written number.
-/

namespace PyLib

/-! ## Rounding -/

/-- The integer is nearest to the number, and even if another one is as near. -/
def IsNearestEven (q : ℚ) (m : ℤ) : Prop := |q - m| ≤ 1 / 2 ∧ (|q - m| = 1 / 2 → Even m)

theorem isNearestEven_roundHalfEven (q : ℚ) : IsNearestEven q (roundHalfEven q) := by
  have hlow : (⌊q⌋ : ℚ) ≤ q := Int.floor_le q
  have hhigh : q < ⌊q⌋ + 1 := Int.lt_floor_add_one q
  unfold roundHalfEven
  dsimp only
  split
  · have habs : |q - ⌊q⌋| < 1 / 2 := by rw [abs_lt]; constructor <;> linarith
    exact ⟨habs.le, fun h => absurd h habs.ne⟩
  split
  · have habs : |q - (⌊q⌋ + 1 : ℤ)| < 1 / 2 := by
      rw [abs_lt]
      push_cast
      constructor <;> linarith
    exact ⟨habs.le, fun h => absurd h habs.ne⟩
  -- the tie: the even one of the two neighbours
  split
  · rename_i heven
    refine ⟨?_, fun _ => Int.even_iff.mpr heven⟩
    rw [abs_le]
    constructor <;> linarith
  · rename_i hodd
    refine ⟨?_, fun _ => ?_⟩
    · rw [abs_le]
      push_cast
      constructor <;> linarith
    · rw [Int.even_iff]
      omega

/-- Rounding keeps order. -/
theorem IsNearestEven.mono {q q' : ℚ} {m m' : ℤ} (h : IsNearestEven q m)
    (h' : IsNearestEven q' m') (hle : q ≤ q') : m ≤ m' := by
  by_contra hlt
  have hm := abs_le.mp h.1
  have hm' := abs_le.mp h'.1
  have hnext : m' + 1 ≤ m := by omega
  have hcast : (m' : ℚ) + 1 ≤ m := by exact_mod_cast hnext
  -- both are half way between the two integers
  have htie : |q - m| = 1 / 2 := by
    rw [abs_of_nonpos (by linarith)]
    linarith
  have htie' : |q' - m'| = 1 / 2 := by
    rw [abs_of_nonneg (by linarith)]
    linarith
  have hsucc : (m : ℚ) = m' + 1 := by linarith
  have heven := h.2 htie
  have heven' := h'.2 htie'
  rw [Int.even_iff] at heven heven'
  have hint : m = m' + 1 := by exact_mod_cast hsucc
  omega

theorem IsNearestEven.unique {q : ℚ} {m m' : ℤ} (h : IsNearestEven q m)
    (h' : IsNearestEven q m') : m = m' :=
  le_antisymm (h.mono h' le_rfl) (h'.mono h le_rfl)

theorem isNearestEven_intCast (n : ℤ) : IsNearestEven n n := by
  norm_num [IsNearestEven]

@[simp] theorem roundHalfEven_intCast (n : ℤ) : roundHalfEven n = n :=
  (isNearestEven_roundHalfEven n).unique (isNearestEven_intCast n)

theorem IsNearestEven.roundHalfEven_eq {q : ℚ} {m : ℤ} (h : IsNearestEven q m) :
    roundHalfEven q = m :=
  (isNearestEven_roundHalfEven q).unique h

theorem roundHalfEven_mono {q q' : ℚ} (h : q ≤ q') : roundHalfEven q ≤ roundHalfEven q' :=
  (isNearestEven_roundHalfEven q).mono (isNearestEven_roundHalfEven q') h

theorem roundHalfEven_nonneg {q : ℚ} (h : 0 ≤ q) : 0 ≤ roundHalfEven q := by
  have hzero := roundHalfEven_mono h
  rwa [← Int.cast_zero, roundHalfEven_intCast] at hzero

theorem IsNearestEven.neg {q : ℚ} {m : ℤ} (h : IsNearestEven q m) : IsNearestEven (-q) (-m) := by
  have habs : |-q - ((-m : ℤ) : ℚ)| = |q - m| := by
    rw [Int.cast_neg, ← neg_sub', abs_neg]
  rw [IsNearestEven, habs]
  exact ⟨h.1, fun htie => (h.2 htie).neg⟩

@[simp] theorem roundHalfEven_neg (q : ℚ) : roundHalfEven (-q) = -roundHalfEven q :=
  (isNearestEven_roundHalfEven q).neg.roundHalfEven_eq

/-! ## Digits -/

theorem natOfDigits_concat (ds : List ℕ) (d : ℕ) :
    natOfDigits (ds ++ [d]) = 10 * natOfDigits ds + d := by
  simp [natOfDigits]

theorem natOfDigits_append (ds es : List ℕ) :
    natOfDigits (ds ++ es) = natOfDigits ds * 10 ^ es.length + natOfDigits es := by
  induction es using List.reverseRecOn with
  | nil => simp [natOfDigits]
  | append_singleton es e ih =>
      rw [← List.append_assoc, natOfDigits_concat, natOfDigits_concat, ih, List.length_append,
        List.length_singleton, pow_succ]
      ring

theorem natOfDigits_reverse (ds : List ℕ) : natOfDigits ds.reverse = Nat.ofDigits 10 ds := by
  induction ds with
  | nil => rfl
  | cons d ds ih =>
      rw [List.reverse_cons, natOfDigits_concat, ih, Nat.ofDigits_cons]
      ring

theorem natOfDigits_replicate_zero (n : ℕ) : natOfDigits (List.replicate n 0) = 0 := by
  induction n with
  | zero => rfl
  | succ n ih => rw [List.replicate_succ', natOfDigits_concat, ih]

theorem plainNat_append (ds es : List (Fin 10)) :
    plainNat (ds ++ es) = plainNat ds * 10 ^ es.length + plainNat es := by
  rw [plainNat, List.map_append, natOfDigits_append, List.length_map]
  rfl

theorem plainNat_lt (ds : List (Fin 10)) : plainNat ds < 10 ^ ds.length := by
  induction ds using List.reverseRecOn with
  | nil => decide
  | append_singleton ds d ih =>
      have hlast : plainNat [d] = d := by simp [plainNat, natOfDigits]
      rw [plainNat_append, hlast, List.length_append, List.length_singleton, pow_succ]
      have hd := d.isLt
      omega

theorem plainRat_nonneg (whole : List (Fin 10)) (frac : Option (List (Fin 10))) :
    0 ≤ plainRat whole frac := by
  cases frac with
  | none => exact Nat.cast_nonneg _
  | some ds => exact add_nonneg (Nat.cast_nonneg _) (by positivity)

/-- A decimal is below the power of ten of the digits in front of its point. -/
theorem plainRat_lt (whole : List (Fin 10)) (frac : Option (List (Fin 10))) :
    plainRat whole frac < 10 ^ whole.length := by
  have hwhole : (plainNat whole : ℚ) + 1 ≤ 10 ^ whole.length := by
    exact_mod_cast plainNat_lt whole
  cases frac with
  | none =>
      rw [plainRat]
      linarith
  | some ds =>
      have hfrac : (plainNat ds / 10 ^ ds.length : ℚ) < 1 := by
        rw [div_lt_one (by positivity)]
        exact_mod_cast plainNat_lt ds
      rw [plainRat]
      linarith

/-- A padded number is a plain numeral; its width is the larger one of the width
asked for and the number of digits. -/
theorem exists_plain_padDigits (width n : ℕ) :
    ∃ ds : List (Fin 10), padDigits width n = plain ds ∧ plainNat ds = n ∧
      ds.length = max width (Nat.digits 10 n).length := by
  have hlt : ∀ d ∈ (Nat.digits 10 n).reverse, d < 10 := by
    intro d hd
    exact Nat.digits_lt_base (by norm_num) (List.mem_reverse.mp hd)
  refine ⟨List.replicate (width - (Nat.digits 10 n).length) 0 ++
    (Nat.digits 10 n).reverse.map (Fin.ofNat 10), ?_, ?_, ?_⟩
  · rw [padDigits, plain, List.map_append, List.map_replicate, List.map_map]
    simp only [List.length_map, List.length_reverse]
    congr 1
    apply List.map_congr_left
    intro d hd
    rw [Function.comp_apply, asciiDigit, Fin.val_ofNat, Nat.mod_eq_of_lt (hlt d hd)]
  · have hdigits : ((Nat.digits 10 n).reverse.map (Fin.ofNat 10)).map Fin.val =
        (Nat.digits 10 n).reverse := by
      rw [List.map_map]
      conv_rhs => rw [← List.map_id (Nat.digits 10 n).reverse]
      apply List.map_congr_left
      intro d hd
      rw [Function.comp_apply, Fin.val_ofNat, Nat.mod_eq_of_lt (hlt d hd), id]
    rw [plainNat, List.map_append, hdigits, List.map_replicate, natOfDigits_append,
      natOfDigits_reverse, Nat.ofDigits_digits]
    simp [natOfDigits_replicate_zero]
  · simp only [List.length_append, List.length_replicate, List.length_map, List.length_reverse]
    omega

/-! ## Written numbers -/

/-- The number behind a point that was put in front of the last digits. -/
theorem plainRat_take_drop (ds : List (Fin 10)) {places : ℕ} (h : places ≤ ds.length) :
    plainRat (ds.take (ds.length - places)) (some (ds.drop (ds.length - places))) =
      plainNat ds / 10 ^ places := by
  have hlen : (ds.drop (ds.length - places)).length = places := by
    rw [List.length_drop]
    omega
  have happend := plainNat_append (ds.take (ds.length - places)) (ds.drop (ds.length - places))
  rw [List.take_append_drop, hlen] at happend
  rw [plainRat, hlen, happend]
  push_cast
  field_simp

/-- A number in fixed-point notation: a sign if it is negative, and a plain decimal
with these places that denotes the rounded magnitude. -/
theorem exists_plain_formatFixed (places : ℕ) (q : ℚ) :
    ∃ whole frac : List (Fin 10),
      formatFixed places q = (if q < 0 then ['-'] else []) ++ plainDecimal whole (some frac) ∧
      frac.length = places ∧
      whole.length + places =
        max (places + 1) (Nat.digits 10 (roundHalfEven (|q| * 10 ^ places)).toNat).length ∧
      plainRat whole (some frac) = roundHalfEven (|q| * 10 ^ places) / 10 ^ places := by
  obtain ⟨ds, hplain, hnat, hlen⟩ :=
    exists_plain_padDigits (places + 1) (roundHalfEven (|q| * 10 ^ places)).toNat
  have hle : places ≤ ds.length := by omega
  have hnonneg : 0 ≤ roundHalfEven (|q| * 10 ^ places) :=
    roundHalfEven_nonneg (by positivity)
  refine ⟨ds.take (ds.length - places), ds.drop (ds.length - places), ?_, ?_, ?_, ?_⟩
  · rw [formatFixed, hplain, length_plain, plainDecimal, plain, plain, plain, List.map_take,
      List.map_drop, List.append_assoc]
  · rw [List.length_drop]
    omega
  · rw [List.length_take]
    omega
  · rw [plainRat_take_drop ds hle, hnat]
    congr 1
    exact_mod_cast Int.toNat_of_nonneg hnonneg

/-- The number rounded to these places, its sign kept. -/
def roundedTo (places : ℕ) (q : ℚ) : ℚ :=
  if q < 0 then -(roundHalfEven (|q| * 10 ^ places) / 10 ^ places)
  else roundHalfEven (|q| * 10 ^ places) / 10 ^ places

/-- Reading back fixed-point notation. -/
theorem pyFloat_formatFixed (places : ℕ) (q : ℚ) :
    pyFloat (formatFixed places q) = some (.finite (roundedTo places q)) := by
  obtain ⟨whole, frac, htext, hfrac, hwidth, hvalue⟩ := exists_plain_formatFixed places q
  have hne : whole ≠ [] := by
    rintro rfl
    rw [List.length_nil] at hwidth
    omega
  rw [htext, roundedTo]
  split
  · rw [List.singleton_append, pyFloat_neg_plainDecimal hne, hvalue]
  · rw [List.nil_append, pyFloat_plainDecimal hne, hvalue]

/-- A padded integer: a sign if it is negative, and the digits of its magnitude. -/
theorem exists_plain_formatPadded {width : ℕ} (hwidth : 0 < width) (n : ℤ) :
    ∃ ds : List (Fin 10), formatPadded width n = (if n < 0 then ['-'] else []) ++ plain ds ∧
      plainNat ds = n.natAbs ∧ ds ≠ [] := by
  rw [formatPadded]
  split
  · rename_i hneg
    obtain ⟨ds, hplain, hnat, -⟩ := exists_plain_padDigits (width - 1) n.natAbs
    refine ⟨ds, by rw [hplain, List.singleton_append], hnat, ?_⟩
    rintro rfl
    have hzero : n.natAbs = 0 := by rw [← hnat]; rfl
    omega
  · obtain ⟨ds, hplain, hnat, hlen⟩ := exists_plain_padDigits width n.natAbs
    refine ⟨ds, by rw [hplain, List.nil_append], hnat, ?_⟩
    rintro rfl
    rw [List.length_nil] at hlen
    omega

/-- Reading back a padded integer. -/
theorem pyFloat_formatPadded {width : ℕ} (hwidth : 0 < width) (n : ℤ) :
    pyFloat (formatPadded width n) = some (.finite n) := by
  obtain ⟨ds, hplain, hnat, hne⟩ := exists_plain_formatPadded hwidth n
  rw [hplain]
  split
  · rename_i hneg
    have hread := pyFloat_neg_plainDecimal hne none
    rw [plainDecimal, List.append_nil] at hread
    rw [List.singleton_append, hread, plainRat, hnat, Nat.cast_natAbs, abs_of_neg hneg]
    simp
  · rename_i hpos
    have hread := pyFloat_plainDecimal hne none
    rw [plainDecimal, List.append_nil] at hread
    rw [List.nil_append, hread, plainRat, hnat, Nat.cast_natAbs, abs_of_nonneg (by omega)]

@[simp] theorem roundedTo_zero (q : ℚ) : roundedTo 0 q = roundHalfEven q := by
  rw [roundedTo, pow_zero, mul_one, div_one]
  split
  · rename_i hneg
    rw [abs_of_neg hneg, roundHalfEven_neg, Int.cast_neg, neg_neg]
  · rename_i hpos
    rw [abs_of_nonneg (not_lt.mp hpos)]

theorem roundedTo_of_nonneg (places : ℕ) {q : ℚ} (h : 0 ≤ q) :
    roundedTo places q = roundHalfEven (q * 10 ^ places) / 10 ^ places := by
  rw [roundedTo, if_neg (not_lt.mpr h), abs_of_nonneg h]

/-- A number that has no more than these places is written as it is. -/
theorem roundedTo_of_eq {places : ℕ} {q : ℚ} {n : ℤ} (h : q * 10 ^ places = n) :
    roundedTo places q = q := by
  have hpow : (10 : ℚ) ^ places ≠ 0 := by positivity
  have hq : q = n / 10 ^ places := by rw [← h]; field_simp
  rw [roundedTo]
  split
  · rename_i hneg
    have habs : |q| * 10 ^ places = ((-n : ℤ) : ℚ) := by
      rw [abs_of_neg hneg, neg_mul, h, Int.cast_neg]
    rw [habs, roundHalfEven_intCast, Int.cast_neg, neg_div, neg_neg, ← hq]
  · rename_i hpos
    have habs : |q| * 10 ^ places = n := by rw [abs_of_nonneg (not_lt.mp hpos), h]
    rw [habs, roundHalfEven_intCast, ← hq]

/-! ## Range -/

theorem ten_pow_lt_floatLimit : (10 : ℚ) ^ 308 < floatLimit := by
  have hnat : 10 ^ 308 < 2 ^ 1024 - 2 ^ 970 := by decide +kernel
  have hcast : ((10 ^ 308 : ℕ) : ℚ) < (2 ^ 1024 - 2 ^ 970 : ℕ) := Nat.cast_lt.mpr hnat
  rwa [Nat.cast_pow] at hcast

/-- A decimal with up to 308 digits in front of its point is in range as a float. -/
theorem inRange_plainRat {whole : List (Fin 10)} (h : whole.length ≤ 308)
    (frac : Option (List (Fin 10))) :
    (PyFloat.finite (plainRat whole frac)).inRange = .finite (plainRat whole frac) := by
  have hpow : (10 : ℚ) ^ whole.length ≤ 10 ^ 308 := pow_le_pow_right₀ (by norm_num) h
  have hpos : 0 < floatLimit := lt_trans (by positivity) ten_pow_lt_floatLimit
  apply PyFloat.inRange_finite
  · exact lt_of_lt_of_le (neg_lt_zero.mpr hpos) (plainRat_nonneg whole frac)
  · exact ((plainRat_lt whole frac).trans_le hpow).trans ten_pow_lt_floatLimit

end PyLib
