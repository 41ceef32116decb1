import Mathlib.Algebra.Polynomial.Div
import Mathlib.Algebra.Polynomial.RingDivision
import Mathlib.Algebra.CharP.Two
import Mathlib.Algebra.Field.ZMod
import Mathlib.RingTheory.Coprime.Lemmas
import Mathlib.Tactic.LinearCombination

/-!
# Bits as polynomials, and shift registers

A natural number is read as the polynomial over `GF(2)` whose coefficients are
its bits; exclusive or is then addition and a left shift is multiplication by a
power of `X`.  A `w`-bit register with feedback word `g` that is shifted left,
dropping bit `w` and adding `g` when a one falls out, multiplies its contents by
`X` modulo the generator `X ^ w + g`.  Feeding it a byte string therefore
computes a polynomial remainder, which is what a cyclic redundancy check is.

## Main definitions

* `ofNat n` — the polynomial of the bits of `n`.
* `ofBytes bs` — the polynomial of a byte string, first bit leading.
* `generator w g` — `X ^ w + g`.
* `shift`, `feed`, `register` — the register, one bit, one byte, one message.
* `ofNat_register`, `register_append_eq_zero_iff` — the register holds the
  remainder; an appended checksum leaves residue zero.
-/

open Polynomial

namespace BitPoly

noncomputable section

/-! ## Numbers as polynomials -/

/-- The polynomial whose coefficients are the bits of `n`. -/
def ofNat (n : ℕ) : (ZMod 2)[X] := ∑ i ∈ Finset.range n, if n.testBit i then X ^ i else 0

@[simp] theorem coeff_ofNat (n i : ℕ) : (ofNat n).coeff i = if n.testBit i then 1 else 0 := by
  have hterm : ∀ j, (if n.testBit j then (X : (ZMod 2)[X]) ^ j else 0).coeff i =
      if i = j then (if n.testBit i then 1 else 0) else 0 := by
    intro j
    by_cases hij : i = j
    · subst hij
      cases n.testBit i <;> simp
    · cases n.testBit j <;> simp [coeff_X_pow, hij]
  rw [ofNat, finsetSum_coeff, Finset.sum_congr rfl fun j _ => hterm j, Finset.sum_ite_eq]
  by_cases hbit : n.testBit i = true
  · have hlt : i < n := lt_of_lt_of_le Nat.lt_two_pow_self (Nat.ge_two_pow_of_testBit hbit)
    simp [hlt]
  · simp [hbit]

@[simp] theorem ofNat_zero : ofNat 0 = 0 := by
  ext i
  simp

theorem ofNat_xor (a b : ℕ) : ofNat (a ^^^ b) = ofNat a + ofNat b := by
  ext i
  simp only [coeff_ofNat, Nat.testBit_xor, coeff_add]
  cases a.testBit i <;> cases b.testBit i <;> simp
  rfl

theorem ofNat_shiftLeft (a k : ℕ) : ofNat (a <<< k) = ofNat a * X ^ k := by
  ext i
  rw [coeff_mul_X_pow']
  by_cases h : k ≤ i <;> simp [Nat.testBit_shiftLeft, h]

theorem ofNat_two_pow (k : ℕ) : ofNat (2 ^ k) = X ^ k := by
  ext i
  simp only [coeff_ofNat, Nat.testBit_two_pow, coeff_X_pow]
  by_cases h : k = i <;> simp [h, eq_comm]

theorem ofNat_injective : Function.Injective ofNat := by
  intro a b h
  apply Nat.eq_of_testBit_eq
  intro i
  have hi := congrArg (fun p => p.coeff i) h
  simp only [coeff_ofNat] at hi
  cases ha : a.testBit i <;> cases hb : b.testBit i <;> simp [ha, hb] at hi ⊢

theorem ofNat_eq_zero_iff {n : ℕ} : ofNat n = 0 ↔ n = 0 := by
  rw [← ofNat_zero]
  exact ofNat_injective.eq_iff

theorem degree_ofNat_lt {n w : ℕ} (h : n < 2 ^ w) : (ofNat n).degree < w := by
  rw [degree_lt_iff_coeff_zero]
  intro i hi
  have hbit : n.testBit i = false :=
    Nat.testBit_lt_two_pow (lt_of_lt_of_le h (Nat.pow_le_pow_right (by omega) hi))
  simp [hbit]

/-! ## The generator -/

variable (w g : ℕ)

/-- The generator polynomial of a `w`-bit register with feedback word `g`. -/
def generator : (ZMod 2)[X] := X ^ w + ofNat g

variable {w g}

theorem generator_monic (hg : g < 2 ^ w) : (generator w g).Monic :=
  monic_X_pow_add (degree_ofNat_lt hg)

theorem degree_generator (hg : g < 2 ^ w) : (generator w g).degree = w := by
  rw [generator, degree_add_eq_left_of_degree_lt, degree_X_pow]
  rw [degree_X_pow]
  exact degree_ofNat_lt hg

/-- An odd feedback word gives a generator with constant term one, so `X` is
invertible modulo it. -/
theorem generator_isCoprime_X (hw : 0 < w) (hg : g.testBit 0 = true) :
    IsCoprime (generator w g) X := by
  have hconst : (generator w g).coeff 0 = 1 := by
    simp [generator, coeff_X_pow, hg, hw.ne]
  refine ⟨1, -(generator w g).divX, ?_⟩
  have h := divX_mul_X_add (generator w g)
  rw [hconst, map_one] at h
  linear_combination -h

/-! ## The register -/

/-- One shift: bit `w - 1` falls out and decides whether the feedback is added. -/
def shift (w g r : ℕ) : ℕ :=
  (if r.testBit (w - 1) then (r <<< 1) ^^^ g else r <<< 1) % 2 ^ w

/-- One byte: added at the top of the register, then shifted through. -/
def feed (w g r : ℕ) (byte : UInt8) : ℕ := (shift w g)^[8] (r ^^^ (byte.toNat <<< (w - 8)))

/-- The register after a message, from contents `r`. -/
def register (w g r : ℕ) (bytes : List UInt8) : ℕ := bytes.foldl (feed w g) r

/-- A byte string as a polynomial, the most significant bit of the first byte
leading. -/
def ofBytes (bytes : List UInt8) : (ZMod 2)[X] :=
  bytes.foldl (fun p b => p * X ^ 8 + ofNat b.toNat) 0

@[simp] theorem ofBytes_nil : ofBytes [] = 0 := rfl

theorem ofBytes_concat (bytes : List UInt8) (b : UInt8) :
    ofBytes (bytes ++ [b]) = ofBytes bytes * X ^ 8 + ofNat b.toNat := by
  simp [ofBytes]

theorem shift_lt (r : ℕ) : shift w g r < 2 ^ w := Nat.mod_lt _ (by positivity)

theorem register_lt {r : ℕ} (hr : r < 2 ^ w) (bytes : List UInt8) :
    register w g r bytes < 2 ^ w := by
  induction bytes using List.reverseRecOn with
  | nil => exact hr
  | append_singleton bytes b ih =>
      rw [register, List.foldl_append, List.foldl_cons, List.foldl_nil, feed,
        Function.iterate_succ_apply']
      exact shift_lt _

/-- Dropping the top bit of a `w + 1`-bit number. -/
theorem mod_two_pow_eq_xor {n : ℕ} (hn : n < 2 ^ (w + 1)) (hbit : n.testBit w = true) :
    n % 2 ^ w = n ^^^ 2 ^ w := by
  apply Nat.eq_of_testBit_eq
  intro i
  rw [Nat.testBit_mod_two_pow, Nat.testBit_xor, Nat.testBit_two_pow]
  rcases Nat.lt_trichotomy i w with h | h | h
  · simp [h, h.ne']
  · simp [h, hbit]
  · have hi : n.testBit i = false :=
      Nat.testBit_lt_two_pow (lt_of_lt_of_le hn (Nat.pow_le_pow_right (by omega) h))
    simp [h.ne, hi]

theorem lt_two_pow_pred {r : ℕ} (hr : r < 2 ^ w) (hbit : r.testBit (w - 1) = false) :
    r < 2 ^ (w - 1) := by
  apply Nat.lt_pow_two_of_testBit
  intro i hi
  by_cases h : i = w - 1
  · rw [h, hbit]
  · exact Nat.testBit_lt_two_pow (lt_of_lt_of_le hr (Nat.pow_le_pow_right (by omega) (by omega)))

/-- A shift multiplies by `X` modulo the generator. -/
theorem generator_dvd_shift (hw : 0 < w) (hg : g < 2 ^ w) {r : ℕ} (hr : r < 2 ^ w) :
    generator w g ∣ ofNat (shift w g r) - ofNat r * X := by
  have hmul : ofNat (r <<< 1) = ofNat r * X := by rw [ofNat_shiftLeft, pow_one]
  have hshl : r <<< 1 < 2 ^ (w + 1) := by
    rw [Nat.shiftLeft_eq, pow_one, pow_succ]
    omega
  by_cases hbit : r.testBit (w - 1) = true
  · -- the bit that falls out is bit `w` of the shifted word
    have hword : ((r <<< 1) ^^^ g) < 2 ^ (w + 1) :=
      Nat.xor_lt_two_pow hshl (lt_trans hg (Nat.pow_lt_pow_right (by omega) (by omega)))
    have htop : ((r <<< 1) ^^^ g).testBit w = true := by
      rw [Nat.testBit_xor, Nat.testBit_shiftLeft, Nat.testBit_lt_two_pow hg, hbit]
      simpa using Nat.one_le_iff_ne_zero.mpr hw.ne'
    rw [shift, if_pos hbit, mod_two_pow_eq_xor hword htop, ofNat_xor, ofNat_xor, ofNat_two_pow,
      hmul, generator]
    exact ⟨1, by ring⟩
  · have hlt : r <<< 1 < 2 ^ w := by
      have hr' := lt_two_pow_pred hr (Bool.eq_false_iff.mpr hbit)
      have htwo : (2 : ℕ) ^ w = 2 ^ (w - 1) * 2 := by
        rw [← pow_succ, Nat.sub_add_cancel hw]
      rw [Nat.shiftLeft_eq, pow_one]
      omega
    rw [shift, if_neg hbit, Nat.mod_eq_of_lt hlt, hmul, sub_self]
    exact dvd_zero _

theorem generator_dvd_iterate_shift (hw : 0 < w) (hg : g < 2 ^ w) {r : ℕ} (hr : r < 2 ^ w)
    (k : ℕ) : generator w g ∣ ofNat ((shift w g)^[k] r) - ofNat r * X ^ k := by
  induction k with
  | zero => simp
  | succ k ih =>
      have hlt : (shift w g)^[k] r < 2 ^ w := by
        cases k with
        | zero => exact hr
        | succ k =>
            rw [Function.iterate_succ_apply']
            exact shift_lt _
      have hstep := generator_dvd_shift hw hg hlt
      have hsum := dvd_add hstep (ih.mul_right X)
      rw [Function.iterate_succ_apply', pow_succ]
      convert hsum using 1
      ring

/-- After a message the register is congruent to the initial contents shifted
past the message plus the message shifted past the register. -/
theorem generator_dvd_register (hw : 8 ≤ w) (hg : g < 2 ^ w) {r : ℕ} (hr : r < 2 ^ w)
    (bytes : List UInt8) :
    generator w g ∣ ofNat (register w g r bytes) -
      (ofNat r * X ^ (8 * bytes.length) + ofBytes bytes * X ^ w) := by
  induction bytes using List.reverseRecOn with
  | nil => simp [register]
  | append_singleton bytes b ih =>
      have hreg := register_lt hr bytes (g := g)
      have hb : b.toNat <<< (w - 8) < 2 ^ w := by
        rw [Nat.shiftLeft_eq]
        calc b.toNat * 2 ^ (w - 8) < 2 ^ 8 * 2 ^ (w - 8) :=
              Nat.mul_lt_mul_of_pos_right b.toNat_lt (by positivity)
          _ = 2 ^ w := by rw [← pow_add, Nat.add_sub_cancel' hw]
      have hstep := generator_dvd_iterate_shift (by omega) hg (Nat.xor_lt_two_pow hreg hb) 8
      have hsum := dvd_add hstep (ih.mul_right (X ^ 8))
      have hlast : register w g r (bytes ++ [b]) =
          (shift w g)^[8] (register w g r bytes ^^^ (b.toNat <<< (w - 8))) := by
        simp [register, feed]
      have hpow : (X : (ZMod 2)[X]) ^ (w - 8) * X ^ 8 = X ^ w := by
        rw [← pow_add, Nat.sub_add_cancel hw]
      have hlen : 8 * (bytes ++ [b]).length = 8 * bytes.length + 8 := by
        rw [List.length_append, List.length_singleton]
        ring
      rw [hlast, ofBytes_concat, hlen, pow_add, ← hpow]
      rw [ofNat_xor, ofNat_shiftLeft] at hsum
      convert hsum using 1
      rw [← hpow]
      ring

/-- **The register holds a remainder.**  Started at zero and fed a message, it
holds the message times `X ^ w` modulo the generator. -/
theorem ofNat_register (hw : 8 ≤ w) (hg : g < 2 ^ w) (bytes : List UInt8) :
    ofNat (register w g 0 bytes) = (ofBytes bytes * X ^ w) %ₘ generator w g := by
  have hdvd := generator_dvd_register hw hg (Nat.two_pow_pos w) bytes
  rw [ofNat_zero, zero_mul, zero_add] at hdvd
  have hlt : register w g 0 bytes < 2 ^ w := register_lt (Nat.two_pow_pos w) bytes
  rw [← modByMonic_eq_of_dvd_sub (generator_monic hg) hdvd,
    (modByMonic_eq_self_iff (generator_monic hg)).mpr]
  rw [degree_generator hg]
  exact degree_ofNat_lt hlt

/-- With an odd feedback word the register ends at zero exactly on the multiples
of the generator. -/
theorem register_eq_zero_iff (hw : 8 ≤ w) (hg : g < 2 ^ w) (hodd : g.testBit 0 = true)
    (bytes : List UInt8) : register w g 0 bytes = 0 ↔ generator w g ∣ ofBytes bytes := by
  have hcop : IsCoprime (generator w g) (X ^ w) :=
    (generator_isCoprime_X (by omega) hodd).pow_right
  rw [← ofNat_eq_zero_iff, ofNat_register hw hg, modByMonic_eq_zero_iff_dvd (generator_monic hg)]
  exact ⟨hcop.dvd_of_dvd_mul_right, fun h => h.mul_right _⟩

/-! ## Appended checksums -/

/-- The number a byte string denotes, first byte most significant. -/
def bigEndian (bytes : List UInt8) : ℕ := bytes.foldl (fun n b => n * 256 + b.toNat) 0

theorem bigEndian_concat (bytes : List UInt8) (b : UInt8) :
    bigEndian (bytes ++ [b]) = bigEndian bytes * 256 + b.toNat := by
  simp [bigEndian]

theorem bigEndian_lt (bytes : List UInt8) : bigEndian bytes < 2 ^ (8 * bytes.length) := by
  induction bytes using List.reverseRecOn with
  | nil => simp [bigEndian]
  | append_singleton bytes b ih =>
      have hb := b.toNat_lt
      have hpow : 2 ^ (8 * (bytes ++ [b]).length) = 2 ^ (8 * bytes.length) * 256 := by
        rw [List.length_append, List.length_singleton, mul_add, pow_add]
        norm_num
      rw [bigEndian_concat, hpow]
      omega

theorem ofNat_mul_256_add (n : ℕ) (b : UInt8) :
    ofNat (n * 256 + b.toNat) = ofNat n * X ^ 8 + ofNat b.toNat := by
  have hxor : n * 256 + b.toNat = (n <<< 8) ^^^ b.toNat := by
    apply Nat.eq_of_testBit_eq
    intro i
    have hb : b.toNat < 2 ^ 8 := b.toNat_lt
    rw [show n * 256 = 2 ^ 8 * n by omega, Nat.testBit_two_pow_mul_add _ hb, Nat.testBit_xor,
      Nat.testBit_shiftLeft]
    by_cases hi : i < 8
    · simp [hi, Nat.not_le.mpr hi]
    · have hbit : b.toNat.testBit i = false :=
        Nat.testBit_lt_two_pow (lt_of_lt_of_le hb (Nat.pow_le_pow_right (by omega) (by omega)))
      simp [hi, Nat.not_lt.mp hi, hbit]
  rw [hxor, ofNat_xor, ofNat_shiftLeft]

theorem ofBytes_eq_ofNat (bytes : List UInt8) : ofBytes bytes = ofNat (bigEndian bytes) := by
  induction bytes using List.reverseRecOn with
  | nil => simp [bigEndian]
  | append_singleton bytes b ih => rw [ofBytes_concat, bigEndian_concat, ofNat_mul_256_add, ih]

theorem ofBytes_append (bytes tail : List UInt8) :
    ofBytes (bytes ++ tail) = ofBytes bytes * X ^ (8 * tail.length) + ofBytes tail := by
  induction tail using List.reverseRecOn with
  | nil => simp
  | append_singleton tail b ih =>
      rw [← List.append_assoc, ofBytes_concat, ofBytes_concat, ih, List.length_append,
        List.length_singleton, mul_add, pow_add]
      ring

/-- **The residue test.**  Appending as many bytes as the register holds gives
residue zero exactly when they are the checksum, most significant byte first, of
what they are appended to. -/
theorem register_append_eq_zero_iff (hg : g < 2 ^ w) (hodd : g.testBit 0 = true)
    (bytes tail : List UInt8) (hw : 8 * tail.length = w) (hne : tail ≠ []) :
    register w g 0 (bytes ++ tail) = 0 ↔ bigEndian tail = register w g 0 bytes := by
  have hpos : 0 < tail.length := List.length_pos_of_ne_nil hne
  have hw8 : 8 ≤ w := by omega
  have hmonic := generator_monic hg
  have hself : ofNat (bigEndian tail) %ₘ generator w g = ofNat (bigEndian tail) := by
    rw [modByMonic_eq_self_iff hmonic, degree_generator hg, ← hw]
    exact degree_ofNat_lt (bigEndian_lt tail)
  calc register w g 0 (bytes ++ tail) = 0
      ↔ ofNat (register w g 0 bytes) + ofNat (bigEndian tail) = 0 := by
        rw [register_eq_zero_iff hw8 hg hodd, ofBytes_append, hw, ofBytes_eq_ofNat tail,
          ← modByMonic_eq_zero_iff_dvd hmonic, add_modByMonic, hself, ofNat_register hw8 hg]
    _ ↔ ofNat (register w g 0 bytes) = ofNat (bigEndian tail) := by
        rw [CharTwo.add_eq_zero]
    _ ↔ bigEndian tail = register w g 0 bytes := by
        rw [ofNat_injective.eq_iff, eq_comm]

end

end BitPoly
