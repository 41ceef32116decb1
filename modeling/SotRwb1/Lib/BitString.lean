import SotRwb1.Lib.BitPoly

/-!
# Bit strings and error patterns

The bits of a byte string, as the polynomial whose leading coefficient is the
first bit.  Flipping the bits of a message where an error pattern is set adds
the polynomial of the pattern, so a shift register notices the error unless its
generator divides that polynomial.  It divides no nonzero burst that fits into
the register, and, when it has an even number of terms, no pattern of odd weight.

## Main definitions

* `bits`, `ofBits` — the bits of a byte string, a bit string as a polynomial.
* `xorBytes` — flip the bits of a message where a pattern is set.
* `IsBurst` — the set bits lie within a window.
* `register_xorBytes_ne_zero` — detection.
-/

open Polynomial

namespace BitPoly

/-- The bits of a byte string, most significant bit of the first byte first. -/
def bits (bytes : List UInt8) : List Bool :=
  bytes.flatMap fun b => (List.range 8).map fun i => b.toNat.testBit (7 - i)

/-- Bytewise exclusive or. -/
def xorBytes (bytes pattern : List UInt8) : List UInt8 := List.zipWith (· ^^^ ·) bytes pattern

/-- All set bits lie within `w` consecutive positions. -/
def IsBurst (w : ℕ) (bs : List Bool) : Prop :=
  ∃ start, ∀ i, bs[i]? = some true → start ≤ i ∧ i < start + w

noncomputable section

/-- A bit string as a polynomial, the first bit leading. -/
def ofBits (bs : List Bool) : (ZMod 2)[X] :=
  ∑ i ∈ Finset.range bs.length, if bs[i]? = some true then X ^ (bs.length - 1 - i) else 0

@[simp] theorem ofBits_nil : ofBits [] = 0 := rfl

theorem ofBits_cons (b : Bool) (bs : List Bool) :
    ofBits (b :: bs) = (if b then X ^ bs.length else 0) + ofBits bs := by
  have hterm : ∀ i, (if (b :: bs)[i + 1]? = some true then
        (X : (ZMod 2)[X]) ^ ((b :: bs).length - 1 - (i + 1)) else 0) =
      if bs[i]? = some true then X ^ (bs.length - 1 - i) else 0 := by
    intro i
    have hexp : (b :: bs).length - 1 - (i + 1) = bs.length - 1 - i := by
      rw [List.length_cons]
      omega
    rw [List.getElem?_cons_succ, hexp]
  rw [ofBits, List.length_cons, Finset.sum_range_succ', add_comm]
  congr 1
  · cases b <;> simp
  · exact Finset.sum_congr rfl fun i _ => hterm i

theorem ofBits_append (as bs : List Bool) :
    ofBits (as ++ bs) = ofBits as * X ^ bs.length + ofBits bs := by
  induction as with
  | nil => simp
  | cons a as ih =>
      rw [List.cons_append, ofBits_cons, ofBits_cons, ih, List.length_append, pow_add]
      cases a
      · simp
      · simp only [if_true]
        ring

theorem coeff_ofBits (bs : List Bool) (i : ℕ) :
    (ofBits bs).coeff i = if i < bs.length ∧ bs[bs.length - 1 - i]? = some true then 1 else 0 := by
  induction bs with
  | nil => simp
  | cons b bs ih =>
      rw [ofBits_cons, coeff_add, ih]
      rcases Nat.lt_trichotomy i bs.length with hi | hi | hi
      · have hidx : (b :: bs).length - 1 - i = (bs.length - 1 - i) + 1 := by
          rw [List.length_cons]
          omega
        have hne : ∀ c : Bool, (if c then (X : (ZMod 2)[X]) ^ bs.length else 0).coeff i = 0 := by
          intro c
          cases c <;> simp [coeff_X_pow, hi.ne]
        rw [hne, hidx, List.getElem?_cons_succ, zero_add]
        simp [hi, Nat.lt_succ_of_lt hi]
      · subst hi
        cases b <;> simp
      · have hne : ∀ c : Bool, (if c then (X : (ZMod 2)[X]) ^ bs.length else 0).coeff i = 0 := by
          intro c
          cases c <;> simp [coeff_X_pow, hi.ne']
        have hge : ¬ i < (b :: bs).length := by
          rw [List.length_cons]
          omega
        rw [hne, if_neg (by omega), if_neg fun h => hge h.1, add_zero]

/-- At one the polynomial counts the set bits. -/
theorem eval_one_ofBits (bs : List Bool) : (ofBits bs).eval 1 = (bs.count true : ZMod 2) := by
  induction bs with
  | nil => simp
  | cons b bs ih =>
      rw [ofBits_cons, eval_add, ih]
      cases b <;> simp [add_comm]

/-! ## Bytes -/

theorem bits_cons (b : UInt8) (bytes : List UInt8) : bits (b :: bytes) = bits [b] ++ bits bytes := by
  simp [bits]

@[simp] theorem length_bits (bytes : List UInt8) : (bits bytes).length = 8 * bytes.length := by
  simp [bits, mul_comm]

theorem ofBits_bits_singleton (b : UInt8) : ofBits (bits [b]) = ofNat b.toNat := by
  ext i
  rw [coeff_ofBits, coeff_ofNat, length_bits, List.length_singleton]
  by_cases hi : i < 8
  · have hidx : 7 - (8 * 1 - 1 - i) = i := by omega
    have hrange : 8 * 1 - 1 - i < 8 := by omega
    simp [bits, hi, hidx, hrange]
  · have hbit : b.toNat.testBit i = false :=
      Nat.testBit_lt_two_pow (lt_of_lt_of_le b.toNat_lt (Nat.pow_le_pow_right (by omega) (by omega)))
    simp [hi, hbit]

theorem ofBytes_cons (b : UInt8) (bytes : List UInt8) :
    ofBytes (b :: bytes) = ofNat b.toNat * X ^ (8 * bytes.length) + ofBytes bytes := by
  have hsingle : ofBytes [b] = ofNat b.toNat := by simp [ofBytes]
  rw [← hsingle, ← ofBytes_append, List.singleton_append]

/-- The polynomial of a byte string is that of its bits. -/
theorem ofBytes_eq_ofBits (bytes : List UInt8) : ofBytes bytes = ofBits (bits bytes) := by
  induction bytes with
  | nil => rfl
  | cons b bytes ih =>
      rw [ofBytes_cons, ih, bits_cons, ofBits_append, ofBits_bits_singleton, length_bits]

theorem ofBytes_xorBytes {bytes pattern : List UInt8} (h : pattern.length = bytes.length) :
    ofBytes (xorBytes bytes pattern) = ofBytes bytes + ofBytes pattern := by
  induction bytes generalizing pattern with
  | nil => simp [xorBytes, List.length_eq_zero_iff.mp h]
  | cons b bytes ih =>
      cases pattern with
      | nil => cases h
      | cons e pattern =>
          have hlen : pattern.length = bytes.length := by simpa using h
          have hxor : xorBytes (b :: bytes) (e :: pattern) = (b ^^^ e) :: xorBytes bytes pattern :=
            rfl
          have hxlen : (xorBytes bytes pattern).length = bytes.length := by
            simp [xorBytes, hlen]
          rw [hxor, ofBytes_cons, ofBytes_cons, ofBytes_cons, ih hlen, hxlen, hlen,
            UInt8.toNat_xor, ofNat_xor]
          ring

/-! ## Detection -/

variable {w g : ℕ}

/-- No burst that fits into the register is a multiple of the generator. -/
theorem not_generator_dvd_of_isBurst (hw : 0 < w) (hg : g < 2 ^ w) (hodd : g.testBit 0 = true)
    {bs : List Bool} (hburst : IsBurst w bs) (hset : true ∈ bs) :
    ¬ generator w g ∣ ofBits bs := by
  intro hdvd
  obtain ⟨start, hwindow⟩ := hburst
  -- the bits behind the window are the lowest coefficients
  have hlow : X ^ (bs.length - (start + w)) ∣ ofBits bs := by
    rw [X_pow_dvd_iff]
    intro d hd
    rw [coeff_ofBits, if_neg]
    rintro ⟨hlt, hbit⟩
    have := (hwindow _ hbit).2
    omega
  obtain ⟨q, hq⟩ := hlow
  have hdegree : q.degree < w := by
    rw [degree_lt_iff_coeff_zero]
    intro j hj
    have hshift : q.coeff j = (ofBits bs).coeff (j + (bs.length - (start + w))) := by
      rw [hq, coeff_X_pow_mul]
    rw [hshift, coeff_ofBits, if_neg]
    rintro ⟨hlt, hbit⟩
    have := (hwindow _ hbit).1
    omega
  have hq0 : q ≠ 0 := by
    intro h
    obtain ⟨i, hi⟩ := List.mem_iff_getElem?.mp hset
    have hlt : i < bs.length := (List.getElem?_eq_some_iff.mp hi).1
    have hcoeff : (ofBits bs).coeff (bs.length - 1 - i) = 1 := by
      have hidx : bs.length - 1 - (bs.length - 1 - i) = i := by omega
      rw [coeff_ofBits, if_pos ⟨by omega, by rw [hidx, hi]⟩]
    rw [hq, h, mul_zero, coeff_zero] at hcoeff
    exact zero_ne_one hcoeff
  have hcop : IsCoprime (generator w g) (X ^ (bs.length - (start + w))) :=
    (generator_isCoprime_X hw hodd).pow_right
  rw [hq] at hdvd
  apply hq0
  apply eq_zero_of_dvd_of_degree_lt (hcop.dvd_of_dvd_mul_left hdvd)
  rwa [degree_generator hg]

/-- A generator with an even number of terms has no multiple of odd weight. -/
theorem not_generator_dvd_of_odd (heven : (generator w g).eval 1 = 0) {bs : List Bool}
    (hodd : Odd (bs.count true)) : ¬ generator w g ∣ ofBits bs := by
  rintro ⟨q, hq⟩
  have hone : (ofBits bs).eval 1 = 0 := by rw [hq, eval_mul, heven, zero_mul]
  rw [eval_one_ofBits, ZMod.natCast_eq_zero_iff_even] at hone
  exact Nat.not_even_iff_odd.mpr hodd hone

/-- **Detection.**  A message with residue zero has another residue once the bits
of a nonzero burst that fits into the register, or an odd number of bits, are
flipped. -/
theorem register_xorBytes_ne_zero (hw : 8 ≤ w) (hg : g < 2 ^ w) (hodd : g.testBit 0 = true)
    (heven : (generator w g).eval 1 = 0) {bytes pattern : List UInt8}
    (hzero : register w g 0 bytes = 0) (hlen : pattern.length = bytes.length)
    (hset : true ∈ bits pattern)
    (hpattern : IsBurst w (bits pattern) ∨ Odd ((bits pattern).count true)) :
    register w g 0 (xorBytes bytes pattern) ≠ 0 := by
  rw [register_eq_zero_iff hw hg hodd] at hzero
  rw [Ne, register_eq_zero_iff hw hg hodd, ofBytes_xorBytes hlen, dvd_add_right hzero,
    ofBytes_eq_ofBits]
  rcases hpattern with hburst | hweight
  · exact not_generator_dvd_of_isBurst (by omega) hg hodd hburst hset
  · exact not_generator_dvd_of_odd heven hweight

end

end BitPoly
