import Mathlib.GroupTheory.OrderOfElement
import Mathlib.RingTheory.AdjoinRoot
import SotRwb1.Lib.BitString

/-!
# The order of the generator

Two flipped bits at distance `d` add a multiple of `X ^ d + 1` to a message, so a
shift register misses them exactly when its generator divides `X ^ d - 1`, that is
when the order of `X` modulo the generator divides `d`.  The order is found by
computing powers of `X` on register contents, and together with the parity of the
generator it bounds the length up to which all errors of three bits are noticed.

## Main definitions

* `residue` — register contents in the quotient by the generator.
* `mulMod`, `powMod` — product and power of register contents.
* `HasOrder` — the order of `X` modulo the generator.
* `register_two_bits_iff`, `register_three_bits_ne_zero` — detection.
-/

open Polynomial

namespace BitPoly

/-- The product of `a` with the lowest `k` bits of `b`, modulo the generator. -/
def mulMod (w g a : ℕ) : ℕ → ℕ → ℕ
  | 0, _ => 0
  | k + 1, b => shift w g (mulMod w g a k (b / 2)) ^^^ (if b.testBit 0 then a else 0)

/-- The power of `a` whose exponent is the lowest `k` bits of `n`, modulo the
generator. -/
def powMod (w g a : ℕ) : ℕ → ℕ → ℕ
  | 0, _ => 1
  | k + 1, n =>
      let half := powMod w g a k (n / 2)
      let square := mulMod w g half w half
      if n.testBit 0 then mulMod w g a w square else square

/-- `X` has order `n` modulo the generator. -/
def HasOrder (w g n : ℕ) : Prop := ∀ d, generator w g ∣ X ^ d - 1 ↔ n ∣ d

/-! ## The distance of two messages -/

/-- The number of positions in which two bit strings differ. -/
def distance (as bs : List Bool) : ℕ := (List.zipWith (· != ·) as bs).count true

theorem bits_xorBytes {bytes pattern : List UInt8} (h : pattern.length = bytes.length) :
    bits (xorBytes bytes pattern) = List.zipWith (· != ·) (bits bytes) (bits pattern) := by
  induction bytes generalizing pattern with
  | nil => rfl
  | cons b bytes ih =>
      cases pattern with
      | nil => cases h
      | cons e pattern =>
          have hlen : pattern.length = bytes.length := by simpa using h
          have hbyte : bits [b ^^^ e] = List.zipWith (· != ·) (bits [b]) (bits [e]) := by
            simp only [bits, List.flatMap_singleton, List.zipWith_map, List.zipWith_self,
              UInt8.toNat_xor, Nat.testBit_xor]
          rw [xorBytes, List.zipWith_cons_cons, bits_cons, bits_cons b, bits_cons e,
            List.zipWith_append (by simp), ← hbyte, ← ih hlen, xorBytes]

theorem xorBytes_self_xor {bytes other : List UInt8} (h : other.length = bytes.length) :
    xorBytes bytes (xorBytes bytes other) = other := by
  induction bytes generalizing other with
  | nil => simp [xorBytes, List.length_eq_zero_iff.mp h]
  | cons b bytes ih =>
      cases other with
      | nil => cases h
      | cons e other =>
          have hlen : other.length = bytes.length := by simpa using h
          have hrest := ih hlen
          rw [xorBytes, xorBytes] at hrest ⊢
          rw [List.zipWith_cons_cons, List.zipWith_cons_cons, hrest, ← UInt8.xor_assoc,
            UInt8.xor_self, UInt8.zero_xor]

/-- A pattern without set bits flips nothing. -/
theorem xorBytes_of_not_set {bytes pattern : List UInt8} (h : pattern.length = bytes.length)
    (hset : true ∉ bits pattern) : xorBytes bytes pattern = bytes := by
  induction bytes generalizing pattern with
  | nil => rfl
  | cons b bytes ih =>
      cases pattern with
      | nil => cases h
      | cons e pattern =>
          have hlen : pattern.length = bytes.length := by simpa using h
          rw [bits_cons, List.mem_append, not_or] at hset
          have hzero : e.toNat = 0 := by
            apply Nat.eq_of_testBit_eq
            intro i
            rw [Nat.zero_testBit]
            rcases Nat.lt_or_ge i 8 with hi | hi
            · rw [← Bool.not_eq_true]
              intro hbit
              apply hset.1
              simp only [bits, List.flatMap_singleton, List.mem_map, List.mem_range]
              exact ⟨7 - i, by omega, by rw [Nat.sub_sub_self (by omega), hbit]⟩
            · exact Nat.testBit_lt_two_pow
                (lt_of_lt_of_le e.toNat_lt (Nat.pow_le_pow_right (by omega) hi))
          have he : e = 0 := UInt8.toNat_inj.mp hzero
          rw [xorBytes, List.zipWith_cons_cons, ← xorBytes, ih hlen hset.2, he, UInt8.xor_zero]

noncomputable section

variable {w g : ℕ}

/-! ## Register contents in the quotient -/

variable (w g) in
/-- Register contents in the quotient by the generator. -/
def residue (n : ℕ) : AdjoinRoot (generator w g) := AdjoinRoot.mk (generator w g) (ofNat n)

theorem residue_xor (a b : ℕ) : residue w g (a ^^^ b) = residue w g a + residue w g b := by
  rw [residue, ofNat_xor, map_add]
  rfl

@[simp] theorem residue_zero : residue w g 0 = 0 := by simp [residue]

@[simp] theorem residue_one : residue w g 1 = 1 := by
  have hone : ofNat 1 = 1 := by simpa using ofNat_two_pow 0
  rw [residue, hone, map_one]

@[simp] theorem residue_two : residue w g 2 = AdjoinRoot.root (generator w g) := by
  have htwo : ofNat 2 = X := by simpa using ofNat_two_pow 1
  rw [residue, htwo, AdjoinRoot.mk_X]

/-- A shift multiplies by `X`. -/
theorem residue_shift (hw : 0 < w) (hg : g < 2 ^ w) {r : ℕ} (hr : r < 2 ^ w) :
    residue w g (shift w g r) = residue w g r * AdjoinRoot.root (generator w g) := by
  rw [← AdjoinRoot.mk_X, residue, residue, ← map_mul, AdjoinRoot.mk_eq_mk]
  exact generator_dvd_shift hw hg hr

/-- Different register contents are different residues. -/
theorem residue_inj (hg : g < 2 ^ w) {a b : ℕ} (ha : a < 2 ^ w) (hb : b < 2 ^ w) :
    residue w g a = residue w g b ↔ a = b := by
  refine ⟨?_, fun h => h ▸ rfl⟩
  intro h
  have hzero : ofNat a - ofNat b = 0 := by
    apply eq_zero_of_dvd_of_degree_lt (AdjoinRoot.mk_eq_mk.mp h)
    rw [degree_generator hg]
    exact (degree_sub_le _ _).trans_lt (max_lt (degree_ofNat_lt ha) (degree_ofNat_lt hb))
  exact ofNat_injective (sub_eq_zero.mp hzero)

/-! ## Products and powers -/

theorem mulMod_lt {a : ℕ} (ha : a < 2 ^ w) (k b : ℕ) : mulMod w g a k b < 2 ^ w := by
  cases k with
  | zero => exact Nat.two_pow_pos w
  | succ k =>
      rw [mulMod]
      apply Nat.xor_lt_two_pow (shift_lt _)
      split
      · exact ha
      · exact Nat.two_pow_pos w

/-- A number is twice its half and its last bit. -/
theorem residue_eq_half (b : ℕ) : residue w g b =
    residue w g (b / 2) * AdjoinRoot.root (generator w g) +
      if b.testBit 0 then 1 else 0 := by
  have hsplit : b = (b / 2) <<< 1 ^^^ (if b.testBit 0 then 1 else 0) := by
    apply Nat.eq_of_testBit_eq
    intro i
    rw [Nat.testBit_xor, Nat.testBit_shiftLeft, Nat.testBit_div_two]
    cases i with
    | zero => cases hbit : b.testBit 0 <;> simp
    | succ i =>
        have hone : Nat.testBit 1 (i + 1) = false :=
          Nat.testBit_lt_two_pow (Nat.one_lt_two_pow (Nat.succ_ne_zero i))
        cases b.testBit 0 <;> simp [hone]
  conv_lhs => rw [hsplit]
  rw [residue_xor, residue, ofNat_shiftLeft, map_mul, map_pow, AdjoinRoot.mk_X, pow_one, ← residue]
  cases b.testBit 0 <;> simp

theorem residue_mulMod (hw : 0 < w) (hg : g < 2 ^ w) {a : ℕ} (ha : a < 2 ^ w) {k b : ℕ}
    (hb : b < 2 ^ k) : residue w g (mulMod w g a k b) = residue w g a * residue w g b := by
  induction k generalizing b with
  | zero =>
      have hzero : b = 0 := by simpa using hb
      simp [mulMod, hzero]
  | succ k ih =>
      have hhalf : b / 2 < 2 ^ k := by
        rw [pow_succ] at hb
        omega
      rw [mulMod, residue_xor, residue_shift hw hg (mulMod_lt ha k _), ih hhalf,
        residue_eq_half b]
      cases b.testBit 0
      · simp [mul_assoc]
      · simp [mul_assoc, mul_add]

theorem powMod_lt (hw : 0 < w) {a : ℕ} (ha : a < 2 ^ w) (k n : ℕ) : powMod w g a k n < 2 ^ w := by
  induction k generalizing n with
  | zero => exact Nat.one_lt_two_pow hw.ne'
  | succ k ih =>
      rw [powMod]
      split
      · exact mulMod_lt ha _ _
      · exact mulMod_lt (ih _) _ _

theorem residue_powMod (hw : 0 < w) (hg : g < 2 ^ w) {a : ℕ} (ha : a < 2 ^ w) {k n : ℕ}
    (hn : n < 2 ^ k) : residue w g (powMod w g a k n) = residue w g a ^ n := by
  induction k generalizing n with
  | zero =>
      have hzero : n = 0 := by simpa using hn
      simp [powMod, hzero]
  | succ k ih =>
      have hhalf : n / 2 < 2 ^ k := by
        rw [pow_succ] at hn
        omega
      have hpow := powMod_lt (g := g) hw ha k (n / 2)
      have hsquare : residue w g (mulMod w g (powMod w g a k (n / 2)) w
          (powMod w g a k (n / 2))) = residue w g a ^ (n / 2 + n / 2) := by
        rw [residue_mulMod hw hg hpow hpow, ih hhalf, pow_add]
      rw [powMod]
      split
      · rename_i hodd
        have hexp : n = (n / 2 + n / 2) + 1 := by
          have : n % 2 = 1 := by simpa [Nat.testBit_zero] using hodd
          omega
        rw [residue_mulMod hw hg ha (mulMod_lt hpow _ _), hsquare, ← pow_succ', ← hexp]
      · rename_i heven
        have hexp : n = n / 2 + n / 2 := by
          have : ¬ n % 2 = 1 := by simpa [Nat.testBit_zero] using heven
          omega
        rw [hsquare, ← hexp]

/-! ## The order of `X` -/

theorem hasOrder_iff (n : ℕ) :
    HasOrder w g n ↔ orderOf (AdjoinRoot.root (generator w g)) = n := by
  have hdvd : ∀ d, generator w g ∣ X ^ d - 1 ↔
      orderOf (AdjoinRoot.root (generator w g)) ∣ d := by
    intro d
    rw [orderOf_dvd_iff_pow_eq_one, ← AdjoinRoot.mk_X, ← map_pow,
      ← map_one (AdjoinRoot.mk (generator w g)), AdjoinRoot.mk_eq_mk]
  constructor
  · intro h
    exact Nat.dvd_antisymm ((hdvd n).mp ((h n).mpr dvd_rfl)) ((h _).mp ((hdvd _).mpr dvd_rfl))
  · intro h d
    rw [hdvd, h]

/-- The power of `X` computed on register contents. -/
theorem root_pow_eq_one_iff (hw : 1 < w) (hg : g < 2 ^ w) {k n : ℕ} (hn : n < 2 ^ k) :
    AdjoinRoot.root (generator w g) ^ n = 1 ↔ powMod w g 2 k n = 1 := by
  have htwo : 2 < 2 ^ w := by
    calc 2 < 2 ^ 2 := by norm_num
      _ ≤ 2 ^ w := Nat.pow_le_pow_right (by omega) hw
  rw [← residue_two, ← residue_powMod (by omega) hg htwo hn, ← residue_one,
    residue_inj hg (powMod_lt (by omega) htwo k n) (by omega)]

/-- **The order, by computation.**  `X` has order `n` if its power `n` is one and no
power `n / p` is, for the primes `p` that divide `n`. -/
theorem hasOrder_of_powMod (hw : 1 < w) (hg : g < 2 ^ w) {k n : ℕ} (hpos : 0 < n)
    (hn : n < 2 ^ k) (hone : powMod w g 2 k n = 1)
    (hprime : ∀ p, p.Prime → p ∣ n → powMod w g 2 k (n / p) ≠ 1) : HasOrder w g n := by
  rw [hasOrder_iff]
  apply orderOf_eq_of_pow_and_pow_div_prime hpos
  · exact (root_pow_eq_one_iff hw hg hn).mpr hone
  · intro p hp hdvd hpow
    have hlt : n / p < 2 ^ k := lt_of_le_of_lt (Nat.div_le_self n p) hn
    exact hprime p hp hdvd ((root_pow_eq_one_iff hw hg hlt).mp hpow)

/-! ## Detection -/

/-- Exactly the bits `i` and `j` are set. -/
def IsPair (bs : List Bool) (i j : ℕ) : Prop := ∀ k, bs[k]? = some true ↔ k = i ∨ k = j

theorem ofBits_of_isPair {bs : List Bool} {i j : ℕ} (hij : i < j) (h : IsPair bs i j) :
    ofBits bs = X ^ (bs.length - 1 - j) * (X ^ (j - i) - 1) := by
  have hi := (List.getElem?_eq_some_iff.mp ((h i).mpr (.inl rfl))).1
  have hj := (List.getElem?_eq_some_iff.mp ((h j).mpr (.inr rfl))).1
  have hneg : (X : (ZMod 2)[X]) ^ (j - i) - 1 = X ^ (j - i) + 1 := CharTwo.sub_eq_add _ _
  have hexp : bs.length - 1 - j + (j - i) = bs.length - 1 - i := by omega
  rw [hneg, mul_add, mul_one, ← pow_add, hexp]
  ext d
  have hset : (d < bs.length ∧ bs[bs.length - 1 - d]? = some true) ↔
      d = bs.length - 1 - i ∨ d = bs.length - 1 - j := by
    rw [h]
    omega
  rw [coeff_ofBits, if_congr hset rfl rfl, coeff_add, coeff_X_pow, coeff_X_pow]
  by_cases hdi : d = bs.length - 1 - i
  · have hdj : ¬ d = bs.length - 1 - j := by omega
    rw [if_pos (.inl hdi), if_pos hdi, if_neg hdj, add_zero]
  · by_cases hdj : d = bs.length - 1 - j
    · rw [if_pos (.inr hdj), if_neg hdi, if_pos hdj, zero_add]
    · rw [if_neg (by simp [hdi, hdj]), if_neg hdi, if_neg hdj, add_zero]

/-- **Two flipped bits** go unnoticed exactly when their distance is a multiple of the
order of `X`. -/
theorem register_two_bits_iff (hw : 8 ≤ w) (hg : g < 2 ^ w) (hodd : g.testBit 0 = true) {n : ℕ}
    (horder : HasOrder w g n) {bytes pattern : List UInt8} (hzero : register w g 0 bytes = 0)
    (hlen : pattern.length = bytes.length) {i j : ℕ} (hij : i < j)
    (hpair : IsPair (bits pattern) i j) :
    register w g 0 (xorBytes bytes pattern) = 0 ↔ n ∣ j - i := by
  rw [register_eq_zero_iff hw hg hodd] at hzero
  have hcop : IsCoprime (generator w g) (X ^ ((bits pattern).length - 1 - j)) :=
    (generator_isCoprime_X (by omega) hodd).pow_right
  rw [register_eq_zero_iff hw hg hodd, ofBytes_xorBytes hlen, dvd_add_right hzero,
    ofBytes_eq_ofBits, ofBits_of_isPair hij hpair, ← horder]
  exact ⟨hcop.dvd_of_dvd_mul_left, fun h => h.mul_left _⟩

/-- One set bit. -/
theorem exists_single {bs : List Bool} (h : bs.count true = 1) :
    ∃ i, ∀ k : ℕ, bs[k]? = some true ↔ k = i := by
  induction bs with
  | nil => cases h
  | cons b bs ih =>
      cases b with
      | true =>
          have hnone : true ∉ bs := List.count_eq_zero.mp (by simpa using h)
          refine ⟨0, ?_⟩
          intro k
          cases k with
          | zero => simp
          | succ k => simpa using fun hk => hnone (List.mem_of_getElem? hk)
      | false =>
          obtain ⟨i, hi⟩ := ih (by simpa using h)
          refine ⟨i + 1, ?_⟩
          intro k
          cases k with
          | zero => simp
          | succ k => simpa using hi k

/-- Two set bits are a pair. -/
theorem exists_isPair {bs : List Bool} (h : bs.count true = 2) :
    ∃ i j, i < j ∧ IsPair bs i j := by
  induction bs with
  | nil => cases h
  | cons b bs ih =>
      cases b with
      | true =>
          have hrest : bs.count true = 1 := by simpa using h
          obtain ⟨i, hi⟩ := exists_single hrest
          refine ⟨0, i + 1, Nat.succ_pos i, ?_⟩
          intro k
          cases k with
          | zero => simp
          | succ k => simpa using hi k
      | false =>
          obtain ⟨i, j, hij, hpair⟩ := ih (by simpa using h)
          refine ⟨i + 1, j + 1, by omega, ?_⟩
          intro k
          cases k with
          | zero => simp
          | succ k => simpa using hpair k

/-- **Up to three flipped bits.**  With an even number of terms in the generator, no
message shorter than the order of `X` loses up to three of its bits unnoticed. -/
theorem register_three_bits_ne_zero (hw : 8 ≤ w) (hg : g < 2 ^ w) (hodd : g.testBit 0 = true)
    (heven : (generator w g).eval 1 = 0) {n : ℕ} (horder : HasOrder w g n)
    {bytes pattern : List UInt8} (hzero : register w g 0 bytes = 0)
    (hlen : pattern.length = bytes.length) (hshort : 8 * bytes.length ≤ n)
    (hset : true ∈ bits pattern) (hfew : (bits pattern).count true ≤ 3) :
    register w g 0 (xorBytes bytes pattern) ≠ 0 := by
  have hpos : 0 < (bits pattern).count true := List.count_pos_iff.mpr hset
  by_cases htwo : (bits pattern).count true = 2
  · obtain ⟨i, j, hij, hpair⟩ := exists_isPair htwo
    rw [Ne, register_two_bits_iff hw hg hodd horder hzero hlen hij hpair]
    intro hdvd
    have hj := (List.getElem?_eq_some_iff.mp ((hpair j).mpr (.inr rfl))).1
    rw [length_bits, hlen] at hj
    have := Nat.le_of_dvd (by omega) hdvd
    omega
  · have hweight : Odd ((bits pattern).count true) := by
      rw [Nat.odd_iff]
      omega
    exact register_xorBytes_ne_zero hw hg hodd heven hzero hlen hset (.inr hweight)

/-- **The distance of two messages** with residue zero and the same length, shorter
than the order of `X`, is at least four. -/
theorem four_le_distance (hw : 8 ≤ w) (hg : g < 2 ^ w) (hodd : g.testBit 0 = true)
    (heven : (generator w g).eval 1 = 0) {n : ℕ} (horder : HasOrder w g n)
    {bytes other : List UInt8} (hzero : register w g 0 bytes = 0)
    (hzero' : register w g 0 other = 0) (hlen : other.length = bytes.length)
    (hshort : 8 * bytes.length ≤ n) (hne : other ≠ bytes) :
    4 ≤ distance (bits bytes) (bits other) := by
  by_contra hfew
  have hplen : (xorBytes bytes other).length = bytes.length := by simp [xorBytes, hlen]
  rw [distance, ← bits_xorBytes hlen] at hfew
  have hback := xorBytes_self_xor hlen
  by_cases hset : true ∈ bits (xorBytes bytes other)
  · apply register_three_bits_ne_zero hw hg hodd heven horder hzero hplen hshort hset (by omega)
    rw [hback, hzero']
  · rw [xorBytes_of_not_set hplen hset] at hback
    exact hne hback.symm

end

end BitPoly
