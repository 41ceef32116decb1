import SotRwb1.Lib.Numeral

/-!
# The numerals Python accepts

The grammar of the texts `int` and `float` accept, once the whitespace around them
is stripped, and the proof that the conversions accept exactly these texts.  A text
both accept denotes the same number.

## Main definitions

* `DigitPart`, `PointNumber`, `ExponentPart` — the parts of a numeral.
* `IntLiteral`, `FloatLiteral` — the texts the conversions accept.
-/

namespace PyLib

/-! ## Grammar -/

/-- `digit (["_"] digit)*`, with digits of any script. -/
inductive DigitPart : List Char → Prop
  | single {c : Char} (hc : isDecimal c = true) : DigitPart [c]
  | digit {c : Char} {s : List Char} (hc : isDecimal c = true) (hs : DigitPart s) :
      DigitPart (c :: s)
  | separated {c : Char} {s : List Char} (hc : isDecimal c = true) (hs : DigitPart s) :
      DigitPart (c :: '_' :: s)

/-- `[digitpart] "." digitpart | digitpart ["."]`. -/
inductive PointNumber : List Char → Prop
  | whole {s : List Char} (hs : DigitPart s) : PointNumber s
  | point {s : List Char} (hs : DigitPart s) : PointNumber (s ++ ['.'])
  | frac {s : List Char} (hs : DigitPart s) : PointNumber ('.' :: s)
  | decimal {s t : List Char} (hs : DigitPart s) (ht : DigitPart t) : PointNumber (s ++ '.' :: t)

/-- No sign, or one. -/
def IsSign (s : List Char) : Prop := s = [] ∨ s = ['+'] ∨ s = ['-']

/-- `[("e" | "E") ["+" | "-"] digitpart]`. -/
inductive ExponentPart : List Char → Prop
  | none : ExponentPart []
  | some {c : Char} {sign s : List Char} (hc : c = 'e' ∨ c = 'E') (hsign : IsSign sign)
      (hs : DigitPart s) : ExponentPart (c :: (sign ++ s))

/-- One of the words for an infinity and NaN, in any case. -/
def IsWord (s : List Char) : Prop :=
  s.map Char.toLower ∈ [['i', 'n', 'f'], ['i', 'n', 'f', 'i', 'n', 'i', 't', 'y'], ['n', 'a', 'n']]

/-- What `float` accepts behind the sign. -/
def FloatBody (s : List Char) : Prop :=
  IsWord s ∨ ∃ number exponent, s = number ++ exponent ∧ PointNumber number ∧ ExponentPart exponent

/-- The texts `int` accepts: number whitespace around a sign and at most 4300 digits. -/
def IntLiteral (s : List Char) : Prop :=
  ∃ sign body, numberStrip s = sign ++ body ∧ IsSign sign ∧ DigitPart body ∧
    (body.filter isDecimal).length ≤ maxStrDigits

/-- The texts `float` accepts: number whitespace around a sign and a numeral. -/
def FloatLiteral (s : List Char) : Prop :=
  ∃ sign body, numberStrip s = sign ++ body ∧ IsSign sign ∧ FloatBody body

/-! ## Characters -/

/-- A digit is ASCII or far above it. -/
theorem toNat_of_isDecimal {c : Char} (h : isDecimal c = true) :
    (48 ≤ c.toNat ∧ c.toNat ≤ 57) ∨ 1632 ≤ c.toNat := by
  have hzeros : ∀ z ∈ decimalZeros, z = 48 ∨ 1632 ≤ z := by decide
  rw [isDecimal, decimalValue, Option.isSome_map, List.find?_isSome] at h
  obtain ⟨z, hz, hrange⟩ := h
  rw [Bool.and_eq_true, decide_eq_true_eq, decide_eq_true_eq] at hrange
  rcases hzeros z hz with hz | hz <;> omega

/-- A digit is none of the ASCII characters with another role. -/
theorem ne_of_isDecimal {c c' : Char} (h : isDecimal c = true)
    (hc' : c'.toNat < 48 ∨ 57 < c'.toNat ∧ c'.toNat < 1632) : c ≠ c' := by
  intro heq
  subst heq
  have := toNat_of_isDecimal h
  omega

/-- A digit is no capital letter. -/
theorem toLower_of_isDecimal {c : Char} (h : isDecimal c = true) : c.toLower = c := by
  have hrange := toNat_of_isDecimal h
  refine dif_neg ?_
  intro hupper
  rcases hupper with ⟨hlow, hhigh⟩
  have hlow' : 65 ≤ c.toNat := hlow
  have hhigh' : c.toNat ≤ 90 := hhigh
  omega

/-! ## Digits -/

theorem exists_decimalValue {c : Char} (h : isDecimal c = true) : ∃ d, decimalValue c = some d :=
  Option.isSome_iff_exists.mp h

theorem decimalValue_eq_none {c : Char} (h : isDecimal c = false) : decimalValue c = none := by
  rwa [isDecimal, Option.isSome_eq_false_iff, Option.isNone_iff_eq_none] at h

theorem isDecimal_eq_false {c : Char} (h : decimalValue c = none) : isDecimal c = false := by
  rw [isDecimal, h]
  rfl

theorem DigitPart.exists_cons {s : List Char} (h : DigitPart s) :
    ∃ c rest, s = c :: rest ∧ isDecimal c = true := by
  cases h with
  | single hc => exact ⟨_, _, rfl, hc⟩
  | digit hc _ => exact ⟨_, _, rfl, hc⟩
  | separated hc _ => exact ⟨_, _, rfl, hc⟩

/-- A separator between digits is passed over. -/
theorem digitPart_separated {c c' : Char} {d : ℕ} (hc : decimalValue c = some d)
    (hc' : isDecimal c' = true) (rest : List Char) :
    digitPart (c :: '_' :: c' :: rest) =
      (d :: (digitPart (c' :: rest)).1, (digitPart (c' :: rest)).2) := by
  rw [digitPart, hc]
  simp only [hc', if_true]

/-- The texts nothing more is read from: no digit at the front, and no separator. -/
def EndsDigits (s : List Char) : Prop := ∀ c ∈ s.head?, decimalValue c = none ∧ c ≠ '_'

theorem endsDigits_nil : EndsDigits [] := by simp [EndsDigits]

theorem digitPart_of_endsDigits {s : List Char} (h : EndsDigits s) : digitPart s = ([], s) := by
  cases s with
  | nil => rfl
  | cons c rest => exact digitPart_of_not_decimal (h c rfl).1 rest

/-- A digit part is read to its end. -/
theorem digitPart_append {s rest : List Char} (h : DigitPart s) (hrest : EndsDigits rest) :
    (digitPart (s ++ rest)).2 = rest ∧
      (digitPart (s ++ rest)).1.length = (s.filter isDecimal).length := by
  induction h with
  | @single c hc =>
      obtain ⟨d, hd⟩ := exists_decimalValue hc
      rw [List.singleton_append, digitPart_cons hd fun c' hc' => (hrest c' hc').2,
        digitPart_of_endsDigits hrest]
      simp [hc]
  | @digit c s hc hs ih =>
      obtain ⟨d, hd⟩ := exists_decimalValue hc
      obtain ⟨c', s', rfl, hc'⟩ := hs.exists_cons
      have hhead : ∀ c'' ∈ (c' :: s' ++ rest).head?, c'' ≠ '_' := by
        intro c'' hc''
        cases hc''
        exact ne_of_isDecimal hc' (by decide)
      rw [List.cons_append, digitPart_cons hd hhead]
      simpa [hc] using ih
  | @separated c s hc hs ih =>
      obtain ⟨d, hd⟩ := exists_decimalValue hc
      obtain ⟨c', s', rfl, hc'⟩ := hs.exists_cons
      have hunderscore : isDecimal '_' = false := by decide
      rw [List.cons_append, List.cons_append, List.cons_append, digitPart_separated hd hc']
      simpa [hc, hunderscore] using ih

theorem DigitPart.exists_read {s rest : List Char} (h : DigitPart s) (hrest : EndsDigits rest) :
    ∃ ds, digitPart (s ++ rest) = (ds, rest) ∧ ds ≠ [] ∧
      ds.length = (s.filter isDecimal).length := by
  obtain ⟨hread, hlen⟩ := digitPart_append h hrest
  refine ⟨(digitPart (s ++ rest)).1, Prod.ext rfl hread, ?_, hlen⟩
  intro hnil
  obtain ⟨c, s', rfl, hc⟩ := h.exists_cons
  rw [hnil, List.filter_cons_of_pos hc] at hlen
  cases hlen

/-- What is read off the front is nothing or a digit part. -/
theorem digitPart_cases (s : List Char) :
    (digitPart s = ([], s) ∧ ∀ c ∈ s.head?, isDecimal c = false) ∨
      ∃ t, DigitPart t ∧ s = t ++ (digitPart s).2 ∧
        (digitPart s).1.length = (t.filter isDecimal).length := by
  induction s using digitPart.induct with
  | case1 => exact .inl ⟨rfl, by simp⟩
  | case2 c c' rest hc =>
      exact .inl ⟨digitPart_of_not_decimal hc _, by simpa using isDecimal_eq_false hc⟩
  | case3 c c' rest d hc hc' ih =>
      rcases ih with ⟨-, hnot⟩ | ⟨t, ht, hs, hlen⟩
      · rw [hnot c' rfl] at hc'
        cases hc'
      · refine .inr ⟨c :: '_' :: t, .separated (by simp [isDecimal, hc]) ht, ?_, ?_⟩
        · rw [digitPart_separated hc hc', List.cons_append, List.cons_append, ← hs]
        · have hunderscore : isDecimal '_' = false := by decide
          rw [digitPart_separated hc hc']
          simpa [isDecimal, hc, decimalValue_eq_none hunderscore] using hlen
  | case4 c c' rest d hc hc' =>
      have hread : digitPart (c :: '_' :: c' :: rest) = ([d], '_' :: c' :: rest) := by
        rw [digitPart, hc]
        simp only [hc', Bool.false_eq_true, if_false]
      have hdecimal : isDecimal c = true := by simp [isDecimal, hc]
      exact .inr ⟨[c], .single hdecimal, by rw [hread]; rfl, by simp [hread, hdecimal]⟩
  | case5 c rest hnot hc =>
      exact .inl ⟨digitPart_of_not_decimal hc _, by simpa using isDecimal_eq_false hc⟩
  | case6 c rest hnot d hc ih =>
      have hread : digitPart (c :: rest) = (d :: (digitPart rest).1, (digitPart rest).2) := by
        rw [digitPart.eq_3 c rest hnot, hc]
      have hdecimal : isDecimal c = true := by simp [isDecimal, hc]
      rcases ih with ⟨hrest, -⟩ | ⟨t, ht, hs, hlen⟩
      · exact .inr ⟨[c], .single hdecimal, by rw [hread, hrest]; rfl,
          by simp [hread, hrest, hdecimal]⟩
      · refine .inr ⟨c :: t, .digit hdecimal ht, ?_, ?_⟩
        · rw [hread, List.cons_append, ← hs]
        · rw [hread]
          simpa [hdecimal] using hlen

/-! ## Signs -/

/-- The sign and what follows it. -/
theorem exists_of_splitSign (s : List Char) : ∃ sign, IsSign sign ∧ s = sign ++ (splitSign s).2 := by
  unfold splitSign
  split
  · exact ⟨['+'], .inr (.inl rfl), rfl⟩
  · exact ⟨['-'], .inr (.inr rfl), rfl⟩
  · exact ⟨[], .inl rfl, rfl⟩

theorem splitSign_append {sign body : List Char} (h : IsSign sign)
    (hbody : ∀ c ∈ body.head?, c ≠ '+' ∧ c ≠ '-') : (splitSign (sign ++ body)).2 = body := by
  rcases h with rfl | rfl | rfl
  · rw [List.nil_append, splitSign.eq_def]
    split
    · exact absurd rfl (hbody '+' rfl).1
    · exact absurd rfl (hbody '-' rfl).2
    · rfl
  · rfl
  · rfl

/-! ## Numbers -/

theorem pointNumber_of_digits {s rest : List Char} {ds : List ℕ} (h : digitPart s = (ds, rest))
    (hne : ds ≠ []) (hrest : ∀ c ∈ rest.head?, c ≠ '.') :
    pointNumber s = some (decimalOf ds [], rest) := by
  rw [pointNumber, h]
  split
  · rename_i heq
    cases heq
    exact absurd rfl (hrest '.' rfl)
  · rename_i heq
    cases heq
    rw [if_neg hne]

theorem pointNumber_of_point {s rest rest' : List Char} {ds fs : List ℕ}
    (h : digitPart s = (ds, '.' :: rest)) (h' : digitPart rest = (fs, rest'))
    (hne : ¬ (ds = [] ∧ fs = [])) : pointNumber s = some (decimalOf ds fs, rest') := by
  simp only [pointNumber, h, h', if_neg hne]

/-- What is read as a number is one. -/
theorem exists_of_pointNumber {s rest : List Char} {q : ℚ} (h : pointNumber s = some (q, rest)) :
    ∃ number, PointNumber number ∧ s = number ++ rest := by
  rw [pointNumber] at h
  split at h
  · rename_i whole rest₁ hs
    split at h
    rename_i frac rest' hrest
    split at h
    · cases h
    · rename_i hne
      cases h
      rcases digitPart_cases s with ⟨hnone, -⟩ | ⟨t, ht, heq, -⟩
      · rw [hs] at hnone
        cases hnone
        rcases digitPart_cases rest₁ with ⟨hnone, -⟩ | ⟨t, ht, heq, -⟩
        · rw [hrest] at hnone
          cases hnone
          exact absurd ⟨rfl, rfl⟩ hne
        · rw [hrest] at heq
          exact ⟨'.' :: t, .frac ht, by rw [List.cons_append, ← heq]⟩
      · rw [hs] at heq
        rcases digitPart_cases rest₁ with ⟨hnone, -⟩ | ⟨t', ht', heq', -⟩
        · rw [hrest] at hnone
          cases hnone
          exact ⟨t ++ ['.'], .point ht, by rw [List.append_assoc, heq]; rfl⟩
        · rw [hrest] at heq'
          refine ⟨t ++ '.' :: t', .decimal ht ht', ?_⟩
          rw [List.append_assoc, List.cons_append, ← heq', heq]
  · rename_i whole rest₁ hnot hs
    split at h
    · cases h
    · rename_i hne
      cases h
      rcases digitPart_cases s with ⟨hnone, -⟩ | ⟨t, ht, heq, -⟩
      · rw [hs] at hnone
        cases hnone
        exact absurd rfl hne
      · rw [hs] at heq
        exact ⟨t, .whole ht, heq⟩

/-- The texts that end a number. -/
def EndsNumber (s : List Char) : Prop := EndsDigits s ∧ ∀ c ∈ s.head?, c ≠ '.'

/-- A number is read to its end. -/
theorem PointNumber.exists_read {number rest : List Char} (h : PointNumber number)
    (hrest : EndsNumber rest) : ∃ q, pointNumber (number ++ rest) = some (q, rest) := by
  have hpoint : ∀ tail, EndsDigits ('.' :: tail) := by
    intro tail c hc
    cases hc
    exact ⟨decimalValue_eq_none (by decide), by decide⟩
  cases h with
  | whole hs =>
      obtain ⟨ds, hread, hne, -⟩ := hs.exists_read hrest.1
      exact ⟨_, pointNumber_of_digits hread hne hrest.2⟩
  | point hs =>
      obtain ⟨ds, hread, hne, -⟩ := hs.exists_read (hpoint rest)
      rw [List.append_assoc, List.singleton_append]
      exact ⟨_, pointNumber_of_point hread (digitPart_of_endsDigits hrest.1) fun h => hne h.1⟩
  | frac hs =>
      obtain ⟨fs, hread, hne, -⟩ := hs.exists_read hrest.1
      exact ⟨_, pointNumber_of_point (digitPart_of_endsDigits (hpoint _)) hread
        fun h => hne h.2⟩
  | decimal hs ht =>
      obtain ⟨ds, hread, hne, -⟩ := hs.exists_read (hpoint _)
      obtain ⟨fs, hread', -, -⟩ := ht.exists_read hrest.1
      rw [List.append_assoc, List.cons_append]
      exact ⟨_, pointNumber_of_point hread hread' fun h => hne h.1⟩

/-- An exponent is what `exponentPart` reads. -/
theorem isSome_exponentPart_iff (s : List Char) : (exponentPart s).isSome ↔ ExponentPart s := by
  cases s with
  | nil => exact ⟨fun _ => .none, fun _ => rfl⟩
  | cons c rest =>
      rw [exponentPart]
      split
      · rename_i hc
        constructor
        · intro h
          split at h
          · rename_i ds hread
            split at h
            · cases h
            · rename_i hne
              obtain ⟨sign, hsign, hrest⟩ := exists_of_splitSign rest
              rcases digitPart_cases (splitSign rest).2 with ⟨hnone, -⟩ | ⟨t, ht, heq, -⟩
              · rw [hread] at hnone
                exact absurd (Prod.ext_iff.mp hnone).1 hne
              · rw [hread, List.append_nil] at heq
                rw [hrest, heq]
                exact .some hc hsign ht
          · cases h
        · intro h
          cases h with
          | @some _ sign t _ hsign ht =>
              obtain ⟨c', t', rfl, hc'⟩ := ht.exists_cons
              obtain ⟨ds, hread, hne, -⟩ := ht.exists_read endsDigits_nil
              have hbody : (splitSign (sign ++ c' :: t')).2 = c' :: t' := by
                apply splitSign_append hsign
                intro c'' hc''
                cases hc''
                exact ⟨ne_of_isDecimal hc' (by decide), ne_of_isDecimal hc' (by decide)⟩
              rw [List.append_nil] at hread
              rw [hbody, hread]
              simp only [if_neg hne, Option.isSome_some]
      · rename_i hc
        constructor
        · intro h
          cases h
        · intro h
          cases h with
          | some hc' => exact absurd hc' hc

/-! ## Literals -/

theorem ExponentPart.endsNumber {s : List Char} (h : ExponentPart s) : EndsNumber s := by
  cases h with
  | none => exact ⟨endsDigits_nil, by simp⟩
  | some hc _ _ =>
      refine ⟨?_, ?_⟩
      · intro c' hc'
        cases hc'
        rcases hc with rfl | rfl <;> exact ⟨decimalValue_eq_none (by decide), by decide⟩
      · intro c' hc'
        cases hc'
        rcases hc with rfl | rfl <;> decide

theorem PointNumber.exists_cons {s : List Char} (h : PointNumber s) :
    ∃ c rest, s = c :: rest ∧ (isDecimal c = true ∨ c = '.') := by
  cases h with
  | whole hs =>
      obtain ⟨c, rest, rfl, hc⟩ := hs.exists_cons
      exact ⟨c, rest, rfl, .inl hc⟩
  | point hs | decimal hs _ =>
      obtain ⟨c, rest, rfl, hc⟩ := hs.exists_cons
      exact ⟨c, _, rfl, .inl hc⟩
  | frac _ => exact ⟨'.', _, rfl, .inr rfl⟩

theorem IsWord.exists_cons {s : List Char} (h : IsWord s) :
    ∃ c rest, s = c :: rest ∧ (c.toLower = 'i' ∨ c.toLower = 'n') := by
  cases s with
  | nil => simp [IsWord] at h
  | cons c rest =>
      refine ⟨c, rest, rfl, ?_⟩
      simp only [IsWord, List.map_cons, List.mem_cons, List.cons.injEq, List.not_mem_nil,
        or_false] at h
      rcases h with h | h | h
      · exact .inl h.1
      · exact .inl h.1
      · exact .inr h.1

/-- Neither a word nor a number starts with a sign. -/
theorem FloatBody.head {body : List Char} (h : FloatBody body) :
    ∀ c ∈ body.head?, c ≠ '+' ∧ c ≠ '-' := by
  rcases h with hword | ⟨number, exponent, rfl, hnumber, -⟩
  · obtain ⟨c, rest, rfl, hc⟩ := hword.exists_cons
    intro c' hc'
    cases hc'
    constructor
    · intro heq
      subst heq
      revert hc
      decide
    · intro heq
      subst heq
      revert hc
      decide
  · obtain ⟨c, rest, rfl, hc⟩ := hnumber.exists_cons
    intro c' hc'
    cases hc'
    rcases hc with hc | rfl
    · exact ⟨ne_of_isDecimal hc (by decide), ne_of_isDecimal hc (by decide)⟩
    · decide

theorem DigitPart.head {body : List Char} (h : DigitPart body) :
    ∀ c ∈ body.head?, c ≠ '+' ∧ c ≠ '-' := by
  obtain ⟨c, rest, rfl, hc⟩ := h.exists_cons
  intro c' hc'
  cases hc'
  exact ⟨ne_of_isDecimal hc (by decide), ne_of_isDecimal hc (by decide)⟩

/-- **`int`** accepts exactly its literals. -/
theorem isSome_pyInt_iff (s : List Char) : (pyInt s).isSome ↔ IntLiteral s := by
  rw [pyInt]
  constructor
  · intro h
    split at h
    · rename_i ds hread
      split at h
      · cases h
      · rename_i hds
        rw [not_or, not_lt] at hds
        obtain ⟨sign, hsign, hstrip⟩ := exists_of_splitSign (numberStrip s)
        rcases digitPart_cases (splitSign (numberStrip s)).2 with ⟨hnone, -⟩ | ⟨t, ht, heq, hlen⟩
        · rw [hread] at hnone
          exact absurd (Prod.ext_iff.mp hnone).1 hds.1
        · rw [hread, List.append_nil] at heq
          rw [hread] at hlen
          rw [heq] at hstrip
          exact ⟨sign, t, hstrip, hsign, ht, hlen ▸ hds.2⟩
    · cases h
  · intro hliteral
    rcases hliteral with ⟨sign, body, hstrip, hsign, hbody, hlen⟩
    obtain ⟨ds, hread, hne, hcount⟩ := hbody.exists_read endsDigits_nil
    rw [List.append_nil] at hread
    have hnot : ¬ (ds = [] ∨ maxStrDigits < ds.length) := by
      rw [not_or, not_lt, hcount]
      exact ⟨hne, hlen⟩
    rw [hstrip, splitSign_append hsign hbody.head, hread]
    simp only [if_neg hnot, Option.isSome_some]

/-- What `float` accepts behind a sign, as it is told apart. -/
theorem isSome_pyFloat_iff_floatBody (s : List Char) :
    (pyFloat s).isSome ↔ FloatBody (splitSign (numberStrip s)).2 := by
  rw [pyFloat]
  generalize splitSign (numberStrip s) = signed
  split
  · rename_i hword
    refine iff_of_true rfl (.inl ?_)
    rcases hword with hword | hword <;> simp [IsWord, hword]
  · rename_i hword
    split
    · rename_i hnan
      exact iff_of_true rfl (.inl (by simp [IsWord, hnan]))
    · rename_i hnan
      have hnot : ¬ IsWord signed.2 := by
        rw [not_or] at hword
        simp [IsWord, hword, hnan]
      constructor
      · intro h
        split at h
        · cases h
        · rename_i q rest hnumber
          split at h
          · cases h
          · rename_i e hexponent
            obtain ⟨number, hpoint, heq⟩ := exists_of_pointNumber hnumber
            exact .inr ⟨number, rest, heq, hpoint,
              (isSome_exponentPart_iff rest).mp (by rw [hexponent]; rfl)⟩
      · intro hfloat
        rcases hfloat with hword' | ⟨number, exponent, heq, hnumber, hexponent⟩
        · exact absurd hword' hnot
        · obtain ⟨q, hread⟩ := hnumber.exists_read hexponent.endsNumber
          obtain ⟨e, he⟩ := Option.isSome_iff_exists.mp ((isSome_exponentPart_iff _).mpr hexponent)
          rw [heq, hread]
          simp only [he, Option.isSome_some]

/-- **`float`** accepts exactly its literals. -/
theorem isSome_pyFloat_iff (s : List Char) : (pyFloat s).isSome ↔ FloatLiteral s := by
  rw [isSome_pyFloat_iff_floatBody]
  constructor
  · intro h
    obtain ⟨sign, hsign, hstrip⟩ := exists_of_splitSign (numberStrip s)
    exact ⟨sign, _, hstrip, hsign, h⟩
  · intro hliteral
    rcases hliteral with ⟨sign, body, hstrip, hsign, hbody⟩
    rwa [hstrip, splitSign_append hsign hbody.head]

/-- A text `int` accepts denotes the same number for `float`. -/
theorem pyFloat_of_pyInt {s : List Char} {n : ℤ} (h : pyInt s = some n) :
    pyFloat s = some (.finite n) := by
  rw [pyInt] at h
  rw [pyFloat]
  generalize splitSign (numberStrip s) = signed at *
  split at h
  · rename_i ds hread
    split at h
    · cases h
    · rename_i hds
      rw [not_or] at hds
      have hnumber := pointNumber_of_digits hread hds.1 (by simp)
      have hword : ¬ IsWord signed.2 := by
        intro hword
        obtain ⟨c, rest, heq, hc⟩ := hword.exists_cons
        rcases digitPart_cases signed.2 with ⟨hnone, -⟩ | ⟨t, ht, hbody, -⟩
        · rw [hread] at hnone
          exact absurd (Prod.ext_iff.mp hnone).1 hds.1
        · obtain ⟨c', rest', rfl, hc'⟩ := ht.exists_cons
          rw [hread, List.append_nil, heq] at hbody
          cases hbody
          rw [toLower_of_isDecimal hc'] at hc
          rcases hc with rfl | rfl <;> revert hc' <;> decide
      cases h
      simp only [IsWord, List.mem_cons, List.not_mem_nil, or_false, not_or] at hword
      simp only [hword, or_self, if_false, hnumber, exponentPart]
      simp [decimalOf, natOfDigits, applySign]
  · cases h

end PyLib
