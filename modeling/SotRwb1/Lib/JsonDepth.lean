import SotRwb1.Lib.JsonText

/-!
# What the JSON reader raises

Every reader goes on behind what it has read, so a value inside `k` brackets stands
in a text with `k` opening brackets at least.  Hence the reader exhausts the
recursion limit only on a text with more opening brackets than the limit; any other
complaint is about malformed text.

## Main definitions

* `opens` — the number of opening brackets.
* `Orderly` — what a reader leaves and what it raises.
* `loads_errors`, `loads_brackets` — the bound, and that it is reached.
-/

namespace PyLib

/-- The opening brackets of a text. -/
def opens (s : List Char) : ℕ := s.countP fun c => c == '[' || c == '{'

/-- The reader goes on behind what it has read, and raises on malformed text, or on
text with more opening brackets than the limit. -/
structure Orderly {α : Type} (limit : ℕ) (scanner : Scanner α) : Prop where
  suffix : ∀ s x rest, scanner s = .ok (x, rest) → rest <:+ s
  errors : ∀ s e, scanner s = .error e →
    e = .valueError ∨ e = .recursionError ∧ limit < opens s

theorem opens_le_of_suffix {s t : List Char} (h : s <:+ t) : opens s ≤ opens t :=
  h.sublist.countP_le

theorem skipSpace_suffix (s : List Char) : skipSpace s <:+ s := List.dropWhile_suffix _

theorem scanUnits_suffix {s rest : List Char} {units : List ℕ}
    (h : scanUnits s = some (units, rest)) : rest <:+ s := by
  fun_induction scanUnits s generalizing units with
  | case1 => cases h
  | case2 tail =>
      cases h
      exact List.suffix_cons _ _
  | case3 a b c d tail n _ ih =>
      obtain ⟨r, hr, heq⟩ := Option.map_eq_some_iff.mp h
      cases heq
      exact (ih hr).trans ⟨['\\', 'u', a, b, c, d], rfl⟩
  | case4 => cases h
  | case5 c tail _ c' _ ih =>
      obtain ⟨r, hr, heq⟩ := Option.map_eq_some_iff.mp h
      cases heq
      exact (ih hr).trans ⟨['\\', c], rfl⟩
  | case6 => cases h
  | case7 => cases h
  | case8 c tail _ _ _ _ ih =>
      obtain ⟨r, hr, heq⟩ := Option.map_eq_some_iff.mp h
      cases heq
      exact (ih hr).trans (List.suffix_cons _ _)

theorem scanString_suffix {s rest : List Char} {text : String}
    (h : scanString s = some (text, rest)) : rest <:+ s := by
  obtain ⟨r, hr, heq⟩ := Option.map_eq_some_iff.mp h
  cases heq
  exact scanUnits_suffix hr

theorem scanWhole_suffix {s whole rest : List Char} (h : scanWhole s = some (whole, rest)) :
    rest <:+ s := by
  cases s with
  | nil => cases h
  | cons c tail =>
      rw [scanWhole] at h
      split at h
      · cases h
        exact List.suffix_cons _ _
      · split at h
        · rw [List.span_eq_takeWhile_dropWhile] at h
          cases h
          exact List.dropWhile_suffix _
        · cases h

theorem scanFraction_suffix (s : List Char) : (scanFraction s).2 <:+ s := by
  rw [scanFraction.eq_def]
  split
  · split
    · exact List.suffix_rfl
    · exact (List.dropWhile_suffix _).trans (List.suffix_cons _ _)
  · exact List.suffix_rfl

theorem scanSign_suffix (s : List Char) : (scanSign s).2 <:+ s := by
  rw [scanSign.eq_def]
  split
  · exact List.suffix_cons _ _
  · exact List.suffix_cons _ _
  · exact List.suffix_rfl

theorem scanExponent_suffix (s : List Char) : (scanExponent s).2 <:+ s := by
  cases s with
  | nil => exact List.suffix_rfl
  | cons c tail =>
      rw [scanExponent]
      split
      · exact ((List.dropWhile_suffix _).trans (scanSign_suffix tail)).trans (List.suffix_cons _ _)
      · exact List.suffix_rfl

theorem scanMinus_suffix (s : List Char) : (scanMinus s).2 <:+ s := by
  rw [scanMinus.eq_def]
  split
  · exact List.suffix_cons _ _
  · exact List.suffix_rfl

/-- Malformed text is the only complaint of a reader that does not go deeper. -/
theorem Orderly.of_valueError {α : Type} {limit : ℕ} {scanner : Scanner α}
    (hsuffix : ∀ s x rest, scanner s = .ok (x, rest) → rest <:+ s)
    (herror : ∀ s e, scanner s = .error e → e = .valueError) : Orderly limit scanner :=
  ⟨hsuffix, fun s e h => .inl (herror s e h)⟩

theorem orderly_scanAtom (limit : ℕ) : Orderly limit scanAtom := by
  have hnumber : ∀ s r, scanNumber s = r → (∀ x rest, r = .ok (x, rest) → rest <:+ s) ∧
      ∀ e, r = .error e → e = .valueError := by
    intro s r hr
    rw [scanNumber, scanUnsigned] at hr
    cases hwhole : scanWhole (scanMinus s).2 with
    | none =>
        rw [hwhole] at hr
        subst hr
        simp
    | some whole =>
        have hsuffix : (scanExponent (scanFraction whole.2).2).2 <:+ s :=
          (((scanExponent_suffix _).trans (scanFraction_suffix _)).trans
            (scanWhole_suffix hwhole)).trans (scanMinus_suffix s)
        rw [hwhole] at hr
        dsimp only at hr
        subst hr
        split
        · split
          · simp only [Except.ok.injEq, Prod.mk.injEq, reduceCtorEq, false_implies, implies_true,
              and_true]
            rintro x rest ⟨-, rfl⟩
            exact hsuffix
          · simp
        · split
          · simp only [Except.ok.injEq, Prod.mk.injEq, reduceCtorEq, false_implies, implies_true,
              and_true]
            rintro x rest ⟨-, rfl⟩
            exact hsuffix
          · simp
  apply Orderly.of_valueError
  · intro s x rest h
    rw [scanAtom] at h
    split at h
    · cases h
      exact List.drop_suffix _ _
    · exact (hnumber s _ rfl).1 x rest h
  · intro s e h
    rw [scanAtom] at h
    split at h
    · cases h
    · exact (hnumber s _ rfl).2 e h

/-- A list of elements, each read in order, is read in order. -/
theorem orderly_scanElements {α : Type} {limit : ℕ} {close : Char} {element : Scanner α}
    (h : Orderly limit element) (fuel : ℕ) : Orderly limit (scanElements close element fuel) := by
  induction fuel with
  | zero =>
      apply Orderly.of_valueError
      · intro s x rest hs
        cases hs
      · intro s e hs
        cases hs
        rfl
  | succ fuel ih =>
      constructor
      case suffix =>
        intro s xs rest hs
        rw [scanElements] at hs
        split at hs
        · cases hs
        rename_i x s' hx
        have hs' := h.suffix s x s' hx
        have hskip := (skipSpace_suffix s').trans hs'
        split at hs
        · cases hs
        rename_i c tail htail
        have htail' : tail <:+ s := (List.suffix_cons c tail).trans (htail ▸ hskip)
        split at hs
        · cases hs
          exact htail'
        split at hs
        · obtain ⟨r, hr, heq⟩ := exists_of_map_eq_ok hs
          cases heq
          exact ((ih.suffix _ _ _ hr).trans (skipSpace_suffix tail)).trans htail'
        · cases hs
      case errors =>
        intro s e hs
        rw [scanElements] at hs
        split at hs
        · rename_i hx
          cases hs
          exact h.errors s e hx
        rename_i x s' hx
        have hskip := (skipSpace_suffix s').trans (h.suffix s x s' hx)
        split at hs
        · cases hs
          exact .inl rfl
        rename_i c tail htail
        have htail' : tail <:+ s := (List.suffix_cons c tail).trans (htail ▸ hskip)
        split at hs
        · cases hs
        split at hs
        · cases hr : scanElements close element fuel (skipSpace tail) with
          | ok r =>
              rw [hr] at hs
              cases hs
          | error e' =>
              rw [hr] at hs
              cases hs
              have hle := opens_le_of_suffix ((skipSpace_suffix tail).trans htail')
              exact (ih.errors _ _ hr).imp_right fun hdeep => ⟨hdeep.1, hdeep.2.trans_le hle⟩
        · cases hs
          exact .inl rfl

/-- A reader may begin further on, and its value may be changed. -/
theorem Orderly.map_at {α β : Type} {limit : ℕ} {scanner : Scanner α} (h : Orderly limit scanner)
    (f : α → β) {s s' : List Char} (hs : s' <:+ s) :
    (∀ y rest, (scanner s').map (fun r => (f r.1, r.2)) = .ok (y, rest) → rest <:+ s) ∧
    ∀ e, (scanner s').map (fun r => (f r.1, r.2)) = .error e →
      e = .valueError ∨ e = .recursionError ∧ limit < opens s := by
  cases hscan : scanner s' with
  | error e =>
      refine ⟨fun _ _ hmap => (by cases hmap), fun e' hmap => ?_⟩
      cases hmap
      exact (h.errors s' e hscan).imp_right fun hdeep =>
        ⟨hdeep.1, hdeep.2.trans_le (opens_le_of_suffix hs)⟩
  | ok r =>
      refine ⟨fun y rest hmap => ?_, fun _ hmap => (by cases hmap)⟩
      cases hmap
      exact (h.suffix s' r.1 r.2 hscan).trans hs

theorem orderly_scanMember {limit : ℕ} {value : Scanner Json} (h : Orderly limit value) :
    Orderly limit (scanMember value) := by
  constructor
  case suffix =>
    intro s member rest hs
    rw [scanMember.eq_def] at hs
    split at hs
    · rename_i tail
      split at hs
      · cases hs
      rename_i key s' hkey
      have hs' : s' <:+ '"' :: tail := (scanString_suffix hkey).trans (List.suffix_cons _ _)
      split at hs
      · rename_i s'' hcolon
        have hs'' : s'' <:+ '"' :: tail :=
          (List.suffix_cons ':' s'').trans (hcolon ▸ (skipSpace_suffix s').trans hs')
        exact (h.map_at (fun x => (key, x)) ((skipSpace_suffix s'').trans hs'')).1 _ _ hs
      · cases hs
    · cases hs
  case errors =>
    intro s e hs
    rw [scanMember.eq_def] at hs
    split at hs
    · rename_i tail
      split at hs
      · cases hs
        exact .inl rfl
      rename_i key s' hkey
      have hs' : s' <:+ '"' :: tail := (scanString_suffix hkey).trans (List.suffix_cons _ _)
      split at hs
      · rename_i s'' hcolon
        have hs'' : s'' <:+ '"' :: tail :=
          (List.suffix_cons ':' s'').trans (hcolon ▸ (skipSpace_suffix s').trans hs')
        exact (h.map_at (fun x => (key, x)) ((skipSpace_suffix s'').trans hs'')).2 _ hs
      · cases hs
        exact .inl rfl
    · cases hs
      exact .inl rfl

theorem orderly_scanArray {limit : ℕ} {value : Scanner Json} (h : Orderly limit value) :
    Orderly limit (scanArray value) := by
  constructor
  case suffix =>
    intro s x rest hs
    rw [scanArray] at hs
    split at hs
    · rename_i tail htail
      cases hs
      exact (List.suffix_cons ']' rest).trans (htail ▸ skipSpace_suffix s)
    · exact ((orderly_scanElements h _).map_at Json.arr (skipSpace_suffix s)).1 _ _ hs
  case errors =>
    intro s e hs
    rw [scanArray] at hs
    split at hs
    · cases hs
    · exact ((orderly_scanElements h _).map_at Json.arr (skipSpace_suffix s)).2 _ hs

theorem orderly_scanObject {limit : ℕ} {value : Scanner Json} (h : Orderly limit value) :
    Orderly limit (scanObject value) := by
  have hmembers : ∀ fuel, Orderly limit (scanElements '}' (scanMember value) fuel) :=
    orderly_scanElements (orderly_scanMember h)
  constructor
  case suffix =>
    intro s x rest hs
    rw [scanObject] at hs
    split at hs
    · rename_i tail htail
      cases hs
      exact (List.suffix_cons '}' rest).trans (htail ▸ skipSpace_suffix s)
    · exact ((hmembers _).map_at (fun fields => Json.obj (Dict.ofList fields).entries)
        (skipSpace_suffix s)).1 _ _ hs
  case errors =>
    intro s e hs
    rw [scanObject] at hs
    split at hs
    · cases hs
    · exact ((hmembers _).map_at (fun fields => Json.obj (Dict.ofList fields).entries)
        (skipSpace_suffix s)).2 _ hs

/-- A value is read in order if the readers behind its brackets allow one bracket less. -/
theorem orderly_scanOnce {limit : ℕ} {object array : Scanner Json}
    (hobject : (∀ s x rest, object s = .ok (x, rest) → rest <:+ s) ∧ ∀ s e, object s = .error e →
      e = .valueError ∨ e = .recursionError ∧ limit < opens s + 1)
    (harray : (∀ s x rest, array s = .ok (x, rest) → rest <:+ s) ∧ ∀ s e, array s = .error e →
      e = .valueError ∨ e = .recursionError ∧ limit < opens s + 1) :
    Orderly limit (scanOnce object array) := by
  have hopen : ∀ (c : Char) (s : List Char), c = '[' ∨ c = '{' → opens (c :: s) = opens s + 1 := by
    intro c s hc
    apply List.countP_cons_of_pos
    rcases hc with rfl | rfl <;> rfl
  constructor
  case suffix =>
    intro s x rest hs
    rw [scanOnce.eq_def] at hs
    split at hs
    · rename_i tail
      split at hs
      · rename_i text rest' htext
        cases hs
        exact (scanString_suffix htext).trans (List.suffix_cons _ _)
      · cases hs
    · exact (hobject.1 _ _ _ hs).trans (List.suffix_cons _ _)
    · exact (harray.1 _ _ _ hs).trans (List.suffix_cons _ _)
    · exact (orderly_scanAtom limit).suffix _ _ _ hs
  case errors =>
    intro s e hs
    rw [scanOnce.eq_def] at hs
    split at hs
    · split at hs
      · cases hs
      · cases hs
        exact .inl rfl
    · rw [hopen _ _ (.inr rfl)]
      exact hobject.2 _ _ hs
    · rw [hopen _ _ (.inl rfl)]
      exact harray.2 _ _ hs
    · exact (orderly_scanAtom limit).errors _ _ hs

theorem orderly_scanValue (limit : ℕ) : Orderly limit (scanValue limit) := by
  induction limit with
  | zero =>
      have hdeep : (∀ (s : List Char) (x : Json) (rest : List Char),
          (Except.error .recursionError : Except PyError (Json × List Char)) = .ok (x, rest) →
            rest <:+ s) ∧ ∀ (s : List Char) (e : PyError),
          (Except.error .recursionError : Except PyError (Json × List Char)) = .error e →
            e = .valueError ∨ e = .recursionError ∧ 0 < opens s + 1 := by
        refine ⟨fun _ _ _ h => (by cases h), fun s e h => ?_⟩
        cases h
        exact .inr ⟨rfl, Nat.succ_pos _⟩
      exact orderly_scanOnce hdeep hdeep
  | succ limit ih =>
      have hweaken : ∀ scanner : Scanner Json, Orderly limit scanner →
          (∀ s x rest, scanner s = .ok (x, rest) → rest <:+ s) ∧ ∀ s e, scanner s = .error e →
            e = .valueError ∨ e = .recursionError ∧ limit + 1 < opens s + 1 := by
        intro scanner h
        refine ⟨h.suffix, fun s e hs => (h.errors s e hs).imp_right fun hdeep => ⟨hdeep.1, ?_⟩⟩
        exact Nat.succ_lt_succ hdeep.2
      exact orderly_scanOnce (hweaken _ (orderly_scanObject ih)) (hweaken _ (orderly_scanArray ih))

/-- **Errors.**  The reader raises on malformed text, or because the text has more
opening brackets than the limit. -/
theorem loads_errors {limit : ℕ} {text : List Char} {e : PyError}
    (h : loads limit text = .error e) :
    e = .valueError ∨ e = .recursionError ∧ limit < opens text := by
  rw [loads] at h
  split at h
  · cases h
    exact .inl rfl
  split at h
  · rename_i e' hscan
    cases h
    have hle := opens_le_of_suffix (skipSpace_suffix text)
    exact ((orderly_scanValue limit).errors _ _ hscan).imp_right fun hdeep =>
      ⟨hdeep.1, hdeep.2.trans_le hle⟩
  · split at h
    · cases h
    · cases h
      exact .inl rfl

theorem scanValue_brackets (limit : ℕ) (rest : List Char) :
    scanValue limit (List.replicate (limit + 1) '[' ++ rest) = .error .recursionError := by
  induction limit with
  | zero => rfl
  | succ limit ih =>
      have hskip : skipSpace (List.replicate (limit + 1) '[' ++ rest) =
          List.replicate (limit + 1) '[' ++ rest := skipSpace_cons rfl _
      have helements : ∀ fuel, scanElements ']' (scanValue limit) (fuel + 1)
          ('[' :: (List.replicate limit '[' ++ rest)) = .error .recursionError := by
        intro fuel
        rw [scanElements, ← List.cons_append, ← List.replicate_succ, ih]
      rw [List.replicate_succ, List.cons_append, scanValue, scanOnce, scanArray, hskip,
        List.replicate_succ, List.cons_append]
      exact congrArg (Except.map fun r => (Json.arr r.1, r.2)) (helements _)

/-- One bracket more than the limit is too deep. -/
theorem loads_brackets (limit : ℕ) (rest : List Char) :
    loads limit (List.replicate (limit + 1) '[' ++ rest) = .error .recursionError := by
  have hskip : skipSpace (List.replicate (limit + 1) '[' ++ rest) =
      List.replicate (limit + 1) '[' ++ rest := skipSpace_cons rfl _
  rw [loads, hskip, scanValue_brackets, if_neg]
  simp [List.replicate_succ]

end PyLib
