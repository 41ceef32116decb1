import Mathlib.Data.List.Infix

/-!
# Words after a separator

A name made of anything, a separator and a word can be read back although all three may
contain the separator, as long as no word ends in a separator and another word.

## Main definitions

* `SuffixFree` — the condition on the words.
* `SuffixFree.append_inj` — the name determines its parts.
-/

universe u

variable {α : Type u} {sep : α}

/-- No word is the end of another one after a separator. -/
def SuffixFree (sep : α) (words : List (List α)) : Prop :=
  ∀ k ∈ words, ∀ l ∈ words, ¬sep :: k <:+ l

instance [DecidableEq α] (sep : α) (words : List (List α)) :
    Decidable (SuffixFree sep words) :=
  inferInstanceAs (Decidable (∀ k ∈ words, ∀ l ∈ words, ¬sep :: k <:+ l))

/-- The shorter of two such words would be an end of the other. -/
theorem suffix_of_append_eq {u k l : List α} (hu : u ≠ [])
    (h : sep :: k = u ++ sep :: l) : sep :: l <:+ k := by
  obtain ⟨c, rest, rfl⟩ := List.exists_cons_of_ne_nil hu
  obtain ⟨-, rfl⟩ := List.cons.inj h
  exact List.suffix_append rest (sep :: l)

/-- What precedes the separator may be anything: it and the word are determined. -/
theorem SuffixFree.append_inj {words : List (List α)}
    (h : SuffixFree sep words) {s t k l : List α} (hk : k ∈ words) (hl : l ∈ words)
    (heq : s ++ sep :: k = t ++ sep :: l) : s = t ∧ k = l := by
  rcases List.append_eq_append_iff.mp heq with ⟨u, rfl, hrest⟩ | ⟨u, rfl, hrest⟩
  · by_cases hu : u = []
    · subst hu
      exact ⟨(List.append_nil s).symm, (List.cons.inj hrest).2⟩
    · exact absurd (suffix_of_append_eq hu hrest) (h l hl k hk)
  · by_cases hu : u = []
    · subst hu
      exact ⟨List.append_nil t, (List.cons.inj hrest).2.symm⟩
    · exact absurd (suffix_of_append_eq hu hrest) (h k hk l hl)
