import Mathlib.Data.List.Infix

/-!
# MQTT topics and filters

A topic is a text of levels separated by `/`.  In a filter, a level `+` stands for any
one level, and a last level `#` for any number of levels, none included.  Topics that
begin with `$` are reserved and left out.

A filter `root/#` whose root has no wildcard matches the topics at or below the root;
being below is a question of texts that end in the separator.

## Main definitions

* `Mqtt.levels`, `Mqtt.matchLevels`, `Mqtt.topicMatches`.
* `Mqtt.Plain` — a text without wildcards, which one may publish on.
-/

namespace Mqtt

/-- The levels of a topic or filter. -/
def levels (t : List Char) : List (List Char) := t.splitOn '/'

/-- Whether the levels of a filter match those of a topic. -/
def matchLevels : List (List Char) → List (List Char) → Bool
  | [], ts => ts.isEmpty
  | f :: fs, ts =>
      if f = ['#'] ∧ fs = [] then true
      else
        match ts with
        | [] => false
        | t :: ts => (f = ['+'] || f = t) && matchLevels fs ts

/-- Whether a filter matches a topic. -/
def topicMatches (filter topic : String) : Bool :=
  matchLevels (levels filter.toList) (levels topic.toList)

/-- A text without wildcards. -/
def Plain (t : List Char) : Prop := '+' ∉ t ∧ '#' ∉ t

instance : DecidablePred Plain := fun t => inferInstanceAs (Decidable ('+' ∉ t ∧ '#' ∉ t))

theorem plain_append_iff (s t : List Char) : Plain (s ++ t) ↔ Plain s ∧ Plain t := by
  simp only [Plain, List.mem_append, not_or]
  tauto

/-! ## Levels -/

theorem levels_append_cons (s t : List Char) : levels (s ++ '/' :: t) = levels s ++ levels t :=
  List.splitOn_append_cons_self s t

theorem levels_of_notMem {s : List Char} (h : '/' ∉ s) : levels s = [s] :=
  List.splitOn_eq_singleton h

theorem levels_injective : Function.Injective levels := by
  intro s t h
  have hs : ['/'].intercalate (levels s) = s := List.intercalate_splitOn '/'
  have ht : ['/'].intercalate (levels t) = t := List.intercalate_splitOn '/'
  rw [← hs, ← ht, h]

/-- A level holds characters of the text and no separator. -/
theorem of_mem_levels {f t : List Char} (h : f ∈ levels t) : f ⊆ t ∧ '/' ∉ f := by
  induction t generalizing f with
  | nil => simp_all [levels]
  | cons c t ih =>
      rw [levels, List.splitOn_cons_eq_if_modifyHead, ← levels] at h
      split at h
      · rcases List.mem_cons.mp h with rfl | h
        · simp
        · exact ⟨List.subset_cons_of_subset c (ih h).1, (ih h).2⟩
      · rename_i hc
        cases hlevels : levels t with
        | nil => exact absurd hlevels (List.splitOn_ne_nil '/' t)
        | cons g gs =>
            rw [hlevels, List.modifyHead_cons] at h
            rcases List.mem_cons.mp h with rfl | h
            · obtain ⟨hsub, hsep⟩ := ih (f := g) (by simp [hlevels])
              refine ⟨List.cons_subset_cons c hsub, ?_⟩
              rintro (- | ⟨-, hmem⟩)
              · exact hc rfl
              · exact hsep hmem
            · obtain ⟨hsub, hsep⟩ := ih (f := f) (by simp [hlevels, h])
              exact ⟨List.subset_cons_of_subset c hsub, hsep⟩

/-- One text is at or above another in the tree of topics exactly when it is a prefix
of it, both with a separator at the end. -/
theorem levels_isPrefix_iff (s t : List Char) :
    levels s <+: levels t ↔ s ++ ['/'] <+: t ++ ['/'] := by
  constructor
  · rintro ⟨rest, hrest⟩
    cases rest with
    | nil =>
        rw [List.append_nil] at hrest
        rw [levels_injective hrest]
    | cons f fs =>
        have hsep : ∀ g ∈ f :: fs, '/' ∉ g := by
          intro g hg
          exact (of_mem_levels (t := t) (by simp [← hrest, List.mem_append, hg])).2
        have hlevels : levels (['/'].intercalate (f :: fs)) = f :: fs :=
          List.splitOn_intercalate '/' hsep (List.cons_ne_nil f fs)
        have ht : s ++ '/' :: ['/'].intercalate (f :: fs) = t := by
          apply levels_injective
          rw [levels_append_cons, hlevels, hrest]
        rw [← ht]
        exact ⟨['/'].intercalate (f :: fs) ++ ['/'], by simp⟩
  · rintro ⟨rest, hrest⟩
    rcases List.eq_nil_or_concat rest with rfl | ⟨init, c, rfl⟩
    · rw [List.append_nil] at hrest
      rw [List.append_cancel_right hrest]
    · have ht : s ++ '/' :: init = t := by
        have hlast : (s ++ '/' :: init) ++ [c] = t ++ ['/'] := by simpa using hrest
        exact List.append_inj_left' hlast rfl
      rw [← ht, levels_append_cons]
      exact List.prefix_append _ _

/-! ## Filters -/

theorem matchLevels_hash_iff {fs ts : List (List Char)} (h : ∀ f ∈ fs, f ≠ ['+'] ∧ f ≠ ['#']) :
    matchLevels (fs ++ [['#']]) ts = true ↔ fs <+: ts := by
  induction fs generalizing ts with
  | nil => simp [matchLevels]
  | cons f fs ih =>
      have hf := h f List.mem_cons_self
      have hfs : ∀ f ∈ fs, f ≠ ['+'] ∧ f ≠ ['#'] := fun g hg => h g (List.mem_cons_of_mem f hg)
      cases ts with
      | nil => simp [matchLevels, hf.2]
      | cons t ts =>
          rw [List.cons_append, matchLevels, if_neg (by simp), List.cons_prefix_cons, ← ih hfs]
          simp [hf.1]

/-- **Subtrees.**  A filter `root/#` matches the topics at or below its root. -/
theorem matchLevels_subtree_iff {root topic : List Char} (h : Plain root) :
    matchLevels (levels (root ++ ['/', '#'])) (levels topic) = true ↔
      root ++ ['/'] <+: topic ++ ['/'] := by
  have hhash : levels ['#'] = [['#']] := levels_of_notMem (by decide)
  have hplain : ∀ f ∈ levels root, f ≠ ['+'] ∧ f ≠ ['#'] := by
    intro f hf
    have hsub := (of_mem_levels hf).1
    constructor
    · rintro rfl
      exact h.1 (hsub (by simp))
    · rintro rfl
      exact h.2 (hsub (by simp))
  rw [levels_append_cons, hhash, matchLevels_hash_iff hplain, levels_isPrefix_iff]

end Mqtt
