import Mathlib.Data.List.Nodup

/-!
# Insertion-ordered dictionaries

A `Dict κ α` is an association list whose keys are pairwise distinct, with
Python's update rule: assigning to a present key replaces its value in place,
assigning to a new key appends it.  The distinctness of keys is a field, so a
dictionary with two bindings of one key cannot be built.

Two dictionaries are `Same` when they bind the same keys to the same values;
this is Python's `==`, which ignores insertion order.

## Main definitions

* `Dict.get`, `Dict.set`, `Dict.erase`, `Dict.update`, `Dict.ofList`.
* `Dict.dropNone` — keep the bindings whose value is present.
* `Dict.Same` — equality up to insertion order.
-/

namespace PyLib

universe u v

/-- An insertion-ordered dictionary. -/
@[ext] structure Dict (κ : Type u) (α : Type v) where
  entries : List (κ × α)
  nodup : (entries.map Prod.fst).Nodup

namespace Dict

variable {κ : Type u} {α : Type v} [DecidableEq κ]

/-- Assign in an association list: in place when the key is present, at the end
otherwise. -/
def setEntry (k : κ) (v : α) : List (κ × α) → List (κ × α)
  | [] => [(k, v)]
  | (k', v') :: rest => if k' = k then (k, v) :: rest else (k', v') :: setEntry k v rest

/-- The first binding decides a lookup. -/
theorem lookup_cons_if (k k' : κ) (v : α) (l : List (κ × α)) :
    ((k', v) :: l).lookup k = if k = k' then some v else l.lookup k := by
  rw [List.lookup_cons]
  by_cases h : k = k'
  · simp [h]
  · simp [h, beq_eq_false_iff_ne.mpr h]

theorem lookup_eq_none_of_notMem {k : κ} {l : List (κ × α)} (h : k ∉ l.map Prod.fst) :
    l.lookup k = none := by
  induction l with
  | nil => rfl
  | cons e rest ih =>
      obtain ⟨k', v⟩ := e
      rw [List.map_cons, List.mem_cons, not_or] at h
      rw [lookup_cons_if, if_neg h.1, ih h.2]

theorem lookup_isSome_iff (k : κ) (l : List (κ × α)) :
    (l.lookup k).isSome ↔ k ∈ l.map Prod.fst := by
  induction l with
  | nil => simp
  | cons e rest ih =>
      obtain ⟨k', v⟩ := e
      rw [lookup_cons_if, List.map_cons, List.mem_cons, ← ih]
      by_cases h : k = k' <;> simp [h]

theorem lookup_eq_some_iff_mem {k : κ} {v : α} {l : List (κ × α)} (hl : (l.map Prod.fst).Nodup) :
    l.lookup k = some v ↔ (k, v) ∈ l := by
  induction l with
  | nil => simp
  | cons e rest ih =>
      obtain ⟨k', v'⟩ := e
      rw [List.map_cons, List.nodup_cons] at hl
      rw [lookup_cons_if, List.mem_cons, Prod.mk.injEq]
      by_cases h : k = k'
      · subst h
        have hnot : (k, v) ∉ rest := fun hmem => hl.1 (List.mem_map.mpr ⟨(k, v), hmem, rfl⟩)
        simp [hnot, eq_comm]
      · simp [h, ih hl.2]

theorem keys_setEntry (k : κ) (v : α) (l : List (κ × α)) :
    (setEntry k v l).map Prod.fst =
      if k ∈ l.map Prod.fst then l.map Prod.fst else l.map Prod.fst ++ [k] := by
  induction l with
  | nil => simp [setEntry]
  | cons e rest ih =>
      obtain ⟨k', v'⟩ := e
      by_cases h : k' = k
      · simp [setEntry, h]
      · have hne : k ≠ k' := Ne.symm h
        simp only [setEntry, h, if_false, List.map_cons, ih, List.mem_cons, hne, false_or]
        split <;> simp

theorem lookup_setEntry (k k' : κ) (v : α) (l : List (κ × α)) :
    (setEntry k v l).lookup k' = if k' = k then some v else l.lookup k' := by
  induction l with
  | nil => simp [setEntry, lookup_cons_if]
  | cons e rest ih =>
      obtain ⟨k₀, v₀⟩ := e
      by_cases h₀ : k₀ = k
      · subst h₀
        by_cases h : k' = k₀ <;> simp [setEntry, lookup_cons_if, h]
      · by_cases h : k' = k₀
        · subst h
          simp [setEntry, h₀]
        · simp [setEntry, lookup_cons_if, h₀, h, ih]

theorem lookup_filter_ne (k k' : κ) (l : List (κ × α)) :
    (l.filter (fun e => e.1 ≠ k)).lookup k' = if k' = k then none else l.lookup k' := by
  induction l with
  | nil => simp
  | cons e rest ih =>
      obtain ⟨k₀, v₀⟩ := e
      by_cases h₀ : k₀ = k
      · subst h₀
        rw [List.filter_cons_of_neg (by simp), ih, lookup_cons_if]
        by_cases h : k' = k₀ <;> simp [h]
      · rw [List.filter_cons_of_pos (by simpa using h₀), lookup_cons_if, lookup_cons_if, ih]
        by_cases h : k' = k₀
        · subst h
          simp [h₀]
        · simp [h]

/-- A dropped binding leaves nothing behind, because its key occurs once. -/
theorem lookup_filterMap_some (k : κ) (l : List (κ × Option α)) (hl : (l.map Prod.fst).Nodup) :
    (l.filterMap fun e => e.2.map (Prod.mk e.1)).lookup k = (l.lookup k).join := by
  induction l with
  | nil => rfl
  | cons e rest ih =>
      obtain ⟨k', v⟩ := e
      rw [List.map_cons, List.nodup_cons] at hl
      cases v with
      | none =>
          by_cases h : k = k'
          · subst h
            simp [ih hl.2, lookup_eq_none_of_notMem hl.1]
          · simp [lookup_cons_if, ih hl.2, h]
      | some w => by_cases h : k = k' <;> simp [lookup_cons_if, ih hl.2, h]

theorem setEntry_of_notMem {k : κ} {l : List (κ × α)} (v : α) (h : k ∉ l.map Prod.fst) :
    setEntry k v l = l ++ [(k, v)] := by
  induction l with
  | nil => rfl
  | cons e rest ih =>
      obtain ⟨k', v'⟩ := e
      rw [List.map_cons, List.mem_cons, not_or] at h
      simp [setEntry, Ne.symm h.1, ih h.2]

/-- The dictionary with no bindings. -/
def empty : Dict κ α := ⟨[], List.nodup_nil⟩

/-- The value bound to a key, if there is one. -/
def get (d : Dict κ α) (k : κ) : Option α := d.entries.lookup k

/-- The keys, in insertion order. -/
def keys (d : Dict κ α) : List κ := d.entries.map Prod.fst

/-- Whether nothing is bound. -/
def isEmpty (d : Dict κ α) : Bool := d.entries.isEmpty

/-- `d[k] = v`. -/
def set (d : Dict κ α) (k : κ) (v : α) : Dict κ α where
  entries := setEntry k v d.entries
  nodup := by
    rw [keys_setEntry]
    split
    · exact d.nodup
    · rename_i h
      refine List.nodup_append.mpr ⟨d.nodup, List.nodup_singleton k, ?_⟩
      intro a ha b hb hab
      rw [List.mem_singleton] at hb
      exact h (hb ▸ hab ▸ ha)

/-- `d.pop(k, None)`. -/
def erase (d : Dict κ α) (k : κ) : Dict κ α where
  entries := d.entries.filter (fun e => e.1 ≠ k)
  nodup := d.nodup.sublist (List.filter_sublist.map _)

/-- `d.update(e)`. -/
def update (d e : Dict κ α) : Dict κ α :=
  e.entries.foldl (fun acc kv => acc.set kv.1 kv.2) d

/-- A dictionary literal: a later binding of a key overrides an earlier one. -/
def ofList (l : List (κ × α)) : Dict κ α :=
  l.foldl (fun acc kv => acc.set kv.1 kv.2) empty

/-- `{k: v for k, v in d.items() if v is not None}`. -/
def dropNone (d : Dict κ (Option α)) : Dict κ α where
  entries := d.entries.filterMap fun e => e.2.map (Prod.mk e.1)
  nodup := by
    have hkeys : (d.entries.filterMap fun e => e.2.map (Prod.mk e.1)).map Prod.fst =
        (d.entries.filter fun e => e.2.isSome).map Prod.fst := by
      induction d.entries with
      | nil => rfl
      | cons e rest ih =>
          obtain ⟨k, v⟩ := e
          cases v <;> simp [ih]
    rw [hkeys]
    exact d.nodup.sublist (List.filter_sublist.map _)

/-- Python's `==` on dictionaries. -/
def Same (d e : Dict κ α) : Prop := ∀ k, d.get k = e.get k

@[simp] theorem get_empty (k : κ) : (empty : Dict κ α).get k = none := rfl

theorem get_set (d : Dict κ α) (k k' : κ) (v : α) :
    (d.set k v).get k' = if k' = k then some v else d.get k' :=
  lookup_setEntry k k' v d.entries

@[simp] theorem get_set_self (d : Dict κ α) (k : κ) (v : α) : (d.set k v).get k = some v := by
  simp [get_set]

theorem get_set_of_ne (d : Dict κ α) {k k' : κ} (v : α) (h : k' ≠ k) :
    (d.set k v).get k' = d.get k' := by
  simp [get_set, h]

theorem get_erase (d : Dict κ α) (k k' : κ) :
    (d.erase k).get k' = if k' = k then none else d.get k' :=
  lookup_filter_ne k k' d.entries

theorem mem_keys_iff (d : Dict κ α) (k : κ) : k ∈ d.keys ↔ (d.get k).isSome :=
  (lookup_isSome_iff k d.entries).symm

theorem get_eq_some_iff (d : Dict κ α) (k : κ) (v : α) : d.get k = some v ↔ (k, v) ∈ d.entries :=
  lookup_eq_some_iff_mem d.nodup

theorem get_dropNone (d : Dict κ (Option α)) (k : κ) : d.dropNone.get k = (d.get k).join :=
  lookup_filterMap_some k d.entries d.nodup

private theorem get_foldl_set (l : List (κ × α)) (hl : (l.map Prod.fst).Nodup)
    (d : Dict κ α) (k : κ) :
    (l.foldl (fun acc kv => acc.set kv.1 kv.2) d).get k = (l.lookup k).or (d.get k) := by
  induction l generalizing d with
  | nil => simp
  | cons e rest ih =>
      obtain ⟨k', v⟩ := e
      rw [List.map_cons, List.nodup_cons] at hl
      rw [List.foldl_cons, ih hl.2, get_set, lookup_cons_if]
      by_cases h : k = k'
      · subst h
        simp [lookup_eq_none_of_notMem hl.1]
      · simp [h]

theorem get_update (d e : Dict κ α) (k : κ) :
    (d.update e).get k = (e.get k).or (d.get k) :=
  get_foldl_set e.entries e.nodup d k

theorem isEmpty_iff (d : Dict κ α) : d.isEmpty = true ↔ ∀ k, d.get k = none := by
  obtain ⟨l, hl⟩ := d
  cases l with
  | nil => simp [isEmpty, get]
  | cons e rest =>
      obtain ⟨k, v⟩ := e
      simp only [isEmpty, get, List.isEmpty_cons, Bool.false_eq_true, false_iff, not_forall]
      exact ⟨k, by simp⟩

private theorem entries_foldl_set (l : List (κ × α)) (d : Dict κ α)
    (hl : (d.entries.map Prod.fst ++ l.map Prod.fst).Nodup) :
    (l.foldl (fun acc kv => acc.set kv.1 kv.2) d).entries = d.entries ++ l := by
  induction l generalizing d with
  | nil => simp
  | cons e rest ih =>
      obtain ⟨k, v⟩ := e
      have hk : k ∉ d.entries.map Prod.fst := by
        intro hmem
        exact (List.nodup_append.mp hl).2.2 k hmem k (by simp) rfl
      have hset : (d.set k v).entries = d.entries ++ [(k, v)] := setEntry_of_notMem v hk
      rw [List.foldl_cons, ih]
      · simp [hset]
      · simpa [hset, List.append_assoc] using hl

/-- A literal with distinct keys holds exactly the bindings written. -/
theorem entries_ofList {l : List (κ × α)} (hl : (l.map Prod.fst).Nodup) :
    (ofList l).entries = l := by
  have h := entries_foldl_set l empty (by simpa [empty] using hl)
  simpa [ofList, empty] using h

/-- A literal whose values are all present keeps all of them. -/
theorem entries_dropNone_ofList {ks : List κ} {vs : List α} (hks : ks.Nodup)
    (hlen : ks.length = vs.length) :
    (ofList (ks.zip (vs.map some))).dropNone.entries = ks.zip vs := by
  have hnodup : ((ks.zip (vs.map some)).map Prod.fst).Nodup := by
    rwa [List.map_fst_zip (by simp [hlen])]
  have hsome : (fun e : κ × Option α => e.2.map (Prod.mk e.1)) ∘ Prod.map id some = some := rfl
  change (ofList (ks.zip (vs.map some))).entries.filterMap (fun e => e.2.map (Prod.mk e.1)) = _
  rw [entries_ofList hnodup, List.zip_map_right, List.filterMap_map, hsome, List.filterMap_some]

end Dict
end PyLib
