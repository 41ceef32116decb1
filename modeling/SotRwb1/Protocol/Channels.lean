import SotRwb1.Protocol.Fingerprint

/-!
# The loop over a `ct` array

An entry that is a dictionary is always read without an exception; anything else
raises.  A read entry gives values, an alias to log, or nothing, and what it
gives depends on `co` alone.  The value a list of entries ends up with under a
key is that of the last entry that has one.

## Main definitions

* `entryReading` — what an entry amounts to.
* `valueIn` — the value a list of readings leaves under a key.
* `DecodesTo` — an entry contributes the values of a block.
-/

namespace SotRwb1

open PyLib

/-! ## Reading one entry -/

/-- Decoding a `co` fails with one of the two exceptions the loop catches. -/
theorem decodeCo_error {co : Json} {e : PyError} (h : decodeCo co = .error e) :
    e = .valueError ∨ e = .typeError := by
  unfold decodeCo at h
  split at h
  · split at h
    · split at h
      · cases h
      · exact .inl (by cases h; rfl)
    · exact .inl (by cases h; rfl)
  · exact .inr (by cases h; rfl)

/-- What an entry with this `co` and `cn` amounts to. -/
def readCo (co cn : Json) : Reading :=
  if co.truthy then
    match (decodeCo co).toOption.bind decodeFrame with
    | some values => if values.isEmpty then .unmatched cn else .decoded values
    | none => .unmatched cn
  else .skipped

theorem readEntry_obj (fields : List (String × Json)) :
    readEntry (.obj fields) =
      .ok (readCo ((fields.lookup "co").getD .null) ((fields.lookup "cn").getD (.str "?"))) := by
  simp only [readEntry, readCo, Json.getAttr_obj, Json.getDefault_obj, bind, Except.bind, pure,
    Except.pure]
  cases htruthy : ((fields.lookup "co").getD .null).truthy with
  | false => rfl
  | true =>
      simp only [Bool.not_true, Bool.false_eq_true, if_false, if_true]
      cases hco : decodeCo ((fields.lookup "co").getD .null) with
      | error e => rcases decodeCo_error hco with rfl | rfl <;> rfl
      | ok text =>
          simp only [Except.toOption, Option.bind_some]
          cases decodeFrame text with
          | none => rfl
          | some values => cases hempty : values.isEmpty <;> simp [hempty]

theorem readEntry_of_not_isObj {entry : Json} (h : entry.isObj = false) :
    readEntry entry = .error .attributeError := by
  rw [readEntry, Json.getAttr_of_not_isObj h]
  rfl

/-- The `co` of an entry; nothing but a dictionary has one. -/
def entryCo : Json → Json
  | .obj fields => (fields.lookup "co").getD .null
  | _ => .null

/-- The alias an entry is logged under. -/
def entryCn : Json → Json
  | .obj fields => (fields.lookup "cn").getD (.str "?")
  | _ => .str "?"

/-- What an entry amounts to. -/
def entryReading (entry : Json) : Reading := readCo (entryCo entry) (entryCn entry)

theorem readEntry_of_isObj {entry : Json} (h : entry.isObj = true) :
    readEntry entry = .ok (entryReading entry) := by
  cases entry with
  | obj fields => exact readEntry_obj fields
  | null | bool | int | float | str | arr => cases h

/-! ## The whole array -/

theorem foldlM_readEntry {entries : List Json} (h : ∀ e ∈ entries, e.isObj = true)
    (acc : Decoded) :
    entries.foldlM (fun acc entry => (readEntry entry).map (Reading.apply acc)) acc =
      .ok ((entries.map entryReading).foldl Reading.apply acc) := by
  induction entries generalizing acc with
  | nil => rfl
  | cons e rest ih =>
      rw [List.foldlM_cons, readEntry_of_isObj (h e (by simp))]
      exact ih (fun e' he' => h e' (by simp [he'])) _

/-- An array of dictionaries decodes by applying its readings in order. -/
theorem decodeCt_of_isObj {entries : List Json} (h : ∀ e ∈ entries, e.isObj = true) :
    decodeCt entries = .ok ((entries.map entryReading).foldl Reading.apply (.empty, [])) :=
  foldlM_readEntry h _

/-- An array with anything but dictionaries in it raises. -/
theorem decodeCt_of_not_isObj {entries : List Json} (h : ∃ e ∈ entries, e.isObj = false) :
    ∃ err, decodeCt entries = .error err := by
  have hgen : ∀ (l : List Json) (acc : Decoded), (∃ e ∈ l, e.isObj = false) →
      ∃ err, l.foldlM (fun acc entry => (readEntry entry).map (Reading.apply acc)) acc =
        .error err := by
    intro l
    induction l with
    | nil => simp
    | cons e rest ih =>
        intro acc hbad
        rw [List.foldlM_cons]
        cases he : e.isObj with
        | false => exact ⟨_, by rw [readEntry_of_not_isObj he]; rfl⟩
        | true =>
            rw [readEntry_of_isObj he]
            apply ih
            simpa [he] using hbad
  exact hgen entries _ h

/-! ## Values and aliases -/

/-- The value a reading has for a key. -/
def Reading.value (k : String) : Reading → Option Json
  | decoded values => values.get k
  | _ => none

/-- The alias a reading logs. -/
def Reading.cn : Reading → Option Json
  | unmatched cn => some cn
  | _ => none

/-- The value a list of readings leaves under a key: that of the last one. -/
def valueIn (k : String) : List Reading → Option Json
  | [] => none
  | r :: rest => (valueIn k rest).or (r.value k)

theorem get_foldl_apply (k : String) (rs : List Reading) (acc : Decoded) :
    (rs.foldl Reading.apply acc).1.get k = (valueIn k rs).or (acc.1.get k) := by
  induction rs generalizing acc with
  | nil => rfl
  | cons r rest ih =>
      rw [List.foldl_cons, ih, valueIn, Option.or_assoc]
      cases r with
      | decoded values => rw [Reading.apply, Dict.get_update, Reading.value]
      | skipped => rfl
      | unmatched cn => rfl

theorem unmatched_foldl_apply (rs : List Reading) (acc : Decoded) :
    (rs.foldl Reading.apply acc).2 = acc.2 ++ rs.filterMap Reading.cn := by
  induction rs generalizing acc with
  | nil => simp
  | cons r rest ih =>
      rw [List.foldl_cons, ih]
      cases r <;> simp [Reading.apply, Reading.cn, List.filterMap_cons]

theorem valueIn_append (k : String) (rs rs' : List Reading) :
    valueIn k (rs ++ rs') = (valueIn k rs').or (valueIn k rs) := by
  induction rs with
  | nil => simp [valueIn]
  | cons r rest ih => rw [List.cons_append, valueIn, ih, valueIn, Option.or_assoc]

theorem exists_of_valueIn {k : String} {v : Json} {rs : List Reading}
    (h : valueIn k rs = some v) : ∃ r ∈ rs, r.value k = some v := by
  induction rs with
  | nil => cases h
  | cons r rest ih =>
      rw [valueIn, Option.or_eq_some_iff] at h
      rcases h with h | ⟨-, h⟩
      · obtain ⟨r', hr', hv⟩ := ih h
        exact ⟨r', by simp [hr'], hv⟩
      · exact ⟨r, by simp, h⟩

/-! ## Blocks -/

/-- The entry contributes the values of the block. -/
def DecodesTo (entry : Json) (b : Block) : Prop :=
  ∃ text values, (entryCo entry).truthy = true ∧ decodeCo (entryCo entry) = .ok text ∧
    decodeFrame text = some values ∧ values.isEmpty = false ∧
    claimant (splitFrame text) = some b

/-- A value an entry has for a key belongs to a block it decodes to. -/
theorem decodesTo_of_value {entry : Json} {k : String} {v : Json}
    (h : (entryReading entry).value k = some v) : ∃ b, DecodesTo entry b ∧ k ∈ b.keys := by
  unfold entryReading readCo at h
  split at h
  · rename_i htruthy
    split at h
    · rename_i values hvalues
      obtain ⟨text, htext, hframe⟩ := Option.bind_eq_some_iff.mp hvalues
      split at h
      · cases h
      · rename_i hempty
        obtain ⟨b, hclaim, hkeys⟩ := mem_keys_of_decodeFrame hframe
        have hco : decodeCo (entryCo entry) = .ok text := by
          cases hco : decodeCo (entryCo entry) with
          | error e => rw [hco] at htext; cases htext
          | ok t => rw [hco] at htext; cases htext; rfl
        refine ⟨b, ⟨text, values, htruthy, hco, hframe, by simpa using hempty, hclaim⟩, ?_⟩
        exact hkeys k (by rw [Reading.value] at h; simp [h])
    · cases h
  · cases h

/-- No two entries of the list decode to the same block. -/
def DistinctBlocks (entries : List Json) : Prop :=
  entries.Pairwise fun e e' => ∀ b, DecodesTo e b → ¬ DecodesTo e' b

/-- With distinct blocks the order of the entries does not matter for a value. -/
theorem valueIn_eq_some_iff {entries : List Json} (h : DistinctBlocks entries) (k : String)
    (v : Json) :
    valueIn k (entries.map entryReading) = some v ↔
      ∃ e ∈ entries, (entryReading e).value k = some v := by
  constructor
  · intro hv
    obtain ⟨r, hr, hvalue⟩ := exists_of_valueIn hv
    obtain ⟨e, he, rfl⟩ := List.mem_map.mp hr
    exact ⟨e, he, hvalue⟩
  · intro hv
    induction entries with
    | nil => simp at hv
    | cons e rest ih =>
        obtain ⟨hfirst, hrest⟩ := List.pairwise_cons.mp h
        obtain ⟨e', he', hvalue⟩ := hv
        rw [List.map_cons, valueIn]
        rcases List.mem_cons.mp he' with rfl | he'
        · have hnone : valueIn k (rest.map entryReading) = none := by
            rw [Option.eq_none_iff_forall_ne_some]
            intro v' hv'
            obtain ⟨r, hr, hvalue'⟩ := exists_of_valueIn hv'
            obtain ⟨e'', he'', rfl⟩ := List.mem_map.mp hr
            obtain ⟨b, hb, hkb⟩ := decodesTo_of_value hvalue
            obtain ⟨b', hb', hkb'⟩ := decodesTo_of_value hvalue'
            rw [Block.disjoint_keys hkb hkb'] at hb
            exact hfirst e'' he'' b' hb hb'
          rw [hnone, hvalue]
          rfl
        · rw [ih hrest ⟨e', he', hvalue⟩]
          rfl

theorem DistinctBlocks.perm {entries entries' : List Json} (h : DistinctBlocks entries)
    (hperm : entries.Perm entries') : DistinctBlocks entries' := by
  have hsymm : ∀ {e e' : Json}, (∀ b, DecodesTo e b → ¬ DecodesTo e' b) →
      ∀ b, DecodesTo e' b → ¬ DecodesTo e b := fun h b hb' hb => h b hb hb'
  exact (hperm.pairwise_iff hsymm).mp h

theorem valueIn_perm {entries entries' : List Json} (h : DistinctBlocks entries)
    (hperm : entries.Perm entries') (k : String) :
    valueIn k (entries.map entryReading) = valueIn k (entries'.map entryReading) := by
  ext v
  rw [valueIn_eq_some_iff h, valueIn_eq_some_iff (h.perm hperm)]
  constructor
  · rintro ⟨e, he, hv⟩
    exact ⟨e, hperm.mem_iff.mp he, hv⟩
  · rintro ⟨e, he, hv⟩
    exact ⟨e, hperm.mem_iff.mpr he, hv⟩

end SotRwb1
