import SotRwb1.Protocol.Channels

/-!
# What a bad channel costs the others

The loop over a `ct` array expects its entries to be dictionaries and is prepared
for everything else: a `co` of any type, base64 that is cut off, text that is no
frame.  Among dictionaries a bad channel costs nothing but a log entry; anything
else in the array raises and costs all of them.

## Main definitions

* `isChannel` — an entry with a `co` that decodes.
* `isLost` — an entry that is logged.
* `ToleratesBadChannels` — the array decodes as if its bad entries were not there.
-/

namespace SotRwb1

open PyLib

/-- The entry is a dictionary whose `co` is a string that decodes. -/
def isChannel (entry : Json) : Bool := entry.isObj && (decodeCo (entryCo entry)).isOk

/-- The values of an entry on its own. -/
def entryValues (entry : Json) : Dict String Json :=
  ((decodeCo (entryCo entry)).toOption.bind decodeFrame).getD .empty

/-- The entry is a dictionary with a `co` that is not empty and yields no value. -/
def isLost (entry : Json) : Bool :=
  entry.isObj && (entryCo entry).truthy && (entryValues entry).isEmpty

/-- Decoding does not raise; the values are those of the entries that are channels;
and each lost entry is logged once, in order. -/
def ToleratesBadChannels (ct : List Json) : Prop :=
  ∃ values unmatched, decodeCt ct = .ok (values, unmatched) ∧
    (∃ rest, decodeCt (ct.filter isChannel) = .ok (values, rest)) ∧
    unmatched = (ct.filter isLost).map entryCn

/-! ## One entry -/

/-- An entry that is no channel leaves the values alone. -/
theorem fst_apply_of_not_isChannel {entry : Json} (h : isChannel entry = false) (acc : Decoded) :
    ((entryReading entry).apply acc).1 = acc.1 := by
  have hnone : (decodeCo (entryCo entry)).toOption = none := by
    cases entry with
    | obj fields =>
        cases hco : decodeCo (entryCo (.obj fields)) with
        | ok text => simp [isChannel, Json.isObj, hco, Except.isOk, Except.toBool] at h
        | error e => rfl
    | null | bool | int | float | str | arr => rfl
  rw [entryReading, readCo, hnone]
  split <;> rfl

/-- An entry is logged under its alias exactly if it is lost. -/
theorem cn_entryReading (entry : Json) (h : entry.isObj = true) :
    (entryReading entry).cn = if isLost entry then some (entryCn entry) else none := by
  rw [entryReading, readCo, isLost, h, entryValues]
  cases htruthy : (entryCo entry).truthy with
  | false => rfl
  | true =>
      cases hframe : (decodeCo (entryCo entry)).toOption.bind decodeFrame with
      | none => rfl
      | some values => cases hempty : values.isEmpty <;> simp [Reading.cn, hempty]

/-! ## The whole array -/

/-- The values are those of the channels. -/
theorem fst_foldl_filter_isChannel (entries : List Json) {acc acc' : Decoded}
    (h : acc.1 = acc'.1) :
    ((entries.map entryReading).foldl Reading.apply acc).1 =
      (((entries.filter isChannel).map entryReading).foldl Reading.apply acc').1 := by
  induction entries generalizing acc acc' with
  | nil => exact h
  | cons e rest ih =>
      rw [List.map_cons, List.foldl_cons, List.filter_cons]
      split
      · rw [List.map_cons, List.foldl_cons]
        apply ih
        cases entryReading e with
        | decoded values => rw [Reading.apply, Reading.apply, h]
        | skipped => exact h
        | unmatched cn => exact h
      · rename_i hbad
        apply ih
        rw [fst_apply_of_not_isChannel (by simpa using hbad), h]

/-- The aliases are those of the lost entries. -/
theorem filterMap_cn_entryReading {entries : List Json} (h : ∀ e ∈ entries, e.isObj = true) :
    (entries.map entryReading).filterMap Reading.cn = (entries.filter isLost).map entryCn := by
  induction entries with
  | nil => rfl
  | cons e rest ih =>
      have hcn := cn_entryReading e (h e (by simp))
      have hrest := ih fun e' he' => h e' (by simp [he'])
      cases hlost : isLost e with
      | true => simp [hcn, hlost, hrest]
      | false => simp [hcn, hlost, hrest]

/-- Anything but a dictionary raises. -/
theorem not_toleratesBadChannels {ct : List Json} (h : ∃ e ∈ ct, e.isObj = false) :
    ¬ ToleratesBadChannels ct := by
  intro htolerates
  rcases htolerates with ⟨values, unmatched, hdecoded, -, -⟩
  obtain ⟨err, herr⟩ := decodeCt_of_not_isObj h
  rw [herr] at hdecoded
  cases hdecoded

/-- **Bad channels** are tolerated exactly among dictionaries. -/
theorem toleratesBadChannels_iff (ct : List Json) :
    ToleratesBadChannels ct ↔ ∀ e ∈ ct, e.isObj = true := by
  constructor
  · intro h e he
    by_contra hobj
    exact not_toleratesBadChannels ⟨e, he, by simpa using hobj⟩ h
  · intro h
    have hchannels : ∀ e ∈ ct.filter isChannel, e.isObj = true := by
      intro e he
      exact h e (List.mem_of_mem_filter he)
    refine ⟨((ct.map entryReading).foldl Reading.apply (.empty, [])).1, _, decodeCt_of_isObj h,
      ⟨(((ct.filter isChannel).map entryReading).foldl Reading.apply (.empty, [])).2, ?_⟩, ?_⟩
    · rw [decodeCt_of_isObj hchannels, fst_foldl_filter_isChannel ct rfl]
    · rw [unmatched_foldl_apply, filterMap_cn_entryReading h, List.nil_append]

/-- The entry of a grid frame. -/
def gridEntry : Json :=
  .obj [("cn", .str "WdRR"),
    ("co", .str "KDIzOC40IDUwLjAgMjY0IDA5MCA2NSA0NSArMDAzNzEgMCAwMzYwMCAxMA0=")]

/-- A `null` beside a grid frame costs the values of the frame. -/
theorem null_entry_costs_grid :
    (entryValues gridEntry).keys = ["grid_voltage", "grid_frequency", "grid_power"] ∧
      ¬ ToleratesBadChannels [.null, gridEntry] :=
  ⟨by decide +kernel, not_toleratesBadChannels ⟨.null, by simp, rfl⟩⟩

end SotRwb1
