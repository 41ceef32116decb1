import Mathlib.Data.List.Perm.Basic
import SotRwb1.Bridge.Dispatch
import SotRwb1.Protocol.Channels

/-!
# Ingestion does not depend on batching or order

On the level of key lookups a push with values overlays them on the state, sets
the online flag and the time stamp.  Overlays of consecutive pushes compose to
the overlay of their concatenation, because a later value of a key wins in both.

States are compared as Python compares dictionaries: by their bindings.

## Main definitions

* `ingest` — the bridge after a push.
* `overlay` — the same on key lookups.
* `Carries` — a body brings these entries with this time stamp.
-/

namespace SotRwb1

open PyLib

/-- The bridge after ingesting a body. -/
def ingest (b : Bridge) (body : Json) : Bridge :=
  (ingestTelemetry body).effects.foldl Bridge.perform b

/-- The aliases a push logs as unmatched. -/
def unmatchedOf (entries : List Json) : Except PyError (List Json) :=
  (decodeCt entries).map Prod.snd

/-- The body is a push of these entries with this time stamp. -/
def Carries (ts body : Json) (entries : List Json) : Prop :=
  body.getAttr "ct" = .ok (.arr entries) ∧ body.getAttr "ts" = .ok ts

/-! ## Overlays -/

/-- A value as it is stored: the switch reading becomes a boolean. -/
def normalise (k : String) (v : Json) : Json :=
  if k = "solar_charging_switch" then .bool (isSwitchOn v) else v

open Classical in
/-- What a push with these values makes of a state, both as lookups. -/
noncomputable def overlay (ts : Json) (values state : String → Option Json) :
    String → Option Json :=
  if ∀ k, values k = none then state
  else fun k =>
    if k = "last_telemetry" ∧ ts.truthy then some ts
    else if k = "online" then some (.bool true)
    else ((values k).map (normalise k)).or (state k)

theorem overlay_of_none {ts : Json} {values : String → Option Json} (h : ∀ k, values k = none)
    (state : String → Option Json) : overlay ts values state = state := by
  rw [overlay, if_pos h]

theorem overlay_of_some {ts : Json} {values : String → Option Json}
    (h : ¬ ∀ k, values k = none) (state : String → Option Json) (k : String) :
    overlay ts values state k =
      if k = "last_telemetry" ∧ ts.truthy then some ts
      else if k = "online" then some (.bool true)
      else ((values k).map (normalise k)).or (state k) := by
  rw [overlay, if_neg h]

/-- One overlay after another is the overlay of both, later values first. -/
theorem overlay_overlay (ts : Json) (values values' state : String → Option Json) :
    overlay ts values' (overlay ts values state) =
      overlay ts (fun k => (values' k).or (values k)) state := by
  by_cases h' : ∀ k, values' k = none
  · rw [overlay_of_none h']
    simp only [h', Option.none_or]
  by_cases h : ∀ k, values k = none
  · rw [overlay_of_none h]
    simp only [h, Option.or_none]
  have hboth : ¬ ∀ k, (values' k).or (values k) = none := by
    intro hnone
    exact h' fun k => (Option.or_eq_none_iff.mp (hnone k)).1
  funext k
  rw [overlay_of_some h', overlay_of_some h, overlay_of_some hboth]
  by_cases hts : k = "last_telemetry" ∧ ts.truthy = true
  · simp only [if_pos hts]
  by_cases honline : k = "online"
  · simp only [if_neg hts, if_pos honline]
  · simp only [if_neg hts, if_neg honline]
    cases values' k <;> simp

/-! ## The bridge refines the overlay -/

theorem get_deriveBinaryState (values : Dict String Json) (k : String) :
    (deriveBinaryState values).get k = (values.get k).map (normalise k) := by
  unfold deriveBinaryState
  cases hraw : values.get "solar_charging_switch" with
  | none =>
      by_cases hk : k = "solar_charging_switch"
      · simp [hk, hraw]
      · cases values.get k <;> simp [normalise, hk]
  | some raw =>
      by_cases hk : k = "solar_charging_switch"
      · simp [hk, hraw, normalise]
      · simp only [Dict.get_set_of_ne _ _ hk]
        cases values.get k <;> simp [normalise, hk]

theorem foldl_perform_updateState (values : Dict String Json) (b : Bridge) :
    (updateState values).foldl Bridge.perform b = { b with state := b.state.update values } := by
  have hgen : ∀ (l : List (String × Json)) (b : Bridge),
      (l.map fun kv => Effect.setState kv.1 kv.2).foldl Bridge.perform b =
        { b with state := l.foldl (fun acc kv => acc.set kv.1 kv.2) b.state } := by
    intro l
    induction l with
    | nil => intro b; rfl
    | cons kv rest ih =>
        intro b
        rw [List.map_cons, List.foldl_cons, ih]
        rfl
  exact hgen values.entries b

theorem get_perform_telemetryEffects (values : Dict String Json) (ts : Json) (b : Bridge)
    (k : String) :
    ((telemetryEffects values ts).foldl Bridge.perform b).state.get k =
      if k = "last_telemetry" ∧ ts.truthy then some ts
      else if k = "online" then some (.bool true)
      else ((values.get k).map (normalise k)).or (b.state.get k) := by
  simp only [telemetryEffects, List.foldl_append, foldl_perform_updateState]
  cases htruthy : ts.truthy with
  | true =>
      simp only [if_true, and_true, List.foldl_cons, List.foldl_nil, Bridge.perform, Dict.get_set,
        Dict.get_update, get_deriveBinaryState]
  | false =>
      simp only [Bool.false_eq_true, if_false, and_false, List.foldl_cons, List.foldl_nil,
        Bridge.perform, Dict.get_set, Dict.get_update, get_deriveBinaryState]

/-- A push of dictionaries overlays the last value of each key. -/
theorem get_ingest {ts body : Json} {entries : List Json} (hbody : Carries ts body entries)
    (hobj : ∀ e ∈ entries, e.isObj = true) (b : Bridge) :
    (ingest b body).state.get =
      overlay ts (fun k => valueIn k (entries.map entryReading)) b.state.get := by
  have hvalues : ∀ k, ((entries.map entryReading).foldl Reading.apply (.empty, [])).1.get k =
      valueIn k (entries.map entryReading) := by
    intro k
    rw [get_foldl_apply, Dict.get_empty, Option.or_none]
  rw [ingest, ingestTelemetry_of_arr hbody.1 hbody.2, ingestEntries, decodeCt_of_isObj hobj]
  dsimp only
  split
  · rename_i hempty
    rw [overlay_of_none]
    · rfl
    · intro k
      rw [← hvalues]
      exact (Dict.isEmpty_iff _).mp hempty k
  · rename_i hempty
    funext k
    rw [overlay_of_some]
    · rw [Handler.emits_eq, get_perform_telemetryEffects, hvalues]
    · intro hnone
      apply hempty
      rw [Dict.isEmpty_iff]
      intro k
      rw [hvalues, hnone]

/-- A sequence of pushes overlays the concatenation of their entries. -/
theorem get_foldl_ingest {ts : Json} {bodies : List Json} {parts : List (List Json)}
    (hbodies : List.Forall₂ (Carries ts) bodies parts)
    (hobj : ∀ e ∈ parts.flatten, e.isObj = true) (b : Bridge) :
    (bodies.foldl ingest b).state.get =
      overlay ts (fun k => valueIn k (parts.flatten.map entryReading)) b.state.get := by
  induction hbodies generalizing b with
  | nil => rw [overlay_of_none (by intro k; rfl)]; rfl
  | cons hbody _ ih =>
      rename_i part _ parts _
      have hpart : ∀ e ∈ part, e.isObj = true := fun e he => hobj e (by simp [he])
      have hparts : ∀ e ∈ parts.flatten, e.isObj = true := by
        intro e he
        exact hobj e (by rw [List.flatten_cons]; exact List.mem_append_right _ he)
      rw [List.foldl_cons, ih hparts, get_ingest hbody hpart, overlay_overlay]
      simp only [List.flatten_cons, List.map_append, valueIn_append]

/-! ## Batching, order, aliases -/

/-- The unmatched aliases of a push of dictionaries. -/
theorem unmatchedOf_of_isObj {entries : List Json} (h : ∀ e ∈ entries, e.isObj = true) :
    unmatchedOf entries = .ok ((entries.map entryReading).filterMap Reading.cn) := by
  rw [unmatchedOf, decodeCt_of_isObj h, Except.map, unmatched_foldl_apply, List.nil_append]

/-- An entry with another alias and everything else kept. -/
def SameButAlias (e e' : Json) : Prop :=
  e'.isObj = true ∧ ∀ k, k ≠ "cn" → e'.getAttr k = e.getAttr k

theorem SameButAlias.entryCo_eq {e e' : Json} (h : SameButAlias e e') : entryCo e' = entryCo e := by
  have hco : e'.getAttr "co" = e.getAttr "co" := h.2 "co" (by decide)
  have hobj := h.1
  cases e' with
  | obj fields' =>
      cases e with
      | obj fields => simpa [entryCo] using hco
      | null | bool | int | float | str | arr => cases hco
  | null | bool | int | float | str | arr => cases hobj

theorem isObj_of_sameButAlias {entries entries' : List Json}
    (h : List.Forall₂ SameButAlias entries entries') : ∀ e ∈ entries', e.isObj = true := by
  induction h with
  | nil => simp
  | cons hentry _ ih =>
      intro e he
      rcases List.mem_cons.mp he with rfl | he
      · exact hentry.1
      · exact ih e he

theorem value_readCo (k : String) (co cn cn' : Json) :
    (readCo co cn).value k = (readCo co cn').value k := by
  unfold readCo
  split
  · split
    · split <;> rfl
    · rfl
  · rfl

/-- Aliases do not matter for a value. -/
theorem valueIn_of_sameButAlias {entries entries' : List Json}
    (h : List.Forall₂ SameButAlias entries entries') (k : String) :
    valueIn k (entries'.map entryReading) = valueIn k (entries.map entryReading) := by
  induction h with
  | nil => rfl
  | cons hentry _ ih =>
      rw [List.map_cons, List.map_cons, valueIn, valueIn, ih, entryReading, entryReading,
        hentry.entryCo_eq, value_readCo]

/-- **Ingestion.**  For dictionaries as entries: consecutive pushes end in the
state of the one push of all their entries; if no two entries decode to the same
block, every permutation ends in the same state and the same unmatched aliases up
to order; and other aliases end in the same state. -/
theorem ingestion_independent (b : Bridge) (ts body : Json) (entries : List Json)
    (hbody : Carries ts body entries) (hobj : ∀ e ∈ entries, e.isObj = true) :
    (∀ (parts : List (List Json)) (bodies : List Json), parts.flatten = entries →
      List.Forall₂ (Carries ts) bodies parts →
      (bodies.foldl ingest b).state.Same (ingest b body).state) ∧
    (DistinctBlocks entries → ∀ (entries' : List Json) (body' : Json), entries.Perm entries' →
      Carries ts body' entries' →
      (ingest b body').state.Same (ingest b body).state ∧
        ∃ us us', unmatchedOf entries = .ok us ∧ unmatchedOf entries' = .ok us' ∧ us.Perm us') ∧
    (∀ (entries' : List Json) (body' : Json), List.Forall₂ SameButAlias entries entries' →
      Carries ts body' entries' → (ingest b body').state.Same (ingest b body).state) := by
  have hwhole := get_ingest hbody hobj b
  refine ⟨?_, ?_, ?_⟩
  · intro parts bodies hparts hbodies k
    have hpieces := get_foldl_ingest hbodies (by rw [hparts]; exact hobj) b
    rw [hwhole, hpieces, hparts]
  · intro hdistinct entries' body' hperm hbody'
    have hobj' : ∀ e ∈ entries', e.isObj = true := fun e he => hobj e (hperm.mem_iff.mpr he)
    refine ⟨?_, _, _, unmatchedOf_of_isObj hobj, unmatchedOf_of_isObj hobj',
      (hperm.map entryReading).filterMap _⟩
    intro k
    rw [hwhole, get_ingest hbody' hobj']
    simp only [valueIn_perm hdistinct hperm]
  · intro entries' body' halias hbody' k
    rw [hwhole, get_ingest hbody' (isObj_of_sameButAlias halias)]
    simp only [valueIn_of_sameButAlias halias]

/-- A battery and a temperature block, pushed one after the other or at once. -/
theorem ingestion_independent_example :
    let battery : Json :=
      .obj [("cn", .str "2ONL"), ("co", .str "KDAyIDAyNi41IDA1NyAwMDAgMDAwMDkN")]
    let temperature : Json :=
      .obj [("cn", .str "V4W3"),
        ("co", .str "KDAyOSAwNDMgMDM0IDAwMSAwNDMgMDUwIDA1MCAwMDAwMDAwMA0=")]
    (ingest (ingest .init (.obj [("ct", .arr [battery])]))
        (.obj [("ct", .arr [temperature])])).state.Same
      (ingest .init (.obj [("ct", .arr [battery, temperature])])).state := by
  intro battery temperature
  have h := ingestion_independent .init .null (.obj [("ct", .arr [battery, temperature])])
    [battery, temperature] ⟨rfl, rfl⟩ (by simp [battery, temperature, Json.isObj])
  have hparts := h.1 [[battery], [temperature]]
    [.obj [("ct", .arr [battery])], .obj [("ct", .arr [temperature])]] rfl
    (.cons ⟨rfl, rfl⟩ (.cons ⟨rfl, rfl⟩ .nil))
  rwa [List.foldl_cons, List.foldl_cons, List.foldl_nil] at hparts

end SotRwb1
