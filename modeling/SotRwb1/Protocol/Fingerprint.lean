import SotRwb1.Protocol.Frame

/-!
# Which matcher claims a frame

The first field tells four groups of blocks apart by its leading run of digits
and whether a point follows: six digits are a date, three and a point a voltage,
two a battery count, three alone a temperature.  Load is told from PV by field 3
and from grid by the length.  PV and grid are not told apart: a frame of ten
fields can satisfy both, and then the order of the matchers decides.

## Main definitions

* `Block.Accepts` — the matcher of a block claims a field list.
* `leadMark` — what the first field shows.
* `claimant` — the block a field list is decoded as.
-/

namespace SotRwb1

open PyLib

/-- The matcher of the block claims the fields. -/
def Block.Accepts (b : Block) (f : List Field) : Prop := (b.matcher f).isSome

instance (b : Block) (f : List Field) : Decidable (b.Accepts f) :=
  inferInstanceAs (Decidable ((b.matcher f).isSome = true))

/-! ## Conditions of the matchers -/

theorem accepts_energy_iff (f : List Field) : Block.energy.Accepts f ↔
    6 ≤ f.length ∧ reMatch reDate6 (f.getD 0 []) = true ∧ reMatch reTime (f.getD 1 []) = true := by
  simp [Block.Accepts, Block.matcher, matchEnergy, and_assoc]

theorem accepts_pv_iff (f : List Field) : Block.pv.Accepts f ↔
    7 ≤ f.length ∧ reMatch reVolt3 (f.getD 0 []) = true ∧ reMatch rePvdot (f.getD 3 []) = true := by
  simp [Block.Accepts, Block.matcher, matchPv, and_assoc]

theorem accepts_load_iff (f : List Field) : Block.load.Accepts f ↔
    f.length = 9 ∧ reMatch reVolt3 (f.getD 0 []) = true ∧ reMatch re2Dot1 (f.getD 1 []) = true ∧
      isDigit (f.getD 2 []) = true ∧ isDigit (f.getD 3 []) = true := by
  simp [Block.Accepts, Block.matcher, matchLoad, and_assoc]

theorem accepts_grid_iff (f : List Field) : Block.grid.Accepts f ↔
    f.length = 10 ∧ reMatch reVolt3 (f.getD 0 []) = true ∧
      reMatch reSigned (f.getD 6 []) = true := by
  simp [Block.Accepts, Block.matcher, matchGrid, and_assoc]

theorem accepts_battery_iff (f : List Field) : Block.battery.Accepts f ↔
    5 ≤ f.length ∧ reMatch reInt2 (f.getD 0 []) = true ∧
      reMatch reVolt3 (f.getD 1 []) = true := by
  simp [Block.Accepts, Block.matcher, matchBattery, and_assoc]

theorem accepts_temperature_iff (f : List Field) : Block.temperature.Accepts f ↔
    8 ≤ f.length ∧ (∀ s ∈ f.take 7, reMatch reInt3 s = true) ∧
      reMatch reLongmask (f.getLastD []) = true := by
  simp [Block.Accepts, Block.matcher, matchTemperature, and_assoc]

/-! ## Conversions -/

/-- The keys of a block. -/
def Block.keys : Block → List String
  | energy => ["energy_today", "energy_week", "energy_year", "energy_total"]
  | pv => ["pv_voltage", "pv_current", "pv_power", "solar_charging_switch"]
  | load => ["output_voltage", "output_frequency", "output_apparent_power",
      "output_active_power", "load_percent"]
  | grid => ["grid_voltage", "grid_frequency", "grid_power"]
  | battery => ["battery_count_series", "battery_voltage", "battery_soc",
      "battery_charge_current", "battery_discharge_current"]
  | temperature => ["inverter_temperature"]

/-- The fields of a block converted, in the order of its keys. -/
def Block.conversions (b : Block) (f : List Field) : List (Option Json) :=
  match b with
  | energy => [toFloat (f.getD 2 []), toFloat (f.getD 3 []), toFloat (f.getD 4 []),
      toFloat (f.getD 5 [])]
  | pv => [toFloat (f.getD 0 []), toFloat (f.getD 1 []), toInt (f.getD 2 []),
      some (.str (String.ofList (f.getD 5 [])))]
  | load => [toFloat (f.getD 0 []), toFloat (f.getD 1 []), toInt (f.getD 2 []),
      toInt (f.getD 3 []), toInt (f.getD 4 [])]
  | grid => [toFloat (f.getD 0 []), toFloat (f.getD 1 []), toInt (f.getD 6 [])]
  | battery => [toInt (f.getD 0 []), toFloat (f.getD 1 []), toInt (f.getD 2 []),
      toInt (f.getD 3 []), toInt (f.getD 4 [])]
  | temperature => [toInt (f.getD 0 [])]

theorem Block.nodup_keys (b : Block) : b.keys.Nodup := by
  cases b <;> decide

theorem Block.length_conversions (b : Block) (f : List Field) :
    (b.conversions f).length = b.keys.length := by
  cases b <;> rfl

/-- No key belongs to two blocks. -/
theorem Block.disjoint_keys {b b' : Block} {k : String} (h : k ∈ b.keys) (h' : k ∈ b'.keys) :
    b = b' := by
  have hall : ∀ b b' : Block, ∀ k ∈ b.keys, k ∈ b'.keys → b = b' := by
    intro b b'
    cases b <;> cases b' <;> decide
  exact hall b b' k h h'

theorem ite_some_eq_of_isSome {α : Type} {c : Prop} [Decidable c] {x : α}
    (h : (if c then some x else none).isSome) : (if c then some x else none) = some x := by
  split at h
  · rename_i hc
    rw [if_pos hc]
  · cases h

/-- An accepting matcher binds the block's keys to its conversions. -/
theorem Block.Accepts.matcher_eq {b : Block} {f : List Field} (h : b.Accepts f) :
    b.matcher f = some (.ofList (b.keys.zip (b.conversions f))) := by
  cases b with
  | energy => exact ite_some_eq_of_isSome h
  | pv => exact ite_some_eq_of_isSome h
  | load => exact ite_some_eq_of_isSome h
  | grid => exact ite_some_eq_of_isSome h
  | battery => exact ite_some_eq_of_isSome h
  | temperature => exact ite_some_eq_of_isSome h

/-! ## The first field -/

/-- How many digits a field starts with, and whether a point follows them. -/
def leadMark (s : Field) : ℕ × Bool :=
  ((s.takeWhile isDecimal).length, (s.dropWhile isDecimal).head? == some '.')

theorem leadMark_append {a b : Field} (ha : ∀ c ∈ a, isDecimal c = true)
    (hb : ∀ c ∈ b.head?, isDecimal c = false) :
    leadMark (a ++ b) = (a.length, b.head? == some '.') := by
  have htake : b.takeWhile isDecimal = [] := by
    cases b with
    | nil => rfl
    | cons c rest => simp [hb c rfl]
  have hdrop : b.dropWhile isDecimal = b := by
    cases b with
    | nil => rfl
    | cons c rest => simp [hb c rfl]
  rw [leadMark, List.takeWhile_append_of_pos ha, List.dropWhile_append_of_pos ha, htake, hdrop,
    List.append_nil]

/-- A run of digits alone. -/
theorem leadMark_of_digits {n : ℕ} {s : Field} (h : reMatch [.exactly n isDecimal] s = true) :
    leadMark s = (n, false) := by
  obtain ⟨t, ht, hs⟩ := (reMatch_iff _ s).mp h
  obtain ⟨a, b, rfl, hlen, ha, hb⟩ := (fullMatch_exactly_iff _ _ _ t).mp ht
  have hb : b = [] := (fullMatch_nil_iff b).mp hb
  subst hb
  rw [List.append_nil] at hs
  rcases hs with hs | hs
  · have hmark := leadMark_append (b := []) ha (by simp)
    rw [List.append_nil, hlen] at hmark
    rw [hs, hmark]
    rfl
  · rw [hs, leadMark_append ha (by simp; decide), hlen]
    rfl

/-- A run of digits followed by a point. -/
theorem leadMark_of_point {n : ℕ} {rest : List Piece} {s : Field}
    (h : reMatch (.exactly n isDecimal :: .lit '.' :: rest) s = true) :
    leadMark s = (n, true) := by
  obtain ⟨t, ht, hs⟩ := (reMatch_iff _ s).mp h
  obtain ⟨a, b, rfl, hlen, ha, hb⟩ := (fullMatch_exactly_iff _ _ _ t).mp ht
  obtain ⟨p, q, rfl, hp, hpoint, -⟩ := (fullMatch_exactly_iff _ _ _ b).mp hb
  obtain ⟨c, rfl⟩ := List.length_eq_one_iff.mp hp
  have hc : c = '.' := by simpa using hpoint c
  subst hc
  have hmark : ∀ tail, leadMark (a ++ ('.' :: tail)) = (n, true) := by
    intro tail
    rw [leadMark_append ha (by simp; decide), hlen]
    rfl
  rcases hs with hs | hs
  · rw [hs]
    exact hmark q
  · rw [hs, List.append_assoc]
    exact hmark (q ++ ['\n'])

/-- What the first field of a block shows. -/
def Block.mark : Block → ℕ × Bool
  | energy => (6, false)
  | pv => (3, true)
  | load => (3, true)
  | grid => (3, true)
  | battery => (2, false)
  | temperature => (3, false)

theorem Block.Accepts.leadMark_eq {b : Block} {f : List Field} (h : b.Accepts f) :
    leadMark (f.getD 0 []) = b.mark := by
  cases b with
  | energy => exact leadMark_of_digits ((accepts_energy_iff f).mp h).2.1
  | pv => exact leadMark_of_point ((accepts_pv_iff f).mp h).2.1
  | load => exact leadMark_of_point ((accepts_load_iff f).mp h).2.1
  | grid => exact leadMark_of_point ((accepts_grid_iff f).mp h).2.1
  | battery => exact leadMark_of_digits ((accepts_battery_iff f).mp h).2.1
  | temperature =>
      obtain ⟨hlen, hfields, -⟩ := (accepts_temperature_iff f).mp h
      apply leadMark_of_digits (hfields _ _)
      cases f with
      | nil => simp at hlen
      | cons s rest => simp

/-! ## Overlap -/

/-- The field PV reads as its marker is not made of digits. -/
theorem isDigit_of_rePvdot {s : Field} (h : reMatch rePvdot s = true) : isDigit s = false := by
  have hpoint : '.' ∈ s := by
    obtain ⟨t, ht, hs⟩ := (reMatch_iff _ s).mp h
    obtain ⟨a, b, rfl, -, -, hb⟩ := (fullMatch_atLeast_iff _ _ _ t).mp ht
    obtain ⟨p, q, rfl, hp, hclass, -⟩ := (fullMatch_exactly_iff _ _ _ b).mp hb
    obtain ⟨c, rfl⟩ := List.length_eq_one_iff.mp hp
    have hc : c = '.' := by simpa using hclass c
    rcases hs with hs | hs <;> simp [hs, hc]
  by_contra hdigit
  rw [Bool.not_eq_false, isDigit, Bool.and_eq_true, List.all_eq_true] at hdigit
  have : isDigitChar '.' = true := hdigit.2 '.' hpoint
  revert this
  decide

theorem not_accepts_pv_load {f : List Field} (hpv : Block.pv.Accepts f) :
    ¬ Block.load.Accepts f := by
  intro hload
  have hmarker := isDigit_of_rePvdot ((accepts_pv_iff f).mp hpv).2.2
  rw [((accepts_load_iff f).mp hload).2.2.2.2] at hmarker
  cases hmarker

theorem not_accepts_load_grid {f : List Field} (hload : Block.load.Accepts f) :
    ¬ Block.grid.Accepts f := by
  intro hgrid
  have hnine := ((accepts_load_iff f).mp hload).1
  have hten := ((accepts_grid_iff f).mp hgrid).1
  omega

/-- Blocks whose first fields look alike. -/
theorem mark_eq_cases (b b' : Block) (h : b.mark = b'.mark) :
    b = b' ∨ (b = .pv ∧ b' = .grid) ∨ (b = .grid ∧ b' = .pv) ∨ (b = .pv ∧ b' = .load) ∨
      (b = .load ∧ b' = .pv) ∨ (b = .load ∧ b' = .grid) ∨ (b = .grid ∧ b' = .load) := by
  revert h
  cases b <;> cases b' <;> decide

/-- Two blocks claim one field list only if they are PV and grid. -/
theorem accepts_unique {f : List Field} {b b' : Block} (h : b.Accepts f) (h' : b'.Accepts f) :
    b = b' ∨ (b = .pv ∧ b' = .grid) ∨ (b = .grid ∧ b' = .pv) := by
  have hmark : b.mark = b'.mark := h.leadMark_eq.symm.trans h'.leadMark_eq
  rcases mark_eq_cases b b' hmark with heq | hpg | hgp | ⟨rfl, rfl⟩ | ⟨rfl, rfl⟩ | ⟨rfl, rfl⟩ |
    ⟨rfl, rfl⟩
  · exact .inl heq
  · exact .inr (.inl hpg)
  · exact .inr (.inr hgp)
  · exact absurd h' (not_accepts_pv_load h)
  · exact absurd h (not_accepts_pv_load h')
  · exact absurd h' (not_accepts_load_grid h)
  · exact absurd h (not_accepts_load_grid h')

/-! ## Claims -/

/-- The block a list of matchers takes the fields for: the first that accepts. -/
def claimantIn (order : List Block) (f : List Field) : Option Block :=
  order.find? fun b => b.Accepts f

/-- The block the fields are decoded as. -/
def claimant (f : List Field) : Option Block := claimantIn matchers f

theorem not_accepts_nil (b : Block) : ¬ b.Accepts [] := by
  cases b <;> decide

theorem claimantIn_cons (b : Block) (rest : List Block) (f : List Field) :
    claimantIn (b :: rest) f = if b.Accepts f then some b else claimantIn rest f := by
  rw [claimantIn, List.find?_cons]
  by_cases h : b.Accepts f <;> simp [h, claimantIn]

theorem findSome?_matcher (order : List Block) (f : List Field) :
    (order.findSome? fun b => b.matcher f) = (claimantIn order f).bind fun b => b.matcher f := by
  induction order with
  | nil => rfl
  | cons b rest ih =>
      rw [List.findSome?_cons, claimantIn_cons, ih]
      cases hb : b.matcher f <;> simp [Block.Accepts, hb]

/-- Decoding is choosing a block and converting its fields. -/
theorem decodeFrameWith_eq (order : List Block) (text : List Char) :
    decodeFrameWith order text =
      (claimantIn order (splitFrame text)).bind fun b =>
        (b.matcher (splitFrame text)).map Dict.dropNone := by
  rw [decodeFrameWith, findSome?_matcher]
  cases hf : splitFrame text with
  | nil =>
      have hnone : claimantIn order [] = none := by
        rw [claimantIn, List.find?_eq_none]
        intro b _
        simp [not_accepts_nil]
      simp [hnone]
  | cons s rest => simp [Option.map_bind]

/-- A block is the claimant when nothing before it accepts. -/
theorem claimantIn_eq_some {order : List Block} {f : List Field} {b : Block} (hmem : b ∈ order)
    (h : b.Accepts f)
    (hfirst : ∀ b', b'.Accepts f → b' ≠ b → order.idxOf b < order.idxOf b') :
    claimantIn order f = some b := by
  obtain ⟨before, after, horder, hnot⟩ := List.eq_append_cons_of_mem hmem
  rw [claimantIn, List.find?_eq_some_iff_append]
  refine ⟨by simpa using h, before, after, horder, ?_⟩
  intro b' hb'
  by_contra haccepts
  have hlater := hfirst b' (by simpa using haccepts) (fun heq => hnot (heq ▸ hb'))
  rw [horder, List.idxOf_append_of_notMem hnot, List.idxOf_append_of_mem hb'] at hlater
  have := List.idxOf_lt_length_of_mem hb'
  omega

theorem mem_matchers (b : Block) : b ∈ matchers := by
  cases b <;> decide

/-- In an order that tries PV before grid, an accepting block is the claimant,
except grid on a frame PV accepts too. -/
theorem claimantIn_of_accepts {order : List Block} {f : List Field} {b : Block}
    (hmem : ∀ b' : Block, b' ∈ order) (h : b.Accepts f)
    (hpv : b = .grid → ¬ Block.pv.Accepts f)
    (horder : b = .pv → Block.grid.Accepts f → order.idxOf Block.pv < order.idxOf Block.grid) :
    claimantIn order f = some b := by
  apply claimantIn_eq_some (hmem b) h
  intro b' h' hne
  rcases accepts_unique h h' with heq | ⟨rfl, rfl⟩ | ⟨rfl, rfl⟩
  · exact absurd heq.symm hne
  · exact horder rfl h'
  · exact absurd h' (hpv rfl)

theorem claimant_of_accepts {f : List Field} {b : Block} (h : b.Accepts f)
    (hpv : b = .grid → ¬ Block.pv.Accepts f) : claimant f = some b :=
  claimantIn_of_accepts mem_matchers h hpv fun _ _ => by decide

/-- An accepted frame decodes to the converted fields of its block, unless it is
a grid frame that PV claims. -/
theorem decodeFrame_of_accepts {text : List Char} {b : Block} (h : b.Accepts (splitFrame text))
    (hpv : b = .grid → ¬ Block.pv.Accepts (splitFrame text)) :
    decodeFrame text = (b.matcher (splitFrame text)).map Dict.dropNone := by
  have hclaim : claimantIn matchers (splitFrame text) = some b := claimant_of_accepts h hpv
  rw [decodeFrame, decodeFrameWith_eq, hclaim]
  rfl

/-- The values of a frame are bound to keys of the block that claims it. -/
theorem mem_keys_of_decodeFrame {text : List Char} {values : Dict String Json}
    (h : decodeFrame text = some values) :
    ∃ b, claimant (splitFrame text) = some b ∧ ∀ k, (values.get k).isSome → k ∈ b.keys := by
  have hclaim : (claimant (splitFrame text)).bind (fun b =>
      (b.matcher (splitFrame text)).map Dict.dropNone) = some values := by
    rw [← h, decodeFrame, decodeFrameWith_eq]
    rfl
  obtain ⟨b, hb, hvalues⟩ := Option.bind_eq_some_iff.mp hclaim
  refine ⟨b, hb, ?_⟩
  have haccepts : b.Accepts (splitFrame text) := by simpa using List.find?_some hb
  rw [haccepts.matcher_eq, Option.map_some, Option.some.injEq] at hvalues
  intro k hk
  have hlen := b.length_conversions (splitFrame text)
  have hkeys : (b.keys.zip (b.conversions (splitFrame text))).map Prod.fst = b.keys :=
    List.map_fst_zip hlen.ge
  have hbound : ((Dict.ofList (b.keys.zip (b.conversions (splitFrame text)))).get k).isSome := by
    rw [← hvalues, Dict.get_dropNone, Option.isSome_join] at hk
    exact Option.isSome_of_any hk
  rw [← Dict.mem_keys_iff, Dict.keys, Dict.entries_ofList (by rw [hkeys]; exact b.nodup_keys),
    hkeys] at hbound
  exact hbound

/-- Permuting the matchers changes nothing on a frame that is not both a PV and a
grid frame, and nothing anywhere if PV stays before grid. -/
theorem claimantIn_perm {order : List Block} {f : List Field} (hperm : order.Perm matchers)
    (h : order.idxOf Block.pv < order.idxOf Block.grid ∨
      ¬ (Block.pv.Accepts f ∧ Block.grid.Accepts f)) :
    claimantIn order f = claimant f := by
  have hmem : ∀ b : Block, b ∈ order := fun b => hperm.mem_iff.mpr (mem_matchers b)
  cases hclaim : claimant f with
  | none =>
      have hnone : ∀ b : Block, ¬ b.Accepts f := by
        intro b
        simpa using List.find?_eq_none.mp hclaim b (mem_matchers b)
      rw [claimantIn, List.find?_eq_none]
      intro b _
      simpa using hnone b
  | some b =>
      have hb : b.Accepts f := by simpa using List.find?_some hclaim
      apply claimantIn_of_accepts hmem hb
      · intro hgrid hpv
        have hpvClaim := claimant_of_accepts hpv (by simp)
        rw [hclaim, hgrid] at hpvClaim
        cases hpvClaim
      · intro hpv hgrid
        subst hpv
        rcases h with h | h
        · exact h
        · exact absurd ⟨hb, hgrid⟩ h

/-- **Fingerprints.**  At most one matcher accepts, except that PV and grid both
accept the frames of ten fields with a voltage in field 0, a PV marker in field 3
and a signed number in field 6.  Permuting the matchers is harmless on every other
frame, and on every frame if PV stays before grid.  An accepted frame is published
as its block's values, except that a frame both accept is published as PV's. -/
theorem fingerprints_exclusive_but_pv_grid (text : List Char) :
    (∀ b b' : Block, b.Accepts (splitFrame text) → b'.Accepts (splitFrame text) →
      b = b' ∨ (b = .pv ∧ b' = .grid) ∨ (b = .grid ∧ b' = .pv)) ∧
    (Block.pv.Accepts (splitFrame text) ∧ Block.grid.Accepts (splitFrame text) ↔
      (splitFrame text).length = 10 ∧
        reMatch reVolt3 ((splitFrame text).getD 0 []) = true ∧
        reMatch rePvdot ((splitFrame text).getD 3 []) = true ∧
        reMatch reSigned ((splitFrame text).getD 6 []) = true) ∧
    (∀ order : List Block, order.Perm matchers →
      order.idxOf Block.pv < order.idxOf Block.grid ∨
        ¬ (Block.pv.Accepts (splitFrame text) ∧ Block.grid.Accepts (splitFrame text)) →
      decodeFrameWith order text = decodeFrame text) ∧
    (∀ b : Block, b.Accepts (splitFrame text) →
      decodeFrame text =
        if b = .grid ∧ Block.pv.Accepts (splitFrame text) then
          (Block.pv.matcher (splitFrame text)).map Dict.dropNone
        else (b.matcher (splitFrame text)).map Dict.dropNone) := by
  refine ⟨fun b b' => accepts_unique, ?_, ?_, ?_⟩
  · rw [accepts_pv_iff, accepts_grid_iff]
    constructor
    · intro h
      exact ⟨h.2.1, h.1.2.1, h.1.2.2, h.2.2.2⟩
    · intro h
      exact ⟨⟨by omega, h.2.1, h.2.2.1⟩, h.1, h.2.1, h.2.2.2⟩
  · intro order hperm horder
    rw [decodeFrame, decodeFrameWith_eq, decodeFrameWith_eq, claimantIn_perm hperm horder]
    rfl
  · intro b hb
    split
    · rename_i h
      exact decodeFrame_of_accepts h.2 (by simp)
    · rename_i h
      exact decodeFrame_of_accepts hb fun hgrid hpv => h ⟨hgrid, hpv⟩

/-- A frame of ten fields that PV and grid both accept: it is published as PV
values, and trying grid first would publish it as grid values. -/
theorem fingerprints_overlap :
    let text := "(230.0 50.0 264 0000.0 65 45 +00371 0 03600 10\r".toList
    Block.pv.Accepts (splitFrame text) ∧ Block.grid.Accepts (splitFrame text) ∧
      (decodeFrame text).map Dict.keys =
        some ["pv_voltage", "pv_current", "pv_power", "solar_charging_switch"] ∧
      (∃ order : List Block, order.Perm matchers ∧
        (decodeFrameWith order text).map Dict.keys =
          some ["grid_voltage", "grid_frequency", "grid_power"] ∧
        decodeFrameWith order text ≠ decodeFrame text) := by
  have hkeys : (decodeFrame
      "(230.0 50.0 264 0000.0 65 45 +00371 0 03600 10\r".toList).map Dict.keys =
        some ["pv_voltage", "pv_current", "pv_power", "solar_charging_switch"] := by
    decide +kernel
  have hgrid : (decodeFrameWith [.energy, .grid, .pv, .load, .battery, .temperature]
      "(230.0 50.0 264 0000.0 65 45 +00371 0 03600 10\r".toList).map Dict.keys =
        some ["grid_voltage", "grid_frequency", "grid_power"] := by
    decide +kernel
  refine ⟨by decide +kernel, by decide +kernel, hkeys,
    [.energy, .grid, .pv, .load, .battery, .temperature], by decide, hgrid, ?_⟩
  intro heq
  rw [heq, hkeys] at hgrid
  exact absurd hgrid (by decide)

end SotRwb1
