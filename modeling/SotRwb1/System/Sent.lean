import SotRwb1.Lib.Double
import SotRwb1.Protocol.Setpoint
import SotRwb1.System.World

/-!
# What a number setting shows and what it sent

An entity takes over the float it was asked for; the frame carries that float
rounded to the places of the format.  The number sent, read as a float, is the one
shown when the float is the one nearest to a decimal with no more places than that;
and where the check for multiples of five refuses the value nothing is sent.

A float is the rational number it stands for: `27.9` is `nearestDouble (279 / 10)`.

## Main definitions

* `ShowsSent` — a write of the value that completes leaves what was sent on display.
* `Representable` — the values of which this holds.
-/

namespace SotRwb1

open PyLib

/-- A write of this float that completes without error leaves the entity showing
the float its value string denotes, and this is what a restart restores. -/
def ShowsSent (d : NumberSetting) (v : ℚ) : Prop :=
  ∀ (shown : Shown) (reply : Except CallError Json) (channel valueStr : String),
    (Entity.number d).command (.finite v) = .ok (channel, valueStr) →
    (Entity.finish (shown (.number d)) (.finite v) reply).2 = .ok () →
    ∃ x : ℚ, numberSent valueStr = some x ∧
      (Caller.control (.number d) (.finite v)).conclude shown reply (.number d) =
        some (.finite (nearestDouble x)) ∧
      (Entity.number d).restored
        (some ((Caller.control (.number d) (.finite v)).conclude shown reply (.number d))) =
        some (.finite (nearestDouble x))

/-- The float is the one nearest to a decimal with no more places than the format of the
setting, or the check for multiples of five refuses it: its nearest integer, ties to
even, is none. -/
def Representable (d : NumberSetting) (v : ℚ) : Prop :=
  (∃ whole places, formatWidths d.fmt = some (whole, places) ∧
      ∃ n : ℤ, nearestDouble (n / 10 ^ places) = v) ∨
    (d.step5 = true ∧ ¬ ∃ k : ℤ, IsNearestEven v (5 * k))

/-! ## The two sides -/

theorem numberCommand_eq_ok_iff {d : NumberSetting} {value : PyFloat} {channel valueStr : String} :
    numberCommand d value = .ok (channel, valueStr) ↔
      channel = d.channel ∧ formatValue d.fmt value d.step5 = .ok valueStr := by
  unfold numberCommand
  cases formatValue d.fmt value d.step5 with
  | ok s => simp [eq_comm]
  | error e => cases e <;> simp

/-- A write completes without error exactly if it returns. -/
theorem Entity.finish_eq_ok_iff {e : Entity} (shown : Option e.Value) (value : e.Value)
    (reply : Except CallError Json) :
    (Entity.finish shown value reply).2 = .ok () ↔ asyncWriteSetting reply = .ok () := by
  unfold Entity.finish
  cases h : asyncWriteSetting reply with
  | ok u => simp
  | error err => cases err <;> simp

/-- A completed write leaves the value itself on display. -/
theorem conclude_of_completed {e : Entity} {shown : Shown} {value : e.Value}
    {reply : Except CallError Json} (h : (Entity.finish (shown e) value reply).2 = .ok ()) :
    (Caller.control e value).conclude shown reply e = some value := by
  rw [Caller.conclude, Function.update_self, Entity.finish_shown,
    if_pos ((Entity.finish_eq_ok_iff _ _ _).mp h)]

/-- The check for multiples of five, on the value. -/
theorem exists_isNearestEven_five_mul_iff (v : ℚ) :
    (∃ k : ℤ, IsNearestEven v (5 * k)) ↔ roundHalfEven v % 5 = 0 := by
  constructor
  · intro hfive
    rcases hfive with ⟨k, hk⟩
    rw [hk.roundHalfEven_eq]
    omega
  · intro hmod
    obtain ⟨k, hk⟩ := Int.dvd_of_emod_eq_zero hmod
    exact ⟨k, hk ▸ isNearestEven_roundHalfEven v⟩

/-- A reply every write completes on. -/
theorem asyncWriteSetting_ack : asyncWriteSetting (.ok (.str "KEFDSw0=")) = .ok () := by
  decide +kernel

/-- The entity shows what was sent when rounding does not change what it sends. -/
theorem showsSent_iff_of_written {d : NumberSetting} {whole places : ℕ}
    (hwidths : formatWidths d.fmt = some (whole, places)) (v : ℚ) :
    ShowsSent d v ↔
      ∀ s, formatValue d.fmt (.finite v) d.step5 = .ok s →
        nearestDouble (roundedTo places v) = v := by
  constructor
  · intro h s hs
    have hcompleted := (@Entity.finish_eq_ok_iff (.number d) none (.finite v) _).mpr
      asyncWriteSetting_ack
    obtain ⟨x, hsent, hshown, -⟩ := h (fun _ => none) _ d.channel s
      (numberCommand_eq_ok_iff.mpr ⟨rfl, hs⟩) hcompleted
    have hvalue := @conclude_of_completed (.number d) (fun _ => none) (.finite v) _ hcompleted
    have hx : PyFloat.finite v = .finite (nearestDouble x) :=
      Option.some.inj (hvalue.symm.trans hshown)
    rw [numberSent_of_eq_ok hwidths hs, Option.some.injEq] at hsent
    rw [hsent]
    exact (PyFloat.finite.inj hx).symm
  · intro h shown reply channel valueStr hcommand hcompleted
    obtain ⟨-, hwritten⟩ := numberCommand_eq_ok_iff.mp hcommand
    have hvalue := @conclude_of_completed (.number d) shown (.finite v) reply hcompleted
    refine ⟨roundedTo places v, numberSent_of_eq_ok hwidths hwritten, ?_, ?_⟩
    · rw [h valueStr hwritten]
      exact hvalue
    · rw [h valueStr hwritten]
      exact congrArg (fun value => numberRestored (some value)) hvalue

/-- Within the limits of a setting, a float next to a decimal of the format is rounded to
that decimal. -/
theorem roundedTo_nearestDouble {d : NumberSetting} {whole places : ℕ} {low high : ℤ}
    (hlimits : Limits d whole places low high) {n : ℤ}
    (hmin : d.min ≤ nearestDouble (n / 10 ^ places))
    (hmax : nearestDouble (n / 10 ^ places) ≤ d.max) :
    roundedTo places (nearestDouble (n / 10 ^ places)) = n / 10 ^ places := by
  have hwidth := formatWidths_le hlimits.widths
  have hnonneg := hlimits.nonneg.trans hmin
  have hsmall : |nearestDouble (n / 10 ^ places) * 10 ^ places| < 2 ^ 51 := by
    rw [abs_of_nonneg (by positivity)]
    calc nearestDouble (n / 10 ^ places) * 10 ^ places
        ≤ d.max * 10 ^ places := by gcongr
      _ = (high : ℚ) := hlimits.max_eq
      _ < 10 ^ (whole + places) := by exact_mod_cast hlimits.high_lt
      _ ≤ 10 ^ 4 := pow_le_pow_right₀ (by norm_num) hwidth
      _ < 2 ^ 51 := by norm_num
  rw [roundedTo_of_nonneg places hnonneg, roundHalfEven_nearestDouble (by omega) hsmall]

/-! ## The result -/

/-- **What is shown is what was sent** exactly for the floats that stand for a decimal
of the format and for those that are refused. -/
theorem showsSent_iff (d : NumberSetting) (hd : d ∈ numberSettingDefinitions) (v : ℚ)
    (hmin : d.min ≤ v) (hmax : v ≤ d.max) : ShowsSent d v ↔ Representable d v := by
  obtain ⟨whole, places, low, high, hlimits⟩ := exists_limits hd
  have hwidths := hlimits.widths
  rw [showsSent_iff_of_written hwidths, Representable, exists_isNearestEven_five_mul_iff]
  constructor
  · intro h
    by_cases hrefused : d.step5 = true ∧ roundHalfEven v % 5 ≠ 0
    · exact .inr hrefused
    · have hsent := h _ (by rw [formatValue_finite hwidths, if_neg hrefused])
      rw [roundedTo_of_nonneg places (hlimits.nonneg.trans hmin)] at hsent
      exact .inl ⟨whole, places, hwidths, _, hsent⟩
  · intro h s hs
    rcases h with ⟨whole', places', hwidths', n, rfl⟩ | ⟨hstep, hnone⟩
    · rw [hwidths] at hwidths'
      cases hwidths'
      rw [roundedTo_nearestDouble hlimits hmin hmax]
    · exact absurd (((formatValue_eq_ok_iff hwidths v d.step5 s).mp hs).1 hstep) hnone

/-- The float voltage `27.9` is shown as it was sent. -/
theorem showsSent_iff_floatVoltage :
    ShowsSent ⟨"PBFT", "float_voltage", "v1", 24, 30, false⟩ (nearestDouble (279 / 10)) := by
  have herror := abs_le.mp (abs_nearestDouble_sub_le_of_le (x := 279 / 10) (b := 28)
    (by norm_num) (by norm_num))
  norm_num at herror
  refine (showsSent_iff _ (by simp [numberSettingDefinitions]) _ ?_ ?_).mpr
    (.inl ⟨2, 1, rfl, 279, by norm_num⟩)
  · norm_num
    linarith
  · norm_num
    linarith

/-- A float voltage of `27.96` is sent as `28.0` and shown as it is. -/
theorem floatVoltage_shown_not_sent :
    ¬ ∀ d ∈ numberSettingDefinitions, ∀ x : ℚ, d.min ≤ nearestDouble x →
      nearestDouble x ≤ d.max → ShowsSent d (nearestDouble x) := by
  intro h
  have hwidths : formatWidths "v1" = some (2, 1) := rfl
  have hshown := abs_le.mp (abs_nearestDouble_sub_le_of_le (x := 699 / 25) (b := 28)
    (by norm_num) (by norm_num))
  have hsent := abs_le.mp (abs_nearestDouble_sub_le_of_le (x := 28) (b := 28)
    (by norm_num) (by norm_num))
  norm_num at hshown hsent
  -- the tenth nearest to the float
  have htenth : IsNearestEven (nearestDouble (699 / 25) * 10 ^ 1) 280 := by
    have hnear : |nearestDouble (699 / 25) * 10 ^ 1 - (280 : ℤ)| < 1 / 2 := by
      rw [abs_lt]
      push_cast
      constructor <;> linarith
    exact ⟨hnear.le, fun htie => absurd htie hnear.ne⟩
  have hrounded : roundedTo 1 (nearestDouble (699 / 25)) = 28 := by
    rw [roundedTo_of_nonneg 1 (by linarith), htenth.roundHalfEven_eq]
    norm_num
  have hshows := h ⟨"PBFT", "float_voltage", "v1", 24, 30, false⟩
    (by simp [numberSettingDefinitions]) (699 / 25) (by norm_num; linarith) (by norm_num; linarith)
  have hsame := (showsSent_iff_of_written hwidths _).mp hshows _ (formatValue_unchecked hwidths _)
  rw [hrounded] at hsame
  linarith

end SotRwb1
