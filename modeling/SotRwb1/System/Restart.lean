import SotRwb1.System.Display

/-!
# Settings across restarts

The dongle is never asked for a setting, so what an entity shows after a restart is what
Home Assistant stored of it.  A session runs from what was restored; the next one from
what was stored of its last state, as far as the store has it.  In every session an
entity shows nothing, or the value of a write in this session or an earlier one whose
reply decoded without `NAK`; and what it shows would come back from the store.

## Main definitions

* `controlEntities`, `Entity.toStored`, `Entity.Lost` — what the store has.
* `WriteAccepted`, `Sessions`.
* `settings_survive`.
-/

namespace SotRwb1

open PyLib

/-! ## The store -/

/-- The control entities of the three platforms. -/
def controlEntities : List Entity :=
  numberSettingDefinitions.map .number ++ selectSettingDefinitions.map .select ++
    switchSettingDefinitions.map .switch

/-- The stored state of a select entity, `unknown` when there is nothing to show. -/
def selectStored (shown : Option String) : Option String := some (shown.getD "unknown")

/-- The stored state of a switch entity. -/
def switchStored : Option Bool → Option String
  | some true => some "on"
  | some false => some "off"
  | none => some "unknown"

namespace Entity

/-- What Home Assistant stores of what an entity shows: the native value, or the state. -/
def toStored : (e : Entity) → Option e.Value → e.Stored
  | number _, shown => some shown
  | select _, shown => selectStored shown
  | switch _, shown => switchStored shown

/-- Nothing was stored, or only that there was nothing to show. -/
def Lost : (e : Entity) → e.Stored → Prop
  | number _, last => last = none ∨ last = some none
  | select _, last => last = none ∨ last = some "unknown" ∨ last = some "unavailable"
  | switch _, last => last = none ∨ last = some "unknown" ∨ last = some "unavailable"

/-- A value the entity can be set to. -/
def Offers (e : Entity) (value : e.Value) : Prop := ∃ command, e.command value = .ok command

end Entity

theorem lookup_options {d : SelectSetting} (hd : d ∈ selectSettingDefinitions) :
    d.options.lookup "unknown" = none ∧ d.options.lookup "unavailable" = none := by
  revert d
  decide

theorem selectRestored_some (d : SelectSetting) (state : String) :
    selectRestored d (some state) = if (d.options.lookup state).isSome then some state else none :=
  rfl

/-- What was lost is not restored as anything. -/
theorem restored_of_lost {e : Entity} (he : e ∈ controlEntities) {last : e.Stored}
    (h : e.Lost last) : e.restored last = none := by
  cases e with
  | number d => rcases h with rfl | rfl <;> rfl
  | select d =>
      have hd : d ∈ selectSettingDefinitions := by simpa [controlEntities] using he
      obtain ⟨hunknown, hunavailable⟩ := lookup_options hd
      rcases h with rfl | rfl | rfl
      · rfl
      · exact (selectRestored_some d _).trans (if_neg (by simp [hunknown]))
      · exact (selectRestored_some d _).trans (if_neg (by simp [hunavailable]))
  | switch d => rcases h with rfl | rfl | rfl <;> rfl

theorem selectRestored_selectStored {d : SelectSetting} (hd : d ∈ selectSettingDefinitions)
    {shown : Option String}
    (h : ∀ option, shown = some option → ∃ command, selectCommand d option = .ok command) :
    selectRestored d (selectStored shown) = shown := by
  cases shown with
  | none =>
      rw [selectStored, Option.getD_none, selectRestored_some, (lookup_options hd).1]
      rfl
  | some option =>
      obtain ⟨command, hcommand⟩ := h option rfl
      rw [selectCommand] at hcommand
      rw [selectStored, Option.getD_some, selectRestored_some]
      cases hlookup : d.options.lookup option with
      | some raw => rfl
      | none =>
          rw [hlookup] at hcommand
          cases hcommand

theorem switchRestored_switchStored (shown : Option Bool) :
    switchRestored (switchStored shown) = shown := by
  cases shown with
  | none => rfl
  | some turnOn => cases turnOn <;> decide

/-- **The round trip.**  What an entity shows comes back from the store, if it is nothing
or a value the entity can be set to. -/
theorem restored_toStored {e : Entity} (he : e ∈ controlEntities) {shown : Option e.Value}
    (h : ∀ value, shown = some value → e.Offers value) :
    e.restored (e.toStored shown) = shown := by
  cases e with
  | number d => rfl
  | select d => exact selectRestored_selectStored (by simpa [controlEntities] using he) h
  | switch d => exact switchRestored_switchStored shown

/-! ## One session -/

/-- A write of the entity ended normally: its reply decodes without `NAK`. -/
def WriteAccepted (w : World) (e : Entity) (value : e.Value) : Prop :=
  ∃ id task co, w.tasks id = some task ∧ task.caller = .control e value ∧
    task.ended = some (.ok co) ∧ (Acknowledges co ∨ Ambiguous co)

/-- Every call has a request to send. -/
def AllSend (w : World) : Prop :=
  ∀ id task, w.tasks id = some task → ∃ ci, task.caller.ci = .ok ci

theorem AllSend.update {w w' : World} (h : AllSend w) {id : ℕ} {task : Task}
    (htasks : w'.tasks = Function.update w.tasks id (some task))
    (htask : ∃ ci, task.caller.ci = .ok ci) : AllSend w' := by
  intro id' task' htask'
  rw [htasks] at htask'
  by_cases hid : id' = id
  · subst hid
    rw [Function.update_self] at htask'
    cases htask'
    exact htask
  · rw [Function.update_of_ne hid] at htask'
    exact h id' task' htask'

/-- A call without a payload does not register. -/
theorem AllSend.start {w : World} (h : AllSend w) (deviceId : String) (id : ℕ) (caller : Caller)
    (token : String) (draws : Draws) (refusal : Option PyError) :
    AllSend (w.start deviceId id caller token draws refusal) := by
  rw [World.start]
  split
  · exact h
  · rename_i ci hci
    split
    · cases refusal <;> exact h.update rfl ⟨ci, hci⟩
    · exact h

theorem AllSend.step {deviceId : String} {w w' : World} {ev : Event} (h : AllSend w)
    (hstep : (machine deviceId).step w ev = some w') : AllSend w' := by
  cases step_cases hstep with
  | frame same _ _ =>
      intro id task htask
      rw [same.tasks] at htask
      exact h id task htask
  | start id caller token draws refusal event =>
      subst event
      have hstart : w.step deviceId (.start id caller token draws refusal) = some w' := hstep
      rw [World.step] at hstart
      split at hstart
      · cases hstart
        exact h.start deviceId id caller token draws refusal
      · cases hstart
  | complete t co id task _ _ _ task_eq _ change => exact h.update change.tasks (h id task task_eq)
  | wait id task _ running _ _ change =>
      exact h.update change.tasks (h id task (running_eq_some_iff.mp running).1)
  | interrupt id task _ _ running _ change =>
      exact h.update change.tasks (h id task (running_eq_some_iff.mp running).1)
  | takeReply id task _ running _ _ callEnd _ =>
      exact h.update callEnd.tasks (h id task (running_eq_some_iff.mp running).1)
  | wake id task _ _ running callEnd _ =>
      exact h.update callEnd.tasks (h id task (running_eq_some_iff.mp running).1)
  | wakeNone id _ _ _ tasks _ _ =>
      intro id task htask
      rw [tasks] at htask
      exact h id task htask

/-- An accepted value is one the entity can be set to. -/
theorem WriteAccepted.offers {w : World} {e : Entity} {value : e.Value} (h : WriteAccepted w e value)
    (hsend : AllSend w) : e.Offers value := by
  obtain ⟨id, task, co, htask, hcaller, -, -⟩ := h
  obtain ⟨ci, hci⟩ := hsend id task htask
  rw [hcaller, Caller.ci] at hci
  cases hcommand : e.command value with
  | ok command => exact ⟨command, hcommand⟩
  | error err =>
      rw [hcommand] at hci
      cases hci

theorem WriteAccepted.step {deviceId : String} {w w' : World} {ev : Event} {e : Entity}
    {value : e.Value} (h : WriteAccepted w e value)
    (hstep : (machine deviceId).step w ev = some w') : WriteAccepted w' e value := by
  obtain ⟨id, task, co, htask, hcaller, hended, hco⟩ := h
  obtain ⟨task', htask', hlater⟩ := later_step hstep htask
  exact ⟨id, task', co, htask', hlater.caller.trans hcaller, hlater.ended _ hended, hco⟩

/-- The end of a call changes the display only for an accepted write. -/
theorem accepted_callEnd {w w' : World} {id : ℕ} {task : Task} (hend : CallEnd w id task w') :
    w'.shown = w.shown ∨ ∃ e value, WriteAccepted w' e value ∧
      w'.shown = Function.update w.shown e (some value) := by
  rcases conclude_cases task.caller w.shown task.outcome with
    hsame | ⟨e, value, co, hcaller, hreply, hco, hshown⟩
  · exact .inl (hend.shown.trans hsame)
  · refine .inr ⟨e, value, ⟨id, { task with ended := some task.outcome }, co, ?_, hcaller,
      congrArg some hreply, hco⟩, hend.shown.trans hshown⟩
    rw [hend.tasks, Function.update_self]

/-- A step leaves the display alone or shows an accepted value. -/
theorem accepted_step {deviceId : String} {w w' : World} {ev : Event}
    (hstep : (machine deviceId).step w ev = some w') :
    w'.shown = w.shown ∨ ∃ e value, WriteAccepted w' e value ∧
      w'.shown = Function.update w.shown e (some value) := by
  cases step_cases hstep with
  | frame same _ _ => exact .inl same.shown
  | start _ _ _ _ _ _ _ _ _ _ shown => exact .inl shown
  | complete _ _ _ _ _ _ _ _ _ change => exact .inl change.shown
  | wait _ _ _ _ _ _ change => exact .inl change.shown
  | interrupt _ _ _ _ _ _ change => exact .inl change.shown
  | takeReply _ _ _ _ _ _ callEnd _ => exact accepted_callEnd callEnd
  | wake _ _ _ _ _ callEnd _ => exact accepted_callEnd callEnd
  | wakeNone _ _ _ _ _ _ shown => exact .inl shown

/-- What an entity restored, or a value accepted in the session. -/
def ShowsAccepted (restored : Shown) (w : World) : Prop :=
  ∀ e, w.shown e = restored e ∨ ∃ value, w.shown e = some value ∧ WriteAccepted w e value

theorem ShowsAccepted.step {deviceId : String} {restored : Shown} {w w' : World} {ev : Event}
    (h : ShowsAccepted restored w) (hstep : (machine deviceId).step w ev = some w') :
    ShowsAccepted restored w' := by
  intro e
  have hkept : w'.shown e = w.shown e →
      w'.shown e = restored e ∨ ∃ value, w'.shown e = some value ∧ WriteAccepted w' e value := by
    intro hsame
    rcases h e with hrestored | ⟨value, hshown, haccepted⟩
    · exact .inl (hsame.trans hrestored)
    · exact .inr ⟨value, hsame.trans hshown, haccepted.step hstep⟩
  rcases accepted_step hstep with hsame | ⟨e', value, haccepted, hshown⟩
  · exact hkept (by rw [hsame])
  · by_cases he : e = e'
    · subst he
      exact .inr ⟨value, by rw [hshown, Function.update_self], haccepted⟩
    · exact hkept (by rw [hshown, Function.update_of_ne he])

/-- What one session comes to. -/
theorem session {deviceId : String} {ok : World → Event → Prop} {restored : Shown}
    {history : List (World × Event)} {w : World}
    (h : (machine deviceId).Run ok (World.init restored) history w) :
    AllSend w ∧ ShowsAccepted restored w := by
  apply h.invariant fun w => AllSend w ∧ ShowsAccepted restored w
  · refine ⟨?_, fun e => .inl rfl⟩
    intro id task htask
    cases htask
  · exact fun _ _ _ hs _ hstep => ⟨hs.1.step hstep, hs.2.step hstep⟩

/-! ## All sessions -/

/-- What is stored of an entity at a restart is what it showed, or was lost. -/
def Keeps (shown : Shown) (stored : (e : Entity) → e.Stored) : Prop :=
  ∀ e, stored e = e.toStored (shown e) ∨ e.Lost (stored e)

/-- The last states of the earlier sessions, and a state of the present one. -/
inductive Sessions (deviceId : String) (ok : World → Event → Prop) : List World → World → Prop
  | first {stored : (e : Entity) → e.Stored} {history : List (World × Event)} {w : World}
      (lost : ∀ e : Entity, e.Lost (stored e))
      (run : (machine deviceId).Run ok (World.init (restoredShown stored)) history w) :
      Sessions deviceId ok [] w
  | restart {earlier : List World} {last : World} {stored : (e : Entity) → e.Stored}
      {history : List (World × Event)} {w : World} (before : Sessions deviceId ok earlier last)
      (keeps : Keeps last.shown stored)
      (run : (machine deviceId).Run ok (World.init (restoredShown stored)) history w) :
      Sessions deviceId ok (earlier ++ [last]) w

/-- An entity shows nothing, or a value accepted in one of the sessions. -/
def ShowsAcceptedIn (sessions : List World) (w : World) (e : Entity) : Prop :=
  w.shown e = none ∨
    ∃ value, w.shown e = some value ∧ e.Offers value ∧ ∃ w' ∈ sessions, WriteAccepted w' e value

/-- It would show the same after a restart. -/
theorem ShowsAcceptedIn.restored_eq {sessions : List World} {w : World} {e : Entity}
    (h : ShowsAcceptedIn sessions w e) (he : e ∈ controlEntities) :
    e.restored (e.toStored (w.shown e)) = w.shown e := by
  apply restored_toStored he
  intro value hvalue
  rcases h with hnone | ⟨value', hshown, hoffers, -⟩
  · rw [hnone] at hvalue
    cases hvalue
  · rw [hshown] at hvalue
    cases hvalue
    exact hoffers

/-- A session that restored nothing, or values accepted earlier. -/
theorem showsAcceptedIn_of_run {deviceId : String} {ok : World → Event → Prop} {restored : Shown}
    {history : List (World × Event)} {w : World} {e : Entity} {earlier : List World}
    (h : (machine deviceId).Run ok (World.init restored) history w)
    (hrestored : ∀ value, restored e = some value →
      e.Offers value ∧ ∃ w' ∈ earlier, WriteAccepted w' e value) :
    ShowsAcceptedIn (earlier ++ [w]) w e := by
  obtain ⟨hsend, hshows⟩ := session h
  rcases hshows e with hsame | ⟨value, hshown, haccepted⟩
  · cases hvalue : restored e with
    | none => exact .inl (hsame.trans hvalue)
    | some value =>
        obtain ⟨hoffers, w', hw', haccepted⟩ := hrestored value hvalue
        exact .inr ⟨value, hsame.trans hvalue, hoffers, w', List.mem_append_left _ hw', haccepted⟩
  · exact .inr ⟨value, hshown, haccepted.offers hsend, w, by simp, haccepted⟩

/-- **Settings survive restarts.**  Over any sessions: a control shows nothing or the value
of a write, in this session or an earlier one, whose reply decoded without `NAK`; and if
the store keeps what it shows, it shows the same after the next restart. -/
theorem settings_survive {deviceId : String} {ok : World → Event → Prop} {earlier : List World}
    {w : World} (h : Sessions deviceId ok earlier w) {e : Entity} (he : e ∈ controlEntities) :
    ShowsAcceptedIn (earlier ++ [w]) w e ∧ e.restored (e.toStored (w.shown e)) = w.shown e := by
  have hshows : ShowsAcceptedIn (earlier ++ [w]) w e := by
    induction h with
    | first lost run =>
        apply showsAcceptedIn_of_run run
        intro value hvalue
        rw [restoredShown, restored_of_lost he (lost e)] at hvalue
        cases hvalue
    | restart before keeps run ih =>
        apply showsAcceptedIn_of_run run
        intro value hvalue
        rw [restoredShown] at hvalue
        rcases keeps e with hkept | hlost
        · rw [hkept, ih.restored_eq he] at hvalue
          rcases ih with hnone | ⟨value', hshown, hoffers, haccepted⟩
          · rw [hnone] at hvalue
            cases hvalue
          · rw [hshown] at hvalue
            cases hvalue
            exact ⟨hoffers, haccepted⟩
        · rw [restored_of_lost he hlost] at hvalue
          cases hvalue
  exact ⟨hshows, hshows.restored_eq he⟩

set_option maxRecDepth 10000 in
/-- The buzzer is switched on in the first session and shows it in the second. -/
theorem settings_survive_buzzer :
    ∃ earlier w, Sessions "x" (fun _ _ => True) earlier w ∧ earlier.length = 1 ∧
      w.shown buzzer = some true ∧ ShowsAcceptedIn (earlier ++ [w]) w buzzer := by
  have hreplay : ((machine "x").replay (fun _ _ => True) blankWorld
      (buzzerEvents "KEFDSw0=")).isSome = true := by decide +kernel
  have hshown : ((machine "x").replay (fun _ _ => True) blankWorld
      (buzzerEvents "KEFDSw0=")).bind (fun r => r.2.shown buzzer) = some true := by rfl
  obtain ⟨r, hr⟩ := Option.isSome_iff_exists.mp hreplay
  rw [hr, Option.bind_some] at hshown
  have hlost : ∀ e : Entity, e.Lost (nothingStored e) := by
    intro e
    cases e <;> exact .inl rfl
  have hfirst := Sessions.first hlost (Machine.Run.nil.replay hr)
  have hkeeps : Keeps r.2.shown fun e => e.toStored (r.2.shown e) := fun _ => .inl rfl
  have hsecond := hfirst.restart hkeeps .nil
  have hcontrol : buzzer ∈ controlEntities := by decide
  refine ⟨_, _, hsecond, rfl, ?_, (settings_survive hsecond hcontrol).1⟩
  exact ((settings_survive hfirst hcontrol).2).trans hshown

end SotRwb1
