import SotRwb1.Lib.Suffix
import SotRwb1.Setup.Installation

/-!
# Entities and their unique ids

Each platform makes its entities from a table of keys.  An entity's unique id joins the
domain, the device id and the key with underscores, and both the device id and the key may
contain underscores too.  It is still read in one way only: no key of a platform ends in
an underscore and another key of it.

## Main definitions

* `Platform`, `Platform.entityKeys`, `uniqueId`, `registered`.
* `entityKeys_suffixFree`, `uniqueId_inj`.
* `unique_ids_distinct`.
-/

namespace SotRwb1

/-! ## Entities -/

/-- The key of a switch setting. -/
def SwitchSetting.key : SwitchSetting → String
  | prefixKind _ key => key
  | digitKind _ _ _ key => key

/-- What a button does. -/
inductive ButtonKind where
  | fault
  | refresh

/-- The buttons, with their keys. -/
def buttonDefinitions : List (ButtonKind × String) :=
  [(.fault, "clear_fault"), (.refresh, "refresh")]

/-- The platforms an entry is forwarded to. -/
inductive Platform where
  | sensor
  | binarySensor
  | number
  | select
  | switch
  | button
  deriving DecidableEq

def platforms : List Platform := [.sensor, .binarySensor, .number, .select, .switch, .button]

/-- The keys with which the entities of a platform are constructed. -/
def Platform.entityKeys : Platform → List String
  | sensor => sensorDefinitions
  | binarySensor => binarySensorDefinitions ++ ["online"]
  | number => numberSettingDefinitions.map fun d => "number_" ++ d.key
  | select => selectSettingDefinitions.map fun d => "select_" ++ d.key
  | switch => switchSettingDefinitions.map fun d => "switch_" ++ d.key
  | button => buttonDefinitions.map fun d => "button_" ++ d.2

/-- The unique id of an entity. -/
def uniqueId (deviceId key : String) : String := "sot_rwb1_" ++ deviceId ++ "_" ++ key

/-- What an entry registers: the platform and the unique id of each of its entities. -/
def registered (deviceId : String) : List (Platform × String) :=
  platforms.flatMap fun platform =>
    platform.entityKeys.map fun key => (platform, uniqueId deviceId key)

/-! ## Unique ids -/

theorem entityKeys_suffixFree (platform : Platform) :
    SuffixFree '_' (platform.entityKeys.map String.toList) := by
  cases platform <;> decide +kernel

theorem nodup_entityKeys (platform : Platform) : platform.entityKeys.Nodup := by
  cases platform <;> decide +kernel

/-- On one platform a unique id tells the device and the key. -/
theorem uniqueId_inj {platform : Platform} {deviceId deviceId' key key' : String}
    (hkey : key ∈ platform.entityKeys) (hkey' : key' ∈ platform.entityKeys)
    (h : uniqueId deviceId key = uniqueId deviceId' key') :
    deviceId = deviceId' ∧ key = key' := by
  have htexts : deviceId.toList ++ '_' :: key.toList =
      deviceId'.toList ++ '_' :: key'.toList := by
    simpa [uniqueId] using congrArg String.toList h
  obtain ⟨hid, hkeys⟩ := (entityKeys_suffixFree platform).append_inj
    (List.mem_map_of_mem hkey) (List.mem_map_of_mem hkey') htexts
  exact ⟨String.toList_inj.mp hid, String.toList_inj.mp hkeys⟩

theorem mem_registered {deviceId : String} {p : Platform × String} (h : p ∈ registered deviceId) :
    ∃ key ∈ p.1.entityKeys, p.2 = uniqueId deviceId key := by
  obtain ⟨platform, -, hp⟩ := List.mem_flatMap.mp h
  obtain ⟨key, hkey, rfl⟩ := List.mem_map.mp hp
  exact ⟨key, hkey, rfl⟩

theorem nodup_registered (deviceId : String) : (registered deviceId).Nodup := by
  rw [registered, List.nodup_flatMap]
  constructor
  · intro platform _
    refine (nodup_entityKeys platform).map_on ?_
    intro key hkey key' hkey' heq
    exact (uniqueId_inj hkey hkey' (Prod.ext_iff.mp heq).2).2
  · have hplatforms : platforms.Nodup := by decide
    apply hplatforms.imp
    intro platform platform' hne p hp hp'
    obtain ⟨key, -, rfl⟩ := List.mem_map.mp hp
    obtain ⟨key', -, heq⟩ := List.mem_map.mp hp'
    exact hne (Prod.ext_iff.mp heq).1.symm

/-- **Unique ids are unique.**  However flows, set-ups, unloads and removals went, no two
entities of one platform have the same unique id, whatever the device ids are. -/
theorem unique_ids_distinct {ok : Installation → InstallationEvent → Prop}
    {history : List (Installation × InstallationEvent)} {s : Installation}
    (h : installation.Run ok .init history s) : (s.deviceIds.flatMap registered).Nodup := by
  rw [List.nodup_flatMap]
  constructor
  · exact fun deviceId _ => nodup_registered deviceId
  · apply (installation_named h).distinct.imp
    intro deviceId deviceId' hne p hp hp'
    obtain ⟨key, hkey, heq⟩ := mem_registered hp
    obtain ⟨key', hkey', heq'⟩ := mem_registered hp'
    exact hne (uniqueId_inj hkey hkey' (heq.symm.trans heq')).1

/-- Two devices are being added, one with the other's id in front of a key. -/
theorem unique_ids_distinct_number :
    ∃ history s, installation.Run (fun _ _ => True) .init history s ∧
      s.deviceIds = ["1", "1_number"] ∧ (s.deviceIds.flatMap registered).Nodup := by
  have hreplay : (installation.replay (fun _ _ => True) .init
      [.submit ⟨.ok ⟨⟩, .ok ⟨⟩⟩ (formFor "1"), .submit ⟨.ok ⟨⟩, .ok ⟨⟩⟩ (formFor "1_number")]).any
      (fun r => r.2.deviceIds == ["1", "1_number"]) = true := by decide +kernel
  obtain ⟨r, hr, hids⟩ := (Option.any_eq_true _ _).mp hreplay
  have hrun := Machine.Run.nil.replay hr
  exact ⟨_, _, hrun, beq_iff_eq.mp hids, unique_ids_distinct hrun⟩

end SotRwb1
