import SotRwb1.Lib.Numeral

/-!
# Constants of the integration

MQTT topics, envelope command codes, and the tables of write channels.  The
tables keep what the protocol and the entities compute with; names, icons, units
and device classes are only shown by the user interface and are left out.
-/

namespace SotRwb1

/-! ## Connection defaults -/

def defaultPort : ℤ := 1883
def defaultTls : Bool := false

/-! ## Topics

The dongle publishes below `dtu/<id>/pub` and subscribes below `dtu/<id>/sub`;
the bridge, in the role of the cloud, does the reverse. -/

def topicPubWildcard (deviceId : String) : String := "dtu/" ++ deviceId ++ "/pub/#"

def pubPrefix (deviceId : String) : String := "dtu/" ++ deviceId ++ "/pub/"

def topicPropPostReply (deviceId : String) : String :=
  "dtu/" ++ deviceId ++ "/sub/event/dev_prop_post_reply"

def topicEventPostReply (deviceId : String) : String :=
  "dtu/" ++ deviceId ++ "/sub/event/dev_event_post_reply"

def topicRpcRequest (deviceId : String) : String := "dtu/" ++ deviceId ++ "/sub/service/dev_rpc"

/-- The topics the bridge publishes on. -/
def publishTopics (deviceId : String) : List String :=
  [topicPropPostReply deviceId, topicEventPostReply deviceId, topicRpcRequest deviceId]

def pubEventPropPost : String := "event/dev_prop_post"
def pubEventEventPost : String := "event/dev_event_post"
def pubServiceRpcReply : String := "service/dev_rpc_reply"
def pubEventDtuPropPost : String := "event/dtu_prop_post"

/-! ## Envelope codes -/

def cmdDevPropPost : ℤ := 1
def cmdDevEventPost : ℤ := 2
def cmdDevRpc : ℤ := 5
def cmdDtuPropPost : ℤ := 21

def iRpcReadwrite : ℤ := 503
def iRpcDump : ℤ := 501

/-! ## Telemetry keys -/

/-- The keys of the sensor definitions: each becomes a sensor entity. -/
def sensorDefinitions : List String :=
  ["output_voltage", "output_frequency", "output_apparent_power", "output_active_power",
   "load_percent",
   "grid_voltage", "grid_frequency", "grid_power",
   "battery_voltage", "battery_soc", "battery_charge_current", "battery_discharge_current",
   "battery_count_series",
   "pv_voltage", "pv_current", "pv_power",
   "inverter_temperature",
   "energy_today", "energy_week", "energy_year", "energy_total"]

/-- The keys of the binary sensor definitions. -/
def binarySensorDefinitions : List String := ["solar_charging_switch"]

/-- Raw values of `solar_charging_switch` that count as on. -/
def solarChargingSwitchOn : List String := ["2"]

/-! ## Write channels -/

/-- A number setting: its channel, value encoding and limits. -/
structure NumberSetting where
  channel : String
  key : String
  fmt : String
  min : ℚ
  max : ℚ
  step5 : Bool
  deriving DecidableEq

/-- A select setting: its channel and the raw value behind each label. -/
structure SelectSetting where
  channel : String
  key : String
  options : List (String × String)
  deriving DecidableEq

/-- A switch setting: the boolean is either in the channel's `PE`/`PD` prefix or
in the value. -/
inductive SwitchSetting where
  | prefixKind (suffix key : String)
  | digitKind (channel on off key : String)
  deriving DecidableEq

def numberSettingDefinitions : List NumberSetting :=
  [⟨"PCVV", "bulk_voltage", "v1", 24, 30, false⟩,
   ⟨"PBFT", "float_voltage", "v1", 24, 30, false⟩,
   ⟨"PSLV", "low_battery_alarm_voltage", "v1", 20, 27, false⟩,
   ⟨"PSDV", "battery_cutoff_voltage", "v1", 20, 27, false⟩,
   ⟨"PBCV", "battery_recharge_voltage", "v1", 24, 28, false⟩,
   ⟨"PBDV", "battery_redischarge_voltage", "v1", 49 / 2, 29, false⟩,
   ⟨"MUCHGC", "max_utility_charge_current", "i3", 2, 100, false⟩,
   ⟨"MNCHGC", "max_total_charge_current", "i3", 10, 120, false⟩,
   ⟨"DISCC", "discharge_current_limit", "i3", 20, 200, false⟩,
   ⟨"BMSSDC", "bms_inverter_cutoff", "i3", 5, 95, true⟩,
   ⟨"BMSSRC", "inverter_startup_soc", "i3", 5, 100, true⟩,
   ⟨"BMSB2UC", "restore_mains_charging_soc", "i3", 5, 95, true⟩,
   ⟨"BMSU2BC", "restore_utility_discharging_soc", "i3", 5, 95, true⟩,
   ⟨"PDSDS", "parallel_shutdown_soc", "i3", 5, 95, true⟩,
   ⟨"PDSRS", "second_output_restore_soc", "i3", 5, 100, true⟩,
   ⟨"PDSRV", "second_output_restore_voltage", "v1", 22, 29, false⟩,
   ⟨"PDDLYT", "second_output_delay", "i3", 5, 600, false⟩,
   ⟨"PDDCGT", "second_output_discharge_time", "i4", 0, 1440, false⟩,
   ⟨"PBEQV", "equalization_voltage", "v2", 24, 30, false⟩,
   ⟨"PBEQT", "equalization_time", "i3", 5, 900, false⟩,
   ⟨"PBEQOT", "equalization_timeout", "i3", 5, 900, false⟩,
   ⟨"PBEQP", "equalization_interval", "i3", 0, 90, false⟩]

def selectSettingDefinitions : List SelectSetting :=
  [⟨"POP0", "output_source_priority",
     [("Solar+Battery First (SBU)", "0"), ("Solar First (SUB)", "1")]⟩,
   ⟨"PCP0", "charger_priority",
     [("Solar Only (OSO)", "0"), ("Solar + Utility (CSO)", "1"), ("Solar First (SNU)", "2"),
      ("Solar Residual (SOR)", "3")]⟩,
   ⟨"PGR0", "grid_working_range", [("UPS", "0"), ("Appliance (APL)", "1")]⟩]

def switchSettingDefinitions : List SwitchSetting :=
  [.prefixKind "x" "lcd_backlight",
   .prefixKind "a" "buzzer",
   .digitKind "PBEQE" "1" "0" "equalization_mode",
   .digitKind "PDAULC" "01" "00" "dual_remote_switch"]

/-- The channel of the clear-fault button. -/
def faultClearChannel : String := "FAULTC"

end SotRwb1
