import Mathlib.Data.List.FinRange
import Mathlib.Logic.Function.Basic
import BallyOS.Library.Binary32

/-! The runtime settings: one row a field, with its module, key, type and factory
value, and how each type is written and read. Which numbers are GPIOs is the
chip's to say. -/
namespace BallyOS.Settings
open Library

/-- A byte string, one character a byte. -/
abbrev Text := List Char

/-- What C sees of a string: up to the first NUL. -/
def cString (text : Text) : Text := text.takeWhile (· ≠ '\x00')

/-- A string in a buffer, with room for its NUL. -/
structure CString (size : Nat) where
  text : Text
  fits : text.length < size
  unended : '\x00' ∉ text

inductive SettingType
  | u32
  | u8
  | float
  | pin
  | string (size : Nat)
deriving DecidableEq

abbrev SettingType.Value : SettingType → Type
  | u32 => UInt32
  | u8 => UInt8
  | float => Binary32
  | pin => Int32
  | string size => CString size

structure SettingEntry where
  module : Text
  key : Text
  type : SettingType
  initial : type.Value

def OTA_MDNS_NAME_MAX_LEN : Nat := 33
def OTA_PASSWORD_MAX_LEN : Nat := 33

def entry (module key : String) (type : SettingType) (initial : type.Value) : SettingEntry :=
  ⟨module.toList, key.toList, type, initial⟩

def kTable : List SettingEntry := [
  entry "identity" "name" (.string 32) ⟨[], by decide, by decide⟩,
  entry "identity" "description" (.string 64) ⟨[], by decide, by decide⟩,
  entry "timers" "sample_micros" .u32 1000,
  entry "timers" "delay_flags" .u32 250,
  entry "timers" "timezone" (.string 16) ⟨"BRT3".toList, by decide, by decide⟩,
  entry "sensor" "len_sensor" .u8 8,
  entry "sensor" "samples" .u8 30,
  entry "sensor" "delay_sample" .u8 100,
  entry "ekf_noise" "v_noise" .float (.ofRatio false 1 10),
  entry "ekf_noise" "w_noise" .float (.ofRatio false 1 10),
  entry "ekf_noise" "b_noise" .float (.ofRatio false 1 10000),
  entry "ekf_noise" "initial_p" .float (.ofRatio false 1 10),
  entry "ekf_noise" "enc_noise" .float (.ofRatio false 5 10),
  entry "ekf_noise" "accel_noise" .float (.ofRatio false 5 10),
  entry "ekf_noise" "gyro_noise" .float (.ofRatio false 1 1000),
  entry "kinematics" "encoder_ppr" .float (.ofRatio false 70 1),
  entry "kinematics" "wheel_radius" .float (.ofRatio false 325 10000),
  entry "logger" "logger_mutex_timeout_ms" .u32 100,
  entry "logger" "max_chunks_per_flush" .u32 10,
  entry "logger" "block_size" .u32 16,
  entry "pins_led" "led0" .pin 45,
  entry "pins_led" "led1" .pin 46,
  entry "pins_led" "led2" .pin 43,
  entry "pins_led" "led3" .pin 44,
  entry "pins_hbridge" "ain1" .pin 21,
  entry "pins_hbridge" "ain2" .pin 47,
  entry "pins_hbridge" "bin1" .pin 3,
  entry "pins_hbridge" "bin2" .pin 9,
  entry "pins_hbridge" "current_a" .pin 14,
  entry "pins_hbridge" "current_b" .pin 8,
  entry "pins_encoder" "enc_a0" .pin 41,
  entry "pins_encoder" "enc_a1" .pin 42,
  entry "pins_encoder" "enc_b0" .pin 39,
  entry "pins_encoder" "enc_b1" .pin 40,
  entry "pins_button" "btn0" .pin 0,
  entry "pins_button" "btn1" .pin 4,
  entry "pins_button" "btn2" .pin 5,
  entry "pins_side_sensor" "left" .pin 1,
  entry "pins_side_sensor" "right" .pin 48,
  entry "pins_buzzer" "bzr" .pin 38,
  entry "pins_mux" "s0" .pin 12,
  entry "pins_mux" "s1" .pin 11,
  entry "pins_mux" "s2" .pin 10,
  entry "pins_mux" "sig" .pin 13,
  entry "pins_i2c" "sda_pin" .pin 18,
  entry "pins_i2c" "scl_pin" .pin 17,
  entry "ota" "ota_led_step_ms" .u32 150,
  entry "ota" "ota_led_hold_ms" .u32 200,
  entry "ota" "ota_led_fail_hold_ms" .u32 800,
  entry "ota" "ota_connect_timeout_ms" .u32 10000,
  entry "ota" "ota_retry_scan_ms" .u32 5000,
  entry "ota" "espnow_channel" .u8 11,
  entry "ota" "ota_hostname" (.string OTA_MDNS_NAME_MAX_LEN)
    ⟨"ballyrobot".toList, by decide, by decide⟩,
  entry "ota" "ota_instance_name" (.string OTA_MDNS_NAME_MAX_LEN)
    ⟨"BallyRobot OTA".toList, by decide, by decide⟩,
  entry "ota" "ota_password" (.string OTA_PASSWORD_MAX_LEN)
    ⟨"657585".toList, by decide, by decide⟩,
  entry "comm" "comm_mode" .u8 0,
  entry "error" "error_blink_ms" .u32 250]

def kTableCount : Nat := kTable.length

/-- The row of a field. -/
def row (i : Fin kTableCount) : SettingEntry := kTable.get i

/-- One value a row. -/
abbrev SettingsData := ∀ i : Fin kTableCount, (row i).type.Value

/-- The factory values. -/
def initial : SettingsData := fun i => (row i).initial

/-- The characters `snprintf` leaves in the 32 bytes of `buf`. -/
def kFormatRoom : Nat := 31

def formatEntry : (type : SettingType) → type.Value → Text
  | .u32, value => (printUnsigned value.toNat).take kFormatRoom
  | .u8, value => (printUnsigned value.toNat).take kFormatRoom
  | .float, value => (printFixed value).take kFormatRoom
  | .pin, value => (printSigned value.toInt).take kFormatRoom
  | .string _, value => value.text

theorem cString_unended (text : Text) : '\x00' ∉ cString text := by
  intro member
  exact absurd (List.mem_takeWhile_imp member) (by decide)

/-- The value that a string which is not empty gives a field, if it is one. -/
def parseValue (validGpio : Int → Bool) :
    (type : SettingType) → (value : Text) → '\x00' ∉ value → Option type.Value
  | .u32, value, _ =>
    match strtoul value with
    | some (v, []) => some v
    | _ => none
  | .u8, value, _ =>
    match strtoul value with
    | some (v, []) => if v > 0xFF then none else some v.toUInt8
    | _ => none
  | .float, value, _ =>
    match strtof value with
    | some (v, []) => some v
    | _ => none
  | .pin, value, _ =>
    match strtol value with
    | some (v, []) => if validGpio v then some (Int32.ofInt v) else none
    | _ => none
  | .string size, value, unended =>
    if fits : value.length < size then some ⟨value, fits, unended⟩ else none

def parseInto (validGpio : Int → Bool) (type : SettingType) (text : Text) : Option type.Value :=
  if cString text = [] then none
  else parseValue validGpio type (cString text) (cString_unended text)

def find (module key : Text) : Option (Fin kTableCount) :=
  (List.finRange kTableCount).find? fun i => (row i).module = module ∧ (row i).key = key

/-- A call of `set`; it changes nothing when there is no such field or value. -/
def set (validGpio : Int → Bool) (data : SettingsData) (module key value : Text) :
    Bool × SettingsData :=
  match find (cString module) (cString key) with
  | some i =>
    match parseInto validGpio (row i).type value with
    | some parsed => (true, Function.update data i parsed)
    | none => (false, data)
  | none => (false, data)

end BallyOS.Settings
