import Mathlib.Data.Nat.Log
import StreamDockSdk.Json.Fields

namespace StreamDockSdk

/-- `magnitude / 2 ^ shift`, rounded to the nearest integer and from the middle to the even
one. -/
def roundHalfEven (magnitude shift : Nat) : Nat :=
  let quotient := magnitude / 2 ^ shift
  let rest := magnitude % 2 ^ shift
  if 2 ^ shift < 2 * rest ∨ 2 * rest = 2 ^ shift ∧ quotient % 2 = 1 then quotient + 1
  else quotient

/-- The bits of the double that is nearest to the number, and `none` where there is no finite
one. -/
def doubleOfNat (magnitude : Nat) : Option Nat :=
  if magnitude = 0 then some 0
  else
    let exponent := Nat.log 2 magnitude
    let significand :=
      if exponent ≤ 52 then magnitude * 2 ^ (52 - exponent)
      else roundHalfEven magnitude (exponent - 52)
    let bits := (exponent + 1022) * 2 ^ 52 + significand
    if 2047 * 2 ^ 52 ≤ bits then none else some bits

/-- `float(value)` of an integer, and `none` where it raises `OverflowError`. -/
def floatOfInt (value : Int) : Option (BitVec 64) :=
  (doubleOfNat value.natAbs).map fun bits =>
    BitVec.ofNat 64 (if value < 0 then 2 ^ 63 + bits else bits)

/-- `number <= 0`, for a finite number. -/
def floatNonPositive (bits : BitVec 64) : Bool :=
  bits.toNat = 0 || 2 ^ 63 ≤ bits.toNat

/-- The code points that `str.strip` takes off. -/
def isSpace (point : CodePoint) : Bool :=
  (9 ≤ point.val && point.val ≤ 13) || (28 ≤ point.val && point.val ≤ 32) ||
    (0x2000 ≤ point.val && point.val ≤ 0x200A) ||
    [0x85, 0xA0, 0x1680, 0x2028, 0x2029, 0x202F, 0x205F, 0x3000].contains point.val

/-- `not value.strip()` -/
def Str.isBlank (text : Str) : Bool :=
  text.codePoints.all isSpace

structure RegistrationApplicationInfo where
  language : Str
  platform : Str
  platformVersion : Str
  version : Str
  font : Option Str
deriving DecidableEq, Repr

structure RegistrationColors where
  buttonMouseOverBackgroundColor : Option Str
  buttonPressedBackgroundColor : Option Str
  buttonPressedBorderColor : Option Str
  buttonPressedTextColor : Option Str
  highlightColor : Option Str
deriving DecidableEq, Repr

structure RegistrationDeviceInfo where
  id : Str
  name : Str
  type : Int
  size : DeviceSize
deriving DecidableEq, Repr

structure RegistrationPluginInfo where
  uuid : Str
  version : Str
deriving DecidableEq, Repr

structure RegistrationInfo where
  application : RegistrationApplicationInfo
  colors : RegistrationColors
  devicePixelRatio : BitVec 64
  devices : List RegistrationDeviceInfo
  plugin : RegistrationPluginInfo
deriving DecidableEq, Repr

/-- `InvalidRegistrationInfoError` -/
structure InvalidRegistrationInfoError where
  reason : String
  path : FieldPath
deriving DecidableEq, Repr

/-- What `parse_registration_info` raises. -/
inductive RegistrationFailure where
  | invalid (error : InvalidRegistrationInfoError)
  /-- `OverflowError` -/
  | overflow
deriving DecidableEq, Repr

namespace Registration

def invalidInfo (path : FieldPath) (reason : String) : RegistrationFailure :=
  .invalid ⟨reason, path⟩

/-- The entries of a dictionary. -/
abbrev Data := List (PyValue × PyValue)

def requireObject (heap : PyHeap) (data : Data) (key : String) (path : FieldPath) :
    Except RegistrationFailure Data :=
  requireField invalidInfo (dictEntries? heap) "expected object" data key path

def requireArray (heap : PyHeap) (data : Data) (key : String) (path : FieldPath) :
    Except RegistrationFailure (List PyValue) :=
  requireField invalidInfo (listItems? heap) "expected array" data key path

/-- `_require_string` without `nonempty`. -/
def requireString (data : Data) (key : String) (path : FieldPath) :
    Except RegistrationFailure Str :=
  requireField invalidInfo strOf "expected string" data key path

/-- `_require_string` with `nonempty=True`. -/
def requireNonempty (data : Data) (key : String) (path : FieldPath) :
    Except RegistrationFailure Str := do
  let value ← requireString data key path
  reject value.isBlank (invalidInfo (path ++ [.field key]) "expected non-empty string")
  return value

def optionalString (data : Data) (key : String) (path : FieldPath) :
    Except RegistrationFailure (Option Str) :=
  optionalField invalidInfo strOf "expected string" data key path

def requireInt (data : Data) (key : String) (path : FieldPath) : Except RegistrationFailure Int :=
  requireField invalidInfo intOf "expected integer" data key path

/-- What `_require_positive_number` makes of the field. -/
def positiveNumber (path : FieldPath) : Option PyValue → Except RegistrationFailure (BitVec 64)
  | none => .error (invalidInfo path "required field is missing")
  | some (.int value) =>
      match floatOfInt value with
      | none => .error .overflow
      | some number =>
          if floatNonPositive number then .error (invalidInfo path "expected positive number")
          else .ok number
  | some (.float number) =>
      if floatNonPositive number then .error (invalidInfo path "expected positive number")
      else .ok number
  | some _ => .error (invalidInfo path "expected number")

def requirePositiveNumber (data : Data) (key : String) : Except RegistrationFailure (BitVec 64) :=
  positiveNumber [.field key] (lookup data key)

def parseApplication (data : Data) : Except RegistrationFailure RegistrationApplicationInfo := do
  let path := [.field "application"]
  let language ← requireString data "language" path
  let platform ← requireString data "platform" path
  let platformVersion ← requireString data "platformVersion" path
  let version ← requireString data "version" path
  let font ← optionalString data "font" path
  return { language, platform, platformVersion, version, font }

def parseColors (data : Data) : Except RegistrationFailure RegistrationColors := do
  let path := [.field "colors"]
  let mouseOver ← optionalString data "buttonMouseOverBackgroundColor" path
  let background ← optionalString data "buttonPressedBackgroundColor" path
  let border ← optionalString data "buttonPressedBorderColor" path
  let text ← optionalString data "buttonPressedTextColor" path
  let highlight ← optionalString data "highlightColor" path
  return ⟨mouseOver, background, border, text, highlight⟩

/-- A round of the loop of `_parse_devices`. -/
def parseDevice (heap : PyHeap) (seenIds : List Str) (path : FieldPath) (value : PyValue) :
    Except RegistrationFailure RegistrationDeviceInfo :=
  match dictEntries? heap value with
  | none => .error (invalidInfo path "expected object")
  | some data => do
      let size ← requireObject heap data "size" path
      let columns ← requireInt size "columns" (path ++ [.field "size"])
      let rows ← requireInt size "rows" (path ++ [.field "size"])
      reject (decide (columns ≤ 0))
        (invalidInfo (path ++ [.field "size", .field "columns"]) "expected positive integer")
      reject (decide (rows ≤ 0))
        (invalidInfo (path ++ [.field "size", .field "rows"]) "expected positive integer")
      let deviceId ← requireNonempty data "id" path
      reject (seenIds.contains deviceId)
        (invalidInfo (path ++ [.field "id"]) "duplicate device identifier")
      let name ← requireString data "name" path
      let type ← requireInt data "type" path
      return { id := deviceId, name, type, size := { columns, rows } }

/-- `_parse_devices` from a device on. -/
def parseDevices (heap : PyHeap) (seenIds : List Str) (index : Nat) :
    List PyValue → Except RegistrationFailure (List RegistrationDeviceInfo)
  | [] => .ok []
  | value :: rest => do
      let device ← parseDevice heap seenIds [.field "devices", .index index] value
      let devices ← parseDevices heap (device.id :: seenIds) (index + 1) rest
      return device :: devices

def parsePlugin (data : Data) : Except RegistrationFailure RegistrationPluginInfo := do
  let path := [.field "plugin"]
  let uuid ← requireNonempty data "uuid" path
  let version ← requireString data "version" path
  return { uuid, version }

/-- The arguments of the constructor call in `parse_registration_info`. -/
def parseSections (heap : PyHeap) (data : Data) : Except RegistrationFailure RegistrationInfo := do
  let application ← requireObject heap data "application" []
  let application ← parseApplication application
  let colors ← requireObject heap data "colors" []
  let colors ← parseColors colors
  let devicePixelRatio ← requirePositiveNumber data "devicePixelRatio"
  let devices ← requireArray heap data "devices" []
  let devices ← parseDevices heap [] 0 devices
  let plugin ← requireObject heap data "plugin" []
  let plugin ← parsePlugin plugin
  return { application, colors, devicePixelRatio, devices, plugin }

/-- `parse_registration_info` -/
def parseRegistrationInfo (heap : PyHeap) (value : PyValue) :
    Except RegistrationFailure RegistrationInfo :=
  if !isJsonValue heap value then .error (invalidInfo [] "value contains non-JSON data")
  else match dictEntries? heap value with
    | none => .error (invalidInfo [] "expected registration info object")
    | some data => parseSections heap data

end Registration

end StreamDockSdk
