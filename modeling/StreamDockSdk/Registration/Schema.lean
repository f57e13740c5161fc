import Mathlib.Tactic.NormNum
import Mathlib.Tactic.Ring
import StreamDockSdk.Registration

namespace StreamDockSdk

theorem roundHalfEven_le (magnitude shift : Nat) :
    roundHalfEven magnitude shift ≤ magnitude / 2 ^ shift + 1 := by
  unfold roundHalfEven
  dsimp only
  split <;> omega

theorem le_roundHalfEven (magnitude shift : Nat) :
    magnitude / 2 ^ shift ≤ roundHalfEven magnitude shift := by
  unfold roundHalfEven
  dsimp only
  split <;> omega

/-- Rounding to an odd bound and one more takes the upper half of the interval. -/
theorem roundHalfEven_ge {magnitude shift bound : Nat} (odd : bound % 2 = 1)
    (below : magnitude / 2 ^ shift ≤ bound) :
    bound + 1 ≤ roundHalfEven magnitude shift ↔
      2 * bound * 2 ^ shift + 2 ^ shift ≤ 2 * magnitude := by
  have division := Nat.div_add_mod magnitude (2 ^ shift)
  have rest := Nat.mod_lt magnitude (Nat.two_pow_pos shift)
  unfold roundHalfEven
  dsimp only
  generalize 2 ^ shift = unit at *
  generalize magnitude / unit = quotient at *
  generalize magnitude % unit = remainder at *
  rcases Nat.lt_or_eq_of_le below with smaller | rfl
  · have scaled : unit * quotient + unit ≤ unit * bound := by
      rw [← Nat.mul_succ]
      exact Nat.mul_le_mul_left unit smaller
    have double : 2 * bound * unit = 2 * (unit * bound) := by ring
    constructor
    · intro above
      split at above <;> omega
    · intro above
      omega
  · have double : 2 * quotient * unit = 2 * (unit * quotient) := by ring
    split
    · next upper => exact ⟨fun _ => by omega, fun _ => Nat.le_refl _⟩
    · next lower => exact ⟨fun _ => by omega, fun _ => by omega⟩

/-- The significand of a number below the powers of two around it. -/
theorem significand_bounds {magnitude exponent : Nat} (lower : 2 ^ exponent ≤ magnitude)
    (upper : magnitude < 2 ^ (exponent + 1)) :
    2 ^ 52 ≤ (if exponent ≤ 52 then magnitude * 2 ^ (52 - exponent)
      else roundHalfEven magnitude (exponent - 52)) ∧
    (if exponent ≤ 52 then magnitude * 2 ^ (52 - exponent)
      else roundHalfEven magnitude (exponent - 52)) ≤ 2 ^ 53 := by
  split
  · next small =>
    have scale : 2 ^ exponent * 2 ^ (52 - exponent) = 2 ^ 52 := by
      rw [← Nat.pow_add, Nat.add_sub_cancel' small]
    have double : 2 ^ (exponent + 1) * 2 ^ (52 - exponent) = 2 ^ 53 := by
      rw [← Nat.pow_add]
      congr 1
      omega
    rw [← scale, ← double]
    exact ⟨Nat.mul_le_mul_right _ lower, Nat.mul_le_mul_right _ upper.le⟩
  · next large =>
    have scale : 2 ^ 52 * 2 ^ (exponent - 52) = 2 ^ exponent := by
      rw [← Nat.pow_add]
      congr 1
      omega
    have double : 2 ^ 53 * 2 ^ (exponent - 52) = 2 ^ (exponent + 1) := by
      rw [← Nat.pow_add]
      congr 1
      omega
    have least : 2 ^ 52 ≤ magnitude / 2 ^ (exponent - 52) := by
      rw [Nat.le_div_iff_mul_le (Nat.two_pow_pos _), scale]
      exact lower
    have most : magnitude / 2 ^ (exponent - 52) < 2 ^ 53 := by
      rw [Nat.div_lt_iff_lt_mul (Nat.two_pow_pos _), double]
      exact upper
    exact ⟨least.trans (le_roundHalfEven _ _), (roundHalfEven_le _ _).trans most⟩

/-- A significand rounds up to the next power of two from the middle on. -/
theorem roundHalfEven_top {magnitude steps : Nat} (upper : magnitude < 2 ^ (steps + 53 + 1)) :
    2 ^ 53 ≤ roundHalfEven magnitude (steps + 1) ↔ 2 ^ 54 * 2 ^ steps - 2 ^ steps ≤ magnitude := by
  have top : 2 ^ (steps + 53 + 1) = 2 ^ 54 * 2 ^ steps := by ring
  have next : 2 ^ (steps + 1) = 2 * 2 ^ steps := by ring
  have below : magnitude / 2 ^ (steps + 1) ≤ 2 ^ 53 - 1 := by
    refine Nat.le_of_lt_succ ((Nat.div_lt_iff_lt_mul (Nat.two_pow_pos _)).mpr ?_)
    rw [next]
    omega
  have rounds := roundHalfEven_ge (by norm_num) below
  rw [next] at rounds
  omega

/-- `float` overflows from the middle between the largest double and the next power of two. -/
theorem doubleOfNat_eq_none {magnitude : Nat} :
    doubleOfNat magnitude = none ↔ 2 ^ 1024 - 2 ^ 970 ≤ magnitude := by
  have isOver : (2 : Nat) ^ 1024 - 2 ^ 970 = 2 ^ 54 * 2 ^ 970 - 2 ^ 970 := by rw [← Nat.pow_add]
  obtain ⟨steps, same⟩ : ∃ steps, steps = 970 := ⟨_, rfl⟩
  rw [isOver, ← same]
  clear isOver
  unfold doubleOfNat
  by_cases zero : magnitude = 0
  · have positive := Nat.two_pow_pos steps
    rw [if_pos zero, zero]
    exact ⟨by simp, fun none => by omega⟩
  rw [if_neg zero]
  dsimp only
  have lower := Nat.pow_log_le_self 2 zero
  have upper := Nat.lt_pow_succ_log_self (b := 2) (by decide) magnitude
  generalize Nat.log 2 magnitude = exponent at *
  obtain ⟨least, most⟩ := significand_bounds lower upper
  rcases Nat.lt_trichotomy exponent (steps + 53) with below | rfl | above
  · have bound : 2 ^ (exponent + 1) ≤ 2 ^ 53 * 2 ^ steps := by
      rw [← Nat.pow_add]
      exact Nat.pow_le_pow_right (by decide) (by omega)
    have small := upper.trans_le bound
    rw [if_neg (by omega)]
    exact ⟨by simp, fun huge => by omega⟩
  · have large : ¬ steps + 53 ≤ 52 := by omega
    rw [← roundHalfEven_top upper]
    rw [if_neg large, show steps + 53 - 52 = steps + 1 by omega] at least most ⊢
    split
    · next above => exact ⟨fun _ => by omega, fun _ => rfl⟩
    · next within => exact ⟨by simp, fun huge => by omega⟩
  · have huge : 2 ^ 54 * 2 ^ steps ≤ 2 ^ exponent := by
      rw [← Nat.pow_add]
      exact Nat.pow_le_pow_right (by decide) (by omega)
    rw [if_pos (by omega)]
    exact ⟨fun _ => ((Nat.sub_le _ _).trans huge).trans lower, fun _ => rfl⟩

theorem floatOfInt_eq_none {value : Int} :
    floatOfInt value = none ↔ 2 ^ 1024 - 2 ^ 970 ≤ value.natAbs := by
  rw [floatOfInt, Option.map_eq_none_iff, doubleOfNat_eq_none]

namespace Registration

variable {heap : PyHeap} {root : PyValue} {data : Data} {path : FieldPath}

def objectRule (path : FieldPath) : FieldRule RegistrationFailure :=
  requiredRule invalidInfo dictEntries? "expected object" path

def arrayRule (path : FieldPath) : FieldRule RegistrationFailure :=
  requiredRule invalidInfo listItems? "expected array" path

def stringRule (path : FieldPath) : FieldRule RegistrationFailure :=
  requiredRule invalidInfo (fun _ => strOf) "expected string" path

def optionalStringRule (path : FieldPath) : FieldRule RegistrationFailure :=
  optionalRule invalidInfo (fun _ => strOf) "expected string" path

def intRule (path : FieldPath) : FieldRule RegistrationFailure :=
  requiredRule invalidInfo (fun _ => intOf) "expected integer" path

def nonemptyRule (path : FieldPath) : FieldRule RegistrationFailure where
  path
  failure heap root := ((fieldAt heap root path).bind strOf).bind fun text =>
    if text.isBlank then some (invalidInfo path "expected non-empty string") else none

def positiveRule (path : FieldPath) : FieldRule RegistrationFailure where
  path
  failure heap root := ((fieldAt heap root path).bind intOf).bind fun number =>
    if number ≤ 0 then some (invalidInfo path "expected positive integer") else none

def ratioPath : FieldPath := [.field "devicePixelRatio"]

def ratioRule : FieldRule RegistrationFailure where
  path := ratioPath
  failure heap root :=
    match positiveNumber ratioPath (fieldAt heap root ratioPath) with
    | .error error => some error
    | .ok _ => none

def devicePath (index : Nat) (more : FieldPath) : FieldPath :=
  .field "devices" :: .index index :: more

/-- No earlier device has the identifier. -/
def uniqueRule (index : Nat) : FieldRule RegistrationFailure where
  path := devicePath index [.field "id"]
  failure heap root :=
    if (List.range index).any fun earlier =>
      (fieldAt heap root (devicePath earlier [.field "id"])).isSome &&
        decide (fieldAt heap root (devicePath earlier [.field "id"]) =
          fieldAt heap root (devicePath index [.field "id"]))
    then some (invalidInfo (devicePath index [.field "id"]) "duplicate device identifier")
    else none

def deviceRules (index : Nat) : List (FieldRule RegistrationFailure) :=
  [optionalRule invalidInfo dictEntries? "expected object" (devicePath index []),
    objectRule (devicePath index [.field "size"]),
    intRule (devicePath index [.field "size", .field "columns"]),
    intRule (devicePath index [.field "size", .field "rows"]),
    positiveRule (devicePath index [.field "size", .field "columns"]),
    positiveRule (devicePath index [.field "size", .field "rows"]),
    stringRule (devicePath index [.field "id"]),
    nonemptyRule (devicePath index [.field "id"]),
    uniqueRule index,
    stringRule (devicePath index [.field "name"]),
    intRule (devicePath index [.field "type"])]

def applicationRules : List (FieldRule RegistrationFailure) :=
  [stringRule [.field "application", .field "language"],
    stringRule [.field "application", .field "platform"],
    stringRule [.field "application", .field "platformVersion"],
    stringRule [.field "application", .field "version"],
    optionalStringRule [.field "application", .field "font"]]

def colorRules : List (FieldRule RegistrationFailure) :=
  [optionalStringRule [.field "colors", .field "buttonMouseOverBackgroundColor"],
    optionalStringRule [.field "colors", .field "buttonPressedBackgroundColor"],
    optionalStringRule [.field "colors", .field "buttonPressedBorderColor"],
    optionalStringRule [.field "colors", .field "buttonPressedTextColor"],
    optionalStringRule [.field "colors", .field "highlightColor"]]

def pluginRules : List (FieldRule RegistrationFailure) :=
  [stringRule [.field "plugin", .field "uuid"], nonemptyRule [.field "plugin", .field "uuid"],
    stringRule [.field "plugin", .field "version"]]

/-- The two tests of the whole value. -/
def rootRules : List (FieldRule RegistrationFailure) :=
  [{ path := []
     failure := fun heap root =>
      if isJsonValue heap root then none
      else some (invalidInfo [] "value contains non-JSON data") },
    { path := []
      failure := fun heap root =>
        if (dictEntries? heap root).isSome then none
        else some (invalidInfo [] "expected registration info object") }]

/-- What stands before the pixel ratio. -/
def leadingRules : List (FieldRule RegistrationFailure) :=
  rootRules ++ (objectRule [.field "application"] :: applicationRules) ++
    objectRule [.field "colors"] :: colorRules

def deviceCount (heap : PyHeap) (root : PyValue) : Nat :=
  (((fieldAt heap root [.field "devices"]).bind (listItems? heap)).getD []).length

/-- The devices and the plugin. -/
def trailingRules (heap : PyHeap) (root : PyValue) : List (FieldRule RegistrationFailure) :=
  arrayRule [.field "devices"] :: (List.range (deviceCount heap root)).flatMap deviceRules ++
    objectRule [.field "plugin"] :: pluginRules

/-- The schema, in the order in which the parser goes by it. -/
def schema (heap : PyHeap) (root : PyValue) : List (FieldRule RegistrationFailure) :=
  leadingRules ++ ratioRule :: trailingRules heap root

theorem requireObject_checks (located : DataAt heap root path data) (key : String) :
    Checks heap root [objectRule (path ++ [.field key])] (requireObject heap data key path)
      (DataAt heap root (path ++ [.field key])) :=
  requireField_checks located invalidInfo dictEntries? "expected object" key

theorem requireArray_checks (located : DataAt heap root path data) (key : String) :
    Checks heap root [arrayRule (path ++ [.field key])] (requireArray heap data key path)
      fun items => (fieldAt heap root (path ++ [.field key])).bind (listItems? heap) = some items :=
  requireField_checks located invalidInfo listItems? "expected array" key

theorem requireString_checks (located : DataAt heap root path data) (key : String) :
    Checks heap root [stringRule (path ++ [.field key])] (requireString data key path)
      fun text => fieldAt heap root (path ++ [.field key]) = some (.str text) :=
  (requireField_checks located invalidInfo (fun _ => strOf) "expected string" key).imp
    fun _ => bind_strOf.mp

theorem optionalString_checks (located : DataAt heap root path data) (key : String) :
    Checks heap root [optionalStringRule (path ++ [.field key])] (optionalString data key path)
      fun text => fieldAt heap root (path ++ [.field key]) = text.map .str :=
  (optionalField_checks located invalidInfo (fun _ => strOf) "expected string" key).imp
    fun _ => map_strOf.mp

theorem requireInt_checks (located : DataAt heap root path data) (key : String) :
    Checks heap root [intRule (path ++ [.field key])] (requireInt data key path)
      fun number => fieldAt heap root (path ++ [.field key]) = some (.int number) :=
  (requireField_checks located invalidInfo (fun _ => intOf) "expected integer" key).imp
    fun _ => bind_intOf.mp

theorem requireNonempty_checks (located : DataAt heap root path data) (key : String) :
    Checks heap root
      [stringRule (path ++ [.field key]), nonemptyRule (path ++ [.field key])]
      (requireNonempty data key path)
      fun text => fieldAt heap root (path ++ [.field key]) = some (.str text) ∧
        text.isBlank = false := by
  refine .read (requireString_checks located key) fun text found => ?_
  refine .read (reject_checks ?_) fun _ filled => .pure ⟨found, filled⟩
  simp only [nonemptyRule, found, Option.bind_some, strOf]

theorem requirePositiveNumber_checks (located : DataAt heap root [] data) :
    Checks heap root [ratioRule] (requirePositiveNumber data "devicePixelRatio")
      fun number => positiveNumber ratioPath (fieldAt heap root ratioPath) = .ok number := by
  unfold requirePositiveNumber
  rw [located.lookup]
  change Checks heap root [ratioRule] (positiveNumber ratioPath (fieldAt heap root ratioPath)) _
  cases parsed : positiveNumber ratioPath (fieldAt heap root ratioPath) <;>
    simp [Checks, firstFailure, ratioRule, parsed]

/-- The fields of a section, with what stands at their paths. -/
abbrev Named := List (FieldPath × Option PyValue)

def applicationFields (info : RegistrationApplicationInfo) : Named :=
  [([.field "application", .field "language"], some (.str info.language)),
    ([.field "application", .field "platform"], some (.str info.platform)),
    ([.field "application", .field "platformVersion"], some (.str info.platformVersion)),
    ([.field "application", .field "version"], some (.str info.version)),
    ([.field "application", .field "font"], info.font.map .str)]

def colorFields (colors : RegistrationColors) : Named :=
  [([.field "colors", .field "buttonMouseOverBackgroundColor"],
      colors.buttonMouseOverBackgroundColor.map .str),
    ([.field "colors", .field "buttonPressedBackgroundColor"],
      colors.buttonPressedBackgroundColor.map .str),
    ([.field "colors", .field "buttonPressedBorderColor"],
      colors.buttonPressedBorderColor.map .str),
    ([.field "colors", .field "buttonPressedTextColor"], colors.buttonPressedTextColor.map .str),
    ([.field "colors", .field "highlightColor"], colors.highlightColor.map .str)]

def deviceFields (index : Nat) (device : RegistrationDeviceInfo) : Named :=
  [(devicePath index [.field "id"], some (.str device.id)),
    (devicePath index [.field "name"], some (.str device.name)),
    (devicePath index [.field "type"], some (.int device.type)),
    (devicePath index [.field "size", .field "columns"], some (.int device.size.columns)),
    (devicePath index [.field "size", .field "rows"], some (.int device.size.rows))]

def pluginFields (plugin : RegistrationPluginInfo) : Named :=
  [([.field "plugin", .field "uuid"], some (.str plugin.uuid)),
    ([.field "plugin", .field "version"], some (.str plugin.version))]

/-- The fields are what stands at their paths. -/
def Matches (heap : PyHeap) (root : PyValue) (fields : Named) : Prop :=
  ∀ field ∈ fields, fieldAt heap root field.1 = field.2

theorem parseApplication_checks (located : DataAt heap root [.field "application"] data) :
    Checks heap root applicationRules (parseApplication data)
      fun info => Matches heap root (applicationFields info) := by
  refine .read (requireString_checks located "language") fun language first => ?_
  refine .read (requireString_checks located "platform") fun platform second => ?_
  refine .read (requireString_checks located "platformVersion") fun platformVersion third => ?_
  refine .read (requireString_checks located "version") fun version fourth => ?_
  refine .read (optionalString_checks located "font") fun font fifth => .pure ?_
  simp only [Matches, applicationFields, List.forall_mem_cons]
  exact ⟨first, second, third, fourth, fifth, nofun⟩

theorem parseColors_checks (located : DataAt heap root [.field "colors"] data) :
    Checks heap root colorRules (parseColors data)
      fun colors => Matches heap root (colorFields colors) := by
  refine .read (optionalString_checks located _) fun mouseOver first => ?_
  refine .read (optionalString_checks located _) fun background second => ?_
  refine .read (optionalString_checks located _) fun border third => ?_
  refine .read (optionalString_checks located _) fun text fourth => ?_
  refine .read (optionalString_checks located _) fun highlight fifth => .pure ?_
  simp only [Matches, colorFields, List.forall_mem_cons]
  exact ⟨first, second, third, fourth, fifth, nofun⟩

theorem parsePlugin_checks (located : DataAt heap root [.field "plugin"] data) :
    Checks heap root pluginRules (parsePlugin data)
      fun plugin => Matches heap root (pluginFields plugin) ∧ plugin.uuid.isBlank = false := by
  refine .bind (requireNonempty_checks located "uuid") fun uuid first => ?_
  refine .read (requireString_checks located "version") fun version second => .pure ⟨?_, first.2⟩
  simp only [Matches, pluginFields, List.forall_mem_cons]
  exact ⟨first.1, second, nofun⟩

/-- The device is what the list holds at the index, and has an identifier of its own. -/
structure DeviceAt (heap : PyHeap) (root : PyValue) (index : Nat)
    (device : RegistrationDeviceInfo) : Prop where
  fields : Matches heap root (deviceFields index device)
  positive : 0 < device.size.columns ∧ 0 < device.size.rows
  filled : device.id.isBlank = false
  unseen : ∀ earlier < index,
    fieldAt heap root (devicePath earlier [.field "id"]) ≠ some (.str device.id)

theorem DeviceAt.id {index : Nat} {device : RegistrationDeviceInfo}
    (located : DeviceAt heap root index device) :
    fieldAt heap root (devicePath index [.field "id"]) = some (.str device.id) :=
  located.fields _ List.mem_cons_self

/-- `seen_ids` before the device at the index. -/
def Seen (heap : PyHeap) (root : PyValue) (index : Nat) (seenIds : List Str) : Prop :=
  ∀ deviceId, deviceId ∈ seenIds ↔
    ∃ earlier < index, fieldAt heap root (devicePath earlier [.field "id"]) = some (.str deviceId)

theorem uniqueRule_failure {index : Nat} {seenIds : List Str} {deviceId : Str}
    (seen : Seen heap root index seenIds)
    (found : fieldAt heap root (devicePath index [.field "id"]) = some (.str deviceId)) :
    (uniqueRule index).failure heap root =
      if seenIds.contains deviceId then
        some (invalidInfo (devicePath index [.field "id"]) "duplicate device identifier")
      else none := by
  simp only [uniqueRule, found]
  congr 1
  rw [eq_iff_iff, List.any_eq_true, List.contains_iff_mem, seen]
  refine exists_congr fun earlier => and_congr List.mem_range ?_
  rw [Bool.and_eq_true, decide_eq_true_eq]
  exact ⟨fun same => same.2, fun same => ⟨by rw [same]; rfl, same⟩⟩

theorem positiveRule_failure {number : Int} (found : fieldAt heap root path = some (.int number)) :
    (positiveRule path).failure heap root =
      if decide (number ≤ 0) then some (invalidInfo path "expected positive integer") else none := by
  simp only [positiveRule, found, Option.bind_some, intOf, decide_eq_true_eq]

theorem parseDevice_checks {index : Nat} {seenIds : List Str} {value : PyValue}
    (seen : Seen heap root index seenIds)
    (found : fieldAt heap root (devicePath index []) = some value) :
    Checks heap root (deviceRules index)
      (parseDevice heap seenIds [.field "devices", .index index] value)
      (DeviceAt heap root index) := by
  unfold parseDevice
  cases entries : dictEntries? heap value with
  | none =>
      refine .refuse ?_
      simp only [optionalRule, found, Option.bind_some, entries]
      rfl
  | some data =>
      have located : DataAt heap root (devicePath index []) data := by
        rw [DataAt, found]
        exact entries
      refine .skip (by simp only [optionalRule, found, Option.bind_some, entries]; rfl) ?_
      refine .read (requireObject_checks located "size") fun size sizeAt => ?_
      refine .read (requireInt_checks sizeAt "columns") fun columns columnsAt => ?_
      refine .read (requireInt_checks sizeAt "rows") fun rows rowsAt => ?_
      refine .read (reject_checks (positiveRule_failure columnsAt)) fun _ wide => ?_
      refine .read (reject_checks (positiveRule_failure rowsAt)) fun _ high => ?_
      refine .bind (requireNonempty_checks located "id") fun deviceId idAt => ?_
      refine .read (reject_checks (uniqueRule_failure seen idAt.1)) fun _ unseen => ?_
      refine .read (requireString_checks located "name") fun name nameAt => ?_
      refine .read (requireInt_checks located "type") fun type typeAt => .pure ?_
      refine ⟨?_, ⟨by simpa using wide, by simpa using high⟩, idAt.2, fun earlier before same => ?_⟩
      · simp only [Matches, deviceFields, List.forall_mem_cons]
        exact ⟨idAt.1, nameAt, typeAt, columnsAt, rowsAt, by simp⟩
      · have known := (seen deviceId).mpr ⟨earlier, before, same⟩
        rw [← List.contains_iff_mem, unseen] at known
        contradiction

theorem Seen.next {index : Nat} {seenIds : List Str} {device : RegistrationDeviceInfo}
    (seen : Seen heap root index seenIds) (located : DeviceAt heap root index device) :
    Seen heap root (index + 1) (device.id :: seenIds) := by
  intro deviceId
  rw [List.mem_cons, seen]
  constructor
  · rintro (rfl | ⟨earlier, before, same⟩)
    · exact ⟨index, Nat.lt_succ_self index, located.id⟩
    · exact ⟨earlier, Nat.lt_succ_of_lt before, same⟩
  · rintro ⟨earlier, before, same⟩
    rcases Nat.lt_succ_iff_lt_or_eq.mp before with before | rfl
    · exact .inr ⟨earlier, before, same⟩
    · rw [located.id] at same
      cases same
      exact .inl rfl

/-- The loop from the device at the index on. -/
theorem parseDevices_checks {items rest : List PyValue}
    (all : (fieldAt heap root [.field "devices"]).bind (listItems? heap) = some items) :
    ∀ {index : Nat} {seenIds : List Str}, items.drop index = rest → Seen heap root index seenIds →
      Checks heap root ((List.range' index rest.length).flatMap deviceRules)
        (parseDevices heap seenIds index rest) fun devices =>
          devices.length = rest.length ∧ ∀ place device, devices[place]? = some device →
            DeviceAt heap root (index + place) device := by
  induction rest with
  | nil =>
      intro index seenIds drained seen
      exact .pure ⟨rfl, fun _ _ => nofun⟩
  | cons value rest ih =>
      intro index seenIds remaining seen
      have within : items[index]? = some value := by
        have head := congrArg (·[0]?) remaining
        simpa using head
      have found : fieldAt heap root (devicePath index []) = some value := by
        have path : devicePath index [] = [.field "devices"] ++ [.index index] := rfl
        rw [path, fieldAt_append]
        cases listed : fieldAt heap root [.field "devices"] with
        | none => simp [listed] at all
        | some list =>
            rw [listed, Option.bind_some] at all
            simp only [Option.bind_some, fieldAt, componentAt, all, within]
      have later : items.drop (index + 1) = rest := by
        rw [← List.drop_drop, remaining]
        rfl
      rw [List.length_cons, List.range'_succ, List.flatMap_cons]
      refine .bind (parseDevice_checks seen found) fun device located => ?_
      rw [← List.append_nil (List.flatMap _ _)]
      refine .bind (ih later (seen.next located)) fun devices parsed => .pure ⟨?_, ?_⟩
      · exact congrArg (· + 1) parsed.1
      · intro place other at_
        cases place with
        | zero =>
            cases at_
            exact located
        | succ place =>
            have other := parsed.2 place other at_
            rwa [Nat.add_assoc, Nat.add_comm 1 place] at other

/-- The fields of the result are the named fields of the value. -/
structure Registers (heap : PyHeap) (root : PyValue) (info : RegistrationInfo) : Prop where
  application : Matches heap root (applicationFields info.application)
  colors : Matches heap root (colorFields info.colors)
  ratio : fieldAt heap root ratioPath = some (.float info.devicePixelRatio) ∨
    ∃ number, fieldAt heap root ratioPath = some (.int number) ∧
      floatOfInt number = some info.devicePixelRatio
  positive : floatNonPositive info.devicePixelRatio = false
  count : ∃ items, (fieldAt heap root [.field "devices"]).bind (listItems? heap) = some items ∧
    items.length = info.devices.length
  devices : ∀ index device, info.devices[index]? = some device → DeviceAt heap root index device
  distinct : (info.devices.map (·.id)).Nodup
  plugin : Matches heap root (pluginFields info.plugin)
  identified : info.plugin.uuid.isBlank = false

theorem positiveNumber_ok {found : Option PyValue} {number : BitVec 64}
    (parsed : positiveNumber path found = .ok number) :
    (found = some (.float number) ∨
      ∃ value, found = some (.int value) ∧ floatOfInt value = some number) ∧
    floatNonPositive number = false := by
  unfold positiveNumber at parsed
  split at parsed
  · contradiction
  · next value =>
    split at parsed
    · contradiction
    · next converted =>
      split at parsed
      · contradiction
      · next positive =>
        cases parsed
        exact ⟨.inr ⟨value, rfl, converted⟩, by simpa using positive⟩
  · split at parsed
    · contradiction
    · next positive =>
      cases parsed
      exact ⟨.inl rfl, by simpa using positive⟩
  · contradiction

theorem distinct_ids {devices : List RegistrationDeviceInfo}
    (located : ∀ index device, devices[index]? = some device → DeviceAt heap root index device) :
    (devices.map (·.id)).Nodup := by
  refine List.pairwise_iff_getElem.mpr fun first second inFirst inSecond before same => ?_
  simp only [List.length_map] at inFirst inSecond
  simp only [List.getElem_map] at same
  have earlier := located first _ (List.getElem?_eq_getElem inFirst)
  have later := located second _ (List.getElem?_eq_getElem inSecond)
  exact later.unseen first before (same ▸ earlier.id)

theorem parseSections_checks (located : DataAt heap root [] data) :
    Checks heap root
      ((objectRule [.field "application"] :: applicationRules) ++
        ((objectRule [.field "colors"] :: colorRules) ++ (ratioRule :: trailingRules heap root)))
      (parseSections heap data) (Registers heap root) := by
  refine .read (requireObject_checks located "application") fun _ applicationAt => ?_
  refine .bind (parseApplication_checks applicationAt) fun application named => ?_
  refine .read (requireObject_checks located "colors") fun _ colorsAt => ?_
  refine .bind (parseColors_checks colorsAt) fun colors themed => ?_
  refine .read (requirePositiveNumber_checks located) fun ratio numbered => ?_
  refine .read (requireArray_checks located "devices") fun items listed => ?_
  have count : deviceCount heap root = items.length := by
    unfold deviceCount
    rw [show (fieldAt heap root [.field "devices"]).bind (listItems? heap) = some items from listed]
    rfl
  rw [count, List.range_eq_range']
  refine .bind (parseDevices_checks listed rfl fun _ => ⟨nofun, fun ⟨_, before, _⟩ => by omega⟩)
    fun devices parsed => ?_
  refine .read (requireObject_checks located "plugin") fun _ pluginAt => ?_
  rw [← List.append_nil pluginRules]
  refine .bind (parsePlugin_checks pluginAt) fun plugin identified => .pure ?_
  obtain ⟨number, positive⟩ := positiveNumber_ok numbered
  have each : ∀ index device, devices[index]? = some device → DeviceAt heap root index device :=
    fun index device found => by simpa using parsed.2 index device found
  exact ⟨named, themed, number, positive, ⟨items, listed, parsed.1.symm⟩, each, distinct_ids each,
    identified.1, identified.2⟩

theorem parseRegistrationInfo_checks (heap : PyHeap) (root : PyValue) :
    Checks heap root (schema heap root) (parseRegistrationInfo heap root)
      (Registers heap root) := by
  unfold parseRegistrationInfo schema leadingRules rootRules
  simp only [List.append_assoc, List.cons_append, List.nil_append]
  cases accepted : isJsonValue heap root with
  | false => exact .refuse (by simp only [accepted]; rfl)
  | true =>
      refine .skip (by simp only [accepted]; rfl) ?_
      cases entries : dictEntries? heap root with
      | none => exact .refuse (by simp only [entries]; rfl)
      | some data =>
          refine .skip (by simp only [entries]; rfl) ?_
          exact parseSections_checks entries

/-- The rule raises no other error than one that names its field. -/
def Names (rule : FieldRule RegistrationFailure) : Prop :=
  ∀ heap root error, rule.failure heap root = some error →
    ∃ reason, error = invalidInfo rule.path reason

theorem requiredRule_names {α : Type} (narrow : PyHeap → PyValue → Option α) (expected : String)
    (path : FieldPath) : Names (requiredRule invalidInfo narrow expected path) := by
  intro heap root error raised
  simp only [requiredRule, requiredFailure] at raised
  split at raised
  · cases raised
    exact ⟨_, rfl⟩
  · split at raised
    · contradiction
    · cases raised
      exact ⟨_, rfl⟩

theorem optionalRule_names {α : Type} (narrow : PyHeap → PyValue → Option α) (expected : String)
    (path : FieldPath) : Names (optionalRule invalidInfo narrow expected path) := by
  intro heap root error raised
  simp only [optionalRule, Option.bind_eq_some_iff] at raised
  obtain ⟨value, -, raised⟩ := raised
  split at raised
  · contradiction
  · cases raised
    exact ⟨_, rfl⟩

theorem nonemptyRule_names (path : FieldPath) : Names (nonemptyRule path) := by
  intro heap root error raised
  simp only [nonemptyRule, Option.bind_eq_some_iff] at raised
  obtain ⟨text, -, raised⟩ := raised
  split at raised
  · cases raised
    exact ⟨_, rfl⟩
  · contradiction

theorem positiveRule_names (path : FieldPath) : Names (positiveRule path) := by
  intro heap root error raised
  simp only [positiveRule, Option.bind_eq_some_iff] at raised
  obtain ⟨number, -, raised⟩ := raised
  split at raised
  · cases raised
    exact ⟨_, rfl⟩
  · contradiction

theorem uniqueRule_names (index : Nat) : Names (uniqueRule index) := by
  intro heap root error raised
  simp only [uniqueRule] at raised
  split at raised
  · cases raised
    exact ⟨_, rfl⟩
  · contradiction

theorem leadingRules_names : ∀ rule ∈ leadingRules, Names rule := by
  simp only [leadingRules, rootRules, applicationRules, colorRules, List.cons_append,
    List.nil_append, List.forall_mem_cons, objectRule, stringRule, optionalStringRule]
  refine ⟨?_, ?_, ?_⟩
  · intro heap root error raised
    dsimp only at raised
    split at raised
    · contradiction
    · cases raised
      exact ⟨_, rfl⟩
  · intro heap root error raised
    dsimp only at raised
    split at raised
    · contradiction
    · cases raised
      exact ⟨_, rfl⟩
  · simp only [requiredRule_names, optionalRule_names, true_and, List.not_mem_nil, false_imp_iff,
      implies_true]

theorem deviceRules_names (index : Nat) : ∀ rule ∈ deviceRules index, Names rule := by
  simp only [deviceRules, List.forall_mem_cons, objectRule, stringRule, intRule]
  simp only [requiredRule_names, optionalRule_names, positiveRule_names, nonemptyRule_names,
    uniqueRule_names, true_and, List.not_mem_nil, false_imp_iff, implies_true]

theorem trailingRules_names : ∀ rule ∈ trailingRules heap root, Names rule := by
  intro rule member
  simp only [trailingRules, pluginRules, List.cons_append, List.mem_cons, List.mem_append,
    List.mem_flatMap, List.not_mem_nil, or_false] at member
  rcases member with rfl | ⟨index, -, member⟩ | rfl | rfl | rfl | rfl
  · exact requiredRule_names _ _ _
  · exact deviceRules_names index rule member
  · exact requiredRule_names _ _ _
  · exact requiredRule_names _ _ _
  · exact nonemptyRule_names _
  · exact requiredRule_names _ _ _

theorem positiveNumber_cases (path : FieldPath) (found : Option PyValue) :
    (∃ reason, positiveNumber path found = .error (invalidInfo path reason)) ∨
      (∃ number, positiveNumber path found = .ok number) ∨
      positiveNumber path found = .error .overflow ∧ ∃ number,
        found = some (.int number) ∧ floatOfInt number = none := by
  unfold positiveNumber
  split
  · exact .inl ⟨_, rfl⟩
  · next number =>
    split
    · next overflows => exact .inr (.inr ⟨rfl, number, rfl, overflows⟩)
    · split
      · exact .inl ⟨_, rfl⟩
      · exact .inr (.inl ⟨_, rfl⟩)
  · split
    · exact .inl ⟨_, rfl⟩
    · exact .inr (.inl ⟨_, rfl⟩)
  · exact .inl ⟨_, rfl⟩

theorem ratioRule_failure :
    (∃ reason, ratioRule.failure heap root = some (invalidInfo ratioPath reason)) ∨
      ratioRule.failure heap root = none ∨
      ratioRule.failure heap root = some .overflow ∧ ∃ number,
        fieldAt heap root ratioPath = some (.int number) ∧ floatOfInt number = none := by
  simp only [ratioRule]
  rcases positiveNumber_cases ratioPath (fieldAt heap root ratioPath) with
    ⟨reason, same⟩ | ⟨number, same⟩ | ⟨same, overflows⟩
  · exact .inl ⟨reason, by rw [same]⟩
  · exact .inr (.inl (by rw [same]))
  · exact .inr (.inr ⟨by rw [same], overflows⟩)

/-- The value follows the schema up to the pixel ratio, which is an integer that no double
stands for. -/
def Overflows (heap : PyHeap) (root : PyValue) : Prop :=
  (∀ rule ∈ leadingRules, rule.failure heap root = none) ∧
    ∃ number, fieldAt heap root ratioPath = some (.int number) ∧
      2 ^ 1024 - 2 ^ 970 ≤ number.natAbs

/-- The parser returns what the value says, or raises its own error with the path of a field
that the schema refuses. -/
def MeetsContract (heap : PyHeap) (root : PyValue) : Prop :=
  match parseRegistrationInfo heap root with
  | .ok info => Registers heap root info
  | .error (.invalid error) => ∃ rule ∈ schema heap root,
      rule.path = error.path ∧ rule.failure heap root = some (.invalid error)
  | .error .overflow => False

theorem parse_overflow (overflows : Overflows heap root) :
    parseRegistrationInfo heap root = .error .overflow := by
  obtain ⟨leading, number, found, huge⟩ := overflows
  have checks := parseRegistrationInfo_checks heap root
  have refused : ratioRule.failure heap root = some .overflow := by
    simp only [ratioRule, found, positiveNumber, floatOfInt_eq_none.mpr huge]
  have first : firstFailure heap root (schema heap root) = some .overflow := by
    unfold firstFailure schema
    rw [List.findSome?_append, List.findSome?_eq_none_iff.mpr leading, List.findSome?_cons, refused]
    rfl
  unfold Checks at checks
  rw [first] at checks
  cases parsed : parseRegistrationInfo heap root with
  | ok info =>
      rw [parsed] at checks
      cases checks.1
  | error error =>
      rw [parsed] at checks
      cases checks
      rfl

theorem overflow_sound (raised : parseRegistrationInfo heap root = .error .overflow) :
    Overflows heap root := by
  have first := parseRegistrationInfo_checks heap root
  rw [raised] at first
  change firstFailure heap root (schema heap root) = some .overflow at first
  have others {rules : List (FieldRule RegistrationFailure)} (named : ∀ rule ∈ rules, Names rule) :
      rules.findSome? (fun rule => rule.failure heap root) ≠ some .overflow := by
    intro found
    obtain ⟨rule, member, failed⟩ := List.exists_of_findSome?_eq_some found
    obtain ⟨reason, same⟩ := named rule member heap root _ failed
    contradiction
  unfold firstFailure schema at first
  rw [List.findSome?_append] at first
  cases leading : leadingRules.findSome? fun rule => rule.failure heap root with
  | some error =>
      rw [leading] at first
      cases first
      exact absurd leading (others leadingRules_names)
  | none =>
      rw [leading, Option.none_or, List.findSome?_cons] at first
      refine ⟨List.findSome?_eq_none_iff.mp leading, ?_⟩
      rcases @ratioRule_failure heap root with ⟨reason, failed⟩ | passes | ⟨-, number, found, none⟩
      · rw [failed] at first
        cases first
      · rw [passes] at first
        exact absurd first (others trailingRules_names)
      · exact ⟨number, found, floatOfInt_eq_none.mp none⟩

/-- `parse_registration_info` keeps its contract for every value but those whose pixel ratio
is an integer that is too large for a float. -/
theorem registration_info_contract (heap : PyHeap) (root : PyValue) :
    MeetsContract heap root ↔ ¬Overflows heap root := by
  have checks := parseRegistrationInfo_checks heap root
  unfold MeetsContract
  cases parsed : parseRegistrationInfo heap root with
  | ok info =>
      refine ⟨fun _ overflows => ?_, fun _ => checks.ok parsed⟩
      rw [parse_overflow overflows] at parsed
      contradiction
  | error error =>
      cases error with
      | overflow => exact ⟨False.elim, fun fits => fits (overflow_sound parsed)⟩
      | invalid error =>
          refine ⟨fun _ overflows => ?_, fun _ => ?_⟩
          · rw [parse_overflow overflows] at parsed
            cases parsed
          · obtain ⟨rule, member, failed⟩ := checks.error parsed
            refine ⟨rule, member, ?_, failed⟩
            have named : ∃ reason, RegistrationFailure.invalid error =
                invalidInfo rule.path reason := by
              rcases List.mem_append.mp member with leading | later
              · exact leadingRules_names rule leading heap root _ failed
              · rcases List.mem_cons.mp later with rfl | trailing
                · rcases @ratioRule_failure heap root with ⟨reason, refused⟩ | passes | ⟨isOver, _⟩
                  · rw [refused] at failed
                    exact ⟨reason, (Option.some.inj failed).symm⟩
                  · rw [passes] at failed
                    cases failed
                  · rw [isOver] at failed
                    cases failed
                · exact trailingRules_names rule trailing heap root _ failed
            obtain ⟨reason, same⟩ := named
            cases same
            rfl

def sampleText (text : String) : PyValue := .str ⟨Str.ofString text⟩

/-- A value that follows the schema, with two devices. -/
def sampleInfo (ratio : PyValue) (second : String) : PyHeap :=
  [.dict [(sampleText "application", .container 1), (sampleText "colors", .container 2),
      (sampleText "devicePixelRatio", ratio), (sampleText "devices", .container 3),
      (sampleText "plugin", .container 7)],
    .dict [(sampleText "language", sampleText "en"), (sampleText "platform", sampleText "windows"),
      (sampleText "platformVersion", sampleText "11"), (sampleText "version", sampleText "3")],
    .dict [(sampleText "highlightColor", sampleText "#fff")],
    .list [.container 4, .container 5],
    .dict [(sampleText "id", sampleText "first"), (sampleText "name", sampleText "Dock"),
      (sampleText "type", .int 0), (sampleText "size", .container 6)],
    .dict [(sampleText "id", sampleText second), (sampleText "name", sampleText "Dock"),
      (sampleText "type", .int 0), (sampleText "size", .container 6)],
    .dict [(sampleText "columns", .int 5), (sampleText "rows", .int 3)],
    .dict [(sampleText "uuid", sampleText "plugin"), (sampleText "version", sampleText "1")]]

example : (parseRegistrationInfo (sampleInfo (.int 2) "second") (.container 0)).map
    (fun info => (info.devicePixelRatio, info.devices.map (·.size.rows))) =
      .ok (0x4000000000000000, [3, 3]) := by decide +kernel

example : parseRegistrationInfo (sampleInfo (.int 2) "first") (.container 0) =
    .error (.invalid ⟨"duplicate device identifier",
      [.field "devices", .index 1, .field "id"]⟩) := by decide +kernel

theorem huge_pixel_ratio :
    parseRegistrationInfo (sampleInfo (.int (10 ^ 400)) "second") (.container 0) =
      .error .overflow ∧
    ¬MeetsContract (sampleInfo (.int (10 ^ 400)) "second") (.container 0) := by
  have raised : parseRegistrationInfo (sampleInfo (.int (10 ^ 400)) "second") (.container 0) =
      .error .overflow := by decide +kernel
  refine ⟨raised, ?_⟩
  unfold MeetsContract
  rw [raised]
  exact id

end Registration

end StreamDockSdk
