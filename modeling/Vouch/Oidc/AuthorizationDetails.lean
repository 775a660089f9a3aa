import Vouch.Error
import Vouch.Json

/-!
# Authorization details

`services/oidc/authorization_details.rs`: a request names an array of typed objects, which is
checked once and stored as JSON with the session; an exchange may only leave entries out.

* `DevicePosture.fields` — the one type of entries there is (`vouch-common/src/posture.rs`), as the
  fields it has and what each of them holds.
* `parse`, `tryFrom`, `toValue` — how details are read from a request and from what is stored.
* `parse_toValue` — **details that were accepted are accepted again, as they are stored.**  What is
  accepted has no fractions in it (`isWhole_of_deserializes`), and then JSON is written back as it
  was read.
-/

namespace Vouch

/-! ## Device posture -/

/-- `POSTURE_TYPE`. -/
def postureType : String := "device_posture"

/-- `OperatingSystem::ALL`. -/
def operatingSystems : List String := ["macos", "linux", "windows"]

/-- `EdrAgent::ALL`. -/
def edrAgents : List String :=
  ["crowdstrike", "sentinelone", "carbon black", "microsoft defender", "trellix",
    "1password device trust"]

/-- `MdmAgent::ALL`. -/
def mdmAgents : List String := ["jamf", "kandji", "workspace one", "mosyle", "fleetsmith", "intune"]

namespace DevicePosture

/-- What a field of a posture holds. -/
inductive Field
  /-- `PostureTypeTag`. -/
  | tag
  /-- `u32`. -/
  | version
  /-- `Option<String>`. -/
  | text
  /-- `Option<bool>`. -/
  | flag
  /-- `Option<u64>`. -/
  | seconds
  /-- An option of a closed enum. -/
  | oneOf (names : List String)
  /-- A list of a closed enum. -/
  | listOf (names : List String)

/-- Whether a field can hold a value.  An option is also written as `null`, a list is not. -/
def Field.accepts : Field → JsonValue → Bool
  | .tag, .scalar (.string s) => s = postureType
  | .version, .scalar (.unsigned n) => n < 4294967296
  | .text, .scalar .null | .text, .scalar (.string _) => true
  | .flag, .scalar .null | .flag, .scalar (.bool _) => true
  | .seconds, .scalar .null | .seconds, .scalar (.unsigned _) => true
  | .oneOf _, .scalar .null => true
  | .oneOf names, .scalar (.string s) => names.contains s
  | .listOf names, .array items => items.all fun item => item.asStr.any names.contains
  | _, _ => false

/-- `DevicePosture`, with what its fields hold. -/
def fields : List (String × Field) :=
  [("type", .tag), ("posture_version", .version), ("os", .oneOf operatingSystems),
    ("os_version", .text), ("os_distribution", .text), ("os_build", .text), ("arch", .text),
    ("disk_encryption_enabled", .flag), ("disk_encryption_technology", .text),
    ("screen_lock_enabled", .flag), ("screen_lock_idle_timeout_secs", .seconds),
    ("firewall_enabled", .flag), ("firewall_technology", .text), ("secure_boot_enabled", .flag),
    ("sip_enabled", .flag), ("tpm_present", .flag), ("tpm_version", .text),
    ("auto_update_enabled", .flag), ("auto_update_technology", .text), ("uptime_secs", .seconds),
    ("access_control_enforcing", .flag), ("access_control_technology", .text),
    ("edr", .listOf edrAgents), ("mdm", .listOf mdmAgents), ("elevated", .flag), ("tty", .flag),
    ("parent_process", .text), ("cli_version", .text), ("collected_at", .text)]

/-- The fields that have no default. -/
def required : List String := ["type", "posture_version"]

/-- Whether `serde_json::from_value::<DevicePosture>` accepts an object: it has the fields without a
default, no others than those of a posture (`deny_unknown_fields`), and each holds what it can
hold. -/
def deserializes (object : List (String × JsonValue)) : Bool :=
  (required.all fun key => (JsonValue.get object key).isSome) &&
    object.all fun field => (fields.find? (·.1 = field.1)).any (·.2.accepts field.2)

theorem isWhole_of_accepts {field : Field} {value : JsonValue} (h : field.accepts value = true) :
    value.isWhole = true := by
  have hstring : ∀ {item : JsonValue} {names : List String}, item.asStr.any names.contains = true →
      item.isWhole = true := by
    intro item names hitem
    unfold JsonValue.asStr at hitem
    split at hitem
    · rfl
    · cases hitem
  have hrefused : ∀ {b : Bool}, b = false → b ≠ true := by
    rintro _ rfl
    exact Bool.false_ne_true
  cases value with
  | scalar scalar =>
    cases scalar with
    | number text => cases field <;> exact absurd h (hrefused rfl)
    | _ => rfl
  | array items =>
    cases field with
    | listOf names =>
      rw [JsonValue.isWhole, JsonValue.every, JsonValue.everyItem_eq_true]
      exact fun item hitem => hstring (List.all_eq_true.mp h item hitem)
    | _ => exact absurd h (hrefused rfl)
  | object object => cases field <;> exact absurd h (hrefused rfl)

/-- A posture has no fractions in it. -/
theorem isWhole_of_deserializes {object : List (String × JsonValue)}
    (h : deserializes object = true) : (JsonValue.object object).isWhole = true := by
  rw [JsonValue.isWhole, JsonValue.every, JsonValue.everyField_eq_true]
  intro field hfield
  have hknown := List.all_eq_true.mp (Bool.and_eq_true_iff.mp h).2 field hfield
  obtain ⟨known, -, haccepts⟩ := (Option.any_eq_true _ _).mp hknown
  exact ⟨rfl, isWhole_of_accepts haccepts⟩

end DevicePosture

/-! ## Details -/

/-- `AuthorizationDetails`. -/
structure AuthorizationDetails where
  details : List JsonValue
  deriving DecidableEq

namespace AuthorizationDetails

open Result

/-- `MAX_SIZE`. -/
def maxSize : Nat := 8192

/-- `MAX_DEPTH`. -/
def maxDepth : Nat := 5

/-- `validate_depth`. -/
def validateDepth : Nat → JsonValue → Bool
  | 0, value => value.asArray.isNone && value.asObject.isNone
  | maxDepth + 1, value =>
    match value with
    | .array items => items.all (validateDepth maxDepth)
    | .object fields => fields.all fun field => validateDepth maxDepth field.2
    | .scalar _ => true

/-- A text with an ASCII control character in it. -/
def hasControlChars (s : String) : Bool := s.toList.any fun c => c.toNat < 0x20 || c.toNat == 0x7F

/-- `validate_no_control_chars`. -/
def validateNoControlChars : JsonValue → Bool := JsonValue.every (!hasControlChars ·) fun
  | .string text => !hasControlChars text
  | _ => true

variable (lib : JsonLibrary)

/-- One entry of a request. -/
def checkDetail (i : Nat) (item : JsonValue) : Except ServiceError Unit :=
  let refuse (text : String) : Except ServiceError Unit :=
    .error (.oauth .invalidAuthorizationDetails s!"authorization_details[{i}] {text}")
  match item.asObject with
  | none => refuse "must be a JSON object"
  | some fields =>
    match JsonValue.get fields "type" with
    | none => refuse "missing required 'type' field"
    | some typeValue =>
      match typeValue.asStr with
      | none => refuse "'type' must be a string"
      | some typeText =>
        if typeText ≠ postureType then
          refuse s!"has an unsupported type; supported types: {postureType}"
        else if !validateDepth maxDepth item then
          refuse s!"exceeds maximum nesting depth of {maxDepth}"
        else if !validateNoControlChars item then
          refuse "contains control characters"
        else if !DevicePosture.deserializes fields then
          refuse s!"is not a valid {postureType} object: {lib.refusal item}"
        else .ok ()

/-- The entries of a request, the first of them at position `i`. -/
def checkDetails : Nat → List JsonValue → Except ServiceError Unit
  | _, [] => .ok ()
  | i, item :: items => do
    checkDetail lib i item
    checkDetails (i + 1) items

/-- `AuthorizationDetails::parse`. -/
def parse (raw : String) : Except ServiceError AuthorizationDetails :=
  let refuse {α : Type} (text : String) : Except ServiceError α :=
    .error (.oauth .invalidAuthorizationDetails text)
  if raw.utf8ByteSize > maxSize then
    refuse s!"authorization_details exceeds maximum size of {maxSize} bytes"
  else
    match lib.fromStr raw with
    | .error e => refuse s!"Invalid authorization_details JSON: {e}"
    | .ok value =>
      match value.asArray with
      | none => refuse "authorization_details must be a JSON array"
      | some [] => refuse "authorization_details must not be empty"
      | some items => do
        checkDetails lib 0 items
        .ok ⟨items⟩

/-- `AuthorizationDetails::is_subset_of`. -/
def isSubsetOf (details granted : AuthorizationDetails) : Bool :=
  details.details.all fun requested => granted.details.contains requested

/-- An object that names its type. -/
def isTyped (item : JsonValue) : Bool :=
  item.asObject.any fun fields => (JsonValue.get fields "type").any fun value => value.asStr.isSome

/-- `AuthorizationDetails::try_from`. -/
def tryFrom (value : JsonValue) : Option AuthorizationDetails :=
  value.asArray.map fun items => ⟨items.filter isTyped⟩

/-- `serde_json::Value::from`. -/
def toValue (details : AuthorizationDetails) : JsonValue := .array details.details

/-- What a stored value grants. -/
def granted (stored : Option JsonValue) : List JsonValue :=
  ((stored.bind tryFrom).map AuthorizationDetails.details).getD []

theorem isSubsetOf_iff {details other : AuthorizationDetails} :
    details.isSubsetOf other = true ↔ ∀ d ∈ details.details, d ∈ other.details := by
  simp [isSubsetOf]

/-- What it takes to be accepted. -/
theorem parse_eq_ok {raw : String} {details : AuthorizationDetails} :
    parse lib raw = .ok details ↔ raw.utf8ByteSize ≤ maxSize ∧ ∃ value,
      lib.fromStr raw = .ok value ∧
      value.asArray = some details.details ∧ details.details ≠ [] ∧
      checkDetails lib 0 details.details = .ok () := by
  constructor
  · intro h
    unfold parse at h
    dsimp only at h
    split at h
    · cases h
    · rename_i hsize
      split at h
      · cases h
      · rename_i value hvalue
        split at h
        · cases h
        · cases h
        · rename_i items hne harray
          obtain ⟨hcheck, hdetails⟩ := check_eq_ok.mp h
          cases hdetails
          exact ⟨Nat.not_lt.mp hsize, value, hvalue, harray, hne, hcheck⟩
  · rintro ⟨hsize, value, hvalue, harray, hne, hcheck⟩
    obtain ⟨_ | ⟨item, items⟩⟩ := details
    · exact absurd rfl hne
    · simp [parse, if_neg (Nat.not_lt.mpr hsize), hvalue, harray, hcheck, ok_bind]

/-- An entry that is accepted has no fractions in it. -/
theorem isWhole_of_checkDetail {i : Nat} {item : JsonValue} (h : checkDetail lib i item = .ok ()) :
    item.isWhole = true := by
  unfold checkDetail at h
  split at h
  · cases h
  · rename_i fields hfields
    have hitem : item = .object fields := by
      unfold JsonValue.asObject at hfields
      split at hfields
      · exact congrArg JsonValue.object (Option.some.inj hfields)
      · cases hfields
    split at h
    · cases h
    · split at h
      · cases h
      · dsimp only at h
        split_ifs at h with _ _ _ hposture
        rw [hitem]
        exact DevicePosture.isWhole_of_deserializes (by simpa using hposture)

theorem isWhole_of_checkDetails {items : List JsonValue} {i : Nat}
    (h : checkDetails lib i items = .ok ()) : ∀ item ∈ items, item.isWhole = true := by
  induction items generalizing i with
  | nil => exact fun item hitem => absurd hitem List.not_mem_nil
  | cons item items ih =>
    obtain ⟨hitem, hitems⟩ := check_eq_ok.mp h
    exact List.forall_mem_cons.mpr ⟨isWhole_of_checkDetail lib hitem, ih hitems⟩

/-- **Details that were accepted are accepted again, as they are stored.** -/
theorem parse_toValue (hlib : lib.WritesBack) {raw : String} {details : AuthorizationDetails}
    (h : parse lib raw = .ok details) : parse lib (lib.toText details.toValue) = .ok details := by
  obtain ⟨hsize, value, hvalue, harray, hne, hcheck⟩ := (parse_eq_ok lib).mp h
  obtain rfl : value = details.toValue := by
    unfold JsonValue.asArray at harray
    split at harray
    · exact congrArg JsonValue.array (Option.some.inj harray)
    · cases harray
  have hwhole : details.toValue.isWhole = true := by
    rw [toValue, JsonValue.isWhole, JsonValue.every, JsonValue.everyItem_eq_true]
    exact isWhole_of_checkDetails lib hcheck
  obtain ⟨hread, hle⟩ := hlib raw _ hvalue hwhole
  exact (parse_eq_ok lib).mpr ⟨hle.trans hsize, details.toValue, hread, rfl, hne, hcheck⟩

/-- A posture, as a client may write it. -/
def rawPosture : String :=
  "[ \x7b\"type\": \"device_posture\", \"posture_version\": 1, \"os\": \"macos\", " ++
    "\"edr\": [\"crowdstrike\"]\x7d ]"

/-- The same posture, as `serde_json` writes it. -/
def writtenPosture : String :=
  "[\x7b\"type\":\"device_posture\",\"posture_version\":1,\"os\":\"macos\"," ++
    "\"edr\":[\"crowdstrike\"]\x7d]"

/-- The same posture, as a value. -/
def posture : AuthorizationDetails :=
  ⟨[.object [("edr", .array [.scalar (.string "crowdstrike")]), ("os", .scalar (.string "macos")),
    ("posture_version", .scalar (.unsigned 1)), ("type", .scalar (.string "device_posture"))]]⟩

/-- `serde_json` as far as this posture goes. -/
def postureJson : JsonLibrary := .ofOne rawPosture writtenPosture posture.toValue

theorem writesBack_postureJson : postureJson.WritesBack :=
  JsonLibrary.writesBack_ofOne (by decide +kernel)

theorem granted_toValue (details : AuthorizationDetails) :
    granted (some details.toValue) = details.details.filter isTyped := rfl

end AuthorizationDetails

end Vouch
