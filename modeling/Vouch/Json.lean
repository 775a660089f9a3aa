import Mathlib.Data.List.Basic

/-!
# JSON values

The values of `serde_json`, and what the server uses of that library for texts.

* `JsonValue` — a value as a tree.  Objects are compared whatever the order of their fields, so
  those are listed in the order of their keys.
* `JsonValue.every` — a test of all keys and all scalars of a value.
* `JsonLibrary` — reading and writing; `JsonLibrary.WritesBack` is what is relied on where a value
  that came as a text is stored and written out again.
-/

namespace Vouch

/-- A JSON value that is neither an array nor an object. -/
inductive JsonScalar
  | null
  | bool (value : Bool)
  /-- A number that a `u64` holds. -/
  | unsigned (value : Nat)
  /-- Any other number: a negative one, a fraction or one that is too large. -/
  | number (text : String)
  | string (text : String)
  deriving DecidableEq

/-- `serde_json::Value`. -/
inductive JsonValue
  | scalar (value : JsonScalar)
  | array (items : List JsonValue)
  | object (fields : List (String × JsonValue))

namespace JsonValue

/-! ## Equality -/

mutual

/-- Compares two values. -/
def decEq : (a b : JsonValue) → Decidable (a = b)
  | .scalar s, .scalar t => decidable_of_iff (s = t) (by simp)
  | .array xs, .array ys =>
    match decEqItems xs ys with
    | isTrue h => isTrue (by rw [h])
    | isFalse h => isFalse fun heq => h (JsonValue.array.inj heq)
  | .object xs, .object ys =>
    match decEqFields xs ys with
    | isTrue h => isTrue (by rw [h])
    | isFalse h => isFalse fun heq => h (JsonValue.object.inj heq)
  | .scalar _, .array _ | .scalar _, .object _ => isFalse nofun
  | .array _, .scalar _ | .array _, .object _ => isFalse nofun
  | .object _, .scalar _ | .object _, .array _ => isFalse nofun

/-- Compares the items of two arrays. -/
def decEqItems : (xs ys : List JsonValue) → Decidable (xs = ys)
  | [], [] => isTrue rfl
  | x :: xs, y :: ys =>
    match decEq x y, decEqItems xs ys with
    | isTrue hx, isTrue hxs => isTrue (by rw [hx, hxs])
    | isFalse hx, _ => isFalse fun heq => hx (List.cons.inj heq).1
    | _, isFalse hxs => isFalse fun heq => hxs (List.cons.inj heq).2
  | [], _ :: _ | _ :: _, [] => isFalse nofun

/-- Compares the fields of two objects. -/
def decEqFields : (xs ys : List (String × JsonValue)) → Decidable (xs = ys)
  | [], [] => isTrue rfl
  | (k, x) :: xs, (l, y) :: ys =>
    match decEq x y, decEqFields xs ys with
    | isTrue hx, isTrue hxs => decidable_of_iff (k = l) (by rw [hx, hxs]; simp)
    | isFalse hx, _ => isFalse fun heq => hx (Prod.mk.inj (List.cons.inj heq).1).2
    | _, isFalse hxs => isFalse fun heq => hxs (List.cons.inj heq).2
  | [], _ :: _ | _ :: _, [] => isFalse nofun

end

instance : DecidableEq JsonValue := decEq

/-! ## Parts of a value -/

/-- `Value::as_array`. -/
def asArray : JsonValue → Option (List JsonValue)
  | .array items => some items
  | _ => none

/-- `Value::as_object`. -/
def asObject : JsonValue → Option (List (String × JsonValue))
  | .object fields => some fields
  | _ => none

/-- `Value::as_str`. -/
def asStr : JsonValue → Option String
  | .scalar (.string text) => some text
  | _ => none

/-- `Map::get`. -/
def get (fields : List (String × JsonValue)) (key : String) : Option JsonValue :=
  (fields.find? fun field => field.1 = key).map Prod.snd

mutual

/-- Whether all keys and all scalars of a value pass a test. -/
def every (onKey : String → Bool) (onScalar : JsonScalar → Bool) : JsonValue → Bool
  | .scalar value => onScalar value
  | .array items => everyItem onKey onScalar items
  | .object fields => everyField onKey onScalar fields

/-- The same of the items of an array. -/
def everyItem (onKey : String → Bool) (onScalar : JsonScalar → Bool) : List JsonValue → Bool
  | [] => true
  | item :: items => every onKey onScalar item && everyItem onKey onScalar items

/-- The same of the fields of an object. -/
def everyField (onKey : String → Bool) (onScalar : JsonScalar → Bool) :
    List (String × JsonValue) → Bool
  | [] => true
  | (key, value) :: fields =>
    onKey key && every onKey onScalar value && everyField onKey onScalar fields

end

variable {onKey : String → Bool} {onScalar : JsonScalar → Bool}

theorem everyItem_eq_true {items : List JsonValue} :
    everyItem onKey onScalar items = true ↔ ∀ item ∈ items, every onKey onScalar item = true := by
  induction items with
  | nil => simp [everyItem]
  | cons item items ih => simp [everyItem, ih]

theorem everyField_eq_true {fields : List (String × JsonValue)} :
    everyField onKey onScalar fields = true ↔
      ∀ field ∈ fields, onKey field.1 = true ∧ every onKey onScalar field.2 = true := by
  induction fields with
  | nil => simp [everyField]
  | cons field fields ih =>
    obtain ⟨key, value⟩ := field
    simp [everyField, ih]

/-- A value whose numbers are all unsigned integers. -/
def isWhole : JsonValue → Bool := every (fun _ => true) fun
  | .number _ => false
  | _ => true

end JsonValue

/-! ## Texts -/

/-- The third-party code for JSON. -/
structure JsonLibrary where
  /-- `serde_json::from_str`. -/
  fromStr : String → Except String JsonValue
  /-- `serde_json::to_string`. -/
  toText : JsonValue → String
  /-- The message of `serde_json::from_value` for a value that is not what is expected. -/
  refusal : JsonValue → String

/-- What is relied on of `serde_json`: a value that was read, if it has no numbers but unsigned
integers, is read back from the text that is written of it, and that text is no longer than the one
it was read from. It has no blanks in it, escapes as few characters as it can and those in the
shortest way, and writes a repeated field once; an unsigned integer has one text only. -/
def JsonLibrary.WritesBack (lib : JsonLibrary) : Prop :=
  ∀ raw value, lib.fromStr raw = .ok value → value.isWhole = true →
    lib.fromStr (lib.toText value) = .ok value ∧ (lib.toText value).utf8ByteSize ≤ raw.utf8ByteSize

/-- `serde_json` as far as one value goes: it is read from a text, and from the text that is written
of it. -/
def JsonLibrary.ofOne (raw written : String) (value : JsonValue) : JsonLibrary where
  fromStr text := if text = raw ∨ text = written then .ok value else .error "expected value"
  toText v := if v = value then written else "null"
  refusal _ := "invalid type"

theorem JsonLibrary.writesBack_ofOne {raw written : String} {value : JsonValue}
    (h : written.utf8ByteSize ≤ raw.utf8ByteSize) : (ofOne raw written value).WritesBack := by
  intro text read hread _
  dsimp only [ofOne] at hread ⊢
  split at hread
  · rename_i htext
    obtain rfl := Except.ok.inj hread
    rw [if_pos rfl]
    refine ⟨if_pos (.inr rfl), ?_⟩
    obtain rfl | rfl := htext
    · exact h
    · exact Nat.le_refl _
  · cases hread

end Vouch
