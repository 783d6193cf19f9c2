import Mathlib

namespace KalpakDb

/-!
# JSON values

A value as a parser returns it, and the ways to look into it.  A field that is
absent reads as `null`, and so does any field of a value that is no object.
-/

/-- A JSON value; a number is an integer or the bits of a float. -/
inductive Json where
  | null
  | bool (value : Bool)
  | integer (value : Int)
  | float (bits : UInt64)
  | string (text : List Char)
  | array (items : List Json)
  | object (fields : List (String × Json))

namespace Json

/-! ## Equality -/

mutual
/-- Values are equal if they are of one kind and have equal contents. -/
def decEq : (first second : Json) → Decidable (first = second)
  | .null, second =>
      match second with
      | .null => isTrue rfl
      | .bool _ | .integer _ | .float _ | .string _ | .array _ | .object _ =>
          isFalse nofun
  | .bool value, second =>
      match second with
      | .bool other => decidable_of_iff (value = other) (by simp)
      | .null | .integer _ | .float _ | .string _ | .array _ | .object _ =>
          isFalse nofun
  | .integer value, second =>
      match second with
      | .integer other => decidable_of_iff (value = other) (by simp)
      | .null | .bool _ | .float _ | .string _ | .array _ | .object _ =>
          isFalse nofun
  | .float bits, second =>
      match second with
      | .float other => decidable_of_iff (bits = other) (by simp)
      | .null | .bool _ | .integer _ | .string _ | .array _ | .object _ =>
          isFalse nofun
  | .string text, second =>
      match second with
      | .string other => decidable_of_iff (text = other) (by simp)
      | .null | .bool _ | .integer _ | .float _ | .array _ | .object _ =>
          isFalse nofun
  | .array items, second =>
      match second with
      | .array others =>
          @decidable_of_iff _ (items = others) (by simp)
            (decEqItems items others)
      | .null | .bool _ | .integer _ | .float _ | .string _ | .object _ =>
          isFalse nofun
  | .object fields, second =>
      match second with
      | .object others =>
          @decidable_of_iff _ (fields = others) (by simp)
            (decEqFields fields others)
      | .null | .bool _ | .integer _ | .float _ | .string _ | .array _ =>
          isFalse nofun

/-- Items are compared one by one. -/
def decEqItems : (first second : List Json) → Decidable (first = second)
  | [], [] => isTrue rfl
  | [], _ :: _ => isFalse nofun
  | _ :: _, [] => isFalse nofun
  | item :: items, other :: others =>
      @decidable_of_iff _ (item = other ∧ items = others) (by simp)
        (@instDecidableAnd _ _ (decEq item other) (decEqItems items others))

/-- Fields are compared in their order, by name and value. -/
def decEqFields :
    (first second : List (String × Json)) → Decidable (first = second)
  | [], [] => isTrue rfl
  | [], _ :: _ => isFalse nofun
  | _ :: _, [] => isFalse nofun
  | (name, value) :: fields, (other, json) :: others =>
      @decidable_of_iff _ (name = other ∧ value = json ∧ fields = others)
        (by simp [and_assoc])
        (@instDecidableAnd _ _ inferInstance
          (@instDecidableAnd _ _ (decEq value json)
            (decEqFields fields others)))
end

instance : DecidableEq Json := decEq

/-! ## Access -/

/-- A field of an object by its name. -/
def get? (name : String) : Json → Option Json
  | .object fields => fields.lookup name
  | _ => none

/-- A field by its name, `null` if there is none. -/
def field (name : String) (value : Json) : Json :=
  (value.get? name).getD .null

/-- An integer of 64 bits without a sign. -/
def asU64? : Json → Option Nat
  | .integer value =>
      if 0 ≤ value ∧ value < 2 ^ 64 then some value.toNat else none
  | _ => none

/-- The characters of a text. -/
def asStr? : Json → Option (List Char)
  | .string text => some text
  | _ => none

def asBool? : Json → Option Bool
  | .bool value => some value
  | _ => none

end Json

end KalpakDb
