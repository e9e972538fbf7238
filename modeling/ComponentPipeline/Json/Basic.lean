import ComponentPipeline.Json.Number
import ComponentPipeline.Table

/-!
# JSON values

An object keeps its members as written, a repeated key included: some readers
refuse a repeated key.  `settle` gives every key its last value at the place
where the key stood first.
-/

namespace ComponentPipeline

/-- A JSON value. -/
inductive Json
  | null
  | bool (value : Bool)
  | number (value : Json.Number)
  | string (value : Text)
  | array (items : List Json)
  | object (members : List (Text × Json))
  deriving Repr, Inhabited

namespace Json

/-! ## Parts of a value -/

/-- The members of an object. -/
def members? : Json → Option (Table Json)
  | .object members => some members
  | _ => none

/-- The items of an array. -/
def items? : Json → Option (List Json)
  | .array items => some items
  | _ => none

/-- The text of a string. -/
def text? : Json → Option Text
  | .string value => some value
  | _ => none

/-- The truth value of a boolean. -/
def bool? : Json → Option Bool
  | .bool value => some value
  | _ => none

/-- The member of an object with a key. -/
def member? (key : Text) (value : Json) : Option Json :=
  value.members?.bind (Table.get? key)

/-- Whether a value counts as set: everything but null, false, zero and the
empty string. -/
def isTruthy : Json → Bool
  | .null => false
  | .bool value => value
  | .number value => !value.isZero
  | .string value => !value.isEmpty
  | .array _ => true
  | .object _ => true

/-! ## Repeated keys -/

mutual

/-- A value in which no object repeats a key: the last value wins, at the
place of the first. -/
def settle : Json → Json
  | .array items => .array (settleItems items)
  | .object members => .object (settleMembers members [])
  | value => value

/-- The items of an array, settled. -/
def settleItems : List Json → List Json
  | [] => []
  | item :: rest => item.settle :: settleItems rest

/-- The members of an object, settled and written into a table. -/
def settleMembers : List (Text × Json) → Table Json → Table Json
  | [], written => written
  | (key, value) :: rest, written =>
      settleMembers rest (Table.put key value.settle written)

end

/-- How deep arrays and objects may be nested. -/
def nestingLimit : Nat := 127

end Json
end ComponentPipeline
