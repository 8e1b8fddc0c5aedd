import ActionScript.Number.Basic

/-! # Values -/

namespace ActionScript

/-- A handle of an object: its slot in the heap. It does not keep the object alive. -/
structure ObjectId where
  index : Nat
deriving DecidableEq, Inhabited

/-- What a script computes with. -/
inductive Value where
  | undefined
  | null
  | bool (b : Bool)
  | number (x : Number)
  | string (s : String)
  | object (id : ObjectId)
deriving DecidableEq, Inhabited

namespace Value

/-- Whether the value is `undefined`. -/
def isUndefined : Value → Bool
  | .undefined => true
  | _ => false

def isNull : Value → Bool
  | .null => true
  | _ => false

/-- Whether the value is `undefined` or `null`. -/
def isNullish : Value → Bool
  | .undefined => true
  | .null => true
  | _ => false

/-- Whether the value is a handle. -/
def isObject : Value → Bool
  | .object _ => true
  | _ => false

/-- The handle that the value is. -/
def object? : Value → Option ObjectId
  | .object id => some id
  | _ => none

def number? : Value → Option Number
  | .number x => some x
  | _ => none

def string? : Value → Option String
  | .string s => some s
  | _ => none

/-- The name of the kind of the value. -/
def typeName : Value → String
  | .undefined => "undefined"
  | .null => "null"
  | .bool _ => "boolean"
  | .number _ => "number"
  | .string _ => "string"
  | .object _ => "object"

/-- Truth of a value: neither zero nor `nan`, not empty, and every object. -/
def truthy : Value → Bool
  | .undefined => false
  | .null => false
  | .bool b => b
  | .number x => !x.isZero && !x.isNaN
  | .string s => !s.isEmpty
  | .object _ => true

end Value

end ActionScript
