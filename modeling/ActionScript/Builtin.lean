/-! # Built-in routines

The names of the routines that the built-in functions run. -/

namespace ActionScript

namespace Builtin

/-- The routines of `Object` and of its prototype. -/
inductive OfObject where
  | convert
  | registerClass
  | text
  | self
  | hasOwnProperty
  | isPropertyEnumerable
  | isPrototypeOf
  | addProperty
  | watch
  | unwatch
deriving DecidableEq

/-- The routines of `Function` and of its prototype. -/
inductive OfFunction where
  | create
  | call
  | apply
deriving DecidableEq

/-- The routines of `Error` and of its prototype. -/
inductive OfError where
  | call
  | construct
  | text
deriving DecidableEq

/-- The routines of `Array` and of its prototype. -/
inductive OfArray where
  | create
  | push
  | pop
  | join
  | text
deriving DecidableEq

/-- The routines of `Number` and of its prototype. -/
inductive OfNumber where
  | call
  | construct
  | text
  | self
deriving DecidableEq

/-- The routines of `Boolean` and of its prototype. -/
inductive OfBoolean where
  | call
  | construct
  | text
  | self
deriving DecidableEq

/-- The routines of `Math`. -/
inductive OfMath where
  | abs
  | floor
  | ceil
  | sqrt
  | round
  | max
  | min
  | pow
  | random
deriving DecidableEq

/-- The routines of `String` and of its prototype. -/
inductive OfString where
  | call
  | construct
  | self
  | charAt
  | indexOf
  | toUpperCase
  | toLowerCase
  | substr
deriving DecidableEq

/-- The routines of `Date` and of its prototype. -/
inductive OfDate where
  | call
  | construct
  | time
  | text
deriving DecidableEq

end Builtin

/-- The routines that the machine itself runs. -/
inductive Builtin where
  /-- Returns `undefined`. -/
  | nothing
  /-- Constructs a plain instance of the constructor's prototype. -/
  | instantiate
  /-- Changes the attributes of slots. -/
  | setFlags
  | object (routine : Builtin.OfObject)
  | function (routine : Builtin.OfFunction)
  | error (routine : Builtin.OfError)
  | array (routine : Builtin.OfArray)
  | number (routine : Builtin.OfNumber)
  | boolean (routine : Builtin.OfBoolean)
  | math (routine : Builtin.OfMath)
  | string (routine : Builtin.OfString)
  | date (routine : Builtin.OfDate)
deriving DecidableEq

end ActionScript
