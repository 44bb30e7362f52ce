/-!
# Values

What variables and parameters hold: nothing, a boolean, a signed 64-bit integer, a string, or a list
of values. A value prints as text wherever it is put into a string; coercion replaces every scalar
by its text and keeps lists and undefined values as they are.
-/

namespace SiteCatalog

/-- A value of a variable or a parameter. -/
inductive Value
  | undefined
  | bool (b : Bool)
  | int (i : Int64)
  | str (s : String)
  | array (items : List Value)
  deriving Inhabited

namespace Value

/-- The text of a boolean. -/
def boolText (b : Bool) : String :=
  if b then "true" else "false"

mutual

/-- The text of a value. An undefined value has none. -/
def text : Value → String
  | .undefined => ""
  | .bool b => boolText b
  | .int i => toString i.toInt
  | .str s => s
  | .array items => "[" ++ ", ".intercalate (texts items) ++ "]"

/-- The texts of values. -/
def texts : List Value → List String
  | [] => []
  | v :: rest => text v :: texts rest

end

mutual

/-- The value with every boolean and integer in it replaced by its text. -/
def coerce : Value → Value
  | .undefined => .undefined
  | .bool b => .str (boolText b)
  | .int i => .str (toString i.toInt)
  | .str s => .str s
  | .array items => .array (coerceAll items)

/-- Coerces each value. -/
def coerceAll : List Value → List Value
  | [] => []
  | v :: rest => coerce v :: coerceAll rest

end

/-- Whether the value is undefined. -/
def isUndefined : Value → Bool
  | .undefined => true
  | _ => false

end Value

end SiteCatalog
