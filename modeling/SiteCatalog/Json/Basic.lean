import SiteCatalog.Number

/-!
# JSON values

Trees of JSON. The members of an object keep their order, and a name may occur more than once: what
a repeated name means is left to the reader of the tree.
-/

namespace SiteCatalog

/-- A JSON value. -/
inductive Json
  | null
  | bool (b : Bool)
  | number (n : Number)
  | string (s : String)
  | array (items : List Json)
  | object (members : List (String × Json))
  deriving Inhabited

namespace Json

/-- A signed 64-bit integer as a number. -/
def ofInt64 (i : Int64) : Json :=
  if 0 ≤ i.toInt then .number (.unsigned (UInt64.ofNat i.toInt.toNat)) else .number (.negative i)

/-- A natural number as a number; it is taken modulo 2^64. -/
def ofNat (n : Nat) : Json :=
  .number (.unsigned (UInt64.ofNat n))

/-- A value, or `null` where there is none. -/
def ofOption {α : Type} (f : α → Json) : Option α → Json
  | some a => f a
  | none => .null

/-- The string, if the value is one. -/
def string? : Json → Option String
  | string s => some s
  | _ => none

/-- The items, if the value is an array. -/
def array? : Json → Option (List Json)
  | array items => some items
  | _ => none

end Json

end SiteCatalog
