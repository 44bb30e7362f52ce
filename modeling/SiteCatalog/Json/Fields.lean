import SiteCatalog.Json.Basic

/-!
# Records in JSON

Reading a record with known fields from a JSON value: an object, whose other members are ignored, or
an array of the fields in order.
-/

namespace SiteCatalog.Json

/-- The one member with a name: `some none` if there is none, and nothing if there are several. -/
def field? (name : String) : List (String × Json) → Option (Option Json)
  | [] => some none
  | (k, v) :: rest =>
    if k = name then
      match field? name rest with
      | some none => some (some v)
      | _ => none
    else field? name rest

/-- The fields with the given names, in their order. -/
def fields? (names : List String) : Json → Option (List (Option Json))
  | .object members => names.mapM fun name => field? name members
  | .array items =>
    if items.length ≤ names.length then
      some (items.map some ++ List.replicate (names.length - items.length) none)
    else none
  | _ => none

mutual

/-- How deep arrays and objects nest in a value, counting the value itself. -/
def depth : Json → Nat
  | .array items => depthItems items + 1
  | .object members => depthMembers members + 1
  | _ => 1

/-- The depth of the deepest item. -/
def depthItems : List Json → Nat
  | [] => 0
  | item :: rest => max (depth item) (depthItems rest)

/-- The depth of the deepest member. -/
def depthMembers : List (String × Json) → Nat
  | [] => 0
  | (_, value) :: rest => max (depth value) (depthMembers rest)

end

/-- The strings of an array of strings. -/
def strings? (j : Json) : Option (List String) := do
  (← j.array?).mapM string?

/-- A string, or `null` for none. -/
def optionalString? : Json → Option (Option String)
  | .null => some none
  | .string s => some (some s)
  | _ => none

end SiteCatalog.Json
