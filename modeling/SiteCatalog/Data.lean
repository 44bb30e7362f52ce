import SiteCatalog.Expr
import SiteCatalog.Json.Basic
import SiteCatalog.Table

/-!
# Document trees

What documents are made of before they are written in a format: scalars, lists, records and tagged
data. JSON writes tagged data as an object with one member.
-/

namespace SiteCatalog

/-- A tree of data. -/
inductive Data
  | null
  | bool (b : Bool)
  | int (i : Int)
  | string (s : String)
  | list (items : List Data)
  | record (fields : List (String × Data))
  | tagged (tag : String) (payload : Data)

namespace Data

/-- A list of strings. -/
def strings (items : List String) : Data :=
  .list (items.map .string)

/-- A string, or `null` where there is none. -/
def ofString? : Option String → Data
  | some s => .string s
  | none => .null

mutual

/-- The tree as JSON. Integers outside the range of JSON numbers do not occur. -/
def toJson : Data → Json
  | .null => .null
  | .bool b => .bool b
  | .int i => match Number.ofInt? i with
    | some n => .number n
    | none => .null
  | .string s => .string s
  | .list items => .array (toJsonItems items)
  | .record fields => .object (toJsonFields fields)
  | .tagged tag payload => .object [(tag, toJson payload)]

/-- Every item as JSON. -/
def toJsonItems : List Data → List Json
  | [] => []
  | d :: rest => toJson d :: toJsonItems rest

/-- Every field as JSON. -/
def toJsonFields : List (String × Data) → List (String × Json)
  | [] => []
  | (name, d) :: rest => (name, toJson d) :: toJsonFields rest

end

end Data

mutual

/-- The tree of a value. -/
def Value.toData : Value → Data
  | .undefined => .null
  | .bool b => .bool b
  | .int i => .int i.toInt
  | .str s => .string s
  | .array items => .list (Value.toDataItems items)

/-- The tree of every value. -/
def Value.toDataItems : List Value → List Data
  | [] => []
  | v :: rest => Value.toData v :: Value.toDataItems rest

end

/-- The fields of named values. -/
def Value.toDataFields (params : Table Value) : Data :=
  .record (params.map fun (name, v) => (name, v.toData))

mutual

/-- The tree of an expression. -/
def Expr.toData : Expr → Data
  | .literal v => .tagged "literal" v.toData
  | .var name => .tagged "var" (.string name)
  | .concat parts => .tagged "concat" (.list (Expr.toDataItems parts))
  | .list items => .tagged "list" (.list (Expr.toDataItems items))
  | .block statements => .tagged "block" (.list (Expr.toDataItems statements))
  | .assign name value =>
    .tagged "assign" (.record [("name", .string name), ("value", Expr.toData value)])
  | .includes names => .tagged "include" (.strings names)
  | .classDecl name params =>
    .tagged "class_decl"
      (.record [("name", .string name), ("params", .record (Expr.toDataFields params))])
  | .declare type title params =>
    .tagged "declare"
      (.record [("type_name", .string type), ("title", Expr.toData title),
        ("params", .record (Expr.toDataFields params))])

/-- The tree of every expression. -/
def Expr.toDataItems : List Expr → List Data
  | [] => []
  | e :: rest => Expr.toData e :: Expr.toDataItems rest

/-- The fields of named expressions. -/
def Expr.toDataFields : List (String × Expr) → List (String × Data)
  | [] => []
  | (name, e) :: rest => (name, Expr.toData e) :: Expr.toDataFields rest

end

end SiteCatalog
