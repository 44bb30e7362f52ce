import SiteCatalog.Json.Fields
import SiteCatalog.TypeDocument

/-!
# Type documents in JSON

Reading a type document from a JSON value. Unknown members are ignored, a known one may occur once,
and of a repeated argument the last value counts.
-/

namespace SiteCatalog

mutual

/-- The value that a JSON value stands for. Objects and fractions are none. -/
def Value.ofJson? : Json → Option Value
  | .null => some .undefined
  | .bool b => some (.bool b)
  | .number n => n.toInt64?.map .int
  | .string s => some (.str s)
  | .array items => (Value.ofJsonItems? items).map .array
  | .object _ => none

/-- The values of an array. -/
def Value.ofJsonItems? : List Json → Option (List Value)
  | [] => some []
  | item :: rest => do
    let v ← Value.ofJson? item
    let vs ← Value.ofJsonItems? rest
    return v :: vs

end

namespace Expr

mutual

/-- Reads an expression; `fuel` bounds its depth. -/
def readJson : Nat → Json → Option Expr
  | 0, _ => none
  | fuel + 1, .object [(tag, payload)] =>
    match tag with
    | "literal" => (Value.ofJson? payload).map .literal
    | "var" => payload.string?.map .var
    | "concat" => (readJsonItems fuel payload).map .concat
    | "list" => (readJsonItems fuel payload).map .list
    | "block" => (readJsonItems fuel payload).map .block
    | "include" => payload.strings?.map .includes
    | "assign" =>
      match payload.fields? ["name", "value"] with
      | some [some name, some value] => do
        return .assign (← name.string?) (← readJson fuel value)
      | _ => none
    | "class_decl" =>
      match payload.fields? ["name", "params"] with
      | some [some name, some params] => do
        return .classDecl (← name.string?) (← readJsonParams fuel params)
      | _ => none
    | "declare" =>
      match payload.fields? ["type_name", "title", "params"] with
      | some [some type, some title, some params] => do
        return .declare (← type.string?) (← readJson fuel title) (← readJsonParams fuel params)
      | _ => none
    | _ => none
  | _ + 1, _ => none

/-- Reads a list of expressions. -/
def readJsonItems : Nat → Json → Option (List Expr)
  | 0, _ => none
  | fuel + 1, .array items => items.mapM (readJson fuel)
  | _ + 1, _ => none

/-- Reads named expressions. -/
def readJsonParams : Nat → Json → Option (Table Expr)
  | 0, _ => none
  | fuel + 1, .object members => do
    let entries ← members.mapM fun (name, j) => (readJson fuel j).map (name, ·)
    return Table.ofList entries
  | _ + 1, _ => none

end

/-- The expression that a JSON value stands for. -/
def ofJson? (j : Json) : Option Expr :=
  readJson j.depth j

end Expr

namespace TypeDocument

/-- The default that a JSON value stands for. -/
def defaultOfJson? : Json → Option (Option Expr)
  | .null => some none
  | j => (Expr.ofJson? j).map some

/-- The arguments that a JSON value stands for. -/
def argumentsOfJson? : Json → Option (Table (Option Expr))
  | .object members => do
    let entries ← members.mapM fun (name, j) => (defaultOfJson? j).map (name, ·)
    return Table.ofList entries
  | _ => none

/-- The kind that a JSON value names: a word, or an object with the word as its one name. -/
def kindOfJson? : Json → Option Kind
  | .string s => Kind.ofDocumentText? s
  | .object [(s, .null)] => Kind.ofDocumentText? s
  | _ => none

/-- The line that a JSON value gives. -/
def lineOfJson? : Json → Option (Option Nat)
  | .null => some none
  | .number (.unsigned n) => some (some n.toNat)
  | _ => none

/-- The value of a field, or a default for a field that is missing. -/
def orDefault {α : Type} (default : α) (read : Json → Option α) : Option Json → Option α
  | some j => read j
  | none => some default

/-- The document that a JSON value stands for. -/
def ofJson? (j : Json) : Option TypeDocument := do
  match ← j.fields? ["name", "kind", "arguments", "parent", "doc", "module", "file", "line"] with
  | [some name, some kind, arguments, parent, doc, moduleName, file, line] =>
    return {
      name := ← name.string?
      kind := ← kindOfJson? kind
      arguments := ← orDefault [] argumentsOfJson? arguments
      parent := ← orDefault none Json.optionalString? parent
      doc := ← orDefault "" Json.string? doc
      moduleName := ← orDefault none Json.optionalString? moduleName
      file := ← orDefault none Json.optionalString? file
      line := ← orDefault none lineOfJson? line }
  | _ => none

end TypeDocument

end SiteCatalog
