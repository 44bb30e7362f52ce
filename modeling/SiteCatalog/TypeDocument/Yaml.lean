import SiteCatalog.TypeDocument
import SiteCatalog.Yaml.Typed

/-!
# Type documents in YAML

Reading a type document from YAML. Expressions are told apart by their tags.
-/

namespace SiteCatalog

mutual

/-- The value of a variable that a YAML value stands for. Mappings and fractions are none. -/
def Value.ofYaml? : Yaml → Option Value
  | .null => some .undefined
  | .bool b => some (.bool b)
  | .number n => n.toInt64?.map .int
  | .string s => some (.str s)
  | .sequence items => (Value.ofYamlItems? items).map .array
  | .mapping _ => none
  | .tagged _ _ => none

/-- The values of a sequence. -/
def Value.ofYamlItems? : List Yaml → Option (List Value)
  | [] => some []
  | item :: rest => do
    let v ← Value.ofYaml? item
    let vs ← Value.ofYamlItems? rest
    return v :: vs

end

/-- The value of a variable that a tree stands for. -/
def Value.ofTree? (t : Yaml.Tree) : Option Value := do
  Value.ofYaml? (← t.content? false)

namespace Expr

mutual

/-- Reads an expression; `fuel` bounds its depth. -/
def readTree : Nat → Yaml.Tree → Option Expr
  | 0, _ => none
  | fuel + 1, t =>
    match t.choice? with
    | none => none
    | some (tag, payload) =>
      match tag with
      | "literal" => (Value.ofTree? payload).map .literal
      | "var" => payload.string?.map .var
      | "concat" => (readTreeItems fuel payload).map .concat
      | "list" => (readTreeItems fuel payload).map .list
      | "block" => (readTreeItems fuel payload).map .block
      | "include" => (payload.list? (·.string?)).map .includes
      | "assign" =>
        match payload.fields? ["name", "value"] false with
        | some [some name, some value] => do
          return .assign (← name.string?) (← readTree fuel value)
        | _ => none
      | "class_decl" =>
        match payload.fields? ["name", "params"] false with
        | some [some name, some params] => do
          return .classDecl (← name.string?) (← readTreeParams fuel params)
        | _ => none
      | "declare" =>
        match payload.fields? ["type_name", "title", "params"] false with
        | some [some type, some title, some params] => do
          return .declare (← type.string?) (← readTree fuel title) (← readTreeParams fuel params)
        | _ => none
      | _ => none

/-- Reads a list of expressions. -/
def readTreeItems : Nat → Yaml.Tree → Option (List Expr)
  | 0, _ => none
  | fuel + 1, t => t.list? (readTree fuel)

/-- Reads named expressions. -/
def readTreeParams : Nat → Yaml.Tree → Option (Table Expr)
  | 0, _ => none
  | fuel + 1, t => t.table? (readTree fuel)

end

/-- The expression that a tree stands for. -/
def ofTree? (t : Yaml.Tree) : Option Expr :=
  readTree (2 * t.depth) t

end Expr

namespace TypeDocument

/-- The kind that a tree names: a scalar, or a tag with nothing under it. -/
def kindOfTree? (t : Yaml.Tree) : Option Kind :=
  match t.choice? with
  | some (tag, payload) =>
    if payload.isNone? = some true then Kind.ofDocumentText? tag else none
  | none => t.string?.bind Kind.ofDocumentText?

/-- The document that a tree stands for. -/
def ofTree? (t : Yaml.Tree) : Option TypeDocument := do
  let fields := ["name", "kind", "arguments", "parent", "doc", "module", "file", "line"]
  match ← t.fields? fields false with
  | [some name, some kind, arguments, parent, doc, moduleName, file, line] =>
    return {
      name := ← name.string?
      kind := ← kindOfTree? kind
      arguments := ← Yaml.Tree.orDefault [] (·.table? (·.optional? Expr.ofTree?)) arguments
      parent := ← Yaml.Tree.orDefault none (·.optional? (·.string?)) parent
      doc := ← Yaml.Tree.orDefault "" (·.string?) doc
      moduleName := ← Yaml.Tree.orDefault none (·.optional? (·.string?)) moduleName
      file := ← Yaml.Tree.orDefault none (·.optional? (·.string?)) file
      line := ← Yaml.Tree.orDefault none (·.optional? (·.natural?)) line }
  | _ => none

/-- The document that a text writes. -/
def ofYamlText? (text : String) : Option TypeDocument := do
  ofTree? (← Yaml.tree? text)

end TypeDocument

end SiteCatalog
