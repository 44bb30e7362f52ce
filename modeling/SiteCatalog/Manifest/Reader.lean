import SiteCatalog.Error
import SiteCatalog.Manifest.Basic
import SiteCatalog.Yaml.Typed

/-!
# Reading manifests

The shapes that manifests have in YAML. The fields of a manifest and of a declaration are fixed. A
statement is the first of the four kinds whose fields fit; it may also be a sequence of the fields
of its kind, and its fields may be numbered instead of named.
-/

namespace SiteCatalog

open Yaml.Tree (orDefault)

namespace Statement

/-- The field of a statement that a key names. -/
def fieldName? (names : List String) : Yaml → Option String
  | .string s => some s
  | .number (.unsigned n) => names[n.toNat]?
  | _ => none

/-- The fields of a statement; there may be no others. -/
def fields? (names : List String) : Yaml → Option (List (Option Yaml))
  | .sequence items =>
    if items.length ≤ names.length then
      some (items.map some ++ List.replicate (names.length - items.length) none)
    else none
  | .mapping entries => do
    let entries ← entries.mapM fun (key, value) => do
      let name ← fieldName? names key
      return (name, value)
    Yaml.Tree.fieldsOf? names true entries
  | _ => none

/-- A string and nothing that only looks like one. -/
def text? : Yaml → Option String
  | .string s => some s
  | _ => none

/-- Named values. -/
def params? : Yaml → Option (Table Yaml)
  | .mapping entries => do
    let entries ← entries.mapM fun (key, value) => do
      let name ← text? key
      let v ← value.checked?
      return (name, v)
    return Table.ofList entries
  | _ => none

/-- One name or a list of names. -/
def names? : Yaml → Option (List String)
  | .string s => some [s]
  | .sequence items => items.mapM text?
  | _ => none

/-- Reads an assignment of variables. -/
def set? (y : Yaml) : Option Statement :=
  match fields? ["set"] y with
  | some [some vars] => (params? vars).map .set
  | _ => none

/-- Reads an inclusion. -/
def includes? (y : Yaml) : Option Statement :=
  match fields? ["include"] y with
  | some [some names] => (names? names).map .includes
  | _ => none

/-- Reads the declaration of a class. -/
def class? (y : Yaml) : Option Statement :=
  match fields? ["class", "params"] y with
  | some [some name, params] => do
    return .hostclass (← text? name) (← orDefault [] params? params)
  | _ => none

/-- Reads the declaration of a resource. -/
def resource? (y : Yaml) : Option Statement :=
  match fields? ["resource", "title", "params"] y with
  | some [some type, some title, params] => do
    return .resource (← text? type) (← title.checked?) (← orDefault [] params? params)
  | _ => none

/-- The statement that a value stands for. -/
def ofYaml? (y : Yaml) : Option Statement :=
  (set? y).or ((includes? y).or ((class? y).or (resource? y)))

/-- The statement that a tree stands for. It holds no tags of the document's own. -/
def ofTree? (t : Yaml.Tree) : Option Statement := do
  ofYaml? (← t.content? false)

end Statement

/-- The declaration that a tree stands for. -/
def Declaration.ofTree? (t : Yaml.Tree) : Option Declaration := do
  match ← t.fields? ["inherits", "doc", "params", "body"] true with
  | [inherits, doc, params, body] =>
    return {
      inherits := ← orDefault none (·.optional? (·.string?)) inherits
      doc := ← orDefault "" (·.string?) doc
      params := ← orDefault [] (·.table? (·.value?)) params
      body := ← orDefault [] (·.list? Statement.ofTree?) body }
  | _ => none

namespace Manifest

/-- The manifest that a tree stands for. -/
def ofTree? (t : Yaml.Tree) : Option Manifest := do
  match ← t.fields? ["module", "classes", "defines", "nodes", "main"] true with
  | [moduleName, classes, defines, nodes, main] =>
    return {
      moduleName := ← orDefault none (·.optional? (·.string?)) moduleName
      classes := ← orDefault [] (·.table? Declaration.ofTree?) classes
      defines := ← orDefault [] (·.table? Declaration.ofTree?) defines
      nodes := ← orDefault [] (·.table? Declaration.ofTree?) nodes
      main := ← orDefault [] (·.list? Statement.ofTree?) main }
  | _ => none

/-- The manifest that a text writes. -/
def ofText? (text : String) : Option Manifest := do
  ofTree? (← Yaml.tree? text)

/-- The manifest that a text writes. -/
def parse (text : String) : Except CompileError Manifest :=
  match ofText? text with
  | some m => .ok m
  | none => .error (.manifest .malformed)

end Manifest

end SiteCatalog
