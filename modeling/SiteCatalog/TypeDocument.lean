import SiteCatalog.Data
import SiteCatalog.Descriptor

/-!
# Type documents

The written form of a descriptor: everything but its body. The attributes that every type accepts
are listed among its arguments.
-/

namespace SiteCatalog

/-- A descriptor as documents hold it. -/
structure TypeDocument where
  /-- The name, or a pattern between slashes. -/
  name : String
  kind : Kind
  arguments : Table (Option Expr)
  parent : Option String
  doc : String
  moduleName : Option String
  file : Option String
  line : Option Nat

namespace TypeDocument

/-- The parameters together with the attributes that every type accepts. -/
def withMetaparameters (parameters : Table (Option Expr)) : Table (Option Expr) :=
  metaparameters.foldl (fun t name => if t.has name then t else t.insert name none) parameters

/-- The document of a descriptor. -/
def ofDescriptor (d : Descriptor) : TypeDocument :=
  { name := d.key, kind := d.kind, arguments := withMetaparameters d.parameters, parent := d.parent
    doc := d.doc, moduleName := d.moduleName, file := d.file, line := d.line }

/-- What stands between the slashes of a pattern key. -/
def betweenSlashes? (name : String) : Option String :=
  match name.toList with
  | '/' :: rest =>
    if rest.getLast? = some '/' then some (String.ofList rest.dropLast) else none
  | _ => none

/-- The descriptor of a document, without a body. An attribute that every type accepts is a
parameter only if it has a default. -/
def restore (doc : TypeDocument) : Except CompileError Descriptor := do
  let base ← match betweenSlashes? doc.name, doc.kind with
    | some source, .node => Descriptor.ofPatternSource source
    | _, kind => .ok (.ofName kind doc.name)
  return { base with
    parent := doc.parent.map Descriptor.parentName
    parameters := doc.arguments.filter fun (name, default) =>
      default.isSome || !metaparameters.contains name
    doc := doc.doc, moduleName := doc.moduleName, file := doc.file, line := doc.line }

/-- A field that is written only if it has a value. -/
def optionalField (name : String) (value : Option String) : List (String × Data) :=
  match value with
  | some s => [(name, .string s)]
  | none => []

/-- The tree of a default. -/
def defaultData : Option Expr → Data
  | some e => e.toData
  | none => .null

/-- The tree of a document. -/
def toData (doc : TypeDocument) : Data :=
  .record
    ([("name", .string doc.name), ("kind", .string doc.kind.documentText),
      ("arguments", .record (doc.arguments.map fun (name, default) => (name, defaultData default)))]
    ++ optionalField "parent" doc.parent
    ++ (if doc.doc = "" then [] else [("doc", .string doc.doc)])
    ++ optionalField "module" doc.moduleName
    ++ optionalField "file" doc.file
    ++ (match doc.line with
      | some n => [("line", .int n)]
      | none => []))

end TypeDocument

end SiteCatalog
