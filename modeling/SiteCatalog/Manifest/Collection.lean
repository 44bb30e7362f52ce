import SiteCatalog.Manifest.Basic
import SiteCatalog.Manifest.Values
import SiteCatalog.Registry
import SiteCatalog.Settings

/-!
# Collecting a site

The registry of the types that manifests declare. Declarations of a class in several manifests are
joined, and so are their top-level statements, which form the unnamed class.
-/

namespace SiteCatalog

/-- The parameters of a statement as expressions. -/
def Statement.paramsExpr : Table Yaml → Except CompileError (Table Expr)
  | [] => .ok []
  | (name, v) :: rest => do
    let e ← v.toExpr
    let es ← Statement.paramsExpr rest
    return (name, e) :: es

/-- The expression of a statement. -/
def Statement.toExpr : Statement → Except CompileError Expr
  | .set vars => do
    let es ← Statement.paramsExpr vars
    return .block (es.map fun (name, e) => .assign name e)
  | .includes names => .ok (.includes names)
  | .hostclass name params => do
    let es ← Statement.paramsExpr params
    return .classDecl name es
  | .resource type title params => do
    let t ← title.toExpr
    let es ← Statement.paramsExpr params
    return .declare type t es

/-- The block of statements. -/
def Statement.blockOf (statements : List Statement) : Except CompileError Expr := do
  let es ← statements.mapM Statement.toExpr
  return .block es

namespace Declaration

/-- The declared parameters; a null default marks one that has to be passed. -/
def parameters : Table Yaml → Except CompileError (Table (Option Expr))
  | [] => .ok []
  | (name, .null) :: rest => do
    let ps ← parameters rest
    return (name, none) :: ps
  | (name, v) :: rest => do
    let e ← v.toExpr
    let ps ← parameters rest
    return (name, some e) :: ps

/-- The body of a list of statements; an empty list is no body. -/
def bodyOf (statements : List Statement) : Except CompileError (Option Body) :=
  if statements.isEmpty then .ok none
  else do
    let e ← Statement.blockOf statements
    return some (.code e)

/-- A type with what its declaration in a manifest says. -/
def describe (base : Descriptor) (d : Declaration) (m : Manifest) :
    Except CompileError Descriptor := do
  let parameters ← parameters d.params
  let body ← bodyOf d.body
  return { base with
    parent := d.inherits.map Descriptor.parentName
    parameters, body, moduleName := m.moduleName, doc := d.doc, file := m.file }

end Declaration

namespace Manifest

/-- The class that an entry declares. -/
def classOf (m : Manifest) (name : String) (d : Declaration) : Except CompileError Descriptor :=
  d.describe (.ofName .hostclass name) m

/-- The defined type that an entry declares. -/
def defineOf (m : Manifest) (name : String) (d : Declaration) : Except CompileError Descriptor :=
  d.describe (.ofName .define name) m

/-- The node that an entry declares, by name or by pattern. -/
def nodeOf (m : Manifest) (name : String) (d : Declaration) : Except CompileError Descriptor := do
  let base ← match patternSource? name with
    | some source => Descriptor.ofPatternSource source
    | none => .ok (.ofName .node name)
  d.describe base m

/-- The unnamed class with the top-level statements, if there are any. -/
def mainOf? (m : Manifest) : Except CompileError (Option Descriptor) := do
  match ← Declaration.bodyOf m.main with
  | none => return none
  | some body =>
    return some { Descriptor.ofName .hostclass "" with body := some body, file := m.file }

/-- Joins the classes of a manifest with those of a registry. -/
def collectClasses (m : Manifest) (freezeMain : Bool) :
    Table Declaration → Registry → Except CompileError Registry
  | [], r => .ok r
  | (name, d) :: rest, r => do
    let c ← m.classOf name d
    let (_, r) ← r.mergeClass c freezeMain
    collectClasses m freezeMain rest r

/-- Adds the types of a section to a registry. -/
def collectSection (typeOf : String → Declaration → Except CompileError Descriptor) :
    Table Declaration → Registry → Except CompileError Registry
  | [], r => .ok r
  | (name, d) :: rest, r => do
    let t ← typeOf name d
    let (_, r) ← r.add t
    collectSection typeOf rest r

/-- Joins the top-level statements of a manifest with those of a registry. -/
def collectMain (m : Manifest) (freezeMain : Bool) (r : Registry) :
    Except CompileError Registry := do
  match ← m.mainOf? with
  | none => return r
  | some main =>
    let (_, r) ← r.mergeClass main freezeMain
    return r

/-- Adds what a manifest declares to a registry: classes, top-level statements, defined types and
nodes. -/
def collect (m : Manifest) (freezeMain : Bool) (r : Registry) : Except CompileError Registry := do
  let r ← m.collectClasses freezeMain m.classes r
  let r ← m.collectMain freezeMain r
  let r ← collectSection m.defineOf m.defines r
  collectSection m.nodeOf m.nodes r

/-- Adds what several manifests declare to a registry. -/
def collectAll (freezeMain : Bool) : List Manifest → Registry → Except CompileError Registry
  | [], r => .ok r
  | m :: rest, r => do
    let r ← m.collect freezeMain r
    collectAll freezeMain rest r

end Manifest

/-- The registry of a site. -/
def Registry.ofManifests (manifests : List Manifest) (settings : Settings) :
    Except CompileError Registry :=
  Manifest.collectAll settings.freezeMain manifests (.empty settings.environment)

end SiteCatalog
