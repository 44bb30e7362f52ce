import SiteCatalog.CatalogDocument.Files
import SiteCatalog.CommandLine.Command
import SiteCatalog.Compilation.Phases
import SiteCatalog.Host.Facts
import SiteCatalog.Json.Printer
import SiteCatalog.Manifest.Collection
import SiteCatalog.Manifest.Files
import SiteCatalog.Settings.Files
import SiteCatalog.TypeDocument

/-!
# Running commands

What a command prints, or why it fails. Every command first reads the settings and then all
manifests, and runs only if nothing is wrong with any of them.
-/

namespace SiteCatalog.CommandLine

/-- The written form of a document. -/
def OutputFormat.render (d : Data) : OutputFormat → String
  | yaml => Yaml.render d
  | json => d.toJson.renderPretty

/-- A text as a line. -/
def line (s : String) : String :=
  s ++ "\n"

/-! ## Listings -/

/-- A text, filled up with spaces to a width. -/
def padTo (width : Nat) (s : String) : String :=
  s ++ String.ofList (List.replicate (width - s.length) ' ')

/-- The line that lists a type. -/
def listingLine (d : Descriptor) : String :=
  padTo 7 d.kind.text ++ " "
    ++ (if d.kind = .hostclass && d.name = "" then "<main>" else d.key)
    ++ (match d.parent with
      | some parent => " inherits " ++ parent
      | none => "")
    ++ (match d.moduleName with
      | some name => " [" ++ name ++ "]"
      | none => "")

/-- The types of a kind, or all of them. -/
def typesOf (kind : Option Kind) (r : Registry) : List Descriptor :=
  r.types.filter fun d => kind.all (d.kind = ·)

/-- What is printed about types. -/
def showTypes (format : Option OutputFormat) (types : List Descriptor) : String :=
  match format with
  | none => String.join (types.map fun d => line (listingLine d))
  | some format =>
    line (format.render (.list (types.map fun d => (TypeDocument.ofDescriptor d).toData)))

/-- The counts that a valid site is reported with. -/
def summary (files : Nat) (r : Registry) : String :=
  let count (kind : Kind) : String := toString (r.idsOf kind).length
  "OK: " ++ toString files ++ " manifest(s), " ++ count .hostclass ++ " classes, "
    ++ count .define ++ " defines, " ++ count .node ++ " nodes"

/-! ## Sites -/

variable {m : Type → Type} [Monad m] [FileSystem m]

/-- An operation on files as part of a command. -/
def lift {α : Type} (x : ExceptT CompileError m α) : ExceptT Fault m α :=
  x.adapt .error

/-- The problems of a manifest. -/
def problems (manifest : Manifest) : List Problem :=
  manifest.invalidities.map fun i => ⟨manifest.file.getD "", i⟩

/-- The settings and the manifests of a site. -/
def loadManifests (site : Site) : ExceptT Fault m (Settings × List Manifest) := do
  let settings ← lift (Settings.load site.config)
  let manifests ← lift (Manifest.loadAll (site.manifests.getD settings.manifestDir))
  match manifests.flatMap problems with
  | [] => return (settings, manifests)
  | found => throw (.invalidManifests found)

/-- What manifests declare together. -/
def collect (settings : Settings) (manifests : List Manifest) : ExceptT Fault m Registry :=
  match Registry.ofManifests manifests settings with
  | .ok types => return types
  | .error e => throw (.error e)

/-- The settings of a site and what it declares. -/
def loadSite (site : Site) : ExceptT Fault m (Settings × Registry) := do
  let (settings, manifests) ← loadManifests site
  return (settings, ← collect settings manifests)

/-- The facts in a file. -/
def loadFacts (path : String) : ExceptT Fault m (Table Value) := do
  let text ← lift (FileSystem.attempt ("failed to read " ++ path) (FileSystem.readText path))
  match Facts.ofText? text with
  | some facts => return facts
  | none => throw (.malformedFacts path)

/-! ## Commands -/

/-- The catalog of a host. -/
def compileCatalog (types : Registry) (host : Host) (settings : Settings) :
    ExceptT Fault m CatalogDocument :=
  match Compilation.compile Compilation.enoughRounds types host settings with
  | (.ok (), state) => return .ofCatalog state.catalog
  | (.error (.error e), _) => throw (.error e)
  | (.error .dangling, _) => throw .dangling
  | (.error .exhausted, _) => throw .exhausted
  | (.error .endless, _) => throw .exhausted

/-- Prints a catalog or writes it to its file. -/
def deliver (doc : CatalogDocument) (format : OutputFormat) (out : Option String) :
    ExceptT Fault m String := do
  match out with
  | some directory =>
    let path ← lift (doc.save directory)
    return line ("Compiled " ++ doc.name ++ " (" ++ toString doc.resources.length ++ " resources, "
      ++ toString doc.classes.length ++ " classes) → " ++ path)
  | none => return line (format.render doc.toData)

/-- Runs a command. The result is what it prints. -/
def Command.run : Command → ExceptT Fault m String
  | .compile site name factsFile classes format out => do
    let (settings, registry) ← loadSite site
    let facts ← match factsFile with
      | some path => loadFacts path
      | none => pure []
    let doc ← compileCatalog registry ⟨name, facts, classes⟩ settings
    deliver doc format out
  | .validate site => do
    let (settings, manifests) ← loadManifests site
    let registry ← collect settings manifests
    return line (summary manifests.length registry)
  | .types site kind format => do
    let (_, registry) ← loadSite site
    return showTypes format (typesOf kind registry)
  | .select site name => do
    let (_, registry) ← loadSite site
    let host : Host := { given := name }
    match (registry.nodeFor host.candidates).bind registry.get? with
    | some d => return line (host.name ++ " → node " ++ d.key)
    | none => throw (.unmatchedHost host.name)

end SiteCatalog.CommandLine
