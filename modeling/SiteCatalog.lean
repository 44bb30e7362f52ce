import SiteCatalog.Files.Tree
import SiteCatalog.Json.Reader
import SiteCatalog.Main
import SiteCatalog.Proofs.CatalogLocations
import SiteCatalog.Proofs.Compilation.Coercion
import SiteCatalog.Proofs.Compilation.Constants
import SiteCatalog.Proofs.Compilation.Duplicates
import SiteCatalog.Proofs.Compilation.Enrolment
import SiteCatalog.Proofs.Compilation.Growth
import SiteCatalog.Proofs.Compilation.Instances
import SiteCatalog.Proofs.Compilation.Once
import SiteCatalog.Proofs.Compilation.Parameters
import SiteCatalog.Proofs.Compilation.ParentsFirst
import SiteCatalog.Proofs.Compilation.Places
import SiteCatalog.Proofs.Compilation.Qualified
import SiteCatalog.Proofs.Compilation.Respelling
import SiteCatalog.Proofs.Compilation.Sources
import SiteCatalog.Proofs.Compilation.Spelling.Outcome
import SiteCatalog.Proofs.Compilation.Tags
import SiteCatalog.Proofs.Compilation.Termination
import SiteCatalog.Proofs.NodeSelection
import SiteCatalog.Proofs.RelativeNames
import SiteCatalog.Proofs.SelfInheritance
import SiteCatalog.Proofs.Splitting
import SiteCatalog.Proofs.Statements
import SiteCatalog.Proofs.Strictness
import SiteCatalog.Proofs.TypeDocuments
import SiteCatalog.Proofs.Versions
import SiteCatalog.TypeDocument.Json
