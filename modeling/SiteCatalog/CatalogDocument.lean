import SiteCatalog.Catalog
import SiteCatalog.Data

/-!
# Catalog documents

The written form of a catalog.
-/

namespace SiteCatalog

/-- A resource as documents hold it. -/
structure ResourceEntry where
  type : String
  title : String
  parameters : Table Value

/-- A catalog as documents hold it. -/
structure CatalogDocument where
  name : String
  version : Option String
  classes : List String
  tags : List String
  resources : List ResourceEntry

namespace CatalogDocument

/-- The document of a catalog. -/
def ofCatalog (c : Catalog) : CatalogDocument :=
  { name := c.name, version := c.version, classes := c.classes, tags := c.tags
    resources := c.resources.map fun r => ⟨r.tag, r.title, r.params⟩ }

end CatalogDocument

/-- The tree of a resource. -/
def ResourceEntry.toData (r : ResourceEntry) : Data :=
  .record [("type", .string r.type), ("title", .string r.title),
    ("parameters", Value.toDataFields r.parameters)]

/-- The tree of a catalog. -/
def CatalogDocument.toData (doc : CatalogDocument) : Data :=
  .record [("name", .string doc.name), ("version", .ofString? doc.version),
    ("classes", .strings doc.classes), ("tags", .strings doc.tags),
    ("resources", .list (doc.resources.map ResourceEntry.toData))]

end SiteCatalog
