import SiteCatalog.Catalog
import SiteCatalog.Hash.Blake3

/-!
# Versions of catalogs

The version of a catalog is the hash of a listing of its resources: for each resource its reference,
a zero byte, each parameter as name, `=`, text and a zero byte, and a line feed.
-/

namespace SiteCatalog

/-- The bytes of a text. -/
def utf8 (s : String) : List UInt8 :=
  s.toUTF8.toList

/-- The listing of parameters. -/
def Resource.parameterListing (params : Table Value) : List UInt8 :=
  params.flatMap fun (name, value) => utf8 name ++ utf8 "=" ++ utf8 value.text ++ [0]

/-- The listing of a resource. -/
def Resource.listing (r : Resource) : List UInt8 :=
  utf8 r.reference ++ [0] ++ Resource.parameterListing r.params ++ utf8 "\n"

namespace Catalog

/-- The listing of the resources of a catalog. -/
def listing (c : Catalog) : List UInt8 :=
  c.resources.flatMap Resource.listing

/-- A byte in hexadecimal. -/
def hexByte (b : UInt8) : List Char :=
  [Nat.digitChar (b.toNat / 16), Nat.digitChar (b.toNat % 16)]

/-- The digest of the listing. -/
def digest (c : Catalog) : String :=
  "blake3:" ++ String.ofList ((Blake3.hash c.listing).flatMap hexByte)

/-- The catalog with its version. -/
def finalize (c : Catalog) : Catalog :=
  { c with version := some c.digest }

end Catalog

end SiteCatalog
