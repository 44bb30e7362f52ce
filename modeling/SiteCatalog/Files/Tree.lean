import SiteCatalog.Files.System

/-!
# File trees

A system of files held in memory. Paths are followed part by part, as a system of files does it that
knows no links: every part but the last has to lead to a directory that exists.
-/

namespace SiteCatalog

/-- What stands at a place. -/
inductive FileEntry
  | file (content : ByteArray)
  | directory

/-- A place in a tree: the names that lead to it, innermost first. -/
abbrev Place := List String

/-- A tree of files. -/
structure FileTree where
  /-- Where relative paths start. -/
  workingDirectory : Place
  entries : List (Place × FileEntry)

namespace FileTree

/-- The tree that holds one empty directory, the working directory, below the root. -/
def empty : FileTree :=
  ⟨["work"], [(["work"], .directory)]⟩

/-- What stands at a place. The root is always there. -/
def stored? (t : FileTree) (place : Place) : Option FileEntry :=
  if place = [] then some .directory else t.entries.lookup place

/-- The tree without what stands at a place. -/
def erase (t : FileTree) (place : Place) : FileTree :=
  { t with entries := t.entries.filter fun e => e.1 ≠ place }

/-- The tree with something at a place. -/
def put (t : FileTree) (place : Place) (entry : FileEntry) : FileTree :=
  { t with entries := (t.erase place).entries ++ [(place, entry)] }

/-- Whether a directory stands at a place. -/
def isDirectoryAt (t : FileTree) (place : Place) : Bool :=
  match t.stored? place with
  | some .directory => true
  | _ => false

/-! ## Following paths -/

/-- The longest name, in bytes. -/
def longestName : Nat := 255

/-- The longest path, in bytes. -/
def longestPath : Nat := 4095

/-- Where a part leads from a place, whether or not anything stands there. -/
def follow (t : FileTree) (place : Place) (part : String) : Except FileFault Place :=
  match t.stored? place with
  | none => .error .notFound
  | some (.file _) => .error .notDirectory
  | some .directory =>
    if part = "" ∨ part = "." then .ok place
    else if part = ".." then .ok place.tail
    else if longestName < part.utf8ByteSize then .error .nameTooLong
    else .ok (part :: place)

/-- Where parts lead from a place. Something has to stand wherever another part follows. -/
def followAll (t : FileTree) : Place → List String → Except FileFault Place
  | place, [] => .ok place
  | place, part :: rest =>
    match t.follow place part with
    | .ok next => followAll t next rest
    | .error fault => .error fault

/-- The place that a path leads to, whether or not anything stands there. -/
def place (t : FileTree) (path : String) : Except FileFault Place :=
  if path.toList.contains '\x00' then .error .zeroInPath
  else if path = "" then .error .notFound
  else if longestPath < path.utf8ByteSize then .error .nameTooLong
  else t.followAll (if Path.isAbsolute path then [] else t.workingDirectory) (Path.parts path)

/-- What stands at the end of a path. -/
def find (t : FileTree) (path : String) : Except FileFault FileEntry :=
  match t.place path with
  | .ok place =>
    match t.stored? place with
    | some entry => .ok entry
    | none => .error .notFound
  | .error fault => .error fault

/-! ## Operations -/

/-- Whether anything stands at a path. -/
def present (t : FileTree) (path : String) : Bool :=
  (t.find path).isOk

/-- Whether a directory stands at a path. -/
def isDirectory (t : FileTree) (path : String) : Bool :=
  match t.find path with
  | .ok .directory => true
  | _ => false

/-- The names directly below a place. -/
def namesBelow (t : FileTree) (place : Place) : List String :=
  t.entries.filterMap fun
    | (name :: above, _) => if above = place then some name else none
    | _ => none

/-- The names in a directory. -/
def list (t : FileTree) (path : String) : Except FileFault (List String) :=
  match t.place path with
  | .error fault => .error fault
  | .ok place =>
    match t.stored? place with
    | none => .error .notFound
    | some (.file _) => .error .notDirectory
    | some .directory => .ok (t.namesBelow place)

/-- The bytes of a file. -/
def read (t : FileTree) (path : String) : Except FileFault ByteArray :=
  match t.find path with
  | .ok (.file content) => .ok content
  | .ok .directory => .error .isDirectory
  | .error fault => .error fault

/-- The text of a file. -/
def readText (t : FileTree) (path : String) : Except FileFault String :=
  match t.read path with
  | .ok content =>
    match String.fromUTF8? content with
    | some text => .ok text
    | none => .error .notText
  | .error fault => .error fault

/-- The tree after a file was written. -/
def write (t : FileTree) (path : String) (content : ByteArray) : Except FileFault FileTree :=
  match t.place path with
  | .ok place =>
    if t.isDirectoryAt place then .error .isDirectory else .ok (t.put place (.file content))
  | .error fault => .error fault

/-- The tree after a directory was made. -/
def makeDirectory (t : FileTree) (path : String) : Except FileFault FileTree :=
  match t.place path with
  | .ok place =>
    match t.stored? place with
    | some _ => .error .present
    | none => .ok (t.put place .directory)
  | .error fault => .error fault

/-- The tree after a file was moved. Directories are not moved. -/
def rename (t : FileTree) (source target : String) : Except FileFault FileTree :=
  match t.place source with
  | .error fault => .error fault
  | .ok start =>
    match t.stored? start with
    | none => .error .notFound
    | some .directory => .error .isDirectory
    | some (.file content) =>
      match t.place target with
      | .error fault => .error fault
      | .ok goal =>
        if t.isDirectoryAt goal then .error .isDirectory
        else .ok ((t.erase start).put goal (.file content))

end FileTree

/-- A program that works on a tree of files. -/
abbrev OnFiles := StateM FileTree

namespace OnFiles

/-- A change that leaves the tree as it is when it fails. -/
def change (f : FileTree → Except FileFault FileTree) : OnFiles (Except FileFault Unit) := do
  match f (← get) with
  | .ok t =>
    set t
    return .ok ()
  | .error fault => return .error fault

instance : FileSystem OnFiles where
  present path := do return (← get).present path
  isDirectory path := do return (← get).isDirectory path
  entries path := do return (← get).list path
  readText path := do return (← get).readText path
  writeText path text := change (·.write path text.toUTF8)
  makeDirectory path := change (·.makeDirectory path)
  rename source target := change (·.rename source target)

end OnFiles

end SiteCatalog
