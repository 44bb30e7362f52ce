import SiteCatalog.Files.Tree

/-!
# Disks

A tree of files on a disk on which changes may fail although nothing in the tree stands in their
way. Making a directory and moving a file then leave the tree as it is; writing a file may leave
anything in it. Reading is reliable.
-/

namespace SiteCatalog

/-- What befalls a change: the fault that it reports and, for the writing of a file, what is left in
the file, if it was touched at all. -/
structure Accident where
  fault : FileFault
  residue : Option ByteArray

/-- A tree of files, and what befalls the changes to come, one after the other; nothing befalls those
that come after them. -/
structure Disk where
  tree : FileTree
  fate : List (Option Accident)

/-- A program that works on a disk. -/
abbrev OnDisk := StateM Disk

namespace OnDisk

/-- A change of the tree that fails or that an accident befalls; `spoil` says what an accident
leaves. -/
def change (f : FileTree → Except FileFault FileTree) (spoil : Accident → FileTree → FileTree) :
    OnDisk (Except FileFault Unit) := fun disk =>
  let fate := disk.fate.tail
  match disk.fate.head?.join with
  | some accident => (.error accident.fault, ⟨spoil accident disk.tree, fate⟩)
  | none =>
    match f disk.tree with
    | .ok tree => (.ok (), ⟨tree, fate⟩)
    | .error fault => (.error fault, ⟨disk.tree, fate⟩)

/-- What is left of a file at whose writing an accident happened. -/
def spoilFile (path : String) (accident : Accident) (t : FileTree) : FileTree :=
  match accident.residue with
  | some content => (t.write path content).toOption.getD t
  | none => t

instance : FileSystem OnDisk where
  present path := do return (← get).tree.present path
  isDirectory path := do return (← get).tree.isDirectory path
  entries path := do return (← get).tree.list path
  readText path := do return (← get).tree.readText path
  writeText path text := change (·.write path text.toUTF8) (spoilFile path)
  makeDirectory path := change (·.makeDirectory path) fun _ t => t
  rename source target := change (·.rename source target) fun _ t => t

end OnDisk

end SiteCatalog
