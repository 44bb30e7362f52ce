import SiteCatalog.Proofs.CatalogStore
import SiteCatalog.Proofs.Locations

/-!
# Where catalogs are saved

The files of a node lie in the directory that its name leads to from the output directory. A name
may be any text, and nothing keeps it from leading elsewhere: a name that starts at the root or goes
up leaves the output directory, and names that differ in points and slashes only lead to one
directory.

Results:
* `CatalogDocument.save_writes`: a save writes the two files of its node and no other.
* `CatalogDocument.catalogs_apart_iff`: for which nodes the files lie inside the output directory,
  and for which they are different files.
-/

namespace SiteCatalog.CatalogDocument

open FileTree
open SiteCatalog.Path (resolve Descends IsName)

/-! ## The files of a node -/

variable {working : Place} {out node : String}

/-- The directory that the files of a node lie in. -/
def directory (working : Place) (out node : String) : Place :=
  resolve working (Path.join out node)

/-- The files that are written when the catalog of a node is saved: the catalog file and its
draft. -/
def files (working : Place) (out node : String) : List Place :=
  [resolve working (filePath out node), resolve working (draftPath (filePath out node))]

theorem files_eq (working : Place) (out node : String) : files working out node =
    ["catalog.yaml" :: directory working out node,
      "catalog.yaml.tmp" :: directory working out node] := by
  rw [files, draftPath_filePath, filePath, Path.resolve_join working (Path.join out node),
    Path.resolve_join working (Path.join out node), isName_catalog.resolve_eq,
    isName_draft.resolve_eq]
  rfl

/-! ## What a save writes -/

/-- Outside of some places the files are the same. -/
structure FilesKept (places : List Place) (t t' : FileTree) : Prop where
  workingDirectory : t'.workingDirectory = t.workingDirectory
  file : ∀ q ∉ places, ∀ content,
    t'.stored? q = some (.file content) ↔ t.stored? q = some (.file content)

namespace FilesKept

variable {places : List Place} {t t' : FileTree} {q : Place}

@[refl] theorem refl (t : FileTree) : FilesKept places t t :=
  ⟨rfl, fun _ _ _ => Iff.rfl⟩

theorem trans {t'' : FileTree} (h : FilesKept places t t') (h' : FilesKept places t' t'') :
    FilesKept places t t'' :=
  ⟨h'.workingDirectory.trans h.workingDirectory,
    fun q hq content => (h'.file q hq content).trans (h.file q hq content)⟩

theorem ne_nil (h : t.stored? q ≠ some .directory) : q ≠ [] := by
  rintro rfl
  exact h rfl

/-- A directory is made where nothing stands. -/
theorem put_directory (hnone : t.stored? q = none) : FilesKept places t (t.put q .directory) where
  workingDirectory := rfl
  file := by
    intro q' _ content
    have hq : q ≠ [] := ne_nil (t := t) (by simp [hnone])
    rw [stored?_put t hq]
    split
    · next heq => simp [heq, hnone]
    · exact Iff.rfl

theorem put_file (hq : q ∈ places) (hfile : t.stored? q ≠ some .directory) (content : ByteArray) :
    FilesKept places t (t.put q (.file content)) where
  workingDirectory := rfl
  file := by
    intro q' hq' _
    have hne : q' ≠ q := fun heq => hq' (heq ▸ hq)
    rw [stored?_put t (ne_nil hfile), if_neg hne]

theorem erase_file (hq : q ∈ places) (hfile : t.stored? q ≠ some .directory) :
    FilesKept places t (t.erase q) where
  workingDirectory := rfl
  file := by
    intro q' hq' _
    have hne : q' ≠ q := fun heq => hq' (heq ▸ hq)
    rw [stored?_erase t (ne_nil hfile), if_neg hne]

end FilesKept

/-- A program that starts in a working directory and writes files at some places only. -/
def Writes {α : Type} (working : Place) (places : List Place) (x : OnDisk α) : Prop :=
  ∀ disk : Disk, disk.tree.workingDirectory = working →
    FilesKept places disk.tree (x disk).2.tree

namespace Writes

variable {α β : Type} {places : List Place} {path : String}

theorem pure (a : α) : Writes working places (Pure.pure a : OnDisk α) :=
  fun disk _ => .refl disk.tree

theorem bind {x : OnDisk α} {f : α → OnDisk β} (hx : Writes working places x)
    (hf : ∀ a, Writes working places (f a)) : Writes working places (x >>= f) := by
  intro disk hworking
  have hstep := hx disk hworking
  exact hstep.trans (hf _ _ (hstep.workingDirectory.trans hworking))

theorem makeDirectory : Writes working places (FileSystem.makeDirectory path : OnDisk _) := by
  intro disk _
  change FilesKept places disk.tree
    (OnDisk.change (·.makeDirectory path) (fun _ t => t) disk).2.tree
  obtain ⟨_, -, htree⟩ | ⟨-, htree⟩ :=
    OnDisk.change_cases_of_unspoiled (·.makeDirectory path) disk
  · rw [htree]
  · obtain ⟨q, -, hnone, htree⟩ := makeDirectory_eq_ok htree
    rw [htree]
    exact .put_directory hnone

theorem ensureDirectory : Writes working places (FileSystem.ensureDirectory path : OnDisk _) := by
  refine makeDirectory.bind fun result => ?_
  cases result with
  | ok => exact .pure _
  | error fault =>
    refine Writes.bind (fun disk _ => .refl disk.tree) fun there => ?_
    cases there <;> exact .pure _

theorem makeChain (paths : List String) :
    Writes working places (FileSystem.makeChain paths : OnDisk _) := by
  induction paths with
  | nil => exact .pure _
  | cons path above ih =>
    refine ensureDirectory.bind fun result => ?_
    split
    · refine ih.bind fun above => ?_
      cases above with
      | ok => exact ensureDirectory
      | error => exact .pure _
    · exact .pure _

/-- Whatever an accident leaves of a file is left at the place of the file. -/
theorem writeText (hpath : resolve working path ∈ places) (text : String) :
    Writes working places (FileSystem.writeText path text : OnDisk _) := by
  rintro disk rfl
  have hwrite : ∀ {content : ByteArray} {t' : FileTree}, disk.tree.write path content = .ok t' →
      FilesKept places disk.tree t' := by
    intro content t' h
    obtain ⟨q, hq, hfile, rfl⟩ := write_eq_ok h
    exact .put_file (place_eq_resolve hq ▸ hpath) hfile content
  have hcases := OnDisk.change_cases (·.write path text.toUTF8) (OnDisk.spoilFile path) disk
  change FilesKept places disk.tree
    (OnDisk.change (·.write path text.toUTF8) (OnDisk.spoilFile path) disk).2.tree
  obtain ⟨a, -, htree⟩ | ⟨t', ht', -, htree⟩ | ⟨fault, -, htree⟩ := hcases
  · rw [htree]
    unfold OnDisk.spoilFile
    split
    · next content _ =>
      cases hspoiled : disk.tree.write path content with
      | error => exact .refl _
      | ok t' => exact hwrite hspoiled
    · exact .refl _
  · rw [htree]
    exact hwrite ht'
  · rw [htree]

theorem rename {source : String} (hsource : resolve working source ∈ places)
    (hpath : resolve working path ∈ places) :
    Writes working places (FileSystem.rename source path : OnDisk _) := by
  rintro disk rfl
  change FilesKept places disk.tree
    (OnDisk.change (·.rename source path) (fun _ t => t) disk).2.tree
  obtain ⟨_, -, htree⟩ | ⟨-, htree⟩ := OnDisk.change_cases_of_unspoiled (·.rename source path) disk
  · rw [htree]
  · obtain ⟨start, goal, content, hstart, hgoal, hcontent, hfile, htree⟩ := rename_eq_ok htree
    rw [htree]
    have hold : disk.tree.stored? start ≠ some .directory := by simp [hcontent]
    refine (FilesKept.erase_file (place_eq_resolve hstart ▸ hsource) hold).trans
      (.put_file (place_eq_resolve hgoal ▸ hpath) ?_ content)
    rw [stored?_erase _ (FilesKept.ne_nil hold)]
    split
    · simp
    · exact hfile

theorem attempt {context : String} {x : OnDisk (Except FileFault α)}
    {f : α → ExceptT CompileError OnDisk β} (hx : Writes working places x)
    (hf : ∀ a, Writes working places (f a).run) :
    Writes working places
      (FileSystem.attempt context x >>= f : ExceptT CompileError OnDisk β).run := by
  intro disk hworking
  have hstep := hx disk hworking
  rw [run_attempt_bind]
  split
  · exact hstep.trans (hf _ _ (hstep.workingDirectory.trans hworking))
  · exact hstep

end Writes

/-- Whatever befalls a save, it writes the files of its node and no other. -/
theorem save_writes (working : Place) (out : String) (doc : CatalogDocument) :
    Writes working (files working out doc.name)
      (save out doc : ExceptT CompileError OnDisk _).run := by
  have hcatalog : resolve working (filePath out doc.name) ∈ files working out doc.name :=
    List.mem_cons_self
  have hdraft : resolve working (draftPath (filePath out doc.name)) ∈ files working out doc.name :=
    List.mem_cons_of_mem _ List.mem_cons_self
  exact .attempt (.makeChain _) fun _ => .attempt (.writeText hdraft _) fun _ =>
    .attempt (.rename hdraft hcatalog) fun _ => .pure _

/-! ## Files that lie inside and apart -/

variable {a b : String}

/-- A file lies below a directory. -/
def Inside (dir file : Place) : Prop :=
  ∃ names, names ≠ [] ∧ file = names ++ dir

theorem inside_cons_iff {dir place : Place} {name : String} :
    Inside dir (name :: place) ↔ dir <:+ place := by
  constructor
  · rintro ⟨_ | ⟨x, names⟩, hne, heq⟩
    · exact absurd rfl hne
    · exact ⟨names, (List.cons.inj heq).2.symm⟩
  · rintro ⟨names, rfl⟩
    exact ⟨name :: names, List.cons_ne_nil _ _, rfl⟩

/-- The files of two nodes lie below the output directory, and they are different files. -/
structure KeptApart (working : Place) (out a b : String) : Prop where
  first : ∀ file ∈ files working out a, Inside (resolve working out) file
  second : ∀ file ∈ files working out b, Inside (resolve working out) file
  disjoint : (files working out a).Disjoint (files working out b)

theorem inside_iff (working : Place) (out node : String) :
    (∀ file ∈ files working out node, Inside (resolve working out) file) ↔
      resolve working out <:+ directory working out node := by
  simp [files_eq, inside_cons_iff]

theorem disjoint_iff (working : Place) (out a b : String) :
    (files working out a).Disjoint (files working out b) ↔
      directory working out a ≠ directory working out b := by
  rw [ne_comm]
  simp [files_eq]

/-- The two nodes' files are kept apart below every output directory exactly if both names descend
and they lead to different places. -/
theorem forall_keptApart_iff : (∀ working out, KeptApart working out a b) ↔
    Descends a ∧ Descends b ∧ resolve [] a ≠ resolve [] b := by
  constructor
  · intro hall
    refine ⟨Path.suffix_resolve_iff.mp fun working out =>
        (inside_iff working out a).mp (hall working out).first,
      Path.suffix_resolve_iff.mp fun working out =>
        (inside_iff working out b).mp (hall working out).second, ?_⟩
    have hdisjoint := (disjoint_iff [] "" a b).mp (hall [] "").disjoint
    rwa [directory, directory, Path.join_empty, Path.join_empty] at hdisjoint
  · rintro ⟨ha, hb, hne⟩ working out
    refine ⟨(inside_iff working out a).mpr (Path.suffix_resolve_iff.mpr ha working out),
      (inside_iff working out b).mpr (Path.suffix_resolve_iff.mpr hb working out),
      (disjoint_iff working out a b).mpr ?_⟩
    rw [directory, directory, Path.resolve_join, Path.resolve_join, ha.resolve_eq, hb.resolve_eq]
    exact fun heq => hne (List.append_cancel_right heq)

/-- A save writes the two files of its node and no other. They lie below the output directory if the
name leads from there to a place that does, and the files of two nodes are different if their names
lead to different places. For every output directory this is so exactly if both names descend and
lead to different places; it is so of different names of directories. -/
theorem catalogs_apart_iff (a b : String) :
    (∀ working out (doc : CatalogDocument), Writes working (files working out doc.name)
      (save out doc : ExceptT CompileError OnDisk _).run) ∧
    (∀ working out,
      ((∀ file ∈ files working out a, Inside (resolve working out) file) ↔
        resolve working out <:+ resolve (resolve working out) a) ∧
      ((files working out a).Disjoint (files working out b) ↔
        resolve (resolve working out) a ≠ resolve (resolve working out) b)) ∧
    ((∀ working out, KeptApart working out a b) ↔
      Descends a ∧ Descends b ∧ resolve [] a ≠ resolve [] b) ∧
    (IsName a → IsName b → a ≠ b → ∀ working out, KeptApart working out a b) := by
  refine ⟨save_writes, fun working out => ⟨?_, ?_⟩, forall_keptApart_iff, fun ha hb hne => ?_⟩
  · rw [inside_iff, directory, Path.resolve_join]
  · rw [disjoint_iff, directory, directory, Path.resolve_join, Path.resolve_join]
  · refine forall_keptApart_iff.mpr ⟨ha.descends, hb.descends, ?_⟩
    rw [ha.resolve_eq, hb.resolve_eq]
    exact fun heq => hne (List.cons.inj heq).1

/-- The catalog of a node whose name starts at the root is not saved below the output directory. -/
theorem not_keptApart : ¬∀ (working : Place) (out a b : String), a ≠ b →
    KeptApart working out a b := by
  intro hall
  have hinside := (inside_iff ["work"] "out" "/etc").mp
    (hall ["work"] "out" "/etc" "web01" (by decide)).first
  exact absurd hinside (by decide)

end SiteCatalog.CatalogDocument
