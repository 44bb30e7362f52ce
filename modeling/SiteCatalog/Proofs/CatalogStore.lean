import SiteCatalog.CatalogDocument.Files
import SiteCatalog.Proofs.Documents
import SiteCatalog.Proofs.Files

/-!
# The store of catalogs

An output directory in which catalogs are saved is a map from names of nodes to documents. A catalog
is written beside the file that it replaces and then moved there, so that whatever befalls a save,
the catalog files hold what was saved last. What is assumed of YAML is said of each document: its
written form is read as a tree that holds its data.

Results:
* `Spares`: what a save that fails leaves alone; `save_cases`: what a save does.
* `Stores`: the catalog files below a directory are those of some documents.
* `load_saveAll`: after any saves, loading gives what was saved last.
-/

namespace SiteCatalog

open FileTree

namespace OnDisk

/-- What comes of a change: an accident befalls it, or it succeeds, or it fails. -/
theorem change_cases (f : FileTree → Except FileFault FileTree)
    (spoil : Accident → FileTree → FileTree) (disk : Disk) :
    (∃ accident, (change f spoil disk).1 = .error accident.fault ∧
      (change f spoil disk).2.tree = spoil accident disk.tree) ∨
    (∃ t, f disk.tree = .ok t ∧ (change f spoil disk).1 = .ok () ∧
      (change f spoil disk).2.tree = t) ∨
    ∃ fault, (change f spoil disk).1 = .error fault ∧
      (change f spoil disk).2.tree = disk.tree := by
  unfold change
  dsimp only
  split
  · next accident _ => exact .inl ⟨accident, rfl, rfl⟩
  · split
    · next t ht => exact .inr (.inl ⟨t, ht, rfl, rfl⟩)
    · next fault _ => exact .inr (.inr ⟨fault, rfl, rfl⟩)

/-- A change that accidents do not spoil leaves the tree as it is or succeeds. -/
theorem change_cases_of_unspoiled (f : FileTree → Except FileFault FileTree) (disk : Disk) :
    (∃ fault, (change f (fun _ t => t) disk).1 = .error fault ∧
      (change f (fun _ t => t) disk).2.tree = disk.tree) ∨
    ((change f (fun _ t => t) disk).1 = .ok () ∧
      f disk.tree = .ok (change f (fun _ t => t) disk).2.tree) := by
  obtain ⟨a, hresult, htree⟩ | ⟨t, ht, hresult, htree⟩ | ⟨fault, hresult, htree⟩ :=
    change_cases f (fun _ t => t) disk
  · exact .inl ⟨_, hresult, htree⟩
  · exact .inr ⟨hresult, by rw [htree, ht]⟩
  · exact .inl ⟨_, hresult, htree⟩

end OnDisk

namespace CatalogDocument

/-! ## Catalog files and drafts -/

variable {t t' : FileTree} {out node : String} {p : Place} {doc : CatalogDocument}

/-- Where the catalog file of a node is, seen from the output directory. -/
def catalogPlace (p : Place) (node : String) : Place :=
  "catalog.yaml" :: node :: p

/-- Where a catalog is written before it takes its place. -/
def draftPlace (p : Place) (node : String) : Place :=
  "catalog.yaml.tmp" :: node :: p

theorem catalogPlace_ne_nil : catalogPlace p node ≠ [] :=
  List.cons_ne_nil _ _

theorem draftPlace_ne_nil : draftPlace p node ≠ [] :=
  List.cons_ne_nil _ _

theorem isName_catalog : Path.IsName "catalog.yaml" := by
  constructor <;> decide

theorem isName_draft : Path.IsName "catalog.yaml.tmp" := by
  constructor <;> decide

theorem draftPath_filePath (out node : String) :
    draftPath (filePath out node) = Path.join (Path.join out node) "catalog.yaml.tmp" := by
  rw [draftPath, filePath]
  generalize Path.join out node = directory
  rw [Path.join, Path.join, isName_catalog.isAbsolute_eq, isName_draft.isAbsolute_eq]
  split
  · rfl
  · split <;> simp [← String.toList_inj]

theorem place_filePath (hleads : t.Leads out p) (hnode : Path.IsName node) {q : Place}
    (hq : t.place (filePath out node) = .ok q) : q = catalogPlace p node :=
  (hleads.place_join_join hnode isName_catalog hq).1

theorem place_draftPath (hleads : t.Leads out p) (hnode : Path.IsName node) {q : Place}
    (hq : t.place (draftPath (filePath out node)) = .ok q) : q = draftPlace p node := by
  rw [draftPath_filePath] at hq
  exact (hleads.place_join_join hnode isName_draft hq).1

/-! ## What a failing save leaves alone -/

/-- What is there is still there, except that the directory of a node may be new and that its draft
may have changed. -/
structure Spares (p : Place) (node : String) (t t' : FileTree) : Prop where
  grown : Grown t t'
  kept : ∀ q entry, q.head? = some "catalog.yaml" → t.stored? q = some entry →
    t'.stored? q = some entry
  elsewhere : ∀ q, q ≠ node :: p → q ≠ draftPlace p node → t'.stored? q = t.stored? q

namespace Spares

@[refl] theorem refl (t : FileTree) : Spares p node t t :=
  ⟨.refl t, fun _ _ _ h => h, fun _ _ _ => rfl⟩

theorem trans {t'' : FileTree} (h : Spares p node t t') (h' : Spares p node t' t'') :
    Spares p node t t'' where
  grown := h.grown.trans h'.grown
  kept := fun q entry hq he => h'.kept q entry hq (h.kept q entry hq he)
  elsewhere := fun q hq hq' => (h'.elsewhere q hq hq').trans (h.elsewhere q hq hq')

/-- The directory of the node is made. -/
theorem put_directory (hnone : t.stored? (node :: p) = none) :
    Spares p node t (t.put (node :: p) .directory) where
  grown := grown_put (List.cons_ne_nil _ _) (by simp [hnone]) _
  kept := by
    intro q entry _ hq
    rw [stored?_put t (List.cons_ne_nil _ _), if_neg, hq]
    rintro rfl
    rw [hnone] at hq
    cases hq
  elsewhere := fun q hq _ => by rw [stored?_put t (List.cons_ne_nil _ _), if_neg hq]

/-- The draft is written. -/
theorem put_draft (hfile : t.stored? (draftPlace p node) ≠ some .directory) (content : ByteArray) :
    Spares p node t (t.put (draftPlace p node) (.file content)) where
  grown := grown_put draftPlace_ne_nil hfile _
  kept := by
    intro q entry hhead hq
    rw [stored?_put t draftPlace_ne_nil, if_neg, hq]
    rintro rfl
    exact absurd hhead (by simp [draftPlace])
  elsewhere := fun q _ hq => by rw [stored?_put t draftPlace_ne_nil, if_neg hq]

end Spares

/-- A program that spares the other nodes of an output directory. -/
def Sparing {α : Type} (out : String) (p : Place) (node : String) (x : OnDisk α) : Prop :=
  ∀ disk : Disk, disk.tree.Leads out p → Spares p node disk.tree (x disk).2.tree

theorem Sparing.bind {α β : Type} {x : OnDisk α} {f : α → OnDisk β} (hx : Sparing out p node x)
    (hf : ∀ a, Sparing out p node (f a)) : Sparing out p node (x >>= f) := by
  intro disk hleads
  have hstep := hx disk hleads
  exact hstep.trans (hf _ _ (hleads.of_grown hstep.grown))

theorem Sparing.pure {α : Type} (a : α) : Sparing out p node (Pure.pure a : OnDisk α) :=
  fun disk _ => .refl disk.tree

theorem sparing_makeDirectory (hnode : Path.IsName node) {path : String}
    (hpath : path ∈ Path.ancestry (Path.join out node)) :
    Sparing out p node (FileSystem.makeDirectory path : OnDisk _) := by
  intro disk hleads
  change Spares p node disk.tree (OnDisk.change (·.makeDirectory path) (fun _ t => t) disk).2.tree
  obtain ⟨_, -, htree⟩ | ⟨-, htree⟩ :=
    OnDisk.change_cases_of_unspoiled (·.makeDirectory path) disk
  · rw [htree]
  · obtain ⟨q, hq, hnone, htree⟩ := makeDirectory_eq_ok htree
    rw [htree]
    rcases hleads.place_of_mem_ancestry hnode hpath hq with rfl | hdirectory
    · exact .put_directory hnone
    · rw [hdirectory] at hnone
      cases hnone

theorem sparing_ensureDirectory (hnode : Path.IsName node) {path : String}
    (hpath : path ∈ Path.ancestry (Path.join out node)) :
    Sparing out p node (FileSystem.ensureDirectory path : OnDisk _) := by
  refine (sparing_makeDirectory hnode hpath).bind fun result => ?_
  cases result with
  | ok => exact .pure _
  | error fault =>
    refine Sparing.bind (fun disk _ => .refl disk.tree) fun directory => ?_
    cases directory <;> exact .pure _

theorem sparing_makeChain (hnode : Path.IsName node) {paths : List String}
    (hpaths : ∀ path ∈ paths, path ∈ Path.ancestry (Path.join out node)) :
    Sparing out p node (FileSystem.makeChain paths : OnDisk _) := by
  induction paths with
  | nil => exact .pure _
  | cons path above ih =>
    have hensure : Sparing out p node (FileSystem.ensureDirectory path : OnDisk _) :=
      sparing_ensureDirectory hnode (hpaths path List.mem_cons_self)
    refine hensure.bind fun result => ?_
    split
    · refine (ih fun path hpath => hpaths path (List.mem_cons_of_mem _ hpath)).bind fun above => ?_
      cases above with
      | ok => exact hensure
      | error => exact .pure _
    · exact .pure _

/-- Whatever becomes of the draft, it is the draft alone that is written. -/
theorem spares_write (hleads : t.Leads out p) (hnode : Path.IsName node) {content : ByteArray}
    (ht' : t.write (draftPath (filePath out node)) content = .ok t') :
    Spares p node t t' ∧ t'.stored? (draftPlace p node) = some (.file content) := by
  obtain ⟨q, hq, hfile, rfl⟩ := write_eq_ok ht'
  obtain rfl := place_draftPath hleads hnode hq
  exact ⟨.put_draft hfile content, by rw [stored?_put t draftPlace_ne_nil, if_pos rfl]⟩

theorem spares_spoilFile (hleads : t.Leads out p) (hnode : Path.IsName node) (a : Accident) :
    Spares p node t (OnDisk.spoilFile (draftPath (filePath out node)) a t) := by
  unfold OnDisk.spoilFile
  split
  · next content _ =>
    cases hwrite : t.write (draftPath (filePath out node)) content with
    | error => exact .refl t
    | ok t' => exact (spares_write hleads hnode hwrite).1
  · exact .refl t

theorem writeText_draft {disk : Disk} (hleads : disk.tree.Leads out p) (hnode : Path.IsName node)
    (text : String) {result : Except FileFault Unit} {disk' : Disk}
    (hwrite : (FileSystem.writeText (draftPath (filePath out node)) text : OnDisk _) disk =
      (result, disk')) :
    Spares p node disk.tree disk'.tree ∧
      (∀ u, result = .ok u →
        disk'.tree.stored? (draftPlace p node) = some (.file text.toUTF8)) := by
  have hcases := OnDisk.change_cases (·.write (draftPath (filePath out node)) text.toUTF8)
    (OnDisk.spoilFile (draftPath (filePath out node))) disk
  rw [show OnDisk.change _ _ disk = (result, disk') from hwrite] at hcases
  obtain ⟨a, rfl, htree⟩ | ⟨t', ht', rfl, htree⟩ | ⟨fault, rfl, htree⟩ := hcases
  · exact ⟨htree ▸ spares_spoilFile hleads hnode a, fun _ h => nomatch h⟩
  · obtain ⟨hspares, hentry⟩ := spares_write hleads hnode ht'
    exact ⟨htree ▸ hspares, fun _ _ => htree ▸ hentry⟩
  · exact ⟨htree ▸ .refl _, fun _ h => nomatch h⟩

/-! ## What a save does -/

/-- The catalog files below a directory are those of documents. -/
structure Stores (out : String) (p : Place) (saved : String → Option CatalogDocument)
    (t : FileTree) : Prop where
  leads : t.Leads out p
  file : ∀ node doc, Path.IsName node → saved node = some doc →
    t.place (filePath out node) = .ok (catalogPlace p node) ∧
      t.stored? (catalogPlace p node) = some (.file doc.render.toUTF8)
  nothing : ∀ node, Path.IsName node → saved node = none → t.stored? (catalogPlace p node) = none

variable {saved : String → Option CatalogDocument}

theorem Stores.of_spares (h : Stores out p saved t) (hspares : Spares p node t t') :
    Stores out p saved t' where
  leads := h.leads.of_grown hspares.grown
  file := by
    intro m doc hm hsaved
    obtain ⟨hplace, hentry⟩ := h.file m doc hm hsaved
    exact ⟨place_of_grown hspares.grown hplace, hspares.kept _ _ rfl hentry⟩
  nothing := by
    intro m hm hsaved
    rw [hspares.elsewhere, h.nothing m hm hsaved]
    · intro heq
      simpa [catalogPlace] using congrArg List.length heq
    · intro heq
      simp [catalogPlace, draftPlace] at heq

theorem catalogPlace_ne_draftPlace (m node : String) : catalogPlace p m ≠ draftPlace p node :=
  fun heq => absurd (List.cons.inj heq).1 (by decide)

theorem catalogPlace_inj {m : String} (h : catalogPlace p m = catalogPlace p node) : m = node :=
  (List.cons.inj (List.cons.inj h).2).1

/-- The draft takes the place of the catalog file. -/
theorem Stores.rename (h : Stores out p saved t) (hnode : Path.IsName doc.name)
    (hdraft : t.stored? (draftPlace p doc.name) = some (.file doc.render.toUTF8))
    (ht' : t.rename (draftPath (filePath out doc.name)) (filePath out doc.name) = .ok t') :
    Stores out p (Function.update saved doc.name (some doc)) t' ∧
      t'.stored? (draftPlace p doc.name) = none := by
  obtain ⟨start, goal, content, hstart, hgoal, hcontent, hfile, rfl⟩ := rename_eq_ok ht'
  obtain rfl := place_draftPath h.leads hnode hstart
  obtain rfl := place_filePath h.leads hnode hgoal
  rw [hdraft] at hcontent
  cases hcontent
  have hentry : ∀ q, ((t.erase (draftPlace p doc.name)).put (catalogPlace p doc.name)
      (.file doc.render.toUTF8)).stored? q = if q = catalogPlace p doc.name
        then some (.file doc.render.toUTF8)
        else if q = draftPlace p doc.name then none else t.stored? q := fun q => by
    rw [stored?_put _ catalogPlace_ne_nil, stored?_erase t draftPlace_ne_nil]
  have hother : ∀ m, m ≠ doc.name → ((t.erase (draftPlace p doc.name)).put
      (catalogPlace p doc.name) (.file doc.render.toUTF8)).stored? (catalogPlace p m) =
        t.stored? (catalogPlace p m) := fun m hm => by
    rw [hentry, if_neg fun heq => hm (catalogPlace_inj heq),
      if_neg (catalogPlace_ne_draftPlace m doc.name)]
  have hgrown : Grown t ((t.erase (draftPlace p doc.name)).put (catalogPlace p doc.name)
      (.file doc.render.toUTF8)) := by
    refine (grown_erase draftPlace_ne_nil (by simp [hdraft])).trans
      (grown_put catalogPlace_ne_nil ?_ _)
    rwa [stored?_erase t draftPlace_ne_nil, if_neg (catalogPlace_ne_draftPlace _ _)]
  refine ⟨⟨h.leads.of_grown hgrown, fun m doc' hm hsaved => ?_, fun m hm hsaved => ?_⟩, ?_⟩
  · by_cases hname : m = doc.name
    · subst hname
      rw [Function.update_self] at hsaved
      cases hsaved
      exact ⟨place_of_grown hgrown hgoal, by rw [hentry, if_pos rfl]⟩
    · rw [Function.update_of_ne hname] at hsaved
      obtain ⟨hplace, hfile⟩ := h.file m doc' hm hsaved
      exact ⟨place_of_grown hgrown hplace, by rw [hother m hname, hfile]⟩
  · have hname : m ≠ doc.name := by
      rintro rfl
      rw [Function.update_self] at hsaved
      cases hsaved
    rw [Function.update_of_ne hname] at hsaved
    rw [hother m hname, h.nothing m hm hsaved]
  · rw [hentry, if_neg (catalogPlace_ne_draftPlace _ _).symm, if_pos rfl]

/-- A save goes on when an attempt succeeds, and it fails with the attempt. -/
theorem run_attempt_bind {α β : Type} (context : String) (x : OnDisk (Except FileFault α))
    (f : α → ExceptT CompileError OnDisk β) (disk : Disk) :
    ((FileSystem.attempt context x >>= f : ExceptT CompileError OnDisk β).run disk) =
      match (x disk).1 with
      | .ok a => (f a).run (x disk).2
      | .error fault => (.error (.file context fault), (x disk).2) := by
  obtain ⟨result, disk', hx⟩ : ∃ result disk', x disk = (result, disk') := ⟨_, _, rfl⟩
  rw [ExceptT.run_bind, FileSystem.attempt, ExceptT.run_mk]
  simp only [bind, StateT.bind, hx]
  cases result <;> rfl

/-- A save fails and spares what was saved before, or it succeeds, and then the document is the one
that is saved under its name and no draft is left. -/
theorem save_cases {disk disk' : Disk} {result : Except CompileError String}
    (h : Stores out p saved disk.tree) (hnode : Path.IsName doc.name)
    (hsave : (save out doc : ExceptT CompileError OnDisk String).run disk = (result, disk')) :
    (∃ e, result = .error e ∧ Spares p doc.name disk.tree disk'.tree) ∨
    (result = .ok (filePath out doc.name) ∧
      Stores out p (Function.update saved doc.name (some doc)) disk'.tree ∧
      disk'.tree.stored? (draftPlace p doc.name) = none) := by
  have hdirectory : (Path.parent? (filePath out doc.name)).getD "" = Path.join out doc.name := by
    rw [filePath, hnode.parent?_join_join isName_catalog, Option.getD_some]
  unfold save at hsave
  dsimp only at hsave
  rw [hdirectory, run_attempt_bind] at hsave
  have hmade : Spares p doc.name disk.tree
      ((FileSystem.makeDirectories (Path.join out doc.name) : OnDisk _) disk).2.tree :=
    sparing_makeChain hnode (fun _ hpath => hpath) disk h.leads
  generalize (FileSystem.makeDirectories (Path.join out doc.name) : OnDisk _) disk = made at *
  split at hsave
  case h_2 =>
    cases hsave
    exact .inl ⟨_, rfl, hmade⟩
  rw [run_attempt_bind] at hsave
  cases hwrite : (FileSystem.writeText (draftPath (filePath out doc.name)) doc.render : OnDisk _)
    made.2 with
  | mk written disk₁ =>
  obtain ⟨hwritten, hdraft⟩ := writeText_draft (h.leads.of_grown hmade.grown) hnode _ hwrite
  rw [hwrite] at hsave
  split at hsave
  case h_2 =>
    cases hsave
    exact .inl ⟨_, rfl, hmade.trans hwritten⟩
  next u hok =>
  have hstores := (h.of_spares hmade).of_spares hwritten
  rw [run_attempt_bind] at hsave
  obtain ⟨fault, hresult, htree⟩ | ⟨hresult, hrename⟩ := OnDisk.change_cases_of_unspoiled
    (·.rename (draftPath (filePath out doc.name)) (filePath out doc.name)) disk₁
  · rw [show ((FileSystem.rename _ _ : OnDisk _) disk₁).1 = .error fault from hresult] at hsave
    cases hsave
    have hspares : Spares p doc.name disk₁.tree (OnDisk.change (·.rename
        (draftPath (filePath out doc.name)) (filePath out doc.name)) (fun _ t => t) disk₁).2.tree :=
      htree ▸ .refl _
    exact .inl ⟨_, rfl, hmade.trans (hwritten.trans hspares)⟩
  · rw [show ((FileSystem.rename _ _ : OnDisk _) disk₁).1 = .ok () from hresult] at hsave
    cases hsave
    exact .inr ⟨rfl, hstores.rename hnode (hdraft u hok) hrename⟩

/-! ## What is loaded -/

/-- The written form of a document is read as a tree that holds its data. -/
def ReadsBack (doc : CatalogDocument) : Prop :=
  ∃ tree, Yaml.tree? doc.render = some tree ∧ tree.holds doc.toData = true

/-- No parameter of a resource occurs twice. -/
def HasDistinctParameters (doc : CatalogDocument) : Prop :=
  ∀ r ∈ doc.resources, r.parameters.keys.Nodup

theorem ofText?_render (hdistinct : doc.HasDistinctParameters) (h : doc.ReadsBack) :
    ofText? doc.render = some doc := by
  obtain ⟨tree, htree, hholds⟩ := h
  rw [ofText?, htree, Option.bind_eq_bind, Option.bind_some, ofTree?_of_holds hdistinct hholds]

theorem run_load (out node : String) (disk : Disk) :
    (load out node : ExceptT CompileError OnDisk _).run disk =
      if disk.tree.present (filePath out node) then
        (match disk.tree.readText (filePath out node) with
          | .ok text => match ofText? text with
            | some doc => .ok (some doc)
            | none => .error (.manifest (.malformedCatalog (filePath out node)))
          | .error fault => .error (.file ("cannot read " ++ filePath out node) fault), disk)
      else (.ok none, disk) := by
  have hread : (FileSystem.readText (filePath out node) : OnDisk _) disk =
      (disk.tree.readText (filePath out node), disk) := rfl
  have hpresent : (liftM (FileSystem.present (filePath out node) : OnDisk Bool) :
      ExceptT CompileError OnDisk Bool).run disk =
      (.ok (disk.tree.present (filePath out node)), disk) := rfl
  unfold load
  dsimp only
  rw [ExceptT.run_bind]
  simp only [bind, StateT.bind, hpresent]
  split
  · have hattempt := run_attempt_bind ("cannot read " ++ filePath out node)
      (FileSystem.readText (filePath out node) : OnDisk _)
      (fun text => match ofText? text with
        | some doc => pure (some doc)
        | none => throw (.manifest (.malformedCatalog (filePath out node)))) disk
    refine hattempt.trans ?_
    rw [hread]
    cases disk.tree.readText (filePath out node) with
    | error fault => rfl
    | ok text =>
      dsimp only
      cases ofText? text <;> rfl
  · rfl

theorem fromUTF8?_toUTF8 (s : String) : String.fromUTF8? s.toUTF8 = some s := by
  exact dif_pos s.isValidUTF8

/-- Loading gives the document that is stored. -/
theorem Stores.load {disk : Disk} (h : Stores out p saved disk.tree) (hnode : Path.IsName node)
    (hread : ∀ doc, saved node = some doc → ofText? doc.render = some doc) :
    (load out node : ExceptT CompileError OnDisk _).run disk = (.ok (saved node), disk) := by
  rw [run_load]
  cases hsaved : saved node with
  | none =>
    have hentry := h.nothing node hnode hsaved
    have habsent : disk.tree.present (filePath out node) = false := by
      unfold FileTree.present FileTree.find
      cases hplace : disk.tree.place (filePath out node) with
      | error => rfl
      | ok q =>
        rw [place_filePath h.leads hnode hplace]
        dsimp only
        rw [hentry]
        rfl
    rw [habsent]
    rfl
  | some doc =>
    obtain ⟨hplace, hentry⟩ := h.file node doc hnode hsaved
    have hfind : disk.tree.find (filePath out node) = .ok (.file doc.render.toUTF8) := by
      rw [FileTree.find, hplace]
      dsimp only
      rw [hentry]
    have hpresent : disk.tree.present (filePath out node) = true := by
      rw [FileTree.present, hfind]
      rfl
    have htext : disk.tree.readText (filePath out node) = .ok doc.render := by
      rw [FileTree.readText, FileTree.read, hfind]
      dsimp only
      rw [fromUTF8?_toUTF8]
    rw [if_pos hpresent, htext]
    dsimp only
    rw [hread doc hsaved]

/-! ## Saving again and again -/

/-- Saves documents one after the other and tells what comes of each. -/
def saveAll {m : Type → Type} [Monad m] [FileSystem m] (out : String) :
    List CatalogDocument → m (List (CatalogDocument × Except CompileError String))
  | [] => return []
  | doc :: rest => do
    let result ← (save out doc).run
    let results ← saveAll out rest
    return (doc, result) :: results

/-- The last of the documents of a name that were saved. -/
def lastSaved? (results : List (CatalogDocument × Except CompileError String)) (node : String) :
    Option CatalogDocument :=
  (results.filter fun (doc, result) => result.isOk && doc.name = node).getLast?.map (·.1)

theorem lastSaved?_cons (doc : CatalogDocument) (result : Except CompileError String)
    (results : List (CatalogDocument × Except CompileError String)) (node : String) :
    lastSaved? ((doc, result) :: results) node = (lastSaved? results node).or
      (if result.isOk = true ∧ doc.name = node then some doc else none) := by
  unfold lastSaved?
  by_cases hsaved : result.isOk = true ∧ doc.name = node
  · rw [List.filter_cons_of_pos (by simpa using hsaved), List.getLast?_cons, if_pos hsaved]
    cases (results.filter fun (doc, result) => result.isOk && doc.name = node).getLast? <;> rfl
  · rw [List.filter_cons_of_neg (by simpa using hsaved), if_neg hsaved, Option.or_none]

theorem mem_of_lastSaved? {results : List (CatalogDocument × Except CompileError String)}
    (h : lastSaved? results node = some doc) : doc ∈ results.map (·.1) := by
  obtain ⟨e, he, rfl⟩ := Option.map_eq_some_iff.mp h
  exact List.mem_map_of_mem (List.mem_filter.mp (List.mem_of_getLast? he)).1

theorem saveAll_cons (out : String) (doc : CatalogDocument) (rest : List CatalogDocument)
    (disk : Disk) :
    (saveAll out (doc :: rest) : OnDisk _) disk =
      let first := (save out doc : ExceptT CompileError OnDisk String).run disk
      let results := (saveAll out rest : OnDisk _) first.2
      ((doc, first.1) :: results.1, results.2) := by
  rw [saveAll]
  generalize (save out doc : ExceptT CompileError OnDisk String).run = first
  generalize (saveAll out rest : OnDisk _) = results
  rfl

theorem map_fst_saveAll (out : String) (docs : List CatalogDocument) (disk : Disk) :
    ((saveAll out docs : OnDisk _) disk).1.map (·.1) = docs := by
  induction docs generalizing disk with
  | nil => rfl
  | cons doc rest ih => rw [saveAll_cons, List.map_cons, ih]

/-- After documents have been saved, the catalog files are those of the last ones that were saved,
and where none was, those from before. -/
theorem Stores.saveAll {docs : List CatalogDocument} (disk : Disk)
    (h : Stores out p saved disk.tree) (hnames : ∀ doc ∈ docs, Path.IsName doc.name) :
    Stores out p
      (fun node => (lastSaved? ((saveAll out docs : OnDisk _) disk).1 node).or (saved node))
      ((saveAll out docs : OnDisk _) disk).2.tree := by
  induction docs generalizing saved disk with
  | nil => exact h
  | cons doc rest ih =>
    have hrest := fun doc hdoc => hnames doc (List.mem_cons_of_mem _ hdoc)
    rw [saveAll_cons]
    cases hsave : (save out doc : ExceptT CompileError OnDisk String).run disk with
    | mk result disk₁ =>
    dsimp only
    have hor : ∀ saved' : String → Option CatalogDocument,
        (∀ node, saved' node =
          ((if result.isOk = true ∧ doc.name = node then some doc else none).or (saved node))) →
        Stores out p saved' disk₁.tree →
        Stores out p (fun node =>
          (lastSaved? ((doc, result) :: ((CatalogDocument.saveAll out rest : OnDisk _) disk₁).1)
            node).or (saved node))
          ((CatalogDocument.saveAll out rest : OnDisk _) disk₁).2.tree := by
      intro saved' heq hstores
      have hfinal := ih disk₁ hstores hrest
      simpa only [lastSaved?_cons, Option.or_assoc, ← heq] using hfinal
    rcases save_cases h (hnames doc List.mem_cons_self) hsave with
      ⟨e, rfl, hspares⟩ | ⟨rfl, hstores, -⟩
    · exact hor saved (fun node => rfl) (h.of_spares hspares)
    · refine hor _ (fun node => ?_) hstores
      by_cases hname : doc.name = node
      · subst hname
        rw [Function.update_self, if_pos ⟨rfl, rfl⟩, Option.some_or]
      · rw [Function.update_of_ne (Ne.symm hname), if_neg fun hsaved => hname hsaved.2,
          Option.none_or]

/-- Nothing stands below a place. -/
def IsEmptyAt (t : FileTree) (p : Place) : Prop :=
  ∀ e ∈ t.entries, p <:+ e.1 → e.1 = p

theorem IsEmptyAt.stored? (h : IsEmptyAt t p) (name : String) (above : Place) :
    t.stored? (name :: (above ++ p)) = none := by
  rw [FileTree.stored?, if_neg (List.cons_ne_nil _ _)]
  by_contra hne
  obtain ⟨entry, hentry⟩ := Option.ne_none_iff_exists'.mp hne
  obtain ⟨front, back, hentries, -⟩ := List.lookup_eq_some_iff.mp hentry
  have heq := h _ (hentries ▸ List.mem_append_right front List.mem_cons_self) ⟨name :: above, rfl⟩
  have hlen := congrArg List.length heq
  rw [List.length_cons, List.length_append] at hlen
  omega

theorem stores_of_isEmptyAt (hleads : t.Leads out p) (hempty : IsEmptyAt t p) :
    Stores out p (fun _ => none) t where
  leads := hleads
  file := fun _ _ _ h => nomatch h
  nothing := fun node _ _ => hempty.stored? "catalog.yaml" [node]

/-- An output directory that is empty at first is a map from names of nodes to documents, whatever
befalls the saves: loading gives the last document of a name that was saved. One more save changes
nothing for other names; a save that fails leaves every catalog file that is there as it is, and one
that succeeds leaves no draft. -/
theorem load_saveAll {docs : List CatalogDocument} {fate : List (Option Accident)}
    {results : List (CatalogDocument × Except CompileError String)} {disk : Disk}
    (hleads : t.Leads out p) (hempty : IsEmptyAt t p)
    (hnames : ∀ doc ∈ docs, Path.IsName doc.name)
    (hdistinct : ∀ doc ∈ docs, doc.HasDistinctParameters)
    (hyaml : ∀ doc ∈ docs, doc.ReadsBack)
    (hsaves : (saveAll out docs : OnDisk _) ⟨t, fate⟩ = (results, disk)) :
    (∀ node, Path.IsName node →
      (load out node : ExceptT CompileError OnDisk _).run disk =
        (.ok (lastSaved? results node), disk)) ∧
    ∀ (doc : CatalogDocument) (result : Except CompileError String) (disk' : Disk),
      Path.IsName doc.name →
      (save out doc : ExceptT CompileError OnDisk String).run disk = (result, disk') →
      (∀ node, Path.IsName node → node ≠ doc.name →
        ((load out node : ExceptT CompileError OnDisk _).run disk').1 =
          ((load out node : ExceptT CompileError OnDisk _).run disk).1) ∧
      (∀ e, result = .error e → ∀ q entry, q.head? = some "catalog.yaml" →
        disk.tree.stored? q = some entry → disk'.tree.stored? q = some entry) ∧
      (∀ path, result = .ok path → path = filePath out doc.name ∧
        disk'.tree.present (draftPath path) = false) := by
  have hstores := Stores.saveAll ⟨t, fate⟩ (stores_of_isEmptyAt hleads hempty) hnames
  have hdocs := map_fst_saveAll out docs ⟨t, fate⟩
  simp only [hsaves, Option.or_none] at hstores hdocs
  have hread : ∀ node doc, lastSaved? results node = some doc → ofText? doc.render = some doc :=
    fun node doc hlast =>
      have hdoc : doc ∈ docs := hdocs ▸ mem_of_lastSaved? hlast
      ofText?_render (hdistinct doc hdoc) (hyaml doc hdoc)
  refine ⟨fun node hnode => hstores.load hnode (hread node), fun doc result disk' hname hsave => ?_⟩
  rcases save_cases hstores hname hsave with ⟨e, rfl, hspares⟩ | ⟨rfl, hstores', hdraft⟩
  · refine ⟨fun node hnode _ => ?_, fun _ _ q entry => hspares.kept q entry,
      fun _ h => (by cases h)⟩
    rw [(hstores.of_spares hspares).load hnode (hread node), hstores.load hnode (hread node)]
  · refine ⟨fun node hnode hne => ?_, fun _ h => (by cases h), ?_⟩
    · have hsame : Function.update (lastSaved? results) doc.name (some doc) node =
        lastSaved? results node := Function.update_of_ne hne ..
      rw [hstores'.load hnode (fun doc' hdoc' => hread node doc' (hsame ▸ hdoc')),
        hstores.load hnode (hread node), hsame]
    · rintro path hpath
      obtain rfl := Except.ok.inj hpath
      refine ⟨rfl, ?_⟩
      unfold FileTree.present FileTree.find
      cases hplace : disk'.tree.place (draftPath (filePath out doc.name)) with
      | error => rfl
      | ok q =>
        rw [place_draftPath hstores'.leads hname hplace]
        dsimp only
        rw [hdraft]
        rfl

/-- A tree in which the directory for catalogs is empty. -/
def outputTree : FileTree :=
  ⟨["work"], [(["work"], .directory), (["catalogs", "work"], .directory)]⟩

/-- A small catalog with a version. -/
def versioned (version : String) : CatalogDocument where
  name := "web01"
  version := some version
  classes := []
  tags := []
  resources := [⟨"File", "motd", [("modes", .array [.int 420, .undefined, .str "true"])]⟩]

/-- The disk is full when the draft of the second version is written. -/
def diskFull : List (Option Accident) :=
  [none, none, none, none, some ⟨.other 28 "No space left on device", some "name: web".toUTF8⟩]

theorem readsBack_versioned : ∀ version ∈ ["1", "2"], (versioned version).ReadsBack := by
  have hyaml : ∀ version ∈ ["1", "2"], (Yaml.tree? (versioned version).render).any
      (·.holds (versioned version).toData) = true := by decide +kernel
  intro version hversion
  obtain ⟨tree, htree, hholds⟩ := (Option.any_eq_true ..).mp (hyaml version hversion)
  exact ⟨tree, htree, hholds⟩

/-- The second save fails and leaves half a draft, and the first version is loaded. -/
theorem load_saveAll_diskFull : ∃ results disk,
    (saveAll "catalogs" [versioned "1", versioned "2"] : OnDisk _) ⟨outputTree, diskFull⟩ =
      (results, disk) ∧
    results.map (·.2.isOk) = [true, false] ∧
    ∃ doc, (load "catalogs" "web01" : ExceptT CompileError OnDisk _).run disk =
      (.ok (some doc), disk) ∧ doc.version = some "1" := by
  have hresults : ((saveAll "catalogs" [versioned "1", versioned "2"] : OnDisk _)
      ⟨outputTree, diskFull⟩).1.map (·.2.isOk) = [true, false] := by decide +kernel
  have hversion : (lastSaved? ((saveAll "catalogs" [versioned "1", versioned "2"] : OnDisk _)
      ⟨outputTree, diskFull⟩).1 "web01").map (·.version) = some (some "1") := by decide +kernel
  have hname : Path.IsName "web01" := by constructor <;> decide
  have hplace : outputTree.place "catalogs" = .ok ["catalogs", "work"] := by decide +kernel
  have hleads : outputTree.Leads "catalogs" ["catalogs", "work"] :=
    ⟨by rw [if_neg (by decide)]; exact hplace, isDirectoryAt_iff.mp (by decide +kernel)⟩
  have hempty : IsEmptyAt outputTree ["catalogs", "work"] := by
    have hall : ∀ q ∈ outputTree.entries.map (·.1),
        ["catalogs", "work"] <:+ q → q = ["catalogs", "work"] := by decide +kernel
    exact fun e he => hall e.1 (List.mem_map_of_mem he)
  have hdistinct : ∀ doc ∈ [versioned "1", versioned "2"], doc.HasDistinctParameters := by
    simp [HasDistinctParameters, versioned, Table.keys]
  have hyaml : ∀ doc ∈ [versioned "1", versioned "2"], doc.ReadsBack := by
    simpa using readsBack_versioned
  generalize hrun : (saveAll "catalogs" [versioned "1", versioned "2"] : OnDisk _)
    ⟨outputTree, diskFull⟩ = run at hresults hversion
  obtain ⟨results, disk⟩ := run
  obtain ⟨hload, -⟩ := load_saveAll hleads hempty (by simp [versioned, hname]) hdistinct hyaml hrun
  obtain ⟨doc, hdoc, hversion⟩ := Option.map_eq_some_iff.mp hversion
  exact ⟨results, disk, rfl, hresults, doc, hdoc ▸ hload "web01" hname, hversion⟩

end CatalogDocument

end SiteCatalog
