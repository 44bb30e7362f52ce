import SiteCatalog.Files.Disk
import SiteCatalog.Proofs.Paths

/-!
# File trees

What the operations on a tree of files change, and where the paths below a directory lead. Programs
that make directories, write files and move them never take a directory away, so that a path that
leads somewhere goes on to lead there.

Results:
* `stored?_put`, `stored?_erase`: what stands at a place after a change.
* `Grown`, `place_of_grown`: paths lead to the same places while directories stay.
* `Leads`: a path leads to a directory; `place_join`, `place_join_join`: where names and files in it
  are.
* `Leads.place_of_mem_ancestry`: what stands above a name in a directory is a directory.
-/

namespace SiteCatalog.FileTree

variable {t t' : FileTree} {p q r : Place} {path out name file : String}

/-! ## Changes -/

theorem lookup_filter_ne (entries : List (Place × FileEntry)) (p q : Place) :
    (entries.filter fun e => e.1 ≠ p).lookup q = if q = p then none else entries.lookup q := by
  induction entries with
  | nil => simp
  | cons e entries ih =>
    obtain ⟨r, entry⟩ := e
    by_cases hr : r = p
    · subst hr
      rw [List.filter_cons_of_neg (by simp), ih]
      split
      · rfl
      · next hq => rw [List.lookup_cons, beq_false_of_ne hq]
    · rw [List.filter_cons_of_pos (by simpa using hr), List.lookup_cons, List.lookup_cons, ih]
      by_cases hq : q = r
      · subst hq
        simp [hr]
      · rw [beq_false_of_ne hq]

theorem stored?_erase (t : FileTree) (hp : p ≠ []) (q : Place) :
    (t.erase p).stored? q = if q = p then none else t.stored? q := by
  unfold stored? erase
  dsimp only
  rw [lookup_filter_ne]
  by_cases hq : q = []
  · subst hq
    rw [if_pos rfl, if_neg (Ne.symm hp), if_pos rfl]
  · rw [if_neg hq, if_neg hq]

theorem stored?_put (t : FileTree) (hp : p ≠ []) (entry : FileEntry) (q : Place) :
    (t.put p entry).stored? q = if q = p then some entry else t.stored? q := by
  unfold stored? put erase
  dsimp only
  rw [List.lookup_append, lookup_filter_ne]
  by_cases hq : q = []
  · subst hq
    rw [if_pos rfl, if_neg (Ne.symm hp), if_pos rfl]
  · rw [if_neg hq, if_neg hq]
    split
    · next heq => simp [heq]
    · next hne =>
      rw [List.lookup_cons, beq_false_of_ne hne]
      simp

theorem isDirectoryAt_iff : t.isDirectoryAt p = true ↔ t.stored? p = some .directory := by
  unfold isDirectoryAt
  split
  · next h => simp [h]
  · next h => simpa using h

/-- Directories stay where they are, and relative paths start at the same place. -/
structure Grown (t t' : FileTree) : Prop where
  workingDirectory : t'.workingDirectory = t.workingDirectory
  directory : ∀ p, t.stored? p = some .directory → t'.stored? p = some .directory

namespace Grown

@[refl] theorem refl (t : FileTree) : Grown t t :=
  ⟨rfl, fun _ h => h⟩

theorem trans {t'' : FileTree} (h : Grown t t') (h' : Grown t' t'') : Grown t t'' :=
  ⟨h'.workingDirectory.trans h.workingDirectory, fun p hp => h'.directory p (h.directory p hp)⟩

end Grown

/-- Nothing that is put where no directory stands takes one away. -/
theorem grown_put (hp : p ≠ []) (hnone : t.stored? p ≠ some .directory) (entry : FileEntry) :
    Grown t (t.put p entry) where
  workingDirectory := rfl
  directory := by
    intro q hq
    rw [stored?_put t hp]
    split
    · next heq => exact absurd (heq ▸ hq) hnone
    · exact hq

theorem grown_erase (hp : p ≠ []) (hnone : t.stored? p ≠ some .directory) :
    Grown t (t.erase p) where
  workingDirectory := rfl
  directory := by
    intro q hq
    rw [stored?_erase t hp]
    split
    · next heq => exact absurd (heq ▸ hq) hnone
    · exact hq

theorem makeDirectory_eq_ok (h : t.makeDirectory path = .ok t') : ∃ q,
    t.place path = .ok q ∧ t.stored? q = none ∧ t' = t.put q .directory := by
  unfold makeDirectory at h
  split at h
  · next q hq =>
    split at h
    · cases h
    · next hnone =>
      cases h
      exact ⟨q, hq, hnone, rfl⟩
  · cases h

theorem write_eq_ok {content : ByteArray} (h : t.write path content = .ok t') : ∃ q,
    t.place path = .ok q ∧ t.stored? q ≠ some .directory ∧ t' = t.put q (.file content) := by
  unfold write at h
  split at h
  · next q hq =>
    split at h
    · cases h
    · next hfile =>
      cases h
      exact ⟨q, hq, fun hq' => hfile (isDirectoryAt_iff.mpr hq'), rfl⟩
  · cases h

theorem rename_eq_ok {source target : String} (h : t.rename source target = .ok t') :
    ∃ start goal content, t.place source = .ok start ∧ t.place target = .ok goal ∧
      t.stored? start = some (.file content) ∧ t.stored? goal ≠ some .directory ∧
      t' = (t.erase start).put goal (.file content) := by
  unfold rename at h
  split at h
  · cases h
  · next start hstart =>
    split at h
    · cases h
    · cases h
    · next content hcontent =>
      split at h
      · cases h
      · next goal hgoal =>
        split at h
        · cases h
        · next hfile =>
          cases h
          exact ⟨start, goal, content, hstart, hgoal, hcontent,
            fun hgoal' => hfile (isDirectoryAt_iff.mpr hgoal'), rfl⟩

/-! ## Following paths -/

theorem follow_eq_ok {part : String} (h : t.follow p part = .ok q) :
    t.stored? p = some .directory := by
  unfold follow at h
  split at h
  · cases h
  · cases h
  · assumption

theorem follow_of_grown (hgrown : Grown t t') {part : String} (h : t.follow p part = .ok q) :
    t'.follow p part = .ok q := by
  have hp := follow_eq_ok h
  unfold follow at h ⊢
  rw [hp] at h
  rw [hgrown.directory p hp]
  exact h

theorem followAll_append (t : FileTree) (p : Place) (xs ys : List String) :
    t.followAll p (xs ++ ys) = (t.followAll p xs).bind (t.followAll · ys) := by
  induction xs generalizing p with
  | nil => rfl
  | cons x xs ih =>
    rw [List.cons_append, followAll, followAll]
    split
    · exact ih _
    · rfl

theorem followAll_singleton (t : FileTree) (p : Place) (part : String) :
    t.followAll p [part] = t.follow p part := by
  unfold followAll
  split <;> simp_all [followAll]

theorem followAll_of_grown (hgrown : Grown t t') {parts : List String}
    (h : t.followAll p parts = .ok q) : t'.followAll p parts = .ok q := by
  induction parts generalizing p with
  | nil => exact h
  | cons part parts ih =>
    unfold followAll at h ⊢
    split at h
    · next next hnext =>
      rw [follow_of_grown hgrown hnext]
      exact ih h
    · cases h

/-- What parts lead from to a directory is a directory. -/
theorem directory_of_followAll {parts : List String} (h : t.followAll p parts = .ok q)
    (hq : t.stored? q = some .directory) : t.stored? p = some .directory := by
  cases parts with
  | nil => rwa [Except.ok.inj h]
  | cons part parts =>
    unfold followAll at h
    split at h
    · next hnext => exact follow_eq_ok hnext
    · cases h

/-- Where the parts of a path are followed from. -/
def startOf (t : FileTree) (path : String) : Place :=
  if Path.isAbsolute path then [] else t.workingDirectory

theorem followAll_of_place (h : t.place path = .ok q) :
    t.followAll (t.startOf path) (Path.parts path) = .ok q := by
  unfold place at h
  split at h
  · cases h
  · split at h
    · cases h
    · split at h
      · cases h
      · exact h

/-- While directories stay, a path leads to the same place. -/
theorem place_of_grown (hgrown : Grown t t') (h : t.place path = .ok q) :
    t'.place path = .ok q := by
  have hfollow := followAll_of_grown hgrown (followAll_of_place h)
  unfold place at h ⊢
  split at h
  · cases h
  · next hzero =>
    split at h
    · cases h
    · next hempty =>
      split at h
      · cases h
      · next hlong =>
        rw [if_neg hzero, if_neg hempty, if_neg hlong, hgrown.workingDirectory]
        exact hfollow

/-! ## Below a directory -/

/-- A path leads to a directory. The empty path leads to the working directory. -/
structure Leads (t : FileTree) (out : String) (p : Place) : Prop where
  place : if out = "" then p = t.workingDirectory else t.place out = .ok p
  directory : t.stored? p = some .directory

theorem Leads.of_grown (h : t.Leads out p) (hgrown : Grown t t') : t'.Leads out p where
  place := by
    have hplace := h.place
    split
    · next hout => rwa [if_pos hout, ← hgrown.workingDirectory] at hplace
    · next hout =>
      rw [if_neg hout] at hplace
      exact place_of_grown hgrown hplace
  directory := hgrown.directory p h.directory

theorem follow_name (hname : Path.IsName name) (h : t.follow p name = .ok q) : q = name :: p := by
  have hp := follow_eq_ok h
  unfold follow at h
  simp only [hp, hname.ne_empty, hname.ne_here, hname.ne_up, or_self, if_false] at h
  split at h
  · cases h
  · exact (Except.ok.inj h).symm

/-- An empty part leads nowhere else. -/
theorem followAll_append_empty {parts : List String} (h : t.followAll p (parts ++ [""]) = .ok q) :
    t.followAll p parts = .ok q := by
  rw [followAll_append] at h
  cases hparts : t.followAll p parts with
  | error fault =>
    rw [hparts] at h
    cases h
  | ok r =>
    rw [hparts] at h
    have hlast : t.follow r "" = .ok q := (followAll_singleton t r "").symm.trans h
    have hr := follow_eq_ok hlast
    simpa only [follow, hr, true_or, if_true] using hlast

/-- The parts in front of a name in a directory lead to the directory. -/
theorem Leads.followAll_join (h : t.Leads out p) (hname : Path.IsName name) : ∃ ps,
    Path.parts (Path.join out name) = ps ++ [name] ∧
      t.followAll (t.startOf (Path.join out name)) ps = .ok p := by
  have hplace := h.place
  split at hplace
  · next hout =>
    refine ⟨[], ?_, ?_⟩
    · rw [hout, Path.join_empty, hname.parts_eq]
      rfl
    · rw [hout, Path.join_empty, startOf, hname.isAbsolute_eq, hplace]
      rfl
  · next hout =>
    obtain ⟨ps, hparts, habsolute, hps⟩ := hname.parts_join hout
    refine ⟨ps, hparts, ?_⟩
    rw [startOf, habsolute, ← startOf]
    have hfollow := followAll_of_place hplace
    rcases hps with hps | hps
    · rwa [hps] at hfollow
    · rw [hps] at hfollow
      exact followAll_append_empty hfollow

/-- Where parts that come after those of a directory lead. -/
theorem followAll_append_of_eq {ps xs : List String} (hps : t.followAll p ps = .ok q)
    (h : t.followAll p (ps ++ xs) = .ok r) : t.followAll q xs = .ok r := by
  rw [followAll_append, hps] at h
  exact h

theorem Leads.place_join (h : t.Leads out p) (hname : Path.IsName name)
    (hq : t.place (Path.join out name) = .ok q) : q = name :: p := by
  obtain ⟨ps, hparts, hps⟩ := h.followAll_join hname
  have hfollow := followAll_of_place hq
  rw [hparts] at hfollow
  have hlast := followAll_append_of_eq hps hfollow
  rw [followAll_singleton] at hlast
  exact follow_name hname hlast

/-- A file below a directory lies in the directory of a name. -/
theorem Leads.place_join_join (h : t.Leads out p) (hname : Path.IsName name)
    (hfile : Path.IsName file) (hq : t.place (Path.join (Path.join out name) file) = .ok q) :
    q = file :: name :: p ∧ t.stored? (name :: p) = some .directory := by
  obtain ⟨ps, hparts, hps⟩ := h.followAll_join hname
  have hfollow := followAll_of_place hq
  rw [startOf, hname.isAbsolute_join_join hfile, ← startOf, hname.parts_join_join hfile, hparts,
    List.append_assoc] at hfollow
  have hrest := followAll_append_of_eq hps hfollow
  change t.followAll p (name :: [file]) = .ok q at hrest
  unfold followAll at hrest
  split at hrest
  · next r hr =>
    obtain rfl := follow_name hname hr
    rw [followAll_singleton] at hrest
    exact ⟨follow_name hfile hrest, follow_eq_ok hrest⟩
  · cases hrest

/-- Above a name in a directory there are directories only. -/
theorem Leads.place_of_mem_ancestry (h : t.Leads out p) (hname : Path.IsName name)
    (hpath : path ∈ Path.ancestry (Path.join out name)) (hq : t.place path = .ok q) :
    q = name :: p ∨ t.stored? q = some .directory := by
  obtain ⟨hne, rfl | ⟨a, b, hstem, hjoin⟩⟩ := Path.eq_or_above_of_mem_ancestry hpath
  · exact .inl (h.place_join hname hq)
  refine .inr ?_
  obtain ⟨ps, hparts, hps⟩ := h.followAll_join hname
  -- The parts of the path are parts of the directory, for the name stands behind them.
  obtain ⟨front, last, hb⟩ : ∃ front last, (Path.split b).map String.ofList = front ++ [last] := by
    rcases List.eq_nil_or_concat' ((Path.split b).map String.ofList) with hnil | hconcat
    · exact absurd (List.map_eq_nil_iff.mp hnil) (Path.split_ne_nil b)
    · exact hconcat
  rw [Path.parts_of_toList_eq hjoin, hb, ← List.append_assoc] at hparts
  obtain ⟨hfront, -⟩ := List.append_inj' hparts rfl
  rw [← hfront, followAll_append] at hps
  cases hr : t.followAll (t.startOf (Path.join out name)) ((Path.split a).map String.ofList) with
  | error fault =>
    rw [hr] at hps
    cases hps
  | ok r =>
    rw [hr] at hps
    have hdirectory := directory_of_followAll hps h.directory
    have hfollow := followAll_of_place hq
    rw [startOf, ← hstem.isAbsolute_eq hne hjoin, ← startOf] at hfollow
    have hsame : r = q := by
      rcases hstem.parts with hp | hp
      · rw [hp, hr] at hfollow
        exact Except.ok.inj hfollow
      · rw [hp] at hfollow
        rw [followAll_append_empty hfollow] at hr
        exact (Except.ok.inj hr).symm
    rwa [← hsame]

end SiteCatalog.FileTree
