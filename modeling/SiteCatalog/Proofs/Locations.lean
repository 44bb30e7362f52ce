import Mathlib.Algebra.Order.BigOperators.Group.List
import Mathlib.Algebra.Order.Group.Nat
import SiteCatalog.Proofs.Files

/-!
# Where paths lead

Where there are no links, the place that a path leads to can be read off its text: points and empty
parts stay where they are, two points go up, and from the root they stay there. A path that does not
start at the root and never goes up further than it came down leads below every directory that it is
seen from; all other paths leave some directory.

Results:
* `FileTree.place_eq_resolve`: a path leads to the place that its text says.
* `Path.resolve_join`: a path that is seen from a directory.
* `Path.suffix_resolve_iff`: which paths lead below every directory that they are seen from.
-/

namespace SiteCatalog

/-! ## Places by text -/

namespace Path

/-- Where a part leads from a place. -/
def enter (place : Place) (part : String) : Place :=
  if part = "" ∨ part = "." then place
  else if part = ".." then place.tail
  else part :: place

/-- Where parts lead from a place, one after the other. -/
def walk (place : Place) (parts : List String) : Place :=
  parts.foldl enter place

/-- Where a path leads from a working directory. -/
def resolve (working : Place) (path : String) : Place :=
  walk (if isAbsolute path then [] else working) (parts path)

variable {place working : Place} {path : String} {ps qs : List String}

@[simp] theorem walk_append (place : Place) (ps qs : List String) :
    walk place (ps ++ qs) = walk (walk place ps) qs :=
  List.foldl_append

@[simp] theorem resolve_empty (working : Place) : resolve working "" = working :=
  rfl

theorem IsName.enter_eq {name : String} (h : IsName name) (place : Place) :
    enter place name = name :: place := by
  rw [enter, if_neg (not_or.mpr ⟨h.ne_empty, h.ne_here⟩), if_neg h.ne_up]

theorem IsName.resolve_eq {name : String} (h : IsName name) (working : Place) :
    resolve working name = name :: working := by
  rw [resolve, h.isAbsolute_eq, h.parts_eq]
  exact h.enter_eq working

/-- A path that is seen from a directory leads where it leads from the place of the directory. -/
theorem resolve_join (working : Place) (directory path : String) :
    resolve working (join directory path) = resolve (resolve working directory) path := by
  cases habsolute : isAbsolute path with
  | true =>
    have hjoin : join directory path = path := by rw [join, habsolute, Bool.true_or, if_pos rfl]
    rw [hjoin, resolve, resolve, habsolute, if_pos rfl, if_pos rfl]
  | false =>
    by_cases hempty : directory = ""
    · rw [hempty, join_empty, resolve_empty]
    · obtain ⟨a, hstem, hjoin⟩ := toList_join_of_relative habsolute hempty
      have hdirectory : ∀ place, walk place (parts directory) =
          walk place ((split a).map String.ofList) := by
        intro place
        rcases hstem.parts with hparts | hparts <;> rw [hparts]
        exact walk_append ..
      rw [resolve, resolve, resolve, habsolute, hstem.isAbsolute_eq hempty hjoin,
        parts_of_toList_eq hjoin, walk_append, hdirectory]
      rfl

end Path

namespace FileTree

variable {t : FileTree} {p q : Place} {path : String}

theorem followAll_eq_walk {parts : List String} (h : t.followAll p parts = .ok q) :
    q = Path.walk p parts := by
  induction parts generalizing p with
  | nil => exact (Except.ok.inj h).symm
  | cons part parts ih =>
    unfold followAll at h
    split at h
    · next next hnext =>
      have henter : next = Path.enter p part := by
        unfold follow at hnext
        rw [Path.enter]
        split at hnext
        · cases hnext
        · cases hnext
        · split at hnext
          · next hidle => rw [if_pos hidle, Except.ok.inj hnext]
          · next hidle =>
            rw [if_neg hidle]
            split at hnext
            · next hup => rw [if_pos hup, Except.ok.inj hnext]
            · next hup =>
              rw [if_neg hup]
              split at hnext
              · cases hnext
              · exact (Except.ok.inj hnext).symm
      rw [ih h, henter]
      rfl
    · cases h

/-- A path leads to the place that its text says, if it leads anywhere. -/
theorem place_eq_resolve (h : t.place path = .ok q) : q = Path.resolve t.workingDirectory path :=
  followAll_eq_walk (followAll_of_place h)

end FileTree

/-! ## Paths that lead below every directory -/

namespace Path

/-- Whether parts lead on from a place without going up by more than `depth` names. -/
def staysBelow : ℕ → List String → Bool
  | _, [] => true
  | depth, part :: rest =>
    if part = "" ∨ part = "." then staysBelow depth rest
    else if part = ".." then
      match depth with
      | 0 => false
      | depth + 1 => staysBelow depth rest
    else staysBelow (depth + 1) rest

/-- A path does not start at the root and never goes up further than it came down. -/
def Descends (path : String) : Prop :=
  isAbsolute path = false ∧ staysBelow 0 (parts path) = true

instance (path : String) : Decidable (Descends path) :=
  inferInstanceAs (Decidable (_ ∧ _))

theorem IsName.descends {name : String} (h : IsName name) : Descends name := by
  refine ⟨h.isAbsolute_eq, ?_⟩
  rw [h.parts_eq, staysBelow, if_neg (not_or.mpr ⟨h.ne_empty, h.ne_here⟩), if_neg h.ne_up]
  rfl

variable {above below place : Place} {ps : List String} {path : String}

/-- Parts that do not go up too far leave alone what lies below. -/
theorem walk_append_of_staysBelow (h : staysBelow above.length ps = true) :
    walk (above ++ place) ps = walk above ps ++ place := by
  induction ps generalizing above with
  | nil => rfl
  | cons part ps ih =>
    rw [walk, walk, List.foldl_cons, List.foldl_cons, enter, enter]
    unfold staysBelow at h
    split at h
    · next hidle =>
      rw [if_pos hidle, if_pos hidle]
      exact ih h
    · next hidle =>
      rw [if_neg hidle, if_neg hidle]
      split at h
      · next hup =>
        rw [if_pos hup, if_pos hup]
        cases above with
        | nil => cases h
        | cons name above => exact ih h
      · next hup =>
        rw [if_neg hup, if_neg hup]
        exact @ih (part :: above) h

theorem mem_or_mem_of_mem_walk {x : String} (h : x ∈ walk place ps) : x ∈ place ∨ x ∈ ps := by
  induction ps generalizing place with
  | nil => exact .inl h
  | cons part ps ih =>
    rcases @ih (enter place part) h with hplace | hps
    · unfold enter at hplace
      split at hplace
      · exact .inl hplace
      · split at hplace
        · exact .inl (List.mem_of_mem_tail hplace)
        · rcases List.mem_cons.mp hplace with rfl | hplace
          · exact .inr List.mem_cons_self
          · exact .inl hplace
    · exact .inr (List.mem_cons_of_mem _ hps)

/-- Parts that go up too far leave what lies below, and come back only if they name it. -/
theorem not_mem_walk {x : String} (h : staysBelow above.length ps = false) (habove : x ∉ above)
    (hps : x ∉ ps) : x ∉ walk (above ++ [x]) ps := by
  induction ps generalizing above with
  | nil => cases h
  | cons part ps ih =>
    obtain ⟨hpart, hps⟩ := not_or.mp (List.mem_cons.not.mp hps)
    rw [walk, List.foldl_cons, enter]
    unfold staysBelow at h
    split at h
    · next hidle =>
      rw [if_pos hidle]
      exact ih h habove hps
    · next hidle =>
      rw [if_neg hidle]
      split at h
      · next hup =>
        rw [if_pos hup]
        cases above with
        | nil => exact fun hmem => (mem_or_mem_of_mem_walk hmem).elim (nomatch ·) hps
        | cons name above => exact ih h (fun hmem => habove (List.mem_cons_of_mem _ hmem)) hps
      · next hup =>
        rw [if_neg hup]
        refine @ih (part :: above) h (fun hmem => ?_) hps
        exact (List.mem_cons.mp hmem).elim hpart habove

/-- A name that is none of several texts. -/
theorem exists_isName_not_mem (ps : List String) : ∃ name, IsName name ∧ name ∉ ps := by
  -- It is longer than all of them together.
  have hlong : ∀ part ∈ ps, part.toList.length < (ps.map (·.toList.length)).sum + 1 :=
    fun part hpart => Nat.lt_succ_of_le (List.le_sum_of_mem (List.mem_map_of_mem hpart))
  generalize (ps.map (·.toList.length)).sum = n at hlong
  have hletters : ∀ c ∈ List.replicate (n + 1) 'x', c = 'x' := fun _ => List.eq_of_mem_replicate
  have hne : ∀ s : String, s.toList.head? ≠ some 'x' →
      String.ofList (List.replicate (n + 1) 'x') ≠ s := by
    rintro _ hhead rfl
    rw [String.toList_ofList, List.head?_replicate, if_neg (Nat.succ_ne_zero n)] at hhead
    exact hhead rfl
  refine ⟨String.ofList (List.replicate (n + 1) 'x'), ⟨hne _ (by decide), hne _ (by decide),
    hne _ (by decide), fun hmem => ?_, fun hmem => ?_⟩, fun hmem => ?_⟩
  · exact absurd (hletters _ (String.toList_ofList ▸ hmem)) (by decide)
  · exact absurd (hletters _ (String.toList_ofList ▸ hmem)) (by decide)
  · have hlength := hlong _ hmem
    rw [String.toList_ofList, List.length_replicate] at hlength
    exact absurd hlength (Nat.lt_irrefl _)

/-- Where a path leads that descends from a directory. -/
theorem Descends.resolve_eq (h : Descends path) (working : Place) :
    resolve working path = resolve [] path ++ working := by
  rw [resolve, resolve, h.1]
  exact @walk_append_of_staysBelow [] _ _ h.2

/-- The paths that descend are those that lead below every directory that they are seen from. -/
theorem suffix_resolve_iff :
    (∀ working directory, resolve working directory <:+ resolve working (join directory path)) ↔
      Descends path := by
  simp only [resolve_join]
  constructor
  · intro hall
    obtain ⟨x, hname, hx⟩ := exists_isName_not_mem (parts path)
    have hmem : x ∈ resolve [x] path := by
      have hsuffix := hall [] x
      rw [hname.resolve_eq] at hsuffix
      exact hsuffix.subset (List.mem_singleton_self x)
    rw [resolve] at hmem
    split at hmem
    · exact absurd (mem_or_mem_of_mem_walk hmem) (by simp [hx])
    · next hrelative =>
      refine ⟨Bool.eq_false_iff.mpr hrelative, ?_⟩
      by_contra hclimbs
      exact @not_mem_walk [] _ _ (Bool.eq_false_iff.mpr hclimbs) List.not_mem_nil hx hmem
  · intro h working directory
    rw [h.resolve_eq]
    exact List.suffix_append ..

end Path

end SiteCatalog
