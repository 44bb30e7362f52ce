import Mathlib.Data.List.Nodup
import Mathlib.Data.List.Perm.Basic
import Mathlib.Logic.Equiv.Basic
import SiteCatalog.Proofs.Compilation.Simulation

/-!
# The order of declarations

Types are found by what they are called, so that it makes no difference in which order they were
declared. Only among the nodes that are selected by patterns the first one that fits wins.

Results:
* `exists_places_of_perm`: a permutation of a list as a permutation of its places.
* `Registry.corresponds_of_perm`: registries with the same types in another order correspond.
* `outcome_of_reordered`: compilations over them come to the same.
-/

namespace SiteCatalog

/-! ## Places in a permuted list -/

/-- A permutation of the places after the first one. -/
def shiftPlaces (σ : Equiv.Perm ℕ) : Equiv.Perm ℕ where
  toFun
    | 0 => 0
    | i + 1 => σ i + 1
  invFun
    | 0 => 0
    | i + 1 => σ.symm i + 1
  left_inv := by rintro (_ | i) <;> simp
  right_inv := by rintro (_ | i) <;> simp

/-- Where the entries of a list are after it has been permuted. -/
theorem exists_places_of_perm {α : Type} {l l' : List α} (h : l.Perm l') :
    ∃ σ : Equiv.Perm ℕ, (∀ i, l.length ≤ i → σ i = i) ∧ ∀ i, l'[σ i]? = l[i]? := by
  induction h with
  | nil => exact ⟨.refl ℕ, fun _ _ => rfl, fun _ => rfl⟩
  | cons a _ ih =>
    obtain ⟨σ, hfixed, hσ⟩ := ih
    refine ⟨shiftPlaces σ, ?_, ?_⟩
    · rintro (_ | i) hi
      · rfl
      · exact congrArg (· + 1) (hfixed i (by simpa using hi))
    · rintro (_ | i)
      · rfl
      · exact hσ i
  | swap a b l =>
    refine ⟨Equiv.swap 0 1, ?_, ?_⟩
    · intro i hi
      rw [List.length_cons, List.length_cons] at hi
      exact Equiv.swap_apply_of_ne_of_ne (by omega) (by omega)
    · rintro (_ | _ | i)
      · rfl
      · rfl
      · rw [Equiv.swap_apply_of_ne_of_ne (by omega) (by omega)]
        rfl
  | trans hperm _ ih ih' =>
    obtain ⟨σ, hfixed, hσ⟩ := ih
    obtain ⟨τ, hfixed', hτ⟩ := ih'
    refine ⟨σ.trans τ, fun i hi => ?_, fun i => ?_⟩
    · rw [Equiv.trans_apply, hfixed i hi, hfixed' i (hperm.length_eq ▸ hi)]
    · rw [Equiv.trans_apply, hτ, hσ]

/-- If the first entry with a property is the same in both lists, its places correspond. -/
theorem findIdx?_of_find?_eq {α : Type} {l l' : List α} {σ : Equiv.Perm ℕ} {p : α → Bool}
    (hσ : ∀ i, l'[σ i]? = l[i]?) (hnodup : l'.Nodup) (hfind : l'.find? p = l.find? p) :
    l'.findIdx? p = (l.findIdx? p).map σ := by
  cases hplace : l.findIdx? p with
  | none =>
    rw [List.findIdx?_eq_none_iff] at hplace
    have hnone : l'.find? p = none := hfind.trans (List.find?_eq_none.mpr (by simpa using hplace))
    rw [Option.map_none, List.findIdx?_eq_none_iff]
    simpa using List.find?_eq_none.mp hnone
  | some i =>
    obtain ⟨hi, hp, hbefore⟩ := List.findIdx?_eq_some_iff_getElem.mp hplace
    have hfirst : l.find? p = some l[i] :=
      List.find?_eq_some_iff_getElem.mpr ⟨hp, i, hi, rfl, fun j hj => by simpa using hbefore j hj⟩
    obtain ⟨-, j, hj, heq, hbefore'⟩ := List.find?_eq_some_iff_getElem.mp (hfind.trans hfirst)
    have hplaces : l'[σ i]? = l'[j]? := by
      rw [hσ, List.getElem?_eq_getElem hi, List.getElem?_eq_getElem hj, heq]
    have hji : j = σ i := (List.getElem?_inj hj hnodup).mp hplaces.symm
    rw [Option.map_some, ← hji, List.findIdx?_eq_some_iff_getElem]
    exact ⟨hj, heq ▸ hp, fun k hk => by simpa using hbefore' k hk⟩

/-- At most one entry has a property, so that it is the first one in every order. -/
theorem find?_of_perm {α : Type} {l l' : List α} {p : α → Bool} (h : l.Perm l')
    (hunique : ∀ a ∈ l, ∀ b ∈ l, p a → p b → a = b) : l'.find? p = l.find? p := by
  cases hfirst : l.find? p with
  | none =>
    rw [List.find?_eq_none] at hfirst ⊢
    exact fun a ha => hfirst a (h.mem_iff.mpr ha)
  | some a =>
    have hp := List.find?_some hfirst
    have ha := List.mem_of_find?_eq_some hfirst
    obtain ⟨b, hb⟩ := Option.isSome_iff_exists.mp
      (List.find?_isSome.mpr ⟨a, h.mem_iff.mp ha, hp⟩)
    rw [hb, hunique a ha b (h.mem_iff.mpr (List.mem_of_find?_eq_some hb)) hp (List.find?_some hb)]

/-! ## Registries -/

/-- A node that is selected by a pattern. -/
def Descriptor.IsPatternNode (d : Descriptor) : Bool :=
  d.kind = .node && d.pattern.isSome

namespace Registry

variable {r r' : Registry}

/-- Registries correspond that hold the same types in another order, if no two of them are found by
the same kind and key and the nodes with patterns keep their order. -/
theorem corresponds_of_perm (hperm : r.types.Perm r'.types)
    (hdistinct : (r.types.map Descriptor.kindAndKey).Nodup)
    (hunresolved : ∀ d ∈ r.types, d.resolved = none)
    (hpatterns : r'.types.filter Descriptor.IsPatternNode =
      r.types.filter Descriptor.IsPatternNode) :
    ∃ σ, r.Corresponds σ r' := by
  obtain ⟨σ, hfixed, hσ⟩ := exists_places_of_perm hperm
  have hnodup : r'.types.Nodup := hperm.nodup_iff.mp (.of_map _ hdistinct)
  refine ⟨σ, hperm.length_eq.symm, hfixed, fun t => ?_, fun kind key => ?_, fun names => ?_⟩
  · show Option.Rel _ r.types[t]? r'.types[σ t]?
    rw [hσ]
    cases hd : r.types[t]? with
    | none => exact .none
    | some d =>
      exact .some (.of_unresolved (hunresolved d (List.mem_of_getElem? hd)))
  · refine findIdx?_of_find?_eq hσ hnodup (find?_of_perm hperm fun d hd e he hp hq => ?_)
    simp only [Bool.and_eq_true, decide_eq_true_eq] at hp hq
    refine List.inj_on_of_nodup_map hdistinct hd he ?_
    rw [Descriptor.kindAndKey, Descriptor.kindAndKey, hp.1, hp.2, hq.1, hq.2]
  · refine findIdx?_of_find?_eq hσ hnodup ?_
    have hfilter : ∀ l : List Descriptor, l.find? (IsFitting names) =
        (l.filter Descriptor.IsPatternNode).find? fun d => names.any d.fits := by
      intro l
      rw [List.find?_filter]
      refine congrArg (l.find? ·) (funext fun d => ?_)
      rw [Bool.eq_iff_iff, decide_eq_true_eq, IsFitting, Bool.and_eq_true]
      exact Iff.rfl
    rw [hfilter, hfilter, hpatterns]

/-- Adds types in order. -/
def addAll : List Descriptor → Registry → Except CompileError Registry
  | [], r => .ok r
  | d :: rest, r => do
    let (_, r) ← r.add d
    addAll rest r

theorem addAll_eq_ok : ∀ {ds : List Descriptor} {r : Registry},
    ((r.types ++ ds).map Descriptor.kindAndKey).Nodup →
      addAll ds r = .ok { r with types := r.types ++ ds } := by
  intro ds
  induction ds with
  | nil =>
    intro r _
    rw [List.append_nil]
    rfl
  | cons d rest ih =>
    intro r h
    have hnew : r.ofKey? d.kind d.key = none := by
      rw [List.map_append, List.nodup_append] at h
      exact ofKey?_eq_none.mpr fun e he =>
        h.2.2 _ (List.mem_map_of_mem he) _ (List.mem_map_of_mem List.mem_cons_self)
    rw [List.append_cons] at h ⊢
    rw [addAll, add, hnew]
    exact ih h

end Registry

open Compilation (outcome)

/-- However types with different kinds or keys are ordered, they can be added, and a compilation
over them comes to the same document or the same failure, as long as the nodes with patterns keep
their order. -/
theorem outcome_of_reordered {ds ds' : List Descriptor} (hperm : ds.Perm ds')
    (hdistinct : (ds.map Descriptor.kindAndKey).Nodup) (hunresolved : ∀ d ∈ ds, d.resolved = none)
    (hpatterns : ds'.filter Descriptor.IsPatternNode = ds.filter Descriptor.IsPatternNode)
    (environment : String) : ∃ types types',
      Registry.addAll ds (.empty environment) = .ok types ∧
      Registry.addAll ds' (.empty environment) = .ok types' ∧
      ∀ rounds host settings, outcome rounds types' host settings =
        outcome rounds types host settings := by
  have hdistinct' : (ds'.map Descriptor.kindAndKey).Nodup :=
    (hperm.map _).nodup_iff.mp hdistinct
  refine ⟨_, _, Registry.addAll_eq_ok hdistinct, Registry.addAll_eq_ok hdistinct', ?_⟩
  obtain ⟨σ, hσ⟩ : ∃ σ, Registry.Corresponds σ ⟨environment, ds⟩ ⟨environment, ds'⟩ :=
    Registry.corresponds_of_perm hperm hdistinct hunresolved hpatterns
  exact fun rounds host settings => Compilation.outcome_eq_of_corresponds hσ rounds host settings

/-- Nodes that patterns select, of which the first fits fewer hosts. -/
def patternNodes : List Descriptor :=
  ["web\\d+", "w.*"].filterMap fun source => (Pattern.ofSource? source).map Descriptor.ofPattern

/-- A class that inherits from another one, which is declared after it. -/
def declaredTypes : List Descriptor :=
  [{ Descriptor.ofName .hostclass "" with body := some (.code (.includes ["b"])) },
    { Descriptor.ofName .hostclass "b" with parent := some "a" }, .ofName .hostclass "a"]

/-- The classes and the nodes with patterns change places, and the classes are turned around. -/
theorem outcome_of_reordered_reversed : ∃ types types',
    Registry.addAll (declaredTypes ++ patternNodes) (.empty "production") = .ok types ∧
      Registry.addAll (patternNodes ++ declaredTypes.reverse) (.empty "production") = .ok types' ∧
      (outcome 1 types ⟨"web01", [], []⟩ {}).toOption.isSome ∧
      ∀ rounds host settings, outcome rounds types' host settings =
        outcome rounds types host settings := by
  have hperm : (declaredTypes ++ patternNodes).Perm (patternNodes ++ declaredTypes.reverse) :=
    List.perm_append_comm.trans ((List.reverse_perm _).symm.append_left _)
  have hpatterns : (patternNodes ++ declaredTypes.reverse).filter Descriptor.IsPatternNode =
      (declaredTypes ++ patternNodes).filter Descriptor.IsPatternNode := by
    rw [List.filter_append, List.filter_append]
    exact List.append_nil _
  have hdistinct : ((declaredTypes ++ patternNodes).map Descriptor.kindAndKey).Nodup := by
    decide +kernel
  obtain ⟨types, types', htypes, htypes', houtcome⟩ := outcome_of_reordered hperm hdistinct
    (by decide +kernel) hpatterns "production"
  have hok : (Registry.addAll (declaredTypes ++ patternNodes) (.empty "production")).toOption.any
      (fun types => (outcome 1 types ⟨"web01", [], []⟩ {}).toOption.isSome) = true := by
    decide +kernel
  rw [htypes] at hok
  exact ⟨types, types', htypes, htypes', hok, houtcome⟩

end SiteCatalog
