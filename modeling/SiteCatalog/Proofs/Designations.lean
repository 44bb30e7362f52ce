import SiteCatalog.Proofs.Capitals
import SiteCatalog.Proofs.Gathering

/-!
# What types are declared as

A type is declared under a literal name, or as the node of a pattern. A literal name is registered in
small letters, and a name is looked up in small letters unless it starts with a slash. So a type is
found under every spelling of its name but those that start with a slash and are not in small
letters.

Results:
* `Name.alike_iff`: names that differ in case and leading separators are normalized alike.
* `Designation.foundUnder_iff`: under which names a type is found.
* `Designation.forall_foundUnder_iff`: when a type is found under all names that it bears.
* `Designation.forall_bears_iff`: when it is found under no other ones.
-/

namespace SiteCatalog

namespace Descriptor.FoundLike

variable {d e f : Descriptor}

theorem refl (d : Descriptor) : d.FoundLike d :=
  ⟨rfl, rfl, rfl⟩

theorem symm (h : d.FoundLike e) : e.FoundLike d :=
  ⟨h.kind.symm, h.name.symm, h.pattern.symm⟩

theorem trans (h : d.FoundLike e) (h' : e.FoundLike f) : d.FoundLike f :=
  ⟨h.kind.trans h'.kind, h.name.trans h'.name, h.pattern.trans h'.pattern⟩

end Descriptor.FoundLike

/-! ## Spellings of a name -/

namespace Name

open Text

/-- Two names are equal up to the case of letters and leading separators. -/
def Alike (s t : String) : Prop :=
  ∃ j k cs ds, s.toList = List.replicate (2 * j) ':' ++ cs ∧
    t.toList = List.replicate (2 * k) ':' ++ ds ∧ lower cs = lower ds

theorem dropSeparators_replicate (k : ℕ) (cs : List Char) :
    dropSeparators (List.replicate (2 * k) ':' ++ cs) = dropSeparators cs := by
  induction k with
  | zero => rfl
  | succ k ih => exact ih

/-- Leading separators may be dropped before or after the small letters are taken. -/
theorem lower_dropSeparators (cs : List Char) :
    lower (dropSeparators cs) = dropSeparators (lower cs) := by
  obtain ⟨k, hk⟩ := exists_replicate_append_dropSeparators cs
  have hdrop := dropSeparators_of_not_starts (not_starts_lower (not_starts_dropSeparators cs))
  conv_rhs => rw [← hk, lower, lowerAfter_replicate, dropSeparators_replicate]
  exact hdrop.symm

theorem alike_iff {s t : String} : Alike s t ↔ normalize s = normalize t := by
  rw [normalize, normalize, String.ofList_inj]
  constructor
  · rintro ⟨j, k, cs, ds, hs, ht, hlower⟩
    rw [hs, ht, dropSeparators_replicate, dropSeparators_replicate, lower_dropSeparators,
      lower_dropSeparators, hlower]
  · intro h
    obtain ⟨j, hj⟩ := exists_replicate_append_dropSeparators s.toList
    obtain ⟨k, hk⟩ := exists_replicate_append_dropSeparators t.toList
    exact ⟨j, k, _, _, hj.symm, hk.symm, h⟩

theorem lowercase_eq_iff {s : String} : lowercase s = s ↔ ∀ c ∈ s.toList, IsSmall c := by
  constructor
  · intro h c hc
    rw [← h, lowercase, String.toList_ofList] at hc
    exact isSmall_of_mem_lowerAfter hc
  · intro h
    rw [lowercase, lower, lowerAfter_of_isSmall h, String.ofList_toList]

/-- A name starts with a slash. -/
def Slashed (s : String) : Prop :=
  s.toList.head? = some '/'

instance (s : String) : Decidable (Slashed s) :=
  inferInstanceAs (Decidable (_ = _))

theorem lookupKey_of_slashed {s : String} (h : Slashed s) : Registry.lookupKey s = s :=
  if_pos h

theorem lookupKey_of_not_slashed {s : String} (h : ¬Slashed s) :
    Registry.lookupKey s = normalize s :=
  if_neg h

end Name

/-! ## What types are declared as -/

/-- What a type is declared as: a construct with a literal name, or the node of a pattern. -/
inductive Designation
  | literal (kind : Kind) (name : String)
  | pattern (p : Pattern)

namespace Designation

open Text

/-- The type without parent, parameters and body. -/
def descriptor : Designation → Descriptor
  | literal kind name => .ofName kind name
  | pattern p => .ofPattern p

def kind : Designation → Kind
  | literal kind _ => kind
  | pattern _ => .node

/-- The source of a pattern between slashes. -/
def patternKey (p : Pattern) : String :=
  "/" ++ p.source ++ "/"

/-- A name is a spelling of the literal name, or it is the source of the pattern between slashes. -/
def Bears : Designation → String → Prop
  | literal _ n, name => Name.Alike n name
  | pattern p, name => name = patternKey p

/-- The names under which a type is found. A name that starts with a slash has to be the key as it
stands; of another one the small letters count. -/
def FoundUnder : Designation → String → Prop
  | literal _ n, name => if Name.Slashed name then name = Name.normalize n else Name.Alike n name
  | pattern p, name =>
    if Name.Slashed name then name = patternKey p else Name.normalize name = patternKey p

/-- Of the spellings of a literal name only the normalized one starts with a slash, if any does. -/
def SlashedOnce : Designation → Prop
  | literal _ n => ∀ name, Name.Alike n name → Name.Slashed name → name = Name.normalize n
  | pattern _ => True

/-- The source of a pattern has capital letters. -/
def Capital : Designation → Prop
  | literal _ _ => True
  | pattern p => Name.lowercase p.source ≠ p.source

variable {g g' : Designation} {name : String}

@[simp] theorem kind_descriptor (g : Designation) : g.descriptor.kind = g.kind := by
  cases g <;> rfl

theorem slashed_patternKey (p : Pattern) : Name.Slashed (patternKey p) := by
  simp [Name.Slashed, patternKey]

/-- A type is found under a name exactly if the name stands for its key. -/
theorem foundUnder_iff : g.FoundUnder name ↔ g.descriptor.key = Registry.lookupKey name := by
  by_cases hslash : Name.Slashed name
  · rw [Name.lookupKey_of_slashed hslash]
    cases g <;> exact (if_pos hslash).to_iff.trans eq_comm
  · rw [Name.lookupKey_of_not_slashed hslash]
    cases g with
    | literal kind n => exact (if_neg hslash).to_iff.trans Name.alike_iff
    | pattern p => exact (if_neg hslash).to_iff.trans eq_comm

/-- All names that a type bears find it exactly if at most one spelling starts with a slash. -/
theorem forall_foundUnder_iff : (∀ name, g.Bears name → g.FoundUnder name) ↔ g.SlashedOnce := by
  cases g with
  | literal kind n =>
    refine forall_congr' fun name => imp_congr_right fun hbears => ?_
    rw [FoundUnder]
    split_ifs with hslash
    · exact ⟨fun h _ => h, fun h => h hslash⟩
    · exact ⟨fun _ h => absurd h hslash, fun _ => hbears⟩
  | pattern p =>
    refine iff_of_true (fun name hname => ?_) trivial
    obtain rfl : name = patternKey p := hname
    rw [FoundUnder, if_pos (slashed_patternKey p)]

theorem slashedOnce_of_not_slashed {kind : Kind} {n : String}
    (h : ¬Name.Slashed (Name.normalize n)) : (literal kind n).SlashedOnce := by
  intro name halike hslash
  obtain ⟨rest, hname⟩ : ∃ rest, name = String.ofList ('/' :: rest) := by
    obtain ⟨rest, hrest⟩ := List.head?_eq_some_iff.mp hslash
    exact ⟨rest, by rw [← hrest, String.ofList_toList]⟩
  refine absurd ?_ h
  rw [Name.alike_iff.mp halike, hname, Name.normalize_slash, Name.Slashed, String.toList_ofList]
  rfl

/-- The key of a pattern in small letters stands for itself after a separator. -/
theorem normalize_separator_patternKey {p : Pattern} (h : Name.lowercase p.source = p.source) :
    Name.normalize ("::" ++ patternKey p) = patternKey p := by
  have hsmall : ∀ c ∈ (patternKey p).toList, IsSmall c := by
    have hslash : IsSmall '/' := ⟨by decide, by decide⟩
    have hsource : ∀ c ∈ p.source.toList, IsSmall c := Name.lowercase_eq_iff.mp h
    simpa [patternKey, or_imp, forall_and, hslash] using hsource
  have hlower : lower (patternKey p).toList = (patternKey p).toList :=
    lowerAfter_of_isSmall hsmall false
  have hstarts : Name.startsWithSeparator (patternKey p).toList = false := by
    simp [patternKey, Name.startsWithSeparator]
  have hdrop : Name.dropSeparators ("::" ++ patternKey p).toList = (patternKey p).toList := by
    rw [String.toList_append]
    exact Name.dropSeparators_of_not_starts hstarts
  rw [Name.normalize, hdrop, hlower, String.ofList_toList]

/-- A type is found only under names that it bears, unless its pattern is in small letters. -/
theorem forall_bears_iff : (∀ name, g.FoundUnder name → g.Bears name) ↔ g.Capital := by
  cases g with
  | literal kind n =>
    refine iff_of_true (fun name hfound => ?_) trivial
    rw [FoundUnder] at hfound
    split_ifs at hfound with hslash
    · rw [hfound, Bears, Name.alike_iff, Name.normalize_normalize]
    · exact hfound
  | pattern p =>
    constructor
    · intro h hsmall
      have hcolon : ¬Name.Slashed ("::" ++ patternKey p) := by simp [Name.Slashed]
      have hbears : "::" ++ patternKey p = patternKey p :=
        h _ ((if_neg hcolon).mpr (normalize_separator_patternKey hsmall))
      rw [hbears] at hcolon
      exact hcolon (slashed_patternKey p)
    · intro hcapital name hfound
      rw [FoundUnder] at hfound
      split_ifs at hfound
      · exact hfound
      · refine absurd (Name.lowercase_eq_iff.mpr fun c hc => ?_) hcapital
        refine Name.isSmall_of_mem_normalize (s := name) ?_
        rw [hfound]
        simp [patternKey, hc]

/-- Classes with one key are found in the same way. -/
theorem foundLike_of_class (hclass : g.kind = .hostclass)
    (h : g.descriptor.kindAndKey = g'.descriptor.kindAndKey) :
    g.descriptor.FoundLike g'.descriptor := by
  have hkind : g'.kind = .hostclass := by
    rw [← g'.kind_descriptor, ← hclass, ← g.kind_descriptor]
    exact (congrArg Prod.fst h).symm
  cases g with
  | pattern p => cases hclass
  | literal kind n =>
    cases g' with
    | pattern p => cases hkind
    | literal kind' n' => exact ⟨congrArg Prod.fst h, congrArg Prod.snd h, rfl⟩

theorem bears_of_foundLike (h : g.descriptor.FoundLike g'.descriptor) (hg : g'.Bears name) :
    g.Bears name := by
  cases g with
  | literal kind n =>
    cases g' with
    | literal kind' n' =>
      have hname : Name.normalize n = Name.normalize n' := h.name
      exact Name.alike_iff.mpr (hname.trans (Name.alike_iff.mp hg))
    | pattern p => cases h.pattern
  | pattern p =>
    cases g' with
    | literal kind n => cases h.pattern
    | pattern p' =>
      cases h.pattern
      exact hg

theorem foundUnder_of_foundLike (h : g.descriptor.FoundLike g'.descriptor)
    (hg : g'.FoundUnder name) : g.FoundUnder name := by
  rw [foundUnder_iff] at hg ⊢
  exact h.key.trans hg

end Designation

end SiteCatalog
