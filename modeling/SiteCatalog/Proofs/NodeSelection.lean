import Mathlib.Data.List.Infix
import SiteCatalog.Proofs.Collection
import SiteCatalog.Proofs.Names

/-!
# The node of a host

A host has candidate names: its name and what stands in front of the points in it. A candidate
stands for a node in the way in which names of types are looked up, by the node's key: without
leading separators, and in small letters unless it is the key of a pattern. A node fits a candidate,
on the other hand, if its literal name is the candidate up to the case of ASCII letters. On simple
candidates the two are the same.

The look-up takes every name that starts with a slash as it is, whether it is the key of a pattern
or not, and looks for the slash before the separators are gone. On regular names this makes no
difference.

Results:
* `Name.candidates_eq`: the candidates of a host, longest first.
* `Name.lookupKey_eq_meantKey_iff`: on which names the look-up follows the rule.
* `Registry.Built.standsFor_iff_of_simple`: a simple name stands for the node whose literal name fits.
* `Registry.built_ofManifests`: the registry of a site is built by adding types and joining classes.
* `Registry.Built.nodeFor_candidates`: which node is selected for a host.
-/

namespace SiteCatalog

/-! ## Candidates -/

namespace Name

open Text

/-- The prefixes of a text that are not empty and end just before a point, longest first. -/
def shorter (cs : List Char) : List (List Char) :=
  cs.inits.reverse.filter fun p => p ≠ [] ∧ p ++ ['.'] <+: cs

theorem beforeLastPoint?_eq_none {cs : List Char} (h : beforeLastPoint? cs = none) : '.' ∉ cs := by
  induction cs with
  | nil => exact List.not_mem_nil
  | cons c rest ih =>
    unfold beforeLastPoint? at h
    split at h
    · cases h
    · next hrest =>
      split at h
      · cases h
      · next hc =>
        rw [List.mem_cons, not_or]
        exact ⟨fun heq => hc heq.symm, ih hrest⟩

theorem beforeLastPoint?_eq_some {cs before : List Char} (h : beforeLastPoint? cs = some before) :
    ∃ after, cs = before ++ '.' :: after ∧ '.' ∉ after := by
  induction cs generalizing before with
  | nil => cases h
  | cons c rest ih =>
    unfold beforeLastPoint? at h
    split at h
    · next b hrest =>
      cases h
      obtain ⟨after, rfl, hafter⟩ := ih hrest
      exact ⟨after, rfl, hafter⟩
    · next hrest =>
      split at h
      · next hc =>
        cases h
        exact ⟨rest, by rw [hc]; rfl, beforeLastPoint?_eq_none hrest⟩
      · cases h

theorem shorter_of_not_mem {cs : List Char} (h : '.' ∉ cs) : shorter cs = [] := by
  refine List.filter_eq_nil_iff.mpr fun p _ hp => h ?_
  simp only [decide_eq_true_eq] at hp
  exact hp.2.subset (List.mem_append_right _ List.mem_cons_self)

/-- Of the prefixes up to the last point, all but the longest end before an earlier one. -/
theorem filter_inits_append_point (before after : List Char) :
    (before.inits.reverse.filter fun p => p ≠ [] ∧ p ++ ['.'] <+: before ++ '.' :: after) =
      if before = [] then [] else before :: shorter before := by
  rcases List.eq_nil_or_concat' before with rfl | ⟨init, c, rfl⟩
  · simp
  have hinits : (init ++ [c]).inits.reverse = (init ++ [c]) :: init.inits.reverse := by
    simp [List.inits_append]
  rw [if_neg (by simp), shorter, hinits, List.filter_cons_of_pos (by simp),
    List.filter_cons_of_neg (by simp)]
  refine congrArg _ (List.filter_congr fun p hp => ?_)
  have hlen : (p ++ ['.']).length ≤ (init ++ [c]).length := by
    simpa using ((List.mem_inits _ _).mp (List.mem_reverse.mp hp)).length_le
  refine decide_eq_decide.mpr (and_congr_right fun _ => ⟨fun h => ?_, fun h => ?_⟩)
  · exact List.prefix_of_prefix_length_le h (List.prefix_append ..) hlen
  · exact h.trans (List.prefix_append ..)

theorem shorter_append {before after : List Char} (h : '.' ∉ after) :
    shorter (before ++ '.' :: after) = if before = [] then [] else before :: shorter before := by
  have hinits : (before ++ '.' :: after).inits.reverse =
      (after.inits.map fun p => before ++ '.' :: p).reverse ++ before.inits.reverse := by
    simp [List.inits_append, Function.comp_def]
  have hlate : ((after.inits.map fun p => before ++ '.' :: p).reverse.filter
      fun p => p ≠ [] ∧ p ++ ['.'] <+: before ++ '.' :: after) = [] := by
    refine List.filter_eq_nil_iff.mpr fun p hp hp' => h ?_
    simp only [decide_eq_true_eq] at hp'
    obtain ⟨q, -, rfl⟩ := List.mem_map.mp (List.mem_reverse.mp hp)
    have hq := hp'.2
    rw [List.append_assoc, List.prefix_append_right_inj, List.cons_append,
      List.cons_prefix_cons] at hq
    exact hq.2.subset (List.mem_append_right _ List.mem_cons_self)
  rw [shorter, hinits, List.filter_append, hlate, List.nil_append, filter_inits_append_point]

theorem prefixesFrom_eq {fuel : ℕ} {cs : List Char} (h : cs.length ≤ fuel) :
    prefixesFrom fuel cs = cs :: shorter cs := by
  induction fuel generalizing cs with
  | zero =>
    rw [List.length_eq_zero_iff.mp (Nat.le_zero.mp h)]
    rfl
  | succ fuel ih =>
    unfold prefixesFrom
    split
    · next hbefore =>
      obtain ⟨after, rfl, hafter⟩ := beforeLastPoint?_eq_some hbefore
      rw [shorter_append hafter, if_pos rfl]
    · next before hne hbefore =>
      obtain ⟨after, rfl, hafter⟩ := beforeLastPoint?_eq_some hbefore
      rw [shorter_append hafter, if_neg hne, ih (by simp at h; omega)]
    · next hbefore => rw [shorter_of_not_mem (beforeLastPoint?_eq_none hbefore)]

/-- The candidates of a host are its name and the non-empty parts of it that end just before a
point, longest first. -/
theorem candidates_eq (host : String) :
    candidates host = host :: (shorter host.toList).map String.ofList := by
  rw [candidates, prefixesFrom_eq le_rfl, List.map_cons, String.ofList_toList]

/-! ## What a name is looked up as -/

/-- The name without the separators that it starts with. -/
def bare (name : String) : String :=
  String.ofList (dropSeparators name.toList)

/-- The key that a name stands for: without leading separators, the key of a pattern as it is, and
any other name in small letters. -/
def meantKey (name : String) : String :=
  if (Manifest.patternSource? (bare name)).isSome then bare name else lowercase (bare name)

/-- A name whose slashes do not mislead the look-up: the key of a pattern has no separators before
it or no capitals, and no other name that starts with a slash has capitals. -/
structure Regular (name : String) : Prop where
  pattern : (Manifest.patternSource? (bare name)).isSome →
    bare name = name ∨ lowercase (bare name) = bare name
  literal : Manifest.patternSource? (bare name) = none → name.toList.head? = some '/' →
    lowercase name = name

theorem normalize_eq_lowercase_bare (name : String) : normalize name = lowercase (bare name) := by
  rw [normalize, lowercase, bare, String.toList_ofList]

theorem bare_of_not_starts {name : String} (h : startsWithSeparator name.toList = false) :
    bare name = name := by
  rw [bare, dropSeparators_of_not_starts h, String.ofList_toList]

theorem bare_of_slash {name : String} (h : name.toList.head? = some '/') : bare name = name := by
  refine bare_of_not_starts ?_
  cases hname : name.toList with
  | nil => rfl
  | cons c rest =>
    rw [hname] at h
    cases h
    rfl

theorem head?_of_patternSource? {name : String}
    (h : (Manifest.patternSource? name).isSome) : name.toList.head? = some '/' := by
  unfold Manifest.patternSource? at h
  split at h
  · next rest hname => rw [hname, List.head?_cons]
  · cases h

theorem patternSource?_slashes (source : String) :
    Manifest.patternSource? ("/" ++ source ++ "/") = some source := by
  have hlist : ("/" ++ source ++ "/").toList = '/' :: (source.toList ++ ['/']) := by
    simp [String.toList_append]
  simp [Manifest.patternSource?, hlist]

/-- The look-up follows the rule on regular names, and on no others. -/
theorem lookupKey_eq_meantKey_iff (name : String) :
    Registry.lookupKey name = meantKey name ↔ Regular name := by
  by_cases hslash : name.toList.head? = some '/'
  · have hbare := bare_of_slash hslash
    rw [Registry.lookupKey, if_pos hslash, meantKey, hbare]
    split
    · next hkey =>
      refine iff_of_true rfl ⟨fun _ => .inl hbare, fun hnone => ?_⟩
      rw [hbare] at hnone
      rw [hnone] at hkey
      cases hkey
    · next hkey =>
      refine ⟨fun heq => ⟨fun hsome => ?_, fun _ _ => heq.symm⟩, fun h => ?_⟩
      · rw [hbare] at hsome
        exact absurd hsome hkey
      · exact (h.literal (by rw [hbare]; exact Option.not_isSome_iff_eq_none.mp hkey) hslash).symm
  · rw [Registry.lookupKey, if_neg hslash, normalize_eq_lowercase_bare, meantKey]
    split
    · next hkey =>
      refine ⟨fun heq => ⟨fun _ => .inr heq, fun _ hs => absurd hs hslash⟩, fun h => ?_⟩
      refine (h.pattern hkey).resolve_left fun hbare => hslash ?_
      rw [← hbare]
      exact head?_of_patternSource? hkey
    · next hkey =>
      exact iff_of_true rfl ⟨fun hsome => absurd hsome hkey, fun _ hs => absurd hs hslash⟩

/-- A name that has no slash at its beginning, after separators or without, is regular. -/
theorem regular_of_unslashed {name : String} (h : (bare name).toList.head? ≠ some '/') :
    Regular name where
  pattern := fun hsome => absurd (head?_of_patternSource? hsome) h
  literal := fun _ hslash => absurd (by rwa [bare_of_slash hslash]) h

/-! ## Simple names -/

/-- A name that does not start with a separator, is not the key of a pattern, and whose small
letters are the small ASCII letters of its capital ones. -/
structure Simple (name : String) : Prop where
  unseparated : startsWithSeparator name.toList = false
  literal : Manifest.patternSource? name = none
  ascii : lower name.toList = name.toList.map asciiLower

theorem lowerChar_of_ascii {c : Char} (h : c.toNat < 128) : lowerChar c = [asciiLower c] :=
  forall_ascii (P := fun c => lowerChar c = [asciiLower c]) (by decide) c h

theorem asciiLower_of_not_ascii {c : Char} (h : ¬ c.toNat < 128) : asciiLower c = c := by
  refine if_neg fun hcapital => h ?_
  have : c.toNat ≤ 'Z'.toNat := hcapital.2
  exact lt_of_le_of_lt this (by decide)

theorem asciiLower_of_isSmall {c : Char} (h : IsSmall c) : asciiLower c = c := by
  by_cases hc : c.toNat < 128
  · have := h.2
    rw [lowerChar_of_ascii hc] at this
    exact List.singleton_inj.mp this
  · exact asciiLower_of_not_ascii hc

theorem lowerAfter_of_ascii {cs : List Char} (h : ∀ c ∈ cs, c.toNat < 128) :
    ∀ b, lowerAfter b cs = cs.map asciiLower := by
  induction cs with
  | nil => exact fun _ => rfl
  | cons c rest ih =>
    intro b
    have hc := h c List.mem_cons_self
    have hsigma : c ≠ 'Σ' := by
      rintro rfl
      exact absurd hc (by decide)
    rw [lowerAfter, if_neg hsigma, lowerChar_of_ascii hc,
      ih fun x hx => h x (List.mem_cons_of_mem _ hx)]
    rfl

theorem asciiLower_eq_slash {c : Char} (h : asciiLower c = '/') : c = '/' := by
  by_cases hc : c.toNat < 128
  · exact forall_ascii (P := fun c => asciiLower c = '/' → c = '/') (by decide) c hc h
  · rwa [asciiLower_of_not_ascii hc] at h

/-- Small letters do not turn a name into the key of a pattern. -/
theorem patternSource?_map_asciiLower {name : String}
    (h : Manifest.patternSource? name = none) :
    Manifest.patternSource? (String.ofList (name.toList.map asciiLower)) = none := by
  unfold Manifest.patternSource? at h ⊢
  rw [String.toList_ofList]
  generalize name.toList = cs at h ⊢
  split
  · next rest heq =>
    obtain ⟨c, tail, rfl, hc, rfl⟩ := List.map_eq_cons_iff.mp heq
    obtain rfl := asciiLower_eq_slash hc
    refine if_neg fun hlast => ?_
    rw [List.getLast?_map] at hlast
    obtain ⟨z, hz, hslash⟩ := Option.map_eq_some_iff.mp hlast
    obtain rfl := asciiLower_eq_slash hslash
    have hsome : (if tail.getLast? = some '/' then some (String.ofList tail.dropLast) else none) =
        none := h
    rw [if_pos hz] at hsome
    cases hsome
  · rfl

theorem Simple.meantKey_eq {name : String} (h : Simple name) :
    meantKey name = String.ofList (name.toList.map asciiLower) := by
  rw [meantKey, bare_of_not_starts h.unseparated, if_neg (by rw [h.literal]; exact Bool.false_ne_true),
    lowercase, h.ascii]

/-- A name in small letters is the same as another one up to the case of ASCII letters if it is the
other one with small ASCII letters. -/
theorem sameIgnoringCase_normalize (name c : String) :
    sameIgnoringCase (normalize name) c =
      decide (normalize name = String.ofList (c.toList.map asciiLower)) := by
  have hsmall : (normalize name).toList.map asciiLower = (normalize name).toList := by
    have hid : ∀ x ∈ (normalize name).toList, asciiLower x = id x := fun x hx => by
      rw [normalize, String.toList_ofList] at hx
      exact asciiLower_of_isSmall (isSmall_of_mem_lowerAfter hx)
    rw [List.map_congr_left hid, List.map_id]
  rw [sameIgnoringCase, asciiEq, hsmall]
  refine decide_eq_decide.mpr ?_
  rw [← String.toList_inj, String.toList_ofList]

/-- A name in ASCII is simple unless it starts with a separator or is the key of a pattern. -/
theorem simple_of_ascii {name : String} (hunseparated : startsWithSeparator name.toList = false)
    (hliteral : Manifest.patternSource? name = none) (hascii : ∀ c ∈ name.toList, c.toNat < 128) :
    Simple name :=
  ⟨hunseparated, hliteral, lowerAfter_of_ascii hascii false⟩

end Name

/-! ## Nodes that a name stands for -/

/-- A type as it is written: it has a name in small letters, or it is a node with a pattern, and its
parent is known by name at most. -/
structure Descriptor.Authored (d : Descriptor) : Prop where
  found : (∃ kind name, d.FoundLike (.ofName kind name)) ∨ ∃ p, d.FoundLike (.ofPattern p)
  resolved : d.resolved = none

theorem Descriptor.Authored.ofName (kind : Kind) (name : String) :
    (Descriptor.ofName kind name).Authored :=
  ⟨.inl ⟨kind, name, rfl, rfl, rfl⟩, rfl⟩

theorem Descriptor.Authored.ofPattern (p : Pattern) : (Descriptor.ofPattern p).Authored :=
  ⟨.inr ⟨p, rfl, rfl, rfl⟩, rfl⟩

theorem Descriptor.Authored.joined {d : Descriptor} (h : d.Authored) (source : Descriptor) :
    (d.joined source).Authored where
  found := h.found.imp (fun ⟨kind, name, hd⟩ => ⟨kind, name, hd.kind, hd.name, hd.pattern⟩)
    fun ⟨p, hd⟩ => ⟨p, hd.kind, hd.name, hd.pattern⟩
  resolved := h.resolved

namespace Registry

variable {r : Registry} {names : List String} {c : String} {t : TypeId}

/-- A registry that is built by adding types and joining classes. -/
inductive Built : Registry → Prop
  | empty (environment : String) : Built (.empty environment)
  | add {r : Registry} {d : Descriptor} {x : TypeId × Registry} :
      Built r → d.Authored → r.add d = .ok x → Built x.2
  | mergeClass {r : Registry} {d : Descriptor} {freeze : Bool} {x : TypeId × Registry} :
      Built r → d.Authored → r.mergeClass d freeze = .ok x → Built x.2

/-- A name stands for a node: it is meant for the key of the node. -/
def StandsFor (r : Registry) (c : String) (t : TypeId) : Prop :=
  ∃ d, r.get? t = some d ∧ d.kind = .node ∧ d.key = Name.meantKey c

/-- The literal name of a node fits a name. -/
def FitsLiterally (r : Registry) (c : String) (t : TypeId) : Prop :=
  ∃ d, r.get? t = some d ∧ d.kind = .node ∧ d.pattern = none ∧ d.fits c = true

/-- The pattern of a node fits one of several names. -/
def FitsByPattern (r : Registry) (names : List String) (t : TypeId) : Prop :=
  ∃ d p, r.get? t = some d ∧ d.kind = .node ∧ d.pattern = some p ∧ ∃ c ∈ names, p.isMatch c = true

theorem Built.fresh (hr : r.Built) : r.Fresh := by
  induction hr with
  | empty environment => exact .empty environment
  | add _ hd h ih => exact ih.add hd.resolved h
  | mergeClass _ hd h ih => exact ih.mergeClass hd.resolved h

theorem Built.authored (hr : r.Built) : ∀ d ∈ r.types, d.Authored := by
  have hadd : ∀ {r : Registry} {d : Descriptor} {x}, (∀ e ∈ r.types, e.Authored) → d.Authored →
      r.add d = .ok x → ∀ e ∈ x.2.types, e.Authored := by
    intro r d x hr hd h e he
    rw [add_eq_ok h] at he
    rcases List.mem_append.mp he with he | he
    · exact hr e he
    · rw [List.mem_singleton.mp he]
      exact hd
  induction hr with
  | empty => exact fun _ h => nomatch h
  | add _ hd h ih => exact hadd ih hd h
  | mergeClass _ hd h ih =>
    obtain ⟨-, -, h⟩ | ⟨t, target, -, -, -, rfl⟩ := mergeClass_eq_ok h
    · exact hadd ih hd h
    · exact forall_mem_modify ih fun e he => he.joined _

/-- Types that are found by different kinds and keys can be added one after the other. -/
theorem built_of_distinct {environment : String} {ds : List Descriptor}
    (hauthored : ∀ d ∈ ds, d.Authored) (hdistinct : (ds.map Descriptor.kindAndKey).Nodup) :
    Built ⟨environment, ds⟩ := by
  induction ds using List.reverseRecOn with
  | nil => exact .empty environment
  | append_singleton ds d ih =>
    rw [List.map_append, List.nodup_append] at hdistinct
    have hnew : ofKey? ⟨environment, ds⟩ d.kind d.key = none :=
      ofKey?_eq_none.mpr fun e he heq => hdistinct.2.2 _ (List.mem_map_of_mem he) _
        (List.mem_singleton_self _) heq
    exact .add (ih (fun e he => hauthored e (List.mem_append_left _ he)) hdistinct.1)
      (hauthored d (by simp)) (add_of_ofKey?_eq_none hnew)

/-- A regular name stands for at most one node, the one that looking it up finds. -/
theorem Fresh.lookup_eq_some (hr : r.Fresh) (hc : Name.Regular c) :
    r.lookup .node c = some t ↔ r.StandsFor c t := by
  rw [lookup, (Name.lookupKey_eq_meantKey_iff c).mpr hc]
  exact hr.ofKey?_eq_some

theorem Fresh.lookup_eq_none (hr : r.Fresh) (hc : Name.Regular c) :
    r.lookup .node c = none ↔ ∀ t, ¬ r.StandsFor c t := by
  simp only [← hr.lookup_eq_some hc, Option.eq_none_iff_forall_ne_some]

/-- A simple name stands for the node whose literal name fits it. -/
theorem Built.standsFor_iff_of_simple (hr : r.Built) (hc : Name.Simple c) :
    r.StandsFor c t ↔ r.FitsLiterally c t := by
  refine exists_congr fun d => and_congr_right fun hd => and_congr_right fun _ => ?_
  rcases (hr.authored d (List.mem_of_getElem? hd)).found with ⟨kind, name, hlike⟩ | ⟨p, hlike⟩
  · have hpattern : d.pattern = none := hlike.pattern
    have hname : d.name = Name.normalize name := hlike.name
    rw [hc.meantKey_eq, Descriptor.key, Descriptor.fits, hpattern, hname,
      Name.sameIgnoringCase_normalize]
    simp
  · have hpattern : d.pattern = some p := hlike.pattern
    refine iff_of_false (fun hkey => ?_) (fun h => by simp [hpattern] at h)
    rw [hc.meantKey_eq, Descriptor.key, hpattern] at hkey
    have hnone := Name.patternSource?_map_asciiLower hc.literal
    rw [← hkey, Name.patternSource?_slashes] at hnone
    cases hnone

/-! ## Selection -/

/-- How a node is selected among several names, when it is known for which node a name stands: the
node of the first name that stands for one, else the first node with a pattern that fits a name,
else the node for the name default, else none. -/
inductive Selection (r : Registry) (stands : String → TypeId → Prop) (names : List String) :
    Option TypeId → Prop
  | byName {before after : List String} {c : String} {t : TypeId} : names = before ++ c :: after →
      (∀ b ∈ before, ∀ u, ¬stands b u) → stands c t → Selection r stands names (some t)
  | byPattern {t : TypeId} : (∀ c ∈ names, ∀ u, ¬stands c u) →
      r.FitsByPattern names t → (∀ u < t, ¬r.FitsByPattern names u) →
      Selection r stands names (some t)
  | byDefault {t : TypeId} : (∀ c ∈ names, ∀ u, ¬stands c u) →
      (∀ u, ¬r.FitsByPattern names u) → stands "default" t → Selection r stands names (some t)
  | nothing : (∀ c ∈ names, ∀ u, ¬stands c u) → (∀ u, ¬r.FitsByPattern names u) →
      (∀ u, ¬stands "default" u) → Selection r stands names none

theorem patternFits_iff : r.patternFits names t = true ↔ r.FitsByPattern names t := by
  simp only [patternFits, FitsByPattern, Option.any_eq_true, Bool.and_eq_true, decide_eq_true_eq,
    Option.isSome_iff_exists, List.any_eq_true]
  constructor
  · rintro ⟨d, hd, ⟨hkind, p, hp⟩, c, hc, hfits⟩
    rw [Descriptor.fits, hp] at hfits
    exact ⟨d, p, hd, hkind, hp, c, hc, hfits⟩
  · rintro ⟨d, p, hd, hkind, hp, c, hc, hfits⟩
    refine ⟨d, hd, ⟨hkind, p, hp⟩, c, hc, ?_⟩
    rw [Descriptor.fits, hp]
    exact hfits

theorem FitsByPattern.mem_idsOf (h : r.FitsByPattern names t) : t ∈ r.idsOf .node := by
  obtain ⟨d, _, hd, hkind, -⟩ := h
  simp [idsOf, lt_length_of_get? hd, hd, hkind]

theorem find?_patternFits_eq_some :
    (r.idsOf .node).find? (r.patternFits names) = some t ↔
      r.FitsByPattern names t ∧ ∀ u < t, ¬r.FitsByPattern names u := by
  have hnode : ∀ u, (r.get? u).any (·.kind = .node) = true ∧ r.patternFits names u = true ↔
      r.FitsByPattern names u := fun u => by
    rw [patternFits_iff, and_iff_right_iff_imp]
    exact fun ⟨d, _, hd, hkind, _⟩ => by simp [hd, hkind]
  simp only [idsOf, List.find?_filter, List.find?_range_eq_some, List.mem_range,
    Bool.not_eq_true', decide_eq_true_eq, decide_eq_false_iff_not, hnode]
  refine and_congr_right fun h => and_iff_right ?_
  obtain ⟨d, _, hd, -⟩ := h
  exact lt_length_of_get? hd

theorem find?_patternFits_eq_none :
    (r.idsOf .node).find? (r.patternFits names) = none ↔ ∀ u, ¬r.FitsByPattern names u := by
  rw [List.find?_eq_none]
  exact ⟨fun h u hu => h u hu.mem_idsOf (patternFits_iff.mpr hu),
    fun h u _ hu => h u (patternFits_iff.mp hu)⟩

theorem Fresh.findSome?_lookup_eq_none (hr : r.Fresh) (hnames : ∀ c ∈ names, Name.Regular c) :
    names.findSome? (r.lookup .node) = none ↔ ∀ c ∈ names, ∀ u, ¬r.StandsFor c u := by
  rw [List.findSome?_eq_none_iff]
  exact forall₂_congr fun c hc => hr.lookup_eq_none (hnames c hc)

theorem regular_default : Name.Regular "default" :=
  Name.regular_of_unslashed (by decide)

theorem Fresh.selection_nodeFor (hr : r.Fresh) (hnames : ∀ c ∈ names, Name.Regular c) :
    r.Selection r.StandsFor names (r.nodeFor names) := by
  unfold nodeFor
  split
  · next t hname =>
    obtain ⟨before, c, after, rfl, hc, hbefore⟩ := List.findSome?_eq_some_iff.mp hname
    refine .byName rfl (fun b hb => (hr.lookup_eq_none (hnames b ?_)).mp (hbefore b hb))
      ((hr.lookup_eq_some (hnames c ?_)).mp hc)
    · exact List.mem_append_left _ hb
    · exact List.mem_append_right _ List.mem_cons_self
  · next hname =>
    have hname := (hr.findSome?_lookup_eq_none hnames).mp hname
    split
    · next t hpattern =>
      obtain ⟨hfits, hfirst⟩ := find?_patternFits_eq_some.mp hpattern
      exact .byPattern hname hfits hfirst
    · next hpattern =>
      have hpattern := find?_patternFits_eq_none.mp hpattern
      cases hdefault : r.lookup .node "default" with
      | some t =>
        exact .byDefault hname hpattern ((hr.lookup_eq_some regular_default).mp hdefault)
      | none => exact .nothing hname hpattern ((hr.lookup_eq_none regular_default).mp hdefault)

theorem Fresh.nodeFor_of_selection (hr : r.Fresh) (hnames : ∀ c ∈ names, Name.Regular c)
    {o : Option TypeId} (h : r.Selection r.StandsFor names o) : r.nodeFor names = o := by
  unfold nodeFor
  cases h with
  | byName heq hbefore hc =>
    subst heq
    rw [List.findSome?_eq_some_iff.mpr ⟨_, _, _, rfl,
      (hr.lookup_eq_some (hnames _ (List.mem_append_right _ List.mem_cons_self))).mpr hc,
      fun b hb => (hr.lookup_eq_none (hnames b (List.mem_append_left _ hb))).mpr (hbefore b hb)⟩]
  | byPattern hname hfits hfirst =>
    rw [(hr.findSome?_lookup_eq_none hnames).mpr hname,
      find?_patternFits_eq_some.mpr ⟨hfits, hfirst⟩]
  | byDefault hname hpattern hdefault =>
    rw [(hr.findSome?_lookup_eq_none hnames).mpr hname, find?_patternFits_eq_none.mpr hpattern]
    exact (hr.lookup_eq_some regular_default).mpr hdefault
  | nothing hname hpattern hdefault =>
    rw [(hr.findSome?_lookup_eq_none hnames).mpr hname, find?_patternFits_eq_none.mpr hpattern]
    exact (hr.lookup_eq_none regular_default).mpr hdefault

/-- The node of a host with regular candidates is selected among them by the nodes that they stand
for, which for simple candidates are the nodes with literal names that fit. -/
theorem nodeFor_candidates (hr : r.Built) {host : String}
    (hregular : ∀ c ∈ Name.candidates host, Name.Regular c) :
    (∀ o, r.nodeFor (Name.candidates host) = o ↔
      r.Selection r.StandsFor (host :: (Name.shorter host.toList).map String.ofList) o) ∧
    ∀ c, Name.Simple c → ∀ t, r.StandsFor c t ↔ r.FitsLiterally c t := by
  refine ⟨fun o => ?_, fun c hc t => hr.standsFor_iff_of_simple hc⟩
  rw [← Name.candidates_eq]
  refine ⟨fun h => ?_, hr.fresh.nodeFor_of_selection hregular⟩
  rw [← h]
  exact hr.fresh.selection_nodeFor hregular

/-- A node with a literal name, one with a pattern, and the node of last resort. -/
def threeNodes : Registry where
  environment := "production"
  types := [.ofName .node "web01", .ofPattern ((Pattern.ofSource? "^web").get (by decide +kernel)),
    .ofName .node "default"]

/-- The last name stands for the literal node, which comes before those of patterns. -/
theorem nodeFor_candidates_threeNodes :
    threeNodes.Selection threeNodes.StandsFor
      ["WEB01.example.com", "WEB01.example", "WEB01"] (some 0) ∧
    threeNodes.FitsLiterally "WEB01" 0 := by
  have hbuilt : threeNodes.Built := built_of_distinct
    (by
      simp only [List.forall_mem_cons, List.not_mem_nil, false_imp_iff, implies_true,
        and_true]
      exact ⟨.ofName .node "web01", .ofPattern _, .ofName .node "default"⟩)
    (by decide +kernel)
  have hnode : threeNodes.nodeFor (Name.candidates "WEB01.example.com") = some 0 := by
    decide +kernel
  have hshorter : (Name.shorter "WEB01.example.com".toList).map String.ofList =
      ["WEB01.example", "WEB01"] := by
    decide +kernel
  have hascii : "WEB01".toList.all (fun c => decide (c.toNat < 128)) = true := by decide
  have hsimple : Name.Simple "WEB01" := Name.simple_of_ascii (by decide) (by decide)
    fun c hc => of_decide_eq_true (List.all_eq_true.mp hascii c hc)
  have hregular : ∀ c ∈ Name.candidates "WEB01.example.com", Name.Regular c := by
    have hunslashed : ∀ c ∈ Name.candidates "WEB01.example.com",
        (Name.bare c).toList.head? ≠ some '/' := by decide +kernel
    exact fun c hc => Name.regular_of_unslashed (hunslashed c hc)
  obtain ⟨hselection, hstands⟩ := nodeFor_candidates hbuilt hregular
  refine ⟨hshorter ▸ (hselection (some 0)).mp hnode, (hstands "WEB01" hsimple 0).mp ?_⟩
  exact ⟨_, rfl, rfl, by decide +kernel⟩

/-- A node that is selected by literal names or patterns fits some candidate. -/
theorem Selection.exists_fits (h : r.Selection r.FitsLiterally names (some t)) :
    ∃ d, r.get? t = some d ∧ ∃ c ∈ "default" :: names, d.fits c = true := by
  cases h with
  | byName hnames _ hc =>
    obtain ⟨d, hd, -, -, hfits⟩ := hc
    exact ⟨d, hd, _, by simp [hnames], hfits⟩
  | byPattern _ hfits =>
    obtain ⟨d, p, hd, -, hp, c, hc, hfits⟩ := hfits
    refine ⟨d, hd, c, List.mem_cons_of_mem _ hc, ?_⟩
    rw [Descriptor.fits, hp]
    exact hfits
  | byDefault _ _ hdefault =>
    obtain ⟨d, hd, -, -, hfits⟩ := hdefault
    exact ⟨d, hd, _, List.mem_cons_self, hfits⟩

/-- Nodes that some names stand for without fitting them. -/
def oddNodes : Registry where
  environment := "production"
  types := [.ofName .node "web01", .ofName .node "é",
    .ofPattern ((Pattern.ofSource? "^web").get (by decide +kernel))]

/-- A leading separator, a capital outside ASCII and the key of a pattern lead to nodes that do not
fit. -/
theorem not_selection_fitsLiterally : oddNodes.Built ∧
    ∀ host ∈ ["::web01", "É", "/^web/"],
      ¬oddNodes.Selection oddNodes.FitsLiterally (Name.candidates host)
        (oddNodes.nodeFor (Name.candidates host)) := by
  refine ⟨built_of_distinct ?_ (by decide +kernel), ?_⟩
  · simp only [List.forall_mem_cons, List.not_mem_nil, false_imp_iff, implies_true, and_true]
    exact ⟨.ofName _ _, .ofName _ _, .ofPattern _⟩
  have hunfit : ∀ x ∈ [("::web01", 0), ("É", 1), ("/^web/", 2)],
      oddNodes.nodeFor (Name.candidates x.1) = some x.2 ∧
        (oddNodes.get? x.2).all (fun d =>
          ("default" :: Name.candidates x.1).all fun c => !d.fits c) = true := by
    decide +kernel
  have hwrong : ∀ x ∈ [("::web01", 0), ("É", 1), ("/^web/", 2)],
      ¬oddNodes.Selection oddNodes.FitsLiterally (Name.candidates x.1)
        (oddNodes.nodeFor (Name.candidates x.1)) := by
    intro x hx h
    obtain ⟨hnode, hall⟩ := hunfit x hx
    rw [hnode] at h
    obtain ⟨d, hd, c, hc, hfits⟩ := h.exists_fits
    rw [hd] at hall
    simpa [hfits] using List.all_eq_true.mp hall c hc
  simpa only [List.forall_mem_cons, List.not_mem_nil, false_imp_iff, implies_true, and_true]
    using hwrong

end Registry

/-! ## The registry of a site -/

theorem Manifest.Declares.authored {m : Manifest} {d : Descriptor} (h : m.Declares d) :
    d.Authored := by
  refine ⟨?_, h.resolved⟩
  cases h with
  | @hostclass name _ _ _ h => exact .inl ⟨.hostclass, name, Declaration.foundLike_of_describe h⟩
  | main h =>
    obtain ⟨_, -, rfl⟩ := Manifest.mainOf?_eq_ok h
    exact .inl ⟨.hostclass, "", rfl, rfl, rfl⟩
  | @define name _ _ _ h => exact .inl ⟨.define, name, Declaration.foundLike_of_describe h⟩
  | @node name _ _ _ h =>
    unfold Manifest.nodeOf at h
    split at h
    · obtain ⟨base, hbase, h⟩ := exists_of_bind_eq_ok h
      unfold Descriptor.ofPatternSource at hbase
      split at hbase <;> cases hbase
      exact .inr ⟨_, Declaration.foundLike_of_describe h⟩
    · exact .inl ⟨.node, name, Declaration.foundLike_of_describe h⟩

/-- The registry of a site is built by adding types and joining classes. -/
theorem Registry.built_ofManifests {manifests : List Manifest} {settings : Settings} {r : Registry}
    (h : Registry.ofManifests manifests settings = .ok r) : r.Built := by
  have hcarries : Carries Descriptor.Authored settings.freezeMain settings.freezeMain
      fun r r' => r' = r ∧ r.Built :=
    .of_invariant (fun hd hr h => hr.add hd h) (fun hd hr h => hr.mergeClass hd h)
  obtain ⟨_, -, -, hr⟩ := hcarries.collectAll (fun _ _ _ hd => hd.authored) ⟨rfl, .empty _⟩ h
  exact hr

end SiteCatalog
