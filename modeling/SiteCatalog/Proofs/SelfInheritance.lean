import SiteCatalog.Proofs.Compilation.Remembering
import SiteCatalog.Proofs.Entries

/-!
# Entries that inherit from themselves

Validation takes the parent of an entry for the entry itself if both are written alike up to the
case of ASCII letters. The registry finds a parent by its name without leading separators and in
small letters of any kind, and for a class in the namespaces around it first.

Results:
* `Declaration.mem_selfInheritance_iff`: which entries validation reports.
* `Compilation.findsParent_iff`: which parent is found from the top.
* `Registry.NamesItself`: when the name of a parent means the type itself.
* `Compilation.selfInheritance_iff`: what validation reports and what is found, for every entry, and
  when the two agree for names in plain letters.
-/

namespace SiteCatalog

/-! ## What validation reports -/

namespace Declaration

variable {kind : Kind} {name parent : String} {e : Declaration}

/-- Of the entries with a parent those are reported whose key is not blank and that name a parent
that is written like the key up to the case of ASCII letters. -/
theorem mem_selfInheritance_iff (hkind : kind ≠ .define) (hparent : e.inherits = some parent) :
    Invalidity.selfInheritance kind name ∈ e.invalidities kind name ↔
      Name.isBlank name = false ∧ Name.sameIgnoringCase parent name = true := by
  have hpattern : Invalidity.selfInheritance kind name ∉ patternInvalidities kind name := by
    unfold patternInvalidities
    split
    · split <;> simp
    · simp
  have hparameters : Invalidity.selfInheritance kind name ∉
      parameterInvalidities kind name e.params := by
    simp [parameterInvalidities]
  have hbody : Invalidity.selfInheritance kind name ∉
      e.body.flatMap (Statement.invalidities (.declaration kind name)) := by
    intro hmem
    obtain ⟨statement, -, hmem⟩ := List.mem_flatMap.mp hmem
    cases statement <;> simp [Statement.invalidities] at hmem
  unfold invalidities
  split
  · next hblank => simp [hblank]
  · next hblank =>
    simp only [List.mem_append, hpattern, hparameters, hbody, false_or, or_false, hparent,
      parentInvalidities, if_neg hkind]
    split
    · next hsame => simp [hsame, hblank]
    · next hsame => simp [hsame]

end Declaration

/-! ## Which parent is found -/

namespace Compilation

variable {r : Registry} {t p : TypeId} {d : Descriptor}

/-- From the top, the parent of a type is looked up and found before anything is evaluated. -/
def FindsParent (r : Registry) (host : Host) (t p : TypeId) : Prop :=
  ((resolveParent t (some Scopes.top)).run (.initial r host)).1 = .ok (some p)

/-- What is found is what the name of the parent means at the top. -/
theorem findsParent_iff {parent : String} (hr : r.Built) (hd : r.get? t = some d)
    (hkind : d.kind ≠ .define) (hparent : d.parent = some parent) (host : Host) :
    FindsParent r host t p ↔ parentNamed r d parent "" = .ok (some p) := by
  have hunknown : ∀ d ∈ r.types, d.resolved = none := fun d hd => (hr.authored d hd).resolved
  have hlooked : Looked r "" Scopes.top (.initial r host) :=
    ⟨kindred_of_unresolved hunknown, .refl r, rfl, _, rfl, rfl⟩
  have hfrom : parentFrom r "" t = _ := parentFrom_of_get? hd hparent
  rw [hunknown d (List.mem_of_getElem? hd), Option.none_or] at hfrom
  obtain ⟨found, hfound⟩ := exists_parentNamed r parent "" hkind
  rw [hfound] at hfrom ⊢
  have hresult : ∀ q, Except.ok q = (.ok (some p) : Except Failure (Option TypeId)) ↔
      (.ok q : Except CompileError (Option TypeId)) = .ok (some p) := by simp
  unfold FindsParent
  obtain ⟨q, u, hq, hrun, -⟩ | ⟨hnone, -⟩ | ⟨_, hlacks, hrun⟩ := hlooked.resolveParent hd hkind
  · cases hfrom.symm.trans hq
    rw [hrun]
    exact hresult _
  · cases hparent.symm.trans hnone
  · cases hfrom.symm.trans hlacks.missing
    rw [hrun]
    exact iff_of_false (nomatch ·) (nomatch ·)

end Compilation

namespace Registry

open Name (normalize)
open Descriptor (parentName)

variable {r : Registry} {own : String} {t : TypeId}

/-- A name that means nothing from inside a class means nothing at the top either. -/
theorem find_or_top (r : Registry) (space name : String) :
    (r.find .hostclass space name).or (r.find .hostclass "" name) =
      r.find .hostclass space name := by
  have htop : r.find .hostclass "" name = r.lookup .hostclass name := by
    rw [find_eq, show r.around "" name = none from rfl, ite_self, Option.none_or]
  rw [htop, find_eq, Option.or_assoc, Option.or_self]

/-- The name of a parent means the type itself that has a key. A node is found by its key. A class
is found either around itself, as the innermost class there that the name stands for, or by its key
at the top if the name stands for no class around it. -/
def NamesItself (r : Registry) (t : TypeId) (own parent : String) : Kind → Prop
  | .hostclass =>
    SeesAround own parent ∧ r.around own (normalize parent) = some t ∨
      SeesTop parent ∧ normalize parent = own ∧
        (SeesAround own parent → r.around own (normalize parent) = none)
  | _ => lookupKey parent = own

theorem lookup_eq_self_iff {kind : Kind} {name : String} (ht : r.ofKey? kind own = some t) :
    r.lookup kind name = some t ↔ lookupKey name = own := by
  refine ⟨fun h => ?_, fun h => by rw [lookup, h, ht]⟩
  obtain ⟨d, hd, -, hkey⟩ := get?_of_ofKey? ht
  obtain ⟨d', hd', -, hkey'⟩ := get?_of_ofKey? h
  cases hd.symm.trans hd'
  exact hkey'.symm.trans hkey

theorem find_eq_self_iff (hr : r.Built) (ht : r.ofKey? .hostclass own = some t) (v : String) :
    r.find .hostclass own (parentName v) = some t ↔
      r.NamesItself t own (parentName v) .hostclass := by
  rw [find_kept hr, Option.or_eq_some_iff, NamesItself]
  have htop : r.lookup .hostclass (normalize (parentName v)) = some t ↔
      normalize (parentName v) = own := by
    rw [lookup_eq_self_iff ht, lookupKey_normalize]
  by_cases haround : SeesAround own (parentName v) <;> by_cases hsees : SeesTop (parentName v) <;>
    simp [haround, hsees, htop, and_comm]

/-- Relative names inside a class are looked up from the class itself. -/
theorem space_ofManifests {manifests : List Manifest} {settings : Settings} {c : Descriptor}
    (h : ofManifests manifests settings = .ok r) (hc : c ∈ r.types) (hkind : c.kind = .hostclass) :
    c.space = c.name := by
  obtain ⟨parts, hparts, hr⟩ := gathers_ofManifests h
  obtain ⟨d, hd, hsame⟩ := (Descriptor.joinedFrom_of_joinAll (hr.classes c hc hkind)).first
  obtain ⟨hmem, hkey⟩ := List.mem_filter.mp (List.mem_of_mem_head? hd)
  obtain ⟨ds, hds, hmem⟩ := List.mem_flatten.mp hmem
  obtain ⟨m, -, hdeclared⟩ := exists_of_forall₂_right hparts hds
  have hspace : ∀ {d : Descriptor}, m.Declares d → d.kind = .hostclass → d.space = d.name := by
    intro d hd hkind
    cases hd with
    | hostclass _ h =>
      obtain ⟨_, _, -, -, rfl⟩ := Declaration.describe_eq_ok h
      rfl
    | main h =>
      obtain ⟨_, -, rfl⟩ := Manifest.mainOf?_eq_ok h
      rfl
    | define _ h => cases hkind.symm.trans (Manifest.kind_of_defineOf h)
    | node _ h => cases hkind.symm.trans (Manifest.kind_of_nodeOf h)
  have hfirst := hspace (hdeclared.declares hmem)
    ((congrArg Prod.fst (of_decide_eq_true hkey)).trans hkind)
  rw [hsame]
  exact hfirst

/-- The parent that an entry names is the one of its type, up to the spelling for classes, and is
found as `NamesItself` says. -/
theorem exists_parent_ofManifests {settings : Settings} {m : Manifest} {kind : Kind}
    {name v : String} {e : Declaration} (h : ofManifests [m] settings = .ok r)
    (hkind : kind ≠ .define) (he : (name, e) ∈ m.entries kind) (hv : e.inherits = some v)
    (host : Host) : ∃ t d w,
      r.ofKey? kind (Manifest.keyOf kind name) = some t ∧ r.get? t = some d ∧
      d.parent = some (parentName w) ∧ normalize (parentName w) = normalize (parentName v) ∧
      (kind = .hostclass →
        (m.declarationsOf (normalize name)).findSome? (·.inherits) = some w) ∧
      (kind = .node → w = v) ∧
      (Compilation.FindsParent r host t t ↔
        r.NamesItself t (Manifest.keyOf kind name) (parentName w) kind) := by
  have hbuilt := built_ofManifests h
  cases kind with
  | define => exact absurd rfl hkind
  | hostclass =>
    obtain ⟨t, c, w, ht, hc, hfirst, hparent, hnormal, -⟩ :=
      parent_means_iff h (List.mem_singleton_self m) he hv
    rw [List.flatMap_singleton] at hfirst
    rw [lookup, lookupKey_normalize] at ht
    obtain ⟨c', hc', hclass, hname⟩ := get?_of_ofKey? ht
    cases hc.symm.trans hc'
    have hmem := List.mem_of_getElem? hc
    rw [(hbuilt.authored c hmem).key_eq_name (by simp [hclass])] at hname
    refine ⟨t, c, w, ht, hc, hparent, hnormal, fun _ => hfirst, by simp, ?_⟩
    rw [Compilation.findsParent_iff hbuilt hc (by simp [hclass]) hparent,
      Compilation.parentNamed, hclass, find_or_top, space_ofManifests h hmem hclass, hname,
      Except.ok.injEq, find_eq_self_iff hbuilt ht]
    rfl
  | node =>
    obtain ⟨t, d, ht, hd, hyield⟩ := exists_type_ofManifests h (List.mem_singleton_self m) he
    obtain ⟨base, -, -, hdescribe⟩ := Manifest.describe_of_nodeOf hyield
    have hnode := Manifest.kind_of_nodeOf hyield
    have hparent := (Declaration.describes_of_describe hdescribe).parent
    rw [hv, Option.map_some] at hparent
    refine ⟨t, d, v, ht, hd, hparent, rfl, by simp, fun _ => rfl, ?_⟩
    rw [Compilation.findsParent_iff hbuilt hd (by simp [hnode]) hparent, Compilation.parentNamed,
      hnode, Except.ok.injEq, lookup_eq_self_iff ht]
    rfl

end Registry

/-! ## Names in plain letters -/

namespace Name

open Descriptor (parentName)
open Text (asciiLower lower)

variable {name v w : String}

/-- A name that starts neither with a separator nor with a slash and whose small letters are the
small ASCII letters of its capital ones. -/
structure Plain (name : String) : Prop where
  unseparated : startsWithSeparator name.toList = false
  unslashed : name.toList.head? ≠ some '/'
  ascii : lower name.toList = name.toList.map asciiLower

theorem Plain.normalize_eq (hv : Plain v) :
    normalize v = String.ofList (v.toList.map asciiLower) := by
  rw [normalize, dropSeparators_of_not_starts hv.unseparated, hv.ascii]

theorem Plain.sameIgnoringCase_iff (hv : Plain v) (hname : Plain name) :
    sameIgnoringCase v name = true ↔ normalize v = normalize name := by
  rw [sameIgnoringCase, Text.asciiEq, decide_eq_true_iff, hv.normalize_eq, hname.normalize_eq,
    String.ofList_inj]

theorem Plain.parentName_eq (hv : Plain v) : parentName v = normalize v :=
  (if_neg hv.unslashed).trans (normalize_eq_lowercase hv.unseparated).symm

theorem Plain.normalize_unslashed (hv : Plain v) : (normalize v).toList.head? ≠ some '/' := by
  intro hhead
  rw [hv.normalize_eq, String.toList_ofList, List.head?_map] at hhead
  obtain ⟨c, hc, hslash⟩ := Option.map_eq_some_iff.mp hhead
  exact hv.unslashed (hc.trans (congrArg some (asciiLower_eq_slash hslash)))

/-- The name of a parent that is normalized like a plain name is that name itself, unless it has a
leading separator. -/
theorem Plain.parentName_eq_of_normalize (hv : Plain v)
    (h : normalize (parentName w) = normalize v)
    (hrelative : startsWithSeparator (parentName w).toList = false) :
    normalize (parentName w) = parentName w := by
  rw [normalize_eq_lowercase hrelative]
  refine lowercase_parentName w fun hslash => hv.normalize_unslashed ?_
  obtain ⟨rest, hrest⟩ := List.head?_eq_some_iff.mp hslash
  have hname : parentName w = String.ofList ('/' :: rest) := by rw [← hrest, String.ofList_toList]
  rw [← h, hname, normalize_slash, String.toList_ofList]
  rfl

end Name

namespace Registry

open Name (normalize startsWithSeparator Plain)
open Descriptor (parentName)

variable {r : Registry} {name v w : String} {t : TypeId}

/-- A name with a leading separator means the class itself exactly if it is the name of the
class. -/
theorem namesItself_absolute (habsolute : startsWithSeparator (parentName w).toList = true) :
    r.NamesItself t (normalize name) (parentName w) .hostclass ↔
      normalize (parentName w) = normalize name := by
  have haround : ¬SeesAround (normalize name) (parentName w) := by simp [SeesAround, habsolute]
  simp [NamesItself, haround, SeesTop, habsolute]

/-- A relative name means the class itself if it stands for it around the class, or if it is the
name of the class and stands for no class around it. -/
theorem namesItself_relative (hv : Plain v) (h : normalize (parentName w) = normalize v)
    (hrelative : startsWithSeparator (parentName w).toList = false) :
    r.NamesItself t (normalize name) (parentName w) .hostclass ↔
      r.around (normalize name) (normalize (parentName w)) = some t ∨
        normalize (parentName w) = normalize name ∧
          r.around (normalize name) (normalize (parentName w)) = none := by
  have hnormal := hv.parentName_eq_of_normalize h hrelative
  have haround : SeesAround (normalize name) (parentName w) := ⟨hrelative, .inl hnormal⟩
  have htop : SeesTop (parentName w) := .inr hnormal
  simp [NamesItself, haround, htop]

theorem namesItself_node (hname : Plain name) (hv : Plain v) :
    r.NamesItself t (Manifest.keyOf .node name) (parentName v) .node ↔
      normalize v = normalize name := by
  have hliteral : Manifest.patternSource? name = none := by
    unfold Manifest.patternSource?
    split
    · next hslash => exact absurd (by rw [hslash]; rfl) hname.unslashed
    · rfl
  rw [NamesItself, Manifest.keyOf, Manifest.nodeKey, hliteral, hv.parentName_eq,
    lookupKey_normalize]
  simp

variable {settings : Settings} {m : Manifest} {kind : Kind} {e : Declaration}

/-- Of the entries with a parent, validation reports those that name themselves in the same letters;
from the top those are their own parents whose parent's name means the type itself. For names in
plain letters the two differ exactly if a class has a parent with a relative name that stands for a
class around it: for the class itself, or for another one where the name is that of the class. -/
theorem selfInheritance_iff (h : ofManifests [m] settings = .ok r) (hkind : kind ≠ .define)
    (he : (name, e) ∈ m.entries kind) (hv : e.inherits = some v) (host : Host) :
    e.invalidities kind name <:+: m.invalidities ∧
    (Invalidity.selfInheritance kind name ∈ e.invalidities kind name ↔
      Name.isBlank name = false ∧ Name.sameIgnoringCase v name = true) ∧
    ∃ t d w, r.ofKey? kind (Manifest.keyOf kind name) = some t ∧ r.get? t = some d ∧
      d.parent = some (parentName w) ∧ normalize (parentName w) = normalize (parentName v) ∧
      (kind = .hostclass →
        (m.declarationsOf (normalize name)).findSome? (·.inherits) = some w) ∧
      (kind = .node → w = v) ∧
      (Compilation.FindsParent r host t t ↔
        r.NamesItself t (Manifest.keyOf kind name) (parentName w) kind) ∧
      (Name.isBlank name = false → Plain name → Plain v →
        ((Invalidity.selfInheritance kind name ∈ e.invalidities kind name ↔
            Compilation.FindsParent r host t t) ↔
          (kind = .hostclass → startsWithSeparator (parentName w).toList = false →
            r.around (normalize name) (normalize v) ≠ some t ∧
              (normalize v = normalize name →
                r.around (normalize name) (normalize v) = none)))) := by
  obtain ⟨t, d, w, ht, hd, hparent, hnormal, hfirst, hnode, hfinds⟩ :=
    exists_parent_ofManifests h hkind he hv host
  have hreports : Invalidity.selfInheritance kind name ∈ e.invalidities kind name ↔ _ :=
    Declaration.mem_selfInheritance_iff hkind hv
  refine ⟨Manifest.invalidities_isInfix he, hreports, t, d, w, ht, hd, hparent, hnormal, hfirst,
    hnode, hfinds, fun hblank hname hplain => ?_⟩
  rw [hreports, hfinds, hplain.sameIgnoringCase_iff hname, and_iff_right hblank]
  rw [hplain.parentName_eq, Name.normalize_normalize] at hnormal
  cases kind with
  | define => exact absurd rfl hkind
  | node =>
    rw [hnode rfl, namesItself_node hname hplain]
    simp
  | hostclass =>
    cases hseparator : startsWithSeparator (parentName w).toList with
    | true => simp [namesItself_absolute hseparator, Manifest.keyOf, hnormal]
    | false =>
      have hself : normalize v = normalize name →
          r.around (normalize name) (normalize v) ≠ some t := by
        intro hsame haround
        refine lookup_ne_of_around haround ?_
        rw [hsame, lookup, lookupKey_normalize]
        exact ht
      rw [Manifest.keyOf, namesItself_relative hplain hnormal hseparator, hnormal]
      · by_cases hsame : normalize v = normalize name
        · simp [hsame, hsame ▸ hself hsame]
        · simp [hsame]
      · simp

/-- A class that names itself for a parent, with a leading separator. -/
def rootedParent : Manifest :=
  { classes := [("foo", { inherits := some "::foo" })] }

/-- The class is its own parent, and validation reports nothing. -/
theorem selfInheritance_iff_rootedParent : ∃ r t, ofManifests [rootedParent] {} = .ok r ∧
    ("foo", { inherits := some "::foo" }) ∈ rootedParent.entries .hostclass ∧
    Invalidity.selfInheritance .hostclass "foo" ∉
      Declaration.invalidities .hostclass "foo" { inherits := some "::foo" } ∧
    Compilation.FindsParent r { given := "web01" } t t := by
  have hsite : (ofManifests [rootedParent] {}).toOption.isSome = true := by decide +kernel
  obtain ⟨r, hr⟩ := Option.isSome_iff_exists.mp hsite
  have hr := eq_ok_of_toOption hr
  have he : ("foo", { inherits := some "::foo" }) ∈ rootedParent.entries .hostclass :=
    List.mem_cons_self
  obtain ⟨-, hreports, t, d, w, -, -, -, -, hfirst, -, hfinds, -⟩ :=
    selfInheritance_iff hr (by decide) he rfl { given := "web01" }
  refine ⟨r, t, hr, he, fun hmem => ?_, hfinds.mpr ?_⟩
  · exact absurd (hreports.mp hmem).2 (by decide +kernel)
  · have hw := hfirst rfl
    cases hw
    exact (namesItself_absolute (by decide +kernel)).mpr (by decide +kernel)

/-- What validation reports is not what is found. -/
theorem not_selfInheritance_iff : ¬∀ (settings : Settings) (r : Registry) (m : Manifest)
    (kind : Kind) (name : String) (e : Declaration) (v : String) (host : Host) (t : TypeId),
    ofManifests [m] settings = .ok r → kind ≠ .define → (name, e) ∈ m.entries kind →
      e.inherits = some v → r.ofKey? kind (Manifest.keyOf kind name) = some t →
        (Invalidity.selfInheritance kind name ∈ m.invalidities ↔
          Compilation.FindsParent r host t t) := by
  intro hall
  have hsite : (ofManifests [rootedParent] {}).toOption.any (fun r =>
      r.ofKey? .hostclass (normalize "foo") = some 0 ∧
        ((Compilation.resolveParent 0 (some Scopes.top)).run
          (.initial r { given := "web01" })).1.toOption = some (some 0)) = true := by
    decide +kernel
  obtain ⟨r, hr, hsite⟩ := (Option.any_eq_true ..).mp hsite
  obtain ⟨ht, hfinds⟩ := of_decide_eq_true hsite
  have hvalid : rootedParent.invalidities = [] := by decide +kernel
  have hreported := (hall _ r rootedParent .hostclass "foo" _ "::foo" _ 0 (eq_ok_of_toOption hr)
    (by decide) List.mem_cons_self rfl ht).mpr (eq_ok_of_toOption hfinds)
  rw [hvalid] at hreported
  cases hreported

end Registry

end SiteCatalog
