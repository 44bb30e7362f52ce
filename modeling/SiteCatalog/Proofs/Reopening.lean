import SiteCatalog.Proofs.Declarations
import SiteCatalog.Proofs.Tables

/-!
# Classes that are declared again

A class that several manifests declare keeps the parameters of its first declaration, and the first
parent that a declaration names; a further parent has to agree with that one in small letters without
a leading `::`.

Results:
* `Registry.parameters_ofManifests`: the parameters of a class are those of its first declaration.
* `Registry.find_kept`: what the name of a parent means, by its normalized form.
* `Registry.parent_means_iff`: when the parent of a class is the class that a declaration names.
-/

namespace SiteCatalog

/-! ## Parameters -/

theorem Declaration.keys_parameters {params : Table Yaml} {parameters : Table (Option Expr)}
    (h : Declaration.parameters params = .ok parameters) : parameters.keys = params.keys := by
  fun_induction Declaration.parameters params generalizing parameters with
  | case1 =>
    cases h
    rfl
  | case2 name rest ih =>
    obtain ⟨ps, hps, h⟩ := exists_of_bind_eq_ok h
    cases h
    exact congrArg (name :: ·) (ih hps)
  | case3 name v rest _ ih =>
    obtain ⟨e, -, h⟩ := exists_of_bind_eq_ok h
    obtain ⟨ps, hps, h⟩ := exists_of_bind_eq_ok h
    cases h
    exact congrArg (name :: ·) (ih hps)

namespace Registry

variable {manifests : List Manifest} {settings : Settings} {r : Registry} {m : Manifest}
  {name : String} {e : Declaration}

/-- A class has the parameters of its first declaration, and a further declaration adds none. -/
theorem parameters_ofManifests (h : ofManifests manifests settings = .ok r) (hm : m ∈ manifests)
    (he : (name, e) ∈ m.classes) :
    ∃ t c first, r.lookup .hostclass (Name.normalize name) = some t ∧ r.get? t = some c ∧
      (manifests.flatMap (·.declarationsOf (Name.normalize name))).head? = some first ∧
      Declaration.parameters first.params = .ok c.parameters ∧
      ∀ p, c.parameters.has p ↔ p ∈ first.params.keys := by
  obtain ⟨t, c, ht, hget, hc, hkind, hname, -⟩ := exists_class_ofManifests h hm he
  obtain ⟨ds, hds, hjoined, -⟩ := class_ofManifests h hc hkind
  rw [hname] at hds
  obtain ⟨d, hd, hcd⟩ := hjoined.first
  generalize manifests.flatMap (·.declarationsOf (Name.normalize name)) = declarations at hds ⊢
  cases hds with
  | nil => cases hd
  | @cons first _ _ _ hfirst _ =>
    cases hd
    have hparameters : Declaration.parameters first.params = .ok c.parameters := by
      rw [hfirst.parameters, hcd]
    refine ⟨t, c, first, ht, hget, rfl, hparameters, fun p => ?_⟩
    rw [Table.has_iff_mem_keys, Declaration.keys_parameters hparameters]

/-- A class that has to be passed a port is declared again with a server. -/
def reopenedClass : List Manifest :=
  [{ classes := [("ntp", { params := [("port", .null)] })] },
   { classes := [("::NTP", { params := [("server", .string "pool")] })] }]

theorem parameters_ofManifests_reopenedClass : ∃ r t c, ofManifests reopenedClass {} = .ok r ∧
    r.lookup .hostclass "ntp" = some t ∧ r.get? t = some c ∧ c.parameters.has "port" = true ∧
      c.parameters.has "server" = false := by
  have hsite : (ofManifests reopenedClass {}).toOption.isSome = true := by decide +kernel
  obtain ⟨r, hr⟩ := Option.isSome_iff_exists.mp hsite
  have hr := eq_ok_of_toOption hr
  obtain ⟨t, c, first, ht, hc, hfirst, -, hhas⟩ := parameters_ofManifests hr
    (List.mem_cons_of_mem _ List.mem_cons_self) List.mem_cons_self
  cases hfirst
  exact ⟨r, t, c, hr, ht, hc, (hhas "port").mpr (by decide),
    Bool.eq_false_iff.mpr fun h => absurd ((hhas "server").mp h) (by decide)⟩

/-- The server is not a parameter of the class. -/
theorem not_has_parameters : ¬∀ (manifests : List Manifest) (settings : Settings) (r : Registry)
    (m : Manifest) (name : String) (e : Declaration), ofManifests manifests settings = .ok r →
      m ∈ manifests → (name, e) ∈ m.classes → ∀ p ∈ e.params.keys, ∃ t c,
        r.lookup .hostclass (Name.normalize name) = some t ∧ r.get? t = some c ∧
          c.parameters.has p := by
  intro hall
  have hsite : (ofManifests reopenedClass {}).toOption.any (fun r =>
      ((r.lookup .hostclass (Name.normalize "::NTP")).bind r.get?).any
        (!·.parameters.has "server")) = true := by decide +kernel
  obtain ⟨r, hr, hsite⟩ := (Option.any_eq_true ..).mp hsite
  obtain ⟨t, c, ht, hc, hhas⟩ := hall _ _ r _ _ _ (eq_ok_of_toOption hr)
    (List.mem_cons_of_mem _ List.mem_cons_self) List.mem_cons_self "server" List.mem_cons_self
  rw [ht, Option.bind_some, hc, Option.any_some, hhas] at hsite
  cases hsite

end Registry

/-! ## Names of parents and namespaces -/

namespace Name

/-- A name as it is kept for a parent is in small letters unless it starts with a slash. -/
theorem lowercase_parentName (v : String) (h : (Descriptor.parentName v).toList.head? ≠ some '/') :
    lowercase (Descriptor.parentName v) = Descriptor.parentName v :=
  (if_neg h).symm.trans (Descriptor.parentName_parentName v)

/-- What stands before the last separator is the beginning of a text. -/
theorem prefix_of_splitLast? {cs before after : List Char}
    (h : splitLast? cs = some (before, after)) : before <+: cs := by
  induction cs generalizing before with
  | nil => cases h
  | cons c cs ih =>
    unfold splitLast? at h
    split at h
    · next before' after' hsplit =>
      cases h
      exact (List.prefix_cons_inj c).mpr (ih hsplit)
    · split at h <;> cases h
      exact List.nil_prefix

theorem qualifier_prefix (s : String) : (qualifier s).toList <+: s.toList := by
  unfold qualifier
  split
  · next before after hsplit =>
    rw [String.toList_ofList]
    exact prefix_of_splitLast? hsplit
  · exact List.nil_prefix

end Name

/-! ## What the name of a parent means -/

namespace Registry

open Name (normalize startsWithSeparator)
open Descriptor (parentName)

variable {r : Registry} {space outer name v w key : String} {t u : TypeId}

/-- Namespaces around a namespace are beginnings of it, and they are not empty. -/
theorem prefix_of_mem_enclosing {fuel : ℕ} (h : outer ∈ enclosing fuel space) :
    outer ≠ "" ∧ outer.toList <+: space.toList := by
  induction fuel generalizing space with
  | zero => cases h
  | succ fuel ih =>
    unfold enclosing at h
    split at h
    · cases h
    · next hspace =>
      rcases List.mem_cons.mp h with rfl | h
      · exact ⟨hspace, List.prefix_refl _⟩
      · obtain ⟨hne, hbegin⟩ := ih h
        exact ⟨hne, hbegin.trans (Name.qualifier_prefix space)⟩

/-- The namespaces around a class, from the inside out. -/
def spacesOf (space : String) : List String :=
  enclosing ((normalize space).toList.length + 1) (normalize space)

/-- The class that a name means in the innermost namespace that has one of that name. -/
def around (r : Registry) (space name : String) : Option TypeId :=
  (spacesOf space).findSome? fun outer => r.lookup .hostclass (outer ++ "::" ++ name)

theorem find_eq (r : Registry) (space name : String) : r.find .hostclass space name =
    (if startsWithSeparator name.toList then none else r.around space name).or
      (r.lookup .hostclass name) := by
  unfold find
  split
  · rfl
  · dsimp only
    split
    · next hfound =>
      rw [show r.around space name = _ from hfound]
      rfl
    · next hnone =>
      rw [show r.around space name = none from hnone]
      rfl

/-- Classes are found under normalized names only. -/
theorem Built.normalize_eq (hr : r.Built) (h : r.ofKey? .hostclass key = some t) :
    normalize key = key := by
  obtain ⟨d, hd, hkind, rfl⟩ := get?_of_ofKey? h
  have hauthored := hr.authored d (List.mem_of_getElem? hd)
  have hnode : d.kind ≠ .node := fun hnode => nomatch hkind.symm.trans hnode
  obtain ⟨name, hname⟩ := hauthored.exists_name hnode
  rw [hauthored.key_eq_name hnode, hname, Name.normalize_normalize]

/-- The name of a parent is looked for around the class, and by its normalized form. It has no
leading separator; and where class names start with a slash, it is in small letters. -/
def SeesAround (space name : String) : Prop :=
  startsWithSeparator name.toList = false ∧
    (normalize name = name ∨ (normalize space).toList.head? ≠ some '/')

/-- The name of a parent is looked for at the top by its normalized form. It has a leading separator
or is in small letters. -/
def SeesTop (name : String) : Prop :=
  startsWithSeparator name.toList = true ∨ normalize name = name

instance (space name : String) : Decidable (SeesAround space name) :=
  inferInstanceAs (Decidable (_ ∧ _))

instance (name : String) : Decidable (SeesTop name) :=
  inferInstanceAs (Decidable (_ ∨ _))

/-- Only the name of a parent that starts with a slash may be looked for in another form than the
normalized one. -/
theorem exists_slash (h : ¬SeesTop (parentName v)) :
    ∃ rest, (parentName v).toList = '/' :: rest := by
  obtain ⟨hrelative, hnormal⟩ := not_or.mp h
  rw [Bool.not_eq_true] at hrelative
  by_cases hslash : (parentName v).toList.head? = some '/'
  · exact List.head?_eq_some_iff.mp hslash
  · rw [Name.normalize_eq_lowercase hrelative, Name.lowercase_parentName v hslash] at hnormal
    exact absurd rfl hnormal

theorem lookup_kept (hr : r.Built) (v : String) : r.lookup .hostclass (parentName v) =
    if SeesTop (parentName v) then r.lookup .hostclass (normalize (parentName v)) else none := by
  split
  · next hsees =>
    rcases hsees with habsolute | hnormal
    · obtain ⟨rest, hrest⟩ := Name.startsWithSeparator_iff.mp habsolute
      have hcolon : (parentName v).toList.head? ≠ some '/' := by simp [hrest]
      rw [lookup, lookup, lookupKey_normalize, lookupKey, if_neg hcolon]
    · rw [hnormal]
  · next hsees =>
    obtain ⟨rest, hrest⟩ := exists_slash hsees
    cases hlookup : r.lookup .hostclass (parentName v) with
    | none => rfl
    | some t =>
      rw [lookup, lookupKey, if_pos (by rw [hrest]; rfl)] at hlookup
      exact absurd (hr.normalize_eq hlookup) (not_or.mp hsees).2

/-- In a namespace that does not start with a slash, all names are looked up by their normalized
form. -/
theorem lookup_nested (r : Registry) (hne : outer ≠ "") (houter : outer.toList.head? ≠ some '/')
    {rest : List Char} (hname : name.toList = '/' :: rest) :
    r.lookup .hostclass (outer ++ "::" ++ name) =
      r.lookup .hostclass (outer ++ "::" ++ normalize name) := by
  have hhead : ∀ s : String, (outer ++ "::" ++ s).toList.head? ≠ some '/' := by
    intro s
    obtain ⟨c, cs, hcs⟩ := List.exists_cons_of_ne_nil (String.toList_eq_nil_iff.not.mpr hne)
    simpa [hcs] using houter
  have htext : ∀ cs : List Char, outer ++ "::" ++ String.ofList cs =
      String.ofList (outer.toList ++ Name.separator ++ cs) := by
    intro cs
    simp [← String.toList_inj, Name.separator]
  have hname' : name = String.ofList ('/' :: rest) := by rw [← hname, String.ofList_toList]
  rw [lookup, lookup, lookupKey, lookupKey, if_neg (hhead _), if_neg (hhead _), hname',
    Name.normalize_slash, htext, htext, Name.normalize_append_slash]

/-- In a namespace that starts with a slash, a name that starts with one is found in small letters
only. -/
theorem lookup_nested_eq_none (hr : r.Built) (houter : outer.toList.head? = some '/')
    {rest : List Char} (hname : name.toList = '/' :: rest) (hnormal : normalize name ≠ name) :
    r.lookup .hostclass (outer ++ "::" ++ name) = none := by
  by_contra hfound
  obtain ⟨t, ht⟩ := Option.ne_none_iff_exists'.mp hfound
  obtain ⟨front, hfront⟩ := List.head?_eq_some_iff.mp houter
  have hkey : outer ++ "::" ++ name =
      String.ofList ('/' :: (front ++ Name.separator ++ '/' :: rest)) := by
    simp [← String.toList_inj, hfront, hname, Name.separator]
  rw [lookup, lookupKey, if_pos (by simp [hfront]), hkey] at ht
  have hsmall := hr.normalize_eq ht
  rw [Name.normalize_slash] at hsmall
  have hlower := (List.cons.inj (String.ofList_inj.mp hsmall)).2
  have hrest : Text.lower rest = rest := by
    refine Text.lowerAfter_of_isSmall (fun c hc => ?_) false
    have hmem : c ∈ front ++ Name.separator ++ '/' :: rest :=
      List.mem_append_right _ (List.mem_cons_of_mem _ hc)
    rw [← hlower] at hmem
    exact Text.isSmall_of_mem_lowerAfter hmem
  refine hnormal ?_
  rw [show name = String.ofList ('/' :: rest) by rw [← hname, String.ofList_toList],
    Name.normalize_slash, hrest]

theorem around_kept (hr : r.Built) (space v : String)
    (hrelative : startsWithSeparator (parentName v).toList = false) :
    r.around space (parentName v) =
      if SeesAround space (parentName v) then r.around space (normalize (parentName v))
      else none := by
  by_cases hnormal : normalize (parentName v) = parentName v
  · rw [if_pos ⟨hrelative, .inl hnormal⟩, hnormal]
  obtain ⟨rest, hrest⟩ := exists_slash (v := v) (not_or.mpr ⟨by simp [hrelative], hnormal⟩)
  have hhead : ∀ outer ∈ spacesOf space, outer ≠ "" ∧
      outer.toList.head? = (normalize space).toList.head? := by
    intro outer houter
    obtain ⟨hne, tail, htail⟩ := prefix_of_mem_enclosing houter
    obtain ⟨c, cs, hcs⟩ := List.exists_cons_of_ne_nil (String.toList_eq_nil_iff.not.mpr hne)
    exact ⟨hne, by rw [← htail, hcs]; rfl⟩
  unfold around
  by_cases hspace : (normalize space).toList.head? = some '/'
  · rw [if_neg fun hsees => hsees.2.elim hnormal (absurd hspace), List.findSome?_eq_none_iff]
    intro outer houter
    exact lookup_nested_eq_none hr ((hhead outer houter).2.trans hspace) hrest hnormal
  · rw [if_pos ⟨hrelative, .inr hspace⟩]
    rw [← List.head?_filterMap, ← List.head?_filterMap]
    refine congrArg List.head? (List.filterMap_congr fun outer houter => ?_)
    obtain ⟨hne, houter⟩ := hhead outer houter
    exact lookup_nested r hne (houter ▸ hspace) hrest

/-- What the name of a parent means is what its normalized form means around the class and at the
top, as far as the name is looked for there. -/
theorem find_kept (hr : r.Built) (space v : String) : r.find .hostclass space (parentName v) =
    (if SeesAround space (parentName v) then r.around space (normalize (parentName v)) else none).or
      (if SeesTop (parentName v) then r.lookup .hostclass (normalize (parentName v))
        else none) := by
  rw [find_eq, lookup_kept hr]
  congr 1
  split
  · next habsolute => rw [if_neg fun hsees => Bool.false_ne_true (hsees.1.symm.trans habsolute)]
  · next hrelative => exact around_kept hr space v (by simpa using hrelative)

/-- Neither a namespace that is normalized nor what separates it from a normalized name has a capital
letter. -/
theorem isSmall_of_mem_nested (hbegin : outer.toList <+: (normalize space).toList) {c : Char}
    (hc : c ∈ outer.toList ++ Name.separator ++ (normalize name).toList) : Text.IsSmall c := by
  rcases List.mem_append.mp hc with hc | hc
  · rcases List.mem_append.mp hc with hc | hc
    · exact Name.isSmall_of_mem_normalize (hbegin.subset hc)
    · have hcolon : c = ':' := by simpa [Name.separator] using hc
      exact hcolon ▸ ⟨by decide, Text.lowerChar_colon⟩
  · exact Name.isSmall_of_mem_normalize hc

/-- A name is looked for by one key around a class and by another one at the top. -/
theorem lookupKey_nested_ne (houter : outer ∈ spacesOf space) :
    lookupKey (outer ++ "::" ++ normalize name) ≠ normalize name := by
  obtain ⟨hne, hbegin⟩ := prefix_of_mem_enclosing houter
  have htext : (outer ++ "::" ++ normalize name).toList =
      outer.toList ++ Name.separator ++ (normalize name).toList := by
    simp [Name.separator]
  intro hsame
  unfold lookupKey at hsame
  split at hsame
  · -- A key that starts with a slash is the text itself, which is longer than the name.
    have hlength := congrArg (fun s => s.toList.length) hsame
    simp only [htext, Name.separator, List.length_append, List.length_cons] at hlength
    omega
  · have hdropped := congrArg String.toList hsame
    rw [Name.toList_normalize_of_isSmall fun c hc => isSmall_of_mem_nested hbegin (htext ▸ hc),
      htext] at hdropped
    exact Name.dropSeparators_nested_ne (String.toList_eq_nil_iff.not.mpr hne)
      (Name.not_starts_of_prefix hbegin (Name.not_starts_normalize space)) hdropped

/-- No class is found both around a class and at the top by one name. -/
theorem lookup_ne_of_around (h : r.around space (normalize name) = some u) :
    r.lookup .hostclass (normalize name) ≠ some u := by
  intro htop
  obtain ⟨outer, houter, hfound⟩ := List.exists_of_findSome?_eq_some h
  obtain ⟨d, hd, -, hkey⟩ := get?_of_ofKey? hfound
  obtain ⟨d', hd', -, hkey'⟩ := get?_of_ofKey? htop
  cases hd.symm.trans hd'
  rw [lookupKey_normalize] at hkey'
  exact lookupKey_nested_ne houter (hkey.symm.trans hkey')

/-- What is found in the first of two places, or else in the second one, by those who look there. -/
theorem or_eq_some_iff {α : Type} [DecidableEq α] {a b : Option α} {x : α} {p q p' q' : Prop}
    [Decidable p] [Decidable q] [Decidable p'] [Decidable q'] (hdistinct : a = some x → b ≠ some x)
    (h : (if p then a else none).or (if q then b else none) = some x) :
    (if p' then a else none).or (if q' then b else none) = some x ↔
      if a = some x then p' else q' ∧ (p' → a = none) := by
  by_cases ha : a = some x
  · have hb := hdistinct ha
    rw [if_pos ha, ha]
    by_cases hp' : p' <;> by_cases hq' : q' <;> simp [hp', hq', hb]
  · have hb : b = some x := by
      rw [Option.or_eq_some_iff] at h
      rcases h with h | ⟨-, h⟩
      · split at h
        · exact absurd h ha
        · cases h
      · split at h
        · exact h
        · cases h
    rw [if_neg ha, hb]
    cases a <;> by_cases hp' : p' <;> by_cases hq' : q' <;> simp_all

/-- Two names of a parent with one normalized form: where the first one means a class, the second one
means the same if it is looked for where this class is found, and nothing else is found before. -/
theorem find_kept_iff (hr : r.Built) (h : normalize (parentName w) = normalize (parentName v))
    (hu : r.find .hostclass space (parentName v) = some u) :
    r.find .hostclass space (parentName w) = some u ↔
      if r.around space (normalize (parentName v)) = some u then SeesAround space (parentName w)
      else SeesTop (parentName w) ∧ (SeesAround space (parentName w) →
        r.around space (normalize (parentName v)) = none) := by
  rw [find_kept hr] at hu ⊢
  rw [h]
  exact or_eq_some_iff lookup_ne_of_around hu

variable {manifests : List Manifest} {settings : Settings} {m : Manifest} {e : Declaration}

/-- A class has the first parent that one of its declarations names, and every other one that they
name has the same normalized form. Where such a name means a class, the parent means the same class
exactly if it is looked for where this class is found, and nothing else is found before. -/
theorem parent_means_iff (h : ofManifests manifests settings = .ok r) (hm : m ∈ manifests)
    (he : (name, e) ∈ m.classes) (hv : e.inherits = some v) :
    ∃ t c w, r.lookup .hostclass (normalize name) = some t ∧ r.get? t = some c ∧
      (manifests.flatMap (·.declarationsOf (normalize name))).findSome? (·.inherits) = some w ∧
      c.parent = some (parentName w) ∧ normalize (parentName w) = normalize (parentName v) ∧
      ∀ u, r.find .hostclass c.space (parentName v) = some u →
        (r.find .hostclass c.space (parentName w) = some u ↔
          if r.around c.space (normalize (parentName v)) = some u
          then SeesAround c.space (parentName w)
          else SeesTop (parentName w) ∧ (SeesAround c.space (parentName w) →
            r.around c.space (normalize (parentName v)) = none)) := by
  obtain ⟨t, c, ht, hget, hc, hkind, hname, hmem⟩ := exists_class_ofManifests h hm he
  obtain ⟨ds, hds, hjoined, hparents⟩ := class_ofManifests h hc hkind
  rw [hname] at hds
  obtain ⟨d, hd, hed⟩ := exists_of_forall₂_left hds hmem
  obtain ⟨q, hq, hnormal⟩ := hparents d hd (parentName v) (by rw [hed.parent, hv]; rfl)
  have hfirst := hjoined.parent
  rw [hq, Declaration.parent_of_describes hds] at hfirst
  obtain ⟨w, hw, rfl⟩ := Option.map_eq_some_iff.mp hfirst.symm
  exact ⟨t, c, w, ht, hget, hw, hq, hnormal, fun u hu =>
    find_kept_iff (built_ofManifests h) hnormal hu⟩

/-- A class with two parents that have one normalized form, one of them inside the namespace that the
class is in. -/
def shadowedParent : List Manifest :=
  [{ classes := [("a::b", { inherits := some "base" }), ("a::base", {}), ("base", {})] },
   { classes := [("a::b", { inherits := some "::base" })] }]

/-- The parent means the class inside the namespace, the further declaration the one at the top. -/
theorem parent_means_iff_shadowedParent : ∃ r t c u, ofManifests shadowedParent {} = .ok r ∧
    r.lookup .hostclass "a::b" = some t ∧ r.get? t = some c ∧ c.parent = some "base" ∧
      r.find .hostclass c.space "::base" = some u ∧ r.find .hostclass c.space "base" ≠ some u := by
  have hsite : (ofManifests shadowedParent {}).toOption.any (fun r =>
      ((r.lookup .hostclass "a::b").bind r.get?).any fun c =>
        r.find .hostclass c.space (parentName "::base") = some 2 ∧
          r.around c.space (normalize (parentName "::base")) = some 1) = true := by
    decide +kernel
  obtain ⟨r, hr, hsite⟩ := (Option.any_eq_true ..).mp hsite
  have hr := eq_ok_of_toOption hr
  obtain ⟨t, c, w, ht, hc, hw, hparent, -, hmeans⟩ := parent_means_iff hr (v := "::base")
    (List.mem_cons_of_mem _ List.mem_cons_self) List.mem_cons_self rfl
  have hname : normalize "a::b" = "a::b" := by decide +kernel
  have hkept : parentName "::base" = "::base" ∧ parentName "base" = "base" := by decide +kernel
  cases hw
  rw [hname] at ht
  rw [hkept.2] at hparent
  rw [ht, Option.bind_some, hc, Option.any_some, decide_eq_true_eq, hkept.1] at hsite
  refine ⟨r, t, c, 2, hr, ht, hc, hparent, hsite.1, fun hsame => ?_⟩
  rw [hkept.1, hkept.2] at hmeans
  have hmeans := (hmeans 2 hsite.1).mp hsame
  rw [hsite.2, if_neg (by decide)] at hmeans
  cases hmeans.2 ⟨by decide +kernel, .inl (by decide +kernel)⟩

/-- A name that a declaration of a class gives for its parent may mean another class than the parent
means. -/
theorem not_parent_means : ¬∀ (manifests : List Manifest) (settings : Settings) (r : Registry)
    (m : Manifest) (name : String) (e : Declaration) (v : String) (t : TypeId) (c : Descriptor)
    (u : TypeId), ofManifests manifests settings = .ok r → m ∈ manifests → (name, e) ∈ m.classes →
      e.inherits = some v → r.lookup .hostclass (normalize name) = some t → r.get? t = some c →
        r.find .hostclass c.space (parentName v) = some u →
          c.parent.bind (r.find .hostclass c.space) = some u := by
  intro hall
  have hsite : (ofManifests shadowedParent {}).toOption.any (fun r =>
      ((r.lookup .hostclass "a::b").bind r.get?).any fun c =>
        r.find .hostclass c.space (parentName "::base") = some 2 ∧
          c.parent.bind (r.find .hostclass c.space) = some 1) = true := by
    decide +kernel
  obtain ⟨r, hr, hsite⟩ := (Option.any_eq_true ..).mp hsite
  obtain ⟨c, hc, hsite⟩ := (Option.any_eq_true ..).mp hsite
  obtain ⟨t, ht, hc⟩ := Option.bind_eq_some_iff.mp hc
  rw [decide_eq_true_eq] at hsite
  have hname : normalize "a::b" = "a::b" := by decide +kernel
  have hsame := hall _ _ r _ _ _ "::base" t c 2 (eq_ok_of_toOption hr)
    (List.mem_cons_of_mem _ List.mem_cons_self) List.mem_cons_self rfl (hname ▸ ht) hc hsite.1
  cases hsite.2.symm.trans hsame

end Registry

end SiteCatalog
