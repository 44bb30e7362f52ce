import SiteCatalog.Manifest.Validation
import SiteCatalog.Proofs.Designations
import SiteCatalog.Proofs.Reopening

/-!
# Entries of manifests

Every entry of a manifest yields a type of its section's kind: a class that all entries of its name
are joined to, or a defined type or node of its own. Validation looks at the key as it is written,
the registry at its normalized form, and the two differ about what an empty name is: a key that
consists of separators is not blank, but nothing of it is left. Such an entry of a class is joined
to the unnamed class.

Results:
* `Name.normalize_eq_empty_iff`: the normalized form of which names is empty.
* `Registry.exists_type_ofManifests`: the type that an entry yields.
* `Registry.nameless_iff`: which entries of valid manifests yield a type without a name, and what
  the unnamed class has from them.
-/

namespace SiteCatalog

/-! ## Names without a segment -/

namespace Text

@[simp] theorem lower_eq_nil_iff {cs : List Char} : lower cs = [] ↔ cs = [] := by
  refine ⟨fun h => ?_, fun h => by rw [h]; rfl⟩
  cases cs with
  | nil => rfl
  | cons c cs =>
    obtain ⟨hletter, -⟩ := List.append_eq_nil_iff.mp h
    split at hletter
    · cases hletter
    · exact absurd hletter (lowerChar_ne_nil c)

end Text

namespace Name

/-- A name that consists of separators, one at least. -/
def OnlySeparators (s : String) : Prop :=
  ∃ k, s.toList = List.replicate (2 * (k + 1)) ':'

/-- Nothing is left of a name that is empty or consists of separators. -/
theorem normalize_eq_empty_iff {s : String} : normalize s = "" ↔ s = "" ∨ OnlySeparators s := by
  rw [normalize, ← String.toList_eq_nil_iff, String.toList_ofList, Text.lower_eq_nil_iff]
  constructor
  · intro hnone
    obtain ⟨k, hk⟩ := exists_replicate_append_dropSeparators s.toList
    rw [hnone, List.append_nil] at hk
    cases k with
    | zero => exact .inl (String.toList_eq_nil_iff.mp hk.symm)
    | succ k => exact .inr ⟨k, hk.symm⟩
  · rintro (rfl | ⟨k, hk⟩)
    · rfl
    · rw [hk, ← List.append_nil (List.replicate _ _), dropSeparators_replicate]
      rfl

/-- Of the names that are not blank, those are lost that consist of separators. -/
theorem normalize_eq_empty_iff_of_not_isBlank {s : String} (h : isBlank s = false) :
    normalize s = "" ↔ OnlySeparators s := by
  refine normalize_eq_empty_iff.trans (or_iff_right ?_)
  rintro rfl
  cases h

end Name

/-! ## Sections -/

namespace Manifest

/-- The section of a manifest that declares types of a kind. -/
def entries (m : Manifest) : Kind → Table Declaration
  | .hostclass => m.classes
  | .define => m.defines
  | .node => m.nodes

/-- The key of the type that an entry yields. -/
def keyOf : Kind → String → String
  | .node => nodeKey
  | _ => Name.normalize

variable {m : Manifest} {kind : Kind} {name : String} {e : Declaration}

/-- The faults of an entry are reported one after the other. -/
theorem invalidities_isInfix (he : (name, e) ∈ m.entries kind) :
    e.invalidities kind name <:+: m.invalidities := by
  have hsection : ∀ {k : Kind} {table : Table Declaration}, (name, e) ∈ table →
      e.invalidities k name <:+: table.flatMap fun entry => entry.2.invalidities k entry.1 := by
    intro k table he
    obtain ⟨front, back, rfl⟩ := List.append_of_mem he
    rw [List.flatMap_append, List.flatMap_cons]
    exact ⟨_, _, List.append_assoc ..⟩
  have hbefore : ∀ {l l₁ l₂ : List Invalidity}, l <:+: l₁ → l <:+: l₁ ++ l₂ :=
    fun h => h.trans (List.prefix_append ..).isInfix
  have hafter : ∀ {l l₁ l₂ : List Invalidity}, l <:+: l₂ → l <:+: l₁ ++ l₂ :=
    fun h => h.trans (List.suffix_append ..).isInfix
  cases kind with
  | hostclass => exact hbefore (hbefore (hbefore (hsection he)))
  | define => exact hbefore (hbefore (hafter (hsection he)))
  | node => exact hbefore (hafter (hsection he))

/-- The entries of a manifest without faults have keys that are not blank. -/
theorem not_isBlank_of_valid (hvalid : m.invalidities = []) (he : (name, e) ∈ m.entries kind) :
    Name.isBlank name = false := by
  refine Bool.eq_false_iff.mpr fun hblank => ?_
  have hfault : Invalidity.emptyName kind ∈ m.invalidities := by
    refine (invalidities_isInfix he).subset ?_
    rw [Declaration.invalidities, if_pos hblank]
    exact List.mem_singleton_self _
  rw [hvalid] at hfault
  cases hfault

end Manifest

/-! ## The types that entries yield -/

namespace Registry

open Name (normalize OnlySeparators)

variable {manifests : List Manifest} {settings : Settings} {r : Registry} {m : Manifest}
  {kind : Kind} {name : String} {e : Declaration}

/-- Every entry yields a type under its key. The entries of a class are among the declarations that
the class is joined from; other types are what their one entry declares. -/
theorem exists_type_ofManifests (h : ofManifests manifests settings = .ok r) (hm : m ∈ manifests)
    (he : (name, e) ∈ m.entries kind) : ∃ t d,
      r.ofKey? kind (Manifest.keyOf kind name) = some t ∧ r.get? t = some d ∧
      match kind with
      | .hostclass => d.name = normalize name ∧
          e ∈ manifests.flatMap (·.declarationsOf (normalize name))
      | .define => m.defineOf name e = .ok d
      | .node => m.nodeOf name e = .ok d := by
  have hfound : ∀ {d : Descriptor} {k : Kind} {key : String}, d ∈ r.types →
      d.kindAndKey = (k, key) → ∃ t, r.ofKey? k key = some t ∧ r.get? t = some d := by
    intro d k key hd hkey
    obtain ⟨t, ht⟩ := List.mem_iff_getElem?.mp hd
    exact ⟨t, (built_ofManifests h).fresh.ofKey?_eq_some.mpr
      ⟨d, ht, congrArg Prod.fst hkey, congrArg Prod.snd hkey⟩, ht⟩
  obtain ⟨-, hdefines, hnodes, -⟩ := types_ofManifests h
  have hentry : ∀ table : Manifest → Table Declaration, (name, e) ∈ table m →
      (m, name, e) ∈ manifests.flatMap fun m => (table m).map (m, ·) :=
    fun _ he => List.mem_flatMap.mpr ⟨m, hm, List.mem_map_of_mem he⟩
  cases kind with
  | hostclass =>
    obtain ⟨t, c, ht, hc, -, -, hname, hmem⟩ := exists_class_ofManifests h hm he
    rw [lookup, lookupKey_normalize] at ht
    exact ⟨t, c, ht, hc, hname, hmem⟩
  | define =>
    obtain ⟨d, hd, hdefine⟩ := exists_of_forall₂_left hdefines (hentry (·.defines) he)
    obtain ⟨t, ht, hget⟩ :=
      hfound (List.mem_filter.mp hd).1 (Manifest.kindAndKey_of_defineOf hdefine)
    exact ⟨t, d, ht, hget, hdefine⟩
  | node =>
    obtain ⟨d, hd, hnode⟩ := exists_of_forall₂_left hnodes (hentry (·.nodes) he)
    obtain ⟨t, ht, hget⟩ :=
      hfound (List.mem_filter.mp hd).1 (Manifest.kindAndKey_of_nodeOf hnode)
    exact ⟨t, d, ht, hget, hnode⟩

/-- An entry with a literal key yields a type whose name is the normalized form of the key. -/
theorem exists_type_of_literal (h : ofManifests manifests settings = .ok r) (hm : m ∈ manifests)
    (he : (name, e) ∈ m.entries kind)
    (hliteral : kind = .node → Manifest.patternSource? name = none) :
    ∃ t d, r.lookup kind (normalize name) = some t ∧ r.get? t = some d ∧
      d.name = normalize name := by
  obtain ⟨t, d, ht, hd, hyield⟩ := exists_type_ofManifests h hm he
  have hkey : Manifest.keyOf kind name = normalize name := by
    cases kind with
    | hostclass | define => rfl
    | node => rw [Manifest.keyOf, Manifest.nodeKey, hliteral rfl]
  refine ⟨t, d, by rwa [lookup, lookupKey_normalize, ← hkey], hd, ?_⟩
  cases kind with
  | hostclass => exact hyield.1
  | define => exact (Declaration.foundLike_of_describe hyield).name
  | node =>
    rw [Manifest.nodeOf, hliteral rfl] at hyield
    exact (Declaration.foundLike_of_describe hyield).name

/-! ## The unnamed class -/

/-- The parameters of a class are those of its first declaration. -/
theorem parameters_eq_nil_iff (h : ofManifests manifests settings = .ok r) {c : Descriptor}
    (hc : c ∈ r.types) (hkind : c.kind = .hostclass) : c.parameters = [] ↔
      ∀ d, (manifests.flatMap (·.declarationsOf c.name)).head? = some d → d.params = [] := by
  obtain ⟨ds, hds, hjoined, -⟩ := class_ofManifests h hc hkind
  obtain ⟨first, hfirst, hsame⟩ := hjoined.first
  generalize manifests.flatMap (·.declarationsOf c.name) = declarations at hds ⊢
  cases hds with
  | nil => cases hfirst
  | @cons d _ _ _ hd _ =>
    cases hfirst
    have hparameters : Declaration.parameters d.params = .ok c.parameters := by
      rw [hd.parameters, hsame]
    have hkeys := Declaration.keys_parameters hparameters
    rw [List.head?_cons]
    constructor
    · intro hnone _ hfirst
      cases hfirst
      rw [hnone] at hkeys
      exact List.map_eq_nil_iff.mp hkeys.symm
    · intro hnone
      rw [hnone d rfl] at hkeys
      exact List.map_eq_nil_iff.mp hkeys

/-- A declaration of the unnamed class is an entry or the statements of the top level, which have
neither a parent nor parameters. -/
theorem mem_declarationsOf_empty (hvalid : m.invalidities = []) :
    e ∈ m.declarationsOf "" ↔ (∃ key, (key, e) ∈ m.classes ∧ OnlySeparators key) ∨
      m.main ≠ [] ∧ e = { body := m.main } := by
  rw [Manifest.declarationsOf, List.mem_append]
  refine or_congr ?_ ?_
  · constructor
    · intro he
      obtain ⟨⟨key, _⟩, hentry, rfl⟩ := List.mem_map.mp he
      obtain ⟨hentry, hkey⟩ := List.mem_filter.mp hentry
      have hblank := Manifest.not_isBlank_of_valid hvalid
        (show (key, _) ∈ m.entries .hostclass from hentry)
      exact ⟨key, hentry,
        (Name.normalize_eq_empty_iff_of_not_isBlank hblank).mp (of_decide_eq_true hkey)⟩
    · rintro ⟨key, hentry, hkey⟩
      exact List.mem_map.mpr ⟨_, List.mem_filter.mpr
        ⟨hentry, decide_eq_true (Name.normalize_eq_empty_iff.mpr (.inr hkey))⟩, rfl⟩
  · by_cases hmain : m.main = [] <;> simp [hmain]

/-- The unnamed class has a parent exactly if an entry names one whose key consists of
separators. -/
theorem parent_eq_none_iff_of_isMain (h : ofManifests manifests settings = .ok r)
    (hvalid : ∀ m ∈ manifests, m.invalidities = []) {c : Descriptor} (hc : c ∈ r.types)
    (hmain : c.IsMain) : c.parent = none ↔
      ∀ m ∈ manifests, ∀ entry ∈ m.classes, OnlySeparators entry.1 → entry.2.inherits = none := by
  obtain ⟨-, -, -, hclasses⟩ := types_ofManifests h
  obtain ⟨-, -, hparent, -⟩ := hclasses c hc hmain.1
  rw [hmain.2] at hparent
  rw [hparent, Option.map_eq_none_iff, List.findSome?_eq_none_iff]
  constructor
  · intro hall m hm entry he hkey
    exact hall _ (List.mem_flatMap.mpr
      ⟨m, hm, (mem_declarationsOf_empty (hvalid m hm)).mpr (.inl ⟨_, he, hkey⟩)⟩)
  · intro hall e he
    obtain ⟨m, hm, he⟩ := List.mem_flatMap.mp he
    rcases (mem_declarationsOf_empty (hvalid m hm)).mp he with ⟨key, he, hkey⟩ | ⟨-, rfl⟩
    · exact hall m hm _ he hkey
    · rfl

/-- Of the entries of valid manifests with literal keys, those yield a type without a name whose key
consists of separators. The unnamed class has a parent if such an entry names one, and parameters if
such an entry is its first declaration and has some. Without such entries it has neither. -/
theorem nameless_iff (h : ofManifests manifests settings = .ok r)
    (hvalid : ∀ m ∈ manifests, m.invalidities = []) :
    (∀ m ∈ manifests, ∀ kind, ∀ entry ∈ m.entries kind,
      (kind = .node → Manifest.patternSource? entry.1 = none) →
      ∃ t d, r.lookup kind (normalize entry.1) = some t ∧ r.get? t = some d ∧
        d.name = normalize entry.1 ∧ (d.name = "" ↔ OnlySeparators entry.1)) ∧
    ∀ t c, r.lookup .hostclass "" = some t → r.get? t = some c →
      (c.parent = none ↔
        ∀ m ∈ manifests, ∀ entry ∈ m.classes, OnlySeparators entry.1 → entry.2.inherits = none) ∧
      (c.parameters = [] ↔ ∀ d, (manifests.flatMap (·.declarationsOf "")).head? = some d →
        d.params = []) ∧
      ((∀ m ∈ manifests, ∀ entry ∈ m.classes, ¬OnlySeparators entry.1) →
        c.parent = none ∧ c.parameters = []) := by
  refine ⟨fun m hm kind entry he hliteral => ?_, fun t c ht hc => ?_⟩
  · obtain ⟨t, d, ht, hd, hname⟩ := exists_type_of_literal h hm he hliteral
    refine ⟨t, d, ht, hd, hname, ?_⟩
    rw [hname]
    exact Name.normalize_eq_empty_iff_of_not_isBlank
      (Manifest.not_isBlank_of_valid (hvalid m hm) he)
  · obtain ⟨c', hc', hmain⟩ := isMain_of_lookup ht
    cases hc.symm.trans hc'
    have hmem := List.mem_of_getElem? hc
    have hparent := parent_eq_none_iff_of_isMain h hvalid hmem hmain
    have hparameters := parameters_eq_nil_iff h hmem hmain.1
    rw [hmain.2] at hparameters
    refine ⟨hparent, hparameters, fun hno => ⟨?_, ?_⟩⟩
    · exact hparent.mpr fun m hm entry he hkey => absurd hkey (hno m hm entry he)
    · refine hparameters.mpr fun d hd => ?_
      obtain ⟨m, hm, hd⟩ := List.mem_flatMap.mp (List.mem_of_mem_head? hd)
      rcases (mem_declarationsOf_empty (hvalid m hm)).mp hd with ⟨key, he, hkey⟩ | ⟨-, rfl⟩
      · exact absurd hkey (hno m hm _ he)
      · rfl

/-- A manifest without faults: the first of its entries has a key that is not blank, but it gives
the unnamed class a parent and a parameter. -/
def namelessEntry : Manifest :=
  { classes := [("::", { inherits := some "base", params := [("port", .null)] }), ("base", {})]
    main := [.includes ["base"]] }

theorem namelessEntry_valid : namelessEntry.invalidities = [] := by
  decide +kernel

theorem nameless_iff_namelessEntry : ∃ r t c, ofManifests [namelessEntry] {} = .ok r ∧
    namelessEntry.invalidities = [] ∧ r.lookup .hostclass (normalize "::") = some t ∧
      r.get? t = some c ∧ c.name = "" ∧ c.parent ≠ none ∧ c.parameters ≠ [] := by
  have hsite : (ofManifests [namelessEntry] {}).toOption.isSome = true := by decide +kernel
  obtain ⟨r, hr⟩ := Option.isSome_iff_exists.mp hsite
  have hr := eq_ok_of_toOption hr
  obtain ⟨hentries, hmain⟩ := nameless_iff hr
    fun m hm => List.mem_singleton.mp hm ▸ namelessEntry_valid
  obtain ⟨t, c, ht, hc, hname, hempty⟩ := hentries _ (List.mem_singleton_self _) .hostclass
    ("::", _) List.mem_cons_self (nomatch ·)
  have hsep : OnlySeparators "::" := ⟨0, by decide⟩
  have hnone := hempty.mpr hsep
  obtain ⟨hparent, hparameters, -⟩ := hmain t c (by rwa [← hname, hnone] at ht) hc
  refine ⟨r, t, c, hr, namelessEntry_valid, ht, hc, hnone, fun h => ?_, fun h => ?_⟩
  · cases hparent.mp h _ (List.mem_singleton_self _) _ List.mem_cons_self hsep
  · cases hparameters.mp h _ rfl

/-- Of valid manifests an entry may yield a type without a name, and the unnamed class may have a
parent and parameters. -/
theorem not_named_of_valid : ¬∀ (manifests : List Manifest) (settings : Settings) (r : Registry),
    ofManifests manifests settings = .ok r → (∀ m ∈ manifests, m.invalidities = []) →
      (∀ m ∈ manifests, ∀ kind, ∀ entry ∈ m.entries kind,
        (kind = .node → Manifest.patternSource? entry.1 = none) →
        ∀ t d, r.lookup kind (normalize entry.1) = some t → r.get? t = some d → d.name ≠ "") ∧
      ∀ t c, r.lookup .hostclass "" = some t → r.get? t = some c →
        c.parent = none ∧ c.parameters = [] := by
  intro hall
  have hsite : (ofManifests [namelessEntry] {}).toOption.any (fun r =>
      ((r.lookup .hostclass (normalize "::")).bind r.get?).any (·.name = "")) = true := by
    decide +kernel
  obtain ⟨r, hr, hsite⟩ := (Option.any_eq_true ..).mp hsite
  obtain ⟨c, hc, hname⟩ := (Option.any_eq_true ..).mp hsite
  obtain ⟨t, ht, hc⟩ := Option.bind_eq_some_iff.mp hc
  have hentries := (hall _ _ r (eq_ok_of_toOption hr)
    fun m hm => List.mem_singleton.mp hm ▸ namelessEntry_valid).1
  exact hentries _ (List.mem_singleton_self _) .hostclass ("::", _) List.mem_cons_self (nomatch ·)
    t c ht hc (of_decide_eq_true hname)

end Registry

end SiteCatalog
