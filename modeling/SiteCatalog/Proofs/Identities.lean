import SiteCatalog.Catalog
import SiteCatalog.Proofs.NodeSelection

/-!
# Identities of classes and nodes

A registry tells classes and nodes apart by their keys, a catalog by the tags and titles of their
resources. The two differ where a title is not the key: the unnamed class bears the title `main`,
and a node with a pattern bears a printable name.

Results:
* `Descriptor.entry_eq`: the identity of a class or node is its tag and its title in small letters.
* `Registry.Built.entry_eq_iff`: which classes and nodes of a registry have one identity.
-/

namespace SiteCatalog

theorem Name.tag_class : Name.tag "Class" = "Class" := by
  decide

theorem Name.tag_node : Name.tag "Node" = "Node" := by
  decide

namespace Descriptor

variable {d e : Descriptor}

/-- The identity of the one resource of a class or node. -/
def entry (d : Descriptor) : Identity :=
  Identity.of d.resourceTag d.resourceTitle

theorem tag_resourceTag (h : d.kind ≠ .define) : Name.tag d.resourceTag = d.resourceTag := by
  rw [resourceTag]
  split
  · exact Name.tag_class
  · exact Name.tag_node
  · next hk => exact absurd hk h

theorem resourceTag_eq_or (h : d.kind ≠ .define) :
    d.resourceTag = "Class" ∨ d.resourceTag = "Node" := by
  rw [resourceTag]
  split
  · exact .inl rfl
  · exact .inr rfl
  · next hk => exact absurd hk h

theorem resourceTitle_of_not_isMain (d : Descriptor) (h : ¬d.IsMain) : d.resourceTitle = d.name :=
  if_neg h

/-- Classes and nodes are told apart by their titles in small letters. -/
theorem entry_eq (h : d.kind ≠ .define) :
    d.entry = (d.resourceTag, Name.lowercase d.resourceTitle) := by
  rw [entry, Identity.of, tag_resourceTag h]
  exact congrArg _ (if_pos (resourceTag_eq_or h))

/-- The resource of a class or node has its identity. -/
theorem identity_ofType (h : d.kind ≠ .define) (scope : ScopeId) (source : Option TypeId)
    (params : Table Value) :
    (Resource.ofType d.resourceTag d.resourceTitle scope source params).identity = d.entry := by
  rw [Resource.identity, Resource.ofType, tag_resourceTag h, entry]

namespace Authored

theorem lowercase_name (h : d.Authored) : Name.lowercase d.name = d.name := by
  rcases h.found with ⟨kind, name, hlike⟩ | ⟨p, hlike⟩
  · have hname : d.name = Name.normalize name := hlike.name
    rw [hname, Name.lowercase, Name.normalize, String.toList_ofList, Text.lower_lower]
  · have hname : d.name = Name.patternLabel p.source := hlike.name
    rw [hname, Name.lowercase, Name.patternLabel, String.toList_ofList, Text.lower_lower]

theorem lowercase_resourceTitle (h : d.Authored) :
    Name.lowercase d.resourceTitle = d.resourceTitle := by
  rw [resourceTitle]
  split
  · decide
  · exact h.lowercase_name

/-- Only a node has a pattern. -/
theorem pattern_eq_none (h : d.Authored) (hk : d.kind ≠ .node) : d.pattern = none := by
  rcases h.found with ⟨kind, name, hlike⟩ | ⟨p, hlike⟩
  · exact hlike.pattern
  · exact absurd hlike.kind hk

/-- Types of one kind have one identity exactly if they have one title. -/
theorem entry_eq_iff (hd : d.Authored) (he : e.Authored) (hdk : d.kind ≠ .define)
    (hek : e.kind ≠ .define) :
    d.entry = e.entry ↔ d.kind = e.kind ∧ d.resourceTitle = e.resourceTitle := by
  rw [entry_eq hdk, entry_eq hek, hd.lowercase_resourceTitle, he.lowercase_resourceTitle,
    Prod.mk.injEq]
  refine and_congr_left fun _ => ?_
  rw [resourceTag, resourceTag]
  cases hkd : d.kind <;> cases hke : e.kind <;> simp_all

end Authored

/-- Two types with one title although they are found in different ways: the unnamed class and the
class `main`, or nodes with one printable name, of which one has a pattern. -/
def Namesakes (d e : Descriptor) : Prop :=
  d.IsMain ∧ e.kind = .hostclass ∧ e.name = mainTitle ∨
  e.IsMain ∧ d.kind = .hostclass ∧ d.name = mainTitle ∨
  d.kind = .node ∧ e.kind = .node ∧ d.name = e.name ∧ (d.pattern.isSome ∨ e.pattern.isSome)

end Descriptor

namespace Registry

variable {r : Registry} {t u : TypeId} {d e : Descriptor}

/-- Two classes or nodes have one identity in a catalog exactly if they are namesakes. -/
theorem Built.entry_eq_iff (hr : r.Built) (htu : t ≠ u) (hd : r.get? t = some d)
    (he : r.get? u = some e) (hdk : d.kind ≠ .define) (hek : e.kind ≠ .define) :
    d.entry = e.entry ↔ d.Namesakes e := by
  have hda := hr.authored d (List.mem_of_getElem? hd)
  have hea := hr.authored e (List.mem_of_getElem? he)
  rw [hda.entry_eq_iff hea hdk hek]
  constructor
  · rintro ⟨hkind, htitle⟩
    have hdistinct : d.name = e.name → ¬(d.pattern = none ∧ e.pattern = none) := by
      rintro hname ⟨hpd, hpe⟩
      refine htu (hr.fresh.eq_of_kindAndKey_eq hd he (Prod.ext hkind ?_))
      rw [Descriptor.kindAndKey, Descriptor.kindAndKey, Descriptor.key, Descriptor.key, hpd, hpe]
      exact hname
    cases hk : d.kind with
    | define => exact absurd hk hdk
    | node =>
      rw [hk] at hkind
      rw [Descriptor.resourceTitle, Descriptor.resourceTitle, hk, ← hkind] at htitle
      refine .inr (.inr ⟨hk, hkind.symm, htitle, ?_⟩)
      have hpattern := hdistinct htitle
      rwa [not_and_or, ← Ne, ← Ne, Option.ne_none_iff_isSome, Option.ne_none_iff_isSome] at hpattern
    | hostclass =>
      rw [hk] at hkind
      have hnames : d.name ≠ e.name := fun hname => hdistinct hname
        ⟨hda.pattern_eq_none (by rw [hk]; decide), hea.pattern_eq_none (by rw [← hkind]; decide)⟩
      by_cases hmain : d.IsMain
      · have hne : ¬e.IsMain := fun h => hnames (hmain.2.trans h.2.symm)
        rw [Descriptor.resourceTitle_of_isMain hmain, e.resourceTitle_of_not_isMain hne] at htitle
        exact .inl ⟨hmain, hkind.symm, htitle.symm⟩
      · rw [d.resourceTitle_of_not_isMain hmain] at htitle
        by_cases hmain' : e.IsMain
        · rw [Descriptor.resourceTitle_of_isMain hmain'] at htitle
          exact .inr (.inl ⟨hmain', hk, htitle⟩)
        · rw [e.resourceTitle_of_not_isMain hmain'] at htitle
          exact absurd htitle hnames
  · rintro (⟨hmain, hk, hname⟩ | ⟨hmain, hk, hname⟩ | ⟨hk, hk', hname, -⟩)
    · refine ⟨hmain.1.trans hk.symm, ?_⟩
      rw [Descriptor.resourceTitle_of_isMain hmain, Descriptor.resourceTitle, hname]
      exact (ite_self _).symm
    · refine ⟨hk.trans hmain.1.symm, ?_⟩
      rw [Descriptor.resourceTitle_of_isMain hmain, Descriptor.resourceTitle, hname]
      exact ite_self _
    · refine ⟨hk.trans hk'.symm, ?_⟩
      rw [Descriptor.resourceTitle, Descriptor.resourceTitle, hk, hk', hname]

end Registry

end SiteCatalog
