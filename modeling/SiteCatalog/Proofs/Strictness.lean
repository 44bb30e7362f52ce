import SiteCatalog.Proofs.Collection
import SiteCatalog.Proofs.Compilation.Simulation

/-!
# Strictness only rejects

Two settings make a site fail that would otherwise be accepted: the top-level code may be frozen,
and unbound variables may be errors. A site that is accepted with them is accepted without them, and
gives the same catalog.

Results:
* `Manifest.collectAll_of_thawed`: the registry of a site does not change if the top-level code may
  be reopened.
* `accepted_of_lenient`: the same registry and the same document.
-/

namespace SiteCatalog

variable {freeze freeze' : Bool}

/-- A freeze is only one more conflict. -/
theorem Descriptor.conflict?_of_thawed {d source : Descriptor}
    (hle : freeze' = true → freeze = true) (h : conflict? d source freeze = none) :
    conflict? d source freeze' = none := by
  obtain ⟨hd, hsource, hmain, hparents⟩ := conflict?_eq_none.mp h
  exact conflict?_eq_none.mpr ⟨hd, hsource, fun hm => hmain ⟨hle hm.1, hm.2⟩, hparents⟩

theorem Registry.mergeClass_of_thawed {r : Registry} {d : Descriptor} {x : TypeId × Registry}
    (hle : freeze' = true → freeze = true) (h : r.mergeClass d freeze = .ok x) :
    r.mergeClass d freeze' = .ok x := by
  obtain ⟨hnone, hkind, h⟩ | ⟨t, target, hlookup, htarget, hconflict, rfl⟩ := mergeClass_eq_ok h
  · rw [mergeClass_of_lookup_none hnone hkind, h]
  · exact mergeClass_of_get? hlookup htarget (Descriptor.conflict?_of_thawed hle hconflict)

theorem Registry.carries_of_thawed (hle : freeze' = true → freeze = true) :
    Carries (fun _ => True) freeze freeze' fun r r' => r' = r where
  add := by
    rintro d r _ x - rfl hx
    exact ⟨x, hx, rfl⟩
  mergeClass := by
    rintro d r _ x - rfl hx
    exact ⟨x, mergeClass_of_thawed hle hx, rfl⟩

theorem Manifest.collectAll_of_thawed (hle : freeze' = true → freeze = true)
    {manifests : List Manifest} {r r' : Registry} (h : collectAll freeze manifests r = .ok r') :
    collectAll freeze' manifests r = .ok r' := by
  obtain ⟨_, hr', rfl⟩ := (Registry.carries_of_thawed hle).collectAll
    (fun _ _ _ _ => trivial) rfl h
  exact hr'

open Compilation (outcome)

/-- If a site is accepted and compiled, it is accepted and compiled to the same document when unbound
variables are no errors any more, or the top-level code may be reopened, or both. -/
theorem accepted_of_lenient {manifests : List Manifest} {settings : Settings} {strict freeze : Bool}
    (hstrict : strict = true → settings.strictVariables = true)
    (hfreeze : freeze = true → settings.freezeMain = true) {types : Registry} {rounds : ℕ}
    {host : Host} {doc : CatalogDocument}
    (hbuild : Registry.ofManifests manifests settings = .ok types)
    (hcompile : outcome rounds types host settings = .ok doc) :
    Registry.ofManifests manifests
        { settings with strictVariables := strict, freezeMain := freeze } = .ok types ∧
      outcome rounds types host
        { settings with strictVariables := strict, freezeMain := freeze } = .ok doc :=
  ⟨Manifest.collectAll_of_thawed hfreeze hbuild, Compilation.outcome_of_lenient hstrict hcompile⟩

/-- A class that includes another and declares a resource with a variable of its own. -/
def strictSite : List Manifest :=
  [{ classes := [
      ("a", { body := [.set [("x", .string "v")], .includes ["b"],
        .resource "notify" (.string "$x") []] }),
      ("b", {})]
     main := [.includes ["a"]] }]

/-- The site is accepted under the strictest settings and gives the same document without them. -/
theorem accepted_of_lenient_strictSite : ∃ types doc,
    Registry.ofManifests strictSite { strictVariables := true, freezeMain := true } = .ok types ∧
      outcome 1 types ⟨"web01", [], []⟩ { strictVariables := true, freezeMain := true } = .ok doc ∧
      Registry.ofManifests strictSite {} = .ok types ∧
      outcome 1 types ⟨"web01", [], []⟩ {} = .ok doc := by
  have hsite : (Registry.ofManifests strictSite
      { strictVariables := true, freezeMain := true }).toOption.any (fun types =>
        (outcome 1 types ⟨"web01", [], []⟩
          { strictVariables := true, freezeMain := true }).toOption.isSome) = true := by
    decide +kernel
  obtain ⟨types, htypes, hsome⟩ := (Option.any_eq_true ..).mp hsite
  obtain ⟨doc, hdoc⟩ := Option.isSome_iff_exists.mp hsome
  have hbuild := eq_ok_of_toOption htypes
  have hcompile := eq_ok_of_toOption hdoc
  exact ⟨types, doc, hbuild, hcompile,
    accepted_of_lenient (fun h : false = true => nomatch h) (fun h : false = true => nomatch h)
      hbuild hcompile⟩

end SiteCatalog
