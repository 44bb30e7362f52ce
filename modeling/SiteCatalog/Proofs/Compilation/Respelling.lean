import SiteCatalog.Proofs.CatalogIndex
import SiteCatalog.Proofs.Compilation.Walk
import SiteCatalog.Proofs.Registry

/-!
# Declaring a resource twice

A resource whose type is a defined type bears the name of that type, however the declaration spells
it. Any other resource bears the name as it is spelled, small letters apart. So a second declaration
under a name that differs in case and leading separators is refused where both names mean a defined
type, and otherwise exactly if they have as many leading separators.

Results:
* `standsFor`: the resource that a declaration stands for.
* `run_addResource`: a resource is added unless its identity is taken.
* `identity_standsFor_eq_iff`: when two declarations stand for resources of one identity.
* `redeclared_iff`: what a second declaration does.
-/

namespace SiteCatalog.Compilation

/-! ## What is declared -/

/-- The resource that a declaration stands for, where the name of the type means the defined type
`found`, or none. -/
def standsFor (types : Registry) (found : Option TypeId) (scope : ScopeId) (type title : String)
    (params : Table Value) : Resource :=
  .ofType (((found.bind types.get?).map Descriptor.resourceTag).getD type) title scope found params

/-- A resource is added unless its identity is taken. -/
theorem run_addResource (s : State) (r : Resource) :
    s.catalog.Taken r.identity ∧
        (addResource r).run s = (.error (.error (.duplicateResource r.reference)), s) ∨
      ¬s.catalog.Taken r.identity ∧ (addResource r).run s =
        (.ok s.catalog.resources.length, { s with catalog := s.catalog.append r }) := by
  have hrun : (addResource r).run s = (ofExcept (s.catalog.add r) >>= fun x =>
      modifyCatalog (fun _ => x.2) >>= fun _ => return x.1).run s := rfl
  refine (s.catalog.add_cases r).imp (And.imp_right fun hadd => ?_) (And.imp_right fun hadd => ?_)
  · rw [hrun, hadd]
    rfl
  · rw [hrun, hadd]
    rfl

variable {s t : State} {scope i j : ScopeId} {c ci cj : Scope} {type title m n : String}
  {p q : Table Value} {id : ResourceId}

/-- A declaration of neither a class nor a node adds the resource that it stands for. -/
theorem run_declareResource_eq (code : Code) (hc : s.scopes.get? scope = some c)
    (htype : ∀ w ∈ Name.reserved, Name.sameIgnoringCase type w = false) (title : String)
    (params : Table Value) :
    (declareResource code scope type title params).run s =
      (addResource (standsFor s.types (s.types.find .define c.space type) scope type title
        params)).run s := by
  rw [declareResource_eq, run_follow,
    if_neg (Bool.eq_false_iff.mp (htype "class" (by simp [Name.reserved]))),
    if_neg (Bool.eq_false_iff.mp (htype "node" (by simp [Name.reserved]))), declareOther,
    run_scopeAt_bind hc, Run.run_get_bind]
  cases hfind : s.types.find .define c.space type with
  | none => rfl
  | some t =>
    obtain ⟨d, hd, -⟩ := Registry.get?_of_find hfind
    rw [standsFor, Option.bind_some, hd]
    exact run_typeAt_bind hd

/-! ## Declared again -/

/-- Under names that differ in case and leading separators, resources of one defined type have one
identity, and others do exactly if the names have as many leading separators. -/
theorem identity_standsFor_eq_iff {types : Registry} {found : Option TypeId}
    (hfound : ∀ t, found = some t → ∃ d, types.get? t = some d)
    (hname : Name.normalize m = Name.normalize n) :
    (standsFor types found i m title p).identity = (standsFor types found j n title q).identity ↔
      found.isSome ∨ Name.lowercase m = Name.lowercase n := by
  rw [Resource.identity, Resource.identity]
  cases found with
  | none =>
    refine Identity.of_eq_iff.trans ((and_iff_left rfl).trans ?_)
    exact (Name.tag_tag_eq_iff hname).trans (by simp)
  | some t =>
    obtain ⟨d, hd⟩ := hfound t rfl
    have hsame : ∀ (k : ScopeId) (type : String) (params : Table Value),
        (standsFor types (some t) k type title params).tag = Name.tag d.resourceTag := by
      intro k type params
      rw [standsFor, Option.bind_some, hd]
      rfl
    rw [hsame, hsame]
    exact iff_of_true rfl (.inl rfl)

/-- After a declaration, another one under a name that differs in case and leading separators and
means the same defined type or none is refused, and changes nothing, if there is such a type, if the
names have as many leading separators, or if the identity was taken before. Otherwise it adds a
resource. -/
theorem redeclared_iff (code : Code) (hi : s.scopes.get? i = some ci)
    (hj : s.scopes.get? j = some cj) (hm : ∀ w ∈ Name.reserved, Name.sameIgnoringCase m w = false)
    (hn : ∀ w ∈ Name.reserved, Name.sameIgnoringCase n w = false)
    (hname : Name.normalize m = Name.normalize n)
    (hfound : s.types.find .define ci.space m = s.types.find .define cj.space n)
    (hfirst : (declareResource code i m title p).run s = (.ok id, t)) (q : Table Value) :
    let found := s.types.find .define cj.space n
    let r := standsFor s.types found j n title q
    let refused := found.isSome ∨ Name.lowercase m = Name.lowercase n ∨ s.catalog.Taken r.identity
    refused ∧ (declareResource code j n title q).run t =
        (.error (.error (.duplicateResource r.reference)), t) ∨
      ¬refused ∧ (declareResource code j n title q).run t =
        (.ok t.catalog.resources.length, { t with catalog := t.catalog.append r }) := by
  intro found r refused
  have hknown : ∀ t, found = some t → ∃ d, s.types.get? t = some d := fun t ht =>
    (Registry.get?_of_find ht).imp fun _ h => h.1
  rw [run_declareResource_eq code hi hm, hfound] at hfirst
  obtain ⟨-, hrun⟩ | ⟨-, hrun⟩ := run_addResource s (standsFor s.types found i m title p)
  · cases hrun.symm.trans hfirst
  · obtain ⟨-, rfl⟩ := Prod.mk.inj (hrun.symm.trans hfirst)
    have hrefused : (s.catalog.append (standsFor s.types found i m title p)).Taken r.identity ↔
        refused := by
      rw [Catalog.taken_append_iff, identity_standsFor_eq_iff hknown hname, or_assoc]
    -- the first declaration has changed nothing but the catalog
    let u := { s with catalog := s.catalog.append (standsFor s.types found i m title p) }
    have hagain : (declareResource code j n title q).run u = (addResource r).run u :=
      run_declareResource_eq (s := u) code hj hn title q
    rw [hagain, ← hrefused]
    exact run_addResource u r

/-- A site with one defined type. -/
def meters : Registry :=
  ⟨"production", [.ofName .define "meter"]⟩

/-- An instance of the type is refused under another spelling of its name. -/
theorem redeclared_iff_meter :
    let s := State.initial meters { given := "web01" }
    ∃ t, (declareResource (runCode false) Scopes.top "meter" "m" []).run s = (.ok 0, t) ∧
      (declareResource (runCode false) Scopes.top "::METER" "m" []).run t =
        (.error (.error (.duplicateResource "Meter[m]")), t) := by
  intro s
  have hfound : s.types.find .define "" "::METER" = some 0 := by decide +kernel
  have hreference : (standsFor s.types (some 0) Scopes.top "::METER" "m" []).reference =
      "Meter[m]" := by
    decide +kernel
  obtain ⟨t, hfirst⟩ :
      ∃ t, (declareResource (runCode false) Scopes.top "meter" "m" []).run s = (.ok 0, t) :=
    ⟨_, rfl⟩
  refine ⟨t, hfirst, ?_⟩
  obtain ⟨-, hagain⟩ | ⟨hnot, -⟩ := redeclared_iff (runCode false) (i := Scopes.top)
    (j := Scopes.top) (m := "meter") (n := "::METER") rfl rfl (by decide +kernel)
    (by decide +kernel) (by decide +kernel) (by decide +kernel) hfirst []
  · rw [hagain, hfound, hreference]
  · exact absurd (.inl (by decide +kernel)) hnot

/-- A file is declared again under its name with a leading separator, and both files are in the
catalog. -/
theorem not_refused :
    let s := State.initial (.empty "production") { given := "web01" }
    s ∈ states 1 (.empty "production") { given := "web01" } {} ∧
    Name.normalize "file" = Name.normalize "::file" ∧
    s.types.find .define "" "file" = none ∧ s.types.find .define "" "::file" = none ∧
    ∃ t u, (declareResource (runCode false) Scopes.top "file" "/etc/motd" []).run s = (.ok 0, t) ∧
      (declareResource (runCode false) Scopes.top "::file" "/etc/motd" []).run t = (.ok 1, u) ∧
      u.catalog.resources.map Resource.reference = ["File[/etc/motd]", "::File[/etc/motd]"] :=
  ⟨List.mem_cons_self, by decide +kernel, by decide +kernel, by decide +kernel, _, _, rfl, rfl,
    by decide +kernel⟩

end SiteCatalog.Compilation
