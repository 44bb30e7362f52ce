import SiteCatalog.Proofs.Compilation.Phases

/-!
# Code is entered once

However the classes of a site include, declare and inherit each other, the code of no resource is
entered a second time, also if the compilation fails. After a compilation that succeeds, the code of
every class, node and instance of a defined type has been entered.

Results:
* `filter_entered`: what has been entered for one resource.
* `mem_classes_iff`: the classes that a catalog lists.
* `code_entered_once`: both during a compilation and after it.
-/

namespace SiteCatalog.Compilation

variable {o s t : State} {h : List Visit}

theorem prefix_entered {h' : List Visit} (hp : h' <+: h) : entered h' <+: entered h :=
  hp.filterMap _

/-- What has been entered for a resource whose code cannot be missing: the code of its source. -/
theorem filter_entered (ho : Orderly h s) {id : ResourceId} {r : Resource}
    (hr : s.catalog.get? id = some r) (hall : ∀ ty, r.source = some ty → (ty, id) ∈ entered h) :
    (entered h).filter (·.2 = id) = (r.source.map fun ty => (ty, id)).toList := by
  have hsource : ∀ e ∈ entered h, e.2 = id → r.source = some e.1 := by
    intro e he heq
    obtain ⟨r', hr', hs, -⟩ := ho.marked e he
    rw [heq, hr] at hr'
    cases hr'
    exact hs
  cases hs : r.source with
  | none =>
    rw [Option.map_none, Option.toList_none, List.filter_eq_nil_iff]
    intro e he heq
    have := hsource e he (of_decide_eq_true heq)
    rw [hs] at this
    cases this
  | some ty =>
    -- all entries for the resource are the same one, and there are no two
    have hsame : ∀ e ∈ (entered h).filter (·.2 = id), e = (ty, id) := by
      intro e he
      rw [List.mem_filter, decide_eq_true_eq] at he
      have := hsource e he.1 he.2
      rw [hs, Option.some.injEq] at this
      exact Prod.ext this.symm he.2
    have hnodup : ((entered h).filter (·.2 = id)).Nodup := ho.once.of_map.filter _
    have hmem : (ty, id) ∈ (entered h).filter (·.2 = id) :=
      List.mem_filter.mpr ⟨hall ty hs, decide_eq_true rfl⟩
    have hrep := List.eq_replicate_of_mem hsame
    rw [hrep, List.nodup_replicate] at hnodup
    have hpos := List.length_pos_of_mem hmem
    rw [hrep, show List.length _ = 1 by omega]
    rfl

/-- A catalog lists the titles of its classes and nodes if everything has been evaluated since
nothing was there. -/
theorem mem_classes_iff (ho : Orderly h s) (hc : Complete o h s) (hnone : o.catalog.classes = [])
    (hall : ∀ id r ty, s.catalog.get? id = some r → r.source = some ty → (ty, id) ∈ entered h)
    (title : String) : title ∈ s.catalog.classes ↔
      ∃ id r ty, s.catalog.get? id = some r ∧ r.source = some ty ∧ Singleton s ty ∧
        r.title = title := by
  constructor
  · intro ht
    rcases hc.listed title ht with ht | ⟨e, he, hsing, r, hr, htitle⟩
    · rw [hnone] at ht
      cases ht
    · obtain ⟨r', hr', hs, -⟩ := ho.marked e he
      rw [hr] at hr'
      cases hr'
      exact ⟨e.2, r, e.1, hr, hs, hsing, htitle⟩
  · rintro ⟨id, r, ty, hr, hs, hsing, rfl⟩
    exact hc.titles (ty, id) (hall id r ty hr hs) hsing r hr

section

variable (rounds : ℕ) {types : Registry} (host : Host) (settings : Settings)

/-- At every point of a compilation, the code of a resource has been entered at most once. If the
compilation succeeds, it has been entered exactly once for a resource with a source and never for
another one, no resource is left unevaluated, and the classes listed are the titles of the resources
of classes and nodes. -/
theorem code_entered_once (hclosed : types.Closed) :
    (∀ h, h <+: history rounds types host settings →
      ∀ id, ((entered h).map (·.2)).count id ≤ 1) ∧
    ∀ t, compile rounds types host settings = (.ok (), t) →
      (∀ id r, t.catalog.get? id = some r → (r.source.isSome → r.evaluated = true) ∧
        (entered (history rounds types host settings)).filter (·.2 = id) =
          (r.source.map fun ty => (ty, id)).toList) ∧
      t.catalog.unevaluated = [] ∧
      ∀ title, title ∈ t.catalog.classes ↔
        ∃ id r ty, t.catalog.get? id = some r ∧ r.source = some ty ∧ Singleton t ty ∧
          r.title = title := by
  have ho := (history_compiled rounds host settings hclosed).toOrderly
  refine ⟨fun h hp id => ?_, fun t ht => ?_⟩
  · have hsub := ((prefix_entered hp).map (·.2)).sublist
    exact List.nodup_iff_count_le_one.mp (ho.once.sublist hsub) id
  · obtain ⟨hc, hnone⟩ := compile_complete rounds host settings hclosed ht
    rw [ht] at ho
    have hev : ∀ id r, t.catalog.get? id = some r → r.source.isSome → r.evaluated = true := by
      intro id r hr hs
      by_contra hne
      have hmem := mem_unevaluated.mpr ⟨r, hr, hs, eq_false_of_ne_true hne⟩
      rw [hnone] at hmem
      cases hmem
    have hall : ∀ id r ty, t.catalog.get? id = some r → r.source = some ty →
        (ty, id) ∈ entered (history rounds types host settings) := by
      intro id r ty hr hs
      refine hc.entered id r ty hr (hev id r hr (hs ▸ rfl)) hs ?_
      rintro ⟨r', hr', -⟩
      cases hr'
    exact ⟨fun id r hr => ⟨hev id r hr, filter_entered ho hr (hall id r · hr)⟩, hnone,
      mem_classes_iff ho hc rfl hall⟩

end

/-- Classes that include each other, one of which inherits from the other, and a defined type that
includes one of them again. -/
def entangled : Registry where
  environment := "production"
  types := [
    { Descriptor.ofName .hostclass "" with
      body := some (.code (.block [.includes ["b"], .declare "d" (.literal (.str "i")) []])) },
    { Descriptor.ofName .hostclass "a" with body := some (.code (.includes ["b"])) },
    { Descriptor.ofName .hostclass "b" with
      parent := some "a"
      body := some (.code (.includes ["a"])) },
    { Descriptor.ofName .define "d" with
      body := some (.code (.block [.includes ["b"], .declare "file" (.literal (.str "f")) []])) }]

/-- In the entangled site the code of the main class, of both classes and of the instance is
entered once, and that of the file never. -/
theorem code_entered_once_entangled :
    ∃ t, compile 2 entangled ⟨"web01", [], []⟩ {} = (.ok (), t) ∧
      t.catalog.resources.length = 5 ∧
      (∀ id, ((entered (history 2 entangled ⟨"web01", [], []⟩ {})).map (·.2)).count id ≤ 1) ∧
      ∀ id r, t.catalog.get? id = some r →
        (entered (history 2 entangled ⟨"web01", [], []⟩ {})).filter (·.2 = id) =
          (r.source.map fun ty => (ty, id)).toList := by
  have honce := code_entered_once 2 ⟨"web01", [], []⟩ {}
    (Registry.closed_of_unresolved (r := entangled) (by decide +kernel))
  have hlen : (compile 2 entangled ⟨"web01", [], []⟩ {}).2.catalog.resources.length = 5 := by
    decide +kernel
  have hok : (compile 2 entangled ⟨"web01", [], []⟩ {}).1.toBool = true := by decide +kernel
  rcases hcompile : compile 2 entangled ⟨"web01", [], []⟩ {} with ⟨⟨⟩ | ⟨⟨⟩⟩, t⟩
  · rw [hcompile] at hok
    cases hok
  · rw [hcompile] at hlen
    exact ⟨t, rfl, hlen, honce.1 _ (List.prefix_refl _),
      fun id r hr => ((honce.2 t hcompile).1 id r hr).2⟩

end SiteCatalog.Compilation
