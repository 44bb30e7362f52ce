import SiteCatalog.Catalog
import SiteCatalog.Proofs.Capitals

/-!
# The index of a catalog

A catalog finds a resource by searching its resources for an identity. An index from identities to
places, kept along with every addition, gives the same answers.

A resource bears the tag of the name that it was requested under, and its identity has the tag of
that tag. So it is found under the names whose tag is the tag of its tag. Those are the names with
its own tag exactly if its segments begin plainly.

Results:
* `Catalog.resource?_eq_some_iff`: which resource is found, where identities are distinct.
* `Indexed.Faithful`: an index that has one entry for each resource. Additions keep it, and with it
  they do what they do without an index.
* `Catalog.index_exact`: what a catalog holds, finds and refuses after any list of requests.
-/

namespace SiteCatalog

/-! ## What a catalog finds and refuses -/

namespace Catalog

variable {c : Catalog} {r : Resource}

theorem add_eq_error {e : CompileError} (h : c.add r = .error e) :
    e = .duplicateResource r.reference ∧ ∃ r' ∈ c.resources, r'.identity = r.identity := by
  unfold add at h
  split at h
  · next hany =>
    cases h
    obtain ⟨r', hr', heq⟩ := List.any_eq_true.mp hany
    exact ⟨rfl, r', hr', of_decide_eq_true heq⟩
  · cases h

theorem resource?_eq_some {type title : String} {id : ResourceId}
    (h : c.resource? type title = some id) :
    ∃ r, c.get? id = some r ∧ r.identity = Identity.of type title := by
  rw [resource?, List.findIdx?_eq_some_iff_getElem] at h
  obtain ⟨hlt, hid, -⟩ := h
  exact ⟨_, List.getElem?_eq_getElem hlt, of_decide_eq_true hid⟩

theorem resource?_eq_none {type title : String} (h : c.resource? type title = none) :
    ∀ r ∈ c.resources, r.identity ≠ Identity.of type title := by
  rw [resource?, List.findIdx?_eq_none_iff] at h
  exact fun r hr => of_decide_eq_false (h r hr)

/-- No two resources have one identity. -/
def Distinct (c : Catalog) : Prop :=
  ∀ i j r r', c.get? i = some r → c.get? j = some r' → r.identity = r'.identity → i = j

/-- Where identities are distinct, the one resource with an identity is found. -/
theorem resource?_eq_some_iff (h : c.Distinct) {type title : String} {id : ResourceId} :
    c.resource? type title = some id ↔
      ∃ r, c.get? id = some r ∧ r.identity = Identity.of type title := by
  refine ⟨resource?_eq_some, fun ⟨r, hr, hid⟩ => ?_⟩
  cases hfound : c.resource? type title with
  | none => exact absurd hid (resource?_eq_none hfound r (List.mem_of_getElem? hr))
  | some id' =>
    obtain ⟨r', hr', hid'⟩ := resource?_eq_some hfound
    rw [h id' id r' r hr' hr (hid'.trans hid.symm)]

/-- Some resource has an identity. -/
def Taken (c : Catalog) (identity : Identity) : Prop :=
  ∃ id r, c.get? id = some r ∧ r.identity = identity

theorem taken_append_iff {identity : Identity} :
    (c.append r).Taken identity ↔ r.identity = identity ∨ c.Taken identity := by
  constructor
  · rintro ⟨id, r', hr', hid⟩
    rw [get?_append] at hr'
    split at hr'
    · cases hr'
      exact .inl hid
    · exact .inr ⟨id, r', hr', hid⟩
  · rintro (hid | ⟨id, r', hr', hid⟩)
    · exact ⟨c.resources.length, r, by rw [get?_append, if_pos rfl], hid⟩
    · exact ⟨id, r', get?_append_of_get? hr' r, hid⟩

/-- A resource is added unless its identity is taken. -/
theorem add_cases (c : Catalog) (r : Resource) :
    c.Taken r.identity ∧ c.add r = .error (.duplicateResource r.reference) ∨
      ¬c.Taken r.identity ∧ c.add r = .ok (c.resources.length, c.append r) := by
  cases hadd : c.add r with
  | error e =>
    obtain ⟨rfl, r', hr', hid⟩ := add_eq_error hadd
    obtain ⟨id, hget⟩ := List.mem_iff_getElem?.mp hr'
    exact .inl ⟨⟨id, r', hget, hid⟩, rfl⟩
  | ok x =>
    obtain ⟨rfl, hnew⟩ := add_eq_ok hadd
    exact .inr ⟨fun ⟨id, r', hr', hid⟩ => hnew id r' hr' hid, rfl⟩

theorem Distinct.append (h : c.Distinct) (hnew : ¬c.Taken r.identity) : (c.append r).Distinct := by
  intro i j s s' hs hs' heq
  rw [get?_append] at hs hs'
  split at hs <;> split at hs'
  · next hi hj => exact hi.trans hj.symm
  · cases hs
    exact absurd ⟨j, s', hs', heq.symm⟩ hnew
  · cases hs'
    exact absurd ⟨i, s, hs, heq⟩ hnew
  · exact h i j s s' hs hs' heq

end Catalog

/-! ## An index kept along with the resources -/

/-- A catalog with an index of its resources by their identities. -/
structure Indexed where
  catalog : Catalog
  index : Std.HashMap Identity ResourceId

namespace Indexed

/-- A catalog without resources. -/
def empty (name : String) : Indexed :=
  ⟨.empty name, ∅⟩

/-- The resource of a type with a title, as the index has it. -/
def resource? (x : Indexed) (type title : String) : Option ResourceId :=
  x.index[Identity.of type title]?

/-- Adds a resource whose identity is not in the index, and enters it there. -/
def add (x : Indexed) (r : Resource) : Except CompileError (ResourceId × Indexed) :=
  if x.index.contains r.identity then .error (.duplicateResource r.reference)
  else
    let id := x.catalog.resources.length
    .ok (id, ⟨x.catalog.append r, x.index.insert r.identity id⟩)

/-- The entries of the index are the resources, each under its identity. -/
def Faithful (x : Indexed) : Prop :=
  ∀ identity id, x.index[identity]? = some id ↔
    ∃ r, x.catalog.get? id = some r ∧ r.identity = identity

theorem faithful_empty (name : String) : (empty name).Faithful := by
  intro identity id
  simp [empty, Catalog.empty, Catalog.get?]

namespace Faithful

variable {x y : Indexed} {r : Resource}

/-- An index has one entry for an identity, so there is one resource with it. -/
theorem distinct (h : x.Faithful) : x.catalog.Distinct := by
  intro i j r r' hr hr' heq
  have hi := (h r.identity i).mpr ⟨r, hr, rfl⟩
  have hj := (h r.identity j).mpr ⟨r', hr', heq.symm⟩
  exact Option.some.inj (hi.symm.trans hj)

theorem resource?_eq (h : x.Faithful) (type title : String) :
    x.resource? type title = x.catalog.resource? type title := by
  refine Option.ext fun id => ?_
  rw [resource?, h, Catalog.resource?_eq_some_iff h.distinct]

theorem contains_iff (h : x.Faithful) (identity : Identity) :
    x.index.contains identity = true ↔ x.catalog.Taken identity := by
  rw [Std.HashMap.contains_eq_isSome_getElem?, Option.isSome_iff_exists]
  exact exists_congr fun id => h identity id

/-- A new identity goes into the index, with the place of its resource. -/
theorem append (h : x.Faithful) (hnew : ¬x.catalog.Taken r.identity) :
    Faithful ⟨x.catalog.append r, x.index.insert r.identity x.catalog.resources.length⟩ := by
  intro identity id
  rw [Std.HashMap.getElem?_insert, Catalog.get?_append]
  by_cases heq : r.identity = identity
  · subst heq
    rw [if_pos (beq_self_eq_true _), Option.some.injEq]
    constructor
    · rintro rfl
      exact ⟨r, if_pos rfl, rfl⟩
    · rintro ⟨r', hr', hid⟩
      split at hr'
      · next hlast => exact hlast.symm
      · exact absurd ⟨id, r', hr', hid⟩ hnew
  · rw [if_neg (fun hbeq => heq (eq_of_beq hbeq)), h]
    refine exists_congr fun r' => and_congr_left fun hid => ?_
    split
    · next hlast =>
      have hnone : x.catalog.get? id = none := List.getElem?_eq_none (Nat.le_of_eq hlast.symm)
      rw [hnone]
      exact ⟨fun hr' => absurd hr'.symm (Option.some_ne_none r'),
        fun hr' => absurd (Option.some.inj hr' ▸ hid) heq⟩
    · rfl

/-- An addition with an index is an addition without one, and the index stays faithful. -/
theorem add_eq (h : x.Faithful) (r : Resource) :
    (∃ e, x.catalog.add r = .error e ∧ x.add r = .error e) ∨
      ∃ id y, x.catalog.add r = .ok (id, y.catalog) ∧ x.add r = .ok (id, y) ∧ y.Faithful := by
  obtain ⟨htaken, hadd⟩ | ⟨hnew, hadd⟩ := x.catalog.add_cases r
  · exact .inl ⟨_, hadd, if_pos ((h.contains_iff _).mpr htaken)⟩
  · exact .inr ⟨_, _, hadd, if_neg (mt (h.contains_iff _).mp hnew), h.append hnew⟩

end Faithful

end Indexed

/-! ## Requests -/

/-- A request for a plain resource of a type, with a title, in a scope. -/
structure Request where
  type : String
  title : String
  scope : ScopeId
  deriving DecidableEq

namespace Request

/-- The resource that is requested. -/
def resource (q : Request) : Resource :=
  .ofType q.type q.title q.scope none []

/-- The name of the type has the tag of its tag. -/
def Plain (q : Request) : Prop :=
  ∀ seg ∈ Name.segments (Text.lower q.type.toList), Name.BeginsPlainly seg

instance (q : Request) : Decidable q.Plain :=
  List.decidableBAll _ _

theorem plain_iff (q : Request) : q.Plain ↔ Name.tag (Name.tag q.type) = Name.tag q.type :=
  (Name.tag_tag_iff q.type).symm

end Request

/-- A request and its answer. -/
abbrev Answered := Request × Except CompileError ResourceId

/-- The requests that were granted, with the places of their resources. -/
def added (log : List Answered) : List (Request × ResourceId) :=
  log.filterMap fun e => e.2.toOption.map fun id => (e.1, id)

section Answers

variable {σ : Type} (add : σ → Resource → Except CompileError (ResourceId × σ))

/-- Answers a request; one that is refused changes nothing. -/
def answer (s : σ × List Answered) (q : Request) : σ × List Answered :=
  match add s.1 q.resource with
  | .ok (id, t) => (t, s.2 ++ [(q, .ok id)])
  | .error e => (s.1, s.2 ++ [(q, .error e)])

/-- Answers requests one after another. -/
def answerAll (s : σ) (requests : List Request) : σ × List Answered :=
  requests.foldl (answer add) (s, [])

/-- A request is granted with the next state, or refused. -/
theorem answer_cases (s : σ × List Answered) (q : Request) :
    (∃ id t, add s.1 q.resource = .ok (id, t) ∧ answer add s q = (t, s.2 ++ [(q, .ok id)])) ∨
      ∃ e, add s.1 q.resource = .error e ∧ answer add s q = (s.1, s.2 ++ [(q, .error e)]) := by
  rw [answer]
  split
  · next id t hadd => exact .inl ⟨id, t, hadd, rfl⟩
  · next e hadd => exact .inr ⟨e, hadd, rfl⟩

theorem requests_foldl (s : σ × List Answered) (requests : List Request) :
    (requests.foldl (answer add) s).2.map Prod.fst = s.2.map Prod.fst ++ requests := by
  induction requests generalizing s with
  | nil => exact (List.append_nil _).symm
  | cons q rest ih =>
    have hstep : (answer add s q).2.map Prod.fst = s.2.map Prod.fst ++ [q] := by
      obtain ⟨id, t, -, heq⟩ | ⟨e, -, heq⟩ := answer_cases add s q <;>
        rw [heq, List.map_append] <;> rfl
    rw [List.foldl_cons, ih, hstep, List.append_assoc]
    rfl

/-- Every request has its answer, in order. -/
theorem requests_answerAll (s : σ) (requests : List Request) :
    (answerAll add s requests).2.map Prod.fst = requests :=
  requests_foldl add (s, []) requests

/-- What one answer keeps, all answers keep. -/
theorem answerAll_keeps {P : σ × List Answered → Prop}
    (hstep : ∀ s q, P s → P (answer add s q)) {s : σ} (h : P (s, [])) (requests : List Request) :
    P (answerAll add s requests) :=
  List.foldlRecOn requests (answer add) h fun t ht q _ => hstep t q ht

end Answers

/-- A catalog after a list of requests, with their answers. -/
def Catalog.answers (name : String) (requests : List Request) : Catalog × List Answered :=
  answerAll Catalog.add (.empty name) requests

/-- A catalog with an index after a list of requests, with their answers. -/
def Indexed.answers (name : String) (requests : List Request) : Indexed × List Answered :=
  answerAll Indexed.add (.empty name) requests

/-! ## What the answers say of the catalog -/

theorem added_concat_ok (log : List Answered) (q : Request) (id : ResourceId) :
    added (log ++ [(q, .ok id)]) = added log ++ [(q, id)] :=
  List.filterMap_append

theorem added_concat_error (log : List Answered) (q : Request) (e : CompileError) :
    added (log ++ [(q, .error e)]) = added log := by
  rw [added, List.filterMap_append]
  exact List.append_nil _

/-- The requests that were granted are the resources, with their places in order. -/
structure Kept (s : Catalog × List Answered) : Prop where
  distinct : s.1.Distinct
  resources : s.1.resources = (added s.2).map fun e => e.1.resource
  places : (added s.2).map Prod.snd = List.range s.1.resources.length

namespace Kept

variable {c : Catalog} {log : List Answered} {s : Catalog × List Answered}

theorem empty (name : String) : Kept (.empty name, []) where
  distinct i _ _ _ h := by
    rw [Catalog.get?, show (Catalog.empty name).resources = [] from rfl, List.getElem?_nil] at h
    cases h
  resources := rfl
  places := rfl

/-- One more answer. -/
theorem answer (h : Kept s) (q : Request) : Kept (answer Catalog.add s q) := by
  obtain ⟨id, t, hadd, heq⟩ | ⟨e, -, heq⟩ := answer_cases Catalog.add s q
  · obtain ⟨-, hadd'⟩ | ⟨hnew, hadd'⟩ := s.1.add_cases q.resource
    · cases hadd.symm.trans hadd'
    · cases hadd.symm.trans hadd'
      rw [heq]
      refine ⟨h.distinct.append hnew, ?_, ?_⟩
      · rw [added_concat_ok, List.map_append, ← h.resources]
        rfl
      · rw [added_concat_ok, List.map_append, h.places, Catalog.append, List.length_append,
          List.length_singleton, List.range_succ]
        rfl
  · rw [heq]
    exact ⟨h.distinct, by rw [added_concat_error]; exact h.resources,
      by rw [added_concat_error]; exact h.places⟩

/-- A granted request stands in the place of its resource. -/
theorem place_eq (h : Kept (c, log)) {i id : ℕ} {q : Request}
    (hi : (added log)[i]? = some (q, id)) : i = id := by
  have hplace : ((added log).map Prod.snd)[i]? = some id := by rw [List.getElem?_map, hi]; rfl
  rw [h.places] at hplace
  obtain ⟨_, hid⟩ := List.getElem?_eq_some_iff.mp hplace
  rwa [List.getElem_range] at hid

theorem mem_added_iff (h : Kept (c, log)) {q : Request} {id : ResourceId} :
    (q, id) ∈ added log ↔ (added log)[id]? = some (q, id) := by
  refine ⟨fun hmem => ?_, List.mem_of_getElem?⟩
  obtain ⟨i, hi⟩ := List.mem_iff_getElem?.mp hmem
  exact h.place_eq hi ▸ hi

/-- The resource at a place is the one that was requested there. -/
theorem get?_iff (h : Kept (c, log)) {id : ResourceId} {r : Resource} :
    c.get? id = some r ↔ ∃ q, (q, id) ∈ added log ∧ q.resource = r := by
  rw [Catalog.get?, show c.resources = _ from h.resources, List.getElem?_map,
    Option.map_eq_some_iff]
  constructor
  · rintro ⟨⟨q, i⟩, hi, rfl⟩
    obtain rfl := h.place_eq hi
    exact ⟨q, List.mem_of_getElem? hi, rfl⟩
  · rintro ⟨q, hmem, rfl⟩
    exact ⟨(q, id), h.mem_added_iff.mp hmem, rfl⟩

end Kept

/-- With an index and without one, requests have the same answers and fill the same catalog. -/
theorem Indexed.answers_eq (name : String) (requests : List Request) :
    (Indexed.answers name requests).1.Faithful ∧
      Catalog.answers name requests =
        ((Indexed.answers name requests).1.catalog, (Indexed.answers name requests).2) := by
  have hrun : ∀ s : Indexed × List Answered, s.1.Faithful →
      (requests.foldl (answer Indexed.add) s).1.Faithful ∧
        requests.foldl (answer Catalog.add) (s.1.catalog, s.2) =
          ((requests.foldl (answer Indexed.add) s).1.catalog,
            (requests.foldl (answer Indexed.add) s).2) := by
    induction requests with
    | nil => exact fun s hs => ⟨hs, rfl⟩
    | cons q rest ih =>
      intro s hs
      obtain ⟨e, hplain, hindexed⟩ | ⟨id, y, hplain, hindexed, hy⟩ := hs.add_eq q.resource
      · simpa [answer, hplain, hindexed] using ih (s.1, s.2 ++ [(q, .error e)]) hs
      · simpa [answer, hplain, hindexed] using ih (y, s.2 ++ [(q, .ok id)]) hy
  exact hrun (.empty name, []) (Indexed.faithful_empty name)

/-! ## By which names resources are found -/

/-- What tells the titles of resources with a tag apart, for classes and nodes their small
letters. -/
def titleKey (tag title : String) : String :=
  if tag = "Class" ∨ tag = "Node" then Name.lowercase title else title

theorem Identity.of_eq_iff {type type' title title' : String} :
    Identity.of type title = Identity.of type' title' ↔
      Name.tag type = Name.tag type' ∧
        titleKey (Name.tag type') title = titleKey (Name.tag type') title' := by
  have hof : ∀ type title,
      Identity.of type title = (Name.tag type, titleKey (Name.tag type) title) := fun _ _ => rfl
  rw [hof type, hof type', Prod.mk.injEq]
  exact and_congr_right fun htag => by rw [htag]

namespace Catalog

variable (canon : String → String) (c : Catalog) (log : List Answered)

/-- A resource is found under a name exactly if `canon` of the name that it was requested under is
the tag of that name, and under the same title. -/
def FoundBy : Prop :=
  ∀ type title id, c.resource? type title = some id ↔
    ∃ q, (q, id) ∈ added log ∧ canon q.type = Name.tag type ∧
      titleKey (Name.tag type) q.title = titleKey (Name.tag type) title

/-- A resource has been requested under a name with the same `canon` as that of a request, and with
the same title. -/
def HasBy (q : Request) : Prop :=
  ∃ e ∈ added log, canon e.1.type = canon q.type ∧
    titleKey (canon q.type) e.1.title = titleKey (canon q.type) q.title

/-- A request is refused, and nothing changes, if there is such a resource; otherwise its resource
has the next place. -/
def Settles (q : Request) : Prop :=
  HasBy canon log q ∧ answer add (c, log) q =
      (c, log ++ [(q, .error (.duplicateResource q.resource.reference))]) ∨
    ¬HasBy canon log q ∧ answer add (c, log) q =
      (c.append q.resource, log ++ [(q, .ok c.resources.length)])

end Catalog

/-- The tag of the tag of a name. -/
def Name.secondTag (name : String) : String :=
  Name.tag (Name.tag name)

namespace Kept

variable {c : Catalog} {log : List Answered}

theorem foundBy_secondTag (h : Kept (c, log)) : c.FoundBy Name.secondTag log := by
  intro type title id
  rw [Catalog.resource?_eq_some_iff h.distinct]
  constructor
  · rintro ⟨r, hr, hid⟩
    obtain ⟨q, hq, rfl⟩ := h.get?_iff.mp hr
    exact ⟨q, hq, Identity.of_eq_iff.mp hid⟩
  · rintro ⟨q, hq, hid⟩
    exact ⟨q.resource, h.get?_iff.mpr ⟨q, hq, rfl⟩, Identity.of_eq_iff.mpr hid⟩

theorem hasBy_secondTag_iff (h : Kept (c, log)) (q : Request) :
    Catalog.HasBy Name.secondTag log q ↔ c.Taken q.resource.identity := by
  constructor
  · rintro ⟨⟨q', id⟩, hq', hid⟩
    exact ⟨id, q'.resource, h.get?_iff.mpr ⟨q', hq', rfl⟩, Identity.of_eq_iff.mpr hid⟩
  · rintro ⟨id, r, hr, hid⟩
    obtain ⟨q', hq', rfl⟩ := h.get?_iff.mp hr
    exact ⟨(q', id), hq', Identity.of_eq_iff.mp hid⟩

theorem settles_secondTag (h : Kept (c, log)) (q : Request) :
    c.Settles Name.secondTag log q := by
  rw [Catalog.Settles, h.hasBy_secondTag_iff]
  refine (c.add_cases q.resource).imp (And.imp_right fun hadd => ?_) (And.imp_right fun hadd => ?_)
  · simp [SiteCatalog.answer, hadd]
  · simp [SiteCatalog.answer, hadd]

/-- Names are found by their own tags exactly if all of them have the tag of their tag. -/
theorem foundBy_tag_iff (h : Kept (c, log)) :
    c.FoundBy Name.tag log ↔ ∀ e ∈ added log, e.1.Plain := by
  constructor
  · rintro hfound ⟨q, id⟩ hq
    have hself := (hfound q.type q.title id).mpr ⟨q, hq, rfl, rfl⟩
    obtain ⟨q', hq', hcanon⟩ := (h.foundBy_secondTag q.type q.title id).mp hself
    have hsame : (q, id) = (q', id) :=
      Option.some.inj ((h.mem_added_iff.mp hq).symm.trans (h.mem_added_iff.mp hq'))
    obtain rfl := congrArg Prod.fst hsame
    exact q.plain_iff.mpr hcanon.1
  · intro hplain type title id
    rw [h.foundBy_secondTag type title id]
    refine exists_congr fun q => and_congr_right fun hq => ?_
    rw [Name.secondTag, q.plain_iff.mp (hplain _ hq)]

theorem settles_tag (h : Kept (c, log)) (hplain : ∀ e ∈ added log, e.1.Plain) {q : Request}
    (hq : q.Plain) : c.Settles Name.tag log q := by
  have hsame : Catalog.HasBy Name.tag log q ↔ Catalog.HasBy Name.secondTag log q := by
    refine exists_congr fun e => and_congr_right fun he => ?_
    rw [Name.secondTag, Name.secondTag, e.1.plain_iff.mp (hplain e he), q.plain_iff.mp hq]
  rw [Catalog.Settles, hsame]
  exact h.settles_secondTag q

end Kept

namespace Catalog

/-- After any list of requests, the granted ones are the resources, their places are dense and in
order, and a faithful index gives the same answers. Resources are found, and requests refused, by
the tags of the tags of the names. The tags of the names would do exactly if every name that was
granted has the tag of its tag. -/
theorem index_exact {name : String} {requests : List Request} {c : Catalog} {log : List Answered}
    (h : answers name requests = (c, log)) :
    log.map Prod.fst = requests ∧
    c.resources = (added log).map (fun e => e.1.resource) ∧
    (added log).map Prod.snd = List.range c.resources.length ∧
    (∃ x : Indexed, Indexed.answers name requests = (x, log) ∧ x.catalog = c ∧ x.Faithful ∧
      ∀ type title, x.resource? type title = c.resource? type title) ∧
    c.FoundBy Name.secondTag log ∧ (∀ q, c.Settles Name.secondTag log q) ∧
    (c.FoundBy Name.tag log ↔ ∀ e ∈ added log, e.1.Plain) ∧
    ((∀ e ∈ added log, e.1.Plain) → ∀ q : Request, q.Plain → c.Settles Name.tag log q) := by
  have hkept : Kept (c, log) := h ▸ answerAll_keeps add (fun _ q ht => ht.answer q) (.empty name) _
  obtain ⟨hfaithful, hsame⟩ := Indexed.answers_eq name requests
  have hrequests : log.map Prod.fst = requests := by
    rw [← show (answers name requests).2 = log from congrArg Prod.snd h]
    exact requests_answerAll add (.empty name) requests
  obtain ⟨rfl, rfl⟩ := Prod.mk.inj (h.symm.trans hsame)
  exact ⟨hrequests, hkept.resources, hkept.places,
    ⟨_, rfl, rfl, hfaithful, hfaithful.resource?_eq⟩, hkept.foundBy_secondTag,
    hkept.settles_secondTag, hkept.foundBy_tag_iff, fun hplain _ hq => hkept.settles_tag hplain hq⟩

/-- The first two requests differ in the case of their titles, and so do the next two. But these are
for classes, so the second of them is refused, and so is a further one. -/
theorem index_exact_classes :
    let requests := [⟨"a::B", "t", 0⟩, ⟨"a::B", "T", 0⟩, ⟨"class", "Base", 0⟩, ⟨"class", "BASE", 1⟩]
    let c := (answers "web01" requests).1
    let log := (answers "web01" requests).2
    added log = [(⟨"a::B", "t", 0⟩, 0), (⟨"a::B", "T", 0⟩, 1), (⟨"class", "Base", 0⟩, 2)] ∧
      c.FoundBy Name.tag log ∧
      answer add (c, log) ⟨"Class", "base", 2⟩ =
        (c, log ++ [(⟨"Class", "base", 2⟩, .error (.duplicateResource "Class[base]"))]) := by
  intro requests c log
  have hadded : added log =
      [(⟨"a::B", "t", 0⟩, 0), (⟨"a::B", "T", 0⟩, 1), (⟨"class", "Base", 0⟩, 2)] := by
    decide +kernel
  have hplain : ∀ e ∈ added log, e.1.Plain := by
    rw [hadded]
    decide +kernel
  obtain ⟨-, -, -, -, -, -, hfound, hsettles⟩ :=
    index_exact (Prod.mk.eta : (c, log) = answers "web01" requests).symm
  refine ⟨hadded, hfound.mpr hplain, ?_⟩
  have hreference : (Request.resource ⟨"Class", "base", 2⟩).reference = "Class[base]" := by
    decide +kernel
  have hhas : HasBy Name.tag log ⟨"Class", "base", 2⟩ := by
    refine ⟨(⟨"class", "Base", 0⟩, 2), by rw [hadded]; exact .tail _ (.tail _ (.head _)), ?_⟩
    decide +kernel
  rcases hsettles hplain ⟨"Class", "base", 2⟩ (by decide +kernel) with ⟨-, hanswer⟩ | ⟨hnot, -⟩
  · rw [hanswer, hreference]
  · exact absurd hhas hnot

/-- A resource is not found under the name that it was requested under. -/
theorem not_foundBy_tag :
    ¬(answers "web01" [⟨"ßa", "t", 0⟩]).1.FoundBy Name.tag
      (answers "web01" [⟨"ßa", "t", 0⟩]).2 := by
  intro hfound
  have hadded : added (answers "web01" [⟨"ßa", "t", 0⟩]).2 = [(⟨"ßa", "t", 0⟩, 0)] := by
    decide +kernel
  have hnone : (answers "web01" [⟨"ßa", "t", 0⟩]).1.resource? "ßa" "t" = none := by
    decide +kernel
  have hmem : (⟨"ßa", "t", 0⟩, 0) ∈ added (answers "web01" [⟨"ßa", "t", 0⟩]).2 := by
    rw [hadded]
    exact List.mem_cons_self
  have hsome := (hfound "ßa" "t" 0).mpr ⟨⟨"ßa", "t", 0⟩, hmem, rfl, rfl⟩
  cases hnone.symm.trans hsome

end Catalog

end SiteCatalog
