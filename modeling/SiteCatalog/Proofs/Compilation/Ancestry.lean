import SiteCatalog.Proofs.Compilation.Entering
import SiteCatalog.Proofs.Compilation.Remembering

/-!
# Ancestry is sound and complete

The parents of a class or node are listed exactly if following them comes to an end: if it never
comes back to a type and no type on the way lacks the parent that it names. What has been listed
once is listed from then on, from everywhere.

Results:
* `AncestryIs`: what the answer says about the parents as they are seen from a namespace.
* `run_ancestry_of_known`: known parents are listed from everywhere, and nothing changes.
* `ancestry_exact`: ancestry in every state, and in later states of a compilation.
-/

namespace SiteCatalog.Compilation

variable {types types' : Registry} {space : String} {type p : TypeId} {d : Descriptor}
  {l rest : List TypeId} {s t u : State} {scope : ScopeId} {c : Scope} {kind : Kind}

/-! ## What known parents are -/

/-- Known parents are the ones that are seen from everywhere, and none is missing. -/
theorem leads_of_ancestry (hl : types.Ancestry type l) (space : String) :
    Leads (parentFrom types space) type l ∧
      ∀ x ∈ type :: l, ∀ d parent, ¬Lacks types space x d parent := by
  induction hl with
  | root hd hn =>
    refine ⟨.last (by rw [parentFrom, hd, Option.bind_some, hn, Option.bind_none]), ?_⟩
    rintro x hx e parent ⟨he, hnamed, -⟩
    rw [List.mem_singleton.mp hx, hd] at he
    cases he
    rw [hn] at hnamed
    cases hnamed
  | @child t p d l hd hs hp _ ih =>
    obtain ⟨parent, hparent⟩ := Option.isSome_iff_exists.mp hs
    have hfrom : parentFrom types space t = some p := by
      rw [parentFrom_of_get? hd hparent, hp, Option.some_or]
    refine ⟨.link hfrom ih.1, fun x hx => ?_⟩
    rcases List.mem_cons.mp hx with rfl | hx
    · rintro e parent' ⟨-, -, hmissing⟩
      rw [hfrom] at hmissing
      cases hmissing
    · exact ih.2 x hx

theorem run_climb_of_known (place : Option ScopeId) (kind : Kind) (hl : s.types.Ancestry type l) :
    ∀ (fuel : ℕ) (front : List TypeId), (front ++ type :: l).Nodup → l.length < fuel →
      (climb place kind fuel (front ++ [type]) type).run s = (.ok (front ++ type :: l), s) := by
  induction hl with
  | root hd hn =>
    rintro (_ | fuel) front _ hfuel
    · exact absurd hfuel (Nat.not_lt_zero _)
    · rw [climb, Run.run_bind, resolveParent, run_typeAt_bind hd, hn]
      rfl
  | @child t p d l hd hs hp hrest ih =>
    rintro (_ | fuel) front hnodup hfuel
    · exact absurd hfuel (Nat.not_lt_zero _)
    · obtain ⟨parent, hparent⟩ := Option.isSome_iff_exists.mp hs
      have hresolve : (resolveParent t place).run s = (.ok (some p), s) := by
        rw [resolveParent, run_typeAt_bind hd, hparent, hp]
        rfl
      have hfront : front ++ t :: p :: l = (front ++ [t]) ++ p :: l := by simp
      have hnew : (front ++ [t]).contains p = false := by
        rw [hfront] at hnodup
        have hdisjoint := (List.nodup_append'.mp hnodup).2.2
        rw [Bool.eq_false_iff, Ne, List.contains_iff_mem]
        exact fun hmem => hdisjoint hmem List.mem_cons_self
      rw [climb, Run.run_bind, hresolve]
      dsimp only
      rw [hnew, hfront]
      exact ih fuel (front ++ [t]) (hfront ▸ hnodup) (Nat.lt_of_succ_lt_succ hfuel)

/-- The parents are those that are met after the type itself. -/
theorem run_ancestry_eq (place : Option ScopeId) (hd : s.types.get? type = some d) :
    (ancestry type place).run s =
      (climb place d.kind (s.types.types.length + 1) [type] type >>= fun chain =>
        pure chain.tail).run s := by
  rw [ancestry, run_typeAt_bind hd]
  rfl

/-- Known parents are listed wherever they are looked up from, and nothing changes. -/
theorem run_ancestry_of_known (place : Option ScopeId) (hl : s.types.Ancestry type l) :
    (ancestry type place).run s = (.ok l, s) := by
  obtain ⟨d, hd⟩ : ∃ d, s.types.get? type = some d :=
    ⟨_, List.getElem?_eq_getElem (hl.lt_length type List.mem_cons_self)⟩
  have hroom := length_le_of_nodup hl.nodup hl.lt_length
  have hclimb := run_climb_of_known place d.kind hl (s.types.types.length + 1) [] hl.nodup
    (Nat.lt_succ_of_lt hroom)
  rw [List.nil_append, List.nil_append] at hclimb
  rw [run_ancestry_eq place hd, Run.run_bind, hclimb]
  rfl

/-! ## What becomes known -/

/-- Since a state parents have become known at most, if a run succeeds. -/
def extending (s : State) : Contract where
  ok _ t := s.types.Extends t.types
  failed _ _ _ := True

theorem resolveParent_extends (type : TypeId) (place : Option ScopeId) (h : List Visit) :
    (resolveParent type place).Meets (extending s) [] h s fun p t => ParentIs t.types type p := by
  refine .existing_bind trivial fun d hd => ?_
  split
  · next hp => exact .pure (Registry.Extends.refl _) ⟨d, hd, hp⟩
  · next hp hk => exact .pure (Registry.Extends.refl _) ⟨d, hd, by rw [hp]; rfl, hk⟩
  · next parent hp hk =>
    split
    · exact .stop trivial
    · refine .existing_bind trivial fun c _ => .get_bind (.ofExcept_bind ?_ fun _ _ => trivial)
      intro found _
      cases found with
      | none => exact .stop trivial
      | some p =>
        refine .bind (.update (s.types.extends_cache type p)) ?_
        rintro - h' t hok rfl
        refine .pure hok ⟨{ d with resolved := some p }, ?_, by rw [hp]; rfl, rfl⟩
        show (cached s.types type p).get? type = _
        rw [Registry.get?_modify, if_pos rfl, hd, Option.map_some, hk]
        rfl

theorem climb_extends (kind : Kind) (place : Option ScopeId) : ∀ (fuel : ℕ) (chain : List TypeId)
    (last : TypeId) (h : List Visit) (s : State),
    (climb place kind fuel chain last).Meets (extending s) [] h s fun found t =>
      ∃ l, found = chain ++ l ∧ t.types.Ancestry last l := by
  intro fuel
  induction fuel with
  | zero => exact fun _ _ _ _ => .stop trivial
  | succ fuel ih =>
    intro chain last h s
    refine .bind (resolveParent_extends last place h) fun p h' t hok hp => ?_
    cases p with
    | none =>
      obtain ⟨d, hd, hn⟩ := hp
      exact .pure hok ⟨[], by simp, .root hd hn⟩
    | some p =>
      obtain ⟨d, hd, hpar, hknown⟩ := hp
      dsimp only
      split
      · have hnames : (namesOf (chain ++ [p])).Meets { extending s with ok _ _ := True } [] h' t
            fun _ _ => True := by
          have hholds := LookingUp.namesOf (I := fun _ => True) (chain ++ [p]) [] h' t trivial
            fun _ _ => trivial
          exact hholds.imp (fun _ _ _ _ _ => ⟨trivial, trivial⟩) fun _ _ _ _ => trivial
        exact hnames.bind_of (fun _ _ _ _ _ => .stop trivial) fun _ _ _ _ => trivial
      · refine (ih (chain ++ [p]) p h' t).imp ?_ fun _ _ _ _ => trivial
        rintro found h'' u hext ⟨l, rfl, hl⟩
        exact ⟨hok.trans hext, p :: l, by simp, .child_of_extends hext hd hpar hknown hl⟩

/-- What has been listed is known from then on. -/
theorem ancestry_known {place : Option ScopeId} (h : (ancestry type place).run s = (.ok l, t)) :
    t.types.Ancestry type l := by
  have hmeets : (ancestry type place).Meets (extending s) [] [] s fun l t =>
      t.types.Ancestry type l := by
    refine .existing_bind trivial fun d _ => .get_bind (.bind (climb_extends d.kind place _ _ _ _ s)
      ?_)
    rintro found h' t hok ⟨l, rfl, hl⟩
    exact .pure hok hl
  unfold Run.Meets at hmeets
  rw [h] at hmeets
  exact hmeets.2

/-! ## What is answered -/

/-- The parents of a class or node are listed as they are seen from its namespace and that of the
scope, or it is said why they are not. -/
theorem ancestry_listed (hs : Kindred s.types) (hd : s.types.get? type = some d)
    (hk : d.kind ≠ .define) (hc : s.scopes.get? scope = some c) :
    (∃ l t, (ancestry type (some scope)).run s = (.ok l, t) ∧
      Looked s.types c.space scope t ∧ t.types.Ancestry type l) ∨
    ∃ f t, (ancestry type (some scope)).run s = (.error f, t) ∧
      Unlisted s.types c.space type d.kind f := by
  have hstart : Looked s.types c.space scope s := ⟨hs, .refl _, rfl, c, hc, rfl⟩
  have hexist : ∀ x ∈ [type], ∃ d, s.types.get? x = some d ∧ d.kind ≠ .define := by
    intro x hx
    rw [List.mem_singleton.mp hx]
    exact ⟨d, hd, hk⟩
  obtain ⟨l, t, hclimb, hlooked, -, hl⟩ | ⟨f, t, hclimb, hf⟩ :=
    hstart.climb (s.types.types.length + 1) (.single _ type) hexist (by simp)
  · refine .inl ⟨l, t, ?_, hlooked, hl⟩
    rw [run_ancestry_eq _ hd, Run.run_bind, hclimb]
    rfl
  · refine .inr ⟨f, t, ?_, hf⟩
    rw [run_ancestry_eq _ hd, Run.run_bind, hclimb]

/-- A type is reached from another by parents as they are seen from a namespace. -/
def Reached (types : Registry) (space : String) (type x : TypeId) : Prop :=
  Relation.ReflTransGen (Linked (parentFrom types space)) type x

/-- A type is its own ancestor as parents are seen from a namespace. -/
def OnRing (types : Registry) (space : String) (x : TypeId) : Prop :=
  Relation.TransGen (Linked (parentFrom types space)) x x

/-- An answer to the question for the parents of a type, as they are seen from a namespace. -/
structure AncestryIs (types : Registry) (space : String) (type : TypeId) (kind : Kind)
    (answer : Except Failure (List TypeId)) : Prop where
  /-- The parents are listed exactly if the way comes to an end where no parent is named. -/
  listed : (∃ l, answer = .ok l) ↔ ∀ x, Reached types space type x →
    ¬OnRing types space x ∧ ∀ d parent, ¬Lacks types space x d parent
  /-- They are listed in order and without repetition. -/
  list : ∀ l, answer = .ok l → Leads (parentFrom types space) type l ∧ (type :: l).Nodup
  ring : (∃ names, answer = .error (.error (.parentCycle kind names))) ↔
    ∃ x, Reached types space type x ∧ OnRing types space x
  /-- The types up to the first one that has come before are named. -/
  names : ∀ k names, answer = .error (.error (.parentCycle k names)) → k = kind ∧
    ∃ last chain x, Way (parentFrom types space) type last chain ∧
      parentFrom types space last = some x ∧ x ∈ chain ∧
      List.Forall₂ (Named types) (chain ++ [x]) names
  lacks : ∀ k name parent, answer = .error (.error (.unresolvableParent k name parent)) ↔
    ∃ x d, Reached types space type x ∧ Lacks types space x d parent ∧ d.kind = k ∧ d.name = name
  /-- There is no other answer. -/
  answered : (∃ l, answer = .ok l) ∨ (∃ names, answer = .error (.error (.parentCycle kind names))) ∨
    ∃ k name parent, answer = .error (.error (.unresolvableParent k name parent))

/-- A way that ends has no ring on it. -/
theorem Lacks.not_onRing {x y : TypeId} {parent : String} (h : Lacks types space x d parent)
    (hx : Reached types space type x) (hy : Reached types space type y) :
    ¬OnRing types space y := by
  obtain ⟨l, hl⟩ := Leads.exists_of_reached hx h.missing
  exact hl.not_ring hy

/-- Parents that come to an end without one missing are an answer. -/
theorem AncestryIs.of_leads (hleads : Leads (parentFrom types space) type l)
    (hnone : ∀ x ∈ type :: l, ∀ d parent, ¬Lacks types space x d parent) :
    AncestryIs types space type kind (.ok l) := by
  have hends : ∀ x, Reached types space type x →
      ¬OnRing types space x ∧ ∀ d parent, ¬Lacks types space x d parent :=
    fun x hx => ⟨hleads.not_ring hx, hnone x (hleads.mem_of_reached hx)⟩
  constructor
  case listed => exact ⟨fun _ => hends, fun _ => ⟨l, rfl⟩⟩
  case list =>
    rintro _ ⟨⟩
    exact ⟨hleads, hleads.nodup⟩
  case ring => exact ⟨fun ⟨_, h⟩ => (nomatch h), fun ⟨x, hx, hring⟩ => absurd hring (hends x hx).1⟩
  case names => exact fun _ _ h => (nomatch h)
  case lacks =>
    exact fun _ _ _ => ⟨fun h => (nomatch h),
      fun ⟨x, d, hx, hlacks, _⟩ => absurd hlacks ((hends x hx).2 d _)⟩
  case answered => exact .inl ⟨l, rfl⟩

/-- The names up to the first type that comes again are an answer. -/
theorem AncestryIs.of_closes {last x : TypeId} {chain : List TypeId} {names : List String}
    (hway : Way (parentFrom types space) type last chain)
    (hlink : parentFrom types space last = some x) (hmem : x ∈ chain)
    (hnames : List.Forall₂ (Named types) (chain ++ [x]) names) :
    AncestryIs types space type kind (.error (.error (.parentCycle kind names))) := by
  have hx : Reached types space type x := hway.reached x hmem
  have hring : OnRing types space x := hway.ring hlink hmem
  constructor
  case listed => exact ⟨fun ⟨_, h⟩ => (nomatch h), fun h => absurd hring (h x hx).1⟩
  case list => exact fun _ h => (nomatch h)
  case ring => exact ⟨fun _ => ⟨x, hx, hring⟩, fun _ => ⟨names, rfl⟩⟩
  case names =>
    rintro _ _ ⟨⟩
    exact ⟨rfl, last, chain, x, hway, hlink, hmem, hnames⟩
  case lacks =>
    exact fun _ _ _ => ⟨fun h => (nomatch h),
      fun ⟨y, d, hy, hlacks, _⟩ => absurd hring (hlacks.not_onRing hy hx)⟩
  case answered => exact .inr (.inl ⟨names, rfl⟩)

/-- The name of the only type that lacks its parent is an answer. -/
theorem AncestryIs.of_lacks {x : TypeId} {parent : String} (hx : Reached types space type x)
    (hlacks : Lacks types space x d parent) : AncestryIs types space type kind
      (.error (.error (.unresolvableParent d.kind d.name parent))) := by
  constructor
  case listed => exact ⟨fun ⟨_, h⟩ => (nomatch h), fun h => absurd hlacks ((h x hx).2 d parent)⟩
  case list => exact fun _ h => (nomatch h)
  case ring =>
    exact ⟨fun ⟨_, h⟩ => (nomatch h), fun ⟨y, hy, hring⟩ => absurd hring (hlacks.not_onRing hx hy)⟩
  case names => exact fun _ _ h => (nomatch h)
  case lacks =>
    intro k name parent'
    constructor
    · rintro ⟨⟩
      exact ⟨x, d, hx, hlacks, rfl, rfl⟩
    · rintro ⟨y, e, hy, hlacks', rfl, rfl⟩
      cases eq_of_reached hy hx hlacks'.missing hlacks.missing
      have hsame := hlacks'.type.symm.trans hlacks.type
      cases hsame
      have hname := hlacks'.named.symm.trans hlacks.named
      cases hname
      rfl
  case answered => exact .inr (.inr ⟨_, _, _, rfl⟩)

theorem ancestryIs_of_kindred (hs : Kindred s.types) (hd : s.types.get? type = some d)
    (hk : d.kind ≠ .define) (hc : s.scopes.get? scope = some c) :
    AncestryIs s.types c.space type d.kind ((ancestry type (some scope)).run s).1 := by
  obtain ⟨l, t, hrun, hlooked, hl⟩ | ⟨f, t, hrun, hf⟩ := ancestry_listed hs hd hk hc
  · rw [hrun]
    obtain ⟨hleads, hnone⟩ := leads_of_ancestry hl c.space
    rw [hlooked.parents] at hleads
    refine .of_leads hleads fun x hx e parent hlacks => ?_
    -- what lacked its parent at first would lack it still
    obtain ⟨known, he, -⟩ := hlooked.since.kept x e hlacks.type
    exact hnone x hx _ parent ⟨he, hlacks.named, by rw [hlooked.parents]; exact hlacks.missing⟩
  · rw [hrun]
    cases hf with
    | closes hway hlink hmem hnames => exact .of_closes hway hlink hmem hnames
    | lacks hx hlacks => exact .of_lacks hx hlacks

/-- The parents of the nearest parent are the others. -/
theorem ancestry_head (hs : Kindred s.types) (hd : s.types.get? type = some d)
    (hk : d.kind ≠ .define) (hc : s.scopes.get? scope = some c)
    (h : ((ancestry type (some scope)).run s).1 = .ok (p :: rest)) :
    ((ancestry p (some scope)).run s).1 = .ok rest := by
  have hanswer := ancestryIs_of_kindred hs hd hk hc
  obtain ⟨hleads, -⟩ := hanswer.list _ h
  cases hleads with
  | link hp hrest =>
    obtain ⟨e, he, hek⟩ := hs.of_parentFrom hp
    have hparent := ancestryIs_of_kindred hs he hek hc
    obtain ⟨m, hm⟩ := hparent.listed.mpr fun x hx => hanswer.listed.mp ⟨_, h⟩ x (.head hp hx)
    rw [hm, (hparent.list m hm).1.unique hrest]

/-- What is known in a state of a compilation is listed alike in every later state. -/
theorem run_ancestry_later {rounds : ℕ} {host : Host} {settings : Settings}
    (hr : ∀ d ∈ types.types, d.resolved = none) {before after : List State}
    (hstates : states rounds types host settings = before ++ s :: after)
    (hl : s.types.Ancestry type l) (hu : u ∈ s :: after) (place : Option ScopeId) :
    (ancestry type place).run u = (.ok l, u) := by
  have hpairwise : (states rounds types host settings).Pairwise
      fun s t => s.types.Remembers t.types :=
    (states_keep (kindred_of_unresolved hr)).2
  rw [hstates, List.pairwise_append, List.pairwise_cons] at hpairwise
  refine run_ancestry_of_known place ?_
  rcases List.mem_cons.mp hu with rfl | hu
  · exact hl
  · exact hl.of_remembers (hpairwise.2.1.1 u hu)

/-- Looking up the parents of a class or node always comes to an end. In every state whose known
parents are classes and nodes, the answer is what following the parents leads to, as they are seen
from the scope, and the nearest parent has the others as its own. All states of a compilation are
such, and once it has listed the parents, it lists the same ones in every later state, for every
scope and for none, and changes nothing any more. -/
theorem ancestry_exact (rounds : ℕ) {types : Registry} (host : Host) (settings : Settings)
    (hr : ∀ d ∈ types.types, d.resolved = none) :
    (∀ s : State, Kindred s.types → ∀ type d, s.types.get? type = some d → d.kind ≠ .define →
      ∀ scope c, s.scopes.get? scope = some c →
        AncestryIs s.types c.space type d.kind ((ancestry type (some scope)).run s).1 ∧
        ∀ p rest, ((ancestry type (some scope)).run s).1 = .ok (p :: rest) →
          ((ancestry p (some scope)).run s).1 = .ok rest) ∧
    (∀ s ∈ states rounds types host settings, Kindred s.types) ∧
    ∀ before s after, states rounds types host settings = before ++ s :: after →
      ∀ earlier type place l, (ancestry type place).run earlier = (.ok l, s) →
        ∀ u ∈ s :: after, ∀ place',
          (ancestry type place').run u = (.ok l, u) ∧
          ∀ p rest, l = p :: rest → (ancestry p place').run u = (.ok rest, u) := by
  refine ⟨fun s hs type d hd hk scope c hc => ⟨ancestryIs_of_kindred hs hd hk hc,
    fun p rest h => ancestry_head hs hd hk hc h⟩,
    (states_keep (kindred_of_unresolved hr)).1, ?_⟩
  intro before s after hstates earlier type place l hrun u hu place'
  have hl := ancestry_known hrun
  refine ⟨run_ancestry_later hr hstates hl hu place', ?_⟩
  rintro p rest rfl
  cases hl with
  | child _ _ _ hrest => exact run_ancestry_later hr hstates hrest hu place'

/-- Three generations of classes, a class that leads into a ring, and one whose parent is
missing. -/
def generations : Registry where
  environment := "production"
  types := [
    { Descriptor.ofName .hostclass "" with body := some (.code (.includes ["web"])) },
    .ofName .hostclass "base",
    (Descriptor.ofName .hostclass "site").withParent "base",
    (Descriptor.ofName .hostclass "web").withParent "site",
    (Descriptor.ofName .hostclass "left").withParent "right",
    (Descriptor.ofName .hostclass "right").withParent "left",
    (Descriptor.ofName .hostclass "tail").withParent "left",
    (Descriptor.ofName .hostclass "lost").withParent "nowhere"]

/-- The ring and the missing parent are reported from the start. The parents of `web` are listed
once it has been included, for no scope, too. -/
theorem ancestry_exact_generations :
    (∀ d ∈ generations.types, d.resolved = none) ∧ Kindred generations ∧
    (∃ names, ((ancestry 6 (some Scopes.top)).run (.initial generations { given := "web01" })).1 =
      .error (.error (.parentCycle .hostclass names))) ∧
    ((ancestry 7 (some Scopes.top)).run (.initial generations { given := "web01" })).1 =
      .error (.error (.unresolvableParent .hostclass "lost" "nowhere")) ∧
    ∃ before s after, states 2 generations { given := "web01" } {} = before ++ s :: after ∧
      ∀ u ∈ s :: after, (ancestry 3 none).run u = (.ok [2, 1], u) := by
  have hunresolved : ∀ d ∈ generations.types, d.resolved = none := by
    simp only [generations, List.forall_mem_cons, List.not_mem_nil, false_imp_iff, implies_true,
      and_true]
    exact ⟨rfl, rfl, rfl, rfl, rfl, rfl, rfl, rfl⟩
  have hkindred : Kindred generations := kindred_of_unresolved hunresolved
  obtain ⟨hanswers, -, hlater⟩ := ancestry_exact 2 { given := "web01" } {} hunresolved
  have hlink : ∀ t p, parentFrom generations "" t = some p →
      Linked (parentFrom generations "") t p :=
    fun _ _ h => h
  have hring : OnRing generations "" 4 :=
    .head (hlink 4 5 (by decide +kernel)) (.single (hlink 5 4 (by decide +kernel)))
  have htail := (hanswers (.initial generations { given := "web01" }) hkindred 6 _ rfl nofun
    Scopes.top _ rfl).1
  have hlost := (hanswers (.initial generations { given := "web01" }) hkindred 7 _ rfl nofun
    Scopes.top _ rfl).1
  refine ⟨hunresolved, hkindred, ?_, ?_, ?_⟩
  · exact htail.ring.mpr ⟨4, .single (hlink 6 4 (by decide +kernel)), hring⟩
  · refine (hlost.lacks _ _ _).mpr ⟨7, _, .refl, ⟨rfl, ?_, ?_⟩, rfl, ?_⟩ <;> decide +kernel
  · have hany : (states 2 generations { given := "web01" } {}).any (fun s =>
        (s.types.get? 3).any (fun d => d.parent.isSome && d.resolved = some 2) &&
        (s.types.get? 2).any (fun d => d.parent.isSome && d.resolved = some 1) &&
        (s.types.get? 1).any (fun d => d.parent = none)) = true := by
      decide +kernel
    obtain ⟨s, hs, hx⟩ := List.any_eq_true.mp hany
    simp only [Bool.and_eq_true, Option.any_eq_true, decide_eq_true_eq] at hx
    obtain ⟨⟨⟨d₃, hd₃, hn₃, hp₃⟩, d₂, hd₂, hn₂, hp₂⟩, d₁, hd₁, hn₁⟩ := hx
    have hl : s.types.Ancestry 3 [2, 1] := .child hd₃ hn₃ hp₃ (.child hd₂ hn₂ hp₂ (.root hd₁ hn₁))
    obtain ⟨before, after, hstates⟩ := List.append_of_mem hs
    exact ⟨before, s, after, hstates, fun u hu =>
      (hlater before s after hstates s 3 none [2, 1] (run_ancestry_of_known none hl) u hu none).1⟩

end SiteCatalog.Compilation
