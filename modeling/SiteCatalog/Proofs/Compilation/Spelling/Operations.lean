import SiteCatalog.Proofs.Compilation.Spelling.States

/-!
# Two compilations step by step

`S.Mirrors F p q W` says that from related states the runs `p` and `q` end with results that `W`
relates, in related states, or fail for the same reason.

Results:
* `Mirrors.ensure`, `Mirrors.includeClass`: classes are entered in both compilations, with the
  default that is spelled out or without it.
* `Mirrors.lookupVariable`: variables have values that pass for each other.
* `Mirrors.evaluate`, `Mirrors.runBody`: code that spells out the default does what it did before.
-/

namespace SiteCatalog.Compilation

/-! ## Looking variables up -/

/-- Two results agree: both are errors, and the same, or `V` relates them. -/
def Agree {ε α β : Type} (V : α → β → Prop) : Except ε α → Except ε β → Prop
  | .ok a, .ok b => V a b
  | .error f, .error f' => f = f'
  | _, _ => False

namespace Agree

variable {ε α α' β β' : Type} {V : α → α' → Prop} {W : β → β' → Prop} {x : Except ε α}
  {x' : Except ε α'}

/-- Results agree if what they are computed from agrees. -/
theorem bind {f : α → Except ε β} {f' : α' → Except ε β'} (h : Agree V x x')
    (hf : ∀ a a', V a a' → Agree W (f a) (f' a')) : Agree W (x >>= f) (x' >>= f') := by
  cases x with
  | error e =>
    cases x' with
    | error e' => exact h
    | ok a' => exact h.elim
  | ok a =>
    cases x' with
    | error e' => exact h.elim
    | ok a' => exact hf a a' h

/-- Results that agree are equal where related values are not told apart. -/
theorem map_eq {f : α → β} {f' : α' → β} (h : Agree V x x') (hf : ∀ a a', V a a' → f a = f' a') :
    x.map f = x'.map f' := by
  cases x with
  | error e =>
    cases x' with
    | error e' => exact congrArg _ h
    | ok a' => exact h.elim
  | ok a =>
    cases x' with
    | error e' => exact h.elim
    | ok a' => exact congrArg _ (hf a a' h)

end Agree

/-- Runs that change nothing. -/
theorem Run.Alongside.of_agree {α β : Type} {p : Run α} {q : Run β} {s s' : State}
    {x : Except Failure α} {y : Except Failure β} {V : α → β → Prop}
    {Q : α → β → State → State → Prop} (hp : p.run s = (x, s)) (hq : q.run s' = (y, s'))
    (h : Agree V x y) (hQ : ∀ a b, V a b → Q a b s s') : p.Alongside q s s' Q := by
  unfold Run.Alongside
  rw [hp]
  cases x with
  | error f =>
    cases y with
    | error f' => exact ⟨s', hq.trans (congrArg (Except.error · , s') h.symm)⟩
    | ok b => exact h.elim
  | ok a =>
    cases y with
    | error f' => exact h.elim
    | ok b => exact ⟨b, s', hq, hQ a b h⟩

theorem agree_foundValue {V : Value → Value → Prop} (hrefl : ∀ v, V v v) (strict : Bool)
    (name : String) {o o' : Option Value} (h : Option.Rel V o o') :
    Agree V (foundValue strict name o) (foundValue strict name o') := by
  cases h with
  | some hv => exact hv
  | none =>
    cases strict with
    | true => exact rfl
    | false => exact hrefl _

theorem agree_searchedValue {V : Value → Value → Prop} (hrefl : ∀ v, V v v) (strict : Bool)
    (name : String) {o o' : Option (Option Value)} (h : Option.Rel (Option.Rel V) o o') :
    Agree V (searchedValue strict name o) (searchedValue strict name o') := by
  cases h with
  | some hfound => exact agree_foundValue hrefl strict name hfound
  | none => exact rfl

/-- Variables have related values in states where they are looked up alike. -/
theorem agree_variableValue {V : Value → Value → Prop} (hrefl : ∀ v, V v v) (strict : Bool)
    {s s' : State} {scope : ScopeId} {name : String}
    (hplace : variablePlace? s' scope name = variablePlace? s scope name)
    (hscope : ∀ k, (s'.scopes.get? k).isSome = (s.scopes.get? k).isSome)
    (hlookup : ∀ place var, variablePlace? s scope name = some (place, var) →
      Option.Rel (Option.Rel V) (s.scopes.lookup place var) (s'.scopes.lookup place var)) :
    Agree V (variableValue strict s scope name) (variableValue strict s' scope name) := by
  unfold variableValue
  rw [hplace]
  cases hfound : variablePlace? s scope name with
  | none => exact agree_foundValue hrefl strict name .none
  | some found =>
    obtain ⟨place, var⟩ := found
    have hsome := hscope place
    dsimp only
    cases hget : s.scopes.get? place with
    | none =>
      rw [hget, Option.isSome_none, Option.isSome_eq_false_iff, Option.isNone_iff_eq_none] at hsome
      rw [hsome]
      exact rfl
    | some c =>
      rw [hget, Option.isSome_some, Option.isSome_iff_exists] at hsome
      obtain ⟨c', hc'⟩ := hsome
      rw [hc']
      exact agree_searchedValue hrefl strict name (hlookup place var hfound)

/-- In an empty catalog nothing has been entered. -/
theorem run_realized?_of_empty {s : State} {t : TypeId} {d : Descriptor}
    (hd : s.types.get? t = some d) (hkind : d.kind = .hostclass)
    (hempty : s.catalog.resources = []) : (realized? t).run s = (.ok none, s) := by
  have hnone : s.catalog.resource? d.resourceTag d.resourceTitle = none := by
    rw [Catalog.resource?, hempty]
    rfl
  rw [realized?, run_typeAt_bind hd, if_neg (by rw [hkind]; decide), Run.run_get_bind, hnone]
  rfl

namespace Spelling

variable {S : Spelling} {F : Frame} {α β : Type}

/-- What two types in the same place have to do with each other. -/
def TypeLike (S : Spelling) (t : TypeId) (d d' : Descriptor) : Prop :=
  S.added.TypeSpelled d d' ∧
    ∃ d₀ resolved, S.types.withMain.get? t = some d₀ ∧ d = { d₀ with resolved }

namespace Related

variable {s s' : State} (h : S.Related F s s')

include h

/-! ## What is read -/

theorem type (t : TypeId) : Option.Rel (S.TypeLike t) (s.types.get? t) (s'.types.get? t) := by
  have ht : Option.Rel _ (s.types.get? t) (s'.types.get? t) := h.types t
  have horigin : Option.Rel _ (S.types.withMain.get? t) (s.types.get? t) := h.origin t
  generalize s.types.get? t = o, s'.types.get? t = o' at ht horigin
  cases ht with
  | none => exact .none
  | some hd =>
    generalize hget : S.types.withMain.get? t = o₀ at horigin
    cases horigin with
    | some horigin =>
      obtain ⟨resolved, heq⟩ := horigin
      exact .some ⟨hd, _, resolved, hget, heq⟩

section Read

variable {Q : α → β → State → State → Prop}

theorem typeAt_bind {k : Descriptor → Run α} {k' : Descriptor → Run β} (t : TypeId)
    (hk : ∀ d d', S.TypeLike t d d' → (k d).Alongside (k' d') s s' Q) :
    (typeAt t >>= k).Alongside (typeAt t >>= k') s s' Q := by
  show (existing (s.types.get? t) >>= k).Alongside (existing (s'.types.get? t) >>= k') s s' Q
  exact .existing_bind (h.type t) fun d d' _ _ hd => hk d d' hd

theorem scopeAt_bind {k : Scope → Run α} {k' : Scope → Run β} (i : ScopeId)
    (hk : ∀ c c', s.scopes.get? i = some c → s'.scopes.get? i = some c' → S.ScopeLike c c' →
      (k c).Alongside (k' c') s s' Q) :
    (scopeAt i >>= k).Alongside (scopeAt i >>= k') s s' Q := by
  show (existing (s.scopes.get? i) >>= k).Alongside (existing (s'.scopes.get? i) >>= k') s s' Q
  exact .existing_bind (h.scope i) hk

theorem resourceAt_bind {k : Resource → Run α} {k' : Resource → Run β} (id : ResourceId)
    (hk : ∀ r r', s.catalog.get? id = some r → s'.catalog.get? id = some r' →
      S.ResourceLike (F.Prepares id) r r' → (k r).Alongside (k' r') s s' Q) :
    (resourceAt id >>= k).Alongside (resourceAt id >>= k') s s' Q := by
  show (existing (s.catalog.get? id) >>= k).Alongside (existing (s'.catalog.get? id) >>= k') s s' Q
  exact .existing_bind (h.resources id) hk

end Read

theorem variablePlace?_eq (scope : ScopeId) (name : String) :
    variablePlace? s' scope name = variablePlace? s scope name := by
  have hofType : s'.scopes.ofType? = s.scopes.ofType? := by
    funext t
    rw [Scopes.ofType?, Scopes.ofType?, h.ofTypes]
  unfold variablePlace?
  rw [h.foundLike.lookup_eq, hofType]

theorem parentNamed_eq {d d' : Descriptor} (hkind : d'.kind = d.kind) (hname : d'.name = d.name)
    (hspace : d'.space = d.space) (parent space : String) :
    parentNamed s'.types d' parent space = parentNamed s.types d parent space := by
  unfold parentNamed
  rw [hkind, hname, hspace, h.foundLike.lookup_eq, h.foundLike.find_eq]

theorem isSome_scope (k : ScopeId) : (s'.scopes.get? k).isSome = (s.scopes.get? k).isSome := by
  have hk := h.scope k
  generalize s.scopes.get? k = o, s'.scopes.get? k = o' at hk
  cases hk with
  | none => rfl
  | some _ => rfl

theorem lookupLocal (k : ScopeId) (name : String) :
    Option.Rel S.like (s.scopes.lookupLocal k name) (s'.scopes.lookupLocal k name) := by
  have hk := h.scope k
  unfold Scopes.lookupLocal
  generalize s.scopes.get? k = o, s'.scopes.get? k = o' at hk
  cases hk with
  | none => exact .none
  | some hc =>
    obtain ⟨_, rfl, hvars⟩ := hc
    exact hvars.find? name

theorem lookup (k : ScopeId) (name : String) :
    Option.Rel (Option.Rel S.like) (s.scopes.lookup k name) (s'.scopes.lookup k name) :=
  Scopes.lookup_rel (P := fun _ => True) h.arena.length_eq.symm h.parent?_eq (fun _ _ _ _ => trivial)
    (fun i _ => h.lookupLocal i name) trivial

end Related

/-- From related states, `q` does what `p` does, and `W` relates their results. -/
def Mirrors (S : Spelling) (F : Frame) (p : Run α) (q : Run β) (W : α → β → Prop) : Prop :=
  ∀ s s', S.Related F s s' →
    p.Alongside q s s' fun a b t t' => S.Related F t t' ∧ W a b

namespace Mirrors

/-! ## Putting runs together -/

variable {γ δ : Type} {p : Run α} {q : Run β} {W : α → β → Prop} {k : α → Run γ} {k' : β → Run δ}
  {W' : γ → δ → Prop}

theorem pure {a : α} {b : β} (h : W a b) : S.Mirrors F (Pure.pure a) (Pure.pure b) W :=
  fun _ _ hs => .pure ⟨hs, h⟩

theorem stop (f : Failure) : S.Mirrors F (Compilation.stop f) (Compilation.stop f) W :=
  fun _ _ _ => .stop f

theorem bind (hp : S.Mirrors F p q W) (hk : ∀ a b, W a b → S.Mirrors F (k a) (k' b) W') :
    S.Mirrors F (p >>= k) (q >>= k') W' :=
  fun s s' hs => (hp s s' hs).bind fun a b t t' ⟨ht, hW⟩ => hk a b hW t t' ht

theorem get_bind {k : State → Run γ} {k' : State → Run δ}
    (hk : ∀ s s', S.Related F s s' → S.Mirrors F (k s) (k' s') W') :
    S.Mirrors F (get >>= k) (get >>= k') W' :=
  fun s s' hs => .get_bind (hk s s' hs s s' hs)

theorem update {f f' : State → State}
    (h : ∀ s s', S.Related F s s' → S.Related F (f s) (f' s')) :
    S.Mirrors F (Compilation.update f) (Compilation.update f') fun _ _ => True :=
  fun s s' hs => .update ⟨h s s' hs, trivial⟩

theorem follow {c c' : Call} (hp : S.Mirrors F p q W) :
    S.Mirrors F (Compilation.follow c p) (Compilation.follow c' q) W :=
  fun s s' hs => .follow (hp s s' hs)

theorem existing {o : Option α} {o' : Option β} (h : Option.Rel W o o') :
    S.Mirrors F (Compilation.existing o) (Compilation.existing o') W := by
  cases h with
  | none => exact .stop _
  | some hW => exact .pure hW

theorem ofExcept {x x' : Except CompileError α} (h : x' = x) :
    S.Mirrors F (Compilation.ofExcept x) (Compilation.ofExcept x') Eq := by
  subst h
  cases x' with
  | error e => exact .stop _
  | ok a => exact .pure rfl

/-! ## Single steps -/

theorem typeAt (t : TypeId) :
    S.Mirrors F (Compilation.typeAt t) (Compilation.typeAt t) (S.TypeLike t) :=
  .get_bind fun _ _ hs => .existing (hs.type t)

theorem scopeAt (k : ScopeId) :
    S.Mirrors F (Compilation.scopeAt k) (Compilation.scopeAt k)
      fun c c' => S.ScopeLike c c' ∧ ∀ space, (k, space) ∈ F.spaces → c.space = space := by
  refine .get_bind fun s s' hs => .existing ?_
  have hk := hs.scope k
  have hknown : ∀ c, s.scopes.get? k = some c → ∀ space, (k, space) ∈ F.spaces →
      c.space = space := by
    intro c hc space hspace
    obtain ⟨q, hq, hsame⟩ := hs.fits.spaces _ hspace
    cases hc.symm.trans hq
    exact hsame
  generalize s.scopes.get? k = o, s'.scopes.get? k = o' at hk hknown
  cases hk with
  | none => exact .none
  | some hc => exact .some ⟨hc, hknown _ rfl⟩

theorem resourceAt (id : ResourceId) :
    S.Mirrors F (Compilation.resourceAt id) (Compilation.resourceAt id)
      (S.ResourceLike (F.Prepares id)) :=
  .get_bind fun _ _ hs => .existing (hs.resources id)

theorem modifyLists {f : Catalog → Catalog}
    (hf : ∀ c resources, f { c with resources } = { f c with resources }) :
    S.Mirrors F (Compilation.modifyCatalog f) (Compilation.modifyCatalog f) fun _ _ => True :=
  .update fun _ _ hs => hs.modifyLists hf

theorem bindVariable (scope : ScopeId) (name : String) {v v' : Value} (hv : S.like v v') :
    S.Mirrors F (Compilation.bind scope name v) (Compilation.bind scope name v')
      fun _ _ => True :=
  .bind (.scopeAt scope) fun _ _ _ => .update fun _ _ hs => hs.bind scope name hv

theorem assign (scope : ScopeId) (name : String) {v v' : Value} (hv : S.like v v') :
    S.Mirrors F (Compilation.assign scope name v) (Compilation.assign scope name v')
      fun _ _ => True := by
  refine .bind (.scopeAt scope) fun _ _ _ s s' hs => .get_bind ?_
  have hlocal := hs.lookupLocal scope name
  unfold Scopes.assign
  generalize s.scopes.lookupLocal scope name = o, s'.scopes.lookupLocal scope name = o' at hlocal
  cases hlocal with
  | some _ => exact .stop _
  | none => exact .update ⟨hs.bind scope name hv, trivial⟩

/-- A resource is added unless one of its identity exists. -/
theorem addResource_alongside {r r' : Resource} (hshape : r' = { r with params := r'.params })
    (hnew : r.evaluated = false) (hscope : F.Places r.scope)
    (hr : ¬(F.entered = true ∧ r.identity = Frame.mainIdentity) → S.Raw r r' ∧
      ∀ t d, r.source = some t → S.types.withMain.get? t = some d → d.kind = .hostclass →
        r.title = d.resourceTitle ∧ (r.title = mainTitle → r.scope = Scopes.top))
    {s s' : State} (hs : S.Related F s s') :
    (Compilation.addResource r).Alongside (Compilation.addResource r') s s' fun a b t t' =>
      a = b ∧ S.Related F t t' ∧ r ∈ t.catalog.resources := by
  refine .get_bind ?_
  have hidentity : r'.identity = r.identity := by rw [hshape]; rfl
  have hreference : r'.reference = r.reference := by rw [hshape]; rfl
  have hmap := hs.resources.map_eq (f := Resource.identity) (g := Resource.identity)
    fun _ _ _ hq => by rw [hq.shape]; rfl
  have hany : ∀ c : Catalog, (c.resources.any fun q => q.identity = r.identity) = true ↔
      r.identity ∈ c.resources.map Resource.identity := by
    intro c
    rw [List.any_eq_true, List.mem_map]
    simp only [decide_eq_true_eq]
  have htaken : (s'.catalog.resources.any fun q => q.identity = r'.identity) =
      s.catalog.resources.any fun q => q.identity = r.identity := by
    rw [hidentity, Bool.eq_iff_iff, hany, hany, hmap]
  unfold Catalog.add
  rw [htaken, hreference]
  by_cases hfound : (s.catalog.resources.any fun q => q.identity = r.identity) = true
  · rw [if_pos hfound, if_pos hfound]
    exact .stop _
  · rw [if_neg hfound, if_neg hfound]
    obtain ⟨hraw, hsingleton⟩ := hr fun ⟨hentered, hmain⟩ => by
      obtain ⟨q, hq, hqmain⟩ := hs.fits.entered hentered
      exact hfound (List.any_eq_true.mpr ⟨q, hq, decide_eq_true (hqmain.trans hmain.symm)⟩)
    show (Compilation.modifyCatalog (fun _ => s.catalog.append r) >>= fun _ =>
        Pure.pure s.catalog.resources.length : Run ResourceId).Alongside
      (Compilation.modifyCatalog (fun _ => s'.catalog.append r') >>= fun _ =>
        Pure.pure s'.catalog.resources.length) s s' _
    refine .bind (.update (P := fun _ _ t t' => S.Related F t t' ∧ r ∈ t.catalog.resources) ?_)
      fun _ _ t t' ht => .pure ⟨hs.resources.length_eq, ht⟩
    refine ⟨hs.append hshape hnew hraw (hs.fits.visible hscope) hsingleton, ?_⟩
    exact List.mem_append_right _ List.mem_cons_self

theorem addResource {r r' : Resource} (hshape : r' = { r with params := r'.params })
    (hnew : r.evaluated = false) (hscope : F.Places r.scope)
    (hr : ¬(F.entered = true ∧ r.identity = Frame.mainIdentity) → S.Raw r r' ∧
      ∀ t d, r.source = some t → S.types.withMain.get? t = some d → d.kind = .hostclass →
        r.title = d.resourceTitle ∧ (r.title = mainTitle → r.scope = Scopes.top)) :
    S.Mirrors F (Compilation.addResource r) (Compilation.addResource r') Eq :=
  fun _ _ hs => (addResource_alongside hshape hnew hscope hr hs).mono
    fun _ _ _ _ h => ⟨h.2.1, h.1⟩

/-! ## Parents -/

theorem resolveParent (t : TypeId) (place : Option ScopeId) :
    S.Mirrors F (resolveParent t place) (resolveParent t place) Eq := by
  refine .bind (.typeAt t) ?_
  rintro d _ ⟨⟨body, rfl, -⟩, -⟩
  dsimp only
  cases d.parent with
  | none => exact .pure rfl
  | some parent =>
    cases d.resolved with
    | some known => exact .pure rfl
    | none =>
      cases place with
      | none => exact .stop _
      | some place =>
        refine .bind (.scopeAt place) ?_
        rintro c _ ⟨⟨vars, rfl, -⟩, -⟩
        refine .get_bind fun s s' hs =>
          .bind (.ofExcept (hs.parentNamed_eq rfl rfl rfl parent c.space)) ?_
        rintro found _ rfl
        cases found with
        | none => exact .stop _
        | some p => exact .bind (.update fun _ _ hu => hu.cache t p) fun _ _ _ => .pure rfl

theorem namesOf : ∀ types : List TypeId, S.Mirrors F (namesOf types) (namesOf types) Eq
  | [] => .pure rfl
  | t :: rest => by
    refine .bind (.typeAt t) ?_
    rintro d _ ⟨⟨body, rfl, -⟩, -⟩
    refine .bind (namesOf rest) ?_
    rintro names _ rfl
    exact .pure rfl

theorem climb (place : Option ScopeId) (kind : Kind) : ∀ (fuel : ℕ) (chain : List TypeId)
    (last : TypeId), S.Mirrors F (climb place kind fuel chain last)
      (climb place kind fuel chain last) Eq := by
  intro fuel
  induction fuel with
  | zero => exact fun _ _ => .stop _
  | succ fuel ih =>
    intro chain last
    refine .bind (.resolveParent last place) ?_
    rintro p _ rfl
    cases p with
    | none => exact .pure rfl
    | some p =>
      dsimp only
      split
      · refine .bind (.namesOf _) ?_
        rintro names _ rfl
        exact .stop _
      · exact ih _ p

theorem ancestry (t : TypeId) (place : Option ScopeId) :
    S.Mirrors F (ancestry t place) (ancestry t place) Eq := by
  refine .bind (.typeAt t) ?_
  rintro d _ ⟨⟨body, rfl, -⟩, -⟩
  refine .get_bind fun s s' hs => ?_
  rw [hs.types.length_eq]
  refine .bind (.climb place d.kind _ [t] t) ?_
  rintro l _ rfl
  exact .pure rfl

/-! ## Entering classes and nodes -/

theorem realized? (t : TypeId) : S.Mirrors F (realized? t) (realized? t) Eq := by
  refine .bind (.typeAt t) ?_
  rintro d _ ⟨⟨body, rfl, -⟩, -⟩
  show S.Mirrors F (if d.kind = .define then _ else _) (if d.kind = .define then _ else _) Eq
  split
  · exact .stop _
  · refine .get_bind fun s s' hs => ?_
    have hsame : s.catalog.resource? (Descriptor.resourceTag { d with body })
        (Descriptor.resourceTitle { d with body }) =
          s.catalog.resource? d.resourceTag d.resourceTitle := rfl
    rw [hs.resource?_eq, hsame]
    split
    · exact .pure rfl
    · next id _ =>
      refine .bind (.resourceAt id) fun r r' hr => ?_
      rw [hr.shape]
      show S.Mirrors F (if r.source = some t then _ else _) (if r.source = some t then _ else _) Eq
      split
      · exact .pure rfl
      · exact .stop _

/-- The parameters of a declaration are the same, or the default is passed to its type in addition.
-/
def Passes (S : Spelling) (F : Frame) (t : Option TypeId) (params params' : Table Value) : Prop :=
  S.Same params params' ∨
    F.entered = true ∧ t = some S.added.type ∧ S.Added params params'

theorem identity_class (title : String) (scope : ScopeId) (source : Option TypeId)
    (params : Table Value) : (Resource.ofType "Class" title scope source params).identity =
      Identity.of "Class" title := by
  have htag : Name.tag (Name.tag "Class") = Name.tag "Class" := by decide
  show Identity.of (Name.tag "Class") title = Identity.of "Class" title
  rw [Identity.of, Identity.of, htag]

theorem addSingleton {scope : ScopeId} (hF : F.Places scope) (t : TypeId)
    (ancestors : List TypeId) {params params' : Table Value}
    (hparams : Passes S F (some t) params params') :
    S.Mirrors F (addSingleton scope t ancestors params) (addSingleton scope t ancestors params')
      Eq := by
  refine .bind (.typeAt t) ?_
  rintro d _ ⟨⟨body, rfl, -⟩, d₀, resolved, hd₀, rfl⟩
  have hmain : d₀.kind = .hostclass → d₀.resourceTitle = mainTitle →
      (Resource.ofType d₀.resourceTag d₀.resourceTitle scope (some t) params).identity =
        Frame.mainIdentity := by
    intro hkind htitle
    rw [Descriptor.resourceTag, hkind, identity_class, htitle]
    rfl
  refine .bind (.addResource rfl rfl hF fun hfree => ⟨?_, ?_⟩) ?_
  · rcases hparams with hsame | ⟨hentered, htype, hadded⟩
    · exact .inl hsame
    · cases htype
      cases hd₀.symm.trans (Registry.get?_withMain S.added.known)
      exact .inr ⟨hadded, rfl, fun ⟨hkind, htitle⟩ =>
        hfree ⟨hentered, hmain hkind htitle⟩⟩
  · rintro u e hu he hkind
    cases hu
    cases hd₀.symm.trans he
    refine ⟨rfl, fun htitle => hF.main.resolve_left fun hentered => ?_⟩
    exact hfree ⟨hentered, hmain hkind htitle⟩
  · rintro id _ rfl
    refine .bind (.namesOf ancestors) ?_
    rintro names _ rfl
    exact .bind (.modifyLists fun _ _ => rfl) fun _ _ _ => .pure rfl

theorem realizeChain {scope : ScopeId} (hF : F.Places scope) : ∀ types : List TypeId,
    S.Mirrors F (realizeChain scope types) (realizeChain scope types) fun _ _ => True
  | [] => .pure trivial
  | t :: ancestors => by
    refine .bind (.realized? t) ?_
    rintro found _ rfl
    cases found with
    | some id => exact .pure trivial
    | none =>
      refine .bind (realizeChain hF ancestors) fun _ _ _ => ?_
      exact .bind (.addSingleton hF t ancestors (.inl .nil)) fun _ _ _ => .pure trivial

theorem ensure {scope : ScopeId} (hF : F.Places scope) (t : TypeId) {params params' : Table Value}
    (hparams : Passes S F (some t) params params') :
    S.Mirrors F (ensure t scope params) (ensure t scope params') Eq := by
  refine .bind (.realized? t) ?_
  rintro found _ rfl
  cases found with
  | some id => exact .pure rfl
  | none =>
    refine .bind (.ancestry t (some scope)) ?_
    rintro ancestors _ rfl
    exact .bind (.realizeChain hF ancestors) fun _ _ _ => .addSingleton hF t ancestors hparams

/-- The resource of the unnamed class exists from then on. -/
theorem addSingleton_main {t : TypeId} {d : Descriptor} (hd : S.types.withMain.get? t = some d)
    (hmain : d.IsMain) (htop : F.Places Scopes.top) (ancestors : List TypeId) {s s' : State}
    (hs : S.Related F s s') :
    (Compilation.addSingleton Scopes.top t ancestors []).Alongside
      (Compilation.addSingleton Scopes.top t ancestors []) s s' fun a b u u' =>
      S.Related F.enter u u' ∧ a = b := by
  refine hs.typeAt_bind t ?_
  rintro e _ ⟨⟨body, rfl, -⟩, d₀, resolved, hd₀, rfl⟩
  cases hd.symm.trans hd₀
  have htitle : d.resourceTitle = mainTitle := Descriptor.resourceTitle_of_isMain hmain
  have htag : d.resourceTag = "Class" := by rw [Descriptor.resourceTag, hmain.1]
  refine (addResource_alongside rfl rfl htop (fun _ => ⟨?_, ?_⟩) hs).bind ?_
  · exact .inl .nil
  · rintro u f hu hf -
    cases hu
    cases hd.symm.trans hf
    exact ⟨rfl, fun _ => rfl⟩
  · rintro id _ u u' ⟨rfl, hu, hmem⟩
    have hentered : S.Related F.enter u u' := by
      refine hu.enter ⟨_, hmem, ?_⟩
      show (Resource.ofType d.resourceTag d.resourceTitle Scopes.top (some t) []).identity = _
      rw [htag, identity_class, htitle]
      rfl
    have hrest : S.Mirrors F.enter (do
        let names ← Compilation.namesOf ancestors
        modifyCatalog (·.tag (d.resourceTitle :: names))
        return id : Run ResourceId) (do
        let names ← Compilation.namesOf ancestors
        modifyCatalog (·.tag (d.resourceTitle :: names))
        return id : Run ResourceId) Eq := by
      refine .bind (.namesOf ancestors) ?_
      rintro names _ rfl
      exact .bind (.modifyLists fun _ _ => rfl) fun _ _ _ => .pure rfl
    exact hrest u u' hentered

/-- The unnamed class is entered first of all. -/
theorem ensure_main {t : TypeId} {d : Descriptor} (hd : S.types.withMain.get? t = some d)
    (hmain : d.IsMain) (htop : F.Places Scopes.top) {s s' : State} (hs : S.Related F s s')
    (hempty : s.catalog.resources = []) :
    (Compilation.ensure t Scopes.top []).Alongside (Compilation.ensure t Scopes.top []) s s'
      fun a b u u' => S.Related F.enter u u' ∧ a = b := by
  have hempty' : s'.catalog.resources = [] := by
    rw [← List.length_eq_zero_iff, ← hs.resources.length_eq, hempty]
    rfl
  obtain ⟨e, e', he, he', hkind, hkind'⟩ : ∃ e e', s.types.get? t = some e ∧
      s'.types.get? t = some e' ∧ e.kind = .hostclass ∧ e'.kind = .hostclass := by
    have horigin : Option.Rel _ (S.types.withMain.get? t) (s.types.get? t) := hs.origin t
    have htype := hs.type t
    rw [hd] at horigin
    generalize s.types.get? t = o, s'.types.get? t = o' at horigin htype
    cases horigin with
    | some hknown =>
      obtain ⟨resolved, rfl⟩ := hknown
      cases htype with
      | some hlike =>
        obtain ⟨⟨body, rfl, -⟩, -⟩ := hlike
        exact ⟨_, _, rfl, rfl, hmain.1, hmain.1⟩
  refine .bind_left (run_realized?_of_empty he hkind hempty)
    (.bind_right (run_realized?_of_empty he' hkind' hempty') ?_)
  refine (Mirrors.ancestry t (some Scopes.top) s s' hs).bind ?_
  rintro ancestors _ u u' ⟨hu, rfl⟩
  refine (Mirrors.realizeChain htop ancestors u u' hu).bind fun _ _ v v' hv => ?_
  exact addSingleton_main hd hmain htop ancestors hv.1

/-! ## Variables -/

theorem lookupVariable (scope : ScopeId) (name : String) :
    S.Mirrors F (lookupVariable S.strict scope name) (lookupVariable S.strict scope name)
      S.like := by
  intro s s' hs
  refine .of_agree (run_lookupVariable ..) (run_lookupVariable ..) ?_ fun _ _ hv => ⟨hs, hv⟩
  exact agree_variableValue S.likeness.refl S.strict (hs.variablePlace?_eq scope name)
    hs.isSome_scope fun place var _ => hs.lookup place var

end Mirrors

end Spelling

end SiteCatalog.Compilation
