import SiteCatalog.Proofs.Compilation.Bodies
import SiteCatalog.Proofs.Compilation.Evaluation
import SiteCatalog.Proofs.Compilation.Spelling.Binding

/-!
# The evaluation of a resource in two compilations

A resource is evaluated in a scope of its own, to which nothing refers until its parameters are
bound. The resource of the unnamed class is evaluated at the top, and the default is not passed to
it.

Results:
* `codeMirrors_enter`: running the code of a type, where nested runs do the same.
* `codeMirrors_runCode`: running the code of a type.
-/

namespace SiteCatalog.Compilation.Spelling

variable {S : Spelling} {F G : Frame} {code code' : Code} {scope : ScopeId} {space : String}
  {d d' : Descriptor} {e : Preparation} {s s' : State}

/-- A scope that nothing refers to yet is added. -/
theorem Related.newScope (h : S.Related (F.prepare e) s s') {c : Scope}
    (hparent : ∀ p, c.parent = some p → F.Visible s p) :
    (newScope c).Alongside (newScope c) s s' fun k k' t t' =>
      k' = k ∧ k = s.scopes.arena.length ∧ S.Related ((F.know k c.space).before e [k]) t t' :=
  .get_bind (.bind (.update (P := fun _ _ t t' =>
      S.Related ((F.know s.scopes.arena.length c.space).before e [s.scopes.arena.length]) t t')
      (h.push rfl hparent))
    fun _ _ _ _ ht => .pure ⟨h.arena.length_eq.symm, rfl, ht⟩)

namespace Mirrors

theorem runOptional (hcode : CodeMirrors S code code') (htop : F.Sees Scopes.top "")
    (hF : F.Sees scope space) {t : TypeId} {id : ResourceId} {b b' : Option Body}
    (h : Option.Rel (BodySpelled S.added space) b b') :
    S.Mirrors F (runOptional S.strict code t id scope b) (runOptional S.strict code' t id scope b')
      fun _ _ => True := by
  cases h with
  | none => exact .pure trivial
  | some h => exact .runBody hcode htop hF _ h

theorem evaluateParent (hcode : CodeMirrors S code code') (htop : F.Sees Scopes.top "")
    (t : TypeId) {enclosing : ScopeId} (hplaces : F.Places enclosing) (scope : ScopeId) :
    S.Mirrors F (evaluateParent code t enclosing scope) (evaluateParent code' t enclosing scope)
      fun _ _ => True := by
  refine .bind (.ancestry t (some scope)) ?_
  rintro chain _ rfl
  cases chain with
  | nil => exact .pure trivial
  | cons parent rest =>
    refine .bind (.ensure hplaces parent (.inl .nil)) ?_
    rintro id _ rfl
    refine .bind (.evaluateResource hcode htop id) fun _ _ _ s s' hs => .get_bind ?_
    have hofType : s'.scopes.ofType? parent = s.scopes.ofType? parent := by
      rw [Scopes.ofType?, Scopes.ofType?, hs.ofTypes]
    rw [hofType]
    cases hclass : s.scopes.ofType? parent with
    | none => exact .pure ⟨hs, trivial⟩
    | some above =>
      obtain ⟨a, b, hentries, -⟩ := List.lookup_eq_some_iff.mp hclass
      have hvisible := hs.fits.classes (parent, above) (by simp [hentries])
      exact hs.scopeAt_bind scope fun _ _ _ _ _ => .update ⟨hs.setParent scope hvisible, trivial⟩

end Mirrors

/-- The parameters are bound and the body runs, in a scope to which nothing refers yet unless it
belongs to the unnamed class. -/
theorem runInScope_alongside {hidden : List ScopeId} (hcode : CodeMirrors S code code')
    (htop : G.Sees Scopes.top "") (hnot : Scopes.top ∉ hidden) (hG : G.Sees scope d.bodySpace)
    (hfree : ¬G.Prepares e.id)
    (hown : scope ∈ hidden ∨ (e.type = S.added.type →
      S.added.descriptor.kind = .hostclass ∧ e.title = mainTitle))
    (hd : S.added.TypeSpelled d d') (h : S.Related (G.before e hidden) s s') :
    (runInScope S.strict code e.type d e.id scope).Alongside
      (runInScope S.strict code' e.type d' e.id scope) s s'
      fun _ _ t t' => S.Related (G.begin e.id) t t' := by
  have htop' : (G.begin e.id).Sees Scopes.top "" := ⟨htop.known, htop.notHidden, htop.entered⟩
  have hG' : (G.begin e.id).Sees scope d.bodySpace := ⟨hG.known, hG.notHidden, hG.entered⟩
  obtain ⟨body, rfl, hbody⟩ := hd
  have hrun : S.Mirrors (G.begin e.id)
      (follow (.body e.type e.id scope) (runOptional S.strict code e.type e.id scope d.body))
      (follow (.body e.type e.id scope) (runOptional S.strict code' e.type e.id scope body))
      fun _ _ => True := .follow (.runOptional hcode htop' hG' hbody)
  have hrecord : S.Mirrors (G.begin e.id) (modifyScopes (·.setOfType e.type scope))
      (modifyScopes (·.setOfType e.type scope)) fun _ _ => True :=
    .update fun _ _ hs => hs.setOfType e.type (hs.fits.visible hG'.places)
  refine (bindParameters_alongside hcode htop hnot hG hfree hown h).bind fun _ _ u u' hu => ?_
  dsimp only
  split
  · exact ((hrecord.bind fun _ _ _ => hrun) u u' hu).mono fun _ _ _ _ ht => ht.1
  · exact (hrun u u' hu).mono fun _ _ _ _ ht => ht.1

/-- In the scope where a resource is evaluated: the parent first, then the type itself. -/
theorem runBelow_alongside {hidden : List ScopeId} {enclosing : ScopeId}
    (hcode : CodeMirrors S code code')
    (htop : G.Sees Scopes.top "") (hnot : Scopes.top ∉ hidden) (hG : G.Sees scope d.bodySpace)
    (hplaces : (G.before e hidden).Places enclosing) (hfree : ¬G.Prepares e.id)
    (hown : scope ∈ hidden ∨ (e.type = S.added.type →
      S.added.descriptor.kind = .hostclass ∧ e.title = mainTitle))
    (hd : S.added.TypeSpelled d d') (h : S.Related (G.before e hidden) s s') :
    (do
      if d.parent.isSome ∧ d.kind ≠ .define then evaluateParent code e.type enclosing scope
      runInScope S.strict code e.type d e.id scope : Run Unit).Alongside
    (do
      if d'.parent.isSome ∧ d'.kind ≠ .define then evaluateParent code' e.type enclosing scope
      runInScope S.strict code' e.type d' e.id scope : Run Unit) s s'
      fun _ _ t t' => S.Related (G.begin e.id) t t' := by
  have htop' : (G.before e hidden).Sees Scopes.top "" :=
    ⟨htop.known, List.mem_append.not.mpr (not_or.mpr ⟨hnot, htop.notHidden⟩), htop.entered⟩
  have hrun : ∀ u u', S.Related (G.before e hidden) u u' →
      (runInScope S.strict code e.type d e.id scope).Alongside
        (runInScope S.strict code' e.type d' e.id scope) u u'
        fun _ _ t t' => S.Related (G.begin e.id) t t' := fun _ _ hu =>
    runInScope_alongside hcode htop hnot hG hfree hown hd hu
  obtain ⟨body, rfl, -⟩ := hd
  dsimp only
  split
  · exact (Mirrors.evaluateParent hcode htop' e.type hplaces scope s s' h).bind
      fun _ _ u u' hu => hrun u u' hu.1
  · exact hrun s s' h

/-- The unnamed class is evaluated where it was declared, at the top. -/
theorem enterMain_alongside {r : Resource} {params' : Table Value}
    (hcode : CodeMirrors S code code') (htop : F.Sees Scopes.top "") (hfree : ¬F.Prepares e.id)
    (hscope : r.scope = Scopes.top) (hkind : d.kind = .hostclass) (htitle : r.title = mainTitle)
    (hmain : d.resourceTitle = mainTitle)
    (hown : e.type = S.added.type → S.added.descriptor.kind = .hostclass ∧ e.title = mainTitle)
    (hd : S.added.TypeSpelled d d') (h : S.Related (F.prepare e) s s') :
    (do
      let scope ← evaluationScope e.type d e.id r
      if d.parent.isSome ∧ d.kind ≠ .define then evaluateParent code e.type r.scope scope
      runInScope S.strict code e.type d e.id scope : Run Unit).Alongside
    (do
      let scope ← evaluationScope e.type d' e.id { r with params := params' }
      if d'.parent.isSome ∧ d'.kind ≠ .define then evaluateParent code' e.type r.scope scope
      runInScope S.strict code' e.type d' e.id scope : Run Unit) s s'
      fun _ _ t t' => S.Related (F.begin e.id) t t' := by
  have hkind' : d'.kind = .hostclass := by
    obtain ⟨body, rfl, -⟩ := hd
    exact hkind
  have hspace : d.bodySpace = "" := if_pos ⟨hkind, hmain⟩
  rw [evaluationScope, if_pos ⟨hkind, htitle⟩, evaluationScope, if_pos ⟨hkind', htitle⟩, hscope]
  have hbefore : S.Related (F.before e []) s s' := h
  exact runBelow_alongside hcode htop List.not_mem_nil (hspace ▸ htop)
    ⟨⟨"", htop.known⟩, htop.notHidden, .inl htop.entered⟩ hfree (.inr hown) hd hbefore

/-- Every other resource is evaluated in a scope of its own. -/
theorem enterOwn_alongside {r : Resource} {params' : Table Value}
    (hcode : CodeMirrors S code code') (htop : F.Sees Scopes.top "") (hfree : ¬F.Prepares e.id)
    (hplaces : F.Places r.scope) (hother : ¬(d.kind = .hostclass ∧ r.title = mainTitle))
    (htitle : d.kind = .hostclass → r.title = d.resourceTitle)
    (hd : S.added.TypeSpelled d d') (h : S.Related (F.prepare e) s s') :
    (do
      let scope ← evaluationScope e.type d e.id r
      if d.parent.isSome ∧ d.kind ≠ .define then evaluateParent code e.type r.scope scope
      runInScope S.strict code e.type d e.id scope : Run Unit).Alongside
    (do
      let scope ← evaluationScope e.type d' e.id { r with params := params' }
      if d'.parent.isSome ∧ d'.kind ≠ .define then evaluateParent code' e.type r.scope scope
      runInScope S.strict code' e.type d' e.id scope : Run Unit) s s'
      fun _ _ t t' => S.Related (F.begin e.id) t t' := by
  have hown : evaluationScope e.type d' e.id { r with params := params' } =
      newScope (newScopeOf e.type d e.id r) := by
    obtain ⟨body, rfl, -⟩ := hd
    exact if_neg hother
  have hspace : d.bodySpace = d.space :=
    if_neg fun ⟨hkind, hmain⟩ => hother ⟨hkind, (htitle hkind).trans hmain⟩
  have hvisible : F.Visible s r.scope :=
    h.fits.visible ⟨hplaces.known, hplaces.notHidden, hplaces.main⟩
  have htopVisible : F.Visible s Scopes.top :=
    h.fits.visible ⟨⟨"", htop.known⟩, htop.notHidden, .inl htop.entered⟩
  rw [evaluationScope, if_neg hother, hown]
  refine Run.Alongside.bind (h.newScope (c := newScopeOf e.type d e.id r) fun p hp => ?_) ?_
  · cases hp
    exact hvisible
  · rintro k k' t t' ⟨hk', hk, ht⟩
    subst k'
    have hne : ∀ {j : ScopeId}, F.Visible s j → j ∉ [k] ++ F.hidden := by
      intro j hj hmem
      rcases List.mem_cons.mp hmem with rfl | hmem
      · exact Nat.ne_of_lt hj.1 hk
      · exact hj.2 hmem
    have hfresh : k ∉ F.hidden := fun hmem => Nat.ne_of_lt (h.fits.hidden k hmem) hk
    obtain ⟨space, hknown⟩ := hplaces.known
    have hG : (F.know k d.space).Sees k d.bodySpace :=
      ⟨hspace ▸ List.mem_cons_self, hfresh, htop.entered⟩
    have htop' : (F.know k d.space).Sees Scopes.top "" :=
      ⟨List.mem_cons_of_mem _ htop.known, htop.notHidden, htop.entered⟩
    refine (runBelow_alongside hcode htop' (fun hmem => hne htopVisible (List.mem_append_left _ hmem)) hG
      ⟨⟨space, List.mem_cons_of_mem _ hknown⟩, hne hvisible, .inl htop.entered⟩ hfree
      (.inl List.mem_cons_self) hd ht).mono fun _ _ _ _ hu => ?_
    exact hu.weaken (fun _ hx => List.mem_cons_of_mem _ hx) (fun _ hx => hx) rfl (fun _ hx => hx) id

/-- Running the code of a type does the same in both compilations if nested runs do so. -/
theorem codeMirrors_enter (hcode : CodeMirrors S code code') :
    CodeMirrors S (enter S.strict code) (enter S.strict code') := by
  intro F e htop hfree s s' h
  refine h.typeAt_bind e.type fun d d' hd => h.resourceAt_bind e.id fun r r' hr hr' hlike => ?_
  obtain ⟨hd, d₀, resolved, hd₀, hknown⟩ := hd
  obtain ⟨q, hq, -, hsource, htitle⟩ := h.fits.preparing e List.mem_cons_self
  cases hr.symm.trans hq
  obtain ⟨params', rfl⟩ : ∃ params', r' = { r with params := params' } := ⟨_, hlike.shape⟩
  have hvisible := h.fits.visible_of_get? hr
  have hkind : d₀.kind = d.kind := by rw [hknown]
  have hresourceTitle : d.resourceTitle = d₀.resourceTitle := by rw [hknown]; rfl
  have hsingleton := h.fits.singleton r (List.mem_of_getElem? hr) e.type d₀ hsource hd₀
  rw [hkind] at hsingleton
  -- the namespace around the declaration stays known while the resource is evaluated
  obtain ⟨c, hc⟩ : ∃ c, s.scopes.get? r.scope = some c :=
    ⟨_, List.getElem?_eq_getElem hvisible.1⟩
  have hstart : S.Related ((F.know r.scope c.space).prepare e) s s' := h.know hc
  have htop' : (F.know r.scope c.space).Sees Scopes.top "" :=
    ⟨List.mem_cons_of_mem _ htop.known, htop.notHidden, htop.entered⟩
  have hplaces : (F.know r.scope c.space).Places r.scope :=
    ⟨⟨c.space, List.mem_cons_self⟩, hvisible.2, .inl htop.entered⟩
  have hrest : ∀ u u', S.Related ((F.know r.scope c.space).prepare e) u u' → (do
      let scope ← evaluationScope e.type d e.id r
      if d.parent.isSome ∧ d.kind ≠ .define then evaluateParent code e.type r.scope scope
      runInScope S.strict code e.type d e.id scope : Run Unit).Alongside (do
      let scope ← evaluationScope e.type d' e.id { r with params := params' }
      if d'.parent.isSome ∧ d'.kind ≠ .define then evaluateParent code' e.type r.scope scope
      runInScope S.strict code' e.type d' e.id scope : Run Unit) u u'
      fun _ _ t t' => S.Related F t t' := by
    intro u u' hu
    refine Run.Alongside.mono (P := fun _ _ t t' =>
      S.Related ((F.know r.scope c.space).begin e.id) t t') ?_ fun _ _ _ _ ht => ht.weaken
        (fun _ hx => List.mem_cons_of_mem _ hx) (fun _ hx => hx) rfl
        (fun _ hx => List.mem_cons_of_mem _ hx) id
    by_cases hmain : d.kind = .hostclass ∧ r.title = mainTitle
    · obtain ⟨hclass, hmainTitle⟩ := hmain
      obtain ⟨hsame, hscope⟩ := hsingleton hclass
      refine enterMain_alongside hcode htop' hfree (hscope hmainTitle) hclass hmainTitle
        (hresourceTitle.trans (hsame.symm.trans hmainTitle)) (fun heq => ?_) hd hu
      rw [heq] at hd₀
      cases hd₀.symm.trans (Registry.get?_withMain S.added.known)
      exact ⟨hkind.trans hclass, htitle.symm.trans hmainTitle⟩
    · exact enterOwn_alongside hcode htop' hfree hplaces hmain
        (fun hclass => (hsingleton hclass).1.trans hresourceTitle.symm) hd hu
  have hkind' : d'.kind = d.kind := by
    obtain ⟨body, rfl, -⟩ := hd
    rfl
  have hlist : S.Mirrors ((F.know r.scope c.space).prepare e) (modifyCatalog (·.addClass r.title))
      (modifyCatalog (·.addClass r.title)) fun _ _ => True := .modifyLists fun _ _ => rfl
  by_cases hdefine : d.kind = .define
  · rw [if_neg (not_not.mpr hdefine), if_neg (not_not.mpr (hkind'.trans hdefine))]
    exact hrest s s' hstart
  · rw [if_pos hdefine, if_pos (hkind' ▸ hdefine)]
    exact (hlist s s' hstart).bind fun _ _ u u' hu => hrest u u' hu.1

theorem codeMirrors_evaluateCode (S : Spelling) : ∀ depth : ℕ,
    CodeMirrors S (evaluateCode S.strict depth) (evaluateCode S.strict depth) := by
  intro depth
  induction depth with
  | zero => exact fun _ _ _ _ _ _ _ => .stop _
  | succ depth ih =>
    intro F e htop hfree s s' h
    exact .follow (codeMirrors_enter ih F e htop hfree s s' h)

theorem codeMirrors_runCode (S : Spelling) :
    CodeMirrors S (runCode S.strict) (runCode S.strict) := by
  intro F e htop hfree s s' h
  refine .get_bind ?_
  rw [h.types.length_eq]
  exact codeMirrors_evaluateCode S _ F e htop hfree s s' h

end SiteCatalog.Compilation.Spelling
