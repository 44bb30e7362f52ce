import SiteCatalog.Proofs.Compilation.Spelling.Operations

/-!
# Code in two compilations

Code in which a default is spelled out does what it did before, provided that the code of types does
so.

Results:
* `Mirrors.includeClass`, `Mirrors.declareResource`: declarations, with the default or without it.
* `Mirrors.evaluate`, `Mirrors.runBody`: expressions and bodies.
-/

namespace SiteCatalog.Compilation.Spelling

variable {S : Spelling} {F : Frame}

/-- The evaluation of a resource has begun. Running the code of its type does the same in both
compilations, and afterwards its defaults are there. -/
def CodeMirrors (S : Spelling) (code code' : Code) : Prop :=
  ∀ (F : Frame) (e : Preparation), F.Sees Scopes.top "" → ¬F.Prepares e.id →
    ∀ s s', S.Related (F.prepare e) s s' →
      (code e.type e.id).Alongside (code' e.type e.id) s s' fun _ _ t t' => S.Related F t t'

namespace Related

variable {s s' : State}

/-- A resource that is not evaluated yet is not being prepared. -/
theorem not_prepares (h : S.Related F s s') {id : ResourceId} {r : Resource}
    (hr : s.catalog.get? id = some r) (hnew : r.evaluated = false) : ¬F.Prepares id := by
  rintro ⟨e, he, rfl⟩
  obtain ⟨q, hq, hdone, -⟩ := h.fits.preparing e he
  cases hr.symm.trans hq
  rw [hnew] at hdone
  cases hdone

/-- A resource without a type has no code and no defaults. -/
theorem mark_untyped (h : S.Related F s s') {id : ResourceId} {r : Resource}
    (hr : s.catalog.get? id = some r) (hnew : r.evaluated = false) (hsource : r.source = none) :
    S.Related F { s with catalog := s.catalog.markEvaluated id }
      { s' with catalog := s'.catalog.markEvaluated id } := by
  refine h.modifyResource id (fun q q' hq _ hlike => ?_) fun _ => ⟨rfl, rfl, rfl, rfl, fun _ => rfl⟩
  cases hr.symm.trans hq
  have hsame : S.Same r.params q'.params := by
    rcases hlike.raw (.inl hnew) with hsame | ⟨-, htyped, -⟩
    · exact hsame
    · rw [hsource] at htyped
      cases htyped
  refine ⟨?_, fun _ => .inl hsame, fun _ _ => .of_forall₂ hsame⟩
  rw [hlike.shape]

end Related

namespace Mirrors

variable {code code' : Code} {scope : ScopeId} {space : String}

/-! ## Classes and resources -/

section Code

variable (hcode : CodeMirrors S code code') (htop : F.Sees Scopes.top "")

include hcode htop

theorem evaluateResource (id : ResourceId) :
    S.Mirrors F (evaluateResource code id) (evaluateResource code' id) fun _ _ => True := by
  refine .follow fun s s' hs => hs.resourceAt_bind id fun r r' hr hr' hlike => ?_
  have hevaluated : r'.evaluated = r.evaluated := by rw [hlike.shape]
  have hsource : r'.source = r.source := by rw [hlike.shape]
  rw [hevaluated, hsource]
  cases hnew : r.evaluated with
  | true => exact .pure ⟨hs, trivial⟩
  | false =>
    cases htype : r.source with
    | none =>
      refine .bind (.update (P := fun _ _ t t' => S.Related F t t') ?_) fun _ _ t t' ht =>
        .pure ⟨ht, trivial⟩
      exact hs.mark_untyped hr hnew htype
    | some t =>
      let e : Preparation := ⟨id, t, r.title⟩
      refine .bind (.update (P := fun _ _ t t' => S.Related (F.prepare e) t t') ?_)
        fun _ _ u u' hu => (hcode F e htop (hs.not_prepares hr hnew) u u' hu).mono
          fun _ _ _ _ ht => ⟨ht, trivial⟩
      exact hs.mark (e := e) hr hnew htype rfl

theorem includeClass (hF : F.Sees scope space) (name : String) {params params' : Table Value}
    (hparams : Passes S F (S.types.withMain.find .hostclass space name) params params') :
    S.Mirrors F (includeClass code scope name params) (includeClass code' scope name params')
      Eq := by
  refine .follow (.bind (.scopeAt scope) ?_)
  rintro c _ ⟨⟨vars, rfl, -⟩, hspace⟩
  refine .get_bind fun s s' hs => ?_
  dsimp only
  rw [hspace space hF.known, ← hs.foundLike.find_eq, ← hs.origin_foundLike.find_eq]
  cases hfound : S.types.withMain.find .hostclass space name with
  | none => exact .stop _
  | some t =>
    rw [hfound] at hparams
    refine .bind (.ensure hF.places t hparams) ?_
    rintro id _ rfl
    exact .bind (.evaluateResource hcode htop id) fun _ _ _ => .pure rfl

theorem includeClasses (hF : F.Sees scope space) : ∀ names : List String,
    S.Mirrors F (includeClasses code scope names) (includeClasses code' scope names)
      fun _ _ => True
  | [] => .pure trivial
  | name :: rest => .bind (.includeClass hcode htop hF name (.inl .nil)) fun _ _ _ =>
      includeClasses hF rest

/-- The type that a declaration means. -/
def declared (S : Spelling) (space type title : String) : Option TypeId :=
  if Name.sameIgnoringCase type "class" then S.types.withMain.find .hostclass space title
  else S.types.withMain.find .define space type

theorem declareResource (hF : F.Sees scope space) (type title : String)
    {params params' : Table Value} (hparams : Passes S F (declared S space type title) params params') :
    S.Mirrors F (declareResource code scope type title params)
      (declareResource code' scope type title params') Eq := by
  unfold declared at hparams
  refine .follow ?_
  split
  · next hclass =>
    rw [if_pos hclass] at hparams
    exact .includeClass hcode htop hF title hparams
  · next hclass =>
    rw [if_neg hclass] at hparams
    split
    · exact .stop _
    · refine .bind (.scopeAt scope) ?_
      rintro c _ ⟨⟨vars, rfl, -⟩, hspace⟩
      refine .get_bind fun s s' hs => ?_
      dsimp only
      rw [hspace space hF.known, ← hs.foundLike.find_eq, ← hs.origin_foundLike.find_eq]
      cases hfound : S.types.withMain.find .define space type with
      | none =>
        refine .addResource rfl rfl hF.places fun _ => ⟨?_, fun _ _ hsource => nomatch hsource⟩
        rw [hfound] at hparams
        rcases hparams with hsame | ⟨-, hnone, -⟩
        · exact .inl hsame
        · cases hnone
      | some t =>
        rw [hfound] at hparams
        obtain ⟨e, he, hkind⟩ := Registry.get?_of_find hfound
        refine .bind (.typeAt t) ?_
        rintro d _ ⟨⟨body, rfl, -⟩, d₀, resolved, hd₀, rfl⟩
        refine .addResource rfl rfl hF.places fun _ => ⟨?_, ?_⟩
        · rcases hparams with hsame | ⟨-, htype, hadded⟩
          · exact .inl hsame
          · cases htype
            cases he.symm.trans (Registry.get?_withMain S.added.known)
            refine .inr ⟨hadded, rfl, fun ⟨hclass, _⟩ => ?_⟩
            rw [hkind] at hclass
            cases hclass
        · rintro u f hu hf hclass
          cases hu
          cases he.symm.trans hf
          rw [hkind] at hclass
          cases hclass

theorem declareResources (hF : F.Sees scope space) (type : String) {params params' : Table Value}
    {titles titles' : List Value} (h : List.Forall₂ S.like titles titles')
    (hparams : ∀ t ∈ titles, Passes S F (declared S space type t.text) params params') :
    S.Mirrors F (declareResources code scope type params titles)
      (declareResources code' scope type params' titles') fun _ _ => True := by
  induction h with
  | nil => exact .pure trivial
  | @cons t t' rest rest' ht _ ih =>
    obtain ⟨hfirst, hrest⟩ := List.forall_mem_cons.mp hparams
    unfold Compilation.declareResources
    rw [← S.likeness.text ht]
    exact .bind (.declareResource hcode htop hF type t.text hfirst) fun _ _ _ => ih hrest

end Code

/-! ## Expressions -/

/-- The evaluation of parameters among which there is a constant. -/
theorem run_evaluateParams_insert (strict : Bool) (code : Code) (scope : ScopeId) (param : String)
    (value : Value) (front back : List (String × Expr)) (s : State) :
    (evaluateParams strict code scope (front ++ (param, .literal value) :: back)).run s =
      match (evaluateParams strict code scope (front ++ back)).run s with
      | (.ok vs, t) => (.ok (vs.take front.length ++ (param, value) :: vs.drop front.length), t)
      | (.error f, t) => (.error f, t) := by
  induction front generalizing s with
  | nil =>
    have hliteral : (evaluateParam strict code scope (param, .literal value)).run s =
        (.ok (param, value), s) := rfl
    rw [List.nil_append, evaluateParams, Run.run_bind, hliteral]
    dsimp only
    rw [Run.run_bind, List.nil_append]
    rcases (evaluateParams strict code scope back).run s with ⟨f | vs, t⟩ <;> rfl
  | cons e front ih =>
    rw [List.cons_append, List.cons_append, evaluateParams, evaluateParams, Run.run_bind,
      Run.run_bind]
    rcases (evaluateParam strict code scope e).run s with ⟨f | v, t⟩
    · rfl
    · dsimp only
      rw [Run.run_bind, Run.run_bind, ih]
      rcases (evaluateParams strict code scope (front ++ back)).run t with ⟨f | vs, u⟩ <;> rfl

/-- The second compilation evaluates a constant in addition. -/
theorem insertParam {params front back : List (String × Expr)} {param : String} {value : Value}
    {W : Table Value → Table Value → Prop}
    (h : S.Mirrors F (evaluateParams S.strict code scope params)
      (evaluateParams S.strict code' scope (front ++ back)) W) :
    S.Mirrors F (evaluateParams S.strict code scope params)
      (evaluateParams S.strict code' scope (front ++ (param, .literal value) :: back))
      fun vs vs' => ∃ a b, vs' = a ++ (param, value) :: b ∧ W vs (a ++ b) := by
  intro s s' hs
  have hrun := h s s' hs
  unfold Run.Alongside at hrun ⊢
  rw [run_evaluateParams_insert]
  split at hrun
  · obtain ⟨vs', t', hrun', ht, hW⟩ := hrun
    rw [hrun']
    exact ⟨_, t', rfl, ht, _, _, rfl, by rwa [List.take_append_drop]⟩
  · obtain ⟨t', hrun'⟩ := hrun
    exact ⟨t', by rw [hrun']⟩

/-- A constant title. -/
theorem constant {e : Expr} {v : Value} (hplain : e.isPlain = true)
    (hconstant : ∀ look : String → Except Failure Value, e.valueIn look = .ok v) :
    S.Mirrors F (evaluate S.strict code scope e) (evaluate S.strict code' scope e)
      fun a b => a = v ∧ b = v := by
  intro s s' hs
  refine .of_agree (x := .ok v) (y := .ok v) (V := fun a b => a = v ∧ b = v) ?_ ?_ ⟨rfl, rfl⟩
    fun _ _ hv => ⟨hs, hv⟩
  · rw [run_evaluate_plain _ _ _ _ e hplain, hconstant]
  · rw [run_evaluate_plain _ _ _ _ e hplain, hconstant]

mutual

theorem evaluate (hcode : CodeMirrors S code code') (htop : F.Sees Scopes.top "")
    (hF : F.Sees scope space) (e : Expr) {e' : Expr} (h : Spelled S.added space e e') :
    S.Mirrors F (evaluate S.strict code scope e) (evaluate S.strict code' scope e') S.like := by
  rw [evaluate.eq_def, evaluate.eq_def S.strict code']
  refine .follow ?_
  cases e with
  | literal v =>
    cases h
    exact .pure (S.likeness.refl v)
  | var name =>
    cases h
    exact .lookupVariable scope name
  | concat parts =>
    cases h with
    | concat h =>
      refine .bind (.evaluateAll hcode htop hF parts h) fun values values' hvalues => .pure ?_
      rw [S.likeness.map_text_eq hvalues]
      exact S.likeness.refl _
  | list items =>
    cases h with
    | list h =>
      exact .bind (.evaluateAll hcode htop hF items h) fun values values' hvalues =>
        .pure (S.likeness.array hvalues)
  | block statements =>
    cases h with
    | block h => exact .evaluateBlock hcode htop hF statements h (S.likeness.refl _)
  | assign name value =>
    cases h with
    | assign _ h =>
      refine .bind (.evaluate hcode htop hF value h) fun v v' hv => ?_
      exact .bind (.assign scope name hv) fun _ _ _ => .pure (S.likeness.refl _)
  | includes names =>
    cases h
    exact .bind (.includeClasses hcode htop hF names) fun _ _ _ => .pure (S.likeness.refl _)
  | classDecl name params =>
    cases h with
    | classDecl _ h =>
      refine .bind (.evaluateParams hcode htop hF params h) fun values values' hvalues => ?_
      exact .bind (.includeClass hcode htop hF name (.inl hvalues.1)) fun _ _ _ =>
        .pure (S.likeness.refl _)
    | addToClass names omitted h =>
      refine .bind (.insertParam (.evaluateParams hcode htop hF params h)) ?_
      rintro values _ ⟨a, b, rfl, hsame, hkeys⟩
      refine .bind (.includeClass hcode htop hF name (.inr ⟨hF.entered, names, ?_⟩)) fun _ _ _ =>
        .pure (S.likeness.refl _)
      exact ⟨⟨a, b, rfl, hsame⟩, hkeys ▸ omitted⟩
  | declare type title params =>
    cases h with
    | declare _ ht h =>
      refine .bind (.evaluate hcode htop hF title ht) fun v v' hv => ?_
      refine .bind (.evaluateParams hcode htop hF params h) fun values values' hvalues => ?_
      exact .bind (.declareResources hcode htop hF type (S.likeness.titles hv)
        fun _ _ => .inl hvalues.1) fun _ _ _ => .pure (S.likeness.refl _)
    | @addToClasses _ _ v _ front back isClass plain constant names omitted h =>
      refine .bind (.constant plain constant) ?_
      rintro _ _ ⟨rfl, rfl⟩
      refine .bind (.insertParam (.evaluateParams hcode htop hF params h)) ?_
      rintro values _ ⟨a, b, rfl, hsame, hkeys⟩
      refine .bind (.declareResources hcode htop hF type
        (List.forall₂_same.mpr fun _ _ => S.likeness.refl _) fun t ht =>
          .inr ⟨hF.entered, ?_, ⟨a, b, rfl, hsame⟩, hkeys ▸ omitted⟩) fun _ _ _ =>
        .pure (S.likeness.refl _)
      rw [declared, if_pos isClass]
      exact names t ht
    | addToInstances notClass names omitted ht h =>
      refine .bind (.evaluate hcode htop hF title ht) fun v v' hv => ?_
      refine .bind (.insertParam (.evaluateParams hcode htop hF params h)) ?_
      rintro values _ ⟨a, b, rfl, hsame, hkeys⟩
      refine .bind (.declareResources hcode htop hF type (S.likeness.titles hv) fun t _ =>
        .inr ⟨hF.entered, ?_, ⟨a, b, rfl, hsame⟩, hkeys ▸ omitted⟩) fun _ _ _ =>
        .pure (S.likeness.refl _)
      rw [declared, if_neg (by rw [notClass]; exact Bool.false_ne_true)]
      exact names
termination_by structural e

theorem evaluateAll (hcode : CodeMirrors S code code') (htop : F.Sees Scopes.top "")
    (hF : F.Sees scope space) (es : List Expr) {es' : List Expr}
    (h : AllSpelled S.added space es es') :
    S.Mirrors F (evaluateAll S.strict code scope es) (evaluateAll S.strict code' scope es')
      (List.Forall₂ S.like) := by
  cases es with
  | nil =>
    cases h
    exact .pure .nil
  | cons e rest =>
    cases h with
    | cons h hrest =>
      refine .bind (.evaluate hcode htop hF e h) fun v v' hv => ?_
      exact .bind (.evaluateAll hcode htop hF rest hrest) fun vs vs' hvs => .pure (.cons hv hvs)
termination_by structural es

theorem evaluateBlock (hcode : CodeMirrors S code code') (htop : F.Sees Scopes.top "")
    (hF : F.Sees scope space) (es : List Expr) {es' : List Expr}
    (h : AllSpelled S.added space es es') {last last' : Value} (hlast : S.like last last') :
    S.Mirrors F (evaluateBlock S.strict code scope last es)
      (evaluateBlock S.strict code' scope last' es') S.like := by
  cases es with
  | nil =>
    cases h
    exact .pure hlast
  | cons e rest =>
    cases h with
    | cons h hrest =>
      refine .bind (.evaluate hcode htop hF e h) fun v v' hv => ?_
      exact .evaluateBlock hcode htop hF rest hrest hv
termination_by structural es

theorem evaluateParams (hcode : CodeMirrors S code code') (htop : F.Sees Scopes.top "")
    (hF : F.Sees scope space) (params : List (String × Expr)) {params' : List (String × Expr)}
    (h : ParamsSpelled S.added space params params') :
    S.Mirrors F (evaluateParams S.strict code scope params)
      (evaluateParams S.strict code' scope params')
      fun vs vs' => S.Same vs vs' ∧ Table.keys vs = params.map (·.1) := by
  cases params with
  | nil =>
    cases h
    exact .pure ⟨.nil, rfl⟩
  | cons param rest =>
    cases h with
    | cons name h hrest =>
      refine .bind (.evaluateParam hcode htop hF param name h) fun v v' hv => ?_
      refine .bind (.evaluateParams hcode htop hF rest hrest) fun vs vs' hvs => .pure ?_
      exact ⟨.cons hv.1 hvs.1, congrArg₂ List.cons hv.2 hvs.2⟩
termination_by structural params

theorem evaluateParam (hcode : CodeMirrors S code code') (htop : F.Sees Scopes.top "")
    (hF : F.Sees scope space) (param : String × Expr) {param' : String × Expr}
    (name : param'.1 = param.1) (h : Spelled S.added space param.2 param'.2) :
    S.Mirrors F (evaluateParam S.strict code scope param)
      (evaluateParam S.strict code' scope param')
      fun v v' => Table.SameEntry S.like v v' ∧ v.1 = param.1 := by
  obtain ⟨p, e⟩ := param
  obtain ⟨p', e'⟩ := param'
  cases name
  exact .bind (.evaluate hcode htop hF e h) fun v v' hv => .pure ⟨⟨rfl, hv⟩, rfl⟩
termination_by structural param

end

/-! ## Bodies -/

theorem note (text text' : String) :
    S.Mirrors F (Compilation.note text) (Compilation.note text') fun _ _ => True :=
  .update fun _ _ hs => hs.note text text'

mutual

theorem runBody (hcode : CodeMirrors S code code') (htop : F.Sees Scopes.top "")
    (hF : F.Sees scope space) {t : TypeId} {id : ResourceId} (b : Body) {b' : Body}
    (h : BodySpelled S.added space b b') :
    S.Mirrors F (runBody S.strict code t id scope b) (runBody S.strict code' t id scope b')
      fun _ _ => True := by
  cases b with
  | code e =>
    cases h with
    | code h => exact .bind (.evaluate hcode htop hF e h) fun _ _ _ => .pure trivial
  | linked b =>
    cases h
    refine .bind (.note _ _) fun _ _ _ => ?_
    refine .bind (.includeClasses hcode htop hF b.includes) fun _ _ _ => ?_
    cases b.refusal with
    | none => exact .pure trivial
    | some text => exact .stop _
  | sequence parts =>
    cases h with
    | sequence h => exact .runBodies hcode htop hF parts h
termination_by structural b

theorem runBodies (hcode : CodeMirrors S code code') (htop : F.Sees Scopes.top "")
    (hF : F.Sees scope space) {t : TypeId} {id : ResourceId} (parts : List Body)
    {parts' : List Body} (h : BodiesSpelled S.added space parts parts') :
    S.Mirrors F (runBodies S.strict code t id scope parts)
      (runBodies S.strict code' t id scope parts') fun _ _ => True := by
  cases parts with
  | nil =>
    cases h
    exact .pure trivial
  | cons b rest =>
    cases h with
    | cons h hrest =>
      exact .bind (.runBody hcode htop hF b h) fun _ _ _ => .runBodies hcode htop hF rest hrest
termination_by structural parts

end

end Mirrors

end SiteCatalog.Compilation.Spelling
