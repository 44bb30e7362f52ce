import SiteCatalog.Proofs.Compilation.Spelling.Code

/-!
# Parameters in two compilations

A resource that was declared with the default has it bound before all other defaults, while a
resource that was declared without it has it bound in its turn. In between the two compilations run
through expressions that do not look at it.

Results:
* `bindSupplied_added`, `bindBuiltin_window`: the supplied parameters and the built-in variables.
* `Secluded.evaluate`, `Secluded.bindDefaults`: the defaults before the one that is passed.
* `bindParameters_alongside`: afterwards the states are related again.
-/

namespace SiteCatalog.Compilation

namespace Spelling

variable {S : Spelling} {F G : Frame} {code code' : Code} {scope : ScopeId} {space : String}
  {id : ResourceId} {d d' : Descriptor} {reference : String} {params params' : Table Value}

/-! ## Parameters without the default -/

theorem Same.find? (h : S.Same params params') (name : String) :
    Option.Rel S.like (params.find? name) (params'.find? name) :=
  (Table.Alike.of_forall₂ h).find? name

theorem Same.keys_eq (h : S.Same params params') : params'.keys = params.keys := by
  induction h with
  | nil => rfl
  | cons he _ ih => exact congrArg₂ List.cons he.1.symm ih

theorem has_eq_of_mem_iff {name : String} (h : name ∈ params.keys ↔ name ∈ params'.keys) :
    params.has name = params'.has name := by
  rw [Bool.eq_iff_iff, Table.has_iff_mem_keys, Table.has_iff_mem_keys, h]

/-- What a resource is named by. -/
theorem name_eq_of_rel {r : Resource} {params' : Table Value}
    (h : Option.Rel S.like (r.params.find? "name") (params'.find? "name")) :
    Resource.name { r with params := params' } = r.name := by
  unfold Resource.name
  dsimp only
  generalize r.params.find? "name" = o, params'.find? "name" = o' at h
  cases h with
  | none => rfl
  | some hv =>
    dsimp only
    rw [S.likeness.isUndefined hv, S.likeness.text hv]

namespace Mirrors

theorem bindSupplied (hd : S.added.TypeSpelled d d') (h : S.Same params params') :
    S.Mirrors F (bindSupplied d reference scope params) (bindSupplied d' reference scope params')
      fun _ _ => True := by
  obtain ⟨body, rfl, -⟩ := hd
  induction h with
  | nil => exact .pure trivial
  | @cons e e' rest rest' he _ ih =>
    obtain ⟨param, v⟩ := e
    obtain ⟨_, v'⟩ := e'
    obtain ⟨rfl, hv⟩ := he
    unfold Compilation.bindSupplied
    show S.Mirrors F (if d.acceptsParameter param then _ else _)
      (if d.acceptsParameter param then _ else _) _
    split
    · exact .bind (.bindVariable scope param (S.likeness.coerce hv)) fun _ _ _ => ih
    · exact .stop _

theorem bindBuiltin {supplied supplied' : Table Value}
    (hhas : ∀ name, supplied'.has name = supplied.has name) : ∀ entries : Table Value,
    S.Mirrors F (bindBuiltin supplied scope entries) (bindBuiltin supplied' scope entries)
      fun _ _ => True
  | [] => .pure trivial
  | (name, value) :: rest => by
    unfold Compilation.bindBuiltin
    rw [hhas]
    split
    · exact .bind (.bindVariable scope name (S.likeness.refl value)) fun _ _ _ =>
        bindBuiltin hhas rest
    · exact bindBuiltin hhas rest

theorem setParameter (hid : id ∈ F.begun) (hfree : ¬F.Prepares id) (name : String) {v v' : Value}
    (hv : S.like v v') :
    S.Mirrors F (setParameter id name v) (setParameter id name v') fun _ _ => True := by
  refine .bind (.resourceAt id) fun _ _ _ => .update fun s s' hs => ?_
  refine hs.modifyResource id (fun r r' hr _ hlike => ?_) fun _ => ⟨rfl, rfl, rfl, rfl, fun h => h⟩
  obtain ⟨q, hq, hdone⟩ := hs.fits.begun id hid
  cases hr.symm.trans hq
  refine ⟨?_, fun hraw => ?_, fun _ _ => (hlike.settled hdone hfree).insert hv name⟩
  · rw [hlike.shape]
  · rcases hraw with hnew | hprepared
    · cases hdone.symm.trans hnew
    · exact absurd hprepared hfree

theorem bindDefaults (hcode : CodeMirrors S code code') (htop : F.Sees Scopes.top "")
    (hF : F.Sees scope space) (hid : id ∈ F.begun) (hfree : ¬F.Prepares id)
    (hd : S.added.TypeSpelled d d') {supplied supplied' : Table Value}
    {defaults : Table (Option Expr)}
    (hhas : ∀ e ∈ defaults, supplied'.has e.1 = supplied.has e.1) :
    S.Mirrors F (bindDefaults S.strict code d id reference supplied scope defaults)
      (bindDefaults S.strict code' d' id reference supplied' scope defaults) fun _ _ => True := by
  induction defaults with
  | nil => exact .pure trivial
  | cons e rest ih =>
    obtain ⟨param, default⟩ := e
    obtain ⟨hfirst, hrest⟩ := List.forall_mem_cons.mp hhas
    have ih := ih hrest
    cases hgiven : supplied.has param with
    | true =>
      rw [bindDefaults_cons_of_has hgiven, bindDefaults_cons_of_has (hfirst.trans hgiven)]
      exact ih
    | false =>
      cases default with
      | none =>
        rw [bindDefaults_cons_none hgiven, bindDefaults_cons_none (hfirst.trans hgiven)]
        obtain ⟨body, rfl, -⟩ := hd
        exact .stop _
      | some x =>
        rw [bindDefaults_cons_some hgiven, bindDefaults_cons_some (hfirst.trans hgiven)]
        refine .bind (.evaluate hcode htop hF x (.refl S.added space x)) fun v v' hv => ?_
        refine .bind (.bindVariable scope param hv) fun _ _ _ => ?_
        exact .bind (.setParameter hid hfree param hv) fun _ _ _ => ih

end Mirrors

/-! ## Parameters with the default -/

/-- The default is bound, and entered into the resource, in the first compilation too. -/
theorem Related.fill {e : Preparation} {hidden : List ScopeId} {s s' : State}
    (h : S.Related (G.before e hidden) s s') (hfree : ¬G.Prepares e.id) (scope : ScopeId)
    {vars vars' : Table Value} (hvars : Table.Alike S.like vars vars')
    (hparams : Table.Alike S.like params params') :
    S.Related (G.begin e.id) (s.fill scope vars e.id params) (s'.fill scope vars' e.id params') := by
  have hsettled := h.settle hfree (f := fun r => { r with params })
    (g := fun r => { r with params := params' })
    (fun r r' _ _ _ hshape => ⟨by rw [hshape], hparams⟩) fun _ => ⟨rfl, rfl, rfl, rfl, fun h => h⟩
  refine hsettled.modifyScope scope (f := fun c => { c with vars })
    (g := fun c => { c with vars := vars' }) ?_ (fun _ => rfl) fun _ _ hp => .inl hp
  rintro c _ ⟨_, rfl, -⟩
  exact ⟨vars', rfl, hvars⟩

/-- Until it is the turn of the default, only the variables of the scope and the parameters of the
resource change, and the second compilation has the default there already. -/
def Window (S : Spelling) (scope : ScopeId) (id : ResourceId) (params params' : Table Value)
    (front : Option Value) (s s' t t' : State) : Prop :=
  ∃ vars vars', Table.Beside S.like S.added.param front vars vars' ∧
    t = s.fill scope vars id params ∧ t' = s'.fill scope vars' id params'

section Window

open Run (Alongside)

variable {s s' : State} {c c' : Scope} (hc : s.scopes.get? scope = some c)
  (hc' : s'.scopes.get? scope = some c')

section Supplied

variable {α : Type} {Q : α → α → State → State → Prop} {K K' : Unit → Run α}
  {vars vars' : Table Value} {front : Option Value}

include hc hc'

theorem bindSupplied_window (hd : S.added.TypeSpelled d d') {l l' : Table Value} (h : S.Same l l')
    (hnot : S.added.param ∉ l.keys) (hvars : Table.Beside S.like S.added.param front vars vars')
    (hK : ∀ vars vars', Table.Beside S.like S.added.param front vars vars' →
      (K ()).Alongside (K' ()) (s.fill scope vars id params) (s'.fill scope vars' id params') Q) :
    (bindSupplied d reference scope l >>= K).Alongside (bindSupplied d' reference scope l' >>= K')
      (s.fill scope vars id params) (s'.fill scope vars' id params') Q := by
  obtain ⟨body, rfl, -⟩ := hd
  induction h generalizing vars vars' with
  | nil => exact hK vars vars' hvars
  | @cons e e' rest rest' he _ ih =>
    obtain ⟨param, v⟩ := e
    obtain ⟨_, v'⟩ := e'
    obtain ⟨rfl, hv⟩ := he
    obtain ⟨hne, hrest⟩ := not_or.mp (mt List.mem_cons.mpr hnot)
    unfold Compilation.bindSupplied
    by_cases haccepts : d.acceptsParameter param = true
    · rw [if_pos haccepts, if_pos (show Descriptor.acceptsParameter { d with body } param = true
        from haccepts), bind_assoc, bind_assoc]
      exact .bind_left (run_bind_fill hc ..) (.bind_right (run_bind_fill hc' ..)
        (ih hrest (hvars.insert (Ne.symm hne) (S.likeness.coerce hv))))
    · rw [if_neg haccepts, if_neg (show ¬Descriptor.acceptsParameter { d with body } param = true
        from haccepts)]
      exact ⟨_, rfl⟩

/-- The second compilation binds the default among the supplied parameters. -/
theorem bindSupplied_added (hd : S.added.TypeSpelled d d')
    (haccepts : d.acceptsParameter S.added.param = true) {l f b : Table Value}
    (h : S.Same l (f ++ b)) (hnot : S.added.param ∉ l.keys)
    (hvars : Table.Beside S.like S.added.param front vars vars')
    (hK : ∀ vars vars',
      Table.Beside S.like S.added.param (some S.added.value.coerce) vars vars' →
      (K ()).Alongside (K' ()) (s.fill scope vars id params) (s'.fill scope vars' id params') Q) :
    (bindSupplied d reference scope l >>= K).Alongside
      (bindSupplied d' reference scope (f ++ (S.added.param, S.added.value) :: b) >>= K')
      (s.fill scope vars id params) (s'.fill scope vars' id params') Q := by
  have hd₀ := hd
  obtain ⟨body, rfl, -⟩ := hd
  induction f generalizing l vars vars' front with
  | nil =>
    have haccepts' : Descriptor.acceptsParameter { d with body } S.added.param = true := haccepts
    rw [List.nil_append]
    conv in (bindSupplied { d with body } _ _ _) => unfold bindSupplied
    rw [if_pos haccepts', bind_assoc]
    exact .bind_right (run_bind_fill hc' ..)
      (bindSupplied_window hc hc' hd₀ h hnot (hvars.insert_right _) hK)
  | cons x f ih =>
    obtain ⟨y, rest, hy, hrest, rfl⟩ := List.forall₂_cons_right_iff.mp h
    obtain ⟨param, v⟩ := y
    obtain ⟨_, v'⟩ := x
    obtain ⟨rfl, hv⟩ := hy
    obtain ⟨hne, hnot⟩ := not_or.mp (mt List.mem_cons.mpr hnot)
    rw [List.cons_append]
    unfold Compilation.bindSupplied
    by_cases haccept : d.acceptsParameter param = true
    · rw [if_pos haccept, if_pos (show Descriptor.acceptsParameter { d with body } param = true
        from haccept), bind_assoc, bind_assoc]
      exact .bind_left (run_bind_fill hc ..) (.bind_right (run_bind_fill hc' ..)
        (ih hrest hnot (hvars.insert (Ne.symm hne) (S.likeness.coerce hv))))
    · rw [if_neg haccept, if_neg (show ¬Descriptor.acceptsParameter { d with body } param = true
        from haccept)]
      exact ⟨_, rfl⟩

/-- A built-in variable of the same name is not bound where the default is passed. -/
theorem bindBuiltin_window {supplied supplied' : Table Value}
    (hhas : ∀ name, name ≠ S.added.param → supplied'.has name = supplied.has name)
    (hno : supplied.has S.added.param = false) (hyes : supplied'.has S.added.param = true)
    {l l' : Table Value}
    (h : List.Forall₂ (fun a b => a.1 = b.1 ∧ (a.1 ≠ S.added.param → a.2 = b.2)) l l')
    (hvars : Table.Beside S.like S.added.param front vars vars')
    (hK : ∀ vars vars', Table.Beside S.like S.added.param front vars vars' →
      (K ()).Alongside (K' ()) (s.fill scope vars id params) (s'.fill scope vars' id params') Q) :
    (bindBuiltin supplied scope l >>= K).Alongside (bindBuiltin supplied' scope l' >>= K')
      (s.fill scope vars id params) (s'.fill scope vars' id params') Q := by
  induction h generalizing vars vars' with
  | nil => exact hK vars vars' hvars
  | @cons e e' rest rest' he _ ih =>
    obtain ⟨name, v⟩ := e
    obtain ⟨_, v'⟩ := e'
    obtain ⟨rfl, hv⟩ := he
    unfold Compilation.bindBuiltin
    by_cases hname : name = S.added.param
    · subst hname
      rw [hno, hyes, if_pos Bool.not_false, if_neg (by simp), bind_assoc]
      exact .bind_left (run_bind_fill hc ..) (ih (hvars.insert_left _))
    · obtain rfl := hv hname
      rw [hhas name hname]
      cases supplied.has name with
      | true => exact ih hvars
      | false =>
        rw [if_pos Bool.not_false, if_pos Bool.not_false, bind_assoc, bind_assoc]
        exact .bind_left (run_bind_fill hc ..) (.bind_right (run_bind_fill hc' ..)
          (ih (hvars.insert hname (S.likeness.refl _))))

end Supplied

/-! ## The turn of the default -/

variable {e : Preparation} {hidden : List ScopeId} {vars vars' : Table Value}
  {front : Option Value}

theorem parent?_fill (s : State) (scope : ScopeId) (vars : Table Value) (id : ResourceId)
    (params : Table Value) :
    (s.fill scope vars id params).scopes.parent? = s.scopes.parent? := by
  funext k
  show (s.scopes.modify scope fun c => { c with vars }).parent? k = _
  rw [Scopes.parent?, Scopes.get?_modify, Scopes.parent?]
  split
  · cases s.scopes.get? k <;> rfl
  · rfl

theorem lookupLocal_fill (hc : s.scopes.get? scope = some c) (vars : Table Value)
    (id : ResourceId) (params : Table Value) (k : ScopeId) (name : String) :
    (s.fill scope vars id params).scopes.lookupLocal k name =
      if k = scope then vars.find? name else s.scopes.lookupLocal k name := by
  show ((s.scopes.modify scope fun q => { q with vars }).get? k).bind (·.vars.find? name) = _
  rw [Scopes.get?_modify]
  split
  · next hk => rw [hk, hc]; rfl
  · rfl

theorem bind_fill (s : State) (scope : ScopeId) (vars : Table Value) (id : ResourceId)
    (params : Table Value) (name : String) (v : Value) :
    { s.fill scope vars id params with
      scopes := (s.fill scope vars id params).scopes.bind scope name v } =
      s.fill scope (vars.insert name v) id params := by
  have hscopes : (s.scopes.modify scope fun q => { q with vars }).bind scope name v =
      s.scopes.modify scope fun q => { q with vars := vars.insert name v } :=
    congrArg (Scopes.mk · _) (List.modify_modify_eq ..)
  exact congrArg (State.mk _ · _ _) hscopes

/-- The defaults of a resource are being bound in a scope to which nothing refers yet. -/
structure Secluded (S : Spelling) (G : Frame) (e : Preparation) (hidden : List ScopeId)
    (scope : ScopeId) (s s' : State) : Prop where
  related : S.Related (G.before e hidden) s s'
  own : scope ∈ hidden
  top : Scopes.top ∉ hidden

namespace Secluded

variable (h : S.Secluded G e hidden scope s s')

include h

theorem exists_scope : ∃ c c', s.scopes.get? scope = some c ∧ s'.scopes.get? scope = some c' := by
  have hlt := h.related.fits.hidden scope (List.mem_append_left _ h.own)
  exact ⟨_, _, List.getElem?_eq_getElem hlt,
    List.getElem?_eq_getElem (h.related.arena.length_eq ▸ hlt)⟩

/-- Nobody else sees the variables of a scope to which nothing refers. -/
theorem lookup_rel (hvars : Table.Beside S.like S.added.param front vars vars')
    {place : ScopeId} {var : String} (hvar : place ≠ scope ∨ var ≠ S.added.param) :
    Option.Rel (Option.Rel S.like) ((s.fill scope vars id params).scopes.lookup place var)
      ((s'.fill scope vars' id params').scopes.lookup place var) := by
  obtain ⟨c, c', hc, hc'⟩ := h.exists_scope
  have hlength : (s'.fill scope vars' id params').scopes.arena.length =
      (s.fill scope vars id params).scopes.arena.length := by
    show (s'.scopes.modify scope _).arena.length = (s.scopes.modify scope _).arena.length
    rw [Scopes.length_modify, Scopes.length_modify, h.related.arena.length_eq]
  refine Scopes.lookup_rel (P := fun k => k ≠ scope ∨ var ≠ S.added.param) hlength ?_ ?_ ?_ hvar
  · rw [parent?_fill, parent?_fill, h.related.parent?_eq]
  · intro i j _ hj
    rw [parent?_fill] at hj
    obtain ⟨q, hq, hparent⟩ := Option.bind_eq_some_iff.mp hj
    refine .inl fun heq => (h.related.fits.parents q (List.mem_of_getElem? hq) j hparent).2 ?_
    exact List.mem_append_left _ (heq ▸ h.own)
  · intro i hi
    rw [lookupLocal_fill hc, lookupLocal_fill hc']
    split
    · next heq => exact hvars.find? (hi.resolve_left fun hne => hne heq)
    · exact h.related.lookupLocal i var

theorem variableValue_agree (hvars : Table.Beside S.like S.added.param front vars vars')
    {name : String} (hname : name ≠ S.added.param) :
    Agree S.like (variableValue S.strict (s.fill scope vars id params) scope name)
      (variableValue S.strict (s'.fill scope vars' id params') scope name) := by
  refine agree_variableValue S.likeness.refl S.strict (h.related.variablePlace?_eq scope name) ?_ ?_
  · intro k
    show ((s'.scopes.modify scope _).get? k).isSome = ((s.scopes.modify scope _).get? k).isSome
    rw [Scopes.get?_modify, Scopes.get?_modify]
    split <;> simp only [Option.isSome_map, h.related.isSome_scope]
  · intro place var hplace
    refine h.lookup_rel hvars ?_
    have hplace : variablePlace? s scope name = some (place, var) := hplace
    unfold variablePlace? at hplace
    split at hplace
    · cases hplace
      exact .inr hname
    · split at hplace
      · cases hplace
        exact .inl fun heq => h.top (heq ▸ h.own)
      · split at hplace
        · next classScope hfound =>
          obtain ⟨t, -, hclass⟩ := Option.bind_eq_some_iff.mp hfound
          obtain ⟨a, b, hentries, -⟩ := List.lookup_eq_some_iff.mp hclass
          have hmem : (t, classScope) ∈ s.scopes.ofTypes := by simp [hentries]
          cases hplace
          refine .inl fun heq => (h.related.fits.classes _ hmem).2 ?_
          exact List.mem_append_left _ (heq ▸ h.own)
        · cases hplace

theorem assign {name : String} (hname : name ≠ S.added.param) {v v' : Value} (hv : S.like v v')
    {t t' : State} (ht : S.Window scope id params params' front s s' t t') :
    (assign scope name v).Alongside (assign scope name v') t t' fun _ _ u u' =>
      S.Window scope id params params' front s s' u u' := by
  obtain ⟨c, c', hc, hc'⟩ := h.exists_scope
  obtain ⟨vars, vars', hvars, rfl, rfl⟩ := ht
  show (existing ((s.fill scope vars id params).scopes.get? scope) >>= _).Alongside
    (existing ((s'.fill scope vars' id params').scopes.get? scope) >>= _) _ _ _
  rw [get?_fill hc, get?_fill hc']
  refine .get_bind ?_
  unfold Scopes.assign
  rw [lookupLocal_fill hc, lookupLocal_fill hc', if_pos rfl, if_pos rfl]
  have hfound := hvars.find? hname
  generalize vars.find? name = o, vars'.find? name = o' at hfound
  cases hfound with
  | some _ => exact .stop _
  | none => exact .update ⟨_, _, hvars.insert hname hv, bind_fill .., bind_fill ..⟩

omit h

mutual

/-- Code that ignores the default does what it does without it. -/
theorem evaluate (h : S.Secluded G e hidden scope s s') {t t' : State}
    (ht : S.Window scope id params params' front s s' t t') (x : Expr)
    (hx : x.ignores S.added.param = true) :
    (evaluate S.strict code scope x).Alongside (evaluate S.strict code' scope x) t t'
      fun v v' u u' => S.like v v' ∧ S.Window scope id params params' front s s' u u' := by
  rw [evaluate.eq_def, evaluate.eq_def S.strict code']
  refine .follow ?_
  cases x with
  | literal v => exact .pure ⟨S.likeness.refl v, ht⟩
  | var name =>
    obtain ⟨vars, vars', hvars, rfl, rfl⟩ := ht
    exact .of_agree (run_lookupVariable ..) (run_lookupVariable ..)
      (h.variableValue_agree hvars (of_decide_eq_true hx))
      fun _ _ hv => ⟨hv, _, _, hvars, rfl, rfl⟩
  | concat parts =>
    refine (evaluateAll h ht parts hx).bind fun values values' u u' hu => .pure ⟨?_, hu.2⟩
    rw [S.likeness.map_text_eq hu.1]
    exact S.likeness.refl _
  | list items =>
    exact (evaluateAll h ht items hx).bind fun values values' u u' hu =>
      .pure ⟨S.likeness.array hu.1, hu.2⟩
  | block statements => exact evaluateBlock h ht statements hx (S.likeness.refl _)
  | assign name value =>
    obtain ⟨hname, hvalue⟩ := (Bool.and_eq_true ..).mp hx
    refine (evaluate h ht value hvalue).bind fun v v' u u' hu => ?_
    exact (h.assign (of_decide_eq_true hname) hu.1 hu.2).bind fun _ _ _ _ hw =>
      .pure ⟨S.likeness.refl _, hw⟩
  | includes _ => cases hx
  | classDecl _ _ => cases hx
  | declare _ _ _ => cases hx
termination_by structural x

theorem evaluateAll (h : S.Secluded G e hidden scope s s') {t t' : State}
    (ht : S.Window scope id params params' front s s' t t') (es : List Expr)
    (hx : Expr.allIgnore S.added.param es = true) :
    (evaluateAll S.strict code scope es).Alongside (evaluateAll S.strict code' scope es) t t'
      fun vs vs' u u' =>
      List.Forall₂ S.like vs vs' ∧ S.Window scope id params params' front s s' u u' := by
  cases es with
  | nil => exact .pure ⟨.nil, ht⟩
  | cons x rest =>
    obtain ⟨hfirst, hrest⟩ := (Bool.and_eq_true ..).mp hx
    refine (evaluate h ht x hfirst).bind fun v v' u u' hu => ?_
    exact (evaluateAll h hu.2 rest hrest).bind fun vs vs' w w' hw => .pure ⟨.cons hu.1 hw.1, hw.2⟩
termination_by structural es

theorem evaluateBlock (h : S.Secluded G e hidden scope s s') {t t' : State}
    (ht : S.Window scope id params params' front s s' t t') (es : List Expr)
    (hx : Expr.allIgnore S.added.param es = true) {last last' : Value} (hlast : S.like last last') :
    (evaluateBlock S.strict code scope last es).Alongside
      (evaluateBlock S.strict code' scope last' es) t t'
      fun v v' u u' => S.like v v' ∧ S.Window scope id params params' front s s' u u' := by
  cases es with
  | nil => exact .pure ⟨hlast, ht⟩
  | cons x rest =>
    obtain ⟨hfirst, hrest⟩ := (Bool.and_eq_true ..).mp hx
    refine (evaluate h ht x hfirst).bind fun v v' u u' hu => ?_
    exact evaluateBlock h hu.2 rest hrest hu.1
termination_by structural es

end

/-- The defaults that come before it do not look at the default that is passed. -/
theorem bindDefaults (h : S.Secluded G e hidden scope s s') (hd : S.added.TypeSpelled d d')
    {r r' : Resource} (hr : s.catalog.get? id = some r) (hr' : s'.catalog.get? id = some r')
    {supplied supplied' : Table Value}
    (hhas : ∀ name, name ≠ S.added.param → supplied'.has name = supplied.has name)
    {before rest : Table (Option Expr)} (hnot : S.added.param ∉ before.keys)
    (hignores : ∀ q ∈ before, supplied.has q.1 = false → ∀ x, q.2 = some x →
      x.ignores S.added.param = true)
    {front' : Option Value} {Q : Unit → Unit → State → State → Prop}
    (hvars : Table.Beside S.like S.added.param front vars vars')
    (hparams : Table.Beside S.like S.added.param front' params params')
    (hend : ∀ vars vars' params params',
      Table.Beside S.like S.added.param front vars vars' →
      Table.Beside S.like S.added.param front' params params' →
      (bindDefaults S.strict code d id reference supplied scope rest).Alongside
        (bindDefaults S.strict code' d' id reference supplied' scope rest)
        (s.fill scope vars id params) (s'.fill scope vars' id params') Q) :
    (bindDefaults S.strict code d id reference supplied scope (before ++ rest)).Alongside
      (bindDefaults S.strict code' d' id reference supplied' scope (before ++ rest))
      (s.fill scope vars id params) (s'.fill scope vars' id params') Q := by
  obtain ⟨c, c', hc, hc'⟩ := h.exists_scope
  induction before generalizing vars vars' params params' with
  | nil => exact hend _ _ _ _ hvars hparams
  | cons q before ih =>
    obtain ⟨param, default⟩ := q
    obtain ⟨hother, hrest⟩ := not_or.mp (mt List.mem_cons.mpr hnot)
    obtain ⟨hfirst, hlater⟩ := List.forall_mem_cons.mp hignores
    have hne : param ≠ S.added.param := Ne.symm hother
    have hsame := hhas param hne
    rw [List.cons_append]
    cases hgiven : supplied.has param with
    | true =>
      rw [bindDefaults_cons_of_has hgiven, bindDefaults_cons_of_has (hsame.trans hgiven)]
      exact ih hrest hlater hvars hparams
    | false =>
      cases default with
      | none =>
        rw [bindDefaults_cons_none hgiven, bindDefaults_cons_none (hsame.trans hgiven)]
        obtain ⟨body, rfl, -⟩ := hd
        exact .stop _
      | some x =>
        rw [bindDefaults_cons_some hgiven, bindDefaults_cons_some (hsame.trans hgiven)]
        refine (evaluate h ⟨_, _, hvars, rfl, rfl⟩ x (hfirst hgiven x rfl)).bind ?_
        rintro v v' _ _ ⟨hv, vars, vars', hvars, rfl, rfl⟩
        refine .bind_left (run_bind_fill hc ..) (.bind_right (run_bind_fill hc' ..) ?_)
        refine .bind_left (run_setParameter_fill hr ..) (.bind_right
          (run_setParameter_fill hr' ..) ?_)
        exact ih hrest hlater (hvars.insert hne hv) (hparams.insert hne hv)

end Secluded

end Window

/-! ## All parameters -/

theorem valuesOf_eq_nil_of_append {t f b : Table Value} {name : String} (h : t.keys = (f ++ b).keys)
    (hnot : name ∉ t.keys) : f.valuesOf name = [] ∧ b.valuesOf name = [] := by
  have hall : (f ++ b : Table Value).valuesOf name = [] := Table.valuesOf_eq_nil.mpr (h ▸ hnot)
  rwa [Table.valuesOf_append, List.append_eq_nil_iff] at hall

/-- A declaration with the default, besides the one without it. -/
theorem beside_of_added {f b : Table Value} (h : S.Same params (f ++ b))
    (hnot : S.added.param ∉ params.keys) :
    Table.Beside S.like S.added.param (some S.added.value) params
      (f ++ (S.added.param, S.added.value) :: b) := by
  obtain ⟨hf, hb⟩ := valuesOf_eq_nil_of_append h.keys_eq.symm hnot
  refine ⟨fun other hne => ?_, ?_, ?_⟩
  · have hother := Table.Alike.of_forall₂ h other
    rwa [Table.valuesOf_append, Table.valuesOf_cons, if_neg (Ne.symm hne),
      ← Table.valuesOf_append]
  · rw [Table.valuesOf_eq_nil.mpr hnot, Table.valuesOf_append, Table.valuesOf_cons, if_pos rfl, hf,
      hb]
    exact .nil
  · rw [Table.find?_eq_head?, Table.valuesOf_append, Table.valuesOf_cons, if_pos rfl, hf]
    rfl

/-- A declaration with the default has the parameter, and of the others those that it had. -/
theorem has_added {f b : Table Value} (h : S.Same params (f ++ b)) :
    Table.has (f ++ (S.added.param, S.added.value) :: b) S.added.param = true ∧
      ∀ name, name ≠ S.added.param →
        Table.has (f ++ (S.added.param, S.added.value) :: b) name = params.has name := by
  constructor
  · rw [Table.has_iff_mem_keys]
    simp [Table.keys]
  · intro name hname
    refine has_eq_of_mem_iff ?_
    rw [← h.keys_eq]
    simp [Table.keys, hname]

theorem builtinVariables_rel (hd : S.added.TypeSpelled d d') {r : Resource} {front : Option Value}
    (hparams : Table.Beside S.like S.added.param front r.params params')
    (callerModule : Option String) :
    List.Forall₂ (fun a b => a.1 = b.1 ∧ (a.1 ≠ S.added.param → a.2 = b.2))
      (builtinVariables d r callerModule)
      (builtinVariables d' { r with params := params' } callerModule) := by
  obtain ⟨body, rfl, -⟩ := hd
  refine .cons ⟨rfl, fun _ => rfl⟩ (.cons ⟨rfl, fun hne => ?_⟩ (List.forall₂_same.mpr
    fun _ _ => ⟨rfl, fun _ => rfl⟩))
  have hname := name_eq_of_rel (S := S) (r := r) (hparams.find? hne)
  dsimp only
  rw [hname]

theorem acceptsParameter_added {resolved : Option TypeId} :
    Descriptor.acceptsParameter { S.added.descriptor with resolved } S.added.param = true := by
  have hhas : S.added.descriptor.parameters.has S.added.param = true := by
    rw [Table.has_iff_mem_keys, S.added.parameters]
    simp [Table.keys]
  simp [Descriptor.acceptsParameter, hhas]

theorem builtinVariables_eq (hd : S.added.TypeSpelled d d') {r : Resource}
    (h : S.Same r.params params') (callerModule : Option String) :
    builtinVariables d' { r with params := params' } callerModule =
      builtinVariables d r callerModule := by
  obtain ⟨body, rfl, -⟩ := hd
  unfold builtinVariables
  rw [name_eq_of_rel (S := S) (h.find? "name")]

/-- A resource that was declared without the default in both compilations has nothing to catch up
with. -/
theorem Related.settle_same {e : Preparation} {hidden : List ScopeId} {s s' : State}
    (h : S.Related (G.before e hidden) s s') (hfree : ¬G.Prepares e.id) {r r' : Resource}
    (hr : s.catalog.get? e.id = some r) (hr' : s'.catalog.get? e.id = some r')
    (hsame : S.Same r.params r'.params) : S.Related (G.begin e.id) s s' := by
  have hsettled := h.settle hfree (f := id) (g := id) (fun q q' hq hq' _ hshape => by
    cases hr.symm.trans hq
    cases hr'.symm.trans hq'
    exact ⟨hshape, .of_forall₂ hsame⟩) fun _ => ⟨rfl, rfl, rfl, rfl, id⟩
  have hid : ∀ c : Catalog, c.modify e.id id = c := fun c =>
    congrArg (Catalog.mk _ _ · _ _) (List.modify_id ..)
  rwa [hid, hid] at hsettled

/-- A resource that was declared with the default in the second compilation. -/
theorem bindParameters_added {e : Preparation} {hidden : List ScopeId} {s s' : State}
    (hcode : CodeMirrors S code code') (htop : G.Sees Scopes.top "")
    (hnot : Scopes.top ∉ hidden) (hG : G.Sees scope space) (hfree : ¬G.Prepares e.id)
    (hscope : scope ∈ hidden) (h : S.Related (G.before e hidden) s s') {r : Resource}
    (hr : s.catalog.get? e.id = some r)
    (hr' : s'.catalog.get? e.id = some { r with params := params' })
    (hadded : S.Added r.params params') (hd : S.added.TypeSpelled d d')
    {resolved : Option TypeId} (hd₀ : d = { S.added.descriptor with resolved })
    (callerModule : Option String) :
    (do
      bindSupplied d reference scope r.params
      bindBuiltin r.params scope (builtinVariables d r callerModule)
      bindDefaults S.strict code d e.id reference r.params scope d.parameters : Run Unit).Alongside
    (do
      bindSupplied d' reference scope params'
      bindBuiltin params' scope (builtinVariables d' { r with params := params' } callerModule)
      bindDefaults S.strict code' d' e.id reference params' scope d.parameters : Run Unit) s s'
      fun _ _ t t' => S.Related (G.begin e.id) t t' := by
  obtain ⟨⟨f, b, rfl, hsame⟩, hmissing, hignores⟩ := hadded
  obtain ⟨hbefore, hafter⟩ := S.added.not_mem_keys
  have hparameters : d.parameters = S.added.before ++
      (S.added.param, some (.literal S.added.value)) :: S.added.after := by
    rw [hd₀]
    exact S.added.parameters
  have haccepts : d.acceptsParameter S.added.param = true := hd₀ ▸ acceptsParameter_added
  have hno : r.params.has S.added.param = false := by
    rw [← Bool.not_eq_true, Table.has_iff_mem_keys]
    exact hmissing
  obtain ⟨hyes, hhas⟩ := has_added hsame
  have hgiven := beside_of_added hsame hmissing
  obtain ⟨c, hc, -⟩ := h.fits.spaces _ hG.known
  obtain ⟨_, hc', vars, rfl, hvars⟩ := h.exists_scope hc
  rw [← State.fill_self hc hr, ← State.fill_self hc' hr']
  refine bindSupplied_added hc hc' hd haccepts hsame hmissing (hvars.beside _)
    fun vars vars' hvars => ?_
  refine bindBuiltin_window hc hc' hhas hno hyes (builtinVariables_rel hd hgiven callerModule) hvars
    fun vars vars' hvars => ?_
  rw [hparameters]
  refine Secluded.bindDefaults ⟨h, hscope, hnot⟩ hd hr hr' hhas hbefore
    (fun q hq hmissing x hx => hignores q hq (fun hmem => ?_) x hx) hvars hgiven
    fun vars vars' params params' hvars hparams => ?_
  · rw [Table.has_iff_mem_keys.mpr hmem] at hmissing
    cases hmissing
  · rw [bindDefaults_cons_some hno, bindDefaults_cons_of_has hyes]
    have hliteral : ∀ u, (evaluate S.strict code scope (.literal S.added.value)).run u =
        (.ok S.added.value, u) := fun _ => rfl
    refine .bind_left (hliteral _) (.bind_left (run_bind_fill hc ..)
      (.bind_left (run_setParameter_fill hr ..) ?_))
    have hrelated := h.fill hfree scope (hvars.alike S.coerced)
      (hparams.alike (S.likeness.refl S.added.value))
    refine (Mirrors.bindDefaults (F := G.begin e.id) hcode ⟨htop.known, htop.notHidden, htop.entered⟩
      ⟨hG.known, hG.notHidden, hG.entered⟩ List.mem_cons_self hfree hd (fun q hq => ?_) _ _
      hrelated).mono fun _ _ _ _ ht => ht.1
    exact hhas q.1 fun heq => hafter (heq ▸ List.mem_map_of_mem (f := (·.1)) hq)

/-- Once its parameters are bound, a resource has them in both compilations. Its scope is one to which
nothing refers yet, unless it belongs to the unnamed class. -/
theorem bindParameters_alongside {e : Preparation} {hidden : List ScopeId} {s s' : State}
    (hcode : CodeMirrors S code code') (htop : G.Sees Scopes.top "")
    (hnot : Scopes.top ∉ hidden) (hG : G.Sees scope space) (hfree : ¬G.Prepares e.id)
    (hown : scope ∈ hidden ∨ (e.type = S.added.type →
      S.added.descriptor.kind = .hostclass ∧ e.title = mainTitle))
    (h : S.Related (G.before e hidden) s s') :
    (bindParameters S.strict code e.type e.id scope).Alongside
      (bindParameters S.strict code' e.type e.id scope) s s'
      fun _ _ t t' => S.Related (G.begin e.id) t t' := by
  have htop' : (G.begin e.id).Sees Scopes.top "" := ⟨htop.known, htop.notHidden, htop.entered⟩
  have hG' : (G.begin e.id).Sees scope space := ⟨hG.known, hG.notHidden, hG.entered⟩
  have hbegun : e.id ∈ (G.begin e.id).begun := List.mem_cons_self
  refine h.typeAt_bind e.type fun d d' hd => h.resourceAt_bind e.id fun r r' hr hr' hlike => ?_
  obtain ⟨q, hq, -, hsource, htitle⟩ := h.fits.preparing e List.mem_cons_self
  cases hr.symm.trans hq
  obtain ⟨params', rfl⟩ : ∃ params', r' = { r with params := params' } := ⟨_, hlike.shape⟩
  refine h.scopeAt_bind r.scope fun _ _ _ _ _ => .get_bind ?_
  dsimp only
  rw [h.moduleName_eq]
  refine .searched_bind fun callerModule => ?_
  obtain ⟨hd, d₀, resolved, hd₀, hknown⟩ := hd
  have hdefaults : d'.parameters = d.parameters := by
    obtain ⟨body, rfl, -⟩ := hd
    rfl
  rw [hdefaults]
  rcases hlike.raw (.inr ⟨e, List.mem_cons_self, rfl⟩) with hsame | ⟨hadded, htype, hmain⟩
  · have hhas : ∀ name, params'.has name = r.params.has name := fun name =>
      has_eq_of_mem_iff (by rw [hsame.keys_eq])
    rw [builtinVariables_eq hd hsame]
    have hmirrors : S.Mirrors (G.begin e.id) (do
        bindSupplied d r.reference scope r.params
        bindBuiltin r.params scope (builtinVariables d r callerModule)
        bindDefaults S.strict code d e.id r.reference r.params scope d.parameters : Run Unit) (do
        bindSupplied d' r.reference scope params'
        bindBuiltin params' scope (builtinVariables d r callerModule)
        bindDefaults S.strict code' d' e.id r.reference params' scope d.parameters : Run Unit)
        fun _ _ => True :=
      .bind (.bindSupplied hd hsame) fun _ _ _ => .bind (.bindBuiltin hhas _) fun _ _ _ =>
        .bindDefaults hcode htop' hG' hbegun hfree hd fun q _ => hhas q.1
    exact (hmirrors s s' (h.settle_same hfree hr hr' hsame)).mono fun _ _ _ _ ht => ht.1
  · have heq : e.type = S.added.type := Option.some.inj (hsource.symm.trans htype)
    have hscope : scope ∈ hidden := hown.resolve_right fun hno => by
      obtain ⟨hkind, hmainTitle⟩ := hno heq
      exact hmain ⟨hkind, htitle.trans hmainTitle⟩
    rw [heq] at hd₀
    cases hd₀.symm.trans (Registry.get?_withMain S.added.known)
    exact bindParameters_added hcode htop hnot hG hfree hscope h hr hr' hadded hd hknown callerModule

end Spelling

end SiteCatalog.Compilation
