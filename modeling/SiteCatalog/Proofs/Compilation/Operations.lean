import SiteCatalog.Proofs.Compilation.Pieces
import SiteCatalog.Proofs.Compilation.Ready

/-!
# Operations

Everything that a body can do, for any way of running the code of types that keeps to the contract.

Results:
* `RunsCode`: what is expected of the running of code.
* `Works`: an operation keeps to the contract and leaves the nested evaluations as it found them.
* `includeClass_works`, `declareResource_works`: the operations that run code keep to the contract.
* `pieces_works`: so do expressions and bodies, which are put together from them.
-/

namespace SiteCatalog.Compilation

/-- What is expected of the running of code, nested `n` deep at most, for a resource that has just
been marked as evaluated. -/
def RunsCode (code : Code) (n : ℕ) : Prop :=
  ∀ calls o id r t d, Sound o → Begins o id r t d → Ready calls (some t) o →
    remaining (o.mark id) < n →
    (code t id).Meets (lawfully r.scope o) calls [⟨.change, calls, o.mark id⟩] (o.mark id)
      fun _ s => Ready calls none s ∧ Evaluated s t

/-- Operations may be called in a scope, with `n` nested runs of code at most. -/
structure Able (calls : List Call) (n : ℕ) (scope : ScopeId) (s : State) : Prop where
  sound : Sound s
  ready : Ready calls none s
  scope : scope < s.scopes.arena.length
  room : remaining s ≤ n

/-- An operation in a scope keeps to the contract. -/
def Works {α : Type} (calls : List Call) (scope : ScopeId) (s : State) (p : Run α) : Prop :=
  p.Meets (lawfully scope s) calls [] s fun _ t => Ready calls none t

variable {calls : List Call} {n : ℕ} {scope : ScopeId} {s t : State} {h : List Visit}

namespace Able

theorem of_underway (ha : Able calls n scope s) (hu : Underway scope s h t)
    (hr : Ready calls none t) : Able calls n scope t where
  sound := hu.course.sound
  ready := hr
  scope := ha.scope.trans_le hu.course.step.length_le
  room := (remaining_le_of_step hu.course.step).trans ha.room

theorem operation (ha : Able calls n scope s) {c : Call} (hc : c.IsOperation) :
    Able (c :: calls) n scope s :=
  ⟨ha.sound, (Ready.of_operation hc).mpr ha.ready, ha.scope, ha.room⟩

end Able

namespace Works

variable {α β : Type} {p : Run α} {k : α → Run β}

theorem pure (ha : Able calls n scope s) (a : α) : Works calls scope s (Pure.pure a : Run α) :=
  Run.Meets.pure (.start ha.sound) ha.ready

theorem fail (ha : Able calls n scope s) (e : CompileError) :
    Works calls scope s (Compilation.fail e : Run α) :=
  (Underway.start ha.sound).fails e

theorem bind (ha : Able calls n scope s) (hp : Works calls scope s p)
    (hk : ∀ a t, Able calls n scope t → Works calls scope t (k a)) :
    Works calls scope s (p >>= k) := by
  refine Run.Meets.bind hp fun a h t hok hr => ?_
  exact (hok.resume (fun _ => rfl) (hk a t (ha.of_underway hok hr))).mono fun _ _ hx => hx.1

theorem follow {c : Call} (ha : Able calls n scope s) (hc : c.IsOperation)
    (hp : Works (c :: calls) scope s p) : Works calls scope s (Compilation.follow c p) :=
  .follow_operation ha.sound hc (hp.mono fun _ _ => (Ready.of_operation hc).mp)

/-- A single change that touches neither types nor resources nor the scopes of classes. -/
theorem update {f : State → State} (ha : Able calls n scope s) (hs : Sound (f s))
    (hstep : Step scope s (f s)) (hty : (f s).types = s.types)
    (hres : (f s).catalog = s.catalog) (hof : (f s).scopes.ofTypes = s.scopes.ofTypes) :
    Works calls scope s (Compilation.update f) := by
  have hst : SameStatus s (f s) := fun id => by rw [hres]
  refine (Run.Meets.update ?_).mono ?_
  · exact (Underway.start ha.sound).change hs hstep hty (by rw [hres]) hst hof
  · rintro - t rfl
    exact ha.ready.congr hty hst hof

end Works

/-! ## Variables -/

theorem place_lt {anywhere : Prop} (hs : Sound s anywhere) {name var : String} {place : ScopeId}
    (hscope : scope < s.scopes.arena.length) (h : variablePlace? s scope name = some (place, var)) :
    place < s.scopes.arena.length := by
  unfold variablePlace? at h
  split at h
  · cases h; exact hscope
  · split at h
    · cases h
      obtain ⟨c, hc, -⟩ := hs.top
      exact Scopes.lt_length_of_get? hc
    · split at h
      · next classScope hclass =>
        cases h
        obtain ⟨t, -, ht⟩ := Option.bind_eq_some_iff.mp hclass
        exact hs.lt_of_classScope ht
      · cases h

theorem valueFound_works {strict : Bool} {name : String} (found : Option Value)
    (ha : Able calls n scope s) : Works calls scope s (valueFound strict name found) := by
  cases found with
  | some v => exact .pure ha v
  | none =>
    dsimp only [valueFound]
    split
    · exact .fail ha _
    · exact .pure ha _

theorem lookupVariable_works {strict : Bool} {name : String} (ha : Able calls n scope s) :
    Works calls scope s (lookupVariable strict scope name) := by
  refine Run.Meets.get_bind ?_
  dsimp only
  rcases hplace : variablePlace? s scope name with _ | ⟨place, var⟩
  · exact Works.bind ha (.pure ha none) fun found t ha => valueFound_works found ha
  · have hlt := place_lt ha.sound ha.scope hplace
    refine Run.Meets.scopeAt_bind (List.getElem?_eq_getElem hlt) (.get_bind ?_)
    exact .searched_bind (fun hnone => ⟨ha.sound.fair_of_lookup hlt hnone, .start ha.sound⟩)
      fun found _ => valueFound_works found ha

/-! ## Resources and classes -/

section Code

variable {code : Code} (hcode : RunsCode code n)

include hcode

/-- A resource with a source is evaluated, unless it has been. -/
theorem evaluateResource_meets {id : ResourceId} {r : Resource} {ty : TypeId} (hs : Sound s)
    (hr : s.catalog.get? id = some r) (hsrc : r.source = some ty)
    (hready : Ready calls (some ty) s)
    (hroom : r.evaluated = false → remaining (s.mark id) < n) :
    (evaluateResource code id).Meets (lawfully r.scope s) calls [] s
      fun _ t => Ready calls none t ∧ Evaluated t ty := by
  have hready' : Ready (.evaluateResource id :: calls) (some ty) s :=
    (Ready.of_operation (c := .evaluateResource id) trivial).mpr hready
  refine Run.Meets.mono (.follow_operation (P := fun _ t =>
    Ready (.evaluateResource id :: calls) none t ∧ Evaluated t ty) hs trivial ?_) ?_
  · refine .resourceAt_bind hr ?_
    split
    · next hev =>
      have he : Evaluated s ty := ⟨id, r, hr, hsrc, hev⟩
      exact .pure (.start hs) ⟨hready'.discharge he, he⟩
    · next hwait =>
      obtain ⟨d, hd⟩ : ∃ d, s.types.get? ty = some d :=
        ⟨_, List.getElem?_eq_getElem (hs.inRange.resourceSource id r ty hr hsrc)⟩
      have hwait' : r.evaluated = false := by simpa using hwait
      refine .update_bind ?_
      rw [hsrc]
      exact hcode _ s id r ty d hs ⟨hr, hsrc, hd, hwait'⟩ hready' (hroom hwait')
  · rintro - t ⟨hr, he⟩
    exact ⟨(Ready.of_operation (c := .evaluateResource id) trivial).mp hr, he⟩

theorem includeClass_works {name : String} {params : Table Value} (ha : Able calls n scope s) :
    Works calls scope s (includeClass code scope name params) := by
  refine .follow ha trivial ?_
  replace ha := ha.operation (c := .includeClass scope name params) trivial
  refine Run.Meets.scopeAt_bind (List.getElem?_eq_getElem ha.scope) (.get_bind ?_)
  split
  · exact Works.fail ha _
  · next ty hfind =>
    obtain ⟨d, hd, hk⟩ := Registry.get?_of_find hfind
    refine .bind ((Underway.start ha.sound).quietly (fun _ => rfl) (ensure_meets ha.sound
      ⟨ha.scope, fun _ => .inl ha.ready.main⟩ (Registry.lt_length_of_get? hd))) ?_
    rintro id h₁ t hu ⟨⟨hsing, r, hr, hsrc⟩, hq⟩
    have hready := (ha.ready.of_quiet ha.sound hq).with_due (some ty)
    have hroom : r.evaluated = false → remaining (t.mark id) < n := by
      intro hwait
      obtain ⟨d', hd', hk'⟩ := hsing
      have := remaining_mark_lt ⟨hr, hsrc, hd', hwait⟩ hu.course.sound hk'
      have := (remaining_le_of_step hu.course.step).trans ha.room
      omega
    refine .bind (hu.resume (hq.step.scope_of_hidden hr) (evaluateResource_meets hcode
      hu.course.sound hr hsrc hready hroom)) ?_
    rintro - h₂ u hu' ⟨⟨hready', -⟩, -⟩
    exact .pure hu' hready'

theorem declareResource_works {type title : String} {params : Table Value}
    (ha : Able calls n scope s) :
    Works calls scope s (declareResource code scope type title params) := by
  refine .follow ha trivial ?_
  replace ha := ha.operation (c := .declareResource scope type title params) trivial
  have hadd : ∀ r : Resource, r.scope = scope → r.evaluated = false →
      (∀ t, r.source = some t → ∃ d, s.types.get? t = some d ∧ d.kind = .define) →
      Works (.declareResource scope type title params :: calls) scope s (addResource r) := by
    intro r hr hwait hsource
    refine ((Underway.start ha.sound).quietly (fun _ => rfl)
      (addResource_meets ha.sound ha.scope hr hwait hsource)).mono ?_
    rintro - t ⟨-, hq⟩
    exact ha.ready.of_quiet ha.sound hq
  split
  · exact includeClass_works hcode ha
  · split
    · exact .fail ha _
    · refine Run.Meets.scopeAt_bind (List.getElem?_eq_getElem ha.scope) (.get_bind ?_)
      split
      · next ty hfind =>
        obtain ⟨d, hd, hk⟩ := Registry.get?_of_find hfind
        refine Run.Meets.typeAt_bind hd (hadd _ rfl rfl ?_)
        rintro _ ⟨⟩
        exact ⟨d, hd, hk⟩
      · exact hadd _ rfl rfl fun _ h => nomatch h

end Code

/-! ## Expressions and bodies -/

theorem assign_works {name : String} {value : Value} (ha : Able calls n scope s) :
    Works calls scope s (assign scope name value) := by
  refine Run.Meets.scopeAt_bind (List.getElem?_eq_getElem ha.scope) (.get_bind ?_)
  refine .ofExcept_bind (fun scopes hscopes => ?_) fun e _ => ⟨.error e, .start ha.sound⟩
  unfold Scopes.assign at hscopes
  split at hscopes
  · cases hscopes
  · next hnew =>
    cases hscopes
    exact Works.update ha (ha.sound.bind rfl rfl rfl) (.assign value (by simpa using hnew)) rfl rfl
      rfl

theorem note_works {text : String} (ha : Able calls n scope s) :
    Works calls scope s (note text) :=
  Works.update ha (ha.sound.of_types (.refl _) ha.sound.inRange.resolved rfl rfl)
    (.of_lists (.refl _) rfl rfl (List.prefix_refl _) (List.prefix_refl _)) rfl rfl rfl

/-- Expressions and bodies keep to the contract, if the running of code does. -/
theorem pieces_works {code : Code} (hcode : RunsCode code n) (strict : Bool) :
    Pieces strict code scope (fun calls s => Able calls n scope s)
      fun _ calls s p => Works calls scope s p where
  pure := fun a ha => .pure ha a
  fail := fun e ha => .fail ha e
  bind := fun ha hp hk => .bind ha hp hk
  follow := fun e _ ha hp => .follow ha trivial (hp (ha.operation (c := .evaluate scope e) trivial))
  lookupVariable := fun _ ha => lookupVariable_works ha
  assign := fun _ _ ha => assign_works ha
  includeClass := fun _ _ ha => includeClass_works hcode ha
  declareResource := fun _ _ _ ha => declareResource_works hcode ha
  note := fun _ ha => note_works ha

end SiteCatalog.Compilation
