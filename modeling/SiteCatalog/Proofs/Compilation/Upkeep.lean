import SiteCatalog.Proofs.Compilation.Keeping
import SiteCatalog.Proofs.Compilation.Walk

/-!
# What holds whenever a call begins or ends

A condition on states that does not look at scopes and at the evaluation of resources, and that the
entering of classes and nodes and the declaration of other resources uphold, holds whenever a call
of a compilation begins or ends.

Results:
* `Steady`: the changes that a condition has to withstand.
* `Steady.walk`: evaluation upholds it.
* `Steady.of_mem_history`: it holds at every beginning and every end of a call.
-/

namespace SiteCatalog.Compilation

open Run (Upholds)

/-- Nothing has been declared and nothing tagged. -/
structure Blank (s : State) : Prop where
  resources : s.catalog.resources = []
  tags : s.catalog.tags = []

/-- A condition `I` withstands everything that a compilation does in states that satisfy `J`. -/
structure Steady (J I : State → Prop) : Prop where
  blank : ∀ s, Blank s → I s
  scopes : ∀ s scopes, I s → I { s with scopes }
  log : ∀ s log, I s → I { s with log }
  modify : ∀ s id (f : Resource → Resource),
    (∀ r, f r = { r with params := (f r).params, evaluated := (f r).evaluated }) → J s →
      I s → I { s with catalog := s.catalog.modify id f }
  lists : ∀ s version classes, I s →
    I { s with catalog := { s.catalog with version, classes } }
  ancestry : ∀ type scope, (ancestry type scope).Upholds J I
  ensure : ∀ type scope params, (ensure type scope params).Upholds J I
  declare : ∀ type title scope params s, J s → I s →
    (addResource (.ofType type title scope none params)).Keeps J I s fun _ t => I t
  instantiate : ∀ type d title scope params s, J s → I s → s.types.get? type = some d →
    d.kind = .define →
    (addResource (.ofType d.resourceTag title scope (some type) params)).Keeps J I s fun _ t => I t

variable {J I : State → Prop} {strict : Bool}

theorem Run.Upholds.composed : Compositional fun _ p => p.Upholds J I where
  pure := fun _ => .pure
  stop := fun _ => .stop
  bind := .bind
  get_bind := .get_bind
  follow := .follow

namespace Steady

theorem markEvaluated (h : Steady J I) (id : ResourceId) :
    (modifyCatalog (·.markEvaluated id)).Upholds J I :=
  .update fun s hs _ hI => h.modify s id _ (fun _ => rfl) hs hI

/-- The evaluation of everything upholds the condition. -/
theorem walk (h : Steady J I) : Walk fun _ p => p.Upholds J I where
  toCompositional := Upholds.composed
  modifyScopes := fun _ => .update fun s _ _ hI => h.scopes s _ hI
  note := fun _ => .update fun s _ _ hI => h.log s _ hI
  setParameter := fun id _ _ => .update fun s hs _ hI => h.modify s id _ (fun _ => rfl) hs hI
  addClass := fun _ => .update fun s _ _ hI => h.lists s _ _ hI
  ancestry := h.ancestry
  request := Upholds.composed.request h.markEvaluated h.ensure
  declareOther := by
    intro scope type title params _ _ s hs hI
    refine .scopeAt_bind hI fun c _ => .get_bind ?_
    split
    · next type' hfind =>
      refine .typeAt_bind hI fun d hd => h.instantiate _ d title scope params s hs hI hd ?_
      obtain ⟨d', hd', hk⟩ := Registry.get?_of_find hfind
      rw [hd] at hd'
      cases hd'
      exact hk
    · exact h.declare type title scope params s hs hI

/-! ## The phases -/

theorem bindAtTop (h : Steady J I) : ∀ (facts : Table Value) {s : State}, J s → Blank s →
    (Compilation.bindAtTop facts).Keeps J I s fun _ t => Blank t := by
  intro facts
  induction facts with
  | nil => exact fun _ hb => .pure hb
  | cons fact rest ih =>
    intro s hs hb
    obtain ⟨name, value⟩ := fact
    refine .bind hs (P := fun _ t => Blank t) ?_ fun _ t ht hb' => ih ht hb'
    exact .scopeAt_bind (h.blank s hb) fun _ _ => .update fun _ => ⟨hb.resources, hb.tags⟩

section Phases

variable (h : Steady J I)

include h

theorem evaluateMain {s : State} (hs : J s) (hb : Blank s) :
    (evaluateMain strict).Keeps J I s fun _ t => I t := by
  have hI := h.blank s hb
  refine .get_bind ?_
  dsimp only
  split
  · exact h.walk.evaluateAtTop _ s hs hI
  · refine .bind hs (P := fun _ t => I t) ?_ fun type t ht hI' => h.walk.evaluateAtTop type t ht hI'
    refine .get_bind (.ofExcept_bind hI fun x _ => ?_)
    refine .bind hs (.update (P := fun _ t => I t) fun _ => h.blank _ ⟨hb.resources, hb.tags⟩) ?_
    exact fun _ _ _ hI' => .pure hI'

theorem phases (rounds : ℕ) (host : Host) (settings : Settings) {s : State} (hs : J s)
    (hb : Blank s) : (phases rounds host settings).Keeps J I s fun _ t => I t := by
  refine .bind hs (h.bindAtTop host.allFacts hs hb) fun _ s₁ hs₁ hb₁ => ?_
  refine .bind hs₁ (h.evaluateMain hs₁ hb₁) fun _ s₂ hs₂ hI₂ => ?_
  refine .bind hs₂ (h.walk.evaluateNode host s₂ hs₂ hI₂) fun _ s₃ hs₃ hI₃ => ?_
  refine .bind hs₃ (h.walk.includeClasses h.walk.runCode host.classes s₃ hs₃ hI₃)
    fun _ s₄ hs₄ hI₄ => ?_
  refine .bind hs₄ (h.walk.evaluateDefinitions h.markEvaluated rounds s₄ hs₄ hI₄) fun _ s₅ hs₅ hI₅ => ?_
  exact .update fun _ => h.lists s₅ _ _ hI₅

/-- A steady condition holds whenever a call of a compilation begins or ends. -/
theorem of_mem_history {rounds : ℕ} {types : Registry} {host : Host} {settings : Settings}
    (hJ : ∀ s ∈ states rounds types host settings, J s) {v : Visit}
    (hv : v ∈ history rounds types host settings) (hevent : v.event ≠ .change) : I v.state := by
  have hstart := hJ _ List.mem_cons_self
  refine (h.phases rounds host settings hstart ⟨rfl, rfl⟩ [] fun w hw => ?_).1 v hv hevent
  exact hJ _ (List.mem_cons_of_mem _ (List.mem_map_of_mem hw))

end Phases

end Steady

end SiteCatalog.Compilation
