import SiteCatalog.Proofs.Compilation.Parameters
import SiteCatalog.Proofs.Compilation.Spelling.Operations

/-!
# Coerced variables

A value that is passed as a parameter is coerced before it is bound. Where expressions only give
values, it makes no difference to their texts which variables are bound to coerced values: a string
is joined from texts, and what is found in a list has the same text as before.

Results:
* `State.coerceVars`: a state in which some variables are bound to coerced values.
* `agree_valueIn`: an expression has values that pass for each other where its variables have.
* `evaluate_coerceVars`: it is evaluated to the same text, or fails for the same reason.
-/

namespace SiteCatalog

/-- Scopes in which the chosen variables are bound to their coerced values. -/
def Scopes.coerceVars (chosen : ScopeId → String → Bool) (s : Scopes) : Scopes :=
  { s with arena := s.arena.mapIdx fun k c =>
      { c with vars := c.vars.map fun e => (e.1, if chosen k e.1 then e.2.coerce else e.2) } }

namespace Scopes

variable (chosen : ScopeId → String → Bool) (s : Scopes)

theorem get?_coerceVars (k : ScopeId) :
    (s.coerceVars chosen).get? k = (s.get? k).map fun c =>
      { c with vars := c.vars.map fun e => (e.1, if chosen k e.1 then e.2.coerce else e.2) } :=
  List.getElem?_mapIdx

theorem parent?_coerceVars : (s.coerceVars chosen).parent? = s.parent? := by
  funext k
  rw [parent?, get?_coerceVars, parent?]
  cases s.get? k <;> rfl

theorem lookupLocal_coerceVars (k : ScopeId) (name : String) :
    (s.coerceVars chosen).lookupLocal k name =
      (s.lookupLocal k name).map fun v => if chosen k name then v.coerce else v := by
  rw [lookupLocal, get?_coerceVars, lookupLocal]
  cases s.get? k with
  | none => rfl
  | some c => exact Table.find?_map (fun x v => if chosen k x then v.coerce else v) c.vars name

end Scopes

namespace Compilation

/-- The state in which the chosen variables are bound to their coerced values. -/
def State.coerceVars (chosen : ScopeId → String → Bool) (s : State) : State :=
  { s with scopes := s.scopes.coerceVars chosen }

/-- A variable that is found in a state is found when variables have been coerced, and its value
passes for what it was before. -/
theorem lookup_coerceVars (chosen : ScopeId → String → Bool) (s : Scopes) (k : ScopeId)
    (name : String) : Option.Rel (Option.Rel fun v w => v.coerce = w.coerce) (s.lookup k name)
      ((s.coerceVars chosen).lookup k name) := by
  have hlength : (s.coerceVars chosen).arena.length = s.arena.length := List.length_mapIdx
  refine Scopes.lookup_rel (P := fun _ => True) hlength (s.parent?_coerceVars chosen)
    (fun _ _ _ _ => trivial) (fun i _ => ?_) trivial
  rw [s.lookupLocal_coerceVars chosen]
  cases s.lookupLocal i name with
  | none => exact .none
  | some v =>
    refine .some ?_
    split
    · exact v.coerce_coerce.symm
    · rfl

/-- Variables have values that pass for each other, whichever of them are coerced. -/
theorem agree_variableValue_coerceVars (strict : Bool) (chosen : ScopeId → String → Bool)
    (s : State) (scope : ScopeId) (name : String) :
    Agree (fun v w => v.coerce = w.coerce) (variableValue strict s scope name)
      (variableValue strict (s.coerceVars chosen) scope name) := by
  have hplace : variablePlace? (s.coerceVars chosen) scope name = variablePlace? s scope name := rfl
  refine agree_variableValue Value.likeness_coerce.refl strict hplace (fun k => ?_)
    fun place var _ => lookup_coerceVars chosen s.scopes place var
  rw [State.coerceVars, Scopes.get?_coerceVars, Option.isSome_map]

section Values

variable {ε : Type} {V : Value → Value → Prop} {look look' : String → Except ε Value}

mutual

/-- Where variables have values that pass for each other, expressions without statements have. -/
theorem agree_valueIn (hV : Value.Likeness V) (hlook : ∀ name, Agree V (look name) (look' name)) :
    ∀ e : Expr, e.isPlain = true → Agree V (e.valueIn look) (e.valueIn look')
  | .literal v, _ => hV.refl v
  | .var name, _ => hlook name
  | .concat parts, h => by
    -- the texts of the parts are the same, so the two strings are equal and not only related
    refine (agree_valuesIn hV hlook parts h).bind fun vs ws hvs => ?_
    rw [hV.map_text_eq hvs]
    exact hV.refl _
  | .list items, h => (agree_valuesIn hV hlook items h).bind fun _ _ hvs => hV.array hvs

theorem agree_valuesIn (hV : Value.Likeness V) (hlook : ∀ name, Agree V (look name) (look' name)) :
    ∀ es : List Expr, Expr.arePlain es = true →
      Agree (List.Forall₂ V) (Expr.valuesIn look es) (Expr.valuesIn look' es)
  | [], _ => .nil
  | e :: rest, h => by
    rw [Expr.arePlain, Bool.and_eq_true] at h
    exact (agree_valueIn hV hlook e h.1).bind fun v w hv =>
      (agree_valuesIn hV hlook rest h.2).bind fun vs ws hvs => .cons hv hvs

end

end Values

/-- A coerced value stays as it is when it is coerced again, and has the text that it had before. So
it makes no difference to the evaluation of an expression without statements which variables are
bound to coerced values: it succeeds with the same text, or fails for the same reason, and changes
nothing. -/
theorem evaluate_coerceVars :
    (∀ v : Value, v.coerce.coerce = v.coerce ∧ v.coerce.text = v.text) ∧
    ∀ (strict : Bool) (code : Code) (scope : ScopeId) (chosen : ScopeId → String → Bool) (s : State)
      (e : Expr), e.isPlain = true → ∃ x y,
        (evaluate strict code scope e).run s = (x, s) ∧
        (evaluate strict code scope e).run (s.coerceVars chosen) = (y, s.coerceVars chosen) ∧
        x.map Value.text = y.map Value.text := by
  refine ⟨fun v => ⟨v.coerce_coerce, v.text_coerce⟩, fun strict code scope chosen s e he => ?_⟩
  refine ⟨_, _, run_evaluate_plain strict code scope s e he,
    run_evaluate_plain strict code scope (s.coerceVars chosen) e he, ?_⟩
  have hvalues := agree_valueIn Value.likeness_coerce
    (agree_variableValue_coerceVars strict chosen s scope) e he
  exact hvalues.map_eq fun _ _ => Value.likeness_coerce.text

/-- A scope in which a port is bound to a number, below the top, where flags are bound to nested
lists. -/
def portAndFlags : State where
  types := .empty "production"
  scopes := ⟨[{ vars := [("flags", .array [.bool true, .array [.int (-8), .undefined]])] },
    { vars := [("port", .int 80)], parent := some Scopes.top }], []⟩
  catalog := .empty "web01"
  log := []

/-- The port within a string, the flags, and a variable that is not bound. -/
def listening : Expr :=
  .list [.concat [.literal (.str "listen "), .var "port"], .var "flags", .var "::missing"]

/-- The flags are lists of strings after coercion, but are printed as before. -/
theorem evaluate_coerceVars_listening : listening.isPlain = true ∧
    (portAndFlags.coerceVars fun _ _ => true).scopes.lookup 1 "flags" =
      some (some (.array [.str "true", .array [.str "-8", .undefined]])) ∧
    ∃ v w, (evaluate false (fun _ _ => return ()) 1 listening).run portAndFlags =
        (.ok v, portAndFlags) ∧
      (evaluate false (fun _ _ => return ()) 1 listening).run
          (portAndFlags.coerceVars fun _ _ => true) =
        (.ok w, portAndFlags.coerceVars fun _ _ => true) ∧
      v.text = w.text ∧ w.text = "[listen 80, [true, [-8, ]], ]" := by
  obtain ⟨x, y, hx, hy, htext⟩ := evaluate_coerceVars.2 false (fun _ _ => return ()) 1
    (fun _ _ => true) portAndFlags listening rfl
  have hw : (evaluate false (fun _ _ => return ()) 1 listening).run
      (portAndFlags.coerceVars fun _ _ => true) =
        (.ok (.array [.str "listen 80", .array [.str "true", .array [.str "-8", .undefined]],
          .undefined]), portAndFlags.coerceVars fun _ _ => true) := rfl
  cases hy.symm.trans hw
  cases x with
  | error f => cases htext
  | ok v => exact ⟨rfl, rfl, v, _, hx, hy, Except.ok.inj htext, rfl⟩

end Compilation

end SiteCatalog
