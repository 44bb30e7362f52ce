import SiteCatalog.Manifest.Values
import SiteCatalog.Proofs.Compilation.Parameters
import SiteCatalog.Proofs.Interpolation
import SiteCatalog.Proofs.Registry

/-!
# Constants in manifests

A value that a manifest gives becomes an expression, and the same value among facts stands for
itself. A mapping has no expression, wherever it stands in sequences; any other value has one, and if
no string in it refers to a variable, the expression has the value that the fact would have.

Results:
* `Yaml.toExpr_eq_error_iff`: the values that have no expression.
* `Yaml.valueIn_toExpr`: the value of the expression, by induction on the nesting of sequences.
* `Yaml.run_evaluate_toExpr`: manifests and facts agree.
-/

namespace SiteCatalog

open Interpolation

theorem Expr.arePlain_iff {es : List Expr} :
    Expr.arePlain es = true ↔ ∀ e ∈ es, e.isPlain = true := by
  induction es with
  | nil => simp [Expr.arePlain]
  | cons e es ih => rw [Expr.arePlain, Bool.and_eq_true, ih, List.forall_mem_cons]

/-- The expression of a string has no statements. -/
theorem isPlain_interpolate (s : String) : (interpolate s).isPlain = true := by
  have hpart : ∀ p : Part, p.toExpr.isPlain = true := by rintro (_ | _) <;> rfl
  unfold interpolate
  split
  · rfl
  · exact hpart _
  · rw [Expr.isPlain, Expr.arePlain_iff]
    intro e he
    obtain ⟨p, -, rfl⟩ := List.mem_map.mp he
    exact hpart p

namespace Yaml

/-- A value is another one, or an item of it, or one of an item, and so on through sequences. -/
inductive Reaches : Yaml → Yaml → Prop
  | self (v : Yaml) : Reaches v v
  | item {items : List Yaml} {v w : Yaml} : v ∈ items → Reaches v w → Reaches (.sequence items) w

/-! ## Values without an expression -/

mutual

/-- Only mappings have no expression. -/
theorem exists_mapping_of_toExpr : ∀ (v : Yaml) {e : CompileError}, toExpr v = .error e →
    e = .manifest .hashValue ∧ ∃ entries, v.Reaches (.mapping entries)
  | .mapping entries, _, h => by
    cases h
    exact ⟨rfl, entries, .self _⟩
  | .sequence items, e, h => by
    rw [toExpr] at h
    cases hitems : toExprs items with
    | ok es =>
      rw [hitems] at h
      cases h
    | error f =>
      rw [hitems] at h
      cases h
      obtain ⟨hf, v, hv, entries, hreach⟩ := exists_mapping_of_toExprs items hitems
      exact ⟨hf, entries, .item hv hreach⟩

theorem exists_mapping_of_toExprs : ∀ (items : List Yaml) {e : CompileError},
    toExprs items = .error e →
      e = .manifest .hashValue ∧ ∃ v ∈ items, ∃ entries, v.Reaches (.mapping entries)
  | v :: rest, e, h => by
    rw [toExprs] at h
    cases hv : toExpr v with
    | error f =>
      rw [hv] at h
      cases h
      obtain ⟨hf, hreach⟩ := exists_mapping_of_toExpr v hv
      exact ⟨hf, v, List.mem_cons_self, hreach⟩
    | ok e₁ =>
      rw [hv] at h
      cases hrest : toExprs rest with
      | ok es =>
        rw [hrest] at h
        cases h
      | error f =>
        rw [hrest] at h
        cases h
        obtain ⟨hf, w, hw, hreach⟩ := exists_mapping_of_toExprs rest hrest
        exact ⟨hf, w, List.mem_cons_of_mem _ hw, hreach⟩

end

/-- Where one item has no expression, all together have none. -/
theorem toExprs_eq_error_of_mem {items : List Yaml} {v : Yaml} {e : CompileError} (hv : v ∈ items)
    (h : toExpr v = .error e) : ∃ f, toExprs items = .error f := by
  induction items with
  | nil => cases hv
  | cons w rest ih =>
    rw [toExprs]
    cases hw : toExpr w with
    | error f => exact ⟨f, rfl⟩
    | ok e₁ =>
      rcases List.mem_cons.mp hv with rfl | hv
      · cases h.symm.trans hw
      · obtain ⟨f, hf⟩ := ih hv
        exact ⟨f, by rw [hf]; rfl⟩

/-- A value has no expression exactly if a mapping is reached in it. -/
theorem toExpr_eq_error_iff {v : Yaml} :
    (∃ e, toExpr v = .error e) ↔ ∃ entries, v.Reaches (.mapping entries) := by
  refine ⟨fun ⟨_, h⟩ => (exists_mapping_of_toExpr v h).2, ?_⟩
  rintro ⟨entries, h⟩
  generalize hw : Yaml.mapping entries = w at h
  induction h with
  | self v =>
    subst hw
    exact ⟨_, rfl⟩
  | item hv _ ih =>
    obtain ⟨e, he⟩ := ih hw
    obtain ⟨f, hf⟩ := toExprs_eq_error_of_mem hv he
    exact ⟨f, by rw [toExpr, hf]; rfl⟩

/-! ## The value of the expression -/

mutual

theorem isPlain_toExpr : ∀ (v : Yaml) {e : Expr}, toExpr v = .ok e → e.isPlain = true
  | .string s, _, h => by
    cases h
    exact isPlain_interpolate s
  | .sequence items, _, h => by
    rw [toExpr] at h
    obtain ⟨es, hes, h⟩ := exists_of_bind_eq_ok h
    cases h
    exact arePlain_toExprs items hes
  | .null, _, h => by cases h; rfl
  | .bool _, _, h => by cases h; rfl
  | .number _, _, h => by cases h; rfl
  | .tagged _ _, _, h => by cases h; rfl

theorem arePlain_toExprs : ∀ (items : List Yaml) {es : List Expr}, toExprs items = .ok es →
    Expr.arePlain es = true
  | [], _, h => by cases h; rfl
  | v :: rest, _, h => by
    rw [toExprs] at h
    obtain ⟨e, he, h⟩ := exists_of_bind_eq_ok h
    obtain ⟨es, hes, h⟩ := exists_of_bind_eq_ok h
    cases h
    rw [Expr.arePlain, isPlain_toExpr v he, arePlain_toExprs rest hes]
    rfl

end

/-- No string that is reached in a value refers to a variable. -/
def IsConstant (v : Yaml) : Prop :=
  ∀ t, v.Reaches (.string t) → ¬ContainsReference t.toList

@[simp]
theorem isConstant_string {s : String} : IsConstant (.string s) ↔ ¬ContainsReference s.toList := by
  refine ⟨fun h => h s (.self _), fun h t ht => ?_⟩
  cases ht
  exact h

@[simp]
theorem isConstant_sequence {items : List Yaml} :
    IsConstant (.sequence items) ↔ ∀ v ∈ items, v.IsConstant := by
  refine ⟨fun h v hv t ht => h t (.item hv ht), fun h t ht => ?_⟩
  cases ht with
  | item hv ht => exact h _ hv t ht

mutual

/-- Whatever variables stand for, a value without references has the value of the same fact. -/
theorem valueIn_toExpr {ε : Type} (look : String → Except ε Value) : ∀ (v : Yaml) {e : Expr},
    toExpr v = .ok e → v.IsConstant → e.valueIn look = .ok (toValue v)
  | .string s, _, h, hconstant => by
    cases h
    rw [interpolate_of_not_contains (isConstant_string.mp hconstant)]
    rfl
  | .sequence items, _, h, hconstant => by
    rw [toExpr] at h
    obtain ⟨es, hes, h⟩ := exists_of_bind_eq_ok h
    cases h
    rw [Expr.valueIn, valuesIn_toExprs look items hes (isConstant_sequence.mp hconstant)]
    rfl
  | .null, _, h, _ => by cases h; rfl
  | .bool _, _, h, _ => by cases h; rfl
  | .number _, _, h, _ => by cases h; rfl
  | .tagged _ _, _, h, _ => by cases h; rfl

theorem valuesIn_toExprs {ε : Type} (look : String → Except ε Value) : ∀ (items : List Yaml)
    {es : List Expr}, toExprs items = .ok es → (∀ v ∈ items, v.IsConstant) →
      Expr.valuesIn look es = .ok (toValues items)
  | [], _, h, _ => by cases h; rfl
  | v :: rest, _, h, hconstant => by
    obtain ⟨hv, hrest⟩ := List.forall_mem_cons.mp hconstant
    rw [toExprs] at h
    obtain ⟨e, he, h⟩ := exists_of_bind_eq_ok h
    obtain ⟨es, hes, h⟩ := exists_of_bind_eq_ok h
    cases h
    rw [Expr.valuesIn, valueIn_toExpr look v he hv, valuesIn_toExprs look rest hes hrest]
    rfl

end

open Compilation in
/-- A value has an expression unless a mapping is reached in it; and if no string in it refers to a
variable, the evaluation of the expression gives the value of the same fact, in every scope and
state, and changes nothing. -/
theorem run_evaluate_toExpr (v : Yaml) :
    ((∃ e, toExpr v = .error e) ↔ ∃ entries, v.Reaches (.mapping entries)) ∧
      ∀ e, toExpr v = .ok e → v.IsConstant → ∀ strict code scope s,
        (evaluate strict code scope e).run s = (.ok (toValue v), s) := by
  refine ⟨toExpr_eq_error_iff, fun e he hconstant strict code scope s => ?_⟩
  rw [run_evaluate_plain strict code scope s e (isPlain_toExpr v he),
    valueIn_toExpr _ v he hconstant]

open Compilation in
/-- A number past the range of integers is its own text, a dollar sign before a digit refers to
nothing, and a mapping under a tag is a text. -/
theorem run_evaluate_toExpr_limits :
    let v : Yaml := .sequence [.number (.unsigned 9223372036854775808), .number (.negative (-7)),
      .sequence [.string "cost: $5", .null], .tagged "Ref" (.mapping [])]
    v.IsConstant ∧ ∃ e, toExpr v = .ok e ∧ ∀ strict code scope s,
      (evaluate strict code scope e).run s = (.ok (.array [.str "9223372036854775808", .int (-7),
        .array [.str "cost: $5", .undefined], toValue (.tagged "Ref" (.mapping []))]), s) := by
  intro v
  have hprice : ¬ContainsReference "cost: $5".toList := interpolate_eq_literal_iff.mp ⟨_, rfl⟩
  have hconstant : v.IsConstant := by
    simp only [v, isConstant_sequence, List.forall_mem_cons, isConstant_string]
    exact ⟨nofun, nofun, ⟨hprice, nofun, nofun⟩, nofun, nofun⟩
  refine ⟨hconstant, _, rfl, fun strict code scope s => ?_⟩
  exact (run_evaluate_toExpr v).2 _ rfl hconstant strict code scope s

end Yaml

end SiteCatalog
